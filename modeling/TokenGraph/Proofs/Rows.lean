import TokenGraph.Automaton.Scan
import TokenGraph.Pattern.Parser

/-!
# Rows

What a class scanner does in one state depends on little: whether the state accepts, and the guards
and targets of its edges in their order. The rows of a graph hold just that, so that a graph that
has been built can be read off as a table. The guard of a class is the expression that its pattern
is read as.
-/

namespace TokenGraph

namespace Regex

theorem found_iff (r : Regex) (w : Text) :
    r.found w = true ↔ ∃ i, i ≤ w.length ∧ ∃ j, j ∈ r.ends w i := by
  have hends : ∀ i, (!(r.ends w i).isEmpty) = true ↔ ∃ j, j ∈ r.ends w i := by
    simp [List.eq_nil_iff_forall_not_mem]
  simp only [found, List.any_eq_true, List.mem_range, hends, Nat.lt_succ_iff]

theorem mem_ends_seq (r s : Regex) (w : Text) (i j : Nat) :
    j ∈ (Regex.seq r s).ends w i ↔ ∃ k ∈ r.ends w i, j ∈ s.ends w k := by
  rw [ends, List.mem_eraseDups, List.mem_flatMap]

theorem mem_ends_anchor (place : Anchor) (w : Text) (i j : Nat) :
    j ∈ (anchor place).ends w i ↔
      place.holds (if i = 0 then none else w[i - 1]?) w[i]? = true ∧ j = i := by
  rw [ends]
  split <;> simp [*]

/-- An expression between the anchors of a whole text. -/
def whole (r : Regex) : Regex := .seq (.anchor .textStart) (.seq r (.anchor .textEnd))

/-- On a single character only a match that starts in front of it and ends behind it counts. -/
theorem found_whole_singleton (r : Regex) (c : Char) :
    r.whole.found [c] = true ↔ ∃ j ∈ r.ends [c] 0, j ≠ 0 := by
  simp only [found_iff, whole, mem_ends_seq, mem_ends_anchor]
  constructor
  · rintro ⟨i, hi, -, k, ⟨hstart, rfl⟩, j, hj, hend, -⟩
    have hk : k = 0 ∨ k = 1 := by
      rw [List.length_singleton] at hi
      omega
    rcases hk with rfl | rfl
    · refine ⟨j, hj, ?_⟩
      rintro rfl
      simp [Anchor.holds] at hend
    · simp [Anchor.holds] at hstart
  · rintro ⟨j, hj, hne⟩
    refine ⟨0, Nat.zero_le _, j, 0, ⟨rfl, rfl⟩, j, hj, ?_, rfl⟩
    simp [Anchor.holds, hne]

theorem found_whole_one (set : CharSet) (c : Char) :
    (whole (.one set)).found [c] = set.contains c := by
  rw [Bool.eq_iff_iff, found_whole_singleton]
  cases h : set.contains c <;> simp [ends, h]

theorem found_whole_alt (a b : CharSet) (c : Char) :
    (whole (.alt (.one a) (.one b))).found [c] = (a.contains c || b.contains c) := by
  rw [Bool.eq_iff_iff, found_whole_singleton]
  cases ha : a.contains c <;> cases hb : b.contains c <;> simp [ends, ha, hb]

theorem found_whole_repeated (set : CharSet) (c : Char) :
    (whole (.repeated (.one set) 1 none)).found [c] = set.contains c := by
  rw [Bool.eq_iff_iff, found_whole_singleton]
  cases h : set.contains c <;> simp [ends, h, rounds, roundsUpTo]

end Regex

/-- What an edge fires on: characters, where its pattern is an expression, a boundary, or all that
is left, which is read or not. -/
inductive Guard where
  | chars (r : Option Regex)
  | boundary
  | otherwise (consumes : Bool)
  deriving DecidableEq

/-- What a state does: whether it accepts, and for each of its edges the guard and the target, which
is missing where the edge leads to an error state. -/
structure Row where
  accepting : Bool
  arcs : List (Guard × Option Nat)
  deriving DecidableEq

namespace Row

@[simp]
def enter : Option Nat → Move
  | some t => .advance t
  | none => .stop false

@[simp]
def turn : Option Nat → Move
  | some t => .stay t
  | none => .stop false

/-- The move of the first edge that fires by itself, or what is left to do where none does. -/
@[simp]
def direct (boundary : Char → Bool) (c : Char) (left : Move) : List (Guard × Option Nat) → Move
  | [] => left
  | (.chars r, t) :: arcs =>
    if r.any fun r => r.found [c] then enter t else direct boundary c left arcs
  | (.boundary, _) :: arcs => if boundary c then .stop true else direct boundary c left arcs
  | (.otherwise _, _) :: arcs => direct boundary c left arcs

@[simp]
def fallback (left : Move) : List (Guard × Option Nat) → Move
  | [] => left
  | (.otherwise true, t) :: _ => enter t
  | (.otherwise false, t) :: _ => turn t
  | (.chars _, _) :: arcs => fallback left arcs
  | (.boundary, _) :: arcs => fallback left arcs

def move (boundary : Char → Bool) (r : Row) (c : Char) : Move :=
  direct boundary c (fallback (.stop r.accepting) r.arcs) r.arcs

/-- No edge leads anywhere at a character, whatever the boundary is. -/
def refused (c : Char) (arcs : List (Guard × Option Nat)) : Bool :=
  arcs.all fun
    | (.chars r, _) => !r.any fun r => r.found [c]
    | (.boundary, _) => true
    | (.otherwise _, t) => t.isNone

private theorem direct_of_refused {boundary : Char → Bool} {c : Char}
    {arcs : List (Guard × Option Nat)} (h : refused c arcs = true) (accepted : Bool) :
    ∃ accepted', direct boundary c (.stop accepted) arcs = .stop accepted' := by
  induction arcs with
  | nil => exact ⟨accepted, rfl⟩
  | cons arc arcs ih =>
    rw [refused, List.all_cons, Bool.and_eq_true] at h
    obtain ⟨harc, hrest⟩ := h
    match arc with
    | (.chars r, t) =>
      have hfound : (r.any fun r => r.found [c]) = false := by
        simpa only [Bool.not_eq_true'] using harc
      rw [direct, hfound, if_neg Bool.false_ne_true]
      exact ih hrest
    | (.boundary, t) =>
      rw [direct]
      split
      · exact ⟨true, rfl⟩
      · exact ih hrest
    | (.otherwise consumes, t) => exact ih hrest

private theorem fallback_of_refused {c : Char} {arcs : List (Guard × Option Nat)}
    (h : refused c arcs = true) (accepted : Bool) :
    ∃ accepted', fallback (.stop accepted) arcs = .stop accepted' := by
  induction arcs with
  | nil => exact ⟨accepted, rfl⟩
  | cons arc arcs ih =>
    rw [refused, List.all_cons, Bool.and_eq_true] at h
    obtain ⟨harc, hrest⟩ := h
    match arc with
    | (.chars r, t) => exact ih hrest
    | (.boundary, t) => exact ih hrest
    | (.otherwise consumes, t) =>
      obtain rfl : t = none := Option.isNone_iff_eq_none.mp harc
      cases consumes <;> exact ⟨false, rfl⟩

theorem move_of_refused {r : Row} {c : Char} (h : refused c r.arcs = true)
    (boundary : Char → Bool) : ∃ accepted, r.move boundary c = .stop accepted := by
  obtain ⟨accepted, hfallback⟩ := fallback_of_refused h r.accepting
  rw [move, hfallback]
  exact direct_of_refused h accepted

end Row

/-- The guard of an edge by its kind and label. -/
def Edge.guard (e : Edge) : Guard :=
  match e.kind with
  | .charClass => .chars (Regex.parse? (text "^(?:" ++ e.label ++ text ")$"))
  | .acceptOnBoundary => .boundary
  | .fallbackConsume => .otherwise true
  | .fallbackNoConsume => .otherwise false

namespace Automaton

/-- The class edges of a state have the classes of their labels. -/
def Patterned (m : Automaton) : Prop :=
  ∀ s, ∀ e ∈ m.outgoing s, e.kind = .charClass → e.chars = CharClass.ofPattern? e.label

/-- An edge as it stands in the row of its source. -/
def arc (m : Automaton) (e : Edge) : Guard × Option Nat :=
  (e.guard, if m.isError e.dst then none else some e.dst)

def row (m : Automaton) (s : Nat) : Row := ⟨m.isAccepting s, (m.outgoing s).map m.arc⟩

def rows (m : Automaton) : List Row := (List.range m.stateCount).map m.row

theorem row_of_rows {m : Automaton} {rows : List Row} (h : m.rows = rows) (s : Nat) :
    m.row s = rows.getD s ⟨false, []⟩ := by
  rw [← h, Automaton.rows, List.getD_eq_getElem?_getD, List.getElem?_map]
  by_cases hs : s < m.stateCount
  · rw [List.getElem?_range hs]
    rfl
  · have hnone : m.states[s]? = none := by
      rw [Array.getElem?_eq_none_iff]
      exact Nat.le_of_not_lt hs
    rw [List.getElem?_eq_none (by rw [List.length_range]; exact Nat.le_of_not_lt hs), row,
      isAccepting, outgoing, listed, hnone]
    rfl

theorem isAccepting_of_rows {m : Automaton} {rows : List Row} (h : m.rows = rows) (s : Nat) :
    m.isAccepting s = (rows.getD s ⟨false, []⟩).accepting := by
  rw [← row_of_rows h, row]

end Automaton

namespace Scanner

variable {m : Scanner}

private theorem guarded_enter (t : Nat) :
    m.guarded (.advance t) = Row.enter (if m.graph.isError t then none else some t) := by
  rw [guarded]
  split <;> rfl

private theorem guarded_turn (t : Nat) :
    m.guarded (.stay t) = Row.turn (if m.graph.isError t then none else some t) := by
  rw [guarded]
  split <;> rfl

private theorem takes_of_patterned {e : Edge} (h : e.chars = CharClass.ofPattern? e.label)
    (c : Char) : e.takes c =
      (Regex.parse? (text "^(?:" ++ e.label ++ text ")$")).any fun r => r.found [c] := by
  rw [Edge.takes, h, CharClass.ofPattern?, PatternEngine.compile?, Regex.engine]
  simp only [Option.any_map, CharClass.contains]

private theorem direct?_arcs (hexact : m.exact = false) (c : Char) (left : Move)
    {edges : List Edge}
    (hclasses : ∀ e ∈ edges, e.kind = .charClass → e.chars = CharClass.ofPattern? e.label) :
    ((m.direct? c edges).map m.guarded).getD left =
      Row.direct m.boundary c left (edges.map m.graph.arc) := by
  induction edges with
  | nil => rfl
  | cons e edges ih =>
    have ih := ih fun d hd => hclasses d (List.mem_cons_of_mem e hd)
    rw [direct?, List.map_cons, Automaton.arc, Edge.guard]
    cases hkind : e.kind with
    | charClass =>
      have hfires := takes_of_patterned (hclasses e List.mem_cons_self hkind) c
      dsimp only
      rw [Row.direct, fires, hexact, if_neg Bool.false_ne_true, hfires, ← guarded_enter, ← ih]
      split <;> rfl
    | acceptOnBoundary =>
      dsimp only
      rw [Row.direct, ← ih]
      split <;> rfl
    | fallbackConsume => exact ih
    | fallbackNoConsume => exact ih

private theorem fallback?_arcs (left : Move) (edges : List Edge) :
    ((fallback? edges).map m.guarded).getD left =
      Row.fallback left (edges.map m.graph.arc) := by
  induction edges with
  | nil => rfl
  | cons e edges ih =>
    rw [fallback?, List.map_cons, Automaton.arc, Edge.guard]
    cases e.kind with
    | charClass => exact ih
    | acceptOnBoundary => exact ih
    | fallbackConsume => exact guarded_enter e.dst
    | fallbackNoConsume => exact guarded_turn e.dst

theorem move_eq_row (hexact : m.exact = false) (hclasses : m.graph.Patterned) (s : Nat) (c : Char) :
    m.move s c = (m.graph.row s).move m.boundary c := by
  rw [Row.move, Automaton.row, ← direct?_arcs hexact c _ (hclasses s), ← fallback?_arcs, move]
  cases m.direct? c (m.graph.outgoing s) with
  | some move => rfl
  | none => cases fallback? (m.graph.outgoing s) <;> rfl

/-- The rows of a graph are all that there is to its class scanners; where there is no state they
stop and reject. -/
theorem move_of_rows (hexact : m.exact = false) (hclasses : m.graph.Patterned) {rows : List Row}
    (hrows : m.graph.rows = rows) (s : Nat) (c : Char) :
    m.move s c = (rows.getD s ⟨false, []⟩).move m.boundary c := by
  rw [move_eq_row hexact hclasses, Automaton.row_of_rows hrows]

end Scanner

end TokenGraph
