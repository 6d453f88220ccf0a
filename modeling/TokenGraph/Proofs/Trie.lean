import Mathlib.Data.List.Infix
import TokenGraph.Proofs.Graph
import TokenGraph.Proofs.Run

/-!
# Trees of literals

An automaton made of literals is a tree: its states stand for the beginnings of the literals, and
an edge leads from each of them to every beginning that is one character longer. Running it walks
down the tree as far as the text goes.
-/

namespace TokenGraph

/-- An edge for a single character, with which it is labelled. -/
structure Edge.IsLiteral (e : Edge) (c : Char) : Prop where
  label : e.label = [c]
  kind : e.kind = .charClass
  chars : e.chars = some (.only c)

/-- A tree whose state `i` stands for the word `words[i]`, and accepts it if it is in `accepted`. -/
structure Automaton.IsTree (m : Automaton) (words accepted : List Text) : Prop where
  count : m.states.size = words.length
  root : words[0]? = some []
  nodup : words.Nodup
  closed : ∀ (w : Text) (c : Char), w ++ [c] ∈ words → w ∈ words
  resolved : m.Resolved
  edge : ∀ (s : Nat) (w : Text), words[s]? = some w → ∀ e ∈ m.outgoing s,
    ∃ c, e.IsLiteral c ∧ words[e.dst]? = some (w ++ [c])
  child : ∀ (s t : Nat) (w : Text) (c : Char), words[s]? = some w → words[t]? = some (w ++ [c]) →
    ∃ e ∈ m.outgoing s, e.label = [c]
  accepting : ∀ (s : Nat) (w : Text), words[s]? = some w → (m.isAccepting s = true ↔ w ∈ accepted)
  noError : ∀ s, m.isError s = false
  known : ∀ w ∈ accepted, w ∈ words

theorem getElem?_concat_eq_some {α : Type} {xs : List α} {x y : α} {i : Nat} :
    (xs ++ [x])[i]? = some y ↔ xs[i]? = some y ∨ i = xs.length ∧ x = y := by
  rcases Nat.lt_trichotomy i xs.length with h | h | h
  · simp [List.getElem?_append_left h, Nat.ne_of_lt h]
  · simp [h]
  · have hlen : (xs ++ [x]).length ≤ i := by simpa using Nat.succ_le_of_lt h
    simp [List.getElem?_eq_none hlen, List.getElem?_eq_none (Nat.le_of_lt h), Nat.ne_of_gt h]

namespace Automaton

theorem initial_isTree : initial.IsTree [[]] [] where
  count := rfl
  root := rfl
  nodup := by simp
  closed := by simp
  resolved := by
    intro s state hstate id hid
    cases s with
    | zero =>
      cases hstate
      cases hid
    | succ s => simp [initial] at hstate
  edge := by
    intro s w hw e he
    cases s with
    | zero => simp [initial, outgoing, listed, lookUp, State.fresh] at he
    | succ s => simp at hw
  child := by
    intro s t w c hs ht
    cases t <;> simp at ht
  accepting := by
    intro s w hw
    cases s with
    | zero => simp [initial, isAccepting, State.isAccepting, State.fresh]
    | succ s => simp at hw
  noError := by
    intro s
    cases s with
    | zero => simp [initial, isError, State.isError, State.fresh]
    | succ s => simp [initial, isError]
  known := by simp

namespace IsTree

variable {m : Automaton} {words accepted : List Text}

theorem lt_of_word (h : m.IsTree words accepted) {s : Nat} {w : Text} (hs : words[s]? = some w) :
    s < m.states.size := by
  rw [h.count]
  exact (List.getElem?_eq_some_iff.mp hs).1

theorem index_unique (h : m.IsTree words accepted) {s t : Nat} {w : Text}
    (hs : words[s]? = some w) (ht : words[t]? = some w) : s = t := by
  have hlt : s < words.length := h.count ▸ h.lt_of_word hs
  exact (List.getElem?_inj hlt h.nodup).mp (hs.trans ht.symm)

theorem mem_of_append (h : m.IsTree words accepted) {v w : Text} (hmem : w ++ v ∈ words) :
    w ∈ words := by
  induction v generalizing w with
  | nil => simpa using hmem
  | cons c v ih =>
    rw [List.append_cons] at hmem
    exact h.closed w c (ih hmem)

theorem not_mem_of_findEdge?_none (h : m.IsTree words accepted) {s : Nat} {w : Text} {c : Char}
    (hs : words[s]? = some w) (hnone : m.findEdge? s [c] = none) : w ++ [c] ∉ words := by
  intro hmem
  obtain ⟨t, ht⟩ := List.mem_iff_getElem?.mp hmem
  obtain ⟨e, he, hlabel⟩ := h.child s t w c hs ht
  have := List.find?_eq_none.mp hnone e he
  simp [hlabel] at this

end IsTree

/-- Grows a leaf: a new state behind the others, and the edge that leads to it. -/
def grow (m : Automaton) (s : Nat) (w : Text) (c : Char) : Automaton :=
  (m.pushState (.fresh (w ++ [c]) .intermediate)).connect s m.stateCount [c] .charClass
    (some (.only c))

namespace IsTree

variable {m : Automaton} {words accepted : List Text}

private theorem no_edge_to_new (h : m.IsTree words accepted) {s : Nat} {w : Text}
    (hs : words[s]? = some w) (label : Text) (role : Role) (c : Char) :
    ∀ e ∈ (m.pushState (.fresh label role)).outgoing s,
      ¬ (e.dst = m.stateCount ∧ e.label = [c]) := by
  rintro e he ⟨hdst, -⟩
  rw [outgoing_pushState m rfl] at he
  obtain ⟨d, -, hword⟩ := h.edge s w hs e he
  have hlt : e.dst < m.states.size := h.lt_of_word hword
  rw [hdst, stateCount] at hlt
  omega

/-- Growing a leaf adds the edge that leads to it behind the others. -/
theorem grow_edges (h : m.IsTree words accepted) {s : Nat} {w : Text} (hs : words[s]? = some w)
    (c : Char) : (m.grow s w c).edges =
      m.edges.push ⟨m.edges.size, s, m.stateCount, [c], .charClass, some (.only c)⟩ :=
  connect_edges (h.no_edge_to_new hs (w ++ [c]) .intermediate c)

theorem grow (h : m.IsTree words accepted) {s : Nat} {w : Text} {c : Char}
    (hs : words[s]? = some w) (hnew : w ++ [c] ∉ words) :
    (m.grow s w c).IsTree (words ++ [w ++ [c]]) accepted := by
  have hconnect := h.no_edge_to_new hs (w ++ [c]) .intermediate c
  have hsize : m.stateCount = words.length := h.count
  have hresolved : (m.pushState (.fresh (w ++ [c]) .intermediate)).Resolved :=
    h.resolved.pushState rfl
  have hslt : s < (m.pushState (.fresh (w ++ [c]) .intermediate)).states.size := by
    have := h.lt_of_word hs
    simp [pushState]
    omega
  have hout : ∀ i, (m.grow s w c).outgoing i = m.outgoing i ++
      if i = s then [⟨m.edges.size, s, m.stateCount, [c], .charClass, some (.only c)⟩] else [] := by
    intro i
    rw [Automaton.grow, outgoing_connect hresolved hslt hconnect, outgoing_pushState m rfl]
    rfl
  have hrole : ∀ i, (m.grow s w c).role? i =
      if i = words.length then some .intermediate else m.role? i := by
    intro i
    rw [Automaton.grow, role?_connect hconnect, role?_pushState, hsize]
    rfl
  constructor
  case count =>
    rw [Automaton.grow, connect_size]
    simp [Automaton.pushState, h.count]
  case root =>
    exact getElem?_concat_eq_some.mpr (.inl h.root)
  case nodup =>
    refine List.nodup_append.mpr ⟨h.nodup, by simp, ?_⟩
    rintro v hv u hu rfl
    exact hnew (List.mem_singleton.mp hu ▸ hv)
  case closed =>
    intro v d hv
    rcases List.mem_append.mp hv with hv | hv
    · exact List.mem_append_left _ (h.closed v d hv)
    · obtain ⟨rfl, -⟩ := List.append_inj' (List.mem_singleton.mp hv) rfl
      exact List.mem_append_left _ (List.mem_of_getElem? hs)
  case resolved =>
    exact hresolved.connect hconnect
  case edge =>
    intro i v hi e he
    rw [hout, List.mem_append] at he
    rcases he with he | he
    · have hiv : words[i]? = some v := by
        rcases getElem?_concat_eq_some.mp hi with hi | ⟨rfl, -⟩
        · exact hi
        · rw [outgoing_of_none (by simp [h.count])] at he
          simp at he
      obtain ⟨d, hliteral, hword⟩ := h.edge i v hiv e he
      exact ⟨d, hliteral, getElem?_concat_eq_some.mpr (.inl hword)⟩
    · split at he
      · next his =>
        subst his
        rw [List.mem_singleton] at he
        subst he
        have hvw : v = w := by
          rcases getElem?_concat_eq_some.mp hi with hi | ⟨rfl, -⟩
          · exact Option.some.inj (hi.symm.trans hs)
          · simp at hs
        refine ⟨c, ⟨rfl, rfl, rfl⟩, ?_⟩
        exact getElem?_concat_eq_some.mpr (.inr ⟨hsize, by rw [hvw]⟩)
      · simp at he
  case child =>
    intro i j v d hi hj
    rw [hout]
    rcases getElem?_concat_eq_some.mp hj with hj | ⟨rfl, heq⟩
    · rcases getElem?_concat_eq_some.mp hi with hi | ⟨rfl, rfl⟩
      · obtain ⟨e, he, hlabel⟩ := h.child i j v d hi hj
        exact ⟨e, List.mem_append_left _ he, hlabel⟩
      · exact absurd (h.closed _ d (List.mem_of_getElem? hj)) hnew
    · obtain ⟨rfl, hcd⟩ := List.append_inj' heq rfl
      rcases getElem?_concat_eq_some.mp hi with hi | ⟨rfl, hself⟩
      · rw [if_pos (h.index_unique hi hs)]
        exact ⟨_, List.mem_append_right _ (List.mem_singleton_self _), hcd⟩
      · simp at hself
  case accepting =>
    intro i v hi
    rw [isAccepting_iff, hrole]
    rcases getElem?_concat_eq_some.mp hi with hi | ⟨rfl, rfl⟩
    · have hlt : i < words.length := (List.getElem?_eq_some_iff.mp hi).1
      rw [if_neg (Nat.ne_of_lt hlt), ← isAccepting_iff]
      exact h.accepting i v hi
    · simp only [if_true, Option.some.injEq, reduceCtorEq, false_iff]
      exact fun hmem => hnew (h.known _ hmem)
  case noError =>
    intro i
    rw [Bool.eq_false_iff, Ne, isError_iff, hrole]
    split
    · simp
    · rw [← isError_iff, h.noError]
      simp
  case known =>
    intro v hv
    exact List.mem_append_left _ (h.known v hv)

theorem accept (h : m.IsTree words accepted) {s : Nat} {w : Text} (hs : words[s]? = some w) :
    (m.setRole s .accepting).IsTree words (w :: accepted) := by
  have hrole := m.role?_setRole (h.lt_of_word hs) .accepting
  constructor
  case count =>
    simp [setRole, h.count]
  case root =>
    exact h.root
  case nodup =>
    exact h.nodup
  case closed =>
    exact h.closed
  case resolved =>
    exact h.resolved.setRole s .accepting
  case edge =>
    intro i v hi e he
    rw [outgoing_setRole] at he
    exact h.edge i v hi e he
  case child =>
    intro i j v d hi hj
    rw [outgoing_setRole]
    exact h.child i j v d hi hj
  case accepting =>
    intro i v hi
    rw [isAccepting_iff, hrole, List.mem_cons]
    by_cases his : i = s
    · subst his
      simp [Option.some.inj (hi.symm.trans hs)]
    · have hvw : v ≠ w := by
        rintro rfl
        exact his (h.index_unique hi hs)
      rw [if_neg his, ← isAccepting_iff, h.accepting i v hi]
      simp [hvw]
  case noError =>
    intro i
    rw [Bool.eq_false_iff, Ne, isError_iff, hrole]
    split
    · simp
    · rw [← isError_iff, h.noError]
      simp
  case known =>
    intro v hv
    rcases List.mem_cons.mp hv with rfl | hv
    · exact List.mem_of_getElem? hs
    · exact h.known v hv

end IsTree

/-! ### Growing by symbols -/

/-- Some words with another one behind them, unless it is one of them. -/
def note (words : List Text) (v : Text) : List Text := if v ∈ words then words else words ++ [v]

theorem mem_foldl_note {words vs : List Text} {v : Text} :
    v ∈ vs.foldl note words ↔ v ∈ words ∨ v ∈ vs := by
  induction vs generalizing words with
  | nil => simp
  | cons u vs ih =>
    have hnote : v ∈ note words u ↔ v ∈ words ∨ v = u := by
      rw [note]
      split
      · next hu => exact (or_iff_left_of_imp fun h => h ▸ hu).symm
      · rw [List.mem_append, List.mem_singleton]
    rw [List.foldl_cons, ih, hnote, List.mem_cons, or_assoc]

/-- A word with the beginnings of a text behind it, from one character on. -/
def growth (w rest : Text) : List Text := rest.inits.tail.map (w ++ ·)

theorem growth_cons (w : Text) (c : Char) (rest : Text) :
    growth w (c :: rest) = (w ++ [c]) :: growth (w ++ [c]) rest := by
  obtain ⟨vs, hinits⟩ : ∃ vs, rest.inits = [] :: vs := by cases rest <;> exact ⟨_, rfl⟩
  rw [growth, growth, List.inits_cons, hinits]
  simp

/-- The beginnings of some symbols that are not empty, symbol by symbol, the shorter ones first. -/
def beginnings (symbols : List Text) : List Text := symbols.flatMap fun x => growth [] x

def Begins (symbols : List Text) (v : Text) : Prop := ∃ x ∈ symbols, v <+: x

theorem mem_growth_nil {v x : Text} : v ∈ growth [] x ↔ v ≠ [] ∧ v <+: x := by
  cases x with
  | nil => simp [growth]
  | cons c x =>
    rw [growth, List.inits_cons, List.tail_cons]
    cases v with
    | nil => simp
    | cons d v => simp [List.cons_prefix_cons, List.mem_inits, and_comm, eq_comm]

theorem mem_beginnings {symbols : List Text} {v : Text} :
    v ∈ beginnings symbols ↔ v ≠ [] ∧ Begins symbols v := by
  simp only [beginnings, Begins, List.mem_flatMap, mem_growth_nil]
  tauto

section Induction

/-! What holds of the start, and is kept by growing a leaf and by accepting a word, is kept by
walking a symbol down a tree, and holds of every automaton of symbols. -/

variable {P : Automaton → List Text → Prop}
  (hgrow : ∀ {m words accepted s w c}, m.IsTree words accepted → P m words →
    words[s]? = some w → w ++ [c] ∉ words → P (m.grow s w c) (words ++ [w ++ [c]]))
  (haccept : ∀ {m words accepted s w}, m.IsTree words accepted → P m words →
    words[s]? = some w → w ≠ [] → P (m.setRole s .accepting) words)

include hgrow in
theorem IsTree.extend_induction {m : Automaton} {words accepted : List Text} {s : Nat} {w : Text}
    (h : m.IsTree words accepted) (hP : P m words) (hs : words[s]? = some w) (rest : Text) :
    (m.extend s w rest).1.IsTree ((growth w rest).foldl note words) accepted ∧
      P (m.extend s w rest).1 ((growth w rest).foldl note words) ∧
      ((growth w rest).foldl note words)[(m.extend s w rest).2]? = some (w ++ rest) := by
  induction rest generalizing m words s w with
  | nil => exact ⟨h, hP, by simpa [Automaton.extend, growth] using hs⟩
  | cons c rest ih =>
    have happend : w ++ c :: rest = w ++ [c] ++ rest := List.append_cons w c rest
    rw [growth_cons, List.foldl_cons, happend, Automaton.extend]
    cases hfind : m.findEdge? s [c] with
    | some e =>
      obtain ⟨d, hliteral, hdst⟩ := h.edge s w hs e (List.mem_of_find?_eq_some hfind)
      have hlabel : e.label = [c] := by simpa using List.find?_some hfind
      obtain rfl : d = c := by simpa [hliteral.label] using hlabel
      rw [note, if_pos (List.mem_of_getElem? hdst)]
      exact ih h hP hdst
    | none =>
      have hnew := h.not_mem_of_findEdge?_none hs hfind
      rw [note, if_neg hnew]
      refine ih (h.grow hs hnew) (hgrow h hP hs hnew) ?_
      simp [stateCount, h.count]

include hgrow haccept in
theorem IsTree.addSymbols_induction {m : Automaton} {words accepted : List Text}
    (h : m.IsTree words accepted) (hP : P m words) (symbols : List Text) : ∃ accepted',
    (symbols.foldl addSymbol m).IsTree ((beginnings symbols).foldl note words) accepted' ∧
      (∀ v, v ∈ accepted' ↔ v ∈ accepted ∨ v ≠ [] ∧ v ∈ symbols) ∧
      P (symbols.foldl addSymbol m) ((beginnings symbols).foldl note words) := by
  induction symbols generalizing m words accepted with
  | nil => exact ⟨accepted, h, by simp, hP⟩
  | cons symbol symbols ih =>
    rw [List.foldl_cons, beginnings, List.flatMap_cons, List.foldl_append]
    by_cases hne : symbol = []
    · subst hne
      obtain ⟨accepted', htree, haccepted, hP'⟩ := ih h hP
      refine ⟨accepted', htree, fun v => ?_, hP'⟩
      rw [haccepted, List.mem_cons]
      tauto
    · obtain ⟨hgrown, hPgrown, hlast⟩ := h.extend_induction hgrow hP h.root symbol
      have hstep : m.addSymbol symbol =
          (m.extend start [] symbol).1.setRole (m.extend start [] symbol).2 .accepting := by
        rw [addSymbol, if_neg (by simpa using hne)]
        rfl
      rw [hstep]
      obtain ⟨accepted', htree, haccepted, hP'⟩ :=
        ih (hgrown.accept hlast) (haccept hgrown hPgrown hlast hne)
      refine ⟨accepted', htree, fun v => ?_, hP'⟩
      have hsymbol : v = symbol → v ≠ [] := by
        rintro rfl
        exact hne
      rw [haccepted, List.mem_cons, List.mem_cons, List.nil_append]
      tauto

include hgrow haccept in
theorem ofLiterals_induction (hinitial : P initial [[]]) (symbols : List Text) :
    P (ofLiterals symbols) ((beginnings symbols).foldl note [[]]) := by
  obtain ⟨-, -, -, hP⟩ := initial_isTree.addSymbols_induction hgrow haccept hinitial symbols
  exact hP

end Induction

/-- The automaton of some literals is the tree of their beginnings. -/
theorem ofLiterals_isTree (symbols : List Text) : ∃ accepted,
    (ofLiterals symbols).IsTree ((beginnings symbols).foldl note [[]]) accepted ∧
      ∀ v, v ∈ accepted ↔ v ≠ [] ∧ v ∈ symbols := by
  obtain ⟨accepted, htree, haccepted, -⟩ := initial_isTree.addSymbols_induction
    (P := fun _ _ => True) (fun _ _ _ _ => trivial) (fun _ _ _ _ => trivial) trivial symbols
  exact ⟨accepted, htree, by simpa using haccepted⟩

end Automaton

namespace Scanner

/-- The edges of a tree fire on the character that they are labelled with, whether labels or
classes are looked at. -/
private theorem direct?_of_literals (m : Scanner) (c : Char) {edges : List Edge}
    (h : ∀ e ∈ edges, ∃ d, e.IsLiteral d) :
    m.direct? c edges = (edges.find? fun e => e.label = [c]).map fun e => .advance e.dst := by
  induction edges with
  | nil => rfl
  | cons e edges ih =>
    obtain ⟨d, hliteral⟩ := h e (by simp)
    have hfires : m.fires e c = decide (e.label = [c]) := by
      simp [fires, Edge.spells, Edge.takes, hliteral.label, hliteral.chars, CharClass.contains]
    rw [direct?, hliteral.kind]
    dsimp only
    rw [hfires, List.find?_cons, ih fun f hf => h f (by simp [hf])]
    by_cases hc : e.label = [c] <;> simp [hc]

private theorem fallback?_of_literals {edges : List Edge}
    (h : ∀ e ∈ edges, ∃ d, e.IsLiteral d) : fallback? edges = none := by
  induction edges with
  | nil => rfl
  | cons e edges ih =>
    obtain ⟨d, hliteral⟩ := h e (by simp)
    rw [fallback?, hliteral.kind]
    exact ih fun f hf => h f (by simp [hf])

/-- In a tree a character leads to the longer word, or there is no such word and the word so far
decides. -/
theorem move_of_isTree {m : Scanner} {words accepted : List Text}
    (h : m.graph.IsTree words accepted) {s : Nat} {w : Text} (hs : words[s]? = some w) (c : Char) :
    (∃ t, m.move s c = .advance t ∧ words[t]? = some (w ++ [c])) ∨
      w ++ [c] ∉ words ∧ m.move s c = .stop (decide (w ∈ accepted)) := by
  have hliteral : ∀ e ∈ m.graph.outgoing s, ∃ d, e.IsLiteral d := by
    intro e he
    obtain ⟨d, hliteral, -⟩ := h.edge s w hs e he
    exact ⟨d, hliteral⟩
  have hfallback := fallback?_of_literals hliteral
  have hmove : m.move s c = m.guarded (((m.graph.findEdge? s [c]).map fun e =>
      Move.advance e.dst).getD (.stop (m.graph.isAccepting s))) := by
    rw [move, m.direct?_of_literals c hliteral, hfallback, Option.or_none]
    rfl
  rw [hmove]
  cases hfind : m.graph.findEdge? s [c] with
  | some e =>
    obtain ⟨d, hliteral, hdst⟩ := h.edge s w hs e (List.mem_of_find?_eq_some hfind)
    have hlabel : e.label = [c] := by simpa using List.find?_some hfind
    obtain rfl : d = c := by simpa [hliteral.label] using hlabel
    refine .inl ⟨e.dst, ?_, hdst⟩
    simp [guarded, h.noError]
  | none =>
    refine .inr ⟨h.not_mem_of_findEdge?_none hs hfind, ?_⟩
    simp only [Option.map_none, Option.getD_none, guarded, Move.stop.injEq]
    rw [Bool.eq_iff_iff, h.accepting s w hs, decide_eq_true_iff]

theorem runFrom_of_isTree {m : Scanner} {words accepted : List Text}
    (h : m.graph.IsTree words accepted) {s : Nat} {w : Text} (hs : words[s]? = some w)
    (source : Text) : ∃ u, m.runFrom s source = ⟨decide (w ++ u ∈ accepted), u⟩ ∧
      w ++ u ∈ words ∧ u <+: source ∧ ∀ v, v <+: source → w ++ v ∈ words → v.length ≤ u.length := by
  induction source generalizing s w with
  | nil =>
    refine ⟨[], ?_, by simpa using List.mem_of_getElem? hs, List.prefix_rfl, by simp⟩
    rw [runFrom, List.append_nil, Outcome.mk.injEq, Bool.eq_iff_iff, h.accepting s w hs]
    simp
  | cons c source ih =>
    rcases move_of_isTree h hs c with ⟨t, hmove, ht⟩ | ⟨hnone, hmove⟩
    · obtain ⟨u, hrun, hu, hprefix, hlongest⟩ := ih ht
      have hassoc : ∀ v, w ++ [c] ++ v = w ++ c :: v := by simp
      rw [hassoc] at hrun hu
      refine ⟨c :: u, ?_, hu, List.cons_prefix_cons.mpr ⟨rfl, hprefix⟩, ?_⟩
      · rw [runFrom_of_advance hmove, hrun]
      · intro v hv hmem
        cases v with
        | nil => simp
        | cons d v =>
          obtain ⟨rfl, hrest⟩ := List.cons_prefix_cons.mp hv
          exact Nat.succ_le_succ (hlongest v hrest (by rwa [hassoc]))
    · refine ⟨[], ?_, by simpa using List.mem_of_getElem? hs, List.nil_prefix, ?_⟩
      · rw [runFrom_of_stop hmove, List.append_nil]
      · intro v hv hmem
        cases v with
        | nil => simp
        | cons d v =>
          obtain ⟨rfl, -⟩ := List.cons_prefix_cons.mp hv
          rw [List.append_cons] at hmem
          exact absurd (h.mem_of_append hmem) hnone

/-- The automaton of some literals reads the longest text that is the beginning of a literal, and
accepts it if it is one as a whole. -/
theorem run_ofLiterals {m : Scanner} {symbols : List Text} (h : m.graph = .ofLiterals symbols)
    (source : Text) : ∃ u, m.run source = ⟨decide (u ≠ [] ∧ u ∈ symbols), u⟩ ∧
      (u = [] ∨ Automaton.Begins symbols u) ∧ u <+: source ∧
      ∀ v, v <+: source → Automaton.Begins symbols v → v.length ≤ u.length := by
  obtain ⟨accepted, htree, haccepted⟩ := Automaton.ofLiterals_isTree symbols
  have hwords : ∀ v, v ∈ (Automaton.beginnings symbols).foldl Automaton.note [[]] ↔
      v = [] ∨ Automaton.Begins symbols v := by
    intro v
    rw [Automaton.mem_foldl_note, List.mem_singleton, Automaton.mem_beginnings]
    tauto
  rw [← h] at htree
  obtain ⟨u, hrun, hu, hprefix, hlongest⟩ := runFrom_of_isTree htree htree.root source
  refine ⟨u, ?_, (hwords u).mp hu, hprefix, ?_⟩
  · rw [run, Automaton.start, hrun]
    simp only [List.nil_append, haccepted]
  · intro v hv hbegins
    exact hlongest v hv ((hwords v).mpr (.inr hbegins))

private theorem begins_length_le {symbols symbols' : List Text} {u u' source : Text}
    (h : ∀ w, w ≠ [] → (w ∈ symbols ↔ w ∈ symbols'))
    (hu : u = [] ∨ Automaton.Begins symbols u) (hsource : u <+: source)
    (hlongest : ∀ v, v <+: source → Automaton.Begins symbols' v → v.length ≤ u'.length) :
    u.length ≤ u'.length := by
  by_cases hne : u = []
  · simp [hne]
  · obtain ⟨x, hx, hbegin⟩ := hu.resolve_left hne
    have hxne : x ≠ [] := fun h => hne (List.prefix_nil.mp (h ▸ hbegin))
    exact hlongest u hsource ⟨x, (h x hxne).mp hx, hbegin⟩

/-- Trees of the same literals read alike, however they were grown. -/
theorem run_ofLiterals_congr {m m' : Scanner} {symbols symbols' : List Text}
    (hm : m.graph = .ofLiterals symbols) (hm' : m'.graph = .ofLiterals symbols')
    (h : ∀ w, w ≠ [] → (w ∈ symbols ↔ w ∈ symbols')) (source : Text) :
    m.run source = m'.run source := by
  obtain ⟨u, hrun, hbegins, hprefix, hlongest⟩ := run_ofLiterals hm source
  obtain ⟨u', hrun', hbegins', hprefix', hlongest'⟩ := run_ofLiterals hm' source
  have hle : u.length ≤ u'.length := begins_length_le h hbegins hprefix hlongest'
  have hge : u'.length ≤ u.length :=
    begins_length_le (fun w hw => (h w hw).symm) hbegins' hprefix' hlongest
  obtain rfl : u = u' :=
    (List.prefix_of_prefix_length_le hprefix hprefix' hle).eq_of_length (Nat.le_antisymm hle hge)
  rw [hrun, hrun', Outcome.mk.injEq, decide_eq_decide]
  exact ⟨and_congr_right fun hne => h u hne, rfl⟩

/-- A literal is read as a whole in front of a character that is in none of them. -/
theorem run_literal {m : Scanner} {symbols : List Text} (h : m.graph = .ofLiterals symbols)
    {w : Text} (hne : w ≠ []) (hw : w ∈ symbols) {c : Char} (hc : ∀ x ∈ symbols, c ∉ x)
    (rest : Text) : m.run (w ++ c :: rest) = ⟨true, w⟩ := by
  obtain ⟨u, hrun, hbegins, hprefix, hlongest⟩ := run_ofLiterals h (w ++ c :: rest)
  have hlen : w.length ≤ u.length :=
    hlongest w (List.prefix_append w _) ⟨w, hw, List.prefix_rfl⟩
  obtain ⟨v, rfl⟩ := List.prefix_of_prefix_length_le (List.prefix_append w _) hprefix hlen
  have hv : v = [] := by
    cases v with
    | nil => rfl
    | cons d v =>
      obtain ⟨x, hx, hbegin⟩ := hbegins.resolve_left (by simp)
      rw [List.prefix_append_right_inj, List.cons_prefix_cons] at hprefix
      obtain ⟨rfl, -⟩ := hprefix
      exact absurd (hbegin.subset (by simp)) (hc x hx)
  rw [hrun, hv, List.append_nil]
  simp [hne, hw]

theorem run_no_literal {m : Scanner} {symbols : List Text} (h : m.graph = .ofLiterals symbols)
    {c : Char} (hc : ∀ x ∈ symbols, x.head? ≠ some c) (rest : Text) :
    m.run (c :: rest) = ⟨false, []⟩ := by
  obtain ⟨u, hrun, hbegins, hprefix, -⟩ := run_ofLiterals h (c :: rest)
  have hu : u = [] := by
    cases u with
    | nil => rfl
    | cons d u =>
      obtain ⟨x, hx, v, rfl⟩ := hbegins.resolve_left (by simp)
      obtain ⟨rfl, -⟩ := List.cons_prefix_cons.mp hprefix
      exact absurd rfl (hc _ hx)
  rw [hrun, hu]
  simp

end Scanner

end TokenGraph
