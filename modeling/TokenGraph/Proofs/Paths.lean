import TokenGraph.Proofs.Checked
import TokenGraph.Proofs.Stalls
import TokenGraph.Proofs.WellFormed

/-!
# Paths

What a scanner reads, told by the lists of edges of its states alone: which edge of a state is taken
at a character, what paths such edges make, and where a path ends in acceptance or rejection. A
scanner reports an outcome if and only if there is such a path. A list counts as far as it has been
looked through, and has to be there as a whole before anything is concluded from what it lacks.
-/

namespace TokenGraph

namespace Scanner

variable (m : Scanner)

/-- A class edge that fires on a character. -/
def Fits (c : Char) (e : Edge) : Prop := e.kind = .charClass ∧ m.fires e c = true

/-- A boundary edge in front of a boundary. -/
def Bounds (c : Char) (e : Edge) : Prop := e.kind = .acceptOnBoundary ∧ m.boundary c = true

/-- The edge that is taken in a state at a character. -/
inductive Takes (s : Nat) (c : Char) (e : Edge) : Prop
  | reads {before after : List Edge} (hlist : m.graph.outgoing s = before ++ e :: after)
      (hfits : m.Fits c e) (hfirst : ∀ d ∈ before, ¬ m.Fits c d ∧ ¬ m.Bounds c d)
  | falls {before after : List Edge} (hlist : m.graph.outgoing s = before ++ e :: after)
      (hfalls : e.kind.isFallback = true) (hfirst : ∀ d ∈ before, d.kind.isFallback = false)
      (hnone : ∀ d ∈ m.graph.outgoing s, ¬ m.Fits c d ∧ ¬ m.Bounds c d)
      (hall : (m.graph.listed s).missing = none)

/-- The token ends in front of a boundary. -/
def Ends (s : Nat) (c : Char) : Prop :=
  ∃ before d after, m.graph.outgoing s = before ++ d :: after ∧ m.Bounds c d ∧
    ∀ e ∈ before, ¬ m.Fits c e

def Stuck (s : Nat) (c : Char) : Prop :=
  (m.graph.listed s).missing = none ∧
    ∀ e ∈ m.graph.outgoing s, ¬ m.Fits c e ∧ ¬ m.Bounds c e ∧ e.kind.isFallback = false

/-- A path on which a text is read that some rest follows. None of the states that it enters is an
error state. -/
inductive Path (rest : Text) : Nat → Text → Nat → Prop
  | nil {s : Nat} : Path rest s [] s
  | read {s t : Nat} {c : Char} {w : Text} {e : Edge} (htakes : m.Takes s c e)
      (hkind : e.kind ≠ .fallbackNoConsume) (hrole : m.graph.isError e.dst = false)
      (hpath : Path rest e.dst w t) : Path rest s (c :: w) t
  | pass {s t : Nat} {c : Char} {w : Text} {e : Edge} (hnext : (w ++ rest).head? = some c)
      (htakes : m.Takes s c e) (hkind : e.kind = .fallbackNoConsume)
      (hrole : m.graph.isError e.dst = false) (hpath : Path rest e.dst w t) : Path rest s w t

/-- Where a path ends in acceptance. -/
inductive Accepts (s : Nat) : Text → Prop
  | finished (hrole : m.graph.isAccepting s = true) : Accepts s []
  | stuck {c : Char} {rest : Text} (hrole : m.graph.isAccepting s = true) (hstuck : m.Stuck s c) :
      Accepts s (c :: rest)
  | ends {c : Char} {rest : Text} (hends : m.Ends s c) : Accepts s (c :: rest)

variable {m} {s t u : Nat} {c : Char} {e : Edge} {move : Move} {settled : Settled}

/-! ### Moves -/

/-- What the edges of a state make a scanner do at a character. -/
inductive Does (m : Scanner) (s : Nat) (c : Char) : Move → Prop
  | advance {e : Edge} (htakes : m.Takes s c e) (hkind : e.kind ≠ .fallbackNoConsume)
      (hrole : m.graph.isError e.dst = false) : Does m s c (.advance e.dst)
  | stay {e : Edge} (htakes : m.Takes s c e) (hkind : e.kind = .fallbackNoConsume)
      (hrole : m.graph.isError e.dst = false) : Does m s c (.stay e.dst)
  | fails {e : Edge} (htakes : m.Takes s c e) (hrole : m.graph.isError e.dst = true) :
      Does m s c (.stop false)
  | ends (hends : m.Ends s c) : Does m s c (.stop true)
  | stuck {accepted : Bool} (hstuck : m.Stuck s c) (hrole : m.graph.isAccepting s = accepted) :
      Does m s c (.stop accepted)

/-- The edges that act by themselves at a character. -/
def acts (m : Scanner) (c : Char) (e : Edge) : Bool :=
  match e.kind with
  | .charClass => m.fires e c
  | .acceptOnBoundary => m.boundary c
  | .fallbackConsume | .fallbackNoConsume => false

theorem acts_eq_true_iff : m.acts c e = true ↔ m.Fits c e ∨ m.Bounds c e := by
  rw [acts, Fits, Bounds]
  cases e.kind <;> simp

theorem acts_eq_false_iff : m.acts c e = false ↔ ¬ m.Fits c e ∧ ¬ m.Bounds c e := by
  rw [← not_or, ← acts_eq_true_iff, Bool.not_eq_true]

/-- The move along an edge that acts. -/
def directMove (e : Edge) : Move :=
  if e.kind = .acceptOnBoundary then .stop true else .advance e.dst

/-- The move along an edge that is fallen back on. -/
def fallbackMove (e : Edge) : Move :=
  if e.kind = .fallbackNoConsume then .stay e.dst else .advance e.dst

theorem direct?_eq_find? (es : List Edge) :
    m.direct? c es = (es.find? (m.acts c)).map directMove := by
  induction es with
  | nil => rfl
  | cons e es ih =>
    rw [direct?, List.find?_cons, acts]
    cases hkind : e.kind with
    | charClass => cases m.fires e c <;> simp [ih, directMove, hkind]
    | acceptOnBoundary => cases m.boundary c <;> simp [ih, directMove, hkind]
    | fallbackConsume => exact ih
    | fallbackNoConsume => exact ih

theorem fallback?_eq_find? (es : List Edge) :
    fallback? es = (es.find? fun e => e.kind.isFallback).map fallbackMove := by
  induction es with
  | nil => rfl
  | cons e es ih =>
    rw [fallback?, List.find?_cons]
    cases hkind : e.kind with
    | charClass => exact ih
    | acceptOnBoundary => exact ih
    | fallbackConsume => simp [fallbackMove, hkind, EdgeKind.isFallback]
    | fallbackNoConsume => simp [fallbackMove, hkind, EdgeKind.isFallback]

/-- The first edge that acts decides; only behind the whole list the first fallback does, and then
the state. -/
theorem checkedMove_eq_ok_iff : m.checkedMove s c = .ok move ↔
    (∃ e, (m.graph.outgoing s).find? (m.acts c) = some e ∧ m.guarded (directMove e) = move) ∨
    (m.graph.listed s).missing = none ∧ (m.graph.outgoing s).find? (m.acts c) = none ∧
      m.guarded ((((m.graph.outgoing s).find? fun e => e.kind.isFallback).map fallbackMove).getD
        (.stop (m.graph.isAccepting s))) = move := by
  rw [checkedMove]
  cases hdirect : (m.graph.outgoing s).find? (m.acts c) with
  | some e =>
    have hsearch : (m.graph.listed s).search (m.direct? c) = .ok (some (directMove e)) := by
      rw [Lookup.search_eq_ok_iff, direct?_eq_find?]
      exact ⟨by rw [← Automaton.outgoing, hdirect]; rfl, .inr rfl⟩
    rw [hsearch]
    simp [bind, Except.bind, pure, Except.pure]
  | none =>
    cases hmissing : (m.graph.listed s).missing with
    | some edge =>
      have hsearch : (m.graph.listed s).search (m.direct? c) = .error edge := by
        rw [Lookup.search_eq_error_iff, direct?_eq_find?]
        exact ⟨by rw [← Automaton.outgoing, hdirect]; rfl, hmissing⟩
      rw [hsearch]
      simp [bind, Except.bind]
    | none =>
      rw [Lookup.search_eq_ok hmissing, Lookup.search_eq_ok hmissing, direct?_eq_find?,
        fallback?_eq_find?, ← Automaton.outgoing, hdirect]
      simp [bind, Except.bind, pure, Except.pure]

private theorem find?_acts_eq_some_iff : (m.graph.outgoing s).find? (m.acts c) = some e ↔
    (m.Fits c e ∨ m.Bounds c e) ∧ ∃ before after, m.graph.outgoing s = before ++ e :: after ∧
      ∀ d ∈ before, ¬ m.Fits c d ∧ ¬ m.Bounds c d := by
  rw [List.find?_eq_some_iff_append]
  simp only [Bool.not_eq_true', acts_eq_true_iff, acts_eq_false_iff]

private theorem find?_acts_eq_none_iff : (m.graph.outgoing s).find? (m.acts c) = none ↔
    ∀ d ∈ m.graph.outgoing s, ¬ m.Fits c d ∧ ¬ m.Bounds c d := by
  simp only [List.find?_eq_none, Bool.not_eq_true, acts_eq_false_iff]

/-- The edge that is taken is the one that the scanner moves along. -/
theorem checkedMove_of_takes (htakes : m.Takes s c e) :
    m.checkedMove s c = .ok (m.guarded (fallbackMove e)) := by
  rw [checkedMove_eq_ok_iff]
  cases htakes with
  | @reads before after hlist hfits hfirst =>
    refine .inl ⟨e, find?_acts_eq_some_iff.mpr ⟨.inl hfits, before, after, hlist, hfirst⟩, ?_⟩
    simp [directMove, fallbackMove, hfits.1]
  | @falls before after hlist hfalls hfirst hnone hall =>
    have hfind : (m.graph.outgoing s).find? (fun e => e.kind.isFallback) = some e := by
      rw [List.find?_eq_some_iff_append]
      exact ⟨hfalls, before, after, hlist, by simpa using hfirst⟩
    refine .inr ⟨hall, find?_acts_eq_none_iff.mpr hnone, ?_⟩
    rw [hfind]
    rfl

theorem checkedMove_of_ends (hends : m.Ends s c) : m.checkedMove s c = .ok (.stop true) := by
  obtain ⟨before, d, after, hlist, hbounds, hbefore⟩ := hends
  have hacts : m.acts c d = true := acts_eq_true_iff.mpr (.inr hbounds)
  refine checkedMove_eq_ok_iff.mpr (.inl ?_)
  rw [hlist, List.find?_append, List.find?_cons_of_pos hacts]
  cases hfind : before.find? (m.acts c) with
  | none => exact ⟨d, rfl, by simp [directMove, hbounds.1, guarded]⟩
  | some e =>
    have hnotFits := hbefore e (List.mem_of_find?_eq_some hfind)
    have hkind := ((acts_eq_true_iff.mp (List.find?_some hfind)).resolve_left hnotFits).1
    exact ⟨e, rfl, by simp [directMove, hkind, guarded]⟩

theorem checkedMove_of_stuck (hstuck : m.Stuck s c) :
    m.checkedMove s c = .ok (.stop (m.graph.isAccepting s)) := by
  obtain ⟨hall, hedges⟩ := hstuck
  have hnone : (m.graph.outgoing s).find? (fun e => e.kind.isFallback) = none := by
    rw [List.find?_eq_none]
    intro e he
    simp [(hedges e he).2.2]
  refine checkedMove_eq_ok_iff.mpr (.inr ⟨hall, ?_, ?_⟩)
  · exact find?_acts_eq_none_iff.mpr fun d hd => ⟨(hedges d hd).1, (hedges d hd).2.1⟩
  · rw [hnone]
    rfl

theorem does_of_takes (htakes : m.Takes s c e) : m.Does s c (m.guarded (fallbackMove e)) := by
  rw [fallbackMove]
  cases hrole : m.graph.isError e.dst with
  | true =>
    have hstop : m.guarded (if e.kind = .fallbackNoConsume then .stay e.dst else .advance e.dst) =
        .stop false := by
      split <;> simp [guarded, hrole]
    rw [hstop]
    exact .fails htakes hrole
  | false =>
    split
    · next hkind =>
      rw [guarded, hrole]
      exact .stay htakes hkind hrole
    · next hkind =>
      rw [guarded, hrole]
      exact .advance htakes hkind hrole

/-- A scanner does all that it does because of the edges of its states. -/
theorem checkedMove_eq_ok_iff_does : m.checkedMove s c = .ok move ↔ m.Does s c move := by
  constructor
  · rw [checkedMove_eq_ok_iff]
    rintro (⟨e, hfind, rfl⟩ | ⟨hall, hnone, rfl⟩)
    · obtain ⟨hfits | hbounds, before, after, hlist, hfirst⟩ := find?_acts_eq_some_iff.mp hfind
      · have hsame : directMove e = fallbackMove e := by simp [directMove, fallbackMove, hfits.1]
        rw [hsame]
        exact does_of_takes (.reads hlist hfits hfirst)
      · have hstop : m.guarded (directMove e) = .stop true := by
          simp [directMove, hbounds.1, guarded]
        rw [hstop]
        exact .ends ⟨before, e, after, hlist, hbounds, fun d hd => (hfirst d hd).1⟩
    · rw [find?_acts_eq_none_iff] at hnone
      cases hfalls : (m.graph.outgoing s).find? fun e => e.kind.isFallback with
      | some e =>
        obtain ⟨hfallback, before, after, hlist, hfirst⟩ :=
          List.find?_eq_some_iff_append.mp hfalls
        exact does_of_takes (.falls hlist hfallback (by simpa using hfirst) hnone hall)
      | none =>
        have hkinds : ∀ e ∈ m.graph.outgoing s, e.kind.isFallback = false := by
          simpa [List.find?_eq_none] using hfalls
        refine .stuck ⟨hall, fun e he => ?_⟩ rfl
        exact ⟨(hnone e he).1, (hnone e he).2, hkinds e he⟩
  · intro hdoes
    cases hdoes with
    | advance htakes hkind hrole =>
      rw [checkedMove_of_takes htakes, fallbackMove, if_neg hkind, guarded, hrole]
      rfl
    | stay htakes hkind hrole =>
      rw [checkedMove_of_takes htakes, fallbackMove, if_pos hkind, guarded, hrole]
      rfl
    | fails htakes hrole =>
      rw [checkedMove_of_takes htakes, fallbackMove]
      split <;> rw [guarded, hrole] <;> rfl
    | ends hends => exact checkedMove_of_ends hends
    | stuck hstuck hrole => rw [checkedMove_of_stuck hstuck, hrole]

theorem Does.unique {move' : Move} (h : m.Does s c move) (h' : m.Does s c move') : move = move' :=
  Except.ok.inj ((checkedMove_eq_ok_iff_does.mpr h).symm.trans (checkedMove_eq_ok_iff_does.mpr h'))

/-- The states that fallbacks lead to while a character stays unread. -/
def Passes (m : Scanner) (c : Char) : Nat → Nat → Prop :=
  Relation.ReflTransGen fun s t => m.Does s c (.stay t)

/-- Wherever fallbacks lead, one of them leads on. -/
def Endless (m : Scanner) (s : Nat) (c : Char) : Prop :=
  ∀ t, m.Passes c s t → ∃ u, m.Does t c (.stay u)

/-- How the moves at a character end when none of them is counted. -/
inductive SettlesAs (m : Scanner) (s : Nat) (c : Char) : Settled → Prop
  | halts {t : Nat} {accepted : Bool} (hpass : m.Passes c s t)
      (hstop : m.Does t c (.stop accepted)) : SettlesAs m s c (.halted accepted)
  | reads {t u : Nat} (hpass : m.Passes c s t) (hread : m.Does t c (.advance u)) :
      SettlesAs m s c (.advanced u)
  | circles (hendless : m.Endless s c) : SettlesAs m s c (.halted false)

theorem SettlesAs.head (h : m.SettlesAs t c settled) (hstay : m.Does s c (.stay t)) :
    m.SettlesAs s c settled := by
  cases h with
  | halts hpass hstop => exact .halts (.head hstay hpass) hstop
  | reads hpass hread => exact .reads (.head hstay hpass) hread
  | circles hendless =>
    refine .circles fun u hpass => ?_
    rcases Relation.ReflTransGen.cases_head hpass with rfl | ⟨t', hstay', hrest⟩
    · exact ⟨t, hstay⟩
    · cases hstay.unique hstay'
      exact hendless u hrest

theorem Path.eq_of_nil {v : Text} (hpath : m.Path [] s v t) (hv : v = []) : t = s := by
  cases hpath with
  | nil => rfl
  | read => cases hv
  | pass hnext =>
    subst hv
    cases hnext

end Scanner

end TokenGraph
