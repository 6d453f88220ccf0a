import Mathlib.Data.Finset.Card
import Mathlib.Logic.Relation
import TokenGraph.Language.Setup
import TokenGraph.Pattern.Parser
import TokenGraph.Proofs.Graph
import TokenGraph.Proofs.Run

/-!
# Runs that go round in circles

A scanner gives up when it has moved more often than there are states without reading. Beside it
stands the run that counts nothing and may go on for ever. Where that run halts the scanner reports
the same; where it does not, the scanner rejects with what had been read before the run went round
in circles.
-/

namespace TokenGraph

/-- Where a run stands: the state, what it has read, and what is left to read. -/
structure Place where
  state : Nat
  consumed : Text
  left : Text

def Place.begin (s : Text) : Place := ⟨Automaton.start, [], s⟩

namespace Scanner

/-- One step of a run that counts nothing: it halts, or goes on from another place. -/
def step (m : Scanner) (p : Place) : Outcome ⊕ Place :=
  match p.left with
  | [] => .inl ⟨m.graph.isAccepting p.state, p.consumed⟩
  | c :: rest =>
    match m.move p.state c with
    | .stop accepted => .inl ⟨accepted, p.consumed⟩
    | .stay next => .inr ⟨next, p.consumed, c :: rest⟩
    | .advance next => .inr ⟨next, p.consumed ++ [c], rest⟩

def Leads (m : Scanner) : Place → Place → Prop :=
  Relation.ReflTransGen fun p q => m.step p = .inr q

def Halts (m : Scanner) (p : Place) (o : Outcome) : Prop := ∃ q, m.Leads p q ∧ m.step q = .inl o

/-- The run goes on for ever from a place, and reads nothing any more. -/
def Circles (m : Scanner) (p : Place) : Prop :=
  ∀ q, m.Leads p q → ∃ next, m.step q = .inr ⟨next, p.consumed, p.left⟩

/-- The state after so many moves that leave a character unread. -/
def linger (m : Scanner) (c : Char) : Nat → Nat → Option Nat
  | 0, s => some s
  | n + 1, s =>
    match m.move s c with
    | .stay next => m.linger c n next
    | _ => none

variable {m : Scanner} {c : Char} {s t : Nat} {n : Nat}

/-! ### Lingering at a character -/

theorem linger_succ_of_stay (h : m.move s c = .stay t) (n : Nat) :
    m.linger c (n + 1) s = m.linger c n t := by
  rw [linger, h]

theorem linger_succ_isSome :
    (m.linger c (n + 1) s).isSome ↔ ∃ t, m.move s c = .stay t ∧ (m.linger c n t).isSome := by
  rw [linger]
  cases m.move s c <;> simp

theorem linger_add (m : Scanner) (c : Char) (i j s : Nat) :
    m.linger c (i + j) s = (m.linger c i s).bind (m.linger c j) := by
  induction i generalizing s with
  | zero =>
    rw [Nat.zero_add]
    rfl
  | succ i ih =>
    rw [Nat.succ_add, linger, linger]
    cases m.move s c with
    | stay next => exact ih next
    | stop accepted => rfl
    | advance next => rfl

theorem linger_isSome_of_le {i j : Nat} (hij : i ≤ j) (h : (m.linger c j s).isSome) :
    (m.linger c i s).isSome := by
  obtain ⟨k, rfl⟩ := Nat.le.dest hij
  rw [linger_add] at h
  exact Option.isSome_of_isSome_bind h

/-- Only a state that is there has a move that leaves the character unread. -/
theorem lt_of_stay (h : m.move s c = .stay t) : s < m.graph.stateCount := by
  by_contra hge
  have hnone : m.graph.states[s]? = none := Array.getElem?_eq_none (Nat.le_of_not_lt hge)
  simp [move, Automaton.outgoing_of_none hnone, direct?, fallback?, guarded] at h

theorem linger_cycle (h : m.linger c n s = some s) (k : Nat) :
    m.linger c (k * n) s = some s := by
  induction k with
  | zero =>
    rw [Nat.zero_mul]
    rfl
  | succ k ih =>
    rw [Nat.succ_mul, linger_add, ih]
    exact h

/-- More moves than there are states come to one of the states twice, and then within as many moves
as there are states. -/
theorem exists_linger_cycle (h : (m.linger c (m.graph.stateCount + 1) s).isSome) :
    ∃ i n t, 0 < n ∧ i + n ≤ m.graph.stateCount ∧ m.linger c i s = some t ∧
      m.linger c n t = some t := by
  have hinside : ∀ i ≤ m.graph.stateCount,
      ∃ t < m.graph.stateCount, m.linger c i s = some t := by
    intro i hi
    have hnext : (m.linger c (i + 1) s).isSome := linger_isSome_of_le (Nat.succ_le_succ hi) h
    rw [linger_add] at hnext
    obtain ⟨t, ht⟩ := Option.isSome_iff_exists.mp (Option.isSome_of_isSome_bind hnext)
    rw [ht, Option.bind_some, linger_succ_isSome] at hnext
    obtain ⟨u, hu, -⟩ := hnext
    exact ⟨t, lt_of_stay hu, ht⟩
  choose! visited hlt hvisited using hinside
  have hcard : (Finset.range m.graph.stateCount).card <
      (Finset.range (m.graph.stateCount + 1)).card := by simp
  have hmaps : ∀ i ∈ Finset.range (m.graph.stateCount + 1),
      visited i ∈ Finset.range m.graph.stateCount := by
    intro i hi
    exact Finset.mem_range.mpr (hlt i (Nat.lt_succ_iff.mp (Finset.mem_range.mp hi)))
  obtain ⟨i, hi, j, hj, hne, hsame⟩ := Finset.exists_ne_map_eq_of_card_lt_of_maps_to hcard hmaps
  -- The earlier visit leads to the later one.
  wlog hij : i < j generalizing i j
  · exact this j hj i hi hne.symm hsame.symm (Nat.lt_of_le_of_ne (Nat.le_of_not_lt hij) hne.symm)
  have hi' := hvisited i (Nat.lt_succ_iff.mp (Finset.mem_range.mp hi))
  have hj' := hvisited j (Nat.lt_succ_iff.mp (Finset.mem_range.mp hj))
  obtain ⟨n, rfl⟩ := Nat.le.dest (Nat.le_of_lt hij)
  rw [linger_add, hi', Option.bind_some, ← hsame] at hj'
  exact ⟨i, n, visited i, by omega, Nat.lt_succ_iff.mp (Finset.mem_range.mp hj), hi', hj'⟩

/-- A scanner that leaves a character unread for more moves than it has states does so for ever. -/
theorem linger_endless (h : (m.linger c (m.graph.stateCount + 1) s).isSome) (n : Nat) :
    (m.linger c n s).isSome := by
  obtain ⟨i, period, t, hpos, -, hi, hperiod⟩ := exists_linger_cycle h
  have hfar : (m.linger c (i + n * period) s).isSome := by
    rw [linger_add, hi, Option.bind_some, linger_cycle hperiod]
    rfl
  exact linger_isSome_of_le (Nat.le_add_left_of_le (Nat.le_mul_of_pos_right n hpos)) hfar

/-! ### Settling at a character -/

theorem settle_of_linger (h : (m.linger c (n + 1) s).isSome) : m.settle c n s = .halted false := by
  induction n generalizing s with
  | zero =>
    obtain ⟨t, ht, -⟩ := linger_succ_isSome.mp h
    rw [settle, ht]
  | succ n ih =>
    obtain ⟨t, ht, hrest⟩ := linger_succ_isSome.mp h
    rw [settle, ht]
    exact ih hrest

/-- What ends the moves at a character before the count runs out is what the scanner does there. -/
theorem settle_of_not_linger (h : m.linger c (n + 1) s = none) : ∃ i t,
    m.linger c i s = some t ∧
      ((∃ accepted, m.move t c = .stop accepted ∧ m.settle c n s = .halted accepted) ∨
        ∃ next, m.move t c = .advance next ∧ m.settle c n s = .advanced next) := by
  induction n generalizing s with
  | zero =>
    refine ⟨0, s, rfl, ?_⟩
    cases hmove : m.move s c with
    | stop accepted => exact .inl ⟨accepted, rfl, settle_of_stop hmove 0⟩
    | advance next => exact .inr ⟨next, rfl, settle_of_advance hmove 0⟩
    | stay next => simp [linger, hmove] at h
  | succ n ih =>
    cases hmove : m.move s c with
    | stop accepted => exact ⟨0, s, rfl, .inl ⟨accepted, hmove, settle_of_stop hmove _⟩⟩
    | advance next => exact ⟨0, s, rfl, .inr ⟨next, hmove, settle_of_advance hmove _⟩⟩
    | stay next =>
      rw [linger_succ_of_stay hmove] at h
      obtain ⟨i, t, hi, hend⟩ := ih h
      have hsettle : m.settle c (n + 1) s = m.settle c n next := by rw [settle, hmove]
      rw [hsettle]
      exact ⟨i + 1, t, by rw [linger_succ_of_stay hmove, hi], hend⟩

/-! ### The run that counts nothing -/

theorem step_of_stay (h : m.move s c = .stay t) (consumed rest : Text) :
    m.step ⟨s, consumed, c :: rest⟩ = .inr ⟨t, consumed, c :: rest⟩ := by
  simp only [step, h]

theorem step_of_stop {accepted : Bool} (h : m.move s c = .stop accepted) (consumed rest : Text) :
    m.step ⟨s, consumed, c :: rest⟩ = .inl ⟨accepted, consumed⟩ := by
  simp only [step, h]

theorem step_of_advance (h : m.move s c = .advance t) (consumed rest : Text) :
    m.step ⟨s, consumed, c :: rest⟩ = .inr ⟨t, consumed ++ [c], rest⟩ := by
  simp only [step, h]

theorem leads_of_linger (h : m.linger c n s = some t) (consumed rest : Text) :
    m.Leads ⟨s, consumed, c :: rest⟩ ⟨t, consumed, c :: rest⟩ := by
  induction n generalizing s with
  | zero =>
    cases h
    exact .refl
  | succ n ih =>
    have hsome : (m.linger c (n + 1) s).isSome := by rw [h]; rfl
    obtain ⟨next, hnext, -⟩ := linger_succ_isSome.mp hsome
    rw [linger_succ_of_stay hnext] at h
    exact .head (step_of_stay hnext consumed rest) (ih h)

/-- A place from which the character in front is never read. -/
theorem circles_of_linger (h : ∀ n, (m.linger c n s).isSome) (consumed rest : Text) :
    m.Circles ⟨s, consumed, c :: rest⟩ := by
  intro q hq
  have hreached : ∃ n t, m.linger c n s = some t ∧ q = ⟨t, consumed, c :: rest⟩ := by
    induction hq with
    | refl => exact ⟨0, s, rfl, rfl⟩
    | tail hlead hstep ih =>
      obtain ⟨n, t, ht, rfl⟩ := ih
      have hnext := h (n + 1)
      rw [linger_add, ht, Option.bind_some] at hnext
      obtain ⟨u, hu, -⟩ := linger_succ_isSome.mp hnext
      rw [step_of_stay hu] at hstep
      cases hstep
      refine ⟨n + 1, u, ?_, rfl⟩
      rw [linger_add, ht, Option.bind_some, linger_succ_of_stay hu]
      rfl
  obtain ⟨n, t, ht, rfl⟩ := hreached
  have hnext := h (n + 1)
  rw [linger_add, ht, Option.bind_some] at hnext
  obtain ⟨u, hu, -⟩ := linger_succ_isSome.mp hnext
  exact ⟨u, step_of_stay hu consumed rest⟩

theorem Halts.of_leads {p q : Place} {o : Outcome} (hlead : m.Leads p q) (h : m.Halts q o) :
    m.Halts p o := by
  obtain ⟨r, hr, hstop⟩ := h
  exact ⟨r, hlead.trans hr, hstop⟩

/-- A place leads to no other ones than those of its run. -/
theorem Halts.leads {p q : Place} {o : Outcome} (h : m.Halts p o) (hlead : m.Leads p q) :
    m.Halts q o := by
  induction hlead with
  | refl => exact h
  | tail _ hstep ih =>
    obtain ⟨r, hr, hstop⟩ := ih
    rcases Relation.ReflTransGen.cases_head hr with rfl | ⟨next, hnext, hrest⟩
    · rw [hstep] at hstop
      cases hstop
    · rw [hstep] at hnext
      cases hnext
      exact ⟨r, hrest, hstop⟩

theorem Halts.unique {p : Place} {o o' : Outcome} (h : m.Halts p o) (h' : m.Halts p o') :
    o = o' := by
  obtain ⟨q, hq, hstop⟩ := h
  obtain ⟨r, hr, hstop'⟩ := h'.leads hq
  rcases Relation.ReflTransGen.cases_head hr with rfl | ⟨next, hnext, -⟩
  · exact Sum.inl.inj (hstop.symm.trans hstop')
  · rw [hstop] at hnext
    cases hnext

theorem Circles.not_halts {p : Place} {o : Outcome} (h : m.Circles p) : ¬ m.Halts p o := by
  rintro ⟨q, hq, hstop⟩
  obtain ⟨next, hnext⟩ := h q hq
  rw [hstop] at hnext
  cases hnext

/-! ### Counted and uncounted runs -/

/-- The run that counts nothing halts as the scanner says, or it comes to a place from which it
never reads on, and then the scanner rejects with what has been read there. -/
theorem runFrom_halts_or_circles (m : Scanner) (s : Nat) (consumed w : Text) :
    m.Halts ⟨s, consumed, w⟩
      ⟨(m.runFrom s w).accepted, consumed ++ (m.runFrom s w).consumed⟩ ∨
    ∃ q, m.Leads ⟨s, consumed, w⟩ q ∧ m.Circles q ∧ (m.runFrom s w).accepted = false ∧
      q.consumed = consumed ++ (m.runFrom s w).consumed := by
  induction w generalizing s consumed with
  | nil =>
    refine .inl ⟨_, .refl, ?_⟩
    simp [step, runFrom]
  | cons c rest ih =>
    cases hlinger : m.linger c (m.graph.stateCount + 1) s with
    | some t =>
      have hsome : (m.linger c (m.graph.stateCount + 1) s).isSome := by rw [hlinger]; rfl
      have hcircles := circles_of_linger (linger_endless hsome) consumed rest
      rw [runFrom, settle_of_linger hsome]
      exact .inr ⟨_, .refl, hcircles, rfl, (List.append_nil consumed).symm⟩
    | none =>
      obtain ⟨i, t, hi, hend⟩ := settle_of_not_linger hlinger
      have hlead := leads_of_linger hi consumed rest
      rcases hend with ⟨accepted, hmove, hsettle⟩ | ⟨next, hmove, hsettle⟩
      · rw [runFrom, hsettle]
        refine .inl ⟨_, hlead, ?_⟩
        rw [step_of_stop hmove, List.append_nil]
      · have hnext := hlead.tail (step_of_advance hmove consumed rest)
        rw [runFrom, hsettle]
        dsimp only
        rw [List.append_cons]
        rcases ih next (consumed ++ [c]) with hhalts | ⟨q, hq, hcircles, hrejected, hconsumed⟩
        · exact .inl (hhalts.of_leads hnext)
        · exact .inr ⟨q, hnext.trans hq, hcircles, hrejected, hconsumed⟩

end Scanner

/-- Giving up is exact. Where the run that counts nothing halts, the scanner reports its outcome;
where it goes on for ever, the scanner rejects with what was read before it went round in circles. -/
theorem Prototype.scan_eq_uncounted (p : Prototype) (operators : List Text) (s : Text) :
    (∀ o, (p.scanner operators).Halts (.begin s) o → p.scan operators s = o) ∧
    ((∀ o, ¬ (p.scanner operators).Halts (.begin s) o) →
      ∃ q, (p.scanner operators).Leads (.begin s) q ∧ (p.scanner operators).Circles q ∧
        p.scan operators s = ⟨false, q.consumed⟩) := by
  have hrun := (p.scanner operators).runFrom_halts_or_circles Automaton.start [] s
  simp only [List.nil_append] at hrun
  constructor
  · intro o ho
    rcases hrun with hhalts | ⟨q, hq, hcircles, -⟩
    · exact hhalts.unique ho
    · exact absurd (ho.leads hq) hcircles.not_halts
  · intro hendless
    obtain ⟨q, hq, hcircles, hrejected, hconsumed⟩ := hrun.resolve_left (hendless _)
    refine ⟨q, hq, hcircles, ?_⟩
    rw [hconsumed, ← hrejected]
    rfl

/-- Behind a digit two states lead to each other; anything else leads to the end. -/
def circlingSteps : List BuildStep := [
  .state (.fresh (text "left") .intermediate),
  .state (.fresh (text "right") .intermediate),
  .state (.fresh (text "END") .accepting),
  .edge (text "START") (text "1") (text "left") .charClass,
  .edge (text "START") (text "OTHERS") (text "END") .fallbackNoConsume,
  .edge (text "left") (text "OTHERS") (text "right") .fallbackNoConsume,
  .edge (text "right") (text "OTHERS") (text "left") .fallbackNoConsume]

def circlingPrototype : Prototype := ⟨.integer, (Draft.run circlingSteps).graph, .plain⟩

/-- In front of a blank the run ends; behind a digit it goes on for ever. -/
theorem Prototype.scan_eq_uncounted_sample :
    Automaton.build circlingSteps = .ok circlingPrototype.machine ∧
      (circlingPrototype.scanner []).Halts (.begin (text " 1")) ⟨true, []⟩ ∧
      circlingPrototype.scan [] (text " 1") = ⟨true, []⟩ ∧
      (∀ o, ¬ (circlingPrototype.scanner []).Halts (.begin (text "1 ")) o) ∧
      ∃ q, (circlingPrototype.scanner []).Leads (.begin (text "1 ")) q ∧
        (circlingPrototype.scanner []).Circles q ∧
        circlingPrototype.scan [] (text "1 ") = ⟨false, q.consumed⟩ := by
  obtain ⟨hhalting, -⟩ := circlingPrototype.scan_eq_uncounted [] (text " 1")
  obtain ⟨-, hendless⟩ := circlingPrototype.scan_eq_uncounted [] (text "1 ")
  have hbuilt : Automaton.build circlingSteps = .ok circlingPrototype.machine :=
    Draft.build_eq_ok (by decide +kernel) (by decide +kernel)
  have hstay : (circlingPrototype.scanner []).move 0 ' ' = .stay 3 := by decide +kernel
  have hstop : (circlingPrototype.scanner []).move 3 ' ' = .stop true := by decide +kernel
  have hread : (circlingPrototype.scanner []).move 0 '1' = .advance 1 := by decide +kernel
  have hturns : ((circlingPrototype.scanner []).linger ' '
      (circlingPrototype.machine.stateCount + 1) 1).isSome := by decide +kernel
  have hhalts : (circlingPrototype.scanner []).Halts (.begin (text " 1")) ⟨true, []⟩ :=
    ⟨⟨3, [], [' ', '1']⟩, .single (Scanner.step_of_stay hstay [] ['1']),
      Scanner.step_of_stop hstop [] ['1']⟩
  have hlead : (circlingPrototype.scanner []).Leads (.begin (text "1 ")) ⟨1, ['1'], [' ']⟩ :=
    .single (Scanner.step_of_advance hread [] [' '])
  have hcircles : (circlingPrototype.scanner []).Circles ⟨1, ['1'], [' ']⟩ :=
    Scanner.circles_of_linger (Scanner.linger_endless hturns) ['1'] []
  have hnever : ∀ o, ¬ (circlingPrototype.scanner []).Halts (.begin (text "1 ")) o := by
    intro o ho
    exact hcircles.not_halts (ho.leads hlead)
  exact ⟨hbuilt, hhalts, hhalting _ hhalts, hnever, hendless hnever⟩

end TokenGraph
