import TokenGraph.Proofs.Run
import TokenGraph.Proofs.Trials

/-!
# Lookahead

A run that stops inside of a text has looked at most at the character behind what it has read, so
it does not depend on what follows the text. The same holds of a contest, in which only those
automata are tried that no winner stands before.
-/

namespace TokenGraph

namespace Scanner

variable {m : Scanner} {s : Nat}

/-- A run stops inside of a text whatever follows it, or it reads all of the text and goes on from
the state that it has come to. -/
theorem runFrom_append (m : Scanner) (s : Nat) (v : Text) :
    ((m.runFrom s v).consumed.length < v.length ∧
      ∀ rest, m.runFrom s (v ++ rest) = m.runFrom s v) ∨
    ∃ t, ∀ rest, m.runFrom s (v ++ rest) =
      ⟨(m.runFrom t rest).accepted, v ++ (m.runFrom t rest).consumed⟩ := by
  induction v generalizing s with
  | nil => exact .inr ⟨s, fun rest => rfl⟩
  | cons c v ih =>
    cases hsettle : m.settle c m.graph.stateCount s with
    | halted accepted =>
      refine .inl ⟨?_, fun rest => ?_⟩
      · simp [runFrom, hsettle]
      · simp only [List.cons_append, runFrom, hsettle]
    | advanced next =>
      simp only [List.cons_append, runFrom, hsettle, List.length_cons]
      rcases ih next with ⟨hlt, hstop⟩ | ⟨t, hgo⟩
      · refine .inl ⟨Nat.succ_lt_succ hlt, fun rest => ?_⟩
        rw [hstop]
      · refine .inr ⟨t, fun rest => ?_⟩
        rw [hgo]

/-- A run that stops inside of a text is the same in front of any other rest. -/
theorem runFrom_append_congr {v rest : Text}
    (h : (m.runFrom s (v ++ rest)).consumed.length < v.length) (other : Text) :
    m.runFrom s (v ++ other) = m.runFrom s (v ++ rest) := by
  rcases m.runFrom_append s v with ⟨-, hstop⟩ | ⟨t, hgo⟩
  · rw [hstop, hstop]
  · rw [hgo] at h
    simp only [List.length_append] at h
    omega

/-- A scanner that stops wherever it accepts either does not depend on what follows a text, or
reads all of the text in vain. -/
theorem run_append_of_stops (h : ∀ t, m.graph.isAccepting t = true → ∀ c, m.move t c = .stop true)
    (v : Text) : (∀ rest, m.run (v ++ rest) = m.run v) ∨ m.run v = ⟨false, v⟩ := by
  rcases m.runFrom_append Automaton.start v with ⟨-, hstop⟩ | ⟨t, hgo⟩
  · exact .inl hstop
  · have hv : m.run v = ⟨m.graph.isAccepting t, v⟩ := by
      have hnil := hgo []
      rwa [List.append_nil, runFrom, List.append_nil] at hnil
    cases ht : m.graph.isAccepting t with
    | false =>
      rw [ht] at hv
      exact .inr hv
    | true =>
      rw [ht] at hv
      refine .inl fun rest => ?_
      have hrest : m.runFrom t rest = ⟨true, []⟩ := by
        cases rest with
        | nil => rw [runFrom, ht]
        | cons c rest => exact runFrom_of_stop (h t ht c) rest
      rw [hv, run, hgo, hrest, List.append_nil]

/-- A run that leaves a character of a text unread does not depend on what follows the text. -/
theorem run_append_of_unread {c : Char} {v : Text} (hc : c ∈ v) (h : c ∉ (m.run v).consumed)
    (rest : Text) : m.run (v ++ rest) = m.run v := by
  rcases m.runFrom_append Automaton.start v with ⟨-, hstop⟩ | ⟨t, hgo⟩
  · exact hstop rest
  · have hnil := hgo []
    rw [List.append_nil] at hnil
    rw [run, hnil] at h
    exact absurd (List.mem_append_left _ hc) h

/-- A character at which every state stops is not read. -/
theorem not_mem_consumed {c : Char} (h : ∀ t, ∃ accepted, m.move t c = .stop accepted) (s : Nat)
    (v : Text) : c ∉ (m.runFrom s v).consumed := by
  induction v generalizing s with
  | nil => simp [runFrom]
  | cons d v ih =>
    by_cases hd : d = c
    · obtain ⟨accepted, hmove⟩ := h s
      rw [hd, runFrom_of_stop hmove]
      simp
    · rw [runFrom]
      split
      · simp
      · next t _ => simpa [Ne.symm hd] using ih t

end Scanner

/-- Whether an automaton accepts what it has read, or rejects behind it, is settled by the next
character. What follows that is not looked at. -/
theorem Prototype.scan_lookahead (p : Prototype) (operators : List Text) {accepted : Bool}
    {w rest : Text} {c : Char} (h : p.scan operators (w ++ c :: rest) = ⟨accepted, w⟩)
    (other : Text) : p.scan operators (w ++ c :: other) = ⟨accepted, w⟩ := by
  rw [List.append_cons] at h ⊢
  have hstop : (p.scan operators (w ++ [c] ++ rest)).consumed.length < (w ++ [c]).length := by
    rw [h, List.length_append]
    exact Nat.lt_add_one w.length
  have hsame : p.scan operators (w ++ [c] ++ other) = p.scan operators (w ++ [c] ++ rest) :=
    Scanner.runFrom_append_congr hstop other
  rw [hsame, h]

/-- Words end at a boundary, and break off at anything else. -/
private def wordSteps : List BuildStep := [
  .state (.fresh (text "word") .intermediate),
  .state (.fresh (text "ERROR") .error),
  .state (.fresh (text "END") .accepting),
  .edge (text "START") (text "[a-zé]") (text "word") .charClass,
  .edge (text "word") (text "[a-zé]") (text "word") .charClass,
  .edge (text "word") (text "ACCEPTABLE_SYMBOLS") (text "END") .acceptOnBoundary,
  .edge (text "word") (text "OTHERS") (text "ERROR") .fallbackNoConsume]

private def wordPrototype : Prototype := ⟨.identifier, (Draft.run wordSteps).graph, .plain⟩

/-- A word with an operator behind it is accepted, and one with a stray mark behind it is not. -/
theorem Prototype.scan_lookahead_sample : Automaton.build wordSteps = .ok wordPrototype.machine ∧
    wordPrototype.scan [text ";"] (text "né;") = ⟨true, text "né"⟩ ∧
    (∀ other, wordPrototype.scan [text ";"] (text "né" ++ ';' :: other) = ⟨true, text "né"⟩) ∧
    wordPrototype.scan [text ";"] (text "né$") = ⟨false, text "né"⟩ ∧
    ∀ other, wordPrototype.scan [text ";"] (text "né" ++ '$' :: other) = ⟨false, text "né"⟩ := by
  have hbuilt : Automaton.build wordSteps = .ok wordPrototype.machine :=
    Draft.build_eq_ok (by decide +kernel) (by decide +kernel)
  have haccepted : wordPrototype.scan [text ";"] (text "né;") = ⟨true, text "né"⟩ := by
    decide +kernel
  have hrejected : wordPrototype.scan [text ";"] (text "né$") = ⟨false, text "né"⟩ := by
    decide +kernel
  exact ⟨hbuilt, haccepted, wordPrototype.scan_lookahead [text ";"] haccepted, hrejected,
    wordPrototype.scan_lookahead [text ";"] hrejected⟩

/-- A prototype is tried where none that stands before it in the order wins. -/
def Tried (operators : List Text) (s : Text) (trials : List Prototype) (p : Prototype) : Prop :=
  ∃ before after, trials = before ++ p :: after ∧ ∀ q ∈ before, ¬ q.Wins operators s

namespace Tried

variable {operators : List Text} {s : Text} {p q : Prototype} {trials : List Prototype}

theorem head : Tried operators s (p :: trials) p := ⟨[], trials, rfl, by simp⟩

theorem tail (hq : ¬ q.Wins operators s) (h : Tried operators s trials p) :
    Tried operators s (q :: trials) p := by
  obtain ⟨before, after, rfl, hbefore⟩ := h
  exact ⟨q :: before, after, rfl, by simpa using ⟨hq, hbefore⟩⟩

/-- Where none wins all are tried. -/
theorem of_mem (hnone : ∀ q ∈ trials, ¬ q.Wins operators s) (hp : p ∈ trials) :
    Tried operators s trials p := by
  obtain ⟨before, after, rfl⟩ := List.append_of_mem hp
  exact ⟨before, after, rfl, fun q hq => hnone q (by simp [hq])⟩

theorem mem (h : Tried operators s trials p) : p ∈ trials := by
  obtain ⟨before, after, rfl, -⟩ := h
  simp

end Tried

/-- The contest depends on the outcomes of those that are tried only. -/
theorem contest_congr {operators : List Text} {s s' : Text} {trials : List Prototype}
    (h : ∀ p, Tried operators s trials p → p.scan operators s' = p.scan operators s)
    (longest : Text) :
    contest operators s' trials longest = contest operators s trials longest := by
  induction trials generalizing longest with
  | nil => rfl
  | cons p trials ih =>
    have hp : p.scan operators s' = p.scan operators s := h p .head
    have hiff : p.Wins operators s' ↔ p.Wins operators s := by
      rw [Prototype.Wins, Prototype.Wins, hp]
    by_cases hw : p.Wins operators s
    · rw [contest_cons_of_wins hw, contest_cons_of_wins (hiff.mpr hw), hp]
    · rw [contest_cons_of_not_wins hw, contest_cons_of_not_wins (mt hiff.mp hw), hp]
      exact ih (fun q hq => h q (hq.tail hw)) _

theorem Analyzer.headToken_congr {a : Analyzer} {c : Char} {rest rest' : Text}
    (h : ∀ p, Tried a.language.operators (c :: rest) a.trials p →
      p.scan a.language.operators (c :: rest') = p.scan a.language.operators (c :: rest)) :
    a.headToken c rest' = a.headToken c rest := by
  rw [headToken, headToken, next, next, contest_congr h]

/-- What a token leaves of a beginning is analyzed with what follows the beginning. -/
theorem Analyzer.analyze_cons_append {a : Analyzer} {c : Char} {u left v : Text} {t : Token}
    (hleft : t.text ++ left = c :: u) (h : a.headToken c (u ++ v) = t) :
    a.analyze (c :: (u ++ v)) = t :: a.analyze (left ++ v) := by
  rw [analyze_cons, h, ← List.cons_append, ← hleft, List.append_assoc, List.drop_left]

/-- Where none wins, a text that one of them reads to its end is unknown as a whole. -/
theorem Analyzer.headToken_of_read {a : Analyzer} {c : Char} {rest : Text} {p : Prototype}
    (hnone : ∀ q ∈ a.trials, ¬ q.Wins a.language.operators (c :: rest)) (hp : p ∈ a.trials)
    (hread : (p.scan a.language.operators (c :: rest)).consumed = c :: rest) :
    a.headToken c rest = ⟨.unknown, c :: rest, a.language.unknownStyle⟩ := by
  have hconsumed := contest_consumed a.language.operators (c :: rest) a.trials List.nil_prefix
  cases hcontest : contest a.language.operators (c :: rest) a.trials [] with
  | won q w =>
    obtain ⟨hne, hscan, before, after, htrials, -⟩ := contest_won hcontest
    have hwins : q.Wins a.language.operators (c :: rest) := by simp [Prototype.Wins, hscan, hne]
    exact absurd hwins (hnone q (by simp [htrials]))
  | lost w =>
    obtain ⟨-, hreads, -, -⟩ := contest_lost hcontest
    have hlength := hreads p hp
    rw [hread] at hlength
    rw [hcontest] at hconsumed
    obtain rfl : w = c :: rest := hconsumed.eq_of_length_le hlength
    rw [headToken_of_lost hcontest]
    rfl

end TokenGraph
