import TokenGraph.Automaton.Scan

/-!
# Steps of a run

How a run goes on behind one move, and behind a text that is read as a whole.
-/

namespace TokenGraph.Scanner

variable {m : Scanner} {s t u : Nat} {c : Char}

theorem settle_of_stop {accepted : Bool} (h : m.move s c = .stop accepted) (stays : Nat) :
    m.settle c stays s = .halted accepted := by
  cases stays <;> simp [settle, h]

theorem settle_of_advance (h : m.move s c = .advance t) (stays : Nat) :
    m.settle c stays s = .advanced t := by
  cases stays <;> simp [settle, h]

theorem runFrom_of_stop {accepted : Bool} (h : m.move s c = .stop accepted) (rest : Text) :
    m.runFrom s (c :: rest) = ⟨accepted, []⟩ := by
  rw [runFrom, settle_of_stop h]

theorem runFrom_of_advance (h : m.move s c = .advance t) (rest : Text) :
    m.runFrom s (c :: rest) = ⟨(m.runFrom t rest).accepted, c :: (m.runFrom t rest).consumed⟩ := by
  rw [runFrom, settle_of_advance h]

/-- The state that a text leads to when all of it is read, one move a character. -/
inductive Reads (m : Scanner) : Nat → Text → Nat → Prop
  | nil {s : Nat} : Reads m s [] s
  | cons {s t u : Nat} {c : Char} {w : Text} (h : m.move s c = .advance t) (hw : Reads m t w u) :
      Reads m s (c :: w) u

theorem Reads.single (h : m.move s c = .advance t) : m.Reads s [c] t := .cons h .nil

theorem Reads.append {v w : Text} (hv : m.Reads s v t) (hw : m.Reads t w u) :
    m.Reads s (v ++ w) u := by
  induction hv with
  | nil => exact hw
  | cons h _ ih => exact .cons h (ih hw)

/-- A state that a class of characters leads back to reads any text of the class. -/
theorem Reads.loop {w : Text} (h : ∀ c ∈ w, m.move s c = .advance s) : m.Reads s w s := by
  induction w with
  | nil => exact .nil
  | cons c w ih => exact .cons (h c (by simp)) (ih fun d hd => h d (by simp [hd]))

theorem Reads.runFrom {w : Text} (h : m.Reads s w t) (rest : Text) :
    m.runFrom s (w ++ rest) =
      ⟨(m.runFrom t rest).accepted, w ++ (m.runFrom t rest).consumed⟩ := by
  induction h with
  | nil => rfl
  | cons h _ ih => rw [List.cons_append, runFrom_of_advance h, ih, List.cons_append]

theorem Reads.runFrom_stop {w : Text} {accepted : Bool} (h : m.Reads s w t)
    (hstop : m.move t c = .stop accepted) (rest : Text) :
    m.runFrom s (w ++ c :: rest) = ⟨accepted, w⟩ := by
  rw [h.runFrom, runFrom_of_stop hstop, List.append_nil]

end TokenGraph.Scanner
