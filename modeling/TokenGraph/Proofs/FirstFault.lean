import Mathlib.Data.List.Induction

/-!
# The first fault

A computation that makes one check after another stops at the first that fails. Either all faults
are listed, and the head of the list is reported; or the members of a list are checked one by one,
each in view of those before it.
-/

namespace TokenGraph

/-- A computation fails with the first of some faults, and has a result where there are none. -/
inductive StopsAtFirst {ε α : Type} : Except ε α → List ε → Prop
  | passed (a : α) : StopsAtFirst (.ok a) []
  | failed (cause : ε) (rest : List ε) : StopsAtFirst (.error cause) (cause :: rest)

namespace StopsAtFirst

variable {ε ε' α β : Type} {x : Except ε α} {faults later : List ε}

theorem error_iff (h : StopsAtFirst x faults) (cause : ε) :
    x = .error cause ↔ faults.head? = some cause := by
  cases h <;> simp

theorem ok_iff (h : StopsAtFirst x faults) : (∃ a, x = .ok a) ↔ faults = [] := by
  cases h <;> simp

/-- What comes second matters only where the first has a result. -/
theorem bind {f : α → Except ε β} (h : StopsAtFirst x faults)
    (hf : ∀ a, x = .ok a → StopsAtFirst (f a) later) :
    StopsAtFirst (x >>= f) (faults ++ later) := by
  cases h with
  | passed a => exact hf a rfl
  | failed cause rest => exact .failed cause (rest ++ later)

theorem map (h : StopsAtFirst x faults) (f : α → β) : StopsAtFirst (x.map f) faults := by
  cases h with
  | passed a => exact .passed (f a)
  | failed cause rest => exact .failed cause rest

theorem mapError (h : StopsAtFirst x faults) (f : ε → ε') :
    StopsAtFirst (x.mapError f) (faults.map f) := by
  cases h with
  | passed a => exact .passed a
  | failed cause rest => exact .failed (f cause) (rest.map f)

theorem mapM {f : α → Except ε β} {g : α → List ε} (h : ∀ a, StopsAtFirst (f a) (g a))
    (l : List α) : StopsAtFirst (l.mapM f) (l.flatMap g) := by
  induction l with
  | nil => exact .passed []
  | cons a l ih =>
    rw [List.mapM_cons, List.flatMap_cons]
    refine (h a).bind fun b _ => ?_
    exact ih.map (b :: ·)

end StopsAtFirst

/-- What a computation fails with. -/
def failure? {ε α : Type} : Except ε α → Option ε
  | .ok _ => none
  | .error cause => some cause

section Failure

variable {ε α β : Type} {x : Except ε α}

theorem failure?_eq_none_iff : failure? x = none ↔ ∃ a, x = .ok a := by
  cases x <;> simp [failure?]

theorem failure?_eq_some_iff {cause : ε} : failure? x = some cause ↔ x = .error cause := by
  cases x <;> simp [failure?]

theorem failure?_ne_none_iff : failure? x ≠ none ↔ ∃ cause, x = .error cause := by
  cases x <;> simp [failure?]

theorem failure?_bind {f : α → Except ε β} {later : Option ε}
    (h : ∀ a, x = .ok a → failure? (f a) = later) :
    failure? (x >>= f) = (failure? x).or later := by
  cases x with
  | ok a => exact h a rfl
  | error cause => rfl

end Failure

/-- A member of a list with another one behind it is that one, or a member of the list. -/
theorem concat_eq_append_cons {α : Type} {l front back : List α} {a last : α} :
    l ++ [last] = front ++ a :: back ↔
      (l = front ∧ last = a ∧ back = []) ∨ ∃ rest, back = rest ++ [last] ∧ l = front ++ a :: rest := by
  constructor
  · intro h
    rcases List.eq_nil_or_concat back with rfl | ⟨rest, b, rfl⟩
    · obtain ⟨rfl, heq⟩ := List.append_inj' h rfl
      exact .inl ⟨rfl, List.singleton_inj.mp heq, rfl⟩
    · rw [List.concat_eq_append] at h ⊢
      rw [← List.cons_append, ← List.append_assoc] at h
      obtain ⟨rfl, heq⟩ := List.append_inj' h rfl
      exact .inr ⟨rest, by rw [heq], rfl⟩
  · rintro (⟨rfl, rfl, rfl⟩ | ⟨rest, rfl, rfl⟩)
    · rfl
    · simp

section Scan

/-! A scan from the left keeps the first fault that it meets. Whether a member is at fault may
depend on those before it. -/

variable {α β : Type} (found? : List α → Option β) (fault? : List α → α → Option β)
  (hnil : found? [] = none)
  (hconcat : ∀ l a, found? (l ++ [a]) = (found? l).or (fault? l a))

include hnil hconcat

theorem scan_eq_none_iff {l : List α} : found? l = none ↔
    ∀ front a back, l = front ++ a :: back → fault? front a = none := by
  induction l using List.reverseRecOn with
  | nil => simp [hnil]
  | append_singleton l last ih =>
    rw [hconcat, Option.or_eq_none_iff, ih]
    constructor
    · rintro ⟨hl, hlast⟩ front a back hsplit
      rcases concat_eq_append_cons.mp hsplit with ⟨rfl, rfl, -⟩ | ⟨rest, -, rfl⟩
      · exact hlast
      · exact hl front a rest rfl
    · intro h
      refine ⟨?_, h l last [] rfl⟩
      rintro front a back rfl
      exact h front a (back ++ [last]) (by simp)

theorem scan_eq_some_iff {l : List α} {b : β} : found? l = some b ↔
    ∃ front a back, l = front ++ a :: back ∧ found? front = none ∧ fault? front a = some b := by
  induction l using List.reverseRecOn with
  | nil => simp [hnil]
  | append_singleton l last ih =>
    rw [hconcat, Option.or_eq_some_iff, ih]
    constructor
    · rintro (⟨front, a, back, rfl, hfront, ha⟩ | ⟨hnone, hlast⟩)
      · exact ⟨front, a, back ++ [last], by simp, hfront, ha⟩
      · exact ⟨l, last, [], rfl, hnone, hlast⟩
    · rintro ⟨front, a, back, hsplit, hfront, ha⟩
      rcases concat_eq_append_cons.mp hsplit with ⟨rfl, rfl, -⟩ | ⟨rest, -, rfl⟩
      · exact .inr ⟨hfront, ha⟩
      · exact .inl ⟨front, a, rest, rfl, hfront, ha⟩

end Scan

end TokenGraph
