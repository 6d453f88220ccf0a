import TokenGraph.Language.Setup

/-!
# The slots of a language

Which prototype the registrations put under which category, and when nothing can go wrong.
-/

namespace TokenGraph

/-- Every prototype stands under its own category. -/
def Language.WellFiled (l : Language) : Prop :=
  ∀ (c : Category) (p : Prototype), l.prototype? c = some p → p.category = c

namespace Setup

/-- A slot that is filled holds the prototype of the first registration of its category. -/
theorem fill_find (s : Setup) {registrations : List Registration}
    {slots filled : Category → Option Prototype} (h : s.fill slots registrations = .ok filled)
    (c : Category) : filled c = (slots c).or
      ((registrations.find? fun r => r.category = c).map s.prototype) := by
  induction registrations generalizing slots with
  | nil =>
    cases h
    simp
  | cons r registrations ih =>
    rw [fill] at h
    split at h
    · cases h
    · next hfree =>
      rw [ih h]
      by_cases hc : c = r.category
      · subst hc
        have hnone : slots r.category = none := by simpa using hfree
        simp [hnone]
      · simp [hc, Ne.symm hc]

/-- Registrations of different categories fill their own slots and no others. -/
theorem fill_eq_ok (s : Setup) {registrations : List Registration}
    {filled : Category → Option Prototype} (hnodup : (registrations.map (·.category)).Nodup)
    (hfree : ∀ r ∈ registrations, filled r.category = none) :
    s.fill filled registrations = .ok fun c =>
      ((registrations.find? fun r => r.category = c).map s.prototype).or (filled c) := by
  induction registrations generalizing filled with
  | nil => rfl
  | cons r registrations ih =>
    obtain ⟨hnew, hnodup⟩ := List.nodup_cons.mp hnodup
    have hother : ∀ q ∈ registrations, q.category ≠ r.category := by
      intro q hq heq
      exact hnew (List.mem_map.mpr ⟨q, hq, heq⟩)
    have hrest : ∀ q ∈ registrations,
        (if q.category = r.category then some (s.prototype r) else filled q.category) = none := by
      intro q hq
      rw [if_neg (hother q hq), hfree q (List.mem_cons_of_mem r hq)]
    rw [fill, hfree r List.mem_cons_self, if_neg (by simp), ih hnodup hrest, Except.ok.injEq]
    funext c
    by_cases hc : r.category = c
    · have hnone : registrations.find? (fun q => q.category = c) = none := by
        rw [List.find?_eq_none]
        intro q hq
        simpa [← hc] using hother q hq
      simp [hc, hnone]
    · simp [hc, Ne.symm hc]

/-- Without an explicit priority list, and with no category registered twice, nothing can fail. -/
theorem finish_eq_ok {s : Setup} (hpriority : s.priority = none)
    (hnodup : (s.registrations.map (·.category)).Nodup) :
    s.finish = .ok ⟨s.name,
      fun c => (s.registrations.find? fun r => r.category = c).map s.prototype,
      s.keywords, s.operators, Category.tried, s.keywordsFromIdentifiers⟩ := by
  have horder : s.order = .ok Category.tried := by rw [order, hpriority]
  rw [finish, horder, s.fill_eq_ok hnodup (by simp)]
  simp [bind, Except.bind, pure, Except.pure]

/-- What a finished language holds. -/
theorem finish_spec {s : Setup} {l : Language} (h : s.finish = .ok l) :
    l = ⟨s.name, fun c => (s.registrations.find? fun r => r.category = c).map s.prototype,
      s.keywords, s.operators, s.priority.getD Category.tried, s.keywordsFromIdentifiers⟩ := by
  simp only [finish, bind, Except.bind, pure, Except.pure] at h
  split at h
  · cases h
  · next order horder =>
    have hpriority : order = s.priority.getD Category.tried := by
      rw [Setup.order] at horder
      cases hlisted : s.priority with
      | none =>
        rw [hlisted] at horder
        cases horder
        rfl
      | some listed =>
        rw [hlisted] at horder
        dsimp only at horder
        split at horder
        · cases horder
        · cases horder
          rfl
    split at h
    · cases h
    · next hfill =>
      cases h
      rw [Language.mk.injEq]
      refine ⟨rfl, ?_, rfl, rfl, hpriority, rfl⟩
      funext c
      rw [s.fill_find hfill c, Option.none_or]

theorem finish_wellFiled {s : Setup} {l : Language} (h : s.finish = .ok l) : l.WellFiled := by
  intro c p hp
  rw [finish_spec h] at hp
  obtain ⟨r, hr, rfl⟩ := Option.map_eq_some_iff.mp hp
  have hcategory := List.find?_some hr
  exact of_decide_eq_true hcategory

end Setup

theorem Language.build_wellFiled {name : Text} {steps : List SetupStep} {l : Language}
    (h : Language.build name steps = .ok l) : l.WellFiled :=
  Setup.finish_wellFiled h

end TokenGraph
