import TokenGraph.Proofs.Registrations
import TokenGraph.Proofs.Trials

/-!
# Complete languages

Whether a language can be analyzed is told by what it lacks: a prototype of a category that it tries
or, where its identifiers can turn out to be keywords, the prototype of these. The first lack is
what is reported. Another prototype or an empty table of keywords is none.
-/

namespace TokenGraph

namespace Language

/-- The first category that is tried without a prototype. -/
def FirstUnfilled (l : Language) (c : Category) : Prop :=
  ∃ front back, l.trialOrder = front ++ c :: back ∧
    (∀ b ∈ front, ∃ p, l.prototype? b = some p) ∧ l.prototype? c = none

/-- All tried categories have prototypes. There are keywords that identifiers can turn out to be,
but no prototype for these. -/
structure LacksKeyword (l : Language) : Prop where
  filled : ∀ c ∈ l.trialOrder, ∃ p, l.prototype? c = some p
  keywords : l.keywords ≠ []
  identifier : .identifier ∈ l.trialOrder
  unfilled : l.prototype? .keyword = none

variable {l : Language} {c : Category}

theorem firstUnfilled_iff : l.FirstUnfilled c ↔
    l.trialOrder.find? (fun c => (l.prototype? c).isNone) = some c := by
  rw [List.find?_eq_some_iff_append, FirstUnfilled]
  simp only [Option.isNone_iff_eq_none, Bool.not_eq_true', Option.isNone_eq_false_iff,
    Option.isSome_iff_exists]
  constructor
  · rintro ⟨front, back, horder, hfront, hc⟩
    exact ⟨hc, front, back, horder, hfront⟩
  · rintro ⟨hc, front, back, horder, hfront⟩
    exact ⟨front, back, horder, hfront, hc⟩

theorem not_firstUnfilled_iff : (∀ c, ¬ l.FirstUnfilled c) ↔
    ∀ c ∈ l.trialOrder, ∃ p, l.prototype? c = some p := by
  simp only [firstUnfilled_iff, ← Option.eq_none_iff_forall_ne_some, List.find?_eq_none,
    Option.isNone_iff_eq_none, ← ne_eq, Option.ne_none_iff_exists']

/-- What is missing first: a tried category, or else keywords. -/
theorem missing?_eq_some_iff (hl : l.WellFiled) : l.missing? = some c ↔
    l.FirstUnfilled c ∨ l.LacksKeyword ∧ c = .keyword := by
  rw [missing?, needed, List.find?_append, Option.or_eq_some_iff, ← firstUnfilled_iff]
  apply or_congr_right
  rw [Option.eq_none_iff_forall_ne_some]
  simp only [ne_eq, ← firstUnfilled_iff, not_firstUnfilled_iff]
  constructor
  · rintro ⟨hfilled, hfind⟩
    rw [any_identifier hl hfilled] at hfind
    split at hfind
    · next hwanted =>
      simp only [Bool.and_eq_true, Bool.not_eq_true', List.isEmpty_eq_false_iff,
        decide_eq_true_eq] at hwanted
      rw [List.find?_singleton] at hfind
      split at hfind
      · next hnone =>
        cases hfind
        exact ⟨⟨hfilled, hwanted.1, hwanted.2, Option.isNone_iff_eq_none.mp hnone⟩, rfl⟩
      · cases hfind
    · cases hfind
  · rintro ⟨h, rfl⟩
    refine ⟨h.filled, ?_⟩
    rw [any_identifier hl h.filled, if_pos (by simp [h.keywords, h.identifier]),
      List.find?_singleton, h.unfilled]
    rfl

/-- Nothing more is lacking where the same categories are tried and as many of them have prototypes,
and where there are no keywords unless there were some before. -/
theorem ofLanguage_ok_mono {l' : Language} (hl : l.WellFiled) (hl' : l'.WellFiled)
    (horder : l'.trialOrder = l.trialOrder)
    (hslots : ∀ c, (l.prototype? c).isSome → (l'.prototype? c).isSome)
    (hkeywords : l.keywords = [] → l'.keywords = [])
    (h : ∃ a, Analyzer.ofLanguage l = .ok a) : ∃ a, Analyzer.ofLanguage l' = .ok a := by
  simp only [Option.isSome_iff_exists] at hslots
  rw [Analyzer.ofLanguage_ok_iff hl] at h
  rw [Analyzer.ofLanguage_ok_iff hl', horder]
  obtain ⟨hfilled, hkeyword⟩ := h
  constructor
  · intro c hc
    exact hslots c (hfilled c hc)
  · intro hsome hidentifier
    exact hslots .keyword (hkeyword (mt hkeywords hsome) hidentifier)

end Language

/-! ### More prototypes and fewer keywords -/

open SetupStep

namespace Language

variable {name : Text} {steps steps' : List SetupStep} {l : Language}

theorem registrations_nodup (hl : Language.build name steps = .ok l) :
    ((registrations steps).map (·.category)).Nodup := by
  rw [Language.build, run_eq] at hl
  exact (Setup.finish_eq_ok_iff.mp ⟨l, hl⟩).2

/-- Other steps build a language as well if they tell the same priority list, and register no
category twice. -/
theorem exists_build (hl : Language.build name steps = .ok l)
    (horder : lastOrder? steps' = lastOrder? steps)
    (hnodup : ((registrations steps').map (·.category)).Nodup) :
    ∃ l', Language.build name steps' = .ok l' := by
  rw [Language.build, run_eq] at hl ⊢
  obtain ⟨hsound, -⟩ := Setup.finish_eq_ok_iff.mp ⟨l, hl⟩
  apply Setup.finish_eq_ok_iff.mpr
  rw [horder]
  exact ⟨hsound, hnodup⟩

theorem SetUpBy.trialOrder_eq {l' : Language} (h : l.SetUpBy name steps)
    (h' : l'.SetUpBy name steps') (horder : lastOrder? steps' = lastOrder? steps)
    (hmode : lastFromIdentifiers? steps' = lastFromIdentifiers? steps) :
    l'.trialOrder = l.trialOrder := by
  rw [h'.trialOrder, h.trialOrder, h'.priority, h.priority, h'.fromIdentifiers, h.fromIdentifiers,
    horder, hmode]

/-- One more prototype is registered, somewhere among the steps. -/
theorem exists_analyzer_registered {before after : List SetupStep} {r : Registration}
    (hl : Language.build name (before ++ after) = .ok l) (hfree : l.prototype? r.category = none)
    (h : ∃ a, Analyzer.ofLanguage l = .ok a) : ∃ l' a',
      Language.build name (before ++ .prototype r :: after) = .ok l' ∧
        Analyzer.ofLanguage l' = .ok a' := by
  have hset := build_setUpBy hl
  have hregistrations : registrations (before ++ .prototype r :: after) =
      registrations before ++ r :: registrations after := by
    simp [registrations, registration?]
  have horder : lastOrder? (before ++ .prototype r :: after) = lastOrder? (before ++ after) := by
    simp [lastOrder?, order?]
  have hmode : lastFromIdentifiers? (before ++ .prototype r :: after) =
      lastFromIdentifiers? (before ++ after) := by
    simp [lastFromIdentifiers?, fromIdentifiers?]
  have hkeywords : table (before ++ .prototype r :: after) .keywords =
      table (before ++ after) .keywords := by
    simp only [table, List.filterMap_append]
    rfl
  have hnew : r.category ∉ (registrations (before ++ after)).map (·.category) := by
    rw [← hset.slots, hfree]
    simp
  have hold : ((registrations (before ++ after)).map (·.category)).Nodup := registrations_nodup hl
  have hsplit : registrations (before ++ after) = registrations before ++ registrations after := by
    simp [registrations]
  obtain ⟨l', hl'⟩ : ∃ l', Language.build name (before ++ .prototype r :: after) = .ok l' := by
    apply exists_build hl horder
    rw [hsplit, List.map_append] at hnew hold
    rw [hregistrations, List.map_append, List.map_cons, List.nodup_middle]
    exact List.nodup_cons.mpr ⟨hnew, hold⟩
  have hset' := build_setUpBy hl'
  obtain ⟨a', ha'⟩ : ∃ a', Analyzer.ofLanguage l' = .ok a' := by
    apply ofLanguage_ok_mono (build_wellFiled hl) (build_wellFiled hl')
      (hset.trialOrder_eq hset' horder hmode) _ _ h
    · intro c hc
      rw [hset.slots, hsplit] at hc
      rw [hset'.slots, hregistrations]
      simp only [List.map_append, List.mem_append, List.map_cons, List.mem_cons] at hc ⊢
      tauto
    · intro hnone
      rw [hset'.keywords, hkeywords, ← hset.keywords, hnone]
  exact ⟨l', a', hl', ha'⟩

/-- The steps of other kinds are all there without those that bring keywords. -/
private theorem filterMap_wordless {β : Type} {f : SetupStep → Option β}
    (hf : ∀ words, f (.keywords words) = none) (steps : List SetupStep) :
    (steps.filter fun step => step.keywords?.isNone).filterMap f = steps.filterMap f := by
  rw [List.filterMap_filter]
  apply List.filterMap_congr
  intro step _
  cases step with
  | keywords words => simp [keywords?, hf]
  | prototype | operators | priority | keywordsFromIdentifiers => rfl

/-- The steps that bring keywords are left out. -/
theorem exists_analyzer_wordless (hl : Language.build name steps = .ok l)
    (h : ∃ a, Analyzer.ofLanguage l = .ok a) : ∃ l' a',
      Language.build name (steps.filter fun step => step.keywords?.isNone) = .ok l' ∧
        l'.keywords = [] ∧ Analyzer.ofLanguage l' = .ok a' := by
  have hset := build_setUpBy hl
  have hregistrations : registrations (steps.filter fun step => step.keywords?.isNone) =
      registrations steps := filterMap_wordless (fun _ => rfl) steps
  have horder : lastOrder? (steps.filter fun step => step.keywords?.isNone) = lastOrder? steps :=
    congrArg List.getLast? (filterMap_wordless (fun _ => rfl) steps)
  have hmode : lastFromIdentifiers? (steps.filter fun step => step.keywords?.isNone) =
      lastFromIdentifiers? steps :=
    congrArg List.getLast? (filterMap_wordless (fun _ => rfl) steps)
  have hkeywords : table (steps.filter fun step => step.keywords?.isNone) .keywords = [] := by
    have hnone : (steps.filter fun step => step.keywords?.isNone).filterMap keywords? = [] := by
      simp
    rw [table, hnone]
    rfl
  obtain ⟨l', hl'⟩ : ∃ l', Language.build name
      (steps.filter fun step => step.keywords?.isNone) = .ok l' := by
    apply exists_build hl horder
    rw [hregistrations]
    exact registrations_nodup hl
  have hset' := build_setUpBy hl'
  have hwordless : l'.keywords = [] := by rw [hset'.keywords, hkeywords]
  obtain ⟨a', ha'⟩ : ∃ a', Analyzer.ofLanguage l' = .ok a' := by
    apply ofLanguage_ok_mono (build_wellFiled hl) (build_wellFiled hl')
      (hset.trialOrder_eq hset' horder hmode) _ (fun _ => hwordless) h
    intro c hc
    rw [hset.slots] at hc
    rwa [hset'.slots, hregistrations]
  exact ⟨l', a', hl', hwordless, ha'⟩

end Language

/-- A language that steps have built cannot be analyzed exactly if it lacks a prototype: the first
category that is tried without one is reported, and where there is none, keywords that identifiers
can turn out to be. Once it can be analyzed it still can with a prototype more in a free place, and
with no keywords left. -/
theorem Analyzer.ofLanguage_lacks {name : Text} {steps : List SetupStep} {l : Language}
    (hl : Language.build name steps = .ok l) :
    (∀ cause, ofLanguage l = .error cause ↔
      ∃ c, (l.FirstUnfilled c ∨ l.LacksKeyword ∧ c = .keyword) ∧ cause = .noPrototype c) ∧
    ((∃ a, ofLanguage l = .ok a) ↔ (∀ c, ¬ l.FirstUnfilled c) ∧ ¬ l.LacksKeyword) ∧
    ((∃ a, ofLanguage l = .ok a) →
      (∀ before after r, steps = before ++ after → l.prototype? r.category = none →
        ∃ l' a', Language.build name (before ++ .prototype r :: after) = .ok l' ∧
          ofLanguage l' = .ok a') ∧
      ∃ l' a', Language.build name (steps.filter fun step => step.keywords?.isNone) = .ok l' ∧
        l'.keywords = [] ∧ ofLanguage l' = .ok a') := by
  have hfiled := Language.build_wellFiled hl
  refine ⟨?_, ?_, ?_⟩
  · intro cause
    simp only [ofLanguage_eq_error, Language.missing?_eq_some_iff hfiled]
  · rw [ofLanguage_ok_iff_missing?, Option.eq_none_iff_forall_ne_some]
    simp only [ne_eq, Language.missing?_eq_some_iff hfiled, not_or, forall_and]
    apply and_congr_right
    intro hfilled
    constructor
    · intro h hlacks
      exact h .keyword ⟨hlacks, rfl⟩
    · intro h c hlacks
      exact h hlacks.1
  · intro h
    constructor
    · rintro before after r rfl hfree
      exact Language.exists_analyzer_registered hl hfree h
    · exact Language.exists_analyzer_wordless hl h

/-- Identifiers can turn out to be keywords, which have no prototype yet. -/
def bareKeywords : List SetupStep := [
  .keywords [text "if"],
  .prototype ⟨.identifier, .machine .initial, .plain⟩,
  .priority [.space, .identifier],
  .prototype ⟨.space, .literals .operators, .plain⟩]

def keywordTrie : SetupStep := .prototype ⟨.keyword, .literals .keywords, .plain⟩

theorem Analyzer.ofLanguage_lacks_sample :
    (∃ l, Language.build (text "C") bareKeywords = .ok l ∧ l.LacksKeyword ∧
      ofLanguage l = .error (.noPrototype .keyword)) ∧
    ∃ l, Language.build (text "C") (bareKeywords ++ [keywordTrie]) = .ok l ∧
      (∃ a, ofLanguage l = .ok a) ∧ l.prototype? .comment = none ∧
      (∃ l' a', Language.build (text "C")
        (bareKeywords ++ .prototype ⟨.comment, .machine .initial, .plain⟩ :: [keywordTrie]) = .ok l' ∧
          ofLanguage l' = .ok a') ∧
      ∃ l' a', Language.build (text "C")
        ((bareKeywords ++ [keywordTrie]).filter fun step => step.keywords?.isNone) = .ok l' ∧
          l'.keywords = [] ∧ ofLanguage l' = .ok a' := by
  constructor
  · obtain ⟨l, hl⟩ : ∃ l, Language.build (text "C") bareKeywords = .ok l := ⟨_, rfl⟩
    obtain ⟨herror, -, -⟩ := ofLanguage_lacks hl
    have horder : l.trialOrder = [.space, .identifier] := by
      cases hl
      rfl
    have hslots : ∀ c, (l.prototype? c).isSome ↔ c ∈ [Category.identifier, .space] :=
      (Language.build_setUpBy hl).slots
    have hlacks : l.LacksKeyword := by
      refine ⟨?_, ?_, by simp [horder], ?_⟩
      · intro c hc
        apply Option.isSome_iff_exists.mp
        rw [hslots]
        simpa [horder, or_comm] using hc
      · cases hl
        exact List.cons_ne_nil _ _
      · have hkeyword := mt (hslots .keyword).mp (by decide)
        simpa using hkeyword
    exact ⟨l, hl, hlacks, (herror _).mpr ⟨.keyword, .inr ⟨hlacks, rfl⟩, rfl⟩⟩
  · obtain ⟨l, hl⟩ : ∃ l, Language.build (text "C") (bareKeywords ++ [keywordTrie]) = .ok l :=
      ⟨_, rfl⟩
    obtain ⟨a, ha⟩ : ∃ a, ofLanguage l = .ok a := by
      cases hl
      exact ⟨_, rfl⟩
    have hfree : l.prototype? .comment = none := by
      cases hl
      rfl
    obtain ⟨-, -, hmore⟩ := ofLanguage_lacks hl
    obtain ⟨hregistered, hwordless⟩ := hmore ⟨a, ha⟩
    exact ⟨l, hl, ⟨a, ha⟩, hfree, hregistered _ _ _ rfl hfree, hwordless⟩

end TokenGraph
