import TokenGraph.Proofs.Trials

/-!
# Tokens

What a token may hold: its category is one that the language tries or turns identifiers into, and
its style is that of the prototype under its category. A token is settled by what the language
awards and by the style of the awarded category.
-/

namespace TokenGraph

namespace Language

/-- The style of a category is that of its prototype. Unknown text has one without a prototype. -/
def styleOf? (l : Language) (c : Category) : Option FontStyle :=
  if c = .unknown then some l.unknownStyle else (l.prototype? c).map Prototype.style

theorem styleOf?_of_prototype {l : Language} {c : Category} {p : Prototype}
    (h : l.prototype? c = some p) : l.styleOf? c = some p.style := by
  rw [styleOf?]
  split
  · next hc =>
    subst hc
    rw [unknownStyle, h]
  · rw [h, Option.map_some]

theorem styleOf?_eq_some {l : Language} {c : Category} {style : FontStyle} :
    l.styleOf? c = some style ↔ (∃ p, l.prototype? c = some p ∧ style = p.style) ∨
      c = .unknown ∧ l.prototype? .unknown = none ∧ style = .unknownDefault := by
  cases hp : l.prototype? c with
  | some p =>
    have hunknown : ¬ (c = .unknown ∧ l.prototype? .unknown = none ∧ style = .unknownDefault) := by
      rintro ⟨rfl, hnone, -⟩
      rw [hp] at hnone
      cases hnone
    rw [styleOf?_of_prototype hp, or_iff_left hunknown]
    simp [eq_comm]
  | none =>
    by_cases hc : c = .unknown
    · subst hc
      simp [styleOf?, unknownStyle, hp, eq_comm]
    · simp [styleOf?, hp, hc]

namespace Awards

variable {l : Language} {s w : Text} {k : Category}

/-- An awarded text that is known was accepted by a category that is tried. -/
theorem accepted_or_unknown (h : l.Awards s k w) :
    (∃ c ∈ l.trialOrder, l.Accepts c s w ∧
      k = if c = .identifier ∧ w ∈ l.keywords then .keyword else c) ∨ k = .unknown := by
  cases h with
  | @accepted before after c _ horder _ hw => exact .inl ⟨c, by simp [horder], hw, rfl⟩
  | longest | single => exact .inr rfl

theorem category (h : l.Awards s k w) : k ∈ l.trialOrder ∨ k = .keyword ∨ k = .unknown := by
  rcases h.accepted_or_unknown with ⟨c, hc, -, rfl⟩ | rfl
  · split
    · exact .inr (.inl rfl)
    · exact .inl hc
  · exact .inr (.inr rfl)

theorem not_mem_keywords (h : l.Awards s .identifier w) : w ∉ l.keywords := by
  rcases h.accepted_or_unknown with ⟨c, -, -, hk⟩ | hk
  · split at hk
    · cases hk
    · next hnot =>
      intro hw
      exact hnot ⟨hk.symm, hw⟩
  · cases hk

/-- Keywords that are not tried come from identifiers. -/
theorem mem_keywords (h : l.Awards s .keyword w) (horder : .keyword ∉ l.trialOrder) :
    w ∈ l.keywords ∧ .identifier ∈ l.trialOrder ∧ l.Accepts .identifier s w := by
  rcases h.accepted_or_unknown with ⟨c, hc, hw, hk⟩ | hk
  · split at hk
    · next hreclassified =>
      obtain ⟨rfl, hmem⟩ := hreclassified
      exact ⟨hmem, hc, hw⟩
    · subst hk
      exact absurd hc horder
  · cases hk

end Awards

end Language

namespace Analyzer

variable {l : Language} {a : Analyzer}

theorem acceptedToken_style (hl : l.WellFiled) (ha : Analyzer.ofLanguage l = .ok a)
    {p : Prototype} (hp : p ∈ a.trials) (w : Text) :
    l.styleOf? (a.acceptedToken p w).category = some (a.acceptedToken p w).style := by
  obtain ⟨c, -, hslot⟩ := (mem_trials ha).mp hp
  have hown : l.styleOf? p.category = some p.style := by
    rw [hl c p hslot]
    exact Language.styleOf?_of_prototype hslot
  unfold acceptedToken
  split
  · next style hstyle =>
    obtain ⟨-, -, -, hsome⟩ := ofLanguage_spec ha
    obtain ⟨q, hq, rfl⟩ := hsome style hstyle
    split
    · exact Language.styleOf?_of_prototype hq
    · exact hown
  · exact hown

theorem headToken_style (hl : l.WellFiled) (ha : Analyzer.ofLanguage l = .ok a) (c : Char)
    (rest : Text) : l.styleOf? (a.headToken c rest).category = some (a.headToken c rest).style := by
  cases h : contest a.language.operators (c :: rest) a.trials [] with
  | won p w =>
    obtain ⟨-, -, before, after, htrials, -⟩ := contest_won h
    rw [headToken_of_won h]
    exact acceptedToken_style hl ha (by simp [htrials]) w
  | lost w =>
    obtain ⟨rfl, -⟩ := ofLanguage_spec ha
    rw [headToken_of_lost h, Language.styleOf?, if_pos rfl]

/-- What the language awards, in the style of its category, is the token. -/
theorem headToken_eq (hl : l.WellFiled) (ha : Analyzer.ofLanguage l = .ok a) {c : Char}
    {rest : Text} {t : Token} (hawards : l.Awards (c :: rest) t.category t.text)
    (hstyle : l.styleOf? t.category = some t.style) : a.headToken c rest = t := by
  obtain ⟨hcategory, htext⟩ := (awards_headToken hl ha c rest).unique hawards
  have hhead := headToken_style hl ha c rest
  rw [hcategory, hstyle, Option.some.injEq] at hhead
  calc a.headToken c rest = ⟨(a.headToken c rest).category, (a.headToken c rest).text,
        (a.headToken c rest).style⟩ := rfl
    _ = t := by rw [hcategory, htext, ← hhead]

/-- No identifier is a keyword. Where keywords are not tried, they are identifiers that are listed.
Nothing but tried categories, keywords and unknown text is found, all of it in the registered
style. -/
theorem analyze_consistent {name : Text} {steps : List SetupStep} {l : Language} {a : Analyzer}
    (hl : Language.build name steps = .ok l) (ha : Analyzer.ofLanguage l = .ok a)
    {s : Text} {before after : List Token} {t : Token} (h : a.analyze s = before ++ t :: after) :
    (t.category = .identifier → t.text ∉ l.keywords) ∧
    (.keyword ∉ l.trialOrder → t.category = .keyword → t.text ∈ l.keywords ∧
      l.Accepts .identifier (s.drop (before.flatMap Token.text).length) t.text) ∧
    (t.category ∈ l.trialOrder ∨ t.category = .keyword ∨ t.category = .unknown) ∧
    ((∃ p, l.prototype? t.category = some p ∧ t.style = p.style) ∨
      t.category = .unknown ∧ l.prototype? .unknown = none ∧ t.style = .unknownDefault) := by
  obtain ⟨c, rest, hs, rfl, -⟩ := a.analyze_split_cons h
  have hfiled := Language.build_wellFiled hl
  have hawards := awards_headToken hfiled ha c rest
  rw [hs, List.drop_left]
  refine ⟨?_, ?_, hawards.category, ?_⟩
  · intro hidentifier
    rw [hidentifier] at hawards
    exact hawards.not_mem_keywords
  · intro horder hkeyword
    rw [hkeyword] at hawards
    obtain ⟨hmem, -, haccepts⟩ := hawards.mem_keywords horder
    exact ⟨hmem, haccepts⟩
  · exact Language.styleOf?_eq_some.mp (headToken_style hfiled ha c rest)

/-- The keyword at the front of the sample text is a word that the language lists. -/
theorem analyze_consistent_sample : ∃ l a, Language.build (text "Sample") sampleSteps = .ok l ∧
    Analyzer.ofLanguage l = .ok a ∧ (∃ after, a.analyze (text "éé==é!") =
      [] ++ ⟨.keyword, text "éé", .plain⟩ :: after) ∧
    .keyword ∉ l.trialOrder ∧ text "éé" ∈ l.keywords ∧
    l.Accepts .identifier (text "éé==é!") (text "éé") := by
  have hsample : ∃ l a, Language.build (text "Sample") sampleSteps = .ok l ∧
      Analyzer.ofLanguage l = .ok a ∧ .keyword ∉ l.trialOrder ∧
      ∃ after, a.analyze (text "éé==é!") = [] ++ ⟨.keyword, text "éé", .plain⟩ :: after :=
    ⟨_, _, rfl, rfl, by decide, [⟨.operator, text "==", .plain⟩,
      ⟨.unknown, text "é", .unknownDefault⟩, ⟨.unknown, text "!", .unknownDefault⟩],
      by decide +kernel⟩
  obtain ⟨l, a, hl, ha, horder, after, htokens⟩ := hsample
  obtain ⟨-, hkeyword, -⟩ := analyze_consistent hl ha htokens
  obtain ⟨hmem, haccepts⟩ := hkeyword horder rfl
  exact ⟨l, a, hl, ha, ⟨after, htokens⟩, horder, hmem, haccepts⟩

end Analyzer

end TokenGraph
