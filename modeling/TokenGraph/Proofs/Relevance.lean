import TokenGraph.Proofs.Tokens
import TokenGraph.Proofs.Trie

/-!
# What tokens depend on

Languages that agree on their trials, on their keywords and on their one-character operators cut
every text into the same tokens, whatever else they hold.
-/

namespace TokenGraph

/-- Automata that are the same, or trees of the same literals. -/
def Automaton.Interchangeable (m m' : Automaton) : Prop :=
  m = m' ∨ ∃ symbols symbols', m = .ofLiterals symbols ∧ m' = .ofLiterals symbols' ∧
    ∀ w, w ≠ [] → (w ∈ symbols ↔ w ∈ symbols')

/-- Languages that agree on what is looked at when a text is analyzed. -/
structure Language.Alike (l l' : Language) : Prop where
  order : l.trialOrder = l'.trialOrder
  trials : ∀ c ∈ l.trialOrder, ∀ p p', l.prototype? c = some p → l'.prototype? c = some p' →
    p.style = p'.style ∧ p.machine.Interchangeable p'.machine
  keywords : ∀ w, w ∈ l.keywords ↔ w ∈ l'.keywords
  boundaries : ∀ c, [c] ∈ l.operators ↔ [c] ∈ l'.operators
  keywordStyle : l.keywords ≠ [] → .identifier ∈ l.trialOrder → ∀ p p',
    l.prototype? .keyword = some p → l'.prototype? .keyword = some p' → p.style = p'.style
  unknownStyle : l.unknownStyle = l'.unknownStyle

theorem isBoundary_congr {operators operators' : List Text}
    (h : ∀ c, [c] ∈ operators ↔ [c] ∈ operators') :
    isBoundary operators = isBoundary operators' := by
  funext c
  have hany : ∀ symbols : List Text, symbols.any (fun symbol => symbol = [c]) = true ↔
      [c] ∈ symbols := by
    intro symbols
    simp
  have hsame : (operators.any fun symbol => symbol = [c]) =
      operators'.any fun symbol => symbol = [c] := by
    rw [Bool.eq_iff_iff, hany, hany, h c]
  rw [isBoundary, isBoundary, hsame]

theorem Prototype.scan_congr {p p' : Prototype} {operators operators' : List Text}
    (hcategory : p.category = p'.category) (hmachine : p.machine.Interchangeable p'.machine)
    (hoperators : ∀ c, [c] ∈ operators ↔ [c] ∈ operators') (s : Text) :
    p.scan operators s = p'.scan operators' s := by
  rcases hmachine with hsame | ⟨symbols, symbols', hm, hm', hsymbols⟩
  · rw [scan, scan, scanner, scanner, hcategory, hsame, isBoundary_congr hoperators]
  · exact Scanner.run_ofLiterals_congr hm hm' hsymbols s

namespace Language.Alike

variable {l l' : Language} {a a' : Analyzer} {s w : Text} {k c : Category} {o : Outcome}
variable (hl : l.WellFiled) (hl' : l'.WellFiled)
variable (ha : Analyzer.ofLanguage l = .ok a) (ha' : Analyzer.ofLanguage l' = .ok a')

include hl hl' ha ha'

/-- Both languages fill the slot of a category that is tried, with prototypes that report alike. -/
theorem slots (h : l.Alike l') (hc : c ∈ l.trialOrder) :
    ∃ p p', l.prototype? c = some p ∧ l'.prototype? c = some p' ∧ p.style = p'.style ∧
      ∀ s, p.scan l.operators s = p'.scan l'.operators s := by
  obtain ⟨p, hp⟩ := ((Analyzer.ofLanguage_ok_iff hl).mp ⟨a, ha⟩).1 c hc
  obtain ⟨p', hp'⟩ := ((Analyzer.ofLanguage_ok_iff hl').mp ⟨a', ha'⟩).1 c (h.order ▸ hc)
  obtain ⟨hstyle, hmachine⟩ := h.trials c hc p p' hp hp'
  have hcategory : p.category = p'.category := (hl c p hp).trans (hl' c p' hp').symm
  exact ⟨p, p', hp, hp', hstyle, Prototype.scan_congr hcategory hmachine h.boundaries⟩

theorem reports_iff (h : l.Alike l') (hc : c ∈ l.trialOrder) :
    l.Reports c s o ↔ l'.Reports c s o := by
  obtain ⟨p, p', hp, hp', -, hscan⟩ := h.slots hl hl' ha ha' hc
  simp [Reports, hp, hp', hscan]

theorem awards (h : l.Alike l') (hw : l.Awards s k w) : l'.Awards s k w := by
  have hreports : ∀ {b o}, b ∈ l'.trialOrder → (l.Reports b s o ↔ l'.Reports b s o) :=
    fun hb => h.reports_iff hl hl' ha ha' (h.order ▸ hb)
  have hnone : ∀ {before : List Category}, before ⊆ l'.trialOrder →
      (∀ b ∈ before, ∀ v, ¬ l.Accepts b s v) → ∀ b ∈ before, ∀ v, ¬ l'.Accepts b s v := by
    intro before hsub hbefore b hb v hv
    exact hbefore b hb v ⟨hv.1, (hreports (hsub hb)).mpr hv.2⟩
  cases hw with
  | accepted horder hbefore hw =>
    rw [h.order] at horder
    simp only [h.keywords]
    exact .accepted horder (hnone (by simp [horder]) hbefore)
      ⟨hw.1, (hreports (by simp [horder])).mp hw.2⟩
  | longest hbefore hc hread hne hmax =>
    rw [h.order] at hbefore hc hmax
    exact .longest (hnone (List.Subset.refl _) hbefore) hc ((hreports hc).mp hread) hne
      fun b hb v hv => hmax b hb v ((hreports hb).mpr hv)
  | single hs hbefore hempty =>
    rw [h.order] at hbefore hempty
    exact .single hs (hnone (List.Subset.refl _) hbefore)
      fun b hb v hv => hempty b hb v ((hreports hb).mpr hv)

theorem styleOf?_eq (h : l.Alike l') (hw : l.Awards s k w) : l'.styleOf? k = l.styleOf? k := by
  by_cases hk : k ∈ l.trialOrder
  · obtain ⟨p, p', hp, hp', hstyle, -⟩ := h.slots hl hl' ha ha' hk
    rw [styleOf?_of_prototype hp, styleOf?_of_prototype hp', hstyle]
  · rcases hw.category.resolve_left hk with rfl | rfl
    · obtain ⟨hmem, hidentifier, -⟩ := hw.mem_keywords hk
      have hkeywords : l.keywords ≠ [] := List.ne_nil_of_mem hmem
      have hkeywords' : l'.keywords ≠ [] := List.ne_nil_of_mem ((h.keywords w).mp hmem)
      obtain ⟨p, hp⟩ := ((Analyzer.ofLanguage_ok_iff hl).mp ⟨a, ha⟩).2 hkeywords hidentifier
      obtain ⟨p', hp'⟩ := ((Analyzer.ofLanguage_ok_iff hl').mp ⟨a', ha'⟩).2 hkeywords'
        (h.order ▸ hidentifier)
      rw [styleOf?_of_prototype hp, styleOf?_of_prototype hp',
        h.keywordStyle hkeywords hidentifier p p' hp hp']
    · rw [styleOf?, styleOf?, if_pos rfl, if_pos rfl, h.unknownStyle]

theorem analyze_eq (h : l.Alike l') (s : Text) : a.analyze s = a'.analyze s := by
  apply Analyzer.analyze_congr
  intro c rest
  have hawards := Analyzer.awards_headToken hl ha c rest
  have hstyle := Analyzer.headToken_style hl ha c rest
  rw [← h.styleOf?_eq hl hl' ha ha' hawards] at hstyle
  exact (Analyzer.headToken_eq hl' ha' (h.awards hl hl' ha ha' hawards) hstyle).symm

end Language.Alike

/-! ### Setups -/

namespace Setup

def listed (t : Setup) : List Category := t.priority.getD Category.tried

/-- The categories that are listed, other than keywords where identifiers yield them. -/
def Tries (t : Setup) (c : Category) : Prop :=
  c ∈ t.listed ∧ c ≠ .unknown ∧ ¬ (t.keywordsFromIdentifiers = true ∧ c = .keyword)

def registered? (registrations : List Registration) (c : Category) : Option Registration :=
  registrations.find? fun r => r.category = c

/-- Changes to a setup that no token shows. -/
inductive Edit (t : Setup) : Setup → Prop
  /-- The tables may list their words in any order and any number. Operators of more than one
  character do not matter at all where the tree of operators is not tried. -/
  | tables {words symbols : List Text} (hwords : ∀ w, w ∈ t.keywords ↔ w ∈ words)
      (hboundaries : ∀ c, [c] ∈ t.operators ↔ [c] ∈ symbols)
      (hsymbols : ∀ r ∈ t.registrations, t.Tries r.category → r.recognizer = .literals .operators →
        ∀ w, w ≠ [] → (w ∈ t.operators ↔ w ∈ symbols)) :
      t.Edit { t with keywords := words, operators := symbols }
  /-- Categories that are not tried may have any automata or none; keywords and unknown text keep
  their styles. -/
  | registrations {others : List Registration}
      (htried : ∀ c, t.Tries c → registered? t.registrations c = registered? others c)
      (hkeyword : t.keywords ≠ [] → t.Tries .identifier →
        (registered? t.registrations .keyword).map Registration.style =
          (registered? others .keyword).map Registration.style)
      (hunknown : (registered? t.registrations .unknown).map Registration.style =
        (registered? others .unknown).map Registration.style) :
      t.Edit { t with registrations := others }
  /-- Where identifiers yield keywords, these may be listed anywhere. -/
  | priority {order : List Category} (hmode : t.keywordsFromIdentifiers = true)
      (horder : t.listed.filter (· ≠ .keyword) = order.filter (· ≠ .keyword)) :
      t.Edit { t with priority := some order }

variable {t t' : Setup} {l l' : Language} {c : Category}

theorem mem_of_registered? {registrations : List Registration} {r : Registration}
    (h : registered? registrations c = some r) : r ∈ registrations ∧ r.category = c := by
  have hcategory := List.find?_some h
  exact ⟨List.mem_of_find?_eq_some h, of_decide_eq_true hcategory⟩

theorem finish_trialOrder (hl : t.finish = .ok l) : l.trialOrder = t.listed.filter fun c =>
    c ≠ .unknown && !(t.keywordsFromIdentifiers && c = .keyword) := by
  rw [finish_spec hl]
  rfl

theorem mem_trialOrder (hl : t.finish = .ok l) : c ∈ l.trialOrder ↔ t.Tries c := by
  rw [finish_trialOrder hl]
  cases hmode : t.keywordsFromIdentifiers <;> simp [Tries, hmode]

theorem finish_prototype? (hl : t.finish = .ok l) (c : Category) :
    l.prototype? c = (registered? t.registrations c).map t.prototype := by
  rw [finish_spec hl]
  rfl

theorem finish_unknownStyle (hl : t.finish = .ok l) : l.unknownStyle =
    ((registered? t.registrations .unknown).map Registration.style).getD .unknownDefault := by
  rw [Language.unknownStyle, finish_prototype? hl]
  cases registered? t.registrations .unknown <;> rfl

private theorem interchangeable_prototype {r : Registration}
    (h : ∀ table, r.recognizer = .literals table →
      ∀ w, w ≠ [] → (w ∈ t.table table ↔ w ∈ t'.table table)) :
    (t.prototype r).machine.Interchangeable (t'.prototype r).machine := by
  cases hr : r.recognizer with
  | machine machine => exact .inl (by simp [prototype, hr])
  | literals table =>
    exact .inr ⟨t.table table, t'.table table, by simp [prototype, hr], by simp [prototype, hr],
      h table hr⟩

/-- What setups must agree on for their languages to be alike. -/
private theorem alike_of_registered (hl : t.finish = .ok l) (hl' : t'.finish = .ok l')
    (horder : l.trialOrder = l'.trialOrder) (hwords : ∀ w, w ∈ t.keywords ↔ w ∈ t'.keywords)
    (hboundaries : ∀ c, [c] ∈ t.operators ↔ [c] ∈ t'.operators)
    (htried : ∀ c r r', t.Tries c → registered? t.registrations c = some r →
      registered? t'.registrations c = some r' →
      r.style = r'.style ∧ (t.prototype r).machine.Interchangeable (t'.prototype r').machine)
    (hkeyword : t.keywords ≠ [] → t.Tries .identifier →
      (registered? t.registrations .keyword).map Registration.style =
        (registered? t'.registrations .keyword).map Registration.style)
    (hunknown : (registered? t.registrations .unknown).map Registration.style =
      (registered? t'.registrations .unknown).map Registration.style) : l.Alike l' := by
  have hkeywords : l.keywords = t.keywords ∧ l'.keywords = t'.keywords := by
    rw [finish_spec hl, finish_spec hl']
    exact ⟨rfl, rfl⟩
  have hoperators : l.operators = t.operators ∧ l'.operators = t'.operators := by
    rw [finish_spec hl, finish_spec hl']
    exact ⟨rfl, rfl⟩
  have hslot : ∀ {c p p'}, l.prototype? c = some p → l'.prototype? c = some p' →
      ∃ r r', registered? t.registrations c = some r ∧ registered? t'.registrations c = some r' ∧
        t.prototype r = p ∧ t'.prototype r' = p' := by
    intro c p p' hp hp'
    rw [finish_prototype? hl] at hp
    rw [finish_prototype? hl'] at hp'
    obtain ⟨r, hr, hrp⟩ := Option.map_eq_some_iff.mp hp
    obtain ⟨r', hr', hrp'⟩ := Option.map_eq_some_iff.mp hp'
    exact ⟨r, r', hr, hr', hrp, hrp'⟩
  constructor
  case order =>
    exact horder
  case trials =>
    intro c hc p p' hp hp'
    obtain ⟨r, r', hr, hr', rfl, rfl⟩ := hslot hp hp'
    exact htried c r r' ((mem_trialOrder hl).mp hc) hr hr'
  case keywords =>
    rw [hkeywords.1, hkeywords.2]
    exact hwords
  case boundaries =>
    rw [hoperators.1, hoperators.2]
    exact hboundaries
  case keywordStyle =>
    intro hne hidentifier p p' hp hp'
    obtain ⟨r, r', hr, hr', rfl, rfl⟩ := hslot hp hp'
    rw [hkeywords.1] at hne
    have hstyle := hkeyword hne ((mem_trialOrder hl).mp hidentifier)
    rw [hr, hr'] at hstyle
    exact Option.some.inj hstyle
  case unknownStyle =>
    rw [finish_unknownStyle hl, finish_unknownStyle hl', hunknown]

theorem Edit.alike (h : t.Edit t') (hl : t.finish = .ok l) (hl' : t'.finish = .ok l') :
    l.Alike l' := by
  cases h with
  | tables hwords hboundaries hsymbols =>
    have horder : l.trialOrder = l'.trialOrder := by
      rw [finish_trialOrder hl, finish_trialOrder hl']
      rfl
    refine alike_of_registered hl hl' horder hwords hboundaries ?_ (fun _ _ => rfl) rfl
    intro c r r' hc hr hr'
    obtain rfl : r = r' := Option.some.inj (hr.symm.trans hr')
    refine ⟨rfl, interchangeable_prototype fun table htable w hw => ?_⟩
    cases table with
    | keywords => exact hwords w
    | operators =>
      obtain ⟨hmem, rfl⟩ := mem_of_registered? hr
      exact hsymbols r hmem hc htable w hw
  | registrations htried hkeyword hunknown =>
    have horder : l.trialOrder = l'.trialOrder := by
      rw [finish_trialOrder hl, finish_trialOrder hl']
      rfl
    refine alike_of_registered hl hl' horder (fun w => Iff.rfl) (fun c => Iff.rfl) ?_ hkeyword
      hunknown
    intro c r r' hc hr hr'
    rw [htried c hc] at hr
    obtain rfl : r = r' := Option.some.inj (hr.symm.trans hr')
    exact ⟨rfl, .inl rfl⟩
  | @priority order hmode horder =>
    have hless : ∀ listed : List Category, (listed.filter fun c =>
        c ≠ .unknown && !(t.keywordsFromIdentifiers && c = .keyword)) =
          (listed.filter (· ≠ .keyword)).filter (· ≠ .unknown) := by
      intro listed
      simp [List.filter_filter, hmode]
    have horder' : l.trialOrder = l'.trialOrder := by
      rw [finish_trialOrder hl, finish_trialOrder hl', hless, horder, ← hless]
      rfl
    refine alike_of_registered hl hl' horder' (fun w => Iff.rfl) (fun c => Iff.rfl) ?_
      (fun _ _ => rfl) rfl
    intro c r r' hc hr hr'
    obtain rfl : r = r' := Option.some.inj (hr.symm.trans hr')
    exact ⟨rfl, .inl rfl⟩

end Setup

/-- Languages that are alike in all that is looked at, or that are set up alike but for edits that
are not, cut every text into the same tokens. -/
theorem Analyzer.analyze_eq_of_alike {t t' : Setup} {l l' : Language} {a a' : Analyzer}
    (hl : t.finish = .ok l) (hl' : t'.finish = .ok l') (ha : Analyzer.ofLanguage l = .ok a)
    (ha' : Analyzer.ofLanguage l' = .ok a') (h : l.Alike l' ∨ t.Edit t') (s : Text) :
    a.analyze s = a'.analyze s := by
  have halike : l.Alike l' := h.elim id fun hedit => hedit.alike hl hl'
  exact halike.analyze_eq (Setup.finish_wellFiled hl) (Setup.finish_wellFiled hl') ha ha' s

/-- The setup of the sample language, and one that lists the operators in another order and the
keyword twice. -/
theorem Analyzer.analyze_eq_of_alike_sample : ∃ t t' : Setup, ∃ l l' a a', t.finish = .ok l ∧
    t'.finish = .ok l' ∧ Analyzer.ofLanguage l = .ok a ∧ Analyzer.ofLanguage l' = .ok a' ∧
    t.Edit t' ∧ l.Alike l' ∧ t.operators ≠ t'.operators ∧ t.keywords ≠ t'.keywords ∧
    a.analyze (text "éé==é!") = a'.analyze (text "éé==é!") := by
  have hedit : (Setup.run (text "Sample") sampleSteps).Edit
      { Setup.run (text "Sample") sampleSteps with
        keywords := [text "éé", text "éé"], operators := [text "==", text "="] } := by
    have hwords : ∀ w, w ∈ [text "éé"] ↔ w ∈ [text "éé", text "éé"] := by simp
    have hsymbols : ∀ w, w ∈ [text "=", text "=="] ↔ w ∈ [text "==", text "="] := by
      intro w
      simp [or_comm]
    exact .tables hwords (fun c => hsymbols [c]) fun _ _ _ _ w _ => hsymbols w
  have hsample : ∃ t t' : Setup, t.Edit t' ∧ t.operators ≠ t'.operators ∧
      t.keywords ≠ t'.keywords ∧ ∃ l l' a a', t.finish = .ok l ∧ t'.finish = .ok l' ∧
        Analyzer.ofLanguage l = .ok a ∧ Analyzer.ofLanguage l' = .ok a' :=
    ⟨_, _, hedit, by decide, by decide, _, _, _, _, rfl, rfl, rfl, rfl⟩
  obtain ⟨t, t', hedit, hoperators, hkeywords, l, l', a, a', hl, hl', ha, ha'⟩ := hsample
  exact ⟨t, t', l, l', a, a', hl, hl', ha, ha', hedit, hedit.alike hl hl', hoperators, hkeywords,
    Analyzer.analyze_eq_of_alike hl hl' ha ha' (.inr hedit) (text "éé==é!")⟩

end TokenGraph
