import TokenGraph.Proofs.Coverage
import TokenGraph.Proofs.Setup

/-!
# Trials

The contest at one place of a source, against what it is meant to decide: the first category of the
trial order that accepts some text has the token, and where none does, the longest text read in
vain, or a single character, is unknown.
-/

namespace TokenGraph

def Prototype.Wins (p : Prototype) (operators : List Text) (s : Text) : Prop :=
  (p.scan operators s).accepted = true ∧ (p.scan operators s).consumed ≠ []

theorem Prototype.wins_iff (p : Prototype) (operators : List Text) (s : Text) :
    p.Wins operators s ↔
      ((p.scan operators s).accepted && !(p.scan operators s).consumed.isEmpty) = true := by
  simp [Wins]

theorem contest_cons_of_wins {operators : List Text} {s longest : Text} {p : Prototype}
    {trials : List Prototype} (h : p.Wins operators s) :
    contest operators s (p :: trials) longest = .won p (p.scan operators s).consumed := by
  rw [contest, if_pos ((p.wins_iff operators s).mp h)]

theorem contest_cons_of_not_wins {operators : List Text} {s longest : Text} {p : Prototype}
    {trials : List Prototype} (h : ¬ p.Wins operators s) :
    contest operators s (p :: trials) longest = contest operators s trials
      (if longest.length < (p.scan operators s).consumed.length
        then (p.scan operators s).consumed else longest) := by
  rw [contest, if_neg (mt (p.wins_iff operators s).mpr h)]

/-- Trials that do not win may leave a longer text behind, but do not stop the next one. -/
theorem contest_eq_won {operators : List Text} {s longest w : Text} {p : Prototype}
    {before after : List Prototype} (hbefore : ∀ q ∈ before, ¬ q.Wins operators s)
    (hw : w ≠ []) (hp : p.scan operators s = ⟨true, w⟩) :
    contest operators s (before ++ p :: after) longest = .won p w := by
  induction before generalizing longest with
  | nil =>
    have hwins : p.Wins operators s := by simp [Prototype.Wins, hp, hw]
    rw [List.nil_append, contest_cons_of_wins hwins, hp]
  | cons q before ih =>
    rw [List.cons_append, contest_cons_of_not_wins (hbefore q (by simp))]
    exact ih fun r hr => hbefore r (by simp [hr])

theorem contest_won {operators : List Text} {s longest w : Text} {p : Prototype}
    {trials : List Prototype} (h : contest operators s trials longest = .won p w) :
    w ≠ [] ∧ p.scan operators s = ⟨true, w⟩ ∧ ∃ before after,
      trials = before ++ p :: after ∧ ∀ q ∈ before, ¬ q.Wins operators s := by
  induction trials generalizing longest with
  | nil => cases h
  | cons q trials ih =>
    by_cases hq : q.Wins operators s
    · rw [contest_cons_of_wins hq] at h
      obtain ⟨rfl, rfl⟩ := Verdict.won.inj h
      obtain ⟨haccepted, hne⟩ := hq
      exact ⟨hne, by rw [← haccepted], [], trials, rfl, by simp⟩
    · rw [contest_cons_of_not_wins hq] at h
      obtain ⟨hne, hscan, before, after, rfl, hbefore⟩ := ih h
      refine ⟨hne, hscan, q :: before, after, rfl, ?_⟩
      intro r hr
      rcases List.mem_cons.mp hr with rfl | hr
      · exact hq
      · exact hbefore r hr

/-- A lost contest leaves the longest of the texts that were read, and of the one it began with. -/
theorem contest_lost {operators : List Text} {s longest w : Text} {trials : List Prototype}
    (h : contest operators s trials longest = .lost w) :
    (∀ q ∈ trials, ¬ q.Wins operators s) ∧
      (∀ q ∈ trials, (q.scan operators s).consumed.length ≤ w.length) ∧
      longest.length ≤ w.length ∧
      (w = longest ∨ ∃ q ∈ trials, (q.scan operators s).consumed = w) := by
  induction trials generalizing longest with
  | nil =>
    cases h
    simp
  | cons q trials ih =>
    by_cases hq : q.Wins operators s
    · rw [contest_cons_of_wins hq] at h
      cases h
    · rw [contest_cons_of_not_wins hq] at h
      obtain ⟨hloses, hreads, hlength, hsource⟩ := ih h
      have hq_reads : (q.scan operators s).consumed.length ≤ w.length := by
        split at hlength <;> omega
      have hstart : longest.length ≤ w.length := by
        split at hlength <;> omega
      refine ⟨?_, ?_, hstart, ?_⟩
      · simpa using ⟨hq, hloses⟩
      · simpa using ⟨hq_reads, hreads⟩
      · rcases hsource with hw | ⟨r, hr, hrw⟩
        · split at hw
          · exact .inr ⟨q, by simp, hw.symm⟩
          · exact .inl hw
        · exact .inr ⟨r, by simp [hr], hrw⟩

namespace Language

/-- The categories that take a prototype: those that are tried, and keywords where there are some
that identifiers can turn out to be. -/
def needed (l : Language) : List Category :=
  l.trialOrder ++
    if !l.keywords.isEmpty &&
      l.trialOrder.any fun c => (l.prototype? c).any (·.category = .identifier)
    then [.keyword] else []

/-- The first category that takes a prototype and has none. -/
def missing? (l : Language) : Option Category :=
  l.needed.find? fun c => (l.prototype? c).isNone

theorem require_eq_ok {l : Language} {c : Category} {p : Prototype} :
    l.require c = .ok p ↔ l.prototype? c = some p := by
  unfold require
  split <;> simp_all

private theorem mapM_require {l : Language} {order : List Category} {trials : List Prototype}
    (h : order.mapM l.require = .ok trials) : order.map l.prototype? = trials.map some := by
  induction order generalizing trials with
  | nil =>
    cases h
    rfl
  | cons c order ih =>
    rw [List.mapM_cons] at h
    simp only [bind, Except.bind, pure, Except.pure] at h
    split at h
    · cases h
    · next p hp =>
      split at h
      · cases h
      · next rest hrest =>
        cases h
        rw [List.map_cons, List.map_cons, ih hrest, require_eq_ok.mp hp]

private theorem mapM_require_error {l : Language} {order : List Category} {cause : LanguageError} :
    order.mapM l.require = .error cause ↔
      ∃ c, order.find? (fun c => (l.prototype? c).isNone) = some c ∧ cause = .noPrototype c := by
  induction order with
  | nil => simp [pure, Except.pure]
  | cons c order ih =>
    rw [List.mapM_cons, List.find?_cons]
    cases hp : l.prototype? c with
    | none => simp [require, hp, bind, Except.bind, eq_comm]
    | some p =>
      simp only [require, hp, Option.isNone_some]
      rw [← ih]
      cases order.mapM l.require <;> simp [bind, Except.bind, pure, Except.pure]

end Language

/-- What it takes for a language to be analyzed: a prototype for every category that is tried, and
one for keywords if identifiers can turn out to be keywords. -/
theorem Analyzer.ofLanguage_spec {l : Language} {a : Analyzer}
    (h : Analyzer.ofLanguage l = .ok a) :
    a.language = l ∧ l.trialOrder.map l.prototype? = a.trials.map some ∧
      (a.keywordStyle = none → l.keywords = [] ∨ ∀ p ∈ a.trials, p.category ≠ .identifier) ∧
      ∀ style, a.keywordStyle = some style →
        ∃ p, l.prototype? .keyword = some p ∧ p.style = style := by
  simp only [ofLanguage, bind, Except.bind, pure, Except.pure] at h
  split at h
  · cases h
  · next trials htrials =>
    have hslots := Language.mapM_require htrials
    split at h
    · split at h
      · cases h
      · next p hp =>
        cases h
        refine ⟨rfl, hslots, by simp, ?_⟩
        intro style hstyle
        exact ⟨p, Language.require_eq_ok.mp hp, Option.some.inj hstyle⟩
    · next hkeywords =>
      cases h
      refine ⟨rfl, hslots, ?_, by simp⟩
      intro _
      by_cases hk : l.keywords = []
      · exact .inl hk
      · simpa [hk] using hkeywords

/-- The trials are the prototypes of the categories that are tried. -/
theorem Analyzer.mem_trials {l : Language} {a : Analyzer} (h : Analyzer.ofLanguage l = .ok a)
    {p : Prototype} : p ∈ a.trials ↔ ∃ c ∈ l.trialOrder, l.prototype? c = some p := by
  obtain ⟨-, hslots, -⟩ := ofLanguage_spec h
  have hmem : some p ∈ a.trials.map some ↔ p ∈ a.trials := by simp
  rw [← hmem, ← hslots, List.mem_map]

/-- A language that cannot be analyzed is refused for the first prototype that it misses. -/
theorem Analyzer.ofLanguage_eq_error {l : Language} {cause : LanguageError} :
    ofLanguage l = .error cause ↔ ∃ c, l.missing? = some c ∧ cause = .noPrototype c := by
  unfold ofLanguage
  cases htrials : l.trialOrder.mapM l.require with
  | error e =>
    obtain ⟨c, hc, rfl⟩ := Language.mapM_require_error.mp htrials
    have hmissing : l.missing? = some c := by
      rw [Language.missing?, Language.needed, List.find?_append, hc, Option.some_or]
    simp [hmissing, bind, Except.bind, eq_comm]
  | ok trials =>
    have hfilled : l.trialOrder.find? (fun c => (l.prototype? c).isNone) = none := by
      rw [Option.eq_none_iff_forall_ne_some]
      intro c hc
      have herror := Language.mapM_require_error.mpr ⟨c, hc, rfl⟩
      rw [htrials] at herror
      cases herror
    have hidentifier :
        (l.trialOrder.any fun c => (l.prototype? c).any (·.category = .identifier)) =
          trials.any (·.category = .identifier) := by
      have hslots := congrArg (List.any · (·.any (·.category = .identifier)))
        (Language.mapM_require htrials)
      simpa [List.any_map, Function.comp_def] using hslots
    rw [Language.missing?, Language.needed, List.find?_append, hfilled, Option.none_or, hidentifier]
    simp only [bind, Except.bind]
    by_cases hreclassifies : (!l.keywords.isEmpty && trials.any (·.category = .identifier)) = true
    · rw [if_pos hreclassifies, if_pos hreclassifies, List.find?_singleton]
      cases hkeyword : l.prototype? .keyword with
      | none => simp [Language.require, hkeyword, eq_comm]
      | some p => simp [Language.require, hkeyword, pure, Except.pure]
    · rw [if_neg hreclassifies, if_neg hreclassifies]
      simp [pure, Except.pure]

theorem Analyzer.ofLanguage_ok_iff_missing? {l : Language} :
    (∃ a, ofLanguage l = .ok a) ↔ l.missing? = none := by
  constructor
  · rintro ⟨a, ha⟩
    rw [Option.eq_none_iff_forall_ne_some]
    intro c hc
    rw [ofLanguage_eq_error.mpr ⟨c, hc, rfl⟩] at ha
    cases ha
  · intro h
    cases ha : ofLanguage l with
    | ok a => exact ⟨a, rfl⟩
    | error cause =>
      obtain ⟨c, hc, -⟩ := ofLanguage_eq_error.mp ha
      rw [h] at hc
      cases hc

/-- Where every tried category has a prototype, identifiers are tried by their own. -/
theorem Language.any_identifier {l : Language} (hl : l.WellFiled)
    (hfilled : ∀ c ∈ l.trialOrder, ∃ p, l.prototype? c = some p) :
    (l.trialOrder.any fun c => (l.prototype? c).any (·.category = .identifier)) =
      decide (.identifier ∈ l.trialOrder) := by
  rw [Bool.eq_iff_iff, List.any_eq_true, decide_eq_true_iff]
  constructor
  · rintro ⟨c, hc, hcategory⟩
    obtain ⟨p, hp⟩ := hfilled c hc
    rw [hp] at hcategory
    simp only [Option.any_some, decide_eq_true_eq] at hcategory
    rwa [← hcategory, hl c p hp]
  · intro hmem
    obtain ⟨p, hp⟩ := hfilled .identifier hmem
    exact ⟨.identifier, hmem, by simp [hp, hl .identifier p hp]⟩

/-- A language whose prototypes stand under their own categories can be analyzed if every category
that is tried has one, and keywords where there are some that identifiers can turn out to be. -/
theorem Analyzer.ofLanguage_ok_iff {l : Language} (hl : l.WellFiled) :
    (∃ a, Analyzer.ofLanguage l = .ok a) ↔ (∀ c ∈ l.trialOrder, ∃ p, l.prototype? c = some p) ∧
      (l.keywords ≠ [] → .identifier ∈ l.trialOrder → ∃ p, l.prototype? .keyword = some p) := by
  have hneeded : (∃ a, ofLanguage l = .ok a) ↔ ∀ c ∈ l.needed, ∃ p, l.prototype? c = some p := by
    rw [ofLanguage_ok_iff_missing?, Language.missing?, List.find?_eq_none]
    simp only [Option.isNone_iff_eq_none, ← ne_eq, Option.ne_none_iff_exists']
  rw [hneeded, Language.needed, List.forall_mem_append]
  refine and_congr_right fun hfilled => ?_
  rw [Language.any_identifier hl hfilled]
  split <;> simp_all

namespace Language

def Reports (l : Language) (c : Category) (s : Text) (o : Outcome) : Prop :=
  ∃ p, l.prototype? c = some p ∧ p.scan l.operators s = o

/-- The automaton of a category accepts a beginning of the text that is not empty. -/
def Accepts (l : Language) (c : Category) (s w : Text) : Prop :=
  w ≠ [] ∧ l.Reports c s ⟨true, w⟩

/-- The token that a language means to cut from the front of a text. -/
inductive Awards (l : Language) (s : Text) : Category → Text → Prop
  | accepted {before after : List Category} {c : Category} {w : Text}
      (horder : l.trialOrder = before ++ c :: after)
      (hbefore : ∀ b ∈ before, ∀ v, ¬ l.Accepts b s v) (hw : l.Accepts c s w) :
      Awards l s (if c = .identifier ∧ w ∈ l.keywords then .keyword else c) w
  | longest {c : Category} {w : Text} (hnone : ∀ b ∈ l.trialOrder, ∀ v, ¬ l.Accepts b s v)
      (hc : c ∈ l.trialOrder) (hread : l.Reports c s ⟨false, w⟩) (hne : w ≠ [])
      (hmax : ∀ b ∈ l.trialOrder, ∀ v, l.Reports b s ⟨false, v⟩ → v.length ≤ w.length) :
      Awards l s .unknown w
  | single {c : Char} {rest : Text} (hs : s = c :: rest)
      (hnone : ∀ b ∈ l.trialOrder, ∀ v, ¬ l.Accepts b s v)
      (hempty : ∀ b ∈ l.trialOrder, ∀ v, l.Reports b s ⟨false, v⟩ → v = []) :
      Awards l s .unknown [c]

theorem Reports.unique {l : Language} {c : Category} {s : Text} {o o' : Outcome}
    (h : l.Reports c s o) (h' : l.Reports c s o') : o = o' := by
  obtain ⟨p, hp, rfl⟩ := h
  obtain ⟨q, hq, rfl⟩ := h'
  rw [Option.some.inj (hp.symm.trans hq)]

theorem Reports.isPrefix {l : Language} {c : Category} {s : Text} {o : Outcome}
    (h : l.Reports c s o) : o.consumed <+: s := by
  obtain ⟨p, -, rfl⟩ := h
  exact (p.scanner l.operators).run_consumed_isPrefix s

/-- The first category that accepts is the same however the order is cut. -/
private theorem first_accepted_unique {l : Language} {s w w' : Text} {c c' : Category}
    {before after before' after' : List Category}
    (horder : before ++ c :: after = before' ++ c' :: after')
    (hbefore : ∀ b ∈ before, ∀ v, ¬ l.Accepts b s v) (hw : l.Accepts c s w)
    (hbefore' : ∀ b ∈ before', ∀ v, ¬ l.Accepts b s v) (hw' : l.Accepts c' s w') :
    c = c' ∧ w = w' := by
  have hc : c = c' := by
    rcases List.append_eq_append_iff.mp horder with ⟨gap, hgap, hrest⟩ | ⟨gap, hgap, hrest⟩
    · cases gap with
      | nil => exact (List.cons.inj hrest).1
      | cons d gap =>
        obtain ⟨rfl, -⟩ := List.cons.inj hrest
        exact absurd hw (hbefore' c (by simp [hgap]) w)
    · cases gap with
      | nil => exact (List.cons.inj hrest).1.symm
      | cons d gap =>
        obtain ⟨rfl, -⟩ := List.cons.inj hrest
        exact absurd hw' (hbefore c' (by simp [hgap]) w')
  subst hc
  exact ⟨rfl, congrArg Outcome.consumed (hw.2.unique hw'.2)⟩

theorem Awards.unique {l : Language} {s w w' : Text} {k k' : Category}
    (h : l.Awards s k w) (h' : l.Awards s k' w') : k = k' ∧ w = w' := by
  cases h with
  | accepted horder hbefore hw =>
    cases h' with
    | accepted horder' hbefore' hw' =>
      obtain ⟨rfl, rfl⟩ :=
        first_accepted_unique (horder.symm.trans horder') hbefore hw hbefore' hw'
      exact ⟨rfl, rfl⟩
    | longest hnone | single _ hnone => exact absurd hw (hnone _ (by simp [horder]) _)
  | longest hnone hc hread hne hmax =>
    cases h' with
    | accepted horder' _ hw' => exact absurd hw' (hnone _ (by simp [horder']) _)
    | longest _ hc' hread' _ hmax' =>
      have hlen := Nat.le_antisymm (hmax' _ hc _ hread) (hmax _ hc' _ hread')
      exact ⟨rfl, (List.prefix_of_prefix_length_le hread.isPrefix hread'.isPrefix
        (Nat.le_of_eq hlen)).eq_of_length hlen⟩
    | single _ _ hempty => exact absurd (hempty _ hc _ hread) hne
  | single hs hnone hempty =>
    cases h' with
    | accepted horder' _ hw' => exact absurd hw' (hnone _ (by simp [horder']) _)
    | longest _ hc' hread' hne' => exact absurd (hempty _ hc' _ hread') hne'
    | single hs' => exact ⟨rfl, by rw [(List.cons.inj (hs.symm.trans hs')).1]⟩

end Language

namespace Analyzer

theorem not_accepts_of_not_wins {l : Language} {s : Text} {order : List Category}
    {trials : List Prototype} (hslots : order.map l.prototype? = trials.map some)
    (h : ∀ q ∈ trials, ¬ q.Wins l.operators s) : ∀ b ∈ order, ∀ v, ¬ l.Accepts b s v := by
  intro b hb v ⟨hne, p, hp, hscan⟩
  have hmem : some p ∈ trials.map some := by
    rw [← hslots, ← hp]
    exact List.mem_map_of_mem hb
  obtain ⟨q, hq, hqp⟩ := List.mem_map.mp hmem
  cases hqp
  exact h p hq ⟨by rw [hscan], by rwa [hscan]⟩

theorem acceptedToken_category {l : Language} {a : Analyzer} (ha : Analyzer.ofLanguage l = .ok a)
    {p : Prototype} (hp : p ∈ a.trials) (w : Text) :
    (a.acceptedToken p w).category =
      if p.category = .identifier ∧ w ∈ l.keywords then .keyword else p.category := by
  obtain ⟨rfl, -, hstyle, -⟩ := ofLanguage_spec ha
  unfold acceptedToken
  split
  · simp only [Bool.and_eq_true, decide_eq_true_eq, Language.isKeyword, List.contains_iff_mem]
    split <;> rfl
  · next hnone =>
    rw [if_neg]
    rintro ⟨hc, hw⟩
    rcases hstyle hnone with hk | hk
    · simp [hk] at hw
    · exact hk p hp hc

theorem headToken_of_won {a : Analyzer} {c : Char} {rest w : Text} {p : Prototype}
    (h : contest a.language.operators (c :: rest) a.trials [] = .won p w) :
    a.headToken c rest = a.acceptedToken p w := by
  rw [headToken, next, h]
  rfl

theorem headToken_of_lost {a : Analyzer} {c : Char} {rest w : Text}
    (h : contest a.language.operators (c :: rest) a.trials [] = .lost w) :
    a.headToken c rest =
      ⟨.unknown, if w.isEmpty then [c] else w, a.language.unknownStyle⟩ := by
  rw [headToken, next, h]
  rfl

private theorem awards_of_won {a : Analyzer} (hl : a.language.WellFiled)
    (hslots : a.language.trialOrder.map a.language.prototype? = a.trials.map some)
    {s w : Text} {p : Prototype}
    (h : contest a.language.operators s a.trials [] = .won p w) :
    p ∈ a.trials ∧ a.language.Awards s
      (if p.category = .identifier ∧ w ∈ a.language.keywords then .keyword else p.category) w := by
  obtain ⟨hne, hscan, before, after, htrials, hbefore⟩ := contest_won h
  rw [htrials, List.map_append, List.map_cons] at hslots
  obtain ⟨orderBefore, order, horder, hslotsBefore, hrest⟩ := List.map_eq_append_iff.mp hslots
  obtain ⟨k, orderAfter, rfl, hk, -⟩ := List.map_eq_cons_iff.mp hrest
  have haccepts : a.language.Accepts k s w := ⟨hne, p, hk, hscan⟩
  rw [hl k p hk]
  exact ⟨by simp [htrials],
    .accepted horder (not_accepts_of_not_wins hslotsBefore hbefore) haccepts⟩

private theorem awards_of_lost {l : Language} {trials : List Prototype}
    (hslots : l.trialOrder.map l.prototype? = trials.map some) {c : Char} {rest w : Text}
    (h : contest l.operators (c :: rest) trials [] = .lost w) :
    l.Awards (c :: rest) .unknown (if w.isEmpty then [c] else w) := by
  obtain ⟨hloses, hreads, -, hsource⟩ := contest_lost h
  have hnone := not_accepts_of_not_wins hslots hloses
  have hmem : ∀ {p : Prototype}, some p ∈ l.trialOrder.map l.prototype? ↔ p ∈ trials := by
    simp [hslots]
  have hmax : ∀ b ∈ l.trialOrder, ∀ v, l.Reports b (c :: rest) ⟨false, v⟩ →
      v.length ≤ w.length := by
    rintro b hb v ⟨p, hp, hscan⟩
    have hlen := hreads p (hmem.mp (hp ▸ List.mem_map_of_mem hb))
    rwa [hscan] at hlen
  by_cases hw : w = []
  · subst hw
    refine .single rfl hnone ?_
    intro b hb v hv
    exact List.length_eq_zero_iff.mp (Nat.le_zero.mp (hmax b hb v hv))
  · obtain ⟨q, hq, rfl⟩ := hsource.resolve_left hw
    obtain ⟨b, hb, hbq⟩ := List.mem_map.mp (hmem.mpr hq)
    have hrejects : (q.scan l.operators (c :: rest)).accepted = false :=
      Bool.eq_false_iff.mpr fun haccepted => hloses q hq ⟨haccepted, hw⟩
    rw [if_neg (by simpa using hw)]
    exact .longest hnone hb ⟨q, hbq, by rw [← hrejects]⟩ hw hmax

/-- The token at the head of a text is the one that the language means to cut there. -/
theorem awards_headToken {l : Language} {a : Analyzer} (hl : l.WellFiled)
    (ha : Analyzer.ofLanguage l = .ok a) (c : Char) (rest : Text) :
    l.Awards (c :: rest) (a.headToken c rest).category (a.headToken c rest).text := by
  obtain ⟨rfl, hslots, -⟩ := ofLanguage_spec ha
  cases h : contest a.language.operators (c :: rest) a.trials [] with
  | won p w =>
    obtain ⟨hp, hawards⟩ := awards_of_won hl hslots h
    rwa [headToken_of_won h, acceptedToken_text, acceptedToken_category ha hp]
  | lost w =>
    rw [headToken_of_lost h]
    exact awards_of_lost hslots h

theorem headToken_awards {name : Text} {steps : List SetupStep} {l : Language} {a : Analyzer}
    (hl : Language.build name steps = .ok l) (ha : Analyzer.ofLanguage l = .ok a)
    (c : Char) (rest : Text) :
    l.Awards (c :: rest) (a.headToken c rest).category (a.headToken c rest).text :=
  awards_headToken (Language.build_wellFiled hl) ha c rest

/-- Every token of an analysis is the one that the language means to cut at its place. -/
theorem analyze_awards {name : Text} {steps : List SetupStep} {l : Language} {a : Analyzer}
    (hl : Language.build name steps = .ok l) (ha : Analyzer.ofLanguage l = .ok a)
    {s : Text} {before after : List Token} {t : Token} (h : a.analyze s = before ++ t :: after)
    (category : Category) (w : Text) :
    l.Awards (s.drop (before.flatMap Token.text).length) category w ↔
      category = t.category ∧ w = t.text := by
  obtain ⟨c, rest, hs, rfl, -⟩ := a.analyze_split_cons h
  rw [hs, List.drop_left]
  have hawards := headToken_awards hl ha c rest
  constructor
  · intro hw
    exact hw.unique hawards
  · rintro ⟨rfl, rfl⟩
    exact hawards

/-- Behind a keyword and an operator a word meets no boundary; what was read of it is unknown. -/
theorem analyze_awards_sample : ∃ l a, Language.build (text "Sample") sampleSteps = .ok l ∧
    Analyzer.ofLanguage l = .ok a ∧ l.Awards (text "é!") .unknown (text "é") ∧
    ¬ l.Awards (text "é!") .identifier (text "é") := by
  obtain ⟨l, a, hl, ha, htokens, -⟩ := exists_sample
  have hrule := analyze_awards hl ha (htokens : _ =
    [⟨.keyword, text "éé", .plain⟩, ⟨.operator, text "==", .plain⟩] ++ _ :: _)
  refine ⟨l, a, hl, ha, (hrule .unknown (text "é")).mpr ⟨rfl, rfl⟩, ?_⟩
  intro h
  exact absurd ((hrule .identifier (text "é")).mp h).1 (by decide)

end Analyzer

end TokenGraph
