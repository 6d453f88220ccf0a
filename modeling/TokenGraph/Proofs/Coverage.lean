import TokenGraph.Language.Setup
import TokenGraph.Proofs.Checked
import TokenGraph.Proofs.WellFormed

/-!
# Coverage

An analysis cuts one token after the other from the front of the source. What a token is depends
only on what is left there, and no text is lost or added on the way. It ends early only where an
automaton lists an edge that it does not hold.
-/

namespace TokenGraph.Analyzer

/-- The token at the head of a text that begins with `c`. -/
def headToken (a : Analyzer) (c : Char) (rest : Text) : Token := (a.next 0 c rest).1

theorem next_fst (a : Analyzer) (offset : Nat) (c : Char) (rest : Text) :
    (a.next offset c rest).1 = a.headToken c rest := by
  unfold headToken next
  cases contest a.language.operators (c :: rest) a.trials [] <;> rfl

theorem headToken_ne_nil (a : Analyzer) (c : Char) (rest : Text) :
    (a.headToken c rest).text ≠ [] :=
  (a.next_text 0 c rest).1

theorem headToken_isPrefix (a : Analyzer) (c : Char) (rest : Text) :
    (a.headToken c rest).text <+: c :: rest :=
  (a.next_text 0 c rest).2

/-- The tokens depend on the tokens at the heads alone, and not on where the text begins. -/
private theorem tokensFrom_congr {a a' : Analyzer}
    (h : ∀ c rest, a.headToken c rest = a'.headToken c rest) (skip i j : Nat) (s : Text) :
    (a.tokensFrom skip i s).value = (a'.tokensFrom skip j s).value := by
  induction s generalizing skip i j with
  | nil => cases skip <;> rfl
  | cons c rest ih =>
    cases skip with
    | zero =>
      simp only [tokensFrom, next_fst, h]
      rw [ih]
    | succ skip => exact ih skip i j

theorem analyze_congr {a a' : Analyzer} (h : ∀ c rest, a.headToken c rest = a'.headToken c rest)
    (s : Text) : a.analyze s = a'.analyze s :=
  tokensFrom_congr h 0 0 0 s

@[simp]
theorem analyze_nil (a : Analyzer) : a.analyze [] = [] := rfl

/-- One round of the analysis with its log: the first token and its event, then those of what it
leaves. -/
theorem tokensFrom_cons (a : Analyzer) (offset : Nat) (c : Char) (rest : Text) :
    a.tokensFrom 0 offset (c :: rest) =
      let (token, event) := a.next offset c rest
      let others := a.tokensFrom 0 (offset + byteSize token.text)
        ((c :: rest).drop token.text.length)
      ⟨token :: others.value, event :: others.events⟩ := by
  have hlen : 0 < (a.next offset c rest).1.text.length :=
    List.length_pos_iff.mpr (a.next_text offset c rest).1
  have hdrop : (c :: rest).drop (a.next offset c rest).1.text.length =
      rest.drop ((a.next offset c rest).1.text.length - 1) := by
    rw [← Nat.sub_add_cancel hlen]
    rfl
  dsimp only
  rw [hdrop, ← tokensFrom_skip]
  rfl

/-- One round of the analysis: the first token, then the tokens of what it leaves. -/
theorem analyze_cons (a : Analyzer) (c : Char) (rest : Text) :
    a.analyze (c :: rest) = a.headToken c rest ::
      a.analyze ((c :: rest).drop (a.headToken c rest).text.length) := by
  simp only [analyze, analyzeLogged, tokensFrom_cons, next_fst]
  rw [tokensFrom_congr fun _ _ => rfl]

/-- Tokens that are all read from the front of a text leave its analysis to go on behind them. -/
theorem analyze_split (a : Analyzer) {s : Text} {before after : List Token}
    (h : a.analyze s = before ++ after) :
    ∃ rest, s = before.flatMap Token.text ++ rest ∧ a.analyze rest = after := by
  induction before generalizing s with
  | nil => exact ⟨s, rfl, h⟩
  | cons t before ih =>
    cases s with
    | nil => simp at h
    | cons c rest =>
      rw [analyze_cons, List.cons_append, List.cons.injEq] at h
      obtain ⟨rfl, htail⟩ := h
      obtain ⟨left, hleft, hafter⟩ := ih htail
      refine ⟨left, ?_, hafter⟩
      rw [List.flatMap_cons, List.append_assoc, ← hleft]
      exact (List.prefix_iff_eq_append.mp (a.headToken_isPrefix c rest)).symm

theorem analyze_split_cons (a : Analyzer) {s : Text} {before after : List Token} {t : Token}
    (h : a.analyze s = before ++ t :: after) :
    ∃ c rest, s = before.flatMap Token.text ++ c :: rest ∧ t = a.headToken c rest ∧
      after = a.analyze ((c :: rest).drop t.text.length) := by
  obtain ⟨left, hs, hleft⟩ := a.analyze_split h
  cases left with
  | nil => simp at hleft
  | cons c rest =>
    rw [analyze_cons, List.cons.injEq] at hleft
    obtain ⟨rfl, hafter⟩ := hleft
    exact ⟨c, rest, hs, rfl, hafter.symm⟩

theorem flatMap_analyze (a : Analyzer) (s : Text) : (a.analyze s).flatMap Token.text = s := by
  obtain ⟨rest, hs, hrest⟩ := a.analyze_split (List.append_nil (a.analyze s)).symm
  cases rest with
  | nil => simpa using hs.symm
  | cons c rest => simp [analyze_cons] at hrest

theorem ne_nil_of_mem_analyze (a : Analyzer) {s : Text} {t : Token} (h : t ∈ a.analyze s) :
    t.text ≠ [] := by
  obtain ⟨before, after, hs⟩ := List.append_of_mem h
  obtain ⟨c, rest, -, rfl, -⟩ := a.analyze_split_cons hs
  exact a.headToken_ne_nil c rest

theorem length_analyze_le (a : Analyzer) (s : Text) : (a.analyze s).length ≤ s.length := by
  have hpos : ∀ tokens : List Token, (∀ t ∈ tokens, t.text ≠ []) →
      tokens.length ≤ (tokens.flatMap Token.text).length := by
    intro tokens h
    induction tokens with
    | nil => simp
    | cons t tokens ih =>
      have ht : 0 < t.text.length := List.length_pos_iff.mpr (h t (by simp))
      have hrest := ih fun u hu => h u (by simp [hu])
      simp only [List.length_cons, List.flatMap_cons, List.length_append]
      omega
  have h := hpos (a.analyze s) fun t ht => a.ne_nil_of_mem_analyze ht
  rwa [flatMap_analyze] at h

theorem terminated_eq (line : Text) :
    terminated line = if ['\n'] <:+ line then line else line ++ ['\n'] := by
  have hiff : line.getLast? = some '\n' ↔ ['\n'] <:+ line := by
    rw [List.getLast?_eq_some_iff]
    exact exists_congr fun _ => eq_comm
  simp only [terminated, hiff]

section Language

variable {l : Language} {a : Analyzer} {s : Text}

/-- A language that can be analyzed hands its texts to the analyzer. -/
theorem languageAnalyze_eq_ok_iff (h : Analyzer.ofLanguage l = .ok a) {out : Logged (List Token)} :
    l.analyze s = .ok out ↔ a.checkedAnalyze s = .ok out := by
  rw [Language.analyze, h]
  show (a.checkedAnalyze s).mapError _ = _ ↔ _
  cases a.checkedAnalyze s <;> simp [Except.mapError]

theorem languageAnalyze_eq_error_iff (h : Analyzer.ofLanguage l = .ok a) {cause : LanguageError} :
    l.analyze s = .error cause ↔ ∃ edge : MissingEdge, a.checkedAnalyze s = .error edge ∧
      cause = .missingEdge edge.edgeCount edge.id := by
  rw [Language.analyze, h]
  show (a.checkedAnalyze s).mapError _ = _ ↔ _
  cases a.checkedAnalyze s <;> simp [Except.mapError, eq_comm]

end Language

/-- Whatever a language consists of, once it can be analyzed a text is cut into tokens without a
gap, and a line is cut with one end mark behind it. An analysis without a result has come to an edge
that is listed and missing, and there is none where the states of the automata came without edges. -/
theorem analyze_covers [PatternEngine] {l : Language} {a : Analyzer}
    (h : Analyzer.ofLanguage l = .ok a) :
    (∀ (s : Text) (out : Logged (List Token)), l.analyze s = .ok out →
      out.value = a.analyze s ∧ out.value.length ≤ s.length ∧
      (∀ t ∈ out.value, t.text ≠ []) ∧ out.value.flatMap Token.text = s) ∧
    (∀ (line : Text) (out : Logged (List Token)), a.checkedAnalyzeLine line = .ok out →
      out.value = a.analyzeLine line ∧
      out.value.flatMap Token.text = if ['\n'] <:+ line then line else line ++ ['\n']) ∧
    (∀ (s : Text) (cause : LanguageError), l.analyze s = .error cause →
      ¬ a.Resolved ∧ ∃ edge : MissingEdge, cause = .missingEdge edge.edgeCount edge.id) ∧
    (a.Resolved → ∀ s : Text, (∃ out, l.analyze s = .ok out) ∧
      ∃ out, a.checkedAnalyzeLine s = .ok out) ∧
    ((∀ p ∈ a.trials, (∃ symbols, p.machine = .ofLiterals symbols) ∨
      ∃ steps, Draft.FreshStates steps ∧ Automaton.build steps = .ok p.machine) → a.Resolved) := by
  have hagrees := a.checkedAnalyze_agrees
  refine ⟨?_, ?_, ?_, ?_, ?_⟩
  · intro s out hout
    rw [(hagrees s).eq_of_eq_ok ((languageAnalyze_eq_ok_iff h).mp hout)]
    exact ⟨rfl, a.length_analyze_le s, fun t ht => a.ne_nil_of_mem_analyze ht,
      a.flatMap_analyze s⟩
  · intro line out hout
    rw [(hagrees (terminated line)).eq_of_eq_ok hout, ← terminated_eq]
    exact ⟨rfl, a.flatMap_analyze (terminated line)⟩
  · intro s cause hcause
    obtain ⟨edge, hmissing, rfl⟩ := (languageAnalyze_eq_error_iff h).mp hcause
    refine ⟨fun hresolved => ?_, edge, rfl⟩
    rw [(hagrees s).eq_ok hresolved] at hmissing
    cases hmissing
  · intro hresolved s
    have hanalyzed := (languageAnalyze_eq_ok_iff h).mpr ((hagrees s).eq_ok hresolved)
    exact ⟨⟨_, hanalyzed⟩, _, (hagrees (terminated s)).eq_ok hresolved⟩
  · intro hbuilt p hp
    rcases hbuilt p hp with ⟨symbols, hmachine⟩ | ⟨steps, hfresh, hmachine⟩
    · rw [hmachine]
      exact (Automaton.ofLiterals_wellFormed symbols).resolved
    · exact hfresh.resolved_of_build hmachine

/-- A state that falls back to others and never reads. -/
private def circling : List BuildStep := [
  .state (.fresh (text "a") .intermediate), .state (.fresh (text "b") .intermediate),
  .edge (text "START") (text "OTHERS") (text "a") .fallbackNoConsume,
  .edge (text "a") (text "OTHERS") (text "b") .fallbackNoConsume,
  .edge (text "b") (text "OTHERS") (text "a") .fallbackNoConsume]

/-- Words of one letter repeated, which end at a boundary. -/
private def letters : List BuildStep := [
  .state (.fresh (text "word") .intermediate), .state (.fresh (text "END") .accepting),
  .edge (text "START") (text "é") (text "word") .charClass,
  .edge (text "word") (text "é") (text "word") .charClass,
  .edge (text "word") (text "ACCEPTABLE_SYMBOLS") (text "END") .acceptOnBoundary]

/-- A small language in which a trial may be idle, accept, or read in vain. -/
def sampleSteps : List SetupStep := [
  .operators [text "=", text "=="],
  .keywords [text "éé"],
  .prototype ⟨.comment, .machine (Draft.run circling).graph, .plain⟩,
  .prototype ⟨.keyword, .literals .keywords, .plain⟩,
  .prototype ⟨.identifier, .machine (Draft.run letters).graph, .plain⟩,
  .prototype ⟨.operator, .literals .operators, .plain⟩,
  .priority [.comment, .identifier, .operator]]

/-- The sample text has a keyword, an operator, a word that meets no boundary, and a stray mark. -/
theorem exists_sample : ∃ l a, Language.build (text "Sample") sampleSteps = .ok l ∧
    Analyzer.ofLanguage l = .ok a ∧ a.analyze (text "éé==é!") = [
      ⟨.keyword, text "éé", .plain⟩, ⟨.operator, text "==", .plain⟩,
      ⟨.unknown, text "é", .unknownDefault⟩, ⟨.unknown, text "!", .unknownDefault⟩] ∧
    ∀ p ∈ a.trials, (∃ symbols, p.machine = .ofLiterals symbols) ∨
      ∃ steps, Draft.FreshStates steps ∧ Automaton.build steps = .ok p.machine := by
  refine ⟨_, _, rfl, rfl, by decide +kernel, ?_⟩
  intro p hp
  rcases hp with _ | ⟨_, _ | ⟨_, _ | ⟨_, ⟨⟩⟩⟩⟩
  · exact .inr ⟨circling, by simp [Draft.FreshStates, circling, State.fresh],
      Draft.build_eq_ok (by decide +kernel) (by decide +kernel)⟩
  · exact .inr ⟨letters, by simp [Draft.FreshStates, letters, State.fresh],
      Draft.build_eq_ok (by decide +kernel) (by decide +kernel)⟩
  · exact .inl ⟨_, rfl⟩

theorem analyze_covers_sample : ∃ l a, Analyzer.ofLanguage l = .ok a ∧ a.Resolved ∧
    (∃ out, l.analyze (text "éé==é!") = .ok out ∧ (∀ t ∈ out.value, t.text ≠ []) ∧
      out.value.flatMap Token.text = text "éé==é!") ∧
    ∃ out, a.checkedAnalyzeLine (text "éé") = .ok out ∧
      out.value.flatMap Token.text = text "éé\n" := by
  obtain ⟨l, a, -, ha, -, hbuilt⟩ := exists_sample
  obtain ⟨htexts, hlines, -, hends, hresolved⟩ := analyze_covers ha
  have hsound := hresolved hbuilt
  obtain ⟨⟨out, hout⟩, -⟩ := hends hsound (text "éé==é!")
  obtain ⟨-, line, hline⟩ := hends hsound (text "éé")
  obtain ⟨-, -, hne, hjoined⟩ := htexts _ out hout
  obtain ⟨-, hterminated⟩ := hlines _ line hline
  refine ⟨l, a, ha, hsound, ⟨out, hout, hne, hjoined⟩, line, hline, ?_⟩
  rw [hterminated]
  decide

/-- A state of one graph that is added to another lists the second edge of the first, which is not
there when the second character is read. -/
theorem analyze_uncovered : ∃ added : State,
    (Draft.run Draft.ringSteps).graph.states[1]? = some added ∧
      ∃ m l a, Automaton.build [.state added,
          .edge (text "START") (text "x") (text "a") .charClass] = .ok m ∧
        Language.build (text "Ring") [.prototype ⟨.identifier, .machine m, .plain⟩,
          .priority [.identifier]] = .ok l ∧
        Analyzer.ofLanguage l = .ok a ∧ l.analyze (text "xx") = .error (.missingEdge 1 1) := by
  have hadded : (Draft.run Draft.ringSteps).graph.states[1]? =
      some ⟨text "a", .intermediate, [1], [0, 1]⟩ := by decide +kernel
  exact ⟨_, hadded, _, _, _, Draft.build_eq_ok (by decide +kernel) (by decide +kernel), rfl, rfl,
    by decide +kernel⟩

end TokenGraph.Analyzer
