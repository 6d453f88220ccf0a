import TokenGraph.Event
import TokenGraph.Language.Basic
/-!
# Analyzing texts

An analyzer is a language whose prototypes have all been found. At each place it tries the
categories in order; the first automaton that accepts some text makes the token. Where none does,
the longest text that one of them read, or a single character, is unknown.

A checked analysis fails if an automaton comes to an edge that is listed and not there, and agrees
with the other one where it does not fail.
-/
namespace TokenGraph

structure Token where
  category : Category
  text : Text
  style : FontStyle
  deriving DecidableEq

structure Analyzer where
  language : Language
  trials : List Prototype
  keywordStyle : Option FontStyle

/-- The end of the trials at one place: an automaton that accepted some text, or the longest text
that one of them read. -/
inductive Verdict where
  | won (winner : Prototype) (consumed : Text)
  | lost (longest : Text)

/-- Tries prototypes in order, given the longest text read in vain before. -/
def contest (operators : List Text) (s : Text) : List Prototype → (longest : Text) → Verdict
  | [], longest => .lost longest
  | p :: rest, longest =>
    let outcome := p.scan operators s
    if outcome.accepted && !outcome.consumed.isEmpty then .won p outcome.consumed
    else contest operators s rest
      (if longest.length < outcome.consumed.length then outcome.consumed else longest)

/-- A lost contest read a beginning of the text, and a winner accepted one that is not empty. -/
theorem contest_consumed (operators : List Text) (s : Text) (trials : List Prototype)
    {longest : Text} (h : longest <+: s) :
    match contest operators s trials longest with
    | .won _ consumed => consumed ≠ [] ∧ consumed <+: s
    | .lost longest => longest <+: s := by
  induction trials generalizing longest with
  | nil => exact h
  | cons p rest ih =>
    have hp : (p.scan operators s).consumed <+: s := (p.scanner operators).run_consumed_isPrefix s
    rw [contest]
    by_cases ha : ((p.scan operators s).accepted && !(p.scan operators s).consumed.isEmpty) = true
    · rw [if_pos ha]
      simp only [Bool.and_eq_true, Bool.not_eq_true', List.isEmpty_eq_false_iff] at ha
      exact ⟨ha.2, hp⟩
    · rw [if_neg ha]
      apply ih
      split
      · exact hp
      · exact h

def checkedContest (operators : List Text) (s : Text) :
    List Prototype → (longest : Text) → Except MissingEdge Verdict
  | [], longest => .ok (.lost longest)
  | p :: rest, longest => do
    let outcome ← p.checkedScan operators s
    if outcome.accepted && !outcome.consumed.isEmpty then
      return .won p outcome.consumed
    else
      checkedContest operators s rest
        (if longest.length < outcome.consumed.length then outcome.consumed else longest)

namespace Analyzer

/-- Finds the prototype of every category that is tried, and the keyword style if identifiers can
turn out to be keywords. -/
def ofLanguage (l : Language) : Except LanguageError Analyzer := do
  let trials ← l.trialOrder.mapM l.require
  if !l.keywords.isEmpty && trials.any (·.category = .identifier) then
    let keyword ← l.require .keyword
    return ⟨l, trials, some keyword.style⟩
  else return ⟨l, trials, none⟩

/-- The token of an accepted text. An identifier that is a keyword becomes one. -/
def acceptedToken (a : Analyzer) (p : Prototype) (consumed : Text) : Token :=
  match a.keywordStyle with
  | some style =>
    if p.category = .identifier && a.language.isKeyword consumed then ⟨.keyword, consumed, style⟩
    else ⟨p.category, consumed, p.style⟩
  | none => ⟨p.category, consumed, p.style⟩

/-- The token that a contest is about, in front of a text that begins with `c`, and the event that
reports it. -/
def award (a : Analyzer) (offset : Nat) (c : Char) : Verdict → Token × Event
  | .won p consumed =>
    let token := a.acceptedToken p consumed
    (token, .accepted token.category token.text)
  | .lost longest =>
    let unknown := if longest.isEmpty then [c] else longest
    (⟨.unknown, unknown, a.language.unknownStyle⟩,
      .unrecognized a.language.name offset unknown)

/-- The token at the head of a text that begins with `c`, and the event that reports it. -/
def next (a : Analyzer) (offset : Nat) (c : Char) (rest : Text) : Token × Event :=
  a.award offset c (contest a.language.operators (c :: rest) a.trials [])

theorem acceptedToken_text (a : Analyzer) (p : Prototype) (consumed : Text) :
    (a.acceptedToken p consumed).text = consumed := by
  unfold acceptedToken
  split
  · split <;> rfl
  · rfl

/-- Every token has some text, which the source begins with. -/
theorem next_text (a : Analyzer) (offset : Nat) (c : Char) (rest : Text) :
    (a.next offset c rest).1.text ≠ [] ∧ (a.next offset c rest).1.text <+: c :: rest := by
  have h := contest_consumed a.language.operators (c :: rest) a.trials List.nil_prefix
  rw [next]
  cases hcontest : contest a.language.operators (c :: rest) a.trials [] with
  | won p consumed =>
    rw [hcontest] at h
    simpa only [award, acceptedToken_text] using h
  | lost longest =>
    rw [hcontest] at h
    cases longest with
    | nil => simp [award]
    | cons d ds => exact ⟨by simp [award], h⟩

/-- The tokens of a text that begins `offset` bytes into the source, after `skip` characters of it
that belong to the token before. -/
def tokensFrom (a : Analyzer) : (skip offset : Nat) → Text → Logged (List Token)
  | _, _, [] => ⟨[], []⟩
  | skip + 1, offset, _ :: rest => a.tokensFrom skip offset rest
  | 0, offset, c :: rest =>
    let (token, event) := a.next offset c rest
    let others := a.tokensFrom (token.text.length - 1) (offset + byteSize token.text) rest
    ⟨token :: others.value, event :: others.events⟩

theorem tokensFrom_skip (a : Analyzer) (skip offset : Nat) (s : Text) :
    a.tokensFrom skip offset s = a.tokensFrom 0 offset (s.drop skip) := by
  induction s generalizing skip with
  | nil => cases skip <;> simp [tokensFrom]
  | cons c rest ih =>
    cases skip with
    | zero => rfl
    | succ n =>
      simp only [tokensFrom, List.drop_succ_cons]
      exact ih n

def analyzeLogged (a : Analyzer) (s : Text) : Logged (List Token) := a.tokensFrom 0 0 s

def analyze (a : Analyzer) (s : Text) : List Token := (a.analyzeLogged s).value

/-- A line with its end mark: open-ended tokens need a boundary to end at. -/
def terminated (line : Text) : Text :=
  if line.getLast? = some '\n' then line else line ++ ['\n']

def analyzeLineLogged (a : Analyzer) (line : Text) : Logged (List Token) :=
  a.analyzeLogged (terminated line)

def analyzeLine (a : Analyzer) (line : Text) : List Token := (a.analyzeLineLogged line).value

def checkedNext (a : Analyzer) (offset : Nat) (c : Char) (rest : Text) :
    Except MissingEdge (Token × Event) := do
  return a.award offset c (← checkedContest a.language.operators (c :: rest) a.trials [])

def checkedTokensFrom (a : Analyzer) :
    (skip offset : Nat) → Text → Except MissingEdge (Logged (List Token))
  | _, _, [] => .ok ⟨[], []⟩
  | skip + 1, offset, _ :: rest => a.checkedTokensFrom skip offset rest
  | 0, offset, c :: rest => do
    let (token, event) ← a.checkedNext offset c rest
    let others ← a.checkedTokensFrom (token.text.length - 1) (offset + byteSize token.text) rest
    return ⟨token :: others.value, event :: others.events⟩

def checkedAnalyze (a : Analyzer) (s : Text) : Except MissingEdge (Logged (List Token)) :=
  a.checkedTokensFrom 0 0 s

def checkedAnalyzeLine (a : Analyzer) (line : Text) : Except MissingEdge (Logged (List Token)) :=
  a.checkedAnalyze (terminated line)

end Analyzer

/-- Analyzes a text at once. The missing edge that ends an analysis is told as a cause. -/
def Language.analyze (l : Language) (s : Text) : Except LanguageError (Logged (List Token)) := do
  let a ← Analyzer.ofLanguage l
  (a.checkedAnalyze s).mapError fun edge => .missingEdge edge.edgeCount edge.id

end TokenGraph
