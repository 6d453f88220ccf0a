import TokenGraph.Proofs.Trials
import TokenGraph.Proofs.Trie
import TokenGraph.Proofs.Xogue.Lexemes

/-!
# The analyzer of Xogue

The built-in language can be set up and analyzed, and which automata it tries in which order. A
lexeme wins the contest in front of a blank.
-/

namespace TokenGraph.Xogue

def commentTrial : Prototype := ⟨.comment, graph commentSteps, .inColor .darkGray⟩

def identifierTrial : Prototype := ⟨.identifier, graph identifierSteps, .plain⟩

def stringTrial : Prototype := ⟨.string, graph stringSteps, .inColor .lightGreen⟩

def charTrial : Prototype := ⟨.char, graph charSteps, .inColor .greenYellow⟩

def operatorTrial : Prototype := ⟨.operator, .ofLiterals operators, .inColor .peachPuff⟩

def floatingTrial : Prototype := ⟨.floating, graph floatingSteps, .inColor .skyBlue⟩

def integerTrial : Prototype := ⟨.integer, graph integerSteps, .inColor .skyBlue⟩

def spaceTrial : Prototype := ⟨.space, graph spaceSteps, .plain⟩

def slots : Category → Option Prototype
  | .comment => some commentTrial
  | .keyword => some ⟨.keyword, .ofLiterals keywords, .inColor .orange⟩
  | .identifier => some identifierTrial
  | .string => some stringTrial
  | .char => some charTrial
  | .operator => some operatorTrial
  | .floating => some floatingTrial
  | .integer => some integerTrial
  | .space => some spaceTrial
  | .unknown => some ⟨.unknown, .initial, .unknownDefault⟩

def xogue : Language := ⟨name, slots, keywords, operators, Category.tried, true⟩

private theorem build_eq_ok {steps : List BuildStep} {rows : List Row}
    (h : (steps, rows) ∈ tables) : Automaton.build steps = .ok (graph steps) :=
  Draft.build_eq_ok (tables_built _ h).2.1 (tables_built _ h).1

/-- The steps of the language, with the automata that its building steps make. -/
def setupSteps : List SetupStep := [
  .operators operators,
  .keywords keywords,
  prototype .comment (graph commentSteps) (.inColor .darkGray),
  literals .keyword .keywords (.inColor .orange),
  prototype .identifier (graph identifierSteps) .plain,
  prototype .string (graph stringSteps) (.inColor .lightGreen),
  prototype .char (graph charSteps) (.inColor .greenYellow),
  literals .operator .operators (.inColor .peachPuff),
  prototype .floating (graph floatingSteps) (.inColor .skyBlue),
  prototype .integer (graph integerSteps) (.inColor .skyBlue),
  prototype .space (graph spaceSteps) .plain,
  prototype .unknown .initial .unknownDefault,
  .keywordsFromIdentifiers true]

theorem build_setupSteps : Language.build name setupSteps = .ok xogue := by
  rw [Language.build, Setup.finish_eq_ok, xogue, Except.ok.injEq, Language.mk.injEq]
  · refine ⟨rfl, ?_, rfl, rfl, rfl, rfl⟩
    funext c
    cases c <;> rfl
  · rfl
  · decide

theorem language_eq : language = .ok xogue := by
  rw [language, build_eq_ok comment_table, build_eq_ok identifier_table, build_eq_ok string_table,
    build_eq_ok char_table, build_eq_ok floating_table, build_eq_ok integer_table,
    build_eq_ok space_table]
  exact build_setupSteps

def analyzer : Analyzer where
  language := xogue
  trials := [commentTrial, identifierTrial, stringTrial, charTrial, operatorTrial, floatingTrial,
    integerTrial, spaceTrial]
  keywordStyle := some (.inColor .orange)

theorem analyzer_eq : Analyzer.ofLanguage xogue = .ok analyzer := rfl

end TokenGraph.Xogue
