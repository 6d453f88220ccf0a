import TokenGraph.Definition.Basic
import TokenGraph.Language.Setup
/-!
# Compiling definitions

A definition becomes a language. The first thing wrong with it is reported: in the priority names,
then token by token in the order of their names, then in the priority list as a whole.
-/
namespace TokenGraph

/-- The label of an edge that is given none. Only classes need one. -/
def defaultLabel? : EdgeKind → Option Text
  | .charClass => none
  | .acceptOnBoundary => some (text "ACCEPTABLE_SYMBOLS")
  | .fallbackConsume | .fallbackNoConsume => some (text "OTHERS")

def categoryNamed (name : Text) : Except DefinitionError Category :=
  (Category.ofText name).mapError .language

namespace StyleDefinition

def color (written : Text) : Except DefinitionError Color :=
  (Color.ofText written).mapError .language

/-- The change of style that an optional color asks for. -/
def colorChange (written : Option Text) (change : Color → StyleChange) :
    Except DefinitionError (List StyleChange) :=
  match written with
  | none => .ok []
  | some s => (color s).map fun c => [change c]

def compile (d : StyleDefinition) : Except DefinitionError FontStyle := do
  let foreground ← colorChange d.foreground .foreground
  let background ← colorChange d.background .background
  let underline ← colorChange d.underline .underline
  let changes := foreground ++ background ++ underline ++ (if d.bold then [.bold] else []) ++
    (if d.italic then [.italic] else []) ++ (d.sizeRatio.map StyleChange.size).toList
  return changes.foldl FontStyle.change .plain

end StyleDefinition

namespace TokenDefinition

def edgeStep (token : Text) (e : EdgeDefinition) : Except DefinitionError BuildStep :=
  match e.label.or (defaultLabel? e.kind) with
  | some label => .ok (.edge e.src label e.dst e.kind)
  | none => .error (.missingEdgeLabel token e.src e.dst)

def machine [PatternEngine] (d : TokenDefinition) (token : Text) :
    Except DefinitionError Automaton := do
  let edges ← d.edges.mapM (edgeStep token)
  let states := d.states.map fun s => BuildStep.state (.fresh s.label s.role.role)
  (Automaton.build (states ++ edges)).mapError .language

/-- Where the automaton of a token comes from: literals, or states and edges, but not both. -/
def recognizer [PatternEngine] (d : TokenDefinition) (token : Text) :
    Except DefinitionError Recognizer :=
  match d.literals with
  | none => (d.machine token).map .machine
  | some source =>
    if !d.states.isEmpty || !d.edges.isEmpty then .error (.conflictingAutomaton token)
    else
      match source with
      | .list symbols => .ok (.machine (.ofLiterals symbols))
      | .table name =>
        if name = text "keywords" then .ok (.literals .keywords)
        else if name = text "operators" then .ok (.literals .operators)
        else .error (.unknownTable name)

def registration [PatternEngine] (token : Text) (d : TokenDefinition) :
    Except DefinitionError Registration := do
  let category ← categoryNamed token
  let style ← d.style.compile
  let recognizer ← d.recognizer token
  return { category, recognizer, style }

end TokenDefinition

def LanguageDefinition.compile [PatternEngine] (d : LanguageDefinition) :
    Except DefinitionError Language := do
  let priority ← match d.priority with
    | none => pure none
    | some names => (names.mapM categoryNamed).map some
  let registrations ← d.tokens.entries.mapM fun e => e.2.registration e.1
  let setup : Setup := {
    name := d.name
    registrations
    keywords := d.keywords
    operators := d.operators
    priority
    keywordsFromIdentifiers := d.keywordsFromIdentifiers }
  setup.finish.mapError .language

end TokenGraph
