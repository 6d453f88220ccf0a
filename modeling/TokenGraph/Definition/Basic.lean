import TokenGraph.Automaton.Build
import TokenGraph.Binary32
import TokenGraph.Text.Dictionary
/-!
# Language definitions

A language described as data: its tables, its priority list, and an automaton and a style for every
token category, named by text. Only `compile` finds out whether the description makes sense.
-/
namespace TokenGraph

structure StyleDefinition where
  foreground : Option Text := none
  background : Option Text := none
  underline : Option Text := none
  bold : Bool := false
  italic : Bool := false
  sizeRatio : Option Binary32 := none
  deriving DecidableEq

/-- A table by its name, or the literals themselves. -/
inductive LiteralSource where
  | table (name : Text)
  | list (symbols : List Text)
  deriving DecidableEq

/-- The roles that a state may be given; the start state is always there. -/
inductive GivenRole where
  | intermediate
  | accepting
  | error
  deriving DecidableEq

structure StateDefinition where
  label : Text
  role : GivenRole := .intermediate
  deriving DecidableEq

structure EdgeDefinition where
  src : Text
  dst : Text
  label : Option Text := none
  kind : EdgeKind := .charClass
  deriving DecidableEq

structure TokenDefinition where
  style : StyleDefinition := {}
  literals : Option LiteralSource := none
  states : List StateDefinition := []
  edges : List EdgeDefinition := []
  deriving DecidableEq

structure LanguageDefinition where
  name : Text
  keywords : List Text := []
  operators : List Text := []
  priority : Option (List Text) := none
  keywordsFromIdentifiers : Bool := false
  tokens : Dictionary TokenDefinition := .empty

def GivenRole.role : GivenRole → Role
  | intermediate => .intermediate
  | accepting => .accepting
  | error => .error

inductive DefinitionError where
  | malformed
  | unreadable
  | language (cause : LanguageError)
  | unknownTable (name : Text)
  | missingEdgeLabel (token src dst : Text)
  | conflictingAutomaton (token : Text)
  deriving DecidableEq

def DefinitionError.message : DefinitionError → String
  | malformed => "YAML parse error: "
  | unreadable => "I/O error: "
  | language cause => cause.message
  | unknownTable name =>
    "unknown literal table '" ++ String.ofList name ++ "' (expected 'keywords', 'operators' or a list)"
  | missingEdgeLabel token src dst =>
    "edge " ++ String.ofList src ++ " -> " ++ String.ofList dst ++ " of '" ++ String.ofList token ++
      "' is a character-class edge without text"
  | conflictingAutomaton token =>
    "token '" ++ String.ofList token ++ "' defines both literals and states/edges"

end TokenGraph
