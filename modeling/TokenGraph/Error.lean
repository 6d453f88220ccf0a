import TokenGraph.Category
import TokenGraph.Color
/-!
# Errors

The causes for which a language, or something made of languages, is refused, and their wording. An
edge that is looked up and not there is no cause to be answered: it ends the program.
-/
namespace TokenGraph

/-- What is wrong with an explicit priority list, at its first bad entry. -/
inductive PriorityFault where
  | unknownListed
  | repeated (category : Category)
  deriving DecidableEq

inductive LanguageError where
  | noPrototype (category : Category)
  | duplicatePrototype (category : Category)
  | invalidPriority (fault : PriorityFault)
  | badPattern (pattern : Text)
  | badColor (written : Text)
  | unknownCategory (written : Text)
  | duplicateLanguage (name : Text)
  | unknownLanguage (name : Text)
  | missingEdge (edgeCount id : Nat)
  deriving DecidableEq

def PriorityFault.message : PriorityFault → String
  | .unknownListed => "'unknown' is synthetic and cannot be tried"
  | .repeated c => "'" ++ c.name ++ "' listed more than once"

def LanguageError.message : LanguageError → String
  | .noPrototype c => "no token prototype registered for category '" ++ c.name ++ "'"
  | .duplicatePrototype c => "token prototype for category '" ++ c.name ++ "' registered more than once"
  | .invalidPriority fault => "invalid priority order: " ++ fault.message
  | .badPattern p => "invalid character-class pattern '" ++ String.ofList p ++ "' on edge: "
  | .badColor s => "invalid color '" ++ String.ofList s ++ "' (expected #RRGGBB or #RRGGBBAA)"
  | .unknownCategory s => "unknown token category '" ++ String.ofList s ++ "'"
  | .duplicateLanguage s => "language '" ++ String.ofList s ++ "' is already registered"
  | .unknownLanguage s => "unknown language '" ++ String.ofList s ++ "'"
  | .missingEdge edgeCount id =>
    "index out of bounds: the len is " ++ toString edgeCount ++ " but the index is " ++ toString id

def Category.ofText (s : Text) : Except LanguageError Category :=
  match Category.ofText? s with
  | some c => .ok c
  | none => .error (.unknownCategory s)

/-- Reads a color; a text that is none is reported as it stands, with the white space around it. -/
def Color.ofText (s : Text) : Except LanguageError Color :=
  match Color.ofText? s with
  | some c => .ok c
  | none => .error (.badColor s)

end TokenGraph
