import TokenGraph.Definition.Basic
import TokenGraph.Yaml.Resolve
/-!
# Definitions in YAML

Reads a document as a language definition. Fields that are missing have their defaults and unknown
fields are ignored; a field that comes twice, or has a value of the wrong kind, makes the document
no definition.
-/
namespace TokenGraph

open Yaml

/-- The fields of a record that are known by name, each at most once. -/
abbrev Fields := List (Text × Node)

namespace Fields

/-- Reads the entries of a mapping. Keys are scalars, and of the known ones none comes twice. -/
def ofEntries? (d : Document) (known : List String) : List (Node × Node) → Option Fields
  | [] => some []
  | (key, value) :: rest => do
    let name ← (d.resolve key).string?
    let fields ← ofEntries? d known rest
    if known.any fun k => k.toList = name then
      if (fields.lookup name).isSome then none else some ((name, d.resolve value) :: fields)
    else some fields

def ofNode? (d : Document) (known : List String) (node : Node) : Option Fields := do
  ofEntries? d known (← node.entries?)

def required? {α : Type} (f : Fields) (name : String) (decode : Node → Option α) : Option α := do
  decode (← f.lookup name.toList)

/-- A field that takes its default when it is missing. -/
def optional? {α : Type} (f : Fields) (name : String) (default : α) (decode : Node → Option α) :
    Option α :=
  match f.lookup name.toList with
  | none => some default
  | some node => decode node

end Fields

/-- An optional value, which null leaves out. -/
def decodeOption? {α : Type} (decode : Node → Option α) (node : Node) : Option (Option α) := do
  if ← node.isAbsent? then return none else return some (← decode node)

def decodeList? {α : Type} (d : Document) (decode : Node → Option α) (node : Node) :
    Option (List α) := do
  (← node.items?).mapM fun item => decode (d.resolve item)

def decodeStyle? (d : Document) (node : Node) : Option StyleDefinition := do
  let f ← Fields.ofNode? d
    ["foreground", "background", "underline", "bold", "italic", "size_ratio"] node
  return {
    foreground := ← f.optional? "foreground" none (decodeOption? Node.string?)
    background := ← f.optional? "background" none (decodeOption? Node.string?)
    underline := ← f.optional? "underline" none (decodeOption? Node.string?)
    bold := ← f.optional? "bold" false Node.boolean?
    italic := ← f.optional? "italic" false Node.boolean?
    sizeRatio := ← f.optional? "size_ratio" none (decodeOption? Node.floating?) }

/-- Literals are a string or a list of strings, whatever else the scalars could stand for. -/
def decodeLiterals? (d : Document) (node : Node) : Option LiteralSource :=
  match node with
  | .sequence tag items =>
    if (localTag? tag).isSome then none
    else (items.mapM fun item => (d.resolve item).untypedString?).map .list
  | node => node.untypedString?.map .table

def decodeRole? (node : Node) : Option GivenRole := do
  match String.ofList (← node.choice?) with
  | "intermediate" => some .intermediate
  | "accepting" => some .accepting
  | "error" => some .error
  | _ => none

def decodeKind? (node : Node) : Option EdgeKind := do
  match String.ofList (← node.choice?) with
  | "char_class" => some .charClass
  | "accept_on_boundary" => some .acceptOnBoundary
  | "fallback_consume" => some .fallbackConsume
  | "fallback_no_consume" => some .fallbackNoConsume
  | _ => none

def decodeState? (d : Document) (node : Node) : Option StateDefinition := do
  let f ← Fields.ofNode? d ["label", "role"] node
  return {
    label := ← f.required? "label" Node.string?
    role := ← f.optional? "role" .intermediate decodeRole? }

def decodeEdge? (d : Document) (node : Node) : Option EdgeDefinition := do
  let f ← Fields.ofNode? d ["from", "to", "text", "kind"] node
  return {
    src := ← f.required? "from" Node.string?
    dst := ← f.required? "to" Node.string?
    label := ← f.optional? "text" none (decodeOption? Node.string?)
    kind := ← f.optional? "kind" .charClass decodeKind? }

def decodeToken? (d : Document) (node : Node) : Option TokenDefinition := do
  let f ← Fields.ofNode? d ["style", "literals", "states", "edges"] node
  return {
    style := ← f.optional? "style" {} (decodeStyle? d)
    literals := ← f.optional? "literals" none (decodeOption? (decodeLiterals? d))
    states := ← f.optional? "states" [] (decodeList? d (decodeState? d))
    edges := ← f.optional? "edges" [] (decodeList? d (decodeEdge? d)) }

/-- The tokens by name; of two entries of one name the later counts. -/
def decodeTokens? (d : Document) (node : Node) : Option (Dictionary TokenDefinition) := do
  let entries ← (← node.entries?).mapM fun (key, value) => do
    return (← (d.resolve key).string?, ← decodeToken? d (d.resolve value))
  return .ofList entries

namespace LanguageDefinition

def ofDocument? (d : Document) : Option LanguageDefinition := do
  let f ← Fields.ofNode? d
    ["name", "keywords", "operators", "priority", "keywords_from_identifiers", "tokens"]
    (d.resolve d.root)
  let strings := decodeList? d Node.string?
  return {
    name := ← f.required? "name" Node.string?
    keywords := ← f.optional? "keywords" [] strings
    operators := ← f.optional? "operators" [] strings
    priority := ← f.optional? "priority" none (decodeOption? strings)
    keywordsFromIdentifiers := ← f.optional? "keywords_from_identifiers" false Node.boolean?
    tokens := ← f.optional? "tokens" .empty (decodeTokens? d) }

def ofYaml (s : Text) : Except DefinitionError LanguageDefinition :=
  match (Document.ofText? s).bind ofDocument? with
  | some d => .ok d
  | none => .error .malformed

end LanguageDefinition

end TokenGraph
