import TokenGraph.Yaml.Token
/-!
# YAML documents

The tokens of a text form a tree of nodes. Anchored nodes are kept beside the tree, and an alias
holds the number of its anchor, so that a node may even contain an alias of itself. The number of
an anchor is how many other names were in use when it was set; of two anchors with one number the
later is meant everywhere.
-/
namespace TokenGraph.Yaml

inductive Node where
  | scalar (tag : Option Text) (style : ScalarStyle) (value : Text)
  | sequence (tag : Option Text) (items : List Node)
  | mapping (tag : Option Text) (entries : List (Node × Node))
  | alias (number : Nat)

/-- The empty plain scalar, which stands where nothing is written. -/
def Node.blank : Node := .scalar none .plain []

/-- The anchors set so far: names with their numbers, numbers with the order of their last setting,
and the finished nodes in that order. -/
structure Anchors where
  numbers : List (Text × Nat) := []
  settings : List (Nat × Nat) := []
  nodes : List (Nat × Node) := []

namespace Anchors

def set (a : Anchors) (name : Text) : Nat × Anchors :=
  let number := a.numbers.length
  let order := a.settings.length
  (order, { a with
    numbers := (name, number) :: a.numbers.filter (·.1 ≠ name)
    settings := (number, order) :: a.settings })

def find? (a : Anchors) (number : Nat) : Option Node := do
  a.nodes.lookup (← a.settings.lookup number)

end Anchors

abbrev TagHandles := List (Text × Text)

def TagHandles.standard : TagHandles := [(['!'], ['!']), (['!', '!'], "tag:yaml.org,2002:".toList)]

structure Parsing where
  tokens : List Token
  handles : TagHandles
  anchors : Anchors := {}

namespace Parsing

def after (p : Parsing) (tokens : List Token) : Parsing := { p with tokens }

def fullTag? (p : Parsing) (handle rest : Text) : Option Text :=
  if handle.isEmpty then some rest else (p.handles.lookup handle).map (· ++ rest)

/-- Reads the anchor and the tag before a node, in either order. -/
def properties? (p : Parsing) : Option (Option Text × Option Text × Parsing) :=
  match p.tokens with
  | .anchor name :: .tag handle rest :: tokens => do
    return (name, ← p.fullTag? handle rest, p.after tokens)
  | .tag handle rest :: .anchor name :: tokens => do
    return (name, ← p.fullTag? handle rest, p.after tokens)
  | .anchor name :: tokens => some (name, none, p.after tokens)
  | .tag handle rest :: tokens => do
    return (none, ← p.fullTag? handle rest, p.after tokens)
  | _ => some (none, none, p)

end Parsing

/-- Whether the next token leaves the place of a node in a block empty. -/
def noBlockNode : List Token → Bool
  | .key :: _ | .value :: _ | .blockEnd :: _ | [] => true
  | _ => false

mutual

/-- Reads a node. Block collections may only stand in block context; a sequence under a key need not
be indented. -/
def parseNode? : (rounds : Nat) → (block indentless : Bool) → Parsing → Option (Node × Parsing)
  | 0, _, _, _ => none
  | rounds + 1, block, indentless, p =>
    match p.tokens with
    | .alias name :: tokens => do
      return (.alias (← p.anchors.numbers.lookup name), p.after tokens)
    | _ => do
      let (anchor, tag, p) ← p.properties?
      let (order, p) := match anchor with
        | none => (none, p)
        | some name =>
          let (order, anchors) := p.anchors.set name
          (some order, { p with anchors })
      let (node, p) ← match p.tokens with
        | .blockEntry :: _ =>
          if indentless then do
            let (items, p) ← parseIndentless? rounds p
            some (Node.sequence tag items, p)
          else if anchor.isSome || tag.isSome then some (Node.scalar tag .plain [], p)
          else none
        | .scalar style value :: tokens =>
          some (Node.scalar (tag.filter (· ≠ ['!'])) style value, p.after tokens)
        | .flowSequenceStart :: tokens => do
          let (items, p) ← parseFlowItems? rounds true (p.after tokens)
          some (Node.sequence tag items, p)
        | .flowMappingStart :: tokens => do
          let (entries, p) ← parseFlowEntries? rounds true (p.after tokens)
          some (Node.mapping tag entries, p)
        | .blockSequenceStart :: tokens =>
          if block then do
            let (items, p) ← parseBlockItems? rounds (p.after tokens)
            some (Node.sequence tag items, p)
          else if anchor.isSome || tag.isSome then some (Node.scalar tag .plain [], p)
          else none
        | .blockMappingStart :: tokens =>
          if block then do
            let (entries, p) ← parseBlockEntries? rounds (p.after tokens)
            some (Node.mapping tag entries, p)
          else if anchor.isSome || tag.isSome then some (Node.scalar tag .plain [], p)
          else none
        | _ => if anchor.isSome || tag.isSome then some (Node.scalar tag .plain [], p) else none
      match order with
      | none => some (node, p)
      | some n =>
        some (node, { p with anchors := { p.anchors with nodes := (n, node) :: p.anchors.nodes } })

def parseBlockItems? : (rounds : Nat) → Parsing → Option (List Node × Parsing)
  | 0, _ => none
  | rounds + 1, p =>
    match p.tokens with
    | .blockEnd :: tokens => some ([], p.after tokens)
    | .blockEntry :: tokens => do
      let (item, p) ← match tokens with
        | .blockEntry :: _ | .blockEnd :: _ => some (Node.blank, p.after tokens)
        | _ => parseNode? rounds true false (p.after tokens)
      let (items, p) ← parseBlockItems? rounds p
      some (item :: items, p)
    | _ => none

/-- Reads the items of a sequence that is not indented. -/
def parseIndentless? : (rounds : Nat) → Parsing → Option (List Node × Parsing)
  | 0, _ => none
  | rounds + 1, p =>
    match p.tokens with
    | .blockEntry :: tokens => do
      let (item, p) ← match tokens with
        | .blockEntry :: _ => some (Node.blank, p.after tokens)
        | _ =>
          if noBlockNode tokens then some (Node.blank, p.after tokens)
          else parseNode? rounds true false (p.after tokens)
      let (items, p) ← parseIndentless? rounds p
      some (item :: items, p)
    | _ => some ([], p)

def parseBlockEntries? : (rounds : Nat) → Parsing → Option (List (Node × Node) × Parsing)
  | 0, _ => none
  | rounds + 1, p =>
    match p.tokens with
    | .blockEnd :: tokens => some ([], p.after tokens)
    | .key :: tokens => do
      let (key, p) ← if noBlockNode tokens then some (Node.blank, p.after tokens)
        else parseNode? rounds true true (p.after tokens)
      let (value, p) ← match p.tokens with
        | .value :: tokens =>
          if noBlockNode tokens then some (Node.blank, p.after tokens)
          else parseNode? rounds true true (p.after tokens)
        | _ => some (Node.blank, p)
      let (entries, p) ← parseBlockEntries? rounds p
      some ((key, value) :: entries, p)
    | _ => none

/-- Reads the items of a flow sequence up to its end. A key among them makes a mapping of one entry;
a key without content takes the token behind it along. -/
def parseFlowItems? : (rounds : Nat) → (first : Bool) → Parsing → Option (List Node × Parsing)
  | 0, _, _ => none
  | rounds + 1, first, p =>
    match first, p.tokens with
    | _, .flowSequenceEnd :: tokens => some ([], p.after tokens)
    | false, .flowEntry :: .flowSequenceEnd :: tokens => some ([], p.after tokens)
    | first, tokens => do
      let tokens ← match first, tokens with
        | true, tokens => some tokens
        | false, .flowEntry :: tokens => some tokens
        | false, _ => none
      let (item, p) ← match tokens with
        | .key :: tokens => do
          let (key, p) ← match tokens with
            | .value :: tokens | .flowEntry :: tokens | .flowSequenceEnd :: tokens =>
              some (Node.blank, p.after tokens)
            | _ => parseNode? rounds false false (p.after tokens)
          let (value, p) ← match p.tokens with
            | .value :: tokens =>
              match tokens with
              | .flowEntry :: _ | .flowSequenceEnd :: _ => some (Node.blank, p.after tokens)
              | _ => parseNode? rounds false false (p.after tokens)
            | _ => some (Node.blank, p)
          some (Node.mapping none [(key, value)], p)
        | _ => parseNode? rounds false false (p.after tokens)
      let (items, p) ← parseFlowItems? rounds false p
      some (item :: items, p)

def parseFlowEntries? : (rounds : Nat) → (first : Bool) → Parsing →
    Option (List (Node × Node) × Parsing)
  | 0, _, _ => none
  | rounds + 1, first, p =>
    match first, p.tokens with
    | _, .flowMappingEnd :: tokens => some ([], p.after tokens)
    | false, .flowEntry :: .flowMappingEnd :: tokens => some ([], p.after tokens)
    | first, tokens => do
      let tokens ← match first, tokens with
        | true, tokens => some tokens
        | false, .flowEntry :: tokens => some tokens
        | false, _ => none
      let (entry, p) ← match tokens with
        | .key :: tokens => do
          let (key, p) ← match tokens with
            | .value :: _ | .flowEntry :: _ | .flowMappingEnd :: _ =>
              some (Node.blank, p.after tokens)
            | _ => parseNode? rounds false false (p.after tokens)
          let (value, p) ← match p.tokens with
            | .value :: tokens =>
              match tokens with
              | .flowEntry :: _ | .flowMappingEnd :: _ => some (Node.blank, p.after tokens)
              | _ => parseNode? rounds false false (p.after tokens)
            | _ => some (Node.blank, p)
          some ((key, value), p)
        | _ => do
          let (key, p) ← parseNode? rounds false false (p.after tokens)
          some ((key, Node.blank), p)
      let (entries, p) ← parseFlowEntries? rounds false p
      some (entry :: entries, p)

end

structure Document where
  root : Node
  anchors : Anchors

namespace Document

def resolve (d : Document) : Node → Node
  | .alias number => (d.anchors.find? number).getD .blank
  | node => node

/-- Reads the directives before a document: at most one version, which has to be 1.1 or 1.2, and
handles that are not declared twice. -/
def directives? (version : Bool) (handles : TagHandles) :
    List Token → Option (TagHandles × Bool × List Token)
  | .version major minor :: rest =>
    if version || major ≠ 1 || (minor ≠ 1 && minor ≠ 2) then none
    else directives? true handles rest
  | .tagHandle handle lead :: rest =>
    if handles.any (·.1 = handle) then none
    else directives? version ((handle, lead) :: handles) rest
  | rest => some (handles, version || !handles.isEmpty, rest)

/-- The only document of a text. A text without one, or with another behind it, has none. -/
def ofText? (s : Text) : Option Document := do
  let tokens ← Token.ofText? s
  let (handles, declared, tokens) ← directives? false [] tokens
  let handles := handles ++ TagHandles.standard
  let rounds := 3 * tokens.length + 3
  let (root, p) ← match tokens with
    | .documentStart :: rest =>
      match rest with
      | .documentStart :: _ | .documentEnd :: _ | .version .. :: _ | .tagHandle .. :: _ | [] =>
        some (Node.blank, ({ tokens := rest, handles } : Parsing))
      | _ => parseNode? rounds true false { tokens := rest, handles }
    | [] => none
    | _ => if declared then none else parseNode? rounds true false { tokens, handles }
  let rest := p.tokens.dropWhile fun t => match t with
    | .documentEnd => true
    | _ => false
  if rest.isEmpty then some ⟨root, p.anchors⟩ else none

end Document

end TokenGraph.Yaml
