import TokenGraph.Definition.Compile
import TokenGraph.Definition.Decode
import TokenGraph.Event
/-!
# Loading languages

A language is loaded from the text of its definition, or from the bytes of a file.
-/
namespace TokenGraph

namespace Language

variable [PatternEngine]

/-- Reads and compiles a definition; only a success is reported. -/
def load (s : Text) : Logged (Except DefinitionError Language) :=
  match LanguageDefinition.ofYaml s >>= LanguageDefinition.compile with
  | .ok l => ⟨.ok l, [.compiled l.name]⟩
  | .error cause => ⟨.error cause, []⟩

/-- Loads a file, given its bytes if it can be read; they have to be UTF-8. -/
def loadFile (bytes : Option ByteArray) : Logged (Except DefinitionError Language) :=
  match bytes.bind String.fromUTF8? with
  | some s => load s.toList
  | none => ⟨.error .unreadable, []⟩

end Language

end TokenGraph
