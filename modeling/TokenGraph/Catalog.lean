import TokenGraph.Event
import TokenGraph.Language.Basic
import TokenGraph.Text.Dictionary
/-!
# Catalogs

A catalog holds languages by their names. A name that is taken stays with its language until that
is removed.
-/
namespace TokenGraph

abbrev Catalog := Dictionary Language

namespace Catalog

def empty : Catalog := Dictionary.empty

/-- Adds a language under its own name; a catalog that has the name already is not changed. -/
def register (c : Catalog) (l : Language) : Except LanguageError (Logged Catalog) :=
  if c.contains l.name then .error (.duplicateLanguage l.name)
  else .ok ⟨c.insert l.name l, [.registered l.name]⟩

def require (c : Catalog) (name : Text) : Except LanguageError Language :=
  match c.get? name with
  | some l => .ok l
  | none => .error (.unknownLanguage name)

end Catalog

end TokenGraph
