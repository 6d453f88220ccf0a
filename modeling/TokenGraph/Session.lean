import TokenGraph.Catalog
import TokenGraph.Highlight
/-!
# Sessions

A session is one editor with at most one active language. Only a language that can be analyzed
becomes active, and it stays active whatever happens to its catalog afterwards.
-/
namespace TokenGraph

structure Session where
  active? : Option Language := none

inductive SessionError where
  | noActiveLanguage
  | language (cause : LanguageError)
  deriving DecidableEq

def SessionError.message : SessionError → String
  | noActiveLanguage => "no active language selected"
  | language cause => cause.message

namespace Session

def activate (_s : Session) (c : Catalog) (name : Text) : Except LanguageError (Logged Session) := do
  let l ← c.require name
  let _ ← Analyzer.ofLanguage l
  return ⟨⟨some l⟩, [.activated name]⟩

def clear (_s : Session) : Session := ⟨none⟩

def highlight (s : Session) (document : Text) :
    Except SessionError (Logged (List HighlightedLine)) :=
  match s.active? with
  | none => .error .noActiveLanguage
  | some l => (l.highlight document).mapError .language

end Session

end TokenGraph
