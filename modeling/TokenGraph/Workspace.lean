import TokenGraph.Session
import TokenGraph.Xogue
/-!
# Workspaces

A workspace holds catalogs and sessions by name. One that was never named before is empty. Every
request is answered; one that fails leaves the workspace as it was.
-/
namespace TokenGraph

structure Workspace where
  catalog : Text → Catalog := fun _ => .empty
  session : Text → Session := fun _ => {}

inductive Request where
  | builtin (catalog : Text)
  | cloneCatalog (catalog target : Text)
  | cloneSession (session target : Text)
  | register (catalog : Text) (language : Language)
  | get (catalog name : Text)
  | remove (catalog name : Text)
  | require (catalog name : Text)
  | names (catalog : Text)
  | size (catalog : Text)
  | activate (session catalog name : Text)
  | active (session : Text)
  | clear (session : Text)
  | highlight (session document : Text)

inductive Reply where
  | refused (cause : SessionError)
  | done
  | count (n : Nat)
  | language (found : Option Language)
  | name (found : Option Text)
  | names (all : List Text)
  | size (n : Nat) (isEmpty : Bool)
  | highlighted (lines : List HighlightedLine)

namespace Workspace

def setCatalog (w : Workspace) (name : Text) (c : Catalog) : Workspace :=
  { w with catalog := fun n => if n = name then c else w.catalog n }

def setSession (w : Workspace) (name : Text) (s : Session) : Workspace :=
  { w with session := fun n => if n = name then s else w.session n }

/-- A refusal, which changes nothing and reports no event. -/
def refuse (w : Workspace) (cause : LanguageError) : Logged (Workspace × Reply) :=
  ⟨(w, .refused (.language cause)), []⟩

def serve (w : Workspace) : Request → Logged (Workspace × Reply)
  | .builtin catalog =>
    match Xogue.builtinCatalog with
    | .error cause => w.refuse cause
    | .ok made => made.map fun c => (w.setCatalog catalog c, .count c.size)
  | .cloneCatalog catalog target =>
    let c := w.catalog catalog
    ⟨(w.setCatalog target c, .count c.size), []⟩
  | .cloneSession session target =>
    let s := w.session session
    ⟨(w.setSession target s, .name (s.active?.map Language.name)), []⟩
  | .register catalog language =>
    match (w.catalog catalog).register language with
    | .error cause => w.refuse cause
    | .ok changed => changed.map fun c => (w.setCatalog catalog c, .language (some language))
  | .get catalog name => ⟨(w, .language ((w.catalog catalog).get? name)), []⟩
  | .remove catalog name =>
    let c := w.catalog catalog
    ⟨(w.setCatalog catalog (c.erase name), .language (c.get? name)), []⟩
  | .require catalog name =>
    match (w.catalog catalog).require name with
    | .error cause => w.refuse cause
    | .ok l => ⟨(w, .language (some l)), []⟩
  | .names catalog => ⟨(w, .names (w.catalog catalog).keys), []⟩
  | .size catalog =>
    let c := w.catalog catalog
    ⟨(w, .size c.size c.entries.isEmpty), []⟩
  | .activate session catalog name =>
    match (w.session session).activate (w.catalog catalog) name with
    | .error cause => w.refuse cause
    | .ok changed => changed.map fun s => (w.setSession session s, .language s.active?)
  | .active session => ⟨(w, .language (w.session session).active?), []⟩
  | .clear session => ⟨(w.setSession session (w.session session).clear, .done), []⟩
  | .highlight session document =>
    match (w.session session).highlight document with
    | .error cause => ⟨(w, .refused cause), []⟩
    | .ok shown => shown.map fun lines => (w, .highlighted lines)

def serveAll (w : Workspace) : List Request → Logged (Workspace × List Reply)
  | [] => ⟨(w, []), []⟩
  | request :: rest =>
    (w.serve request).andThen fun (w, reply) =>
      (w.serveAll rest).map fun (w, replies) => (w, reply :: replies)

end Workspace

end TokenGraph
