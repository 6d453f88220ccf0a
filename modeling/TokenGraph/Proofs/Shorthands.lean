import Mathlib.Logic.Relation
import TokenGraph.Proofs.Faults

/-!
# Shorthands of definitions

A definition may name a table, leave out the label of an edge or the priority list, or give a token
no automaton at all. Each of these stands for something that can be written out, and whoever writes
it out, here or there, gets the same language or the same error. A table by its name is the longest
way: its trie is made when the language is, while that of a list is made with the token.
-/

namespace TokenGraph

/-! ### What shorthands stand for -/

inductive EdgeDefinition.SpellsOut : EdgeDefinition → EdgeDefinition → Prop
  | boundary (src dst : Text) : SpellsOut ⟨src, dst, none, .acceptOnBoundary⟩
      ⟨src, dst, some (text "ACCEPTABLE_SYMBOLS"), .acceptOnBoundary⟩
  | consuming (src dst : Text) : SpellsOut ⟨src, dst, none, .fallbackConsume⟩
      ⟨src, dst, some (text "OTHERS"), .fallbackConsume⟩
  | notConsuming (src dst : Text) : SpellsOut ⟨src, dst, none, .fallbackNoConsume⟩
      ⟨src, dst, some (text "OTHERS"), .fallbackNoConsume⟩

/-- One shorthand of a token less, where the tables hold these words and symbols. -/
inductive TokenDefinition.SpellsOut (words symbols : List Text) :
    TokenDefinition → TokenDefinition → Prop
  | keywords (t : TokenDefinition) (h : t.literals = some (.table (text "keywords"))) :
      SpellsOut words symbols t { t with literals := some (.list words) }
  | operators (t : TokenDefinition) (h : t.literals = some (.table (text "operators"))) :
      SpellsOut words symbols t { t with literals := some (.list symbols) }
  | nothing (style : StyleDefinition) :
      SpellsOut words symbols ⟨style, none, [], []⟩ ⟨style, some (.list []), [], []⟩
  | edge (style : StyleDefinition) (literals : Option LiteralSource) (states : List StateDefinition)
      (front back : List EdgeDefinition) {e e' : EdgeDefinition} (h : e.SpellsOut e') :
      SpellsOut words symbols ⟨style, literals, states, front ++ e :: back⟩
        ⟨style, literals, states, front ++ e' :: back⟩

/-- One shorthand less. -/
inductive LanguageDefinition.SpellsOut : LanguageDefinition → LanguageDefinition → Prop
  | priority (d : LanguageDefinition) (h : d.priority = none) :
      SpellsOut d { d with priority := some (["comment", "keyword", "identifier", "string", "char",
        "operator", "floating", "integer", "space"].map text) }
  | token (d : LanguageDefinition) (name : Text) {t t' : TokenDefinition}
      (hfound : d.tokens.get? name = some t) (h : t.SpellsOut d.keywords d.operators t') :
      SpellsOut d { d with tokens := d.tokens.insert name t' }

/-! ### Traversals -/

section Traversals

variable {ε α β γ : Type}

/-- A member may be replaced by one with the same result. -/
theorem mapM_replace {f : α → Except ε β} {a a' : α} (h : f a = f a') (front back : List α) :
    (front ++ a :: back).mapM f = (front ++ a' :: back).mapM f := by
  rw [List.mapM_append, List.mapM_append, List.mapM_cons, List.mapM_cons, h]

theorem map_mapM (f : α → Except ε β) (g : β → γ) (l : List α) :
    (l.mapM f).map (List.map g) = l.mapM fun a => (f a).map g := by
  induction l with
  | nil => rfl
  | cons a l ih =>
    rw [List.mapM_cons, List.mapM_cons, ← ih]
    cases f a with
    | error cause => rfl
    | ok b => cases l.mapM f <;> rfl

/-- What comes second may look at its input through some view only. -/
theorem bind_congr_of_map {x y : Except ε α} {f : α → Except ε β} {g : α → γ}
    (h : x.map g = y.map g) (hf : ∀ a b, g a = g b → f a = f b) : x >>= f = y >>= f := by
  cases x with
  | error cause =>
    cases y with
    | error other => exact congrArg (Except.error ·) (by simpa [Except.map] using h)
    | ok b => simp [Except.map] at h
  | ok a =>
    cases y with
    | error other => simp [Except.map] at h
    | ok b => exact hf a b (by simpa [Except.map] using h)

end Traversals

/-! ### Setups that come out alike -/

namespace Setup

variable {s s' : Setup}

theorem fill_congr {registrations others : List Registration}
    (h : registrations.map s.prototype = others.map s'.prototype)
    (slots : Category → Option Prototype) :
    s.fill slots registrations = s'.fill slots others := by
  induction registrations generalizing others slots with
  | nil =>
    obtain rfl := List.map_eq_nil_iff.mp h.symm
    rfl
  | cons r registrations ih =>
    obtain ⟨q, others, rfl, hq, hrest⟩ := List.map_eq_cons_iff.mp h.symm
    have hcategory : q.category = r.category := congrArg Prototype.category hq
    rw [fill, fill, hcategory, hq, ih hrest.symm]

/-- Registrations count only through the prototypes that they amount to. -/
theorem finish_congr (hname : s.name = s'.name) (hkeywords : s.keywords = s'.keywords)
    (hoperators : s.operators = s'.operators) (horder : s.order = s'.order)
    (hmode : s.keywordsFromIdentifiers = s'.keywordsFromIdentifiers)
    (hprototypes : s.registrations.map s.prototype = s'.registrations.map s'.prototype) :
    s.finish = s'.finish := by
  rw [finish, finish, hname, hkeywords, hoperators, horder, hmode, fill_congr hprototypes]

/-- The automaton of a prototype once the tables are known. -/
def machine (s : Setup) : Recognizer → Automaton
  | .machine machine => machine
  | .literals table => .ofLiterals (s.table table)

end Setup

/-! ### What is written out -/

theorem EdgeDefinition.SpellsOut.edgeStep_eq {e e' : EdgeDefinition} (h : e.SpellsOut e')
    (token : Text) : TokenDefinition.edgeStep token e = TokenDefinition.edgeStep token e' := by
  cases h <;> rfl

namespace TokenDefinition

variable {words symbols : List Text} {t t' : TokenDefinition} {s : Setup}

theorem SpellsOut.style_eq (h : t.SpellsOut words symbols t') : t.style = t'.style := by
  cases h <;> rfl

theorem SpellsOut.recognizer_eq (h : t.SpellsOut s.keywords s.operators t') (token : Text) :
    (t.recognizer token).map s.machine = (t'.recognizer token).map s.machine := by
  cases h with
  | keywords t h =>
    rw [recognizer, recognizer, h]
    dsimp only
    split <;> rfl
  | operators t h =>
    rw [recognizer, recognizer, h]
    dsimp only
    split <;> rfl
  | nothing style => rfl
  | edge style literals states front back h =>
    -- beside literals there may be no edges, spelled out or not
    cases literals with
    | none =>
      rw [recognizer, recognizer, machine, machine]
      dsimp only
      rw [mapM_replace (h.edgeStep_eq token)]
    | some source =>
      simp [recognizer]

theorem map_registration (s : Setup) (t : TokenDefinition) (token : Text) :
    (t.registration token).map s.prototype =
      categoryNamed token >>= fun category => t.style.compile >>= fun style =>
        ((t.recognizer token).map s.machine).map fun machine => ⟨category, machine, style⟩ := by
  rw [registration]
  cases categoryNamed token with
  | error cause => rfl
  | ok category =>
    cases t.style.compile with
    | error cause => rfl
    | ok style => cases t.recognizer token <;> rfl

theorem SpellsOut.registration_eq (h : t.SpellsOut s.keywords s.operators t') (token : Text) :
    (t.registration token).map s.prototype = (t'.registration token).map s.prototype := by
  rw [map_registration, map_registration, h.style_eq, h.recognizer_eq]

end TokenDefinition

namespace LanguageDefinition

variable {d d' : LanguageDefinition}

def registrations (d : LanguageDefinition) : Except DefinitionError (List Registration) :=
  d.tokens.entries.mapM fun e => e.2.registration e.1

/-- A token may register something else when it is spelled out, a trie for the table of its words;
but that amounts to the same prototype in the end. -/
theorem map_registrations_insert {s : Setup} {name : Text} {t t' : TokenDefinition}
    (hfound : d.tokens.get? name = some t) (h : t.SpellsOut s.keywords s.operators t') :
    d.registrations.map (List.map s.prototype) =
      { d with tokens := d.tokens.insert name t' }.registrations.map (List.map s.prototype) := by
  obtain ⟨front, back, hentries, hinsert⟩ := Dictionary.entries_insert hfound
  rw [registrations, registrations, hentries, hinsert, map_mapM, map_mapM]
  refine mapM_replace ?_ front back
  exact h.registration_eq name

def setup (d : LanguageDefinition) (priority : Option (List Category))
    (registrations : List Registration) : Setup :=
  ⟨d.name, registrations, d.keywords, d.operators, priority, d.keywordsFromIdentifiers⟩

theorem compileWith_eq (d : LanguageDefinition) (priority : Option (List Category)) :
    d.compileWith priority = d.registrations >>= fun registrations =>
      (d.setup priority registrations).finish.mapError .language :=
  rfl

/-- The list that stands for no list is sound. -/
theorem setup_tried_finish (d : LanguageDefinition) (registrations : List Registration) :
    (d.setup (some Category.tried) registrations).finish = (d.setup none registrations).finish := by
  have hsound : priorityFault? [] Category.tried = none :=
    priorityFault?_eq_none_iff.mpr soundOrder_tried
  refine Setup.finish_congr rfl rfl rfl ?_ rfl rfl
  simp [Setup.order, setup, hsound]

theorem SpellsOut.compile_eq (h : d.SpellsOut d') : d'.compile = d.compile := by
  rw [LanguageDefinition.compile_eq, LanguageDefinition.compile_eq]
  cases h with
  | priority hnone =>
    have horder : d.order? = .ok none := by rw [order?, hnone]
    rw [horder]
    change d.compileWith (some Category.tried) = d.compileWith none
    simp only [compileWith_eq, setup_tried_finish]
  | token name hfound h =>
    refine bind_congr fun priority => ?_
    have hregistrations := map_registrations_insert (s := d.setup priority []) hfound h
    refine (bind_congr_of_map hregistrations fun registrations others hsame => ?_).symm
    have hfinish : (d.setup priority registrations).finish = (d.setup priority others).finish :=
      Setup.finish_congr rfl rfl rfl rfl rfl hsame
    exact congrArg (Except.mapError DefinitionError.language) hfinish

/-- Shorthands may be written out one after another, wherever they stand and as many as one likes:
the language or the error that comes out stays the same. -/
theorem compile_spelledOut (h : Relation.ReflTransGen SpellsOut d d') :
    d'.compile = d.compile := by
  induction h with
  | refl => rfl
  | tail _ hstep ih => exact hstep.compile_eq.trans ih

/-- A definition that writes out as little as it can. -/
def terse : LanguageDefinition where
  name := text "C"
  keywords := [text "if", text "else"]
  tokens := .ofList [
    (text "keyword", { literals := some (.table (text "keywords")) }),
    (text "char", {}),
    (text "string", {
      states := [⟨text "END", .accepting⟩]
      edges := [⟨text "START", text "END", some (text "x"), .charClass⟩,
        ⟨text "END", text "END", none, .acceptOnBoundary⟩] })]

def verbose : LanguageDefinition where
  name := text "C"
  keywords := [text "if", text "else"]
  priority := some (Category.tried.map fun c => text c.name)
  tokens := .ofList [
    (text "keyword", { literals := some (.list [text "if", text "else"]) }),
    (text "char", { literals := some (.list []) }),
    (text "string", {
      states := [⟨text "END", .accepting⟩]
      edges := [⟨text "START", text "END", some (text "x"), .charClass⟩,
        ⟨text "END", text "END", some (text "ACCEPTABLE_SYMBOLS"), .acceptOnBoundary⟩] })]

theorem compile_spelledOut_sample : Relation.ReflTransGen SpellsOut terse verbose ∧
    verbose.compile = terse.compile ∧ ∃ l, terse.compile = .ok l := by
  have hspelled : Relation.ReflTransGen SpellsOut terse verbose := by
    refine .head (.priority terse rfl) ?_
    refine .head (.token _ (text "keyword") rfl (.keywords _ rfl)) ?_
    refine .head (.token _ (text "char") rfl (.nothing _)) ?_
    exact .single (.token _ (text "string") rfl (.edge _ _ _ [_] [] (.boundary _ _)))
  have hsound : terse.faults = [] := by decide +kernel
  exact ⟨hspelled, compile_spelledOut hspelled, terse.compile_stops.ok_iff.mpr hsound⟩

end LanguageDefinition

end TokenGraph
