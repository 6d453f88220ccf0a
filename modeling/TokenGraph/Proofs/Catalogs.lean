import Mathlib.Data.Finmap
import TokenGraph.Proofs.ByteOrder
import TokenGraph.Proofs.Sessions
import TokenGraph.Proofs.Xogue.Analyzer

/-!
# Catalogs over time

What becomes of catalogs while requests of all kinds are served. Each of them is a finite map from
names to languages. What a catalog holds under a name was registered there last and not removed
since, or came with the contents of another catalog.
-/

namespace TokenGraph

/-! ### Dictionaries as finite maps -/

theorem nodup_of_ascending {all : List Text} (h : all.Pairwise (· < ·)) : all.Nodup := by
  refine h.imp ?_
  rintro s _ hlt rfl
  exact List.lt_irrefl s hlt

namespace Dictionary

variable {α : Type}

/-- What a dictionary maps to what, without an order. -/
def toFinmap (d : Dictionary α) : Finmap fun _ : Text => α :=
  (d.entries.map fun e => (⟨e.1, e.2⟩ : Sigma fun _ : Text => α)).toFinmap

theorem lookup_toFinmap (d : Dictionary α) (key : Text) : d.toFinmap.lookup key = d.get? key := by
  rw [toFinmap, Finmap.dlookup_list_toFinmap, get?]
  induction d.entries with
  | nil => rfl
  | cons e rest ih =>
    by_cases h : e.1 = key
    · subst h
      simp [lookupEntry, List.dlookup_cons_eq]
    · rw [List.map_cons, List.dlookup_cons_ne _ _ (Ne.symm h), ih]
      simp [lookupEntry, h]

theorem toFinmap_insert (d : Dictionary α) (key : Text) (value : α) :
    (d.insert key value).toFinmap = d.toFinmap.insert key value := by
  refine Finmap.ext_lookup fun other => ?_
  rw [lookup_toFinmap, get?_insert]
  split
  · next h => rw [h, Finmap.lookup_insert]
  · next h => rw [Finmap.lookup_insert_of_ne _ h, lookup_toFinmap]

theorem toFinmap_erase (d : Dictionary α) (key : Text) :
    (d.erase key).toFinmap = d.toFinmap.erase key := by
  refine Finmap.ext_lookup fun other => ?_
  rw [lookup_toFinmap, get?_erase]
  split
  · next h => rw [h, Finmap.lookup_erase]
  · next h => rw [Finmap.lookup_erase_ne h, lookup_toFinmap]

theorem mem_keys {d : Dictionary α} {key : Text} : key ∈ d.keys ↔ key ∈ d.toFinmap := by
  simp [toFinmap, keys, Finmap.mem_list_toFinmap]

theorem contains_iff {d : Dictionary α} {key : Text} : d.contains key ↔ key ∈ d.toFinmap := by
  rw [contains, ← lookup_toFinmap, Finmap.lookup_isSome]

theorem get?_of_mem {d : Dictionary α} {e : Text × α} (h : e ∈ d.entries) :
    d.get? e.1 = some e.2 := by
  rw [← lookup_toFinmap, toFinmap, Finmap.dlookup_list_toFinmap]
  refine List.mem_dlookup ?_ (List.mem_map_of_mem h)
  rw [List.NodupKeys, List.keys, List.map_map]
  exact nodup_of_ascending d.keys_ascend

end Dictionary

/-! ### Catalogs as finite maps -/

/-- What a catalog holds, by name. -/
abbrev Contents := Finmap fun _ : Text => Language

/-- All names, in the order of their bytes. -/
structure Contents.Lists (f : Contents) (all : List Text) : Prop where
  mem_iff : ∀ name, name ∈ all ↔ name ∈ f
  ascending : (all.map bytes).Pairwise (· < ·)

theorem Contents.Lists.ascend {f : Contents} {all : List Text} (h : f.Lists all) :
    all.Pairwise (· < ·) :=
  (List.pairwise_map.mp h.ascending).imp bytes_lt_bytes.mp

/-- There is but one list of the names. -/
theorem Contents.Lists.unique {f : Contents} {all all' : List Text} (h : f.Lists all)
    (h' : f.Lists all') : all = all' := by
  have hperm : all.Perm all' := by
    rw [List.perm_ext_iff_of_nodup (nodup_of_ascending h.ascend) (nodup_of_ascending h'.ascend)]
    exact fun name => (h.mem_iff name).trans (h'.mem_iff name).symm
  refine List.Perm.eq_of_pairwise ?_ h.ascend h'.ascend hperm
  exact fun name other _ _ hlt hgt => absurd hgt (List.lt_asymm hlt)

theorem Catalog.lists_keys (c : Catalog) : Contents.Lists c.toFinmap c.keys := by
  refine ⟨fun name => Dictionary.mem_keys, ?_⟩
  rw [List.pairwise_map]
  exact c.keys_ascend.imp bytes_lt_bytes.mpr

namespace Request

/-- The request is about sessions, and may read catalogs only. -/
def isForSession : Request → Bool
  | .cloneSession .. | .activate .. | .active .. | .clear .. | .highlight .. => true
  | _ => false

/-- The catalog that the request may change. -/
def target? : Request → Option Text
  | .builtin catalog | .register catalog _ | .remove catalog _ => some catalog
  | .cloneCatalog _ target => some target
  | _ => none

theorem target?_of_isForSession {request : Request} (h : request.isForSession) :
    request.target? = none := by
  cases request <;> first | rfl | cases h

/-- What a request for a catalog does to finite maps, what it replies and which events it
reports. -/
inductive Serves (f : Text → Contents) :
    Request → (Text → Contents) → Reply → List Event → Prop
  | registered {catalog : Text} {l : Language} (h : l.name ∉ f catalog) :
      Serves f (.register catalog l)
        (Function.update f catalog ((f catalog).insert l.name l))
        (.language (some l)) [.registered l.name]
  | duplicate {catalog : Text} {l : Language} (h : l.name ∈ f catalog) :
      Serves f (.register catalog l) f (.refused (.language (.duplicateLanguage l.name))) []
  | got {catalog name : Text} :
      Serves f (.get catalog name) f (.language ((f catalog).lookup name)) []
  | required {catalog name : Text} {l : Language} (h : (f catalog).lookup name = some l) :
      Serves f (.require catalog name) f (.language (some l)) []
  | unknown {catalog name : Text} (h : name ∉ f catalog) :
      Serves f (.require catalog name) f (.refused (.language (.unknownLanguage name))) []
  | removed {catalog name : Text} :
      Serves f (.remove catalog name)
        (Function.update f catalog ((f catalog).erase name))
        (.language ((f catalog).lookup name)) []
  | listed {catalog : Text} {all : List Text} (h : (f catalog).Lists all) :
      Serves f (.names catalog) f (.names all) []
  | counted {catalog : Text} {all : List Text} (h : (f catalog).Lists all) :
      Serves f (.size catalog) f (.size all.length all.isEmpty) []
  | cloned {catalog target : Text} {all : List Text} (h : (f catalog).Lists all) :
      Serves f (.cloneCatalog catalog target) (Function.update f target (f catalog))
        (.count all.length) []
  | builtin {catalog : Text} :
      Serves f (.builtin catalog)
        (Function.update f catalog ((∅ : Contents).insert Xogue.name Xogue.xogue))
        (.count 1) [.registered Xogue.name]

theorem Serves.unique {f g g' : Text → Contents} {request : Request} {reply reply' : Reply}
    {events events' : List Event} (h : Serves f request g reply events)
    (h' : Serves f request g' reply' events') : g = g' ∧ reply = reply' ∧ events = events' := by
  cases h with
  | registered hnew =>
    cases h' with
    | registered => exact ⟨rfl, rfl, rfl⟩
    | duplicate hmem => exact absurd hmem hnew
  | duplicate hmem =>
    cases h' with
    | registered hnew => exact absurd hmem hnew
    | duplicate => exact ⟨rfl, rfl, rfl⟩
  | required hl =>
    cases h' with
    | required hl' =>
      obtain rfl := Option.some.inj (hl.symm.trans hl')
      exact ⟨rfl, rfl, rfl⟩
    | unknown hunknown => exact absurd (Finmap.mem_iff.mpr ⟨_, hl⟩) hunknown
  | unknown hunknown =>
    cases h' with
    | required hl => exact absurd (Finmap.mem_iff.mpr ⟨_, hl⟩) hunknown
    | unknown => exact ⟨rfl, rfl, rfl⟩
  | listed hall | counted hall | cloned hall =>
    cases h'
    next hall' =>
      obtain rfl := hall.unique hall'
      exact ⟨rfl, rfl, rfl⟩
  | got | removed | builtin =>
    cases h'
    exact ⟨rfl, rfl, rfl⟩

/-- What requests do to finite maps one after the other, with all replies and events. Those for
sessions do nothing to them. -/
inductive ServesAll : (Text → Contents) → List Request → (Text → Contents) → List Reply →
    List Event → Prop
  | nil {f : Text → Contents} : ServesAll f [] f [] []
  | served {f g last : Text → Contents} {request : Request} {rest : List Request} {reply : Reply}
      {replies : List Reply} {events later : List Event} (h : Serves f request g reply events)
      (hrest : ServesAll g rest last replies later) :
      ServesAll f (request :: rest) last (reply :: replies) (events ++ later)
  | session {f last : Text → Contents} {request : Request} {rest : List Request} {reply : Reply}
      {replies : List Reply} {events later : List Event} (h : request.isForSession)
      (hrest : ServesAll f rest last replies later) :
      ServesAll f (request :: rest) last (reply :: replies) (events ++ later)

/-- What a catalog holds under a name does not stay there, whatever becomes of it. -/
inductive Drops (name : Text) : Request → Text → Prop
  | remove {catalog : Text} : Drops name (.remove catalog name) catalog
  | cloneCatalog {catalog target : Text} : Drops name (.cloneCatalog catalog target) target
  | builtin {catalog : Text} : Drops name (.builtin catalog) catalog

/-- What one catalog holds under a name stays there, or goes to another one. -/
inductive Passes (name : Text) : Request → Text → Text → Prop
  | kept {request : Request} {catalog : Text} (h : ¬ request.Drops name catalog) :
      Passes name request catalog catalog
  | cloned {catalog target : Text} : Passes name (.cloneCatalog catalog target) catalog target

/-- What one catalog holds under a name before the requests comes to the other by their end. -/
def PassAll (name : Text) : List Request → Text → Text → Prop
  | [], source, catalog => source = catalog
  | request :: rest, source, catalog =>
    ∃ holder, request.Passes name source holder ∧ PassAll name rest holder catalog

theorem Drops.target {name : Text} {request : Request} {catalog : Text}
    (h : request.Drops name catalog) : request.target? = some catalog := by
  cases h <;> rfl

theorem passes_iff_of_not_drops {name : Text} {request : Request} {source catalog : Text}
    (h : ¬ request.Drops name catalog) :
    request.Passes name source catalog ↔ source = catalog := by
  constructor
  · intro hpasses
    cases hpasses with
    | kept => rfl
    | cloned => exact absurd .cloneCatalog h
  · rintro rfl
    exact .kept h

end Request

namespace Workspace

/-- What all catalogs hold. -/
def contents (w : Workspace) (catalog : Text) : Contents := (w.catalog catalog).toFinmap

/-- The request puts a language into the catalog, under its own name. -/
inductive Enters (w : Workspace) : Request → Text → Language → Prop
  | register {catalog : Text} {l : Language} (h : w.Succeeds (.register catalog l)) :
      Enters w (.register catalog l) catalog l
  | builtin {catalog : Text} : Enters w (.builtin catalog) catalog Xogue.xogue

/-- The language was the last to be put into the catalog under its name, or into the one that this
was cloned from, and has not been removed since. -/
def LastEntered (w : Workspace) (requests : List Request) (catalog : Text) (l : Language) : Prop :=
  ∃ before request source rest, requests = before ++ request :: rest ∧
    (w.after before).Enters request source l ∧ Request.PassAll l.name rest source catalog

variable {w : Workspace} {request : Request} {catalog name : Text} {l : Language}

theorem setCatalog_self (w : Workspace) (name : Text) (c : Catalog) :
    (w.setCatalog name c).catalog name = c := if_pos rfl

theorem setCatalog_of_ne {name other : Text} (h : other ≠ name) (w : Workspace) (c : Catalog) :
    (w.setCatalog name c).catalog other = w.catalog other := if_neg h

theorem contents_setCatalog (w : Workspace) (name : Text) (c : Catalog) :
    (w.setCatalog name c).contents = Function.update w.contents name c.toFinmap := by
  funext other
  rw [contents]
  by_cases h : other = name
  · rw [h, setCatalog_self, Function.update_self]
  · rw [setCatalog_of_ne h, Function.update_of_ne h, contents]

/-! ### Single requests -/

/-- A name that is taken is refused, which changes nothing and reports no event. -/
theorem serve_register_of_mem (h : l.name ∈ w.contents catalog) :
    w.serve (.register catalog l) =
      ⟨(w, .refused (.language (.duplicateLanguage l.name))), []⟩ := by
  have hcontains : (w.catalog catalog).contains l.name := Dictionary.contains_iff.mpr h
  simp [serve, Catalog.register, hcontains, refuse]

theorem serve_register_of_notMem (h : l.name ∉ w.contents catalog) :
    w.serve (.register catalog l) =
      ⟨(w.setCatalog catalog ((w.catalog catalog).insert l.name l), .language (some l)),
        [.registered l.name]⟩ := by
  have hcontains : ¬ (w.catalog catalog).contains l.name := fun hc =>
    h (Dictionary.contains_iff.mp hc)
  simp [serve, Catalog.register, hcontains, Logged.map]

theorem succeeds_register_iff : w.Succeeds (.register catalog l) ↔ l.name ∉ w.contents catalog := by
  constructor
  · intro h hmem
    exact h (.language (.duplicateLanguage l.name)) (by rw [serve_register_of_mem hmem])
  · intro h cause
    rw [serve_register_of_notMem h]
    simp

theorem serve_builtin (w : Workspace) (catalog : Text) :
    w.serve (.builtin catalog) =
      ⟨(w.setCatalog catalog (Catalog.empty.insert Xogue.name Xogue.xogue), .count 1),
        [.registered Xogue.name]⟩ := by
  have hmade : Xogue.builtinCatalog =
      .ok ⟨Catalog.empty.insert Xogue.name Xogue.xogue, [.registered Xogue.name]⟩ := by
    rw [Xogue.builtinCatalog, Xogue.language_eq]
    rfl
  rw [serve, hmade]
  rfl

/-- A catalog that is not the target of a request is as it was. -/
theorem catalog_of_not_target (h : request.target? ≠ some catalog) :
    (w.after [request]).catalog catalog = w.catalog catalog := by
  change (w.serve request).value.1.catalog catalog = w.catalog catalog
  have hne : ∀ target, request.target? = some target → catalog ≠ target := by
    rintro target htarget rfl
    exact h htarget
  cases request with
  | builtin target =>
    rw [serve_builtin]
    exact setCatalog_of_ne (hne _ rfl) w _
  | register target l =>
    by_cases hmem : l.name ∈ w.contents target
    · rw [serve_register_of_mem hmem]
    · rw [serve_register_of_notMem hmem]
      exact setCatalog_of_ne (hne _ rfl) w _
  | cloneCatalog source target => exact setCatalog_of_ne (hne _ rfl) w _
  | remove target name => exact setCatalog_of_ne (hne _ rfl) w _
  | require | activate | highlight =>
    rw [serve]
    split <;> rfl
  | get | names | size | cloneSession | active | clear => rfl

/-- A request for a catalog is served as if catalogs were finite maps. -/
theorem serve_serves (w : Workspace) (h : ¬ request.isForSession) :
    request.Serves w.contents (w.serve request).value.1.contents (w.serve request).value.2
      (w.serve request).events := by
  cases request with
  | builtin catalog =>
    rw [serve_builtin, contents_setCatalog, Dictionary.toFinmap_insert]
    exact .builtin
  | cloneCatalog catalog target =>
    have hlists := (w.catalog catalog).lists_keys
    simp only [serve, contents_setCatalog]
    rw [Dictionary.size, ← List.length_map]
    exact .cloned hlists
  | register catalog l =>
    by_cases hmem : l.name ∈ w.contents catalog
    · rw [serve_register_of_mem hmem]
      exact .duplicate hmem
    · rw [serve_register_of_notMem hmem, contents_setCatalog, Dictionary.toFinmap_insert]
      exact .registered hmem
  | get catalog name =>
    rw [serve, ← Dictionary.lookup_toFinmap]
    exact .got
  | remove catalog name =>
    simp only [serve, contents_setCatalog, Dictionary.toFinmap_erase]
    rw [← Dictionary.lookup_toFinmap]
    exact .removed
  | require catalog name =>
    rw [serve, Catalog.require]
    cases hl : (w.catalog catalog).get? name with
    | none =>
      refine .unknown ?_
      rw [← Finmap.lookup_eq_none, contents, Dictionary.lookup_toFinmap, hl]
    | some l =>
      refine .required ?_
      rw [contents, Dictionary.lookup_toFinmap, hl]
  | names catalog => exact .listed (w.catalog catalog).lists_keys
  | size catalog =>
    rw [serve, Dictionary.size, ← List.length_map, ← List.isEmpty_map]
    exact .counted (w.catalog catalog).lists_keys
  | cloneSession | activate | active | clear | highlight => exact absurd rfl h

theorem contents_of_isForSession (h : request.isForSession) :
    (w.after [request]).contents = w.contents := by
  funext catalog
  have hother : request.target? ≠ some catalog := by
    rw [Request.target?_of_isForSession h]
    simp
  rw [contents, catalog_of_not_target hother, contents]

theorem serveAll_serves (w : Workspace) (requests : List Request) :
    Request.ServesAll w.contents requests (w.after requests).contents
      (w.serveAll requests).value.2 (w.serveAll requests).events := by
  induction requests generalizing w with
  | nil => exact .nil
  | cons request rest ih =>
    by_cases h : request.isForSession
    · refine .session h ?_
      rw [← contents_of_isForSession h]
      exact ih (w.after [request])
    · exact .served (w.serve_serves h) (ih _)

/-! ### Histories -/

theorem after_builtin (w : Workspace) (catalog : Text) :
    w.after [.builtin catalog] =
      w.setCatalog catalog (Catalog.empty.insert Xogue.name Xogue.xogue) :=
  congrArg (fun served => served.value.1) (serve_builtin w catalog)

theorem after_register_of_mem (h : l.name ∈ w.contents catalog) :
    w.after [.register catalog l] = w :=
  congrArg (fun served => served.value.1) (serve_register_of_mem h)

theorem after_register_of_notMem (h : l.name ∉ w.contents catalog) :
    w.after [.register catalog l] =
      w.setCatalog catalog ((w.catalog catalog).insert l.name l) :=
  congrArg (fun served => served.value.1) (serve_register_of_notMem h)

theorem get?_after_register {entered : Language} :
    ((w.after [.register catalog entered]).catalog catalog).get? name = some l ↔
      (w.catalog catalog).get? name = some l ∨
        w.Enters (.register catalog entered) catalog l ∧ l.name = name := by
  by_cases hmem : entered.name ∈ w.contents catalog
  · rw [after_register_of_mem hmem]
    refine (or_iff_left ?_).symm
    rintro ⟨⟨hnew⟩, -⟩
    exact succeeds_register_iff.mp hnew hmem
  · rw [after_register_of_notMem hmem, setCatalog_self, Dictionary.get?_insert]
    split
    · next heq =>
      -- The name was free, so nothing was held under it.
      have hnone : (w.catalog catalog).get? name = none := by
        rwa [heq, ← Dictionary.lookup_toFinmap, Finmap.lookup_eq_none]
      rw [hnone]
      constructor
      · rintro ⟨⟩
        exact .inr ⟨.register (succeeds_register_iff.mpr hmem), heq.symm⟩
      · rintro (⟨⟨⟩⟩ | ⟨⟨-⟩, -⟩)
        rfl
    · next hne =>
      refine (or_iff_left ?_).symm
      rintro ⟨⟨-⟩, rfl⟩
      exact hne rfl

theorem get?_after_builtin :
    ((w.after [.builtin catalog]).catalog catalog).get? name = some l ↔
      w.Enters (.builtin catalog) catalog l ∧ l.name = name := by
  rw [after_builtin, setCatalog_self, Dictionary.get?_insert]
  split
  · next heq =>
    constructor
    · rintro ⟨⟩
      exact ⟨.builtin, heq.symm⟩
    · rintro ⟨⟨⟩, -⟩
      rfl
  · next hne =>
    constructor
    · rintro ⟨⟩
    · rintro ⟨⟨⟩, rfl⟩
      exact absurd rfl hne

theorem get?_after_remove (w : Workspace) (catalog removed : Text) :
    ((w.after [.remove catalog removed]).catalog catalog).get? name =
      if name = removed then none else (w.catalog catalog).get? name := by
  rw [← Dictionary.get?_erase]
  exact congrArg (Dictionary.get? · name) (setCatalog_self w _ _)

theorem catalog_after_cloneCatalog (w : Workspace) (source target : Text) :
    (w.after [.cloneCatalog source target]).catalog target = w.catalog source :=
  setCatalog_self w _ _

theorem Enters.target (h : w.Enters request catalog l) : request.target? = some catalog := by
  cases h <;> rfl

/-- After one request a catalog holds under a name what was passed to it, or what the request put
there. -/
theorem get?_after_request : ((w.after [request]).catalog catalog).get? name = some l ↔
    (∃ source, request.Passes name source catalog ∧ (w.catalog source).get? name = some l) ∨
      w.Enters request catalog l ∧ l.name = name := by
  -- A request that does not aim at the catalog drops nothing there and enters nothing.
  by_cases htarget : request.target? = some catalog
  · cases request with
    | builtin =>
      obtain rfl := Option.some.inj htarget
      rw [get?_after_builtin, or_iff_right]
      rintro ⟨source, ⟨hkept⟩, -⟩
      exact hkept .builtin
    | cloneCatalog source =>
      obtain rfl := Option.some.inj htarget
      rw [catalog_after_cloneCatalog]
      constructor
      · exact fun h => .inl ⟨source, .cloned, h⟩
      · rintro (⟨other, ⟨hkept⟩ | -, h⟩ | ⟨⟨⟩, -⟩)
        · exact absurd .cloneCatalog hkept
        · exact h
    | register catalog entered =>
      obtain rfl := Option.some.inj htarget
      have hkept : ¬ (Request.register catalog entered).Drops name catalog := by rintro ⟨⟩
      simp only [Request.passes_iff_of_not_drops hkept, exists_eq_left, get?_after_register]
    | remove catalog removed =>
      obtain rfl := Option.some.inj htarget
      rw [get?_after_remove, or_iff_left (by rintro ⟨⟨⟩, -⟩)]
      by_cases heq : name = removed
      · subst heq
        rw [if_pos rfl]
        constructor
        · rintro ⟨⟩
        · rintro ⟨source, ⟨hkept⟩, -⟩
          exact absurd .remove hkept
      · have hkept : ¬ (Request.remove catalog removed).Drops name catalog := by
          rintro ⟨⟩
          exact heq rfl
        simp only [if_neg heq, Request.passes_iff_of_not_drops hkept, exists_eq_left]
    | get | require | names | size | cloneSession | activate | active | clear | highlight =>
      cases htarget
  · have hkept : ¬ request.Drops name catalog := fun hdrops => htarget hdrops.target
    have henters : ¬ w.Enters request catalog l := fun henters => htarget henters.target
    simp [catalog_of_not_target htarget, Request.passes_iff_of_not_drops hkept, henters]

theorem lastEntered_cons {rest : List Request} : w.LastEntered (request :: rest) catalog l ↔
    (∃ source, w.Enters request source l ∧ Request.PassAll l.name rest source catalog) ∨
      (w.after [request]).LastEntered rest catalog l := by
  constructor
  · rintro ⟨before, entering, source, others, hsplit, henters, hpass⟩
    cases before with
    | nil =>
      obtain ⟨rfl, rfl⟩ := List.cons.inj hsplit
      exact .inl ⟨source, henters, hpass⟩
    | cons first before =>
      obtain ⟨rfl, rfl⟩ := List.cons.inj hsplit
      exact .inr ⟨before, entering, source, others, rfl, henters, hpass⟩
  · rintro (⟨source, henters, hpass⟩ | ⟨before, entering, source, others, rfl, henters, hpass⟩)
    · exact ⟨[], request, source, rest, rfl, henters, hpass⟩
    · exact ⟨request :: before, entering, source, others, rfl, henters, hpass⟩

/-- After any requests a catalog holds under a name what was passed to it from the beginning, or
what was put there last. -/
theorem get?_after {requests : List Request} :
    ((w.after requests).catalog catalog).get? name = some l ↔
      (∃ source, Request.PassAll name requests source catalog ∧
        (w.catalog source).get? name = some l) ∨
      w.LastEntered requests catalog l ∧ l.name = name := by
  -- The rest of the requests begins where the first one ends, so the start is kept general.
  induction requests generalizing w with
  | nil =>
    have hnone : ¬ w.LastEntered [] catalog l := by
      rintro ⟨before, _, _, _, hsplit, -⟩
      cases before <;> cases hsplit
    simp [after, serveAll, Request.PassAll, hnone]
  | cons request rest ih =>
    change (((w.after [request]).after rest).catalog catalog).get? name = some l ↔ _
    rw [ih, lastEntered_cons]
    simp only [get?_after_request, Request.PassAll]
    constructor
    · rintro (⟨holder, hpass, ⟨source, hpasses, h⟩ | ⟨henters, rfl⟩⟩ | ⟨hlast, hname⟩)
      · exact .inl ⟨source, ⟨holder, hpasses, hpass⟩, h⟩
      · exact .inr ⟨.inl ⟨holder, henters, hpass⟩, rfl⟩
      · exact .inr ⟨.inr hlast, hname⟩
    · rintro (⟨source, ⟨holder, hpasses, hpass⟩, h⟩ | ⟨⟨holder, henters, hpass⟩ | hlast, rfl⟩)
      · exact .inl ⟨holder, hpass, .inl ⟨source, hpasses, h⟩⟩
      · exact .inl ⟨holder, hpass, .inr ⟨henters, rfl⟩⟩
      · exact .inr ⟨hlast, rfl⟩

theorem get?_reached {requests : List Request} :
    ((reached requests).catalog catalog).get? name = some l ↔
      LastEntered {} requests catalog l ∧ l.name = name := by
  rw [reached, get?_after, or_iff_right]
  rintro ⟨source, -, ⟨⟩⟩

/-- Catalogs that requests do not aim at are as they were. -/
theorem catalog_after_of_not_target {requests : List Request}
    (h : ∀ request ∈ requests, request.target? ≠ some catalog) :
    (w.after requests).catalog catalog = w.catalog catalog := by
  induction requests generalizing w with
  | nil => rfl
  | cons request rest ih =>
    rw [List.forall_mem_cons] at h
    exact (ih h.2).trans (catalog_of_not_target h.1)

theorem after_append (w : Workspace) (requests later : List Request) :
    w.after (requests ++ later) = (w.after requests).after later := by
  induction requests generalizing w with
  | nil => rfl
  | cons request rest ih => exact ih _

theorem contents_empty : ({} : Workspace).contents = fun _ => ∅ := rfl

/-- Whatever requests were served, in whatever order: every step was one of finite maps, with all
replies and events; every language is held under its own name, as the last one to be put there that
was not removed since; a name is free again once it is removed; and what is done to a clone, or to
any other catalog, does not reach the original. -/
theorem reached_catalogs (requests : List Request) :
    Request.ServesAll (fun _ => ∅) requests (reached requests).contents
      (serveAll {} requests).value.2 (serveAll {} requests).events ∧
    (∀ catalog, ∀ e ∈ ((reached requests).catalog catalog).entries, e.1 = e.2.name) ∧
    (∀ catalog name l, ((reached requests).catalog catalog).get? name = some l ↔
      LastEntered {} requests catalog l ∧ l.name = name) ∧
    (∀ catalog l,
      (reached (requests ++ [.remove catalog l.name])).Succeeds (.register catalog l)) ∧
    ∀ original copy later, (∀ request ∈ later, request.target? ≠ some original) →
      (reached (requests ++ .cloneCatalog original copy :: later)).catalog original =
        (reached requests).catalog original := by
  refine ⟨?_, ?_, fun catalog name l => get?_reached, ?_, ?_⟩
  · rw [← contents_empty]
    exact serveAll_serves {} requests
  · intro catalog e he
    exact (get?_reached.mp (Dictionary.get?_of_mem he)).2.symm
  · intro catalog l
    rw [succeeds_register_iff, reached, after_append, contents, ← Finmap.lookup_eq_none,
      Dictionary.lookup_toFinmap, get?_after_remove, if_pos rfl]
  · intro original copy later hlater
    have hcloned : ((reached requests).after [.cloneCatalog original copy]).catalog original =
        (reached requests).catalog original := by
      by_cases h : original = copy
      · subst h
        exact catalog_after_cloneCatalog _ _ _
      · exact setCatalog_of_ne h _ _
    rw [reached, after_append]
    exact (catalog_after_of_not_target hlater).trans hcloned

/-- A name is registered twice, a clone loses it, and another language takes it there. -/
def catalogRequests : List Request :=
  [.register (text "main") (bareLanguage (text "é") []),
    .register (text "main") (bareLanguage (text "z") []),
    .register (text "main") (bareLanguage (text "é") [.integer]),
    .cloneCatalog (text "main") (text "spare"),
    .remove (text "spare") (text "é"),
    .register (text "spare") (bareLanguage (text "é") [.integer])]

theorem reached_catalogs_sample :
    Request.ServesAll (fun _ => ∅) catalogRequests (reached catalogRequests).contents
        [.language (some (bareLanguage (text "é") [])), .language (some (bareLanguage (text "z") [])),
          .refused (.language (.duplicateLanguage (text "é"))), .count 2,
          .language (some (bareLanguage (text "é") [])),
          .language (some (bareLanguage (text "é") [.integer]))]
        [.registered (text "é"), .registered (text "z"), .registered (text "é")] ∧
      (text "é", bareLanguage (text "é") []) ∈
        ((reached catalogRequests).catalog (text "main")).entries ∧
      text "é" = (bareLanguage (text "é") []).name ∧
      LastEntered {} catalogRequests (text "main") (bareLanguage (text "é") []) ∧
      LastEntered {} catalogRequests (text "spare") (bareLanguage (text "é") [.integer]) ∧
      ((reached catalogRequests).catalog (text "main")).keys = [text "z", text "é"] ∧
      (reached (catalogRequests ++ [.remove (text "main") (text "é")])).Succeeds
        (.register (text "main") (bareLanguage (text "é") [])) ∧
      ((reached (catalogRequests ++ .cloneCatalog (text "main") (text "other") ::
        [.remove (text "other") (text "z")])).catalog (text "main")).keys =
          [text "z", text "é"] := by
  obtain ⟨hserved, hnamed, hlast, hfree, hclone⟩ := reached_catalogs catalogRequests
  have hkeys : ((reached catalogRequests).catalog (text "main")).keys = [text "z", text "é"] := rfl
  have hentry : (text "é", bareLanguage (text "é") []) ∈
      ((reached catalogRequests).catalog (text "main")).entries := .tail _ (.head _)
  have hmain := (hlast (text "main") (text "é") (bareLanguage (text "é") [])).mp rfl
  have hspare := (hlast (text "spare") (text "é") (bareLanguage (text "é") [.integer])).mp rfl
  refine ⟨hserved, hentry, hnamed _ _ hentry, hmain.1, hspare.1, hkeys,
    hfree (text "main") (bareLanguage (text "é") []), ?_⟩
  rw [hclone (text "main") (text "other") [.remove (text "other") (text "z")] (by decide)]
  exact hkeys

end Workspace

end TokenGraph
