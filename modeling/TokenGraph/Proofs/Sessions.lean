import TokenGraph.Workspace
import TokenGraph.Proofs.Trials

/-!
# Sessions over time

What becomes of the languages of sessions while requests of all kinds are served. A session has the
language that a catalog held when it was last made active there, whatever the catalogs hold since;
that language can be analyzed, so that only a session without one refuses to highlight.
-/

namespace TokenGraph

/-- Why no language of a catalog can be made active under a name. -/
inductive Catalog.Refuses (c : Catalog) (name : Text) : LanguageError → Prop
  | unknown (h : c.get? name = none) : Catalog.Refuses c name (.unknownLanguage name)
  | incomplete {l : Language} {category : Category} (hl : c.get? name = some l)
      (h : l.missing? = some category) : Catalog.Refuses c name (.noPrototype category)

theorem Catalog.refuses_or_complete (c : Catalog) (name : Text) :
    (∃ cause, c.Refuses name cause) ∨ ∃ l, c.get? name = some l ∧ l.missing? = none := by
  cases hl : c.get? name with
  | none => exact .inl ⟨_, .unknown hl⟩
  | some l =>
    cases h : l.missing? with
    | none => exact .inr ⟨l, rfl, h⟩
    | some category => exact .inl ⟨_, .incomplete hl h⟩

theorem Session.highlight_eq_error {s : Session}
    (h : ∀ l, s.active? = some l → ∃ a, Analyzer.ofLanguage l = .ok a) {document : Text}
    {cause : SessionError} :
    s.highlight document = .error cause ↔ cause = .noActiveLanguage ∧ s.active? = none := by
  unfold highlight
  cases hs : s.active? with
  | none => simp [eq_comm]
  | some l =>
    obtain ⟨a, ha⟩ := h l hs
    have hshown : l.highlight document =
        .ok (a.highlightFrom 0 none 0 0 (documentLines document)) := by
      rw [Language.highlight, Language.highlightLines, ha]
      rfl
    simp only [hshown]
    constructor
    · intro herror
      cases herror
    · rintro ⟨-, hnone⟩
      cases hnone

namespace Workspace

/-- The workspace after some requests. -/
def after (w : Workspace) (requests : List Request) : Workspace := (w.serveAll requests).value.1

/-- What some requests make of an empty workspace. -/
def reached (requests : List Request) : Workspace := after {} requests

def Succeeds (w : Workspace) (request : Request) : Prop :=
  ∀ cause, (w.serve request).value.2 ≠ .refused cause

/-- The request puts something else into the session, which a refused activation does not. -/
inductive Replaces (w : Workspace) : Request → Text → Prop
  | activate {session catalog name : Text} (h : w.Succeeds (.activate session catalog name)) :
      Replaces w (.activate session catalog name) session
  | clear {session : Text} : Replaces w (.clear session) session
  | cloneSession {session target : Text} : Replaces w (.cloneSession session target) target

/-- What one session holds stays there, or goes to another one, while the request is served. -/
inductive Passes (w : Workspace) : Request → Text → Text → Prop
  | kept {request : Request} {session : Text} (h : ¬ w.Replaces request session) :
      Passes w request session session
  | cloned {session target : Text} : Passes w (.cloneSession session target) session target

/-- What one session holds before the requests comes to the other by their end. -/
def Inherits (w : Workspace) : List Request → Text → Text → Prop
  | [], source, session => source = session
  | request :: rest, source, session =>
    ∃ holder, w.Passes request source holder ∧ (w.after [request]).Inherits rest holder session
termination_by structural rest => rest

/-- The language is the one that a catalog held when it was last made active in the session, or in
the one that the session was cloned from. -/
def LastActivated (w : Workspace) (requests : List Request) (session : Text) (l : Language) :
    Prop :=
  ∃ before source catalog name rest,
    requests = before ++ .activate source catalog name :: rest ∧
      (w.after before).Succeeds (.activate source catalog name) ∧
      ((w.after before).catalog catalog).get? name = some l ∧
      (w.after (before ++ [.activate source catalog name])).Inherits rest source session

variable {w : Workspace} {request : Request} {session catalog name : Text} {l : Language}

theorem setSession_self (w : Workspace) (name : Text) (s : Session) :
    (w.setSession name s).session name = s := if_pos rfl

theorem setSession_of_ne {name other : Text} (h : other ≠ name) (w : Workspace) (s : Session) :
    (w.setSession name s).session other = w.session other := if_neg h

/-! ### Activation -/

/-- A refused activation changes nothing and reports no event. -/
theorem serve_activate_of_refuses {cause : LanguageError}
    (h : (w.catalog catalog).Refuses name cause) :
    w.serve (.activate session catalog name) = ⟨(w, .refused (.language cause)), []⟩ := by
  cases h with
  | unknown h => simp [serve, Session.activate, Catalog.require, h, bind, Except.bind, refuse]
  | incomplete hl h =>
    have hcause := Analyzer.ofLanguage_eq_error.mpr ⟨_, h, rfl⟩
    simp [serve, Session.activate, Catalog.require, hl, hcause, bind, Except.bind, refuse]

theorem serve_activate_of_complete (hl : (w.catalog catalog).get? name = some l)
    (h : l.missing? = none) :
    w.serve (.activate session catalog name) =
      ⟨(w.setSession session ⟨some l⟩, .language (some l)), [.activated name]⟩ := by
  obtain ⟨a, ha⟩ := Analyzer.ofLanguage_ok_iff_missing?.mpr h
  simp [serve, Session.activate, Catalog.require, hl, ha, bind, Except.bind, pure, Except.pure,
    Logged.map]

/-- An activation succeeds where the catalog holds a language that can be analyzed. -/
theorem succeeds_activate_iff : w.Succeeds (.activate session catalog name) ↔
    ∃ l, (w.catalog catalog).get? name = some l ∧ l.missing? = none := by
  constructor
  · intro h
    refine ((w.catalog catalog).refuses_or_complete name).resolve_left ?_
    rintro ⟨cause, hcause⟩
    exact h (.language cause) (by rw [serve_activate_of_refuses hcause])
  · rintro ⟨l, hl, h⟩ cause
    rw [serve_activate_of_complete hl h]
    simp

theorem refused_activate_iff {cause : SessionError} :
    (w.serve (.activate session catalog name)).value.2 = .refused cause ↔
      ∃ why, (w.catalog catalog).Refuses name why ∧ cause = .language why := by
  constructor
  · intro h
    rcases (w.catalog catalog).refuses_or_complete name with ⟨why, hwhy⟩ | hcomplete
    · rw [serve_activate_of_refuses hwhy] at h
      exact ⟨why, hwhy, (Reply.refused.inj h).symm⟩
    · exact absurd h (succeeds_activate_iff.mpr hcomplete cause)
  · rintro ⟨why, hwhy, rfl⟩
    rw [serve_activate_of_refuses hwhy]

theorem after_activate (h : w.Succeeds (.activate session catalog name)) :
    w.after [.activate session catalog name] =
      w.setSession session ⟨(w.catalog catalog).get? name⟩ := by
  obtain ⟨l, hl, hmissing⟩ := succeeds_activate_iff.mp h
  rw [hl]
  exact congrArg (fun served => served.value.1) (serve_activate_of_complete hl hmissing)

/-! ### One request -/

/-- A session that a request does not replace is as it was. -/
theorem session_of_not_replaces (h : ¬ w.Replaces request session) :
    (w.after [request]).session session = w.session session := by
  change (w.serve request).value.1.session session = w.session session
  -- Only activations, clones and clearing touch a session at all.
  cases request with
  | builtin | register | require | highlight =>
    rw [serve]
    split <;> rfl
  | cloneCatalog | get | remove | names | size | active => rfl
  | cloneSession holder target =>
    refine setSession_of_ne ?_ w _
    rintro rfl
    exact h .cloneSession
  | clear holder =>
    refine setSession_of_ne ?_ w _
    rintro rfl
    exact h .clear
  | activate holder catalog name =>
    rcases (w.catalog catalog).refuses_or_complete name with ⟨cause, hcause⟩ | ⟨l, hl, hmissing⟩
    · rw [serve_activate_of_refuses hcause]
    · rw [serve_activate_of_complete hl hmissing]
      refine setSession_of_ne ?_ w _
      rintro rfl
      exact h (.activate (succeeds_activate_iff.mpr ⟨l, hl, hmissing⟩))

theorem Passes.session_eq {source : Text} (h : w.Passes request source session) :
    (w.after [request]).session session = w.session source := by
  cases h with
  | kept h => exact session_of_not_replaces h
  | cloned => exact setSession_self w _ _

/-- After one request a session has the language that was passed to it, or was made active in it. -/
theorem active_after_request : ((w.after [request]).session session).active? = some l ↔
    (∃ source, w.Passes request source session ∧ (w.session source).active? = some l) ∨
      ∃ catalog name, request = .activate session catalog name ∧ w.Succeeds request ∧
        (w.catalog catalog).get? name = some l := by
  constructor
  · intro h
    by_cases hreplaces : w.Replaces request session
    · cases hreplaces with
      | @activate _ catalog name hsucceeds =>
        rw [after_activate hsucceeds, setSession_self] at h
        exact .inr ⟨catalog, name, rfl, hsucceeds, h⟩
      | clear =>
        have hnone : (w.after [.clear session]).session session = ⟨none⟩ := setSession_self w _ _
        rw [hnone] at h
        cases h
      | @cloneSession source =>
        have hpasses : w.Passes (.cloneSession source session) source session := .cloned
        exact .inl ⟨source, hpasses, hpasses.session_eq ▸ h⟩
    · have hpasses := Passes.kept hreplaces
      exact .inl ⟨session, hpasses, hpasses.session_eq ▸ h⟩
  · rintro (⟨source, hpasses, h⟩ | ⟨catalog, name, rfl, hsucceeds, hl⟩)
    · rw [hpasses.session_eq, h]
    · rw [after_activate hsucceeds, setSession_self, hl]

/-! ### All requests -/

theorem lastActivated_cons {rest : List Request} : w.LastActivated (request :: rest) session l ↔
    (∃ source catalog name, request = .activate source catalog name ∧ w.Succeeds request ∧
      (w.catalog catalog).get? name = some l ∧ (w.after [request]).Inherits rest source session) ∨
        (w.after [request]).LastActivated rest session l := by
  constructor
  · rintro ⟨before, source, catalog, name, others, hsplit, hsucceeds, hl, hinherits⟩
    cases before with
    | nil =>
      obtain ⟨rfl, rfl⟩ := List.cons.inj hsplit
      exact .inl ⟨source, catalog, name, rfl, hsucceeds, hl, hinherits⟩
    | cons first before =>
      obtain ⟨rfl, rfl⟩ := List.cons.inj hsplit
      exact .inr ⟨before, source, catalog, name, others, rfl, hsucceeds, hl, hinherits⟩
  · rintro (⟨source, catalog, name, rfl, hsucceeds, hl, hinherits⟩ |
      ⟨before, source, catalog, name, others, rfl, hsucceeds, hl, hinherits⟩)
    · exact ⟨[], source, catalog, name, rest, rfl, hsucceeds, hl, hinherits⟩
    · exact ⟨request :: before, source, catalog, name, others, rfl, hsucceeds, hl, hinherits⟩

/-- After any requests a session has the language of the session it inherits from, or the one that
was last made active. -/
theorem active_after {requests : List Request} :
    ((w.after requests).session session).active? = some l ↔
      (∃ source, w.Inherits requests source session ∧ (w.session source).active? = some l) ∨
        w.LastActivated requests session l := by
  -- The rest of the requests begins where the first one ends, so the start is kept general.
  induction requests generalizing w with
  | nil =>
    have hnone : ¬ w.LastActivated [] session l := by
      rintro ⟨before, _, _, _, _, hsplit, -⟩
      cases before <;> cases hsplit
    simp [after, serveAll, Inherits, hnone]
  | cons request rest ih =>
    change (((w.after [request]).after rest).session session).active? = some l ↔ _
    rw [ih, lastActivated_cons]
    simp only [active_after_request, Inherits]
    constructor
    · rintro (⟨holder, hinherits, ⟨source, hpasses, h⟩ |
        ⟨catalog, name, rfl, hsucceeds, hl⟩⟩ | hlast)
      · exact .inl ⟨source, ⟨holder, hpasses, hinherits⟩, h⟩
      · exact .inr (.inl ⟨holder, catalog, name, rfl, hsucceeds, hl, hinherits⟩)
      · exact .inr (.inr hlast)
    · rintro (⟨source, ⟨holder, hpasses, hinherits⟩, h⟩ |
        ⟨source, catalog, name, rfl, hsucceeds, hl, hinherits⟩ | hlast)
      · exact .inl ⟨holder, hinherits, .inl ⟨source, hpasses, h⟩⟩
      · exact .inl ⟨source, hinherits, .inr ⟨catalog, name, rfl, hsucceeds, hl⟩⟩
      · exact .inr hlast

theorem active_reached {requests : List Request} :
    ((reached requests).session session).active? = some l ↔
      LastActivated {} requests session l := by
  rw [reached, active_after, or_iff_right]
  rintro ⟨source, -, h⟩
  cases h

/-- The language of a session is one that can be analyzed. -/
theorem LastActivated.complete {requests : List Request} (h : w.LastActivated requests session l) :
    ∃ a, Analyzer.ofLanguage l = .ok a := by
  obtain ⟨before, source, catalog, name, rest, -, hsucceeds, hl, -⟩ := h
  obtain ⟨found, hfound, hmissing⟩ := succeeds_activate_iff.mp hsucceeds
  obtain rfl : found = l := Option.some.inj (hfound.symm.trans hl)
  exact Analyzer.ofLanguage_ok_iff_missing?.mpr hmissing

/-- Whatever requests were served, in whatever order: every active language can be analyzed, so that
only a session without one refuses to highlight; it is the one that a catalog held when it was last
made active; and an activation is refused for an unknown name or a missing prototype only, and then
changes nothing and reports no event. -/
theorem reached_sessions (requests : List Request) :
    (∀ session l, ((reached requests).session session).active? = some l →
      ∃ a, Analyzer.ofLanguage l = .ok a) ∧
    (∀ session document cause,
      ((reached requests).session session).highlight document = .error cause ↔
        cause = .noActiveLanguage ∧ ((reached requests).session session).active? = none) ∧
    (∀ session l, ((reached requests).session session).active? = some l ↔
      LastActivated {} requests session l) ∧
    ∀ session catalog name cause,
      (((reached requests).serve (.activate session catalog name)).value.2 = .refused cause ↔
        ∃ why, ((reached requests).catalog catalog).Refuses name why ∧ cause = .language why) ∧
      (((reached requests).serve (.activate session catalog name)).value.2 = .refused cause →
        (reached requests).serve (.activate session catalog name) =
          ⟨(reached requests, .refused cause), []⟩) := by
  have hcomplete : ∀ session l, ((reached requests).session session).active? = some l →
      ∃ a, Analyzer.ofLanguage l = .ok a := by
    intro session l h
    exact (active_reached.mp h).complete
  refine ⟨hcomplete, ?_, fun session l => active_reached, ?_⟩
  · intro session document cause
    exact Session.highlight_eq_error (hcomplete session)
  · intro session catalog name cause
    refine ⟨refused_activate_iff, fun h => ?_⟩
    obtain ⟨why, hwhy, rfl⟩ := refused_activate_iff.mp h
    exact serve_activate_of_refuses hwhy

/-- A language without prototypes, which can be analyzed if it tries no category. -/
def bareLanguage (name : Text) (priority : List Category) : Language :=
  ⟨name, fun _ => none, [], [], priority, false⟩

/-- A language is replaced, under its own name, by one that misses a prototype, after it was made
active in a session and before that is cloned. -/
def sampleRequests : List Request :=
  [.register (text "main") (bareLanguage (text "Sample") []),
    .activate (text "left") (text "main") (text "Sample"),
    .remove (text "main") (text "Sample"),
    .register (text "main") (bareLanguage (text "Sample") [.integer]),
    .cloneSession (text "left") (text "right"),
    .activate (text "left") (text "main") (text "Sample"),
    .clear (text "left")]

theorem reached_sessions_sample :
    ((reached sampleRequests).session (text "right")).active? =
        some (bareLanguage (text "Sample") []) ∧
      (∃ a, Analyzer.ofLanguage (bareLanguage (text "Sample") []) = .ok a) ∧
      LastActivated {} sampleRequests (text "right") (bareLanguage (text "Sample") []) ∧
      ((reached sampleRequests).session (text "left")).highlight (text "1") =
        .error .noActiveLanguage ∧
      (reached sampleRequests).serve (.activate (text "right") (text "main") (text "Sample")) =
        ⟨(reached sampleRequests, .refused (.language (.noPrototype .integer))), []⟩ := by
  obtain ⟨hcomplete, hhighlight, hlast, hactivate⟩ := reached_sessions sampleRequests
  have hactive : ((reached sampleRequests).session (text "right")).active? =
      some (bareLanguage (text "Sample") []) := rfl
  have hcleared : ((reached sampleRequests).session (text "left")).active? = none := rfl
  obtain ⟨hrefused, hunchanged⟩ := hactivate (text "right") (text "main") (text "Sample")
    (.language (.noPrototype .integer))
  have hincomplete : ((reached sampleRequests).catalog (text "main")).Refuses (text "Sample")
      (.noPrototype .integer) :=
    .incomplete (l := bareLanguage (text "Sample") [.integer]) rfl rfl
  exact ⟨hactive, hcomplete _ _ hactive, (hlast _ _).mp hactive,
    (hhighlight _ _ _).mpr ⟨rfl, hcleared⟩, hunchanged (hrefused.mpr ⟨_, hincomplete, rfl⟩)⟩

end Workspace

end TokenGraph
