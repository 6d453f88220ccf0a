import TokenGraph.Pattern.Parser
import TokenGraph.Proofs.FirstFault
import TokenGraph.Proofs.WellFormed

/-!
# Refusals

Which steps come to nothing when an automaton is built, and which of them make the whole fail. A
state or an edge that is not taken leaves the graph as it is. A class whose pattern is no expression
is remembered besides, whatever is built after it; and only where its labels are states by then.
Building ends at a step that comes to a missing edge when it looks for the edge that it may repeat.
-/

namespace TokenGraph

/-! ### Labels -/

namespace Automaton

variable {m : Automaton} {label : Text} {role : Role}

def labels (m : Automaton) : List Text := m.names.map Prod.fst

theorem isSome_findLabel? : (m.findLabel? label).isSome = true ↔ label ∈ m.labels := by
  rw [findLabel?, Array.findIdx?_isSome, Array.any_eq_true', labels, names, List.map_map]
  simp

theorem mem_names_of_findState? (h : (m.findState? label role).isSome = true) :
    (label, role) ∈ m.names := by
  rw [findState?, Array.findIdx?_isSome, Array.any_eq_true] at h
  obtain ⟨s, hs, hname⟩ := h
  refine List.mem_map.mpr ⟨m.states[s], Array.mem_toList_iff.mpr (Array.getElem_mem hs), ?_⟩
  simpa [and_comm] using hname

/-- A state that is given up has its label there already. -/
theorem mem_labels_addState {added : State} (hrole : added.role ≠ .start) (l : Text) :
    l ∈ (m.addState added).labels ↔ l ∈ m.labels ∨ l = added.label := by
  rw [addState, if_neg hrole]
  split
  · next hfound =>
    have hmem : added.label ∈ m.labels := List.mem_map_of_mem (mem_names_of_findState? hfound)
    constructor
    · exact .inl
    · rintro (h | rfl)
      · exact h
      · exact hmem
  · simp [labels, names_pushState]

/-! ### States and edges that are not taken -/

/-- The state that a label stands for lists an edge of this label to that of another, wherever the
edge comes from. -/
def Lists (m : Automaton) (src label dst : Text) : Prop :=
  ∃ s t, m.findLabel? src = some s ∧ m.findLabel? dst = some t ∧
    ∃ e ∈ m.outgoing s, e.dst = t ∧ e.label = label

theorem lists_iff {src dst : Text} {s t : Nat} (hs : m.findLabel? src = some s)
    (ht : m.findLabel? dst = some t) :
    m.Lists src label dst ↔ ∃ e ∈ m.outgoing s, e.dst = t ∧ e.label = label := by
  rw [Lists, hs, ht]
  constructor
  · rintro ⟨_, _, ⟨⟩, ⟨⟩, hlisted⟩
    exact hlisted
  · exact fun hlisted => ⟨s, t, rfl, rfl, hlisted⟩

end Automaton

namespace Draft

section Steps

variable [PatternEngine] {d : Draft} {label : Text} {kind : EdgeKind}

theorem chars?_eq_none_iff :
    chars? label kind = none ↔ kind = .charClass ∧ CharClass.ofPattern? label = none := by
  cases kind <;> simp [chars?]

/-- The pattern that a step asks the draft to read in vain. The labels are looked up first. -/
def refusal? (d : Draft) : BuildStep → Option Text
  | .edge src label dst kind =>
    if (d.graph.findLabel? src).isSome ∧ (d.graph.findLabel? dst).isSome ∧
      chars? label kind = none then some label else none
  | .state _ | .literals _ => none

/-- The missing edge that a step comes to. The class is made first. -/
def absence? (d : Draft) : BuildStep → Option MissingEdge
  | .edge src label dst kind =>
    match d.graph.findLabel? src, d.graph.findLabel? dst, chars? label kind with
    | some s, some t, some chars => failure? (d.graph.checkedConnect s t label kind chars)
    | _, _, _ => none
  | .state _ | .literals _ => none

/-- The first refusal is kept, whatever comes later. -/
theorem apply_refused (d : Draft) (step : BuildStep) :
    (d.apply step).refused = d.refused.or (d.refusal? step) := by
  cases step with
  | state added => simp [apply, refusal?]
  | literals symbols => simp [apply, refusal?]
  | edge src label dst kind =>
    rw [apply, addEdge, refusal?]
    cases hsrc : d.graph.findLabel? src with
    | none => simp
    | some s =>
      cases hdst : d.graph.findLabel? dst with
      | none => simp
      | some t =>
        cases hchars : chars? label kind with
        | none => simp
        | some chars =>
          dsimp only
          split <;> simp

theorem apply_missing (d : Draft) (step : BuildStep) :
    (d.apply step).missing = d.missing.or (d.absence? step) := by
  cases step with
  | state added => simp [apply, absence?]
  | literals symbols => simp [apply, absence?]
  | edge src label dst kind =>
    rw [apply, addEdge, absence?]
    cases hsrc : d.graph.findLabel? src with
    | none => simp
    | some s =>
      cases hdst : d.graph.findLabel? dst with
      | none => simp
      | some t =>
        cases hchars : chars? label kind with
        | none => simp
        | some chars =>
          dsimp only
          split
          · next hgraph => simp [hgraph, failure?]
          · next hgraph => simp [hgraph, failure?]

theorem labels_addEdge (d : Draft) (src label dst : Text) (kind : EdgeKind) :
    (d.addEdge src label dst kind).graph.labels = d.graph.labels := by
  rcases d.graph_addEdge_cases src label dst kind with hsame | ⟨s, t, chars, hpushed, -⟩
  · rw [hsame]
  · rw [hpushed, Automaton.labels, Automaton.labels, Automaton.names_pushEdge]

/-- One of the labels of an edge is that of no state, or its pattern is no expression. -/
def Unfit (d : Draft) (src label dst : Text) (kind : EdgeKind) : Prop :=
  src ∉ d.graph.labels ∨ dst ∉ d.graph.labels ∨
    kind = .charClass ∧ CharClass.ofPattern? label = none

theorem unfit_iff {src dst : Text} : d.Unfit src label dst kind ↔
    d.graph.findLabel? src = none ∨ d.graph.findLabel? dst = none ∨ chars? label kind = none := by
  rw [Unfit, ← Automaton.isSome_findLabel?, ← Automaton.isSome_findLabel?, chars?_eq_none_iff,
    Option.not_isSome_iff_eq_none, Option.not_isSome_iff_eq_none]

theorem not_unfit_iff {src dst : Text} : ¬ d.Unfit src label dst kind ↔
    ∃ s t chars, d.graph.findLabel? src = some s ∧ d.graph.findLabel? dst = some t ∧
      chars? label kind = some chars := by
  simp [unfit_iff, Option.ne_none_iff_exists']

theorem absence?_eq_some_iff {step : BuildStep} {edge : MissingEdge} :
    d.absence? step = some edge ↔ ∃ src label dst kind, step = .edge src label dst kind ∧
      ¬ d.Unfit src label dst kind ∧ ¬ d.graph.Lists src label dst ∧
      ∃ s, d.graph.findLabel? src = some s ∧ (d.graph.listed s).missing = some edge := by
  cases step with
  | edge src label dst kind =>
    constructor
    · intro h
      rw [absence?] at h
      split at h
      · next s t chars hs ht hchars =>
        obtain ⟨hmissing, hnew⟩ :=
          Automaton.checkedConnect_eq_error_iff.mp (failure?_eq_some_iff.mp h)
        refine ⟨src, label, dst, kind, rfl, not_unfit_iff.mpr ⟨s, t, chars, hs, ht, hchars⟩, ?_,
          s, hs, hmissing⟩
        rw [Automaton.lists_iff hs ht]
        simpa using hnew
      · cases h
    · rintro ⟨_, _, _, _, ⟨⟩, hfit, hnew, s, hs, hmissing⟩
      obtain ⟨_, t, chars, hs', ht, hchars⟩ := not_unfit_iff.mp hfit
      cases hs.symm.trans hs'
      rw [Automaton.lists_iff hs ht] at hnew
      rw [absence?, hs, ht, hchars]
      refine failure?_eq_some_iff.mpr (Automaton.checkedConnect_eq_error_iff.mpr ⟨hmissing, ?_⟩)
      simpa using hnew
  | state added => simp [absence?]
  | literals symbols => simp [absence?]

/-- Right behind the steps in front comes an edge that is fit, and its source lists none of its
label to its target up to an edge that is missing. -/
def EndedBehind (steps front : List BuildStep) (edge : MissingEdge) : Prop :=
  ∃ src label dst kind back, steps = front ++ .edge src label dst kind :: back ∧
    ¬ (run front).Unfit src label dst kind ∧ ¬ (run front).graph.Lists src label dst ∧
    ∃ s, (run front).graph.findLabel? src = some s ∧
      ((run front).graph.listed s).missing = some edge

section First

variable {β : Type} {kept? : Draft → Option β} {fault? : Draft → BuildStep → Option β}
  {behind : List BuildStep → List BuildStep → β → Prop} (hnew : kept? {} = none)
  (hkeeps : ∀ d step, kept? (d.apply step) = (kept? d).or (fault? d step))
  (hbehind : ∀ steps front b, behind steps front b ↔
    ∃ step back, steps = front ++ step :: back ∧ fault? (run front) step = some b)

include hkeeps in
private theorem kept?_concat (steps : List BuildStep) (step : BuildStep) :
    kept? (run (steps ++ [step])) = (kept? (run steps)).or (fault? (run steps) step) := by
  rw [run_append]
  exact hkeeps (run steps) step

include hnew hkeeps hbehind

private theorem kept?_eq_none_iff {steps : List BuildStep} :
    kept? (run steps) = none ↔ ∀ front b, ¬ behind steps front b := by
  refine (scan_eq_none_iff (fun steps => kept? (run steps)) (fun front => fault? (run front)) hnew
    (kept?_concat hkeeps)).trans ?_
  simp only [hbehind, Option.eq_none_iff_forall_ne_some]
  constructor
  · rintro h front b ⟨step, back, hsteps, hfault⟩
    exact h front step back hsteps b hfault
  · intro h front step back hsteps b hfault
    exact h front b ⟨step, back, hsteps, hfault⟩

end First

private theorem endedBehind_iff (steps front : List BuildStep) (edge : MissingEdge) :
    EndedBehind steps front edge ↔
      ∃ step back, steps = front ++ step :: back ∧ (run front).absence? step = some edge := by
  constructor
  · rintro ⟨src, label, dst, kind, back, hsteps, hended⟩
    exact ⟨_, back, hsteps, absence?_eq_some_iff.mpr ⟨src, label, dst, kind, rfl, hended⟩⟩
  · rintro ⟨step, back, hsteps, habsence⟩
    obtain ⟨src, label, dst, kind, rfl, hended⟩ := absence?_eq_some_iff.mp habsence
    exact ⟨src, label, dst, kind, back, hsteps, hended⟩

theorem run_missing_eq_none_iff {steps : List BuildStep} :
    (run steps).missing = none ↔ ∀ front edge, ¬ EndedBehind steps front edge :=
  kept?_eq_none_iff rfl apply_missing endedBehind_iff

/-- States without edges list none that are missing. -/
theorem FreshStates.not_endedBehind {steps front : List BuildStep} {edge : MissingEdge}
    (h : FreshStates steps) : ¬ EndedBehind steps front edge := by
  rintro ⟨src, label, dst, kind, back, rfl, -, -, s, -, hmissing⟩
  rw [h.of_append.wellFormed.resolved.missing_eq_none s] at hmissing
  cases hmissing

theorem FreshStates.missing_eq_none {steps : List BuildStep} (h : FreshStates steps) :
    (run steps).missing = none :=
  run_missing_eq_none_iff.mpr fun _ _ => h.not_endedBehind

section Unended

variable {steps : List BuildStep} (hended : ∀ front edge, ¬ EndedBehind steps front edge)

include hended

end Unended

end Steps

end Draft

end TokenGraph
