import Mathlib.Data.List.Basic
import Mathlib.Data.List.Induction
import TokenGraph.Automaton.Build

/-!
# Growing a graph

What the edges that leave a state are after a state or an edge has been added, and what a building
step can do to a graph. The lists of a state hold numbers of edges, so nothing may be said before
all of them are known to exist.
-/

namespace TokenGraph

/-! ### Looking up edges -/

namespace Lookup

variable {α : Type} {l : Lookup} {find : List Edge → Option α} {result : Option α}

/-- A search fails only behind all the edges that are found. -/
theorem search_eq_ok_iff :
    l.search find = .ok result ↔ find l.found = result ∧ (l.missing = none ∨ result.isSome) := by
  rw [search]
  cases hfind : find l.found with
  | some a =>
    simp only [Except.ok.injEq]
    constructor
    · rintro rfl
      exact ⟨rfl, .inr rfl⟩
    · exact fun h => h.1
  | none =>
    cases l.missing with
    | none => simp
    | some edge =>
      simp only [reduceCtorEq, false_or, false_iff, not_and]
      rintro rfl
      simp

theorem search_eq_error_iff {edge : MissingEdge} :
    l.search find = .error edge ↔ find l.found = none ∧ l.missing = some edge := by
  rw [search]
  cases find l.found with
  | some a => simp
  | none => cases l.missing <;> simp

theorem search_eq_ok (h : l.missing = none) : l.search find = .ok (find l.found) :=
  search_eq_ok_iff.mpr ⟨rfl, .inl h⟩

end Lookup

namespace Automaton

variable {m : Automaton} {ids : List Nat} {s : Nat}

/-- What is looked up depends on the edges alone. -/
theorem lookUp_congr {m' : Automaton} (h : m.edges = m'.edges) (ids : List Nat) :
    m.lookUp ids = m'.lookUp ids := by
  induction ids with
  | nil => rfl
  | cons id ids ih => rw [lookUp, lookUp, edgeCount, edgeCount, h, ih]

theorem lookUp_eq (h : ∀ id ∈ ids, id < m.edges.size) :
    m.lookUp ids = ⟨ids.filterMap (m.edges[·]?), none⟩ := by
  induction ids with
  | nil => rfl
  | cons id ids ih =>
    have hlt : id < m.edges.size := h id List.mem_cons_self
    have hid : m.edges[id]? = some m.edges[id] := Array.getElem?_eq_getElem hlt
    rw [lookUp, ih fun i hi => h i (List.mem_cons_of_mem id hi), hid, List.filterMap_cons, hid]

theorem mem_found_iff (h : (m.lookUp ids).missing = none) {e : Edge} :
    e ∈ (m.lookUp ids).found ↔ ∃ id ∈ ids, m.edges[id]? = some e := by
  induction ids with
  | nil => simp [lookUp]
  | cons id ids ih =>
    rw [lookUp] at h ⊢
    cases hid : m.edges[id]? with
    | none => simp [hid] at h
    | some d =>
      rw [hid] at h
      simp only [List.mem_cons, exists_eq_or_imp, hid, Option.some.injEq, ih h]
      exact or_congr_left eq_comm

theorem mem_edges_of_mem_found {e : Edge} (h : e ∈ (m.lookUp ids).found) : e ∈ m.edges := by
  induction ids with
  | nil => simp [lookUp] at h
  | cons id ids ih =>
    rw [lookUp] at h
    cases hid : m.edges[id]? with
    | none => simp [hid] at h
    | some d =>
      rw [hid] at h
      rcases List.mem_cons.mp h with rfl | h
      · exact Array.mem_of_getElem? hid
      · exact ih h

theorem mem_edges_of_mem_outgoing {e : Edge} (h : e ∈ m.outgoing s) : e ∈ m.edges :=
  mem_edges_of_mem_found h

/-- Every edge that a state lists is there. -/
def Resolved (m : Automaton) : Prop :=
  ∀ (s : Nat) (state : State), m.states[s]? = some state → ∀ id ∈ state.outgoing, id < m.edges.size

theorem listed_of_none (h : m.states[s]? = none) : m.listed s = ⟨[], none⟩ := by
  rw [listed, h]
  rfl

theorem listed_of_some {state : State} (h : m.states[s]? = some state) :
    m.listed s = m.lookUp state.outgoing := by
  rw [listed, h]
  rfl

theorem outgoing_of_none (h : m.states[s]? = none) : m.outgoing s = [] := by
  rw [outgoing, listed_of_none h]

theorem Resolved.listed_eq {state : State} (hm : m.Resolved) (h : m.states[s]? = some state) :
    m.listed s = ⟨state.outgoing.filterMap (m.edges[·]?), none⟩ := by
  rw [listed_of_some h, lookUp_eq (hm s state h)]

theorem Resolved.missing_eq_none (hm : m.Resolved) (s : Nat) : (m.listed s).missing = none := by
  cases h : m.states[s]? with
  | none => rw [listed_of_none h]
  | some state => rw [hm.listed_eq h]

theorem listed_pushState (m : Automaton) (added : State) (s : Nat) :
    (m.pushState added).listed s =
      if s = m.stateCount then m.lookUp added.outgoing else m.listed s := by
  rw [listed, listed, pushState, Array.getElem?_push, stateCount]
  split <;> exact lookUp_congr (by rfl) _

theorem pushState_states (m : Automaton) (added : State) (s : Nat) :
    (m.pushState added).states[s]? =
      if s = m.stateCount then some added else m.states[s]? := by
  rw [pushState, Array.getElem?_push, stateCount]

def role? (m : Automaton) (s : Nat) : Option Role := m.states[s]?.map State.role

theorem isAccepting_iff (m : Automaton) (s : Nat) :
    m.isAccepting s = true ↔ m.role? s = some .accepting := by
  rw [isAccepting, role?]
  cases m.states[s]? <;> simp [State.isAccepting]

theorem isError_iff (m : Automaton) (s : Nat) : m.isError s = true ↔ m.role? s = some .error := by
  rw [isError, role?]
  cases m.states[s]? <;> simp [State.isError]

theorem role?_pushState (m : Automaton) (added : State) (s : Nat) :
    (m.pushState added).role? s = if s = m.stateCount then some added.role else m.role? s := by
  rw [role?, pushState_states]
  split <;> rfl

/-- A state without edges adds none. -/
theorem outgoing_pushState (m : Automaton) {added : State} (h : added.outgoing = []) (s : Nat) :
    (m.pushState added).outgoing s = m.outgoing s := by
  rw [outgoing, listed_pushState]
  split
  · next hs =>
    have hnone : m.states[s]? = none := by simp [hs, stateCount]
    rw [outgoing_of_none hnone, h]
    rfl
  · rfl

theorem Resolved.pushState {added : State} (hm : m.Resolved) (h : added.outgoing = []) :
    (m.pushState added).Resolved := by
  intro s state hstate id hid
  rw [pushState_states] at hstate
  split at hstate
  · cases hstate
    simp [h] at hid
  · exact hm s state hstate id hid

def setRole (m : Automaton) (t : Nat) (role : Role) : Automaton :=
  { m with states := m.states.modify t fun state => { state with role } }

theorem role?_setRole (m : Automaton) {t : Nat} (ht : t < m.states.size) (role : Role) (s : Nat) :
    (m.setRole t role).role? s = if s = t then some role else m.role? s := by
  rw [role?, setRole, Array.getElem?_modify]
  by_cases hs : s = t
  · simp [hs, ht]
  · rw [if_neg (Ne.symm hs), if_neg hs]
    rfl

theorem outgoing_setRole (m : Automaton) (t : Nat) (role : Role) (s : Nat) :
    (m.setRole t role).outgoing s = m.outgoing s := by
  have hlists : (m.setRole t role).states[s]?.map State.outgoing =
      m.states[s]?.map State.outgoing := by
    rw [setRole, Array.getElem?_modify]
    split
    · rw [Option.map_map]
      rfl
    · rfl
  rw [outgoing, outgoing, listed, listed, hlists]
  exact congrArg Lookup.found (lookUp_congr (by rfl) _)

theorem Resolved.setRole (h : m.Resolved) (t : Nat) (role : Role) :
    (m.setRole t role).Resolved := by
  intro s state hstate id hid
  rw [Automaton.setRole, Array.getElem?_modify] at hstate
  split at hstate
  · obtain ⟨old, hold, rfl⟩ := Option.map_eq_some_iff.mp hstate
    exact h s old hold id hid
  · exact h s state hstate id hid

private theorem filterMap_push (edges : Array Edge) (e : Edge) {ids : List Nat}
    (h : ∀ id ∈ ids, id < edges.size) :
    ids.filterMap ((edges.push e)[·]?) = ids.filterMap (edges[·]?) := by
  apply List.filterMap_congr
  intro id hid
  rw [Array.getElem?_push, if_neg (Nat.ne_of_lt (h id hid))]

section Edges

variable {src dst : Nat} {label : Text} {kind : EdgeKind} {chars : Option CharClass}

/-- The states that an edge is added to: its source lists it last, and its target as one that
comes in. -/
theorem pushEdge_states (m : Automaton) (src dst : Nat) (label : Text) (kind : EdgeKind)
    (chars : Option CharClass) (s : Nat) :
    (m.pushEdge src dst label kind chars).states[s]? = m.states[s]?.map fun state => { state with
      outgoing := if s = src then state.outgoing ++ [m.edges.size] else state.outgoing
      incoming := if s = dst then state.incoming ++ [m.edges.size] else state.incoming } := by
  simp only [pushEdge, Array.getElem?_modify]
  cases m.states[s]? with
  | none => simp
  | some state =>
    by_cases hdst : dst = s <;> by_cases hsrc : src = s <;>
      simp [hdst, hsrc, Ne.symm]

theorem Resolved.pushEdge (hm : m.Resolved) (src dst : Nat) (label : Text) (kind : EdgeKind)
    (chars : Option CharClass) : (m.pushEdge src dst label kind chars).Resolved := by
  intro s state hstate id hid
  rw [pushEdge_states] at hstate
  rw [Automaton.pushEdge, Array.size_push]
  obtain ⟨old, hold, rfl⟩ := Option.map_eq_some_iff.mp hstate
  have hids := hm s old hold
  split at hid
  · rcases List.mem_append.mp hid with hid | hid
    · exact Nat.lt_succ_of_lt (hids id hid)
    · rw [List.mem_singleton] at hid
      omega
  · exact Nat.lt_succ_of_lt (hids id hid)

/-- A new edge leaves its source behind all edges that were there. -/
theorem outgoing_pushEdge (hm : m.Resolved) (hsrc : src < m.states.size) (s : Nat) :
    (m.pushEdge src dst label kind chars).outgoing s = m.outgoing s ++
      if s = src then [⟨m.edges.size, src, dst, label, kind, chars⟩] else [] := by
  have hpushed := hm.pushEdge src dst label kind chars
  cases hstate : m.states[s]? with
  | none =>
    have hs : s ≠ src := by
      rintro rfl
      simp [hsrc] at hstate
    have hnone : (m.pushEdge src dst label kind chars).states[s]? = none := by
      rw [pushEdge_states, hstate]
      rfl
    rw [outgoing_of_none hstate, outgoing_of_none hnone, if_neg hs]
    rfl
  | some state =>
    have hids := hm s state hstate
    have hnew := pushEdge_states m src dst label kind chars s
    rw [hstate, Option.map_some] at hnew
    rw [outgoing, outgoing, hpushed.listed_eq hnew, hm.listed_eq hstate, Automaton.pushEdge]
    by_cases hs : s = src
    · simp [hs, List.filterMap_append, filterMap_push _ _ hids]
    · simp [hs, filterMap_push _ _ hids]

/-! An edge is added where none of its label joins the two states. -/

theorem connect_of_new (hnew : ∀ e ∈ m.outgoing src, ¬ (e.dst = dst ∧ e.label = label)) :
    m.connect src dst label kind chars = m.pushEdge src dst label kind chars := by
  have hany : ((m.outgoing src).any fun e => e.dst = dst && e.label = label) = false := by
    simpa [List.any_eq_false] using hnew
  rw [connect, hany]
  rfl

theorem connect_of_present (h : ¬ ∀ e ∈ m.outgoing src, ¬ (e.dst = dst ∧ e.label = label)) :
    m.connect src dst label kind chars = m := by
  have hany : ((m.outgoing src).any fun e => e.dst = dst && e.label = label) = true := by
    simpa using h
  rw [connect, if_pos hany]

/-- An edge that is added in spite of a missing one is there already. -/
theorem checkedConnect_eq_ok_iff {m' : Automaton} :
    m.checkedConnect src dst label kind chars = .ok m' ↔
      m' = m.connect src dst label kind chars ∧ ((m.listed src).missing = none ∨
        ∃ e ∈ m.outgoing src, e.dst = dst ∧ e.label = label) := by
  have hsome : ((m.outgoing src).find? fun e => e.dst = dst && e.label = label).isSome ↔
      ∃ e ∈ m.outgoing src, e.dst = dst ∧ e.label = label := by
    simp
  have hconnect : m.connect src dst label kind chars =
      if ((m.outgoing src).find? fun e => e.dst = dst && e.label = label).isSome then m
      else m.pushEdge src dst label kind chars := by
    rw [connect, List.isSome_find?]
  rw [hconnect, ← hsome, checkedConnect]
  cases hsearch : (m.listed src).search fun edges =>
      edges.find? fun e => e.dst = dst && e.label = label with
  | ok found =>
    obtain ⟨rfl, hfound⟩ := Lookup.search_eq_ok_iff.mp hsearch
    constructor
    · rintro ⟨⟩
      exact ⟨rfl, hfound⟩
    · rintro ⟨rfl, -⟩
      rfl
  | error edge =>
    constructor
    · rintro ⟨⟩
    · rintro ⟨-, hfound⟩
      rw [Lookup.search_eq_ok_iff.mpr ⟨rfl, hfound⟩] at hsearch
      cases hsearch

/-- An edge joins two states at most once under one label, as far as the list of the first tells. -/
theorem checkedConnect_cases {m' : Automaton}
    (h : m.checkedConnect src dst label kind chars = .ok m') :
    m' = m ∨ m' = m.pushEdge src dst label kind chars ∧ (m.listed src).missing = none ∧
      ∀ e ∈ m.outgoing src, ¬ (e.dst = dst ∧ e.label = label) := by
  obtain ⟨rfl, hfound⟩ := checkedConnect_eq_ok_iff.mp h
  by_cases hnew : ∀ e ∈ m.outgoing src, ¬ (e.dst = dst ∧ e.label = label)
  · refine .inr ⟨connect_of_new hnew, hfound.resolve_right ?_, hnew⟩
    rintro ⟨e, he, hsame⟩
    exact hnew e he hsame
  · exact .inl (connect_of_present hnew)

theorem checkedConnect_eq_error_iff {edge : MissingEdge} :
    m.checkedConnect src dst label kind chars = .error edge ↔
      (m.listed src).missing = some edge ∧
        ∀ e ∈ m.outgoing src, ¬ (e.dst = dst ∧ e.label = label) := by
  have hsearch : m.checkedConnect src dst label kind chars = .error edge ↔
      ((m.listed src).search fun edges => edges.find? fun e => e.dst = dst && e.label = label) =
        .error edge := by
    rw [checkedConnect]
    cases (m.listed src).search fun edges =>
        edges.find? fun e => e.dst = dst && e.label = label with
    | ok found => exact iff_of_false nofun nofun
    | error missing =>
      constructor <;>
        · rintro ⟨⟩
          rfl
  rw [hsearch, Lookup.search_eq_error_iff, and_comm]
  simp [outgoing]

theorem Resolved.checkedConnect_eq (hm : m.Resolved) :
    m.checkedConnect src dst label kind chars = .ok (m.connect src dst label kind chars) :=
  checkedConnect_eq_ok_iff.mpr ⟨rfl, .inl (hm.missing_eq_none src)⟩

theorem connect_states (hnew : ∀ e ∈ m.outgoing src, ¬ (e.dst = dst ∧ e.label = label)) (s : Nat) :
    (m.connect src dst label kind chars).states[s]? = m.states[s]?.map fun state => { state with
      outgoing := if s = src then state.outgoing ++ [m.edges.size] else state.outgoing
      incoming := if s = dst then state.incoming ++ [m.edges.size] else state.incoming } := by
  rw [connect_of_new hnew, pushEdge_states]

theorem connect_size : (m.connect src dst label kind chars).states.size = m.states.size := by
  rw [connect]
  split <;> simp [pushEdge]

theorem connect_edges (hnew : ∀ e ∈ m.outgoing src, ¬ (e.dst = dst ∧ e.label = label)) :
    (m.connect src dst label kind chars).edges =
      m.edges.push ⟨m.edges.size, src, dst, label, kind, chars⟩ := by
  rw [connect_of_new hnew, pushEdge]

theorem role?_connect (hnew : ∀ e ∈ m.outgoing src, ¬ (e.dst = dst ∧ e.label = label)) (s : Nat) :
    (m.connect src dst label kind chars).role? s = m.role? s := by
  rw [role?, connect_states hnew, Option.map_map]
  rfl

theorem outgoing_connect (hm : m.Resolved) (hsrc : src < m.states.size)
    (hnew : ∀ e ∈ m.outgoing src, ¬ (e.dst = dst ∧ e.label = label)) (s : Nat) :
    (m.connect src dst label kind chars).outgoing s = m.outgoing s ++
      if s = src then [⟨m.edges.size, src, dst, label, kind, chars⟩] else [] := by
  rw [connect_of_new hnew, outgoing_pushEdge hm hsrc]

theorem Resolved.connect (hm : m.Resolved)
    (hnew : ∀ e ∈ m.outgoing src, ¬ (e.dst = dst ∧ e.label = label)) :
    (m.connect src dst label kind chars).Resolved := by
  rw [connect_of_new hnew]
  exact hm.pushEdge src dst label kind chars

end Edges

/-- A state is given up or comes behind all others. -/
theorem addState_cases (m : Automaton) (added : State) :
    m.addState added = m ∨ m.addState added = m.pushState added ∧ added.role ≠ .start ∧
      ¬ (m.findState? added.label added.role).isSome := by
  rw [addState]
  split
  · exact .inl rfl
  · next hrole =>
    split
    · exact .inl rfl
    · next hfound => exact .inr ⟨rfl, hrole, hfound⟩

end Automaton

/-! ### Building steps -/

namespace Draft

theorem finish_eq_ok_iff {d : Draft} {m : Automaton} :
    d.finish = .ok m ↔ d.missing = none ∧ d.refused = none ∧ m = d.graph := by
  rw [finish]
  cases d.missing with
  | some edge => simp
  | none => cases d.refused <;> simp [eq_comm]

variable [PatternEngine]

theorem build_eq_ok {steps : List BuildStep} (hmissing : (run steps).missing = none)
    (hrefused : (run steps).refused = none) : Automaton.build steps = .ok (run steps).graph :=
  finish_eq_ok_iff.mpr ⟨hmissing, hrefused, rfl⟩

theorem run_append (steps later : List BuildStep) :
    run (steps ++ later) = later.foldl apply (run steps) :=
  List.foldl_append

/-- An edge is given up or comes behind all others, between the states that its labels stand for. -/
theorem graph_addEdge_cases (d : Draft) (src label dst : Text) (kind : EdgeKind) :
    (d.addEdge src label dst kind).graph = d.graph ∨
      ∃ s t chars, (d.addEdge src label dst kind).graph = d.graph.pushEdge s t label kind chars ∧
        d.graph.findLabel? src = some s ∧ d.graph.findLabel? dst = some t ∧
        chars? label kind = some chars ∧ (d.graph.listed s).missing = none ∧
        ∀ e ∈ d.graph.outgoing s, ¬ (e.dst = t ∧ e.label = label) := by
  rw [addEdge]
  split
  · next s t hs ht =>
    split
    · next chars hchars =>
      split
      · next graph hgraph =>
        rcases Automaton.checkedConnect_cases hgraph with hsame | ⟨hpushed, hlooked, hnew⟩
        · exact .inl hsame
        · exact .inr ⟨s, t, chars, hpushed, hs, ht, hchars, hlooked, hnew⟩
      · exact .inl rfl
    · exact .inl rfl
  · exact .inl rfl

/-- Unless there are symbols among the steps, every edge comes from a step of its label and kind,
and has the class that its label gives. -/
theorem exists_edge_step {steps : List BuildStep} (hsteps : ∀ symbols, .literals symbols ∉ steps)
    {e : Edge} (he : e ∈ (run steps).graph.edges) :
    chars? e.label e.kind = some e.chars ∧
      ∃ front src dst back, steps = front ++ .edge src e.label dst e.kind :: back ∧
        (run front).graph.findLabel? src = some e.src ∧
        (run front).graph.findLabel? dst = some e.dst := by
  induction steps using List.reverseRecOn with
  | nil => simp [run, Automaton.initial] at he
  | append_singleton steps step ih =>
    have hold : e ∈ (run steps).graph.edges → chars? e.label e.kind = some e.chars ∧
        ∃ front src dst back, steps ++ [step] = front ++ .edge src e.label dst e.kind :: back ∧
          (run front).graph.findLabel? src = some e.src ∧
          (run front).graph.findLabel? dst = some e.dst := by
      intro he
      have hfront : ∀ symbols, .literals symbols ∉ steps := by
        intro symbols hmem
        exact hsteps symbols (List.mem_append_left _ hmem)
      obtain ⟨hchars, front, src, dst, back, rfl, hsrc, hdst⟩ := ih hfront he
      exact ⟨hchars, front, src, dst, back ++ [step], by simp, hsrc, hdst⟩
    rw [run_append] at he
    change e ∈ ((run steps).apply step).graph.edges at he
    cases step with
    | literals symbols => exact absurd (by simp) (hsteps symbols)
    | state added =>
      apply hold
      rcases (run steps).graph.addState_cases added with hsame | ⟨hpushed, -⟩
      · rwa [apply, hsame] at he
      · rwa [apply, hpushed] at he
    | edge src label dst kind =>
      rw [apply] at he
      rcases (run steps).graph_addEdge_cases src label dst kind with
        hsame | ⟨s, t, chars, hpushed, hs, ht, hchars, -⟩
      · rw [hsame] at he
        exact hold he
      · rw [hpushed, Automaton.pushEdge, Array.mem_push] at he
        rcases he with he | rfl
        · exact hold he
        · exact ⟨hchars, steps, src, dst, [], rfl, hs, ht⟩

end Draft

end TokenGraph
