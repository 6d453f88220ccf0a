import Mathlib.Data.List.Nodup
import TokenGraph.Pattern.Parser
import TokenGraph.Proofs.Trie

/-!
# Well-formed graphs

What holds of a graph after any building steps: one start, no two states of the same label and
role, edges numbered as they came, and no two edges of the same ends and label. An edge is listed at
both of its ends, behind what the lists of the states held when these were added. Every step keeps
this, and those that do not begin a new graph only append to the old one. In a well-formed graph all
states were added without edges, and no edge is listed elsewhere.
-/

namespace TokenGraph

namespace Automaton

/-- The states by what tells them apart. -/
def names (m : Automaton) : List (Text × Role) :=
  m.states.toList.map fun state => (state.label, state.role)

/-- The numbers of the edges that have a state on one of their sides. -/
def edgesAt (m : Automaton) (side : Edge → Nat) (s : Nat) : List Nat :=
  (m.edges.toList.filter fun e => side e = s).map Edge.id

/-- The lists of the states are accounted for by what they held at first, which is given, and by the
edges that joined since. -/
structure Accounted (m : Automaton) (outs ins : Nat → List Nat) : Prop where
  begins : m.names.head? = some (startLabel, .start)
  onlyStart : ∀ label, (label, .start) ∈ m.names → label = startLabel
  distinct : m.names.Nodup
  numbered : m.edges.toList.map Edge.id = List.range m.edgeCount
  inside : ∀ e ∈ m.edges, e.src < m.stateCount ∧ e.dst < m.stateCount
  single : (m.edges.toList.map fun e => (e.src, e.dst, e.label)).Nodup
  classed : ∀ e ∈ m.edges, e.chars.isSome = true ↔ e.kind = .charClass
  outgoing : ∀ (s : Nat) (state : State), m.states[s]? = some state →
    state.outgoing = outs s ++ m.edgesAt Edge.src s
  incoming : ∀ (s : Nat) (state : State), m.states[s]? = some state →
    state.incoming = ins s ++ m.edgesAt Edge.dst s

/-- No state was given anything. -/
abbrev WellFormed (m : Automaton) : Prop := m.Accounted (fun _ => []) (fun _ => [])

/-- The states and edges of one graph stand in front of those of the other. -/
def Extends (m m' : Automaton) : Prop :=
  m.names <+: m'.names ∧ m.edges.toList <+: m'.edges.toList

variable {m : Automaton} {outs ins : Nat → List Nat} {s t : Nat} {label : Text} {role : Role}
  {e : Edge}

/-! ### Names -/

theorem names_getElem? (m : Automaton) (s : Nat) :
    m.names[s]? = m.states[s]?.map fun state => (state.label, state.role) := by
  rw [names, List.getElem?_map, Array.getElem?_toList]

theorem role?_eq_names (m : Automaton) (s : Nat) : m.role? s = m.names[s]?.map Prod.snd := by
  rw [role?, names_getElem?, Option.map_map]
  rfl

theorem length_names (m : Automaton) : m.names.length = m.stateCount := by
  rw [names, List.length_map, Array.length_toList, stateCount]

theorem names_pushState (m : Automaton) (added : State) :
    (m.pushState added).names = m.names ++ [(added.label, added.role)] := by
  rw [names, pushState, Array.toList_push, List.map_append]
  rfl

theorem names_setRole {old : Role} (ht : m.names[t]? = some (label, old)) (role : Role) :
    (m.setRole t role).names = m.names.set t (label, role) := by
  have hlt : t < m.names.length := (List.getElem?_eq_some_iff.mp ht).1
  apply List.ext_getElem?
  intro s
  rw [names_getElem?, setRole, Array.getElem?_modify, List.getElem?_set, names_getElem?]
  split
  · next hs =>
    subst hs
    rw [names_getElem?] at ht
    obtain ⟨state, hstate, hname⟩ := Option.map_eq_some_iff.mp ht
    cases hname
    simp [hstate]
  · rfl

theorem names_pushEdge (m : Automaton) (src dst : Nat) (label : Text) (kind : EdgeKind)
    (chars : Option CharClass) : (m.pushEdge src dst label kind chars).names = m.names := by
  apply List.ext_getElem?
  intro s
  rw [names_getElem?, names_getElem?, pushEdge_states, Option.map_map]
  rfl

theorem names_connect (m : Automaton) (src dst : Nat) (label : Text) (kind : EdgeKind)
    (chars : Option CharClass) : (m.connect src dst label kind chars).names = m.names := by
  by_cases hnew : ∀ e ∈ m.outgoing src, ¬ (e.dst = dst ∧ e.label = label)
  · rw [connect_of_new hnew, names_pushEdge]
  · rw [connect_of_present hnew]

/-- Where no two states have one name, a state is found by its own. -/
theorem findState?_eq_some_iff (h : m.names.Nodup) :
    m.findState? label role = some s ↔ m.names[s]? = some (label, role) := by
  have hname : ∀ {i} (hi : i < m.states.size), m.names[i]? = some (label, role) ↔
      (m.states[i].role = role && m.states[i].label = label) = true := by
    intro i hi
    simp [names_getElem?, hi, and_comm]
  rw [findState?, Array.findIdx?_eq_some_iff_getElem]
  constructor
  · rintro ⟨hs, hfound, -⟩
    exact (hname hs).mpr hfound
  · intro hs
    have hlt : s < m.names.length := (List.getElem?_eq_some_iff.mp hs).1
    have hsize : s < m.states.size := by rwa [length_names] at hlt
    refine ⟨hsize, (hname hsize).mp hs, ?_⟩
    intro j hj hfound
    have hj' := (hname (Nat.lt_trans hj hsize)).mpr hfound
    exact Nat.ne_of_gt hj ((List.getElem?_inj hlt h).mp (hs.trans hj'.symm))

theorem not_mem_names_of_findState? (h : ¬ (m.findState? label role).isSome = true) :
    (label, role) ∉ m.names := by
  rw [Bool.not_eq_true, Option.isSome_eq_false_iff, Option.isNone_iff_eq_none, findState?,
    Array.findIdx?_eq_none_iff] at h
  intro hmem
  obtain ⟨state, hstate, hname⟩ := List.mem_map.mp hmem
  have hother := h state (Array.mem_toList_iff.mp hstate)
  cases hname
  simp at hother

theorem lt_of_findLabel? (h : m.findLabel? label = some s) : s < m.stateCount := by
  rw [findLabel?, Array.findIdx?_eq_some_iff_getElem] at h
  exact h.1

/-! ### Edges -/

namespace Accounted

theorem isStart_iff (h : m.Accounted outs ins) (hs : m.names[s]? = some (label, role)) :
    role = .start ↔ s = start := by
  have hbegins : m.names[start]? = some (startLabel, .start) :=
    List.head?_eq_getElem?.symm.trans h.begins
  constructor
  · rintro rfl
    have hlabel := h.onlyStart label (List.mem_of_getElem? hs)
    have hlt := (List.getElem?_eq_some_iff.mp hs).1
    exact (List.getElem?_inj hlt h.distinct).mp (by rw [hs, hbegins, hlabel])
  · rintro rfl
    cases hs.symm.trans hbegins
    rfl

theorem id_eq (h : m.Accounted outs ins) {i : Nat} (he : m.edges[i]? = some e) : e.id = i := by
  have hid : (m.edges.toList.map Edge.id)[i]? = some e.id := by
    rw [List.getElem?_map, Array.getElem?_toList, he]
    rfl
  rw [h.numbered] at hid
  obtain ⟨hi, hid⟩ := List.getElem?_eq_some_iff.mp hid
  rw [← hid, List.getElem_range]

theorem getElem?_id (h : m.Accounted outs ins) (he : e ∈ m.edges) : m.edges[e.id]? = some e := by
  obtain ⟨i, hi⟩ := Array.mem_iff_getElem?.mp he
  rwa [h.id_eq hi]

theorem edgesAt_of_le (h : m.Accounted outs ins) (hs : m.stateCount ≤ s) :
    m.edgesAt Edge.src s = [] ∧ m.edgesAt Edge.dst s = [] := by
  have hnone : ∀ {side : Edge → Nat}, (∀ e ∈ m.edges, side e < m.stateCount) →
      m.edgesAt side s = [] := by
    intro side hside
    rw [edgesAt, List.map_eq_nil_iff, List.filter_eq_nil_iff]
    intro e he
    have := hside e (Array.mem_toList_iff.mp he)
    simp only [decide_eq_true_eq]
    omega
  exact ⟨hnone fun e he => (h.inside e he).1, hnone fun e he => (h.inside e he).2⟩

/-- A state lists the edges that leave it among those that it was added with. -/
theorem mem_outgoing_of_mem (h : m.Accounted outs ins) (he : e ∈ m.edges)
    (hlooked : (m.listed e.src).missing = none) : e ∈ m.outgoing e.src := by
  have hlt : e.src < m.states.size := (h.inside e he).1
  have hstate : m.states[e.src]? = some m.states[e.src] := Array.getElem?_eq_getElem hlt
  have hid : e.id ∈ m.edgesAt Edge.src e.src :=
    List.mem_map.mpr ⟨e, List.mem_filter.mpr ⟨Array.mem_toList_iff.mpr he, decide_eq_true rfl⟩, rfl⟩
  rw [listed_of_some hstate] at hlooked
  rw [Automaton.outgoing, listed_of_some hstate, mem_found_iff hlooked, h.outgoing _ _ hstate]
  exact ⟨e.id, List.mem_append_right _ hid, h.getElem?_id he⟩

/-- The list of a side holds the number of an edge once at the state that the edge has there, and
nowhere else. -/
theorem count_edgesAt (h : m.Accounted outs ins) {i : Nat} (he : m.edges[i]? = some e)
    (side : Edge → Nat) (s : Nat) : (m.edgesAt side s).count i = if s = side e then 1 else 0 := by
  have hnodup : (m.edgesAt side s).Nodup := by
    refine List.Nodup.sublist ?_ (List.nodup_range (n := m.edgeCount))
    rw [← h.numbered]
    exact List.filter_sublist.map Edge.id
  have hmem : i ∈ m.edgesAt side s ↔ side e = s := by
    rw [edgesAt, List.mem_map]
    constructor
    · rintro ⟨d, hd, hid⟩
      obtain ⟨hd, hside⟩ := List.mem_filter.mp hd
      have hsame := h.getElem?_id (Array.mem_toList_iff.mp hd)
      rw [hid, he] at hsame
      cases hsame
      exact of_decide_eq_true hside
    · intro hside
      have hmem := Array.mem_toList_iff.mpr (Array.mem_of_getElem? he)
      exact ⟨e, List.mem_filter.mpr ⟨hmem, decide_eq_true hside⟩, h.id_eq he⟩
  rw [hnodup.count]
  simp only [hmem, eq_comm]

/-- The numbers in the lists of a state ascend, and are numbers of edges. -/
theorem edgesAt_ascend (h : m.Accounted outs ins) (side : Edge → Nat) (s : Nat) :
    (m.edgesAt side s).Pairwise (· < ·) ∧ ∀ i ∈ m.edgesAt side s, i < m.edgeCount := by
  have hsub : (m.edgesAt side s).Sublist (List.range m.edgeCount) := by
    rw [← h.numbered]
    exact List.filter_sublist.map Edge.id
  exact ⟨List.pairwise_lt_range.sublist hsub, fun i hi => List.mem_range.mp (hsub.subset hi)⟩

/-! ### Growing -/

theorem pushState (h : m.Accounted outs ins) {added : State} (hrole : added.role ≠ .start)
    (hnew : (added.label, added.role) ∉ m.names) :
    (m.pushState added).Accounted (Function.update outs m.stateCount added.outgoing)
      (Function.update ins m.stateCount added.incoming) := by
  have hlists : ∀ {side : Edge → Nat} {list : State → List Nat} {given : Nat → List Nat},
      m.edgesAt side m.stateCount = [] →
      (∀ s state, m.states[s]? = some state → list state = given s ++ m.edgesAt side s) →
      ∀ s state, (m.pushState added).states[s]? = some state →
        list state = Function.update given m.stateCount (list added) s ++
          (m.pushState added).edgesAt side s := by
    intro side list given hnone hlist s state hstate
    rw [pushState_states] at hstate
    split at hstate
    · next hs =>
      cases hstate
      subst hs
      have hsame : (m.pushState added).edgesAt side m.stateCount = [] := hnone
      rw [Function.update_self, hsame, List.append_nil]
    · next hs =>
      rw [Function.update_of_ne hs]
      exact hlist s state hstate
  obtain ⟨hnoSrc, hnoDst⟩ := h.edgesAt_of_le (Nat.le_refl m.stateCount)
  constructor
  case begins =>
    rw [names_pushState, List.head?_append, h.begins]
    rfl
  case onlyStart =>
    intro label hmem
    rw [names_pushState, List.mem_append, List.mem_singleton] at hmem
    refine h.onlyStart label (hmem.resolve_right ?_)
    intro hname
    exact hrole (congrArg Prod.snd hname).symm
  case distinct =>
    rw [names_pushState, ← List.concat_eq_append]
    exact h.distinct.concat hnew
  case numbered => exact h.numbered
  case inside =>
    intro e he
    have := h.inside e he
    simp only [stateCount, Automaton.pushState, Array.size_push] at *
    omega
  case single => exact h.single
  case classed => exact h.classed
  case outgoing => exact hlists hnoSrc h.outgoing
  case incoming => exact hlists hnoDst h.incoming

/-- The list of the source has to be looked through for an edge of the same label. -/
theorem pushEdge (h : m.Accounted outs ins) {src dst : Nat} {kind : EdgeKind}
    {chars : Option CharClass} (hsrc : src < m.stateCount) (hdst : dst < m.stateCount)
    (hchars : chars.isSome = true ↔ kind = .charClass) (hlooked : (m.listed src).missing = none)
    (hnew : ∀ e ∈ m.outgoing src, ¬ (e.dst = dst ∧ e.label = label)) :
    (m.pushEdge src dst label kind chars).Accounted outs ins := by
  have hedges : (m.pushEdge src dst label kind chars).edges.toList =
      m.edges.toList ++ [⟨m.edges.size, src, dst, label, kind, chars⟩] := by
    rw [Automaton.pushEdge, Array.toList_push]
  have hmem : ∀ e ∈ (m.pushEdge src dst label kind chars).edges,
      e ∈ m.edges ∨ e = ⟨m.edges.size, src, dst, label, kind, chars⟩ := by
    intro e he
    rwa [Automaton.pushEdge, Array.mem_push] at he
  have hedgesAt : ∀ side s, (m.pushEdge src dst label kind chars).edgesAt side s =
      m.edgesAt side s ++
        if side ⟨m.edges.size, src, dst, label, kind, chars⟩ = s then [m.edges.size] else [] := by
    intro side s
    rw [edgesAt, hedges, List.filter_append, List.map_append, ← edgesAt, List.filter_singleton]
    by_cases hside : side ⟨m.edges.size, src, dst, label, kind, chars⟩ = s <;> simp [hside]
  have hsize : (m.pushEdge src dst label kind chars).stateCount = m.stateCount := by
    simp [stateCount, Automaton.pushEdge]
  constructor
  case begins =>
    rw [names_pushEdge]
    exact h.begins
  case onlyStart =>
    rw [names_pushEdge]
    exact h.onlyStart
  case distinct =>
    rw [names_pushEdge]
    exact h.distinct
  case numbered =>
    rw [hedges, List.map_append, h.numbered, edgeCount, edgeCount, Automaton.pushEdge,
      Array.size_push, List.range_succ]
    rfl
  case inside =>
    intro e he
    rw [hsize]
    rcases hmem e he with he | rfl
    · exact h.inside e he
    · exact ⟨hsrc, hdst⟩
  case single =>
    rw [hedges, List.map_append, List.map_singleton, ← List.concat_eq_append]
    refine h.single.concat ?_
    intro hpresent
    obtain ⟨e, he, heq⟩ := List.mem_map.mp hpresent
    obtain ⟨rfl, hsame⟩ := Prod.mk.inj heq
    exact hnew e (h.mem_outgoing_of_mem (Array.mem_toList_iff.mp he) hlooked) (Prod.mk.inj hsame)
  case classed =>
    intro e he
    rcases hmem e he with he | rfl
    · exact h.classed e he
    · exact hchars
  case outgoing =>
    intro s state hstate
    rw [pushEdge_states] at hstate
    obtain ⟨old, hold, rfl⟩ := Option.map_eq_some_iff.mp hstate
    rw [hedgesAt, ← List.append_assoc, ← h.outgoing s old hold]
    by_cases hs : s = src <;> simp [hs, Ne.symm]
  case incoming =>
    intro s state hstate
    rw [pushEdge_states] at hstate
    obtain ⟨old, hold, rfl⟩ := Option.map_eq_some_iff.mp hstate
    rw [hedgesAt, ← List.append_assoc, ← h.incoming s old hold]
    by_cases hs : s = dst <;> simp [hs, Ne.symm]

/-- The role of a state may change where no other state has its label and the new role. -/
theorem setRole (h : m.Accounted outs ins) {old : Role} (ht : m.names[t]? = some (label, old))
    (hstart : t ≠ start) (hrole : role ≠ .start)
    (hnew : ∀ s, m.names[s]? = some (label, role) → s = t) :
    (m.setRole t role).Accounted outs ins := by
  have hlists : ∀ (s : Nat) (state : State), (m.setRole t role).states[s]? = some state →
      ∃ before, m.states[s]? = some before ∧ state.outgoing = before.outgoing ∧
        state.incoming = before.incoming := by
    intro s state hstate
    rw [Automaton.setRole, Array.getElem?_modify] at hstate
    split at hstate
    · obtain ⟨before, hbefore, rfl⟩ := Option.map_eq_some_iff.mp hstate
      exact ⟨before, hbefore, rfl, rfl⟩
    · exact ⟨state, hstate, rfl, rfl⟩
  constructor
  case begins =>
    have hother : (m.names.set t (label, role))[0]? = m.names[0]? := List.getElem?_set_ne hstart
    rw [names_setRole ht, List.head?_eq_getElem?, hother, ← List.head?_eq_getElem?]
    exact h.begins
  case onlyStart =>
    intro label' hmem
    rw [names_setRole ht] at hmem
    rcases List.mem_or_eq_of_mem_set hmem with hmem | heq
    · exact h.onlyStart label' hmem
    · cases heq
      exact absurd rfl hrole
  case distinct =>
    rw [names_setRole ht]
    by_cases hmem : (label, role) ∈ m.names
    · obtain ⟨s, hs⟩ := List.mem_iff_getElem?.mp hmem
      obtain rfl := hnew s hs
      obtain ⟨hlt, hsame⟩ := List.getElem?_eq_some_iff.mp hs
      rw [← hsame, List.set_getElem_self]
      exact h.distinct
    · exact h.distinct.set hmem
  case numbered => exact h.numbered
  case inside =>
    intro e he
    have hsize : (m.setRole t role).stateCount = m.stateCount := by
      simp [stateCount, Automaton.setRole]
    rw [hsize]
    exact h.inside e he
  case single => exact h.single
  case classed => exact h.classed
  case outgoing =>
    intro s state hstate
    obtain ⟨before, hbefore, hout, -⟩ := hlists s state hstate
    rw [hout]
    exact h.outgoing s before hbefore
  case incoming =>
    intro s state hstate
    obtain ⟨before, hbefore, -, hin⟩ := hlists s state hstate
    rw [hin]
    exact h.incoming s before hbefore

/-- Clearing leaves the start alone, with nothing in its lists. -/
theorem clear_eq_initial (h : m.Accounted outs ins) : m.clear = initial := by
  have hbegins := h.begins
  rw [List.head?_eq_getElem?, names_getElem?] at hbegins
  obtain ⟨state, hstate, hname⟩ := Option.map_eq_some_iff.mp hbegins
  obtain ⟨hlt, hstate⟩ := Array.getElem?_eq_some_iff.mp hstate
  have hfirst : m.states.take 1 = #[state] := by
    apply Array.ext
    · simp
      omega
    · intro i hi hone
      obtain rfl : i = 0 := by simpa using hone
      simpa using hstate
  obtain ⟨hlabel, hrole⟩ := Prod.mk.inj hname
  rw [clear, hfirst, initial, State.fresh, ← hlabel, ← hrole]
  rfl

end Accounted

/-! ### Graphs whose states came without edges -/

namespace WellFormed

theorem outgoing_eq (h : m.WellFormed) {state : State} (hs : m.states[s]? = some state) :
    state.outgoing = m.edgesAt Edge.src s :=
  h.outgoing s state hs

theorem incoming_eq (h : m.WellFormed) {state : State} (hs : m.states[s]? = some state) :
    state.incoming = m.edgesAt Edge.dst s :=
  h.incoming s state hs

theorem resolved (h : m.WellFormed) : m.Resolved := by
  intro s state hstate
  rw [h.outgoing_eq hstate]
  exact (h.edgesAt_ascend Edge.src s).2

theorem outgoing_eq_filter (h : m.WellFormed) (s : Nat) :
    m.outgoing s = m.edges.toList.filter fun e => e.src = s := by
  have hread : ∀ es : List Edge, es ⊆ m.edges.toList →
      (es.map Edge.id).filterMap (m.edges[·]?) = es := by
    intro es hes
    rw [List.filterMap_map]
    conv_rhs => rw [← List.filterMap_some (l := es)]
    apply List.filterMap_congr
    intro e he
    exact h.getElem?_id (Array.mem_toList_iff.mp (hes he))
  cases hstate : m.states[s]? with
  | some state =>
    rw [Automaton.outgoing, h.resolved.listed_eq hstate,
      h.outgoing_eq hstate]
    exact hread _ List.filter_sublist.subset
  | none =>
    have hs : m.stateCount ≤ s := Array.getElem?_eq_none_iff.mp hstate
    rw [outgoing_of_none hstate]
    exact (List.map_eq_nil_iff.mp (h.edgesAt_of_le hs).1).symm

/-- A state without edges keeps a graph well formed. -/
theorem pushState (h : m.WellFormed) {added : State} (hrole : added.role ≠ .start)
    (hnew : (added.label, added.role) ∉ m.names) (hout : added.outgoing = [])
    (hin : added.incoming = []) : (m.pushState added).WellFormed := by
  have hnone : Function.update (fun _ : Nat => ([] : List Nat)) m.stateCount [] = fun _ => [] :=
    Function.update_eq_self m.stateCount _
  have hpushed := Accounted.pushState h hrole hnew
  rwa [hout, hin, hnone] at hpushed

theorem connect (h : m.WellFormed) {src dst : Nat} {kind : EdgeKind} {chars : Option CharClass}
    (hsrc : src < m.stateCount) (hdst : dst < m.stateCount)
    (hchars : chars.isSome = true ↔ kind = .charClass) :
    (m.connect src dst label kind chars).WellFormed := by
  by_cases hnew : ∀ e ∈ m.outgoing src, ¬ (e.dst = dst ∧ e.label = label)
  · rw [connect_of_new hnew]
    exact h.pushEdge hsrc hdst hchars (h.resolved.missing_eq_none src) hnew
  · rwa [connect_of_present hnew]

end WellFormed

theorem initial_wellFormed : initial.WellFormed := by
  have hlists : ∀ (s : Nat) (state : State), initial.states[s]? = some state →
      state.outgoing = [] ∧ state.incoming = [] := by
    intro s state hstate
    have hmem := Array.mem_of_getElem? hstate
    obtain rfl : state = .fresh startLabel .start := by simpa [initial] using hmem
    exact ⟨rfl, rfl⟩
  constructor
  case begins => rfl
  case onlyStart => simp [names, initial, State.fresh]
  case distinct => simp [names, initial]
  case numbered => rfl
  case inside => simp [initial]
  case single => simp [initial]
  case classed => simp [initial]
  case outgoing => exact fun s state hstate => (hlists s state hstate).1
  case incoming => exact fun s state hstate => (hlists s state hstate).2

/-! ### Trees -/

/-- The states behind the start are labelled with the words that they stand for. -/
def Spelled (m : Automaton) (words : List Text) : Prop :=
  ∀ s, s ≠ start → (m.names[s]?).map Prod.fst = words[s]?

/-- Two states of a tree may share a label with the start, but not with each other. -/
theorem Spelled.getElem?_eq_some {words : List Text} (h : m.Spelled words) (hm : m.WellFormed)
    (hrole : role ≠ .start) (hs : m.names[s]? = some (label, role)) : words[s]? = some label := by
  rw [← h s fun hstart => hrole ((hm.isStart_iff hs).mpr hstart), hs]
  rfl

theorem Spelled.grow {words accepted : List Text} {w : Text} {c : Char} (h : m.Spelled words)
    (htree : m.IsTree words accepted) : (m.grow s w c).Spelled (words ++ [w ++ [c]]) := by
  have hlength : m.names.length = words.length := by rw [length_names, stateCount, htree.count]
  intro i hi
  rw [Automaton.grow, names_connect, names_pushState, List.getElem?_append, List.getElem?_append,
    hlength]
  split
  · exact h i hi
  · rw [← List.getElem?_map]
    rfl

theorem Spelled.setRole {words : List Text} (h : m.Spelled words) {old : Role}
    (ht : m.names[t]? = some (label, old)) (hword : words[t]? = some label) (role : Role) :
    (m.setRole t role).Spelled words := by
  intro s hs
  rw [names_setRole ht, List.getElem?_set]
  split
  · next heq =>
    subst heq
    rw [if_pos (List.getElem?_eq_some_iff.mp ht).1, hword]
    rfl
  · exact h s hs

/-- No two states of a tree stand for one word, so a name that ends in a new role is new. -/
theorem ofLiterals_spelled (symbols : List Text) : (ofLiterals symbols).WellFormed ∧
    (ofLiterals symbols).Spelled ((beginnings symbols).foldl note [[]]) := by
  apply ofLiterals_induction (P := fun m words => m.WellFormed ∧ m.Spelled words)
  case hinitial =>
    refine ⟨initial_wellFormed, ?_⟩
    intro s hs
    cases s with
    | zero => exact absurd rfl hs
    | succ s => simp [names, initial]
  case hgrow =>
    rintro m words accepted s w c htree ⟨hm, hspelled⟩ hs hnew
    have hname : (w ++ [c], Role.intermediate) ∉ m.names := by
      intro hmem
      obtain ⟨i, hi⟩ := List.mem_iff_getElem?.mp hmem
      exact hnew (List.mem_of_getElem? (hspelled.getElem?_eq_some hm (by simp) hi))
    have hsize : (m.pushState (.fresh (w ++ [c]) .intermediate)).stateCount = m.stateCount + 1 := by
      simp [stateCount, pushState]
    have hlt : s < m.stateCount := htree.lt_of_word hs
    have hpushed : (m.pushState (.fresh (w ++ [c]) .intermediate)).WellFormed :=
      hm.pushState (by simp [State.fresh]) hname rfl rfl
    refine ⟨hpushed.connect ?_ ?_ (by simp), hspelled.grow htree⟩ <;> omega
  case haccept =>
    rintro m words accepted s w htree ⟨hm, hspelled⟩ hs hne
    have hstart : s ≠ start := by
      rintro rfl
      exact hne (Option.some.inj (hs.symm.trans htree.root))
    obtain ⟨⟨label, old⟩, hname, rfl⟩ : ∃ name, m.names[s]? = some name ∧ name.1 = w :=
      Option.map_eq_some_iff.mp ((hspelled s hstart).trans hs)
    refine ⟨hm.setRole hname hstart (by simp) ?_, hspelled.setRole hname hs .accepting⟩
    intro i hi
    exact htree.index_unique (hspelled.getElem?_eq_some hm (by simp) hi) hs

theorem ofLiterals_wellFormed (symbols : List Text) : (ofLiterals symbols).WellFormed :=
  (ofLiterals_spelled symbols).1

/-! ### Building steps -/

theorem Accounted.wellFormed (h : m.Accounted outs ins)
    (hgiven : ∀ s < m.stateCount, outs s = [] ∧ ins s = []) : m.WellFormed where
  begins := h.begins
  onlyStart := h.onlyStart
  distinct := h.distinct
  numbered := h.numbered
  inside := h.inside
  single := h.single
  classed := h.classed
  outgoing s state hstate := by
    have hlt : s < m.stateCount := (Array.getElem?_eq_some_iff.mp hstate).1
    rw [h.outgoing s state hstate, (hgiven s hlt).1]
  incoming s state hstate := by
    have hlt : s < m.stateCount := (Array.getElem?_eq_some_iff.mp hstate).1
    rw [h.incoming s state hstate, (hgiven s hlt).2]

theorem extends_pushState (m : Automaton) (added : State) : m.Extends (m.pushState added) := by
  refine ⟨?_, List.prefix_rfl⟩
  rw [names_pushState]
  exact List.prefix_append _ _

theorem extends_pushEdge (m : Automaton) (src dst : Nat) (label : Text) (kind : EdgeKind)
    (chars : Option CharClass) : m.Extends (m.pushEdge src dst label kind chars) := by
  refine ⟨?_, ?_⟩
  · rw [names_pushEdge]
  · rw [pushEdge, Array.toList_push]
    exact List.prefix_append _ _

/-- A state held at first what it held in the step that added it, if there is such a step. -/
def GivenBy (m : Automaton) (steps : List BuildStep) (outs ins : Nat → List Nat) : Prop :=
  ∀ s label role, m.names[s]? = some (label, role) → (outs s = [] ∧ ins s = []) ∨
    ∃ added, .state added ∈ steps ∧ added.label = label ∧ added.role = role ∧
      outs s = added.outgoing ∧ ins s = added.incoming

theorem GivenBy.concat {steps : List BuildStep} (h : m.GivenBy steps outs ins) {m' : Automaton}
    (hnames : m'.names = m.names) (step : BuildStep) : m'.GivenBy (steps ++ [step]) outs ins := by
  intro s label role hs
  rw [hnames] at hs
  rcases h s label role hs with hnone | ⟨added, hmem, hgiven⟩
  · exact .inl hnone
  · exact .inr ⟨added, List.mem_append_left _ hmem, hgiven⟩

theorem GivenBy.pushState {steps : List BuildStep} (h : m.GivenBy steps outs ins) (added : State) :
    (m.pushState added).GivenBy (steps ++ [.state added])
      (Function.update outs m.stateCount added.outgoing)
      (Function.update ins m.stateCount added.incoming) := by
  intro s label role hs
  rw [names_pushState, getElem?_concat_eq_some, length_names] at hs
  rcases hs with hs | ⟨rfl, ⟨⟩⟩
  · have hne : s ≠ m.stateCount := by
      rintro rfl
      rw [List.getElem?_eq_none (Nat.le_of_eq m.length_names)] at hs
      cases hs
    rw [Function.update_of_ne hne, Function.update_of_ne hne]
    exact h.concat rfl (.state added) s label role hs
  · rw [Function.update_self, Function.update_self]
    exact .inr ⟨added, by simp, rfl, rfl, rfl, rfl⟩

end Automaton

namespace Draft

open Automaton

variable {steps : List BuildStep}

/-- All the states among some steps come without edges. -/
def FreshStates (steps : List BuildStep) : Prop :=
  ∀ added, .state added ∈ steps → added.outgoing = [] ∧ added.incoming = []

theorem FreshStates.of_append {later : List BuildStep} (h : FreshStates (steps ++ later)) :
    FreshStates steps :=
  fun added hmem => h added (List.mem_append_left _ hmem)

section Steps

variable [PatternEngine] {d : Draft}

theorem isSome_chars?_iff {label : Text} {kind : EdgeKind} {chars : Option CharClass}
    (h : chars? label kind = some chars) : chars.isSome = true ↔ kind = .charClass := by
  cases kind with
  | charClass =>
    obtain ⟨set, -, rfl⟩ := Option.map_eq_some_iff.mp h
    simp
  | acceptOnBoundary | fallbackConsume | fallbackNoConsume =>
    cases h
    simp

theorem exists_accounted (steps : List BuildStep) : ∃ outs ins,
    (run steps).graph.Accounted outs ins ∧ (run steps).graph.GivenBy steps outs ins := by
  induction steps using List.reverseRecOn with
  | nil => exact ⟨_, _, initial_wellFormed, fun _ _ _ _ => .inl ⟨rfl, rfl⟩⟩
  | append_singleton steps step ih =>
    obtain ⟨outs, ins, h, hgiven⟩ := ih
    rw [run_append]
    change ∃ outs ins, ((run steps).apply step).graph.Accounted outs ins ∧
      ((run steps).apply step).graph.GivenBy (steps ++ [step]) outs ins
    cases step with
    | state added =>
      rw [apply]
      rcases (run steps).graph.addState_cases added with hsame | ⟨hpushed, hrole, hfound⟩
      · rw [hsame]
        exact ⟨outs, ins, h, hgiven.concat rfl _⟩
      · rw [hpushed]
        exact ⟨_, _, h.pushState hrole (not_mem_names_of_findState? hfound),
          hgiven.pushState added⟩
    | edge src label dst kind =>
      rw [apply]
      rcases (run steps).graph_addEdge_cases src label dst kind with
        hsame | ⟨s, t, chars, hpushed, hs, ht, hchars, hlooked, hnew⟩
      · rw [hsame]
        exact ⟨outs, ins, h, hgiven.concat rfl _⟩
      · rw [hpushed]
        exact ⟨outs, ins, h.pushEdge (lt_of_findLabel? hs) (lt_of_findLabel? ht)
          (isSome_chars?_iff hchars) hlooked hnew, hgiven.concat (names_pushEdge _ _ _ _ _ _) _⟩
    | literals symbols =>
      rw [apply, h.clear_eq_initial]
      exact ⟨_, _, ofLiterals_wellFormed symbols, fun _ _ _ _ => .inl ⟨rfl, rfl⟩⟩

/-- Symbols replace whatever was built before them. -/
theorem graph_run_literals (steps : List BuildStep) (symbols : List Text) :
    (run (steps ++ [.literals symbols])).graph = ofLiterals symbols := by
  obtain ⟨outs, ins, h, -⟩ := exists_accounted steps
  rw [run_append, List.foldl_cons, List.foldl_nil, apply, h.clear_eq_initial]
  rfl

theorem FreshStates.wellFormed (h : FreshStates steps) : (run steps).graph.WellFormed := by
  obtain ⟨outs, ins, haccounted, hgiven⟩ := exists_accounted steps
  apply haccounted.wellFormed
  intro s hs
  rw [← length_names] at hs
  rcases hgiven s _ _ (List.getElem?_eq_getElem hs) with hnone | ⟨added, hmem, -, -, hout, hin⟩
  · exact hnone
  · rw [hout, hin]
    exact h added hmem

/-- A graph whose states came without edges lists none that is missing. -/
theorem FreshStates.resolved_of_build {m : Automaton} (h : FreshStates steps)
    (hbuild : Automaton.build steps = .ok m) : m.Resolved := by
  obtain ⟨-, -, rfl⟩ := finish_eq_ok_iff.mp hbuild
  exact h.wellFormed.resolved

/-- Only symbols begin a new graph. -/
theorem apply_extends (d : Draft) {step : BuildStep} (h : ∀ symbols, step ≠ .literals symbols) :
    d.graph.Extends (d.apply step).graph := by
  have hself : d.graph.Extends d.graph := ⟨List.prefix_rfl, List.prefix_rfl⟩
  cases step with
  | state added =>
    rw [apply]
    rcases d.graph.addState_cases added with hsame | ⟨hpushed, -⟩
    · rwa [hsame]
    · rw [hpushed]
      exact extends_pushState _ _
  | edge src label dst kind =>
    rw [apply]
    rcases d.graph_addEdge_cases src label dst kind with hsame | ⟨s, t, chars, hpushed, -⟩
    · rwa [hsame]
    · rw [hpushed]
      exact extends_pushEdge _ _ _ _ _ _
  | literals symbols => exact absurd rfl (h symbols)

/-- After any steps the lists of the states are accounted for by what these were added with: a state
is found by its own label and role, only the first one is a start, no two edges have the same ends
and label, and only class edges have a class. Any further step but symbols only appends. If all
states came without edges, the lists ascend and hold an edge once where it leaves or enters, and
nowhere else. -/
theorem run_accounted (steps : List BuildStep) :
    (∃ outs ins, (run steps).graph.Accounted outs ins ∧
      (run steps).graph.GivenBy steps outs ins) ∧
    (∀ (s : Nat) (state : State), (run steps).graph.states[s]? = some state →
      (run steps).graph.findState? state.label state.role = some s ∧
      (state.role = .start ↔ s = start)) ∧
    (∀ step, (∀ symbols, step ≠ .literals symbols) →
      (run steps).graph.Extends (run (steps ++ [step])).graph) ∧
    (FreshStates steps → ∀ (s : Nat) (state : State),
      (run steps).graph.states[s]? = some state →
      state.outgoing.Pairwise (· < ·) ∧ state.incoming.Pairwise (· < ·) ∧
      (∀ i ∈ state.outgoing ++ state.incoming, i < (run steps).graph.edgeCount) ∧
      ∀ (i : Nat) (e : Edge), (run steps).graph.edges[i]? = some e →
        state.outgoing.count i = (if s = e.src then 1 else 0) ∧
        state.incoming.count i = if s = e.dst then 1 else 0) := by
  obtain ⟨outs, ins, h, hgiven⟩ := exists_accounted steps
  refine ⟨⟨outs, ins, h, hgiven⟩, ?_, ?_, ?_⟩
  · intro s state hstate
    have hname : (run steps).graph.names[s]? = some (state.label, state.role) := by
      rw [names_getElem?, hstate]
      rfl
    exact ⟨(findState?_eq_some_iff h.distinct).mpr hname, h.isStart_iff hname⟩
  · intro step hstep
    rw [run_append]
    exact apply_extends _ hstep
  · intro hfresh s state hstate
    have hformed := hfresh.wellFormed
    rw [hformed.outgoing_eq hstate, hformed.incoming_eq hstate]
    obtain ⟨hout, houtBound⟩ := h.edgesAt_ascend Edge.src s
    obtain ⟨hin, hinBound⟩ := h.edgesAt_ascend Edge.dst s
    refine ⟨hout, hin, ?_, ?_⟩
    · intro i hi
      exact (List.mem_append.mp hi).elim (houtBound i) (hinBound i)
    · intro i e he
      exact ⟨h.count_edgesAt he Edge.src s, h.count_edgesAt he Edge.dst s⟩

end Steps

/-- A state is added and given up; one of the symbols is the label of the start, which gets an edge
to itself behind the edges of the symbols. -/
def loopedSteps : List BuildStep := [
  .state (.fresh (text "left over") .start),
  .literals [text "START", text "S"],
  .state (.fresh (text "S") .accepting),
  .edge (text "START") (text "OTHERS") (text "START") .fallbackConsume]

theorem run_accounted_sample :
    FreshStates loopedSteps ∧
      (run loopedSteps).graph.states[0]? = some ⟨startLabel, .start, [0, 5], [5]⟩ ∧
      (run loopedSteps).graph.findState? startLabel .start = some 0 ∧
      [0, 5].Pairwise (· < ·) ∧ [5].Pairwise (· < ·) ∧
      (∃ e, (run loopedSteps).graph.edges[5]? = some e ∧ (e.src, e.dst) = (0, 0) ∧
        [0, 5].count 5 = (if 0 = e.src then 1 else 0) ∧
        [5].count 5 = if 0 = e.dst then 1 else 0) ∧
      (run loopedSteps).graph.Extends
        (run (loopedSteps ++ [.state (.fresh (text "S") .error)])).graph := by
  obtain ⟨-, hstates, hextends, hlists⟩ := run_accounted loopedSteps
  have hfresh : FreshStates loopedSteps := by simp [FreshStates, loopedSteps, State.fresh]
  have hstate : (run loopedSteps).graph.states[0]? =
      some ⟨startLabel, .start, [0, 5], [5]⟩ := by decide +kernel
  have hends : ((run loopedSteps).graph.edges[5]?.map fun e => (e.src, e.dst)) = some (0, 0) := by
    decide +kernel
  obtain ⟨e, he, hsame⟩ := Option.map_eq_some_iff.mp hends
  obtain ⟨hout, hin, -, hcounts⟩ := hlists hfresh 0 _ hstate
  exact ⟨hfresh, hstate, (hstates 0 _ hstate).1, hout, hin, ⟨e, he, hsame, hcounts 5 e he⟩,
    hextends _ (by simp)⟩

/-- A state that leads to itself and that the start leads to. -/
def ringSteps : List BuildStep := [
  .state (.fresh (text "a") .intermediate),
  .edge (text "START") (text "x") (text "a") .charClass,
  .edge (text "a") (text "x") (text "a") .charClass]

/-- Added to another graph, that state keeps its lists: there is no edge `1`, and edge `0` is listed
twice where it comes in. -/
theorem run_unaccounted : ∃ added : State, (run ringSteps).graph.states[1]? = some added ∧
    let m := (run [.state added, .edge (text "START") (text "x") (text "a") .charClass]).graph
    m.edgeCount = 1 ∧ m.edges[0]?.map Edge.dst = some 1 ∧
      m.states[1]? = some ⟨text "a", .intermediate, [1], [0, 1, 0]⟩ ∧
      ¬ [0, 1, 0].Pairwise (· < ·) ∧ [0, 1, 0].count 0 = 2 :=
  ⟨⟨text "a", .intermediate, [1], [0, 1]⟩, by decide +kernel⟩

end Draft

end TokenGraph
