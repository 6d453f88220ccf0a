import TokenGraph.Proofs.Paths
import TokenGraph.Proofs.Refusals

/-!
# Repeated edges

When an automaton is built, an edge is given up where the list of its source holds one of its label
to its target. Were such edges kept, they would stand behind the edges that they repeat and never be
the first to fire: as long as no edge is given up that is of another kind than the one in its place,
every text is read alike with and without them. This supposes that no state is added with edges, for
an edge that is given up could otherwise be taken for one that leaves another state.
-/

namespace TokenGraph

section EraseDups

variable {α : Type} [BEq α] [LawfulBEq α]

private theorem eraseDups_concat (as : List α) (a : α) [Decidable (a ∈ as)] :
    (as ++ [a]).eraseDups = if a ∈ as then as.eraseDups else as.eraseDups ++ [a] := by
  rw [List.eraseDups_append]
  split
  · next ha => simp [List.removeAll, ha]
  · next ha => simp [List.removeAll, ha, List.eraseDups_cons]

private theorem find?_eraseDups (q : α → Bool) (as : List α) :
    as.eraseDups.find? q = as.find? q := by
  induction as using List.reverseRecOn with
  | nil => rfl
  | append_singleton as a ih =>
    classical
    rw [eraseDups_concat, List.find?_append]
    split
    · next ha =>
      -- what repeats something is not found unless that is found before it
      cases hfind : as.find? q with
      | some b => rw [ih, hfind, Option.some_or]
      | none =>
        have hq : q a = false := by simpa using List.find?_eq_none.mp hfind a ha
        simp [ih, hfind, hq]
    · rw [List.find?_append, ih]

end EraseDups

/-- An edge without its number. -/
def Edge.unnumbered (e : Edge) : Edge := { e with id := 0 }

open scoped Classical in
/-- One graph has the states of another, with the edges of each in the same order, but none of them
twice. -/
structure Automaton.Condenses (m m' : Automaton) : Prop where
  names : m.names = m'.names
  outgoing : ∀ s, (m.outgoing s).map Edge.unnumbered =
    ((m'.outgoing s).map Edge.unnumbered).eraseDups

/-! ### Scanning -/

namespace Automaton

theorem findLabel?_eq_names (m : Automaton) (label : Text) :
    m.findLabel? label = m.names.findIdx? fun name => name.1 = label := by
  rw [findLabel?, names, List.findIdx?_map, ← List.findIdx?_toArray, Array.toArray_toList]
  rfl

theorem findState?_eq_names (m : Automaton) (label : Text) (role : Role) :
    m.findState? label role = m.names.findIdx? fun name => name.2 = role && name.1 = label := by
  rw [findState?, names, List.findIdx?_map, ← List.findIdx?_toArray, Array.toArray_toList]
  rfl

end Automaton

namespace Automaton.Condenses

variable {m m' : Automaton} (h : m.Condenses m')

include h

theorem isError_eq (s : Nat) : m.isError s = m'.isError s := by
  rw [Bool.eq_iff_iff, isError_iff, isError_iff, role?_eq_names, role?_eq_names, h.names]

theorem isAccepting_eq (s : Nat) : m.isAccepting s = m'.isAccepting s := by
  rw [Bool.eq_iff_iff, isAccepting_iff, isAccepting_iff, role?_eq_names, role?_eq_names, h.names]

theorem stateCount_eq : m.stateCount = m'.stateCount := by
  rw [← length_names, ← length_names, h.names]

theorem findLabel?_eq (label : Text) : m.findLabel? label = m'.findLabel? label := by
  rw [findLabel?_eq_names, findLabel?_eq_names, h.names]

theorem findState?_eq (label : Text) (role : Role) :
    m.findState? label role = m'.findState? label role := by
  rw [findState?_eq_names, findState?_eq_names, h.names]

/-- The first edge of a property that has nothing to do with numbers is the same in both. -/
theorem find?_outgoing {q : Edge → Bool} (hq : ∀ e : Edge, q e.unnumbered = q e) (s : Nat) :
    ((m.outgoing s).find? q).map Edge.unnumbered =
      ((m'.outgoing s).find? q).map Edge.unnumbered := by
  classical
  have hmap : ∀ es : List Edge, (es.find? q).map Edge.unnumbered =
      (es.map Edge.unnumbered).find? q := by
    intro es
    rw [List.find?_map, Function.comp_def]
    simp only [hq]
  rw [hmap, hmap, h.outgoing, find?_eraseDups]

end Automaton.Condenses

namespace Scanner

variable {m m' : Scanner} (h : m.graph.Condenses m'.graph) (hexact : m.exact = m'.exact)
  (hboundary : m.boundary = m'.boundary)

include h hexact hboundary

theorem move_of_condenses (s : Nat) (c : Char) : m.move s c = m'.move s c := by
  have hacts : m.acts c = m'.acts c := by
    funext e
    simp only [acts, fires, hexact, hboundary]
  have hguarded : m.guarded = m'.guarded := by
    funext move
    cases move <;> simp only [guarded, h.isError_eq]
  have hread : ∀ (f : Edge → Move) (e e' : Option Edge), (∀ e : Edge, f e.unnumbered = f e) →
      e.map Edge.unnumbered = e'.map Edge.unnumbered → e.map f = e'.map f := by
    intro f e e' hf heq
    have hmap : ∀ d : Option Edge, d.map f = (d.map Edge.unnumbered).map f := by
      intro d
      simp only [Option.map_map, Function.comp_def, hf]
    rw [hmap e, hmap e', heq]
  rw [move, move, direct?_eq_find?, direct?_eq_find?, fallback?_eq_find?, fallback?_eq_find?,
    ← hacts, ← hguarded, h.isAccepting_eq]
  rw [hread _ _ _ (fun e => rfl) (h.find?_outgoing (q := m.acts c) (fun e => rfl) s),
    hread _ _ _ (fun e => rfl)
      (h.find?_outgoing (q := fun e => e.kind.isFallback) (fun e => rfl) s)]

theorem settle_of_condenses (c : Char) (stays s : Nat) :
    m.settle c stays s = m'.settle c stays s := by
  induction stays generalizing s with
  | zero => rw [settle, settle, move_of_condenses h hexact hboundary]
  | succ stays ih =>
    rw [settle, settle, move_of_condenses h hexact hboundary]
    simp only [ih]

theorem run_of_condenses (w : Text) : m.run w = m'.run w := by
  have hfrom : ∀ s, m.runFrom s w = m'.runFrom s w := by
    induction w with
    | nil =>
      intro s
      rw [runFrom, runFrom, h.isAccepting_eq]
    | cons c w ih =>
      intro s
      rw [runFrom, runFrom, h.stateCount_eq, settle_of_condenses h hexact hboundary]
      simp only [ih]
  exact hfrom Automaton.start

end Scanner

/-! ### Building without a look at the edges -/

namespace Draft

section Steps

variable [PatternEngine]

/-- Takes a step as it comes: an edge is added although it may be there already. -/
def applyFreely (d : Draft) : BuildStep → Draft
  | .edge src label dst kind =>
    match d.graph.findLabel? src, d.graph.findLabel? dst with
    | some s, some t =>
      match chars? label kind with
      | some chars => { d with graph := d.graph.pushEdge s t label kind chars }
      | none => { d with refused := d.refused.or (some label) }
    | _, _ => d
  | step => d.apply step

def runFreely (steps : List BuildStep) : Draft := steps.foldl applyFreely {}

/-- Among the steps is an edge of this label and kind whose own labels stand for these two states by
then. -/
def Resolves (steps : List BuildStep) (s t : Nat) (label : Text) (kind : EdgeKind) : Prop :=
  ∃ front src dst back, steps = front ++ .edge src label dst kind :: back ∧
    (run front).graph.findLabel? src = some s ∧ (run front).graph.findLabel? dst = some t

/-- Edges that join the same states under the same label are of one kind. -/
def OneKind (steps : List BuildStep) : Prop :=
  ∀ s t label kind kind', Resolves steps s t label kind → Resolves steps s t label kind' →
    kind = kind'

theorem Resolves.append {steps : List BuildStep} {s t : Nat} {label : Text} {kind : EdgeKind}
    (h : Resolves steps s t label kind) (later : List BuildStep) :
    Resolves (steps ++ later) s t label kind := by
  obtain ⟨front, src, dst, back, rfl, hsrc, hdst⟩ := h
  exact ⟨front, src, dst, back ++ later, by simp, hsrc, hdst⟩

end Steps

end Draft

namespace Automaton.Condenses

variable {m m' : Automaton} (h : m.Condenses m')

include h

theorem addState {added : State} (hadded : added.outgoing = []) :
    (m.addState added).Condenses (m'.addState added) := by
  rw [Automaton.addState, Automaton.addState, h.findState?_eq]
  split
  · exact h
  · split
    · exact h
    · constructor
      · rw [names_pushState, names_pushState, h.names]
      · intro s
        rw [outgoing_pushState m hadded, outgoing_pushState m' hadded, h.outgoing]

/-- An edge that is new to one graph is new to the other. -/
theorem pushEdge (hm : m.Resolved) (hm' : m'.Resolved) {src dst : Nat} {label : Text}
    {kind : EdgeKind} {chars : Option CharClass} (hsrc : src < m.stateCount)
    (hnew : ∀ e ∈ m.outgoing src, ¬ (e.dst = dst ∧ e.label = label)) :
    (m.pushEdge src dst label kind chars).Condenses (m'.pushEdge src dst label kind chars) := by
  classical
  have hsrc' : src < m'.stateCount := h.stateCount_eq ▸ hsrc
  constructor
  · rw [names_pushEdge, names_pushEdge, h.names]
  · intro s
    rw [outgoing_pushEdge hm hsrc, outgoing_pushEdge hm' hsrc']
    split
    · next hs =>
      subst hs
      have hfresh : Edge.unnumbered ⟨0, s, dst, label, kind, chars⟩ ∉
          (m'.outgoing s).map Edge.unnumbered := by
        rw [← List.mem_eraseDups, ← h.outgoing]
        intro hmem
        obtain ⟨e, he, heq⟩ := List.mem_map.mp hmem
        simp only [Edge.unnumbered, Edge.mk.injEq] at heq
        exact hnew e he ⟨heq.2.2.1, heq.2.2.2.1⟩
      rw [List.map_append, List.map_append, h.outgoing]
      exact ((eraseDups_concat _ _).trans (if_neg hfresh)).symm
    · simpa using h.outgoing s

/-- An edge that is there already may be added to the larger graph alone. -/
theorem pushEdge_right (hm' : m'.Resolved) {e : Edge} (hsrc : e.src < m.stateCount)
    (he : e ∈ m.outgoing e.src) :
    m.Condenses (m'.pushEdge e.src e.dst e.label e.kind e.chars) := by
  classical
  have hsrc' : e.src < m'.stateCount := h.stateCount_eq ▸ hsrc
  constructor
  · rw [names_pushEdge, h.names]
  · intro s
    rw [outgoing_pushEdge hm' hsrc']
    split
    · next hs =>
      subst hs
      have hlisted : e.unnumbered ∈ (m'.outgoing e.src).map Edge.unnumbered := by
        rw [← List.mem_eraseDups, ← h.outgoing]
        exact List.mem_map_of_mem he
      rw [List.map_append, h.outgoing]
      exact ((eraseDups_concat _ _).trans (if_pos hlisted)).symm
    · simpa using h.outgoing s

end Automaton.Condenses

namespace Draft

variable {d d' : Draft}

/-- How a draft stands to the one that took the same steps as they came. -/
structure Follows (d d' : Draft) : Prop where
  graph : d.graph.Condenses d'.graph
  refused : d.refused = d'.refused
  missing : d.missing = d'.missing
  resolved : d'.graph.Resolved

section Steps

variable [PatternEngine]

theorem Follows.state (h : Follows d d') {added : State} (hadded : added.outgoing = []) :
    Follows (d.apply (.state added)) (d'.applyFreely (.state added)) := by
  constructor
  · exact h.graph.addState hadded
  · exact h.refused
  · exact h.missing
  · show (d'.graph.addState added).Resolved
    rcases d'.graph.addState_cases added with hsame | ⟨hpushed, -⟩
    · rw [hsame]
      exact h.resolved
    · rw [hpushed]
      exact h.resolved.pushState hadded

/-- An edge is given up only where it is the same as the one that is there. -/
theorem Follows.edge (h : Follows d d') (hd : d.graph.WellFormed) {src label dst : Text}
    {kind : EdgeKind} (hsame : ∀ e ∈ d.graph.edges, d.graph.findLabel? src = some e.src →
      d.graph.findLabel? dst = some e.dst → e.label = label →
        e.kind = kind ∧ chars? label kind = some e.chars) :
    Follows (d.apply (.edge src label dst kind)) (d'.applyFreely (.edge src label dst kind)) := by
  rw [apply, addEdge, applyFreely, ← h.graph.findLabel?_eq, ← h.graph.findLabel?_eq]
  cases hs : d.graph.findLabel? src with
  | none => exact h
  | some s =>
    cases ht : d.graph.findLabel? dst with
    | none => exact h
    | some t =>
      cases hchars : chars? label kind with
      | none => exact ⟨h.graph, by simp [h.refused], h.missing, h.resolved⟩
      | some chars =>
        have hlt : s < d.graph.stateCount := Automaton.lt_of_findLabel? hs
        simp only [hd.resolved.checkedConnect_eq]
        refine ⟨?_, h.refused, h.missing, h.resolved.pushEdge s t label kind chars⟩
        dsimp only
        by_cases hnew : ∀ e ∈ d.graph.outgoing s, ¬ (e.dst = t ∧ e.label = label)
        · rw [Automaton.connect_of_new hnew]
          exact h.graph.pushEdge hd.resolved h.resolved hlt hnew
        · rw [Automaton.connect_of_present hnew]
          simp only [not_forall, not_not] at hnew
          obtain ⟨e, he, rfl, rfl⟩ := hnew
          have hlisted := he
          rw [hd.outgoing_eq_filter, List.mem_filter, Array.mem_toList_iff,
            decide_eq_true_iff] at hlisted
          obtain ⟨hmem, rfl⟩ := hlisted
          obtain ⟨rfl, hclass⟩ := hsame e hmem hs ht rfl
          cases hchars.symm.trans hclass
          exact h.graph.pushEdge_right h.resolved hlt he

theorem run_follows {steps : List BuildStep} (hsteps : ∀ symbols, .literals symbols ∉ steps)
    (hfresh : FreshStates steps) (hkinds : OneKind steps) :
    Follows (run steps) (runFreely steps) := by
  induction steps using List.reverseRecOn with
  | nil =>
    exact ⟨⟨rfl, fun s => by cases s <;> rfl⟩, rfl, rfl, Automaton.initial_wellFormed.resolved⟩
  | append_singleton steps step ih =>
    have hfront : ∀ symbols, .literals symbols ∉ steps := by
      intro symbols hmem
      exact hsteps symbols (List.mem_append_left _ hmem)
    have hbefore : Follows (run steps) (runFreely steps) := by
      apply ih hfront hfresh.of_append
      intro s t label kind kind' h h'
      exact hkinds s t label kind kind' (h.append [step]) (h'.append [step])
    rw [run_append, runFreely, List.foldl_append]
    show Follows ((run steps).apply step) ((runFreely steps).applyFreely step)
    cases step with
    | literals symbols => exact absurd (by simp) (hsteps symbols)
    | state added => exact hbefore.state (hfresh added (by simp)).1
    | edge src label dst kind =>
      apply hbefore.edge hfresh.of_append.wellFormed
      intro e he hsrc hdst hlabel
      obtain ⟨hclass, hresolves⟩ := exists_edge_step hfront he
      have hstep : Resolves (steps ++ [.edge src label dst kind]) e.src e.dst label kind :=
        ⟨steps, src, dst, [], rfl, hsrc, hdst⟩
      subst hlabel
      have hkind := hkinds _ _ _ _ _ (Resolves.append hresolves _) hstep
      exact ⟨hkind, hkind ▸ hclass⟩

end Steps

end Draft

theorem Prototype.scan_of_condenses {m m' : Automaton} (h : m.Condenses m') (category : Category)
    (style : FontStyle) (operators : List Text) (s : Text) :
    (⟨category, m, style⟩ : Prototype).scan operators s =
      (⟨category, m', style⟩ : Prototype).scan operators s := by
  have hgraph : (Prototype.scanner ⟨category, m, style⟩ operators).graph.Condenses
      (Prototype.scanner ⟨category, m', style⟩ operators).graph := h
  exact Scanner.run_of_condenses hgraph rfl rfl s

namespace Automaton

/-- What comes of a draft that takes every edge. -/
def buildFreely [PatternEngine] (steps : List BuildStep) : Except LanguageError Automaton :=
  (Draft.runFreely steps).finish

/-- Where edges of the same states and label are of one kind and states are added without edges, it
makes no difference that all but the first of such edges are given up: both ways of building fail
for the same cause, or give automata that report the same of every text, whatever the category and
the operators. -/
theorem buildFreely_scan [PatternEngine] {steps : List BuildStep}
    (hsteps : ∀ symbols, .literals symbols ∉ steps) (hfresh : Draft.FreshStates steps)
    (hkinds : Draft.OneKind steps) :
    (∃ cause, build steps = .error cause ∧ buildFreely steps = .error cause) ∨
    ∃ machine repeated, build steps = .ok machine ∧ buildFreely steps = .ok repeated ∧
      ∀ (category : Category) (style : FontStyle) (operators : List Text) (s : Text), ∃ o,
        (⟨category, machine, style⟩ : Prototype).checkedScan operators s = .ok o ∧
          (⟨category, repeated, style⟩ : Prototype).checkedScan operators s = .ok o := by
  have hfollows := Draft.run_follows hsteps hfresh hkinds
  rw [build, buildFreely, Draft.finish, Draft.finish, ← hfollows.refused, ← hfollows.missing]
  cases (Draft.run steps).missing with
  | some edge => exact .inl ⟨_, rfl, rfl⟩
  | none =>
    cases (Draft.run steps).refused with
    | some pattern => exact .inl ⟨_, rfl, rfl⟩
    | none =>
      refine .inr ⟨_, _, rfl, rfl, ?_⟩
      intro category style operators s
      refine ⟨_, (Prototype.checkedScan_agrees _ _ _).eq_ok hfresh.wellFormed.resolved, ?_⟩
      rw [Prototype.scan_of_condenses hfollows.graph]
      exact (Prototype.checkedScan_agrees _ _ _).eq_ok hfollows.resolved

/-- A number in front of a boundary or of what follows it, with every edge added twice. -/
def twiceSteps : List BuildStep := [
  .state (.fresh (text "digits") .intermediate),
  .state (.fresh (text "END") .accepting),
  .edge (text "START") (text "[0-9]") (text "digits") .charClass,
  .edge (text "START") (text "[0-9]") (text "digits") .charClass,
  .edge (text "digits") (text "SKIP") (text "digits") .fallbackConsume,
  .edge (text "digits") (text "BOUNDARY") (text "END") .acceptOnBoundary,
  .edge (text "digits") (text "BOUNDARY") (text "END") .acceptOnBoundary,
  .edge (text "digits") (text "SKIP") (text "digits") .fallbackConsume,
  .edge (text "END") (text "STAY") (text "END") .fallbackNoConsume,
  .edge (text "END") (text "STAY") (text "END") .fallbackNoConsume]

theorem buildFreely_scan_sample :
    (∀ symbols, .literals symbols ∉ twiceSteps) ∧ Draft.FreshStates twiceSteps ∧
      Draft.OneKind twiceSteps ∧
      ∃ machine repeated, build twiceSteps = .ok machine ∧ buildFreely twiceSteps = .ok repeated ∧
        machine.edgeCount = 4 ∧ repeated.edgeCount = 8 ∧
        (⟨.integer, machine, .plain⟩ : Prototype).checkedScan [] (text "7x ") =
          .ok ⟨true, text "7x"⟩ ∧
        (⟨.integer, repeated, .plain⟩ : Prototype).checkedScan [] (text "7x ") =
          .ok ⟨true, text "7x"⟩ := by
  have hsteps : ∀ symbols, .literals symbols ∉ twiceSteps := by
    intro symbols
    simp [twiceSteps]
  have hfresh : Draft.FreshStates twiceSteps := by
    simp [Draft.FreshStates, twiceSteps, State.fresh]
  have hkinds : Draft.OneKind twiceSteps := by
    have hlisted : ∀ s t label kind, Draft.Resolves twiceSteps s t label kind →
        [(text "[0-9]", EdgeKind.charClass), (text "SKIP", .fallbackConsume),
          (text "BOUNDARY", .acceptOnBoundary), (text "STAY", .fallbackNoConsume)].lookup label =
            some kind := by
      intro s t label kind h
      obtain ⟨front, src, dst, back, hsplit, -, -⟩ := h
      have hmem : BuildStep.edge src label dst kind ∈ twiceSteps := by simp [hsplit]
      simp only [twiceSteps, List.mem_cons, List.not_mem_nil, reduceCtorEq, false_or, or_false,
        BuildStep.edge.injEq] at hmem
      rcases hmem with h | h | h | h | h | h | h | h <;>
        · obtain ⟨-, rfl, -, rfl⟩ := h
          rfl
    intro s t label kind kind' h h'
    have hsame := (hlisted s t label kind h).symm.trans (hlisted s t label kind' h')
    exact Option.some.inj hsame
  refine ⟨hsteps, hfresh, hkinds, ?_⟩
  have hbuild : build twiceSteps = .ok (Draft.run twiceSteps).graph :=
    Draft.build_eq_ok (by decide +kernel) (by decide +kernel)
  rcases buildFreely_scan hsteps hfresh hkinds with ⟨cause, herror, -⟩ |
    ⟨machine, repeated, hok, hfree, hscan⟩
  · rw [hbuild] at herror
    cases herror
  · rw [hbuild] at hok
    cases hok
    obtain ⟨-, -, rfl⟩ := Draft.finish_eq_ok_iff.mp hfree
    obtain ⟨o, hread, hread'⟩ := hscan .integer .plain [] (text "7x ")
    have hscanned : (⟨.integer, (Draft.run twiceSteps).graph, .plain⟩ : Prototype).scan []
        (text "7x ") = ⟨true, text "7x"⟩ := by decide +kernel
    have houtcome : o = ⟨true, text "7x"⟩ :=
      ((Prototype.checkedScan_agrees _ _ _).eq_of_eq_ok hread).trans hscanned
    subst houtcome
    exact ⟨_, _, hbuild, hfree, by decide +kernel, by decide +kernel, hread, hread'⟩

/-- A state that leads to the end. -/
def leadingSteps : List BuildStep := [
  .state (.fresh (text "a") .intermediate),
  .state (.fresh (text "END") .accepting),
  .edge (text "a") (text "x") (text "END") .charClass]

/-- The start leads to the end as well. The last edge takes whatever comes behind an `a`. -/
def takeoverSteps (added : State) : List BuildStep := [
  .state (.fresh (text "END") .accepting),
  .edge (text "START") (text "x") (text "END") .charClass,
  .state added,
  .edge (text "START") (text "a") (text "a") .charClass,
  .edge (text "a") (text "x") (text "END") .fallbackConsume]

/-- The added state lists an edge `0`, and the edge of this number leaves the start here. It is
taken for the last edge, which is given up, so that nothing reads the `y`. -/
theorem buildFreely_scan_aliased : ∃ added : State,
    (Draft.run leadingSteps).graph.states[1]? = some added ∧
      (∀ symbols, .literals symbols ∉ takeoverSteps added) ∧
      Draft.OneKind (takeoverSteps added) ∧
      ∃ machine repeated, build (takeoverSteps added) = .ok machine ∧
        buildFreely (takeoverSteps added) = .ok repeated ∧
        (⟨.identifier, machine, .plain⟩ : Prototype).checkedScan [] (text "ay") =
          .ok ⟨false, text "a"⟩ ∧
        (⟨.identifier, repeated, .plain⟩ : Prototype).checkedScan [] (text "ay") =
          .ok ⟨true, text "ay"⟩ := by
  have hadded : (Draft.run leadingSteps).graph.states[1]? =
      some ⟨text "a", .intermediate, [0], []⟩ := by decide +kernel
  have hkinds : Draft.OneKind (takeoverSteps ⟨text "a", .intermediate, [0], []⟩) := by
    have hlisted : ∀ s t label kind,
        Draft.Resolves (takeoverSteps ⟨text "a", .intermediate, [0], []⟩) s t label kind →
          kind = if s = 2 then .fallbackConsume else .charClass := by
      intro s t label kind h
      obtain ⟨front, src, dst, back, hsplit, hsrc, -⟩ := h
      -- The edges stand behind one, three and four steps.
      rcases front with _ | ⟨_, _ | ⟨_, _ | ⟨_, _ | ⟨_, _ | ⟨_, _⟩⟩⟩⟩⟩ <;>
        simp only [takeoverSteps, List.nil_append, List.cons_append, List.cons.injEq, reduceCtorEq,
          BuildStep.edge.injEq, false_and, and_false, List.nil_eq, List.append_eq_nil_iff] at hsplit
      · obtain ⟨rfl, ⟨rfl, rfl, rfl, rfl⟩, rfl⟩ := hsplit
        have hstart : some s = some 0 := hsrc.symm.trans (by decide +kernel)
        cases hstart
        rfl
      · obtain ⟨rfl, rfl, rfl, ⟨rfl, rfl, rfl, rfl⟩, rfl⟩ := hsplit
        have hstart : some s = some 0 := hsrc.symm.trans (by decide +kernel)
        cases hstart
        rfl
      · obtain ⟨rfl, rfl, rfl, rfl, ⟨rfl, rfl, rfl, rfl⟩, rfl⟩ := hsplit
        have hadded : some s = some 2 := hsrc.symm.trans (by decide +kernel)
        cases hadded
        rfl
    intro s t label kind kind' h h'
    rw [hlisted s t label kind h, hlisted s t label kind' h']
  exact ⟨_, hadded, by simp [takeoverSteps], hkinds, _, _,
    Draft.build_eq_ok (by decide +kernel) (by decide +kernel),
    Draft.finish_eq_ok_iff.mpr ⟨by decide +kernel, by decide +kernel, rfl⟩, by decide +kernel,
    by decide +kernel⟩

end Automaton

end TokenGraph
