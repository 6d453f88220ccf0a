import Mathlib.Logic.Relation
import TokenGraph.Proofs.WellFormed

/-!
# Prefix trees

The graph that symbols make, whatever was built before them. Each of their beginnings has one state,
in the order in which they first occur, and one edge that enters it, from the beginning that is a
character shorter.
-/

namespace TokenGraph

namespace Automaton

/-- What the states of the tree stand for: the empty text at the start, then the other beginnings
of the symbols, each where it first occurs. -/
def words (symbols : List Text) : List Text := [] :: (beginnings symbols).eraseDups

/-- The smallest tree in which all beginnings of the symbols can be walked. Edge `i` enters state
`i + 1`. -/
structure IsPrefixTree (m : Automaton) (symbols : List Text) : Prop where
  names : m.names = (startLabel, .start) :: (beginnings symbols).eraseDups.map fun w =>
    (w, if w ∈ symbols then .accepting else .intermediate)
  edges : ∀ e, e ∈ m.edges ↔ ∃ i t w c, (words symbols)[t]? = some w ∧
    (words symbols)[i + 1]? = some (w ++ [c]) ∧
    e = ⟨i, t, i + 1, [c], .charClass, some (.only c)⟩
  incoming : ∀ (s : Nat) (state : State), m.states[s]? = some state →
    state.incoming = if s = start then [] else [s - 1]
  count : m.stateCount = m.edgeCount + 1
  reached : ∀ s < m.stateCount,
    Relation.ReflTransGen (fun s t => ∃ e ∈ m.outgoing s, e.dst = t) start s
  separate : ∀ s, ((m.outgoing s).map Edge.label).Nodup

/-! ### First occurrences -/

/-- Noting texts one by one keeps each of them where it first occurs. -/
theorem foldl_note_nil (vs : List Text) : vs.foldl note [] = vs.eraseDups := by
  induction vs using List.reverseRecOn with
  | nil => rfl
  | append_singleton vs v ih =>
    rw [List.foldl_append, List.foldl_cons, List.foldl_nil, ih, note, List.eraseDups_append]
    by_cases hv : v ∈ vs <;> simp [List.removeAll, List.eraseDups_cons, hv]

theorem foldl_note_beginnings (symbols : List Text) :
    (beginnings symbols).foldl note [[]] = words symbols := by
  have hkeep : (beginnings symbols).filter (fun v => !v == []) = beginnings symbols := by
    rw [List.filter_eq_self]
    intro v hv
    simpa using (mem_beginnings.mp hv).1
  calc (beginnings symbols).foldl note [[]] = ([] :: beginnings symbols).foldl note [] := rfl
    _ = ([] :: beginnings symbols).eraseDups := foldl_note_nil _
    _ = words symbols := by rw [List.eraseDups_cons, hkeep, words]

/-! ### Edges -/

/-- Edge `i` leads to the word `i + 1`, from the word that is a character shorter. -/
def Joined (m : Automaton) (ws : List Text) : Prop :=
  ws.length = m.edgeCount + 1 ∧ ∀ (i : Nat) (e : Edge), m.edges[i]? = some e →
    ∃ t w c, ws[t]? = some w ∧ ws[i + 1]? = some (w ++ [c]) ∧
      e = ⟨i, t, i + 1, [c], .charClass, some (.only c)⟩

theorem Joined.grow {m : Automaton} {ws accepted : List Text} {s : Nat} {w : Text} {c : Char}
    (h : m.Joined ws) (htree : m.IsTree ws accepted) (hs : ws[s]? = some w) :
    (m.grow s w c).Joined (ws ++ [w ++ [c]]) := by
  obtain ⟨hlength, hedges⟩ := h
  have hedgeCount : m.edgeCount = m.edges.size := rfl
  have hstateCount : m.stateCount = ws.length := htree.count
  refine ⟨?_, ?_⟩
  · simp [edgeCount, htree.grow_edges hs, hlength]
  · intro i e he
    rw [htree.grow_edges hs, Array.getElem?_push] at he
    split at he
    · next hi =>
      cases he
      refine ⟨s, w, c, getElem?_concat_eq_some.mpr (.inl hs),
        getElem?_concat_eq_some.mpr (.inr ⟨by omega, rfl⟩), ?_⟩
      rw [Edge.mk.injEq]
      exact ⟨hi.symm, rfl, by omega, rfl, rfl, rfl⟩
    · obtain ⟨t, v, d, ht, hi, rfl⟩ := hedges i e he
      exact ⟨t, v, d, getElem?_concat_eq_some.mpr (.inl ht),
        getElem?_concat_eq_some.mpr (.inl hi), rfl⟩

theorem ofLiterals_joined (symbols : List Text) : (ofLiterals symbols).Joined (words symbols) := by
  rw [← foldl_note_beginnings]
  apply ofLiterals_induction (P := Joined)
  case hinitial => exact ⟨rfl, by simp [initial]⟩
  case hgrow => exact fun htree hjoined hs _ => hjoined.grow htree hs
  case haccept => exact fun _ hjoined _ _ => hjoined

namespace IsTree

variable {m : Automaton} {ws accepted : List Text}

/-- Only one edge can join two words, so the words tell all edges. -/
theorem mem_edges_iff (h : m.IsTree ws accepted) (hjoined : m.Joined ws) (e : Edge) :
    e ∈ m.edges ↔ ∃ i t w c, ws[t]? = some w ∧ ws[i + 1]? = some (w ++ [c]) ∧
      e = ⟨i, t, i + 1, [c], .charClass, some (.only c)⟩ := by
  obtain ⟨hlength, hedges⟩ := hjoined
  constructor
  · intro he
    obtain ⟨i, hi⟩ := Array.mem_iff_getElem?.mp he
    exact ⟨i, hedges i e hi⟩
  · rintro ⟨i, t, w, c, ht, hi, rfl⟩
    have hlt : i < m.edges.size := by
      have := (List.getElem?_eq_some_iff.mp hi).1
      rw [hlength, edgeCount] at this
      omega
    obtain ⟨t', w', c', ht', hi', he⟩ := hedges i _ (Array.getElem?_eq_getElem hlt)
    obtain ⟨rfl, hc⟩ := List.append_inj' (Option.some.inj (hi.symm.trans hi')) rfl
    obtain rfl : c = c' := List.singleton_inj.mp hc
    obtain rfl : t = t' := h.index_unique ht ht'
    exact Array.mem_of_getElem? ((Array.getElem?_eq_getElem hlt).trans (congrArg some he))

theorem reached (h : m.IsTree ws accepted) {s : Nat} {w : Text} (hs : ws[s]? = some w) :
    Relation.ReflTransGen (fun s t => ∃ e ∈ m.outgoing s, e.dst = t) start s := by
  induction w using List.reverseRecOn generalizing s with
  | nil =>
    obtain rfl : start = s := h.index_unique h.root hs
    exact .refl
  | append_singleton w c ih =>
    obtain ⟨t, ht⟩ := List.mem_iff_getElem?.mp (h.closed w c (List.mem_of_getElem? hs))
    obtain ⟨e, he, hlabel⟩ := h.child t s w c ht hs
    obtain ⟨d, hliteral, hdst⟩ := h.edge t w ht e he
    obtain rfl : c = d := List.singleton_inj.mp (hlabel.symm.trans hliteral.label)
    exact (ih ht).tail ⟨e, he, h.index_unique hdst hs⟩

/-- Edges of one label lead from a state to one word, and no two edges have the same ends. -/
theorem separate (h : m.IsTree ws accepted) (hm : m.WellFormed) (s : Nat) :
    ((m.outgoing s).map Edge.label).Nodup := by
  have hsingle : (m.outgoing s).Pairwise
      fun e d => (e.src, e.dst, e.label) ≠ (d.src, d.dst, d.label) := by
    rw [hm.outgoing_eq_filter]
    exact (List.pairwise_map.mp hm.single).filter _
  refine List.pairwise_map.mpr (hsingle.imp_of_mem ?_)
  intro e d he hd hne hlabel
  have hends : ∀ e ∈ m.outgoing s, e.src = s ∧ s < ws.length := by
    intro e he
    rw [hm.outgoing_eq_filter, List.mem_filter, decide_eq_true_iff] at he
    have hsrc := (hm.inside e (Array.mem_toList_iff.mp he.1)).1
    rw [he.2, stateCount, h.count] at hsrc
    exact ⟨he.2, hsrc⟩
  obtain ⟨w, hw⟩ : ∃ w, ws[s]? = some w := ⟨_, List.getElem?_eq_getElem (hends e he).2⟩
  obtain ⟨c, hc, hdst⟩ := h.edge s w hw e he
  obtain ⟨c', hc', hdst'⟩ := h.edge s w hw d hd
  obtain rfl : c = c' := List.singleton_inj.mp (by rw [← hc.label, ← hc'.label, hlabel])
  exact hne (by rw [(hends e he).1, (hends d hd).1, h.index_unique hdst hdst', hlabel])

end IsTree

theorem Joined.incoming {m : Automaton} {ws : List Text} (h : m.Joined ws) (hm : m.WellFormed)
    {s : Nat} {state : State} (hs : m.states[s]? = some state) (hlt : s < ws.length) :
    state.incoming = if s = start then [] else [s - 1] := by
  have hdst : ∀ e ∈ m.edges.toList, e.dst = e.id + 1 := by
    intro e he
    obtain ⟨i, hi⟩ := Array.mem_iff_getElem?.mp (Array.mem_toList_iff.mp he)
    obtain ⟨t, w, c, -, -, rfl⟩ := h.2 i e hi
    rfl
  have hids : m.edgesAt Edge.dst s = (List.range m.edgeCount).filter (fun i => i + 1 = s) := by
    rw [edgesAt, ← hm.numbered, List.filter_map]
    congr 1
    apply List.filter_congr
    intro e he
    rw [hdst e he]
    rfl
  rw [hm.incoming_eq hs, hids]
  cases s with
  | zero => simp [start]
  | succ i =>
    have hi : i ∈ List.range m.edgeCount := by
      rw [h.1] at hlt
      exact List.mem_range.mpr (by omega)
    have hone := List.count_eq_one_of_mem List.nodup_range hi
    simp [start, List.filter_eq, hone]

/-! ### Names -/

/-- A word that is no symbol is neither the start nor an error, so it lies in between. -/
theorem Spelled.names_eq {m : Automaton} {ws accepted : List Text} (h : m.Spelled ([] :: ws))
    (htree : m.IsTree ([] :: ws) accepted) (hm : m.WellFormed) :
    m.names = (startLabel, .start) :: ws.map fun w =>
      (w, if w ∈ accepted then .accepting else .intermediate) := by
  apply List.ext_getElem?
  intro s
  cases s with
  | zero => exact List.head?_eq_getElem?.symm.trans hm.begins
  | succ s =>
    have hspelled := h (s + 1) (Nat.succ_ne_zero s)
    rw [List.getElem?_cons_succ] at hspelled ⊢
    rw [List.getElem?_map, ← hspelled]
    cases hname : m.names[s + 1]? with
    | none => rfl
    | some name =>
      obtain ⟨w, role⟩ := name
      have hw : ([] :: ws)[s + 1]? = some w := by
        rw [List.getElem?_cons_succ, ← hspelled, hname]
        rfl
      have hrole : m.role? (s + 1) = some role := by rw [role?_eq_names, hname]; rfl
      have haccepting := htree.accepting (s + 1) w hw
      rw [isAccepting_iff, hrole, Option.some.injEq] at haccepting
      have hstart : role ≠ .start := fun heq => Nat.succ_ne_zero s ((hm.isStart_iff hname).mp heq)
      have herror : role ≠ .error := by
        rintro rfl
        have := htree.noError (s + 1)
        rw [Bool.eq_false_iff, Ne, isError_iff] at this
        exact this hrole
      have hrole' : role = if w ∈ accepted then .accepting else .intermediate := by
        cases role with
        | start => exact absurd rfl hstart
        | intermediate => rw [if_neg (by simpa using haccepting)]
        | accepting => rw [if_pos (haccepting.mp rfl)]
        | error => exact absurd rfl herror
      rw [hrole']
      rfl

end Automaton

open Automaton

theorem Automaton.ofLiterals_isPrefixTree (symbols : List Text) :
    (ofLiterals symbols).IsPrefixTree symbols := by
  obtain ⟨accepted, htree, haccepted⟩ := ofLiterals_isTree symbols
  obtain ⟨hm, hspelled⟩ := ofLiterals_spelled symbols
  have hjoined := ofLiterals_joined symbols
  rw [foldl_note_beginnings] at htree hspelled
  have hcount : (ofLiterals symbols).stateCount = (words symbols).length := htree.count
  constructor
  case names =>
    rw [hspelled.names_eq htree hm, List.cons.injEq]
    refine ⟨rfl, List.map_congr_left fun w hw => ?_⟩
    have hne : w ≠ [] := (mem_beginnings.mp (List.mem_eraseDups.mp hw)).1
    simp only [haccepted, hne, ne_eq, not_false_eq_true, true_and]
  case edges => exact htree.mem_edges_iff hjoined
  case incoming =>
    intro s state hs
    refine hjoined.incoming hm hs ?_
    rw [← hcount]
    exact (Array.getElem?_eq_some_iff.mp hs).1
  case count => rw [hcount, hjoined.1]
  case reached =>
    intro s hs
    rw [hcount] at hs
    exact htree.reached (List.getElem?_eq_getElem hs)
  case separate => exact htree.separate hm

/-- After symbols the graph is the prefix tree of them, whatever was built before. -/
theorem Draft.run_literals [PatternEngine] (steps : List BuildStep) (symbols : List Text) :
    (run (steps ++ [.literals symbols])).graph = (run [.literals symbols]).graph ∧
      (run (steps ++ [.literals symbols])).graph.IsPrefixTree symbols := by
  have halone : (run [.literals symbols]).graph = ofLiterals symbols :=
    graph_run_literals [] symbols
  rw [graph_run_literals, halone]
  exact ⟨rfl, ofLiterals_isPrefixTree symbols⟩

/-- A symbol behind a longer one, an empty one, and one that is the label of the start. -/
example : (Draft.run [.state (.fresh (text "left over") .error),
    .literals [text "ab", [], text "a", text "S", text "ab"]]).graph.names =
      [(startLabel, .start), (text "a", .accepting), (text "ab", .accepting),
        (text "S", .accepting)] := by decide +kernel

end TokenGraph
