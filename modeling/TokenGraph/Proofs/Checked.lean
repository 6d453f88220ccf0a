import TokenGraph.Analyzer
import TokenGraph.Proofs.Graph

/-!
# Checked runs

A run that looks up every edge may fail. Where it does not, it gives what the run gives that takes a
list to end at a missing edge; and it does not fail on graphs in which every listed edge is there.
-/

namespace TokenGraph

/-- A computation gives a certain result or fails, and fails only where some condition does. -/
inductive Agrees {α : Type} (sound : Prop) (a : α) : Except MissingEdge α → Prop
  | ok : Agrees sound a (.ok a)
  | error (edge : MissingEdge) (h : ¬ sound) : Agrees sound a (.error edge)

namespace Agrees

variable {α β : Type} {sound sound' : Prop} {a b : α} {x : Except MissingEdge α}

theorem eq_of_eq_ok (h : Agrees sound a x) (hx : x = .ok b) : b = a := by
  cases h with
  | ok => exact (Except.ok.inj hx).symm
  | error edge _ => cases hx

theorem eq_ok (h : Agrees sound a x) (hsound : sound) : x = .ok a := by
  cases h with
  | ok => rfl
  | error edge hunsound => exact absurd hsound hunsound

theorem mono (h : Agrees sound a x) (himp : sound' → sound) : Agrees sound' a x := by
  cases h with
  | ok => exact .ok
  | error edge hunsound => exact .error edge fun hsound => hunsound (himp hsound)

theorem bind (h : Agrees sound a x) {f : α → Except MissingEdge β} {b : β}
    (hf : Agrees sound b (f a)) : Agrees sound b (x >>= f) := by
  cases h with
  | ok => exact hf
  | error edge hunsound => exact .error edge hunsound

end Agrees

theorem Lookup.search_agrees {α : Type} (l : Lookup) (find : List Edge → Option α) :
    Agrees (l.missing = none) (find l.found) (l.search find) := by
  rw [search]
  cases find l.found with
  | some a => exact .ok
  | none =>
    cases hmissing : l.missing with
    | none => exact .ok
    | some edge => exact .error edge (by simp)

namespace Scanner

variable (m : Scanner)

theorem checkedMove_agrees (s : Nat) (c : Char) :
    Agrees m.graph.Resolved (m.move s c) (m.checkedMove s c) := by
  have hsearch : ∀ find : List Edge → Option Move,
      Agrees m.graph.Resolved (find (m.graph.outgoing s)) ((m.graph.listed s).search find) :=
    fun find => (Lookup.search_agrees _ find).mono fun hm => hm.missing_eq_none s
  refine (hsearch (m.direct? c)).bind ?_
  rw [move]
  cases m.direct? c (m.graph.outgoing s) with
  | some direct => exact .ok
  | none => exact (hsearch fallback?).bind .ok

theorem checkedSettle_agrees (c : Char) (stays s : Nat) :
    Agrees m.graph.Resolved (m.settle c stays s) (m.checkedSettle c stays s) := by
  induction stays generalizing s with
  | zero =>
    have h := m.checkedMove_agrees s c
    rw [settle, checkedSettle]
    generalize m.checkedMove s c = move at h ⊢
    cases h with
    | ok => cases m.move s c <;> exact .ok
    | error edge h => exact .error edge h
  | succ stays ih =>
    have h := m.checkedMove_agrees s c
    rw [settle, checkedSettle]
    generalize m.checkedMove s c = move at h ⊢
    cases h with
    | ok =>
      cases m.move s c with
      | stop accepted => exact .ok
      | advance next => exact .ok
      | stay next => exact ih next
    | error edge h => exact .error edge h

theorem checkedRunFrom_agrees (s : Nat) (w : Text) :
    Agrees m.graph.Resolved (m.runFrom s w) (m.checkedRunFrom s w) := by
  induction w generalizing s with
  | nil => exact .ok
  | cons c rest ih =>
    have h := m.checkedSettle_agrees c m.graph.stateCount s
    rw [runFrom, checkedRunFrom]
    generalize m.checkedSettle c m.graph.stateCount s = settled at h ⊢
    cases h with
    | ok =>
      cases m.settle c m.graph.stateCount s with
      | halted accepted => exact .ok
      | advanced next => exact (ih next).bind .ok
    | error edge h => exact .error edge h

end Scanner

theorem Prototype.checkedScan_agrees (p : Prototype) (operators : List Text) (s : Text) :
    Agrees p.machine.Resolved (p.scan operators s) (p.checkedScan operators s) :=
  (p.scanner operators).checkedRunFrom_agrees Automaton.start s

theorem checkedContest_agrees (operators : List Text) (s : Text) (trials : List Prototype)
    (longest : Text) : Agrees (∀ p ∈ trials, p.machine.Resolved)
      (contest operators s trials longest) (checkedContest operators s trials longest) := by
  induction trials generalizing longest with
  | nil => exact .ok
  | cons p rest ih =>
    rw [contest, checkedContest]
    refine ((p.checkedScan_agrees operators s).mono fun h => h p List.mem_cons_self).bind ?_
    split
    · exact .ok
    · exact (ih _).mono fun h q hq => h q (List.mem_cons_of_mem p hq)

namespace Analyzer

variable (a : Analyzer)

/-- The automata that are tried hold every edge that they list. -/
def Resolved : Prop := ∀ p ∈ a.trials, p.machine.Resolved

theorem checkedNext_agrees (offset : Nat) (c : Char) (rest : Text) :
    Agrees a.Resolved (a.next offset c rest) (a.checkedNext offset c rest) :=
  (checkedContest_agrees a.language.operators (c :: rest) a.trials []).bind .ok

theorem checkedTokensFrom_agrees (skip offset : Nat) (s : Text) :
    Agrees a.Resolved (a.tokensFrom skip offset s) (a.checkedTokensFrom skip offset s) := by
  induction s generalizing skip offset with
  | nil => cases skip <;> exact .ok
  | cons c rest ih =>
    cases skip with
    | zero =>
      refine (a.checkedNext_agrees offset c rest).bind ?_
      exact (ih _ _).bind .ok
    | succ skip => exact ih skip offset

theorem checkedAnalyze_agrees (s : Text) :
    Agrees a.Resolved (a.analyzeLogged s) (a.checkedAnalyze s) :=
  a.checkedTokensFrom_agrees 0 0 s

end Analyzer

end TokenGraph
