import Mathlib.Data.List.Infix
import TokenGraph.Proofs.Rows
import TokenGraph.Proofs.Run

/-!
# Recognition

A scanner that never leaves a character unread goes along one path, and its run ends where the path
does. Where the texts along the path are just the beginnings of some words, the run reads the
longest of them that it finds in front of it.
-/

namespace TokenGraph

/-- The text is the beginning of a word. -/
def Viable (words : Text → Prop) (v : Text) : Prop := ∃ w, words w ∧ v <+: w

/-- The longest beginning of a word that a text begins with. -/
structure LongestViable (words : Text → Prop) (s v : Text) : Prop where
  isPrefix : v <+: s
  viable : Viable words v
  longest : ∀ u, u <+: s → Viable words u → u.length ≤ v.length

theorem LongestViable.unique {words : Text → Prop} {s u v : Text}
    (hu : LongestViable words s u) (hv : LongestViable words s v) : u = v := by
  have huv : u.length ≤ v.length := hv.longest u hu.isPrefix hu.viable
  have hvu : v.length ≤ u.length := hu.longest v hv.isPrefix hv.viable
  exact (List.prefix_of_prefix_length_le hu.isPrefix hv.isPrefix huv).eq_of_length_le hvu

/-- Where all words begin with one character, nothing is a beginning only of what begins with
another. -/
theorem LongestViable.eq_nil_iff {words : Text → Prop} {s v : Text} {c : Char}
    (h : LongestViable words s v) (hc : Viable words [c]) (hwords : ∀ w, words w → [c] <+: w) :
    v = [] ↔ ¬ [c] <+: s := by
  constructor
  · rintro rfl hs
    have hlength := h.longest [c] hs hc
    simp at hlength
  · intro hs
    obtain ⟨w, hw, hbegin⟩ := h.viable
    cases v with
    | nil => rfl
    | cons d v =>
      obtain ⟨u, rfl⟩ := hwords w hw
      obtain ⟨rfl, -⟩ := List.cons_prefix_cons.mp hbegin
      exact absurd ((List.prefix_append [d] v).trans h.isPrefix) hs

namespace Row

/-- No edge leads on without reading. -/
def eager (r : Row) : Bool :=
  r.arcs.all fun
    | (.otherwise false, some _) => false
    | _ => true

private theorem direct_ne_stay {boundary : Char → Bool} {c : Char} {left : Move} {t : Nat}
    (h : left ≠ .stay t) (arcs : List (Guard × Option Nat)) :
    direct boundary c left arcs ≠ .stay t := by
  induction arcs with
  | nil => exact h
  | cons arc arcs ih =>
    match arc with
    | (.chars set, none) | (.chars set, some u) =>
      rw [direct]
      split
      · simp
      · exact ih
    | (.boundary, u) =>
      rw [direct]
      split
      · simp
      · exact ih
    | (.otherwise consumes, u) => exact ih

private theorem fallback_ne_stay {accepted : Bool} {arcs : List (Guard × Option Nat)}
    (h : (Row.mk accepted arcs).eager = true) (t : Nat) :
    fallback (.stop accepted) arcs ≠ .stay t := by
  induction arcs with
  | nil => simp
  | cons arc arcs ih =>
    rw [eager, List.all_cons, Bool.and_eq_true] at h
    obtain ⟨harc, hrest⟩ := h
    match arc with
    | (.chars set, u) | (.boundary, u) => exact ih hrest
    | (.otherwise true, none) | (.otherwise true, some u) | (.otherwise false, none) => simp
    | (.otherwise false, some u) => cases harc

theorem move_ne_stay {r : Row} (h : r.eager = true) (boundary : Char → Bool) (c : Char) (t : Nat) :
    r.move boundary c ≠ .stay t :=
  direct_ne_stay (fallback_ne_stay h t) r.arcs

end Row

namespace Scanner

variable {m : Scanner} {s t u : Nat} {c : Char} {v w : Text}

/-- No move leaves its character unread. -/
def Eager (m : Scanner) : Prop := ∀ s c t, m.move s c ≠ .stay t

/-! ### Texts that are read -/

theorem Reads.concat (hw : m.Reads s w t) (h : m.move t c = .advance u) :
    m.Reads s (w ++ [c]) u :=
  hw.append (.single h)

theorem reads_append_iff : m.Reads s (v ++ w) u ↔ ∃ t, m.Reads s v t ∧ m.Reads t w u := by
  constructor
  · intro h
    induction v generalizing s with
    | nil => exact ⟨s, .nil, h⟩
    | cons c v ih =>
      obtain ⟨-⟩ | ⟨hmove, hw⟩ := h
      obtain ⟨t, hv, hw⟩ := ih hw
      exact ⟨t, .cons hmove hv, hw⟩
  · rintro ⟨t, hv, hw⟩
    exact hv.append hw

theorem Reads.unique (h : m.Reads s w t) (h' : m.Reads s w u) : t = u := by
  induction h with
  | nil =>
    obtain ⟨-⟩ := h'
    rfl
  | cons hmove _ ih =>
    obtain ⟨-⟩ | ⟨hmove', hw'⟩ := h'
    rw [hmove, Move.advance.injEq] at hmove'
    subst hmove'
    exact ih hw'

/-! ### Where a run ends -/

/-- The scanner is done in front of a text: there is none left, or its first character stops it. -/
inductive Finishes (m : Scanner) (t : Nat) : Text → Bool → Prop
  | atEnd {accepted : Bool} (h : m.graph.isAccepting t = accepted) : Finishes m t [] accepted
  | atCharacter {c : Char} {rest : Text} {accepted : Bool} (h : m.move t c = .stop accepted) :
      Finishes m t (c :: rest) accepted

theorem Finishes.runFrom {rest : Text} {accepted : Bool} (h : m.Finishes t rest accepted) :
    m.runFrom t rest = ⟨accepted, []⟩ := by
  cases h with
  | atEnd h => rw [Scanner.runFrom, h]
  | atCharacter h => exact runFrom_of_stop h _

private theorem exists_reads_finishes (h : m.Eager) (s : Nat) (v : Text) :
    ∃ w rest t accepted, v = w ++ rest ∧ m.Reads s w t ∧ m.Finishes t rest accepted := by
  induction v generalizing s with
  | nil => exact ⟨[], [], s, _, rfl, .nil, .atEnd rfl⟩
  | cons c v ih =>
    cases hmove : m.move s c with
    | stop accepted => exact ⟨[], c :: v, s, accepted, rfl, .nil, .atCharacter hmove⟩
    | stay t => exact absurd hmove (h s c t)
    | advance t =>
      obtain ⟨w, rest, u, accepted, rfl, hw, hfinishes⟩ := ih t
      exact ⟨c :: w, rest, u, accepted, rfl, .cons hmove hw, hfinishes⟩

/-- A run reads the text that leads to where it is done. -/
theorem run_eq_iff_finishes (h : m.Eager) {accepted : Bool} : m.run v = ⟨accepted, w⟩ ↔
    ∃ t rest, v = w ++ rest ∧ m.Reads Automaton.start w t ∧ m.Finishes t rest accepted := by
  have hrun : ∀ {w rest t accepted}, m.Reads Automaton.start w t → m.Finishes t rest accepted →
      m.run (w ++ rest) = ⟨accepted, w⟩ := by
    intro w rest t accepted hw hfinishes
    rw [run, hw.runFrom, hfinishes.runFrom, List.append_nil]
  constructor
  · intro heq
    obtain ⟨w', rest, t, accepted', rfl, hw, hfinishes⟩ := exists_reads_finishes h Automaton.start v
    rw [hrun hw hfinishes] at heq
    cases heq
    exact ⟨t, rest, rfl, hw, hfinishes⟩
  · rintro ⟨t, rest, rfl, hw, hfinishes⟩
    exact hrun hw hfinishes

/-- What is rejected is all that is not accepted, and what is read of it is determined. -/
theorem rejects_iff {accepts reads : Text → Prop} (haccepts : ∀ w, m.run v = ⟨true, w⟩ ↔ accepts w)
    (hreads : ∀ w, m.run v = ⟨false, w⟩ → reads w) (hunique : ∀ u w, reads u → reads w → u = w) :
    m.run v = ⟨false, w⟩ ↔ (¬ ∃ u, accepts u) ∧ reads w := by
  constructor
  · intro hrun
    refine ⟨?_, hreads w hrun⟩
    rintro ⟨u, hu⟩
    rw [← haccepts, hrun] at hu
    cases hu
  · rintro ⟨hnone, hw⟩
    cases hrun : m.run v with
    | mk accepted u =>
      cases accepted with
      | true => exact absurd ⟨u, (haccepts u).mp hrun⟩ hnone
      | false => rw [hunique u w (hreads u hrun) hw]

/-! ### Words along the path -/

/-- Texts for each state: those that lead to it are among them, and all of them can be completed to
words, which can be read. -/
structure Covers (m : Scanner) (words : Text → Prop) (part : Nat → Text → Prop) : Prop where
  eager : m.Eager
  start : part Automaton.start []
  step : ∀ {t u c w}, part t w → m.move t c = .advance u → part u (w ++ [c])
  viable : ∀ {t w}, part t w → Viable words w
  reads : ∀ {w}, words w → ∃ t, m.Reads Automaton.start w t

namespace Covers

variable {words : Text → Prop} {part : Nat → Text → Prop}

/-- What every step keeps is kept along the path. -/
theorem part_of_reads (h : m.Covers words part) (hw : m.Reads Automaton.start w t) : part t w := by
  induction w using List.reverseRecOn generalizing t with
  | nil =>
    obtain ⟨-⟩ := hw
    exact h.start
  | append_singleton w c ih =>
    obtain ⟨s, hw, hc⟩ := reads_append_iff.mp hw
    obtain ⟨-⟩ | ⟨hmove, hnil⟩ := hc
    obtain ⟨-⟩ := hnil
    exact h.step (ih hw) hmove

theorem viable_iff (h : m.Covers words part) :
    Viable words v ↔ ∃ t, m.Reads Automaton.start v t := by
  constructor
  · rintro ⟨w, hw, rest, rfl⟩
    obtain ⟨u, hreads⟩ := h.reads hw
    obtain ⟨t, hv, -⟩ := reads_append_iff.mp hreads
    exact ⟨t, hv⟩
  · rintro ⟨t, hv⟩
    exact h.viable (h.part_of_reads hv)

theorem longestViable (h : m.Covers words part) {accepted : Bool}
    (hrun : m.run v = ⟨accepted, w⟩) : LongestViable words v w := by
  obtain ⟨t, rest, rfl, hw, hfinishes⟩ := (run_eq_iff_finishes h.eager).mp hrun
  refine ⟨List.prefix_append w rest, h.viable_iff.mpr ⟨t, hw⟩, ?_⟩
  intro u hu hbegins
  by_contra hlong
  obtain ⟨x, rfl⟩ : w <+: u :=
    List.prefix_of_prefix_length_le (List.prefix_append w rest) hu (by omega)
  obtain ⟨t', hreads⟩ := h.viable_iff.mp hbegins
  obtain ⟨s, hw', hx⟩ := reads_append_iff.mp hreads
  obtain rfl := hw.unique hw'
  have hrest : x <+: rest := (List.prefix_append_right_inj w).mp hu
  -- What is left begins with a character that the path leads over, so nothing ends in front of it.
  cases hx with
  | nil => simp at hlong
  | cons hmove _ =>
    obtain ⟨y, rfl⟩ := hrest
    cases hfinishes with
    | atCharacter hstop =>
      rw [hmove] at hstop
      cases hstop

/-- What is accepted in front of what, told by the states alone. -/
theorem accepts_iff (h : m.Covers words part) {accepts : Text → Text → Prop}
    (hpart : ∀ {t w rest}, part t w → m.Finishes t rest true → accepts w rest)
    (hreads : ∀ {w rest}, accepts w rest →
      ∃ t, m.Reads Automaton.start w t ∧ m.Finishes t rest true) :
    m.run v = ⟨true, w⟩ ↔ ∃ rest, v = w ++ rest ∧ accepts w rest := by
  rw [run_eq_iff_finishes h.eager]
  constructor
  · rintro ⟨t, rest, rfl, hw, hfinishes⟩
    exact ⟨rest, rfl, hpart (h.part_of_reads hw) hfinishes⟩
  · rintro ⟨rest, rfl, haccepts⟩
    obtain ⟨t, hw, hfinishes⟩ := hreads haccepts
    exact ⟨t, rest, rfl, hw, hfinishes⟩

/-- Words that end by themselves are accepted in front of anything. -/
theorem accepts_iff_of_final (h : m.Covers words part)
    (hpart : ∀ {t w rest}, part t w → m.Finishes t rest true → words w)
    (hfinal : ∀ {w}, words w →
      ∃ t, m.Reads Automaton.start w t ∧ ∀ rest, m.Finishes t rest true) :
    m.run v = ⟨true, w⟩ ↔ words w ∧ w <+: v := by
  have haccepts : m.run v = ⟨true, w⟩ ↔ ∃ rest, v = w ++ rest ∧ words w := by
    refine h.accepts_iff hpart ?_
    intro w rest hw
    obtain ⟨t, hreads, hfinishes⟩ := hfinal hw
    exact ⟨t, hreads, hfinishes rest⟩
  rw [haccepts]
  constructor
  · rintro ⟨rest, rfl, hw⟩
    exact ⟨hw, List.prefix_append w rest⟩
  · rintro ⟨hw, rest, rfl⟩
    exact ⟨rest, rfl, hw⟩

end Covers

end Scanner

end TokenGraph
