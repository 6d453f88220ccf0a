import TokenGraph.Proofs.Pattern.Notation
import TokenGraph.Proofs.Rows

/-!
# Patterns of a whole character

The class of a written pattern comes from a longer one, which holds the written text in a group
between anchors. The group keeps the pattern to itself unless the text closes it with a parenthesis
of its own, or ends in a comment, which takes the end of the group with it.

Nothing is supposed of the engine but what its grammar says of groups, anchors and comments, and
that it looks for a match anywhere in a text.
-/
namespace TokenGraph

/-- How patterns are read, and what they match once their flags are resolved. -/
structure PatternGrammar where
  Tree : Type
  /-- The part of a text that reads as a pattern, and what stands behind it: nothing, or a closing
  parenthesis that nothing has opened. -/
  front? : Text → Option (Tree × Text)
  /-- Whether a pattern keeps the limits that there are for its size and its depth. -/
  Admitted : Tree → Prop
  /-- Whether a pattern matches what lies between two positions of a text. -/
  Matches : Tree → Text → Nat → Nat → Prop
  textStart : Tree
  textEnd : Tree
  seq : Tree → Tree → Tree

/-- What stands behind the written pattern in its frame. -/
def frameEnd : Text := text ")$"

namespace PatternGrammar

/-- A pattern between the anchors of a whole text. -/
def whole (g : PatternGrammar) (t : g.Tree) : g.Tree := g.seq g.textStart (g.seq t g.textEnd)

/-- A text whose reading stops in front of a closing parenthesis that nothing has opened. -/
def StopsEarly (g : PatternGrammar) (p : Text) : Prop :=
  ∃ t rest, g.front? p = some (t, rest) ∧ rest ≠ []

/-- A pattern that reads on into the end of its frame, as one that ends in a comment does. -/
def RunsOn (g : PatternGrammar) (p : Text) : Prop :=
  ∃ t, g.front? p = some (t, []) ∧ g.front? (p ++ frameEnd) = some (t, [])

/-- A pattern that is too large or too deep in its frame, and not without it. -/
def Outgrows (g : PatternGrammar) (p : Text) : Prop :=
  ∃ t, g.front? p = some (t, []) ∧ g.Admitted t ∧ ¬ g.Admitted (g.whole t)

/-- An engine has this grammar: its patterns are the texts that read as a whole and keep the limits,
and it finds their matches wherever they lie. Reading goes from left to right, and what stands
behind a parenthesis that nothing has opened is not read. -/
structure Describes (g : PatternGrammar) [PatternEngine] : Prop where
  compiles (p : Text) : (PatternEngine.compile? p).isSome ↔
    ∃ t, g.front? p = some (t, []) ∧ g.Admitted t
  found {p : Text} {r : CompiledPattern} {t : g.Tree} (hr : PatternEngine.compile? p = some r)
    (ht : g.front? p = some (t, [])) (w : Text) : r.found w = true ↔ ∃ i j, g.Matches t w i j
  suffix {s rest : Text} {t : g.Tree} (h : g.front? s = some (t, rest)) : rest <:+ s
  settled {s u rest : Text} {t : g.Tree} (hu : '\n' ∉ u)
    (h : g.front? (s ++ ')' :: u) = some (t, rest ++ ')' :: u)) :
    ∃ rest', g.front? s = some (t, rest')
  /-- Behind a pattern a parenthesis is not opened, or a comment takes in the rest of the line. -/
  closes {s u : Text} {t : g.Tree} (hu : '\n' ∉ u) (h : g.front? s = some (t, [])) :
    g.front? (s ++ ')' :: u) = some (t, ')' :: u) ∨ g.front? (s ++ ')' :: u) = some (t, [])
  /-- A group stands for what it holds. -/
  grouped {s : Text} {t : g.Tree} (h : g.front? s = some (t, frameEnd)) :
    g.front? (text "^(?:" ++ s) = some (g.whole t, [])
  /-- A group that is opened has to be closed. -/
  closed {s rest : Text} {t : g.Tree} (h : g.front? (text "^(?:" ++ s) = some (t, rest)) :
    ∃ t' rest', g.front? s = some (t', ')' :: rest')
  admitted {t : g.Tree} (h : g.Admitted (g.whole t)) : g.Admitted t
  textStart (w : Text) (i j : Nat) : g.Matches g.textStart w i j ↔ i = 0 ∧ j = 0
  textEnd (w : Text) (i j : Nat) : g.Matches g.textEnd w i j ↔ i = w.length ∧ j = w.length
  seq (t t' : g.Tree) (w : Text) (i j : Nat) :
    g.Matches (g.seq t t') w i j ↔ ∃ k, g.Matches t w i k ∧ g.Matches t' w k j

private theorem frameEnd_suffix {p rest : Text} (h : ')' :: rest <:+ p ++ frameEnd) :
    frameEnd <:+ ')' :: rest := by
  rcases List.suffix_or_suffix_of_suffix h (List.suffix_append p frameEnd) with hrest | hend
  · obtain ⟨pre, hpre⟩ := hrest
    change pre ++ ')' :: rest = [')', '$'] at hpre
    cases pre with
    | nil =>
      rw [List.nil_append] at hpre
      rw [hpre]
      exact List.suffix_refl _
    | cons c pre => cases pre <;> simp at hpre
  · exact hend

namespace Describes

variable [PatternEngine] {g : PatternGrammar} (h : g.Describes) {p : Text} {t : g.Tree}

include h

/-- What is read in the frame is read without it, too. -/
theorem front?_of_frame {t' : g.Tree} {rest : Text}
    (hframe : g.front? (text "^(?:" ++ (p ++ frameEnd)) = some (t', rest)) :
    ∃ t rest' rest'', g.front? p = some (t, rest') ∧
      g.front? (p ++ frameEnd) = some (t, ')' :: rest'') := by
  obtain ⟨t, rest'', hread⟩ := h.closed hframe
  obtain ⟨pre, hpre⟩ := frameEnd_suffix (h.suffix hread)
  have hread' := hread
  rw [← hpre] at hread'
  obtain ⟨rest', hfront⟩ := h.settled (u := ['$']) (by simp) hread'
  exact ⟨t, rest', rest'', hfront, hread⟩

/-- A pattern that is read in its frame without its end is there the pattern of a whole text. -/
theorem front?_frame (ht : g.front? p = some (t, []))
    (hover : g.front? (p ++ frameEnd) ≠ some (t, [])) :
    g.front? (text "^(?:" ++ (p ++ frameEnd)) = some (g.whole t, []) :=
  h.grouped ((h.closes (u := ['$']) (by simp) ht).resolve_right hover)

/-- Between the anchors of a whole text a single character is matched from its start to its end. -/
theorem matches_whole_singleton (c : Char) :
    (∃ i j, g.Matches (g.whole t) [c] i j) ↔ g.Matches t [c] 0 1 := by
  simp only [whole, h.seq, h.textStart, h.textEnd]
  constructor
  · rintro ⟨i, j, k, ⟨-, rfl⟩, k', hmatch, rfl, -⟩
    exact hmatch
  · intro hmatch
    exact ⟨0, 1, 0, ⟨rfl, rfl⟩, 1, hmatch, rfl, rfl⟩

end Describes

end PatternGrammar

/-! ### The notation that is read here -/

variable {n : Nat}

/-- Any number of rounds above the length of the text reads the same. -/
theorem alternatives?_rounds {reading : PatternReading} {s rest : Text} {x : Regex × List Text}
    (h : alternatives? n reading s = some (x, rest)) {m : Nat} (hm : s.length < m) :
    alternatives? m reading s = some (x, rest) := by
  obtain ⟨rest', h', halike, -⟩ := (local_alternatives? reading).swap .nil .nil (.self [] [] s) h
    List.nil_suffix hm
  rw [h', halike.eq_of_nil]

namespace Regex

theorem readFront?_eq_some_iff {s rest : Text} {r : Regex} :
    readFront? s = some (r, rest) ↔
      ∃ names, alternatives? (s.length + 1) {} s = some ((r, names), rest) := by
  rw [readFront?, Option.map_eq_some_iff]
  constructor
  · rintro ⟨⟨⟨r, names⟩, rest⟩, h, hpair⟩
    cases hpair
    exact ⟨names, h⟩
  · rintro ⟨names, h⟩
    exact ⟨((r, names), rest), h, rfl⟩

theorem parse?_eq_some_iff {s : Text} {r : Regex} :
    parse? s = some r ↔ readFront? s = some (r, []) := by
  rw [parse?]
  constructor
  · intro h
    split at h
    · next hfront =>
      cases h
      exact hfront
    · cases h
  · intro h
    rw [h]

section Reading

variable {s u rest : Text} {r : Regex}

private theorem closing_cons (hu : '\n' ∉ u) : Closing (')' :: u) where
  head c hc := (Option.some.inj hc).symm
  line := by simpa using hu

theorem readFront?_settled (hu : '\n' ∉ u)
    (h : readFront? (s ++ ')' :: u) = some (r, rest ++ ')' :: u)) :
    ∃ rest', readFront? s = some (r, rest') := by
  obtain ⟨names, hread⟩ := readFront?_eq_some_iff.mp h
  have halike := Alike.append (')' :: u) [] s
  rw [List.append_nil] at halike
  obtain ⟨rest', hread', -, -⟩ := (local_alternatives? {}).swap (closing_cons hu) .nil halike hread
    (List.suffix_append _ _) (Nat.lt_succ_self s.length)
  exact ⟨rest', readFront?_eq_some_iff.mpr ⟨names, hread'⟩⟩

theorem readFront?_closes (hu : '\n' ∉ u) (h : readFront? s = some (r, [])) :
    readFront? (s ++ ')' :: u) = some (r, ')' :: u) ∨
      readFront? (s ++ ')' :: u) = some (r, []) := by
  obtain ⟨names, hread⟩ := readFront?_eq_some_iff.mp h
  have halike := Alike.append [] (')' :: u) s
  rw [List.append_nil] at halike
  obtain ⟨rest, hread', hrest, -⟩ := (local_alternatives? {}).swap .nil (closing_cons hu) halike
    hread List.nil_suffix (Nat.lt_succ_self (s ++ ')' :: u).length)
  have hfront := readFront?_eq_some_iff.mpr ⟨names, hread'⟩
  cases hrest with
  | read => exact .inr hfront
  | ends => exact .inl hfront

/-- The anchor takes one round and the head of the group another. -/
private theorem readFront?_group (s : Text) : readFront? (text "^(?:" ++ s) =
    (alternatives? (s.length + 3) {} s >>= fun
      | ((r, names), ')' :: rest) =>
        alternatives? (s.length + 3) { names, pieces := [some r, some (.anchor .textStart)] } rest
      | _ => none).map fun ((r, _), rest) => (r, rest) := by
  have hlength : (text "^(?:" ++ s).length + 1 = s.length + 3 + 2 := by
    simp [text]
  rw [readFront?, hlength]
  rfl

theorem readFront?_grouped (h : readFront? s = some (r, frameEnd)) :
    readFront? (text "^(?:" ++ s) = some (r.whole, []) := by
  obtain ⟨names, hread⟩ := readFront?_eq_some_iff.mp h
  rw [readFront?_group, alternatives?_rounds hread (by omega)]
  rfl

theorem readFront?_closed (h : readFront? (text "^(?:" ++ s) = some (r, rest)) :
    ∃ r' rest', readFront? s = some (r', ')' :: rest') := by
  rw [readFront?_group, Option.map_eq_some_iff] at h
  obtain ⟨whole, hwhole, -⟩ := h
  obtain ⟨⟨⟨group, names⟩, behind⟩, hgroup, hbehind⟩ := Option.bind_eq_some_iff.mp hwhole
  have hfront := readFront?_eq_some_iff.mpr ⟨names, alternatives?_rounds hgroup (by omega)⟩
  cases behind with
  | nil => cases hbehind
  | cons c rest' =>
    by_cases hc : c = ')'
    · subst hc
      exact ⟨group, rest', hfront⟩
    · simp [hc] at hbehind

end Reading

section Ends

variable {step : Nat → List Nat} {limit : Nat}
  (hstep : ∀ i, i ≤ limit → ∀ j ∈ step i, j ≤ limit)
include hstep

private theorem flatMap_le {places : List Nat} (h : ∀ i ∈ places, i ≤ limit) :
    ∀ j ∈ (places.flatMap step).eraseDups, j ≤ limit := by
  intro j hj
  rw [List.mem_eraseDups, List.mem_flatMap] at hj
  obtain ⟨i, hi, hj⟩ := hj
  exact hstep i (h i hi) j hj

private theorem rounds_le (count : Nat) {places : List Nat} (h : ∀ i ∈ places, i ≤ limit) :
    ∀ j ∈ rounds step count places, j ≤ limit := by
  induction count generalizing places with
  | zero => exact h
  | succ count ih => exact ih (flatMap_le hstep h)

private theorem roundsUpTo_le (count : Nat) {places : List Nat} (h : ∀ i ∈ places, i ≤ limit) :
    ∀ j ∈ roundsUpTo step count places, j ≤ limit := by
  induction count generalizing places with
  | zero => exact h
  | succ count ih =>
    intro j hj
    rw [roundsUpTo, List.mem_eraseDups, List.mem_append] at hj
    rcases hj with hj | hj
    · exact h j hj
    · exact ih (flatMap_le hstep h) j hj

end Ends

/-- A match ends within the text. -/
theorem ends_le (r : Regex) (w : Text) : ∀ i, i ≤ w.length → ∀ j ∈ r.ends w i, j ≤ w.length := by
  induction r with
  | empty =>
    intro i hi j hj
    obtain rfl : j = i := by simpa [ends] using hj
    exact hi
  | one set =>
    intro i hi j hj
    rw [ends] at hj
    split at hj
    · next hset =>
      rw [List.mem_singleton.mp hj]
      apply Nat.lt_of_not_le
      intro hle
      rw [List.getElem?_eq_none hle] at hset
      cases hset
    · cases hj
  | anchor place =>
    intro i hi j hj
    rw [(mem_ends_anchor place w i j).mp hj |>.2]
    exact hi
  | seq r s ihr ihs =>
    intro i hi j hj
    obtain ⟨k, hk, hj⟩ := (mem_ends_seq r s w i j).mp hj
    exact ihs k (ihr i hi k hk) j hj
  | alt r s ihr ihs =>
    intro i hi j hj
    rw [ends, List.mem_eraseDups, List.mem_append] at hj
    rcases hj with hj | hj
    · exact ihr i hi j hj
    · exact ihs i hi j hj
  | repeated r least most ih =>
    intro i hi
    have hstart : ∀ k ∈ [i], k ≤ w.length := by
      intro k hk
      rw [List.mem_singleton.mp hk]
      exact hi
    exact roundsUpTo_le ih _ (rounds_le ih _ hstart)

/-- The grammar of the patterns that are read here, which knows no limits. -/
def grammar : PatternGrammar where
  Tree := Regex
  front? := readFront?
  Admitted _ := True
  Matches r w i j := i ≤ w.length ∧ j ∈ r.ends w i
  textStart := .anchor .textStart
  textEnd := .anchor .textEnd
  seq := .seq

theorem grammar_describes : grammar.Describes where
  compiles p := by
    simp [PatternEngine.compile?, Option.isSome_iff_exists, parse?_eq_some_iff, grammar]
  found := by
    intro p r t hr ht w
    obtain ⟨r, hparse, rfl⟩ := Option.map_eq_some_iff.mp hr
    cases (parse?_eq_some_iff.mp hparse).symm.trans ht
    refine (found_iff t w).trans ?_
    simp [grammar]
  suffix := by
    intro s rest t h
    obtain ⟨names, hread⟩ := readFront?_eq_some_iff.mp h
    exact (local_alternatives? {}).suffix hread
  settled := readFront?_settled
  closes := readFront?_closes
  grouped := readFront?_grouped
  closed := readFront?_closed
  admitted := id
  textStart w i j := by
    refine (and_congr_right' (mem_ends_anchor .textStart w i j)).trans ?_
    constructor
    · rintro ⟨hi, hstart, rfl⟩
      have hzero : j = 0 := by
        by_contra hne
        have hbefore : w[j - 1]? = some w[j - 1] := List.getElem?_eq_getElem (by omega)
        simp [Anchor.holds, hne, hbefore] at hstart
      exact ⟨hzero, hzero⟩
    · rintro ⟨rfl, rfl⟩
      exact ⟨Nat.zero_le _, rfl, rfl⟩
  textEnd w i j := by
    refine (and_congr_right' (mem_ends_anchor .textEnd w i j)).trans ?_
    constructor
    · rintro ⟨hi, hend, rfl⟩
      have hlast : w.length ≤ j := by simpa [Anchor.holds] using hend
      exact ⟨Nat.le_antisymm hi hlast, Nat.le_antisymm hi hlast⟩
    · rintro ⟨rfl, rfl⟩
      exact ⟨Nat.le_refl _, by simp [Anchor.holds], rfl⟩
  seq r s w i j := by
    constructor
    · rintro ⟨hi, hj⟩
      obtain ⟨k, hk, hj⟩ := (mem_ends_seq r s w i j).mp hj
      exact ⟨k, ⟨hi, hk⟩, ends_le r w i hi k hk, hj⟩
    · rintro ⟨k, ⟨hi, hk⟩, -, hj⟩
      exact ⟨hi, (mem_ends_seq r s w i j).mpr ⟨k, hk, hj⟩⟩

end Regex

namespace CharClass

theorem isSome_ofPattern?_iff [PatternEngine] (p : Text) : (ofPattern? p).isSome ↔
    (PatternEngine.compile? (text "^(?:" ++ (p ++ frameEnd))).isSome := by
  rw [ofPattern?, Option.isSome_map, List.append_assoc]
  rfl

/-- There is a class exactly for the patterns, unless the frame of a text and the text read into
each other or the frame is too large, and a class holds the characters that its pattern matches from
start to end. A pattern that takes in the end of its frame, or is too large with it, has no
class. -/
theorem ofPattern_framed [PatternEngine] {g : PatternGrammar} (hg : g.Describes) (p : Text) :
    (¬ g.StopsEarly p → ¬ g.RunsOn p → ¬ g.Outgrows p →
      ((ofPattern? p).isSome ↔ (PatternEngine.compile? p).isSome)) ∧
    (g.RunsOn p ∨ g.Outgrows p → ofPattern? p = none) ∧
    ∀ r cls, PatternEngine.compile? p = some r → ofPattern? p = some cls →
      ∃ t, g.front? p = some (t, []) ∧ ∀ c, cls.contains c = true ↔ g.Matches t [c] 0 1 := by
  refine ⟨?_, ?_, ?_⟩
  · intro hearly hover houtgrows
    rw [isSome_ofPattern?_iff, hg.compiles, hg.compiles]
    constructor
    · rintro ⟨framed, hframed, hadmitted⟩
      obtain ⟨t, rest, behind, hfront, hread⟩ := hg.front?_of_frame hframed
      have hrest : rest = [] := by
        by_contra hne
        exact hearly ⟨t, rest, hfront, hne⟩
      subst hrest
      cases hframed.symm.trans (hg.front?_frame hfront (by simp [hread]))
      exact ⟨t, hfront, hg.admitted hadmitted⟩
    · rintro ⟨t, ht, hadmitted⟩
      refine ⟨g.whole t, hg.front?_frame ht fun hread => hover ⟨t, ht, hread⟩, ?_⟩
      by_contra hlimit
      exact houtgrows ⟨t, ht, hadmitted, hlimit⟩
  · intro hspoiled
    rw [← Option.not_isSome_iff_eq_none, isSome_ofPattern?_iff, hg.compiles]
    rintro ⟨framed, hframed, hadmitted⟩
    obtain ⟨t, rest, behind, hfront, hread⟩ := hg.front?_of_frame hframed
    rcases hspoiled with ⟨t', ht', hover⟩ | ⟨t', ht', -, hlimit⟩
    · cases hread.symm.trans hover
    · cases hframed.symm.trans (hg.front?_frame ht' (by simp [hread]))
      exact hlimit hadmitted
  · intro r cls hr hcls
    obtain ⟨t, ht, -⟩ := (hg.compiles p).mp (by rw [hr]; rfl)
    obtain ⟨framed, hcompiled, rfl⟩ := Option.map_eq_some_iff.mp hcls
    rw [List.append_assoc] at hcompiled
    obtain ⟨t', ht', -⟩ := (hg.compiles _).mp (by rw [hcompiled]; rfl)
    obtain ⟨_, _, behind, -, hread⟩ := hg.front?_of_frame ht'
    have hwhole := hg.front?_frame ht (by simp [hread])
    refine ⟨t, ht, fun c => ?_⟩
    rw [contains, hg.found hcompiled hwhole, hg.matches_whole_singleton]

theorem ofPattern_framed_sample :
    Regex.grammar.Describes ∧ ¬ Regex.grammar.StopsEarly (text "E|e") ∧
      ¬ Regex.grammar.RunsOn (text "E|e") ∧ ¬ Regex.grammar.Outgrows (text "E|e") ∧
      ((ofPattern? (text "E|e")).isSome ↔ (PatternEngine.compile? (text "E|e")).isSome) ∧
      (∃ r cls t, PatternEngine.compile? (text "E|e") = some r ∧
        ofPattern? (text "E|e") = some cls ∧ Regex.grammar.front? (text "E|e") = some (t, []) ∧
        ∀ c, cls.contains c = true ↔ Regex.grammar.Matches t [c] 0 1) ∧
      Regex.grammar.RunsOn (text "(?x)a#") ∧ ofPattern? (text "(?x)a#") = none := by
  have hfront : Regex.readFront? (text "E|e") =
      some (.alt (.one (.single 'E')) (.one (.single 'e')), []) := by decide
  have hearly : ¬ Regex.grammar.StopsEarly (text "E|e") := by
    rintro ⟨t, rest, hother, hrest⟩
    cases hfront.symm.trans hother
    exact hrest rfl
  have hover : ¬ Regex.grammar.RunsOn (text "E|e") := by
    rintro ⟨t, -, hframe⟩
    have hclosed : Regex.readFront? (text "E|e" ++ frameEnd) =
        some (.alt (.one (.single 'E')) (.one (.single 'e')), frameEnd) := by decide
    cases hclosed.symm.trans hframe
  have houtgrows : ¬ Regex.grammar.Outgrows (text "E|e") := by
    rintro ⟨t, -, -, hlimit⟩
    exact hlimit trivial
  have hspoiled : Regex.grammar.RunsOn (text "(?x)a#") := by
    have hread : Regex.readFront? (text "(?x)a#") = some (.one (.single 'a'), []) := by decide
    have hover : Regex.readFront? (text "(?x)a#" ++ frameEnd) = some (.one (.single 'a'), []) := by
      decide
    exact ⟨_, hread, hover⟩
  obtain ⟨hsome, -, hchars⟩ := ofPattern_framed Regex.grammar_describes (text "E|e")
  obtain ⟨-, hnone, -⟩ := ofPattern_framed Regex.grammar_describes (text "(?x)a#")
  have hclass := hsome hearly hover houtgrows
  obtain ⟨r, hr⟩ : ∃ r, PatternEngine.compile? (text "E|e") = some r :=
    Option.isSome_iff_exists.mp (by decide)
  obtain ⟨cls, hcls⟩ := Option.isSome_iff_exists.mp (hclass.mpr (by rw [hr]; rfl))
  obtain ⟨t, ht, hmatches⟩ := hchars r cls hr hcls
  exact ⟨Regex.grammar_describes, hearly, hover, houtgrows, hclass,
    ⟨r, cls, t, hr, hcls, ht, hmatches⟩, hspoiled, hnone (.inl hspoiled)⟩

/-- A text that closes the group of its frame and opens another one is no pattern and has a class; a
pattern that ends in a comment has none. -/
theorem ofPattern_unframed :
    Regex.parse? (text "a)|(b") = none ∧ (ofPattern? (text "a)|(b")).isSome ∧
    (Regex.parse? (text "(?x)a#")).isSome ∧ ofPattern? (text "(?x)a#") = none := by
  decide

end CharClass

end TokenGraph
