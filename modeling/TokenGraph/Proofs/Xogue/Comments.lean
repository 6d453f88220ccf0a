import TokenGraph.Proofs.Xogue.Analyzer

/-!
# Comments

Which texts begin with a comment, and what the automaton of the comments reads of all others. A
comment ends at the first mark that closes it.
-/

namespace TokenGraph.Xogue

open Scanner

variable {boundary : Char → Bool} {c : Char} {w s : Text}

/-- A comment is opened in front of the text, and what closes it stands behind. -/
def Commented (s : Text) : Prop :=
  ['/', '/'] <+: s ∧ '\n' ∈ s ∨ ['/', '*'] <+: s ∧ ['*', '/'] <:+: s.drop 2

/-- What is read of a text in search of a comment that it does not begin with. -/
def searched (s : Text) : Text :=
  if ['/', '/'] <+: s ∨ ['/', '*'] <+: s then s else if ['/'] <+: s then ['/'] else []

/-! ### Closed comments -/

theorem closesAtEnd_closing : ClosesAtEnd ['*', '/'] := by
  refine ⟨List.suffix_rfl, ?_⟩
  intro before after h
  have hlen := congrArg List.length h
  simp only [List.length_append, List.length_cons, List.length_nil] at hlen
  exact List.length_eq_zero_iff.mp (by omega)

theorem ClosesAtEnd.cons (h : ClosesAtEnd w) (hopen : ¬ ['*', '/'] <+: c :: w) :
    ClosesAtEnd (c :: w) := by
  refine ⟨h.1.trans (List.suffix_cons c w), ?_⟩
  intro before after hw
  cases before with
  | nil => exact absurd ⟨after, hw.symm⟩ hopen
  | cons d before => exact h.2 before after (List.cons.inj hw).2

/-- Where star and slash stand at all they stand at a first place. -/
theorem exists_closesAtEnd (h : ['*', '/'] <:+: s) : ∃ w, w <+: s ∧ ClosesAtEnd w := by
  induction s with
  | nil => simp at h
  | cons c s ih =>
    by_cases hfirst : ['*', '/'] <+: c :: s
    · exact ⟨['*', '/'], hfirst, closesAtEnd_closing⟩
    · obtain ⟨w, hw, hcloses⟩ := ih ((List.infix_cons_iff.mp h).resolve_left hfirst)
      have hprefix : c :: w <+: c :: s := List.cons_prefix_cons.mpr ⟨rfl, hw⟩
      exact ⟨c :: w, hprefix, hcloses.cons fun hstar => hfirst (hstar.trans hprefix)⟩

theorem exists_comment (h : Commented s) : ∃ w, w <+: s ∧ (LineComment w ∨ BlockComment w) := by
  rcases h with ⟨⟨s, rfl⟩, hend⟩ | ⟨⟨s, rfl⟩, hend⟩
  · have hmem : '\n' ∈ s := by simpa using hend
    obtain ⟨v, rest, rfl, hv⟩ := List.eq_append_cons_of_mem hmem
    exact ⟨'/' :: '/' :: v ++ ['\n'], ⟨rest, by simp⟩, .inl (.closed hv)⟩
  · obtain ⟨v, hv, hcloses⟩ := exists_closesAtEnd hend
    have hprefix : ['/', '*'] ++ v <+: ['/', '*'] ++ s := (List.prefix_append_right_inj _).mpr hv
    exact ⟨'/' :: '*' :: v, hprefix, .inr (.closed hcloses)⟩

/-! ### Open comments -/

/-- From inside a comment (3), and from behind a star in it (4), a text that does not close it is
read, and one of these states is reached again. -/
private theorem reads_open (s : Text) :
    (¬ ['*', '/'] <:+: s →
      ∃ t, (t = 3 ∨ t = 4) ∧ (scanner commentSteps boundary).Reads 3 s t) ∧
    (¬ ['*', '/'] <:+: '*' :: s →
      ∃ t, (t = 3 ∨ t = 4) ∧ (scanner commentSteps boundary).Reads 4 s t) := by
  induction s with
  | nil => exact ⟨fun _ => ⟨3, .inl rfl, .nil⟩, fun _ => ⟨4, .inr rfl, .nil⟩⟩
  | cons c s ih =>
    obtain ⟨ihinside, ihstar⟩ := ih
    constructor
    · intro h
      by_cases hc : c = '*'
      · subst hc
        obtain ⟨t, ht, hreads⟩ := ihstar h
        refine ⟨t, ht, .cons (t := 4) ?_ hreads⟩
        simp [comment_move, commentMove]
      · obtain ⟨t, ht, hreads⟩ := ihinside fun hs => h (hs.trans (List.suffix_cons c s).isInfix)
        refine ⟨t, ht, .cons (t := 3) ?_ hreads⟩
        simp [comment_move, commentMove, hc]
    · intro h
      by_cases hstar : c = '*'
      · subst hstar
        obtain ⟨t, ht, hreads⟩ := ihstar fun hs => h (hs.trans (List.suffix_cons _ _).isInfix)
        refine ⟨t, ht, .cons (t := 4) ?_ hreads⟩
        simp [comment_move, commentMove]
      · have hslash : c ≠ '/' := by
          rintro rfl
          exact h (List.prefix_append ['*', '/'] s).isInfix
        obtain ⟨t, ht, hreads⟩ := ihinside fun hs =>
          h ((hs.trans (List.suffix_cons c s).isInfix).trans (List.suffix_cons _ _).isInfix)
        refine ⟨t, ht, .cons (t := 3) ?_ hreads⟩
        simp [comment_move, commentMove, hstar, hslash]

/-- A text that a comment which it opens does not end in is read as a whole. -/
private theorem reads_uncommented (boundary : Char → Bool)
    (hopened : ['/', '/'] <+: s ∨ ['/', '*'] <+: s) (h : ¬ Commented s) :
    ∃ t, (t = 2 ∨ t = 3 ∨ t = 4) ∧ (scanner commentSteps boundary).Reads 0 s t := by
  obtain ⟨hline, hblock⟩ := not_or.mp h
  have hslash : (scanner commentSteps boundary).move 0 '/' = .advance 1 := by
    simp [comment_move, commentMove]
  rcases hopened with hopened | hopened
  · obtain ⟨s, rfl⟩ := hopened
    refine ⟨2, .inl rfl, .cons hslash (.cons (t := 2) ?_ (.loop fun d hd => ?_))⟩
    · simp [comment_move, commentMove]
    · have hne : d ≠ '\n' := by
        rintro rfl
        exact hline ⟨List.prefix_append _ _, List.mem_append_right _ hd⟩
      simp [comment_move, commentMove, hne]
  · obtain ⟨s, rfl⟩ := hopened
    have hopen : ¬ ['*', '/'] <:+: s := fun hs => hblock ⟨List.prefix_append _ _, hs⟩
    obtain ⟨t, ht, hreads⟩ := (reads_open s).1 hopen
    refine ⟨t, .inr ht, .cons hslash (.cons (t := 3) ?_ hreads)⟩
    simp [comment_move, commentMove]

private theorem run_unopened (hline : ¬ ['/', '/'] <+: s) (hblock : ¬ ['/', '*'] <+: s) :
    (scanner commentSteps boundary).run s = ⟨false, if ['/'] <+: s then ['/'] else []⟩ := by
  have hend : ∀ t < 2, (graph commentSteps).isAccepting t = false := by
    intro t ht
    rw [isAccepting_of_table comment_table]
    match t, ht with
    | 0, _ | 1, _ => rfl
  cases s with
  | nil => simp [run, runFrom, scanner, Automaton.start, hend]
  | cons c s =>
    by_cases hc : c = '/'
    · subst hc
      have hslash : (scanner commentSteps boundary).move 0 '/' = .advance 1 := by
        simp [comment_move, commentMove]
      have hfirst : ['/'] <+: '/' :: s := List.prefix_append ['/'] s
      rw [if_pos hfirst]
      cases s with
      | nil =>
        rw [run, Automaton.start, runFrom_of_advance hslash, runFrom, scanner, hend 1 (by decide)]
      | cons d s =>
        refine run_slash ?_ ?_ s
        · rintro rfl
          exact hline (List.prefix_append ['/', '/'] s)
        · rintro rfl
          exact hblock (List.prefix_append ['/', '*'] s)
    · have hstop : (scanner commentSteps boundary).move 0 c = .stop false := by
        rw [comment_move, commentMove, if_neg hc]
      have hfirst : ¬ ['/'] <+: c :: s := fun h => hc (List.cons_prefix_cons.mp h).1.symm
      rw [run, Automaton.start, runFrom_of_stop hstop, if_neg hfirst]

theorem run_uncommented (h : ¬ Commented s) :
    (scanner commentSteps boundary).run s = ⟨false, searched s⟩ := by
  rw [searched]
  by_cases hopened : ['/', '/'] <+: s ∨ ['/', '*'] <+: s
  · obtain ⟨t, ht, hreads⟩ := reads_uncommented boundary hopened h
    have hend : (graph commentSteps).isAccepting t = false := by
      rw [isAccepting_of_table comment_table]
      rcases ht with rfl | rfl | rfl <;> rfl
    have hrun := hreads.runFrom []
    rw [List.append_nil] at hrun
    rw [run, Automaton.start, hrun, runFrom, scanner, hend, List.append_nil, if_pos hopened]
  · obtain ⟨hline, hblock⟩ := not_or.mp hopened
    rw [run_unopened hline hblock, if_neg hopened]

/-! ### Outcomes -/

theorem comment_accepted_iff :
    ((scanner commentSteps boundary).run s).accepted = true ↔ Commented s := by
  constructor
  · intro haccepted
    by_contra h
    rw [run_uncommented h] at haccepted
    cases haccepted
  · intro h
    obtain ⟨w, ⟨rest, rfl⟩, hw⟩ := exists_comment h
    rw [run_comment hw]

theorem comment_accepts_iff : (scanner commentSteps boundary).run s = ⟨true, w⟩ ↔
    w <+: s ∧ (LineComment w ∨ BlockComment w) := by
  constructor
  · intro hrun
    have h : Commented s := comment_accepted_iff.mp (congrArg Outcome.accepted hrun)
    obtain ⟨v, ⟨rest, rfl⟩, hv⟩ := exists_comment h
    rw [run_comment hv] at hrun
    cases hrun
    exact ⟨List.prefix_append w rest, hv⟩
  · rintro ⟨⟨rest, rfl⟩, hw⟩
    exact run_comment hw rest

theorem comment_rejects_iff :
    (scanner commentSteps boundary).run s = ⟨false, w⟩ ↔ ¬ Commented s ∧ w = searched s := by
  constructor
  · intro hrun
    have h : ¬ Commented s := by
      intro hcommented
      rw [← comment_accepted_iff, hrun] at hcommented
      cases hcommented
    rw [run_uncommented h] at hrun
    cases hrun
    exact ⟨h, rfl⟩
  · rintro ⟨h, rfl⟩
    exact run_uncommented h

/-- The automaton of the comments accepts a text if and only if a comment that it opens is closed
in it. It reads that comment, to the first mark that closes it. Of any other text it reads all where
a comment is opened, and else the slash that it may begin with. -/
theorem comment_scan : ∃ l p, language = .ok l ∧ l.prototype? .comment = some p ∧
    ∀ operators s,
      ((p.scan operators s).accepted = true ↔ Commented s) ∧
      (∀ w, p.scan operators s = ⟨true, w⟩ ↔ w <+: s ∧ (LineComment w ∨ BlockComment w)) ∧
      ∀ w, p.scan operators s = ⟨false, w⟩ ↔ ¬ Commented s ∧ w = searched s := by
  refine ⟨xogue, commentTrial, language_eq, rfl, fun operators s => ?_⟩
  exact ⟨comment_accepted_iff, fun w => comment_accepts_iff, fun w => comment_rejects_iff⟩

/-- Slash and star with a slash behind them open a comment and do not close it. -/
example : commentTrial.scan [] (text "/*/é**/*/") = ⟨true, text "/*/é**/"⟩ ∧
    commentTrial.scan [] (text "/*/") = ⟨false, text "/*/"⟩ := by
  decide +kernel

end TokenGraph.Xogue
