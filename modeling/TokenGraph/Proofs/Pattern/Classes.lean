import TokenGraph.Proofs.Pattern.Escapes

/-!
# Reading bracketed classes

A bracketed class is read without regard to how its text ends. Three things in it look further than
they read: the name of a class, which may turn out not to be one, a character that may be doubled
for an operation, and a hyphen, which may begin a range.
-/
namespace TokenGraph

variable {spare n : Nat}

variable (flags : PatternFlags)

private theorem named?_plain {name : Text} {set : CharSet}
    (h : CharSet.named? (String.ofList name) = some set) : ')' ∉ name := by
  unfold CharSet.named? at h
  split at h
  case h_15 => cases h
  all_goals
    next hname =>
    have hlist := congrArg String.toList hname
    rw [String.toList_ofList] at hlist
    rw [hlist]
    decide

private theorem className?_cut {negated : Bool} {s rest : Text} {set : CharSet}
    (h : className? flags negated s = some (set, rest)) :
    ∃ name, s = name ++ ':' :: ']' :: rest ∧ ')' ∉ name ∧
      ∀ rest', className? flags negated (name ++ ':' :: ']' :: rest') = some (set, rest') := by
  unfold className? at h
  obtain ⟨⟨name, behind⟩, hread, h⟩ := Option.bind_eq_some_iff.mp h
  split at h
  · next name' behind' heq =>
    obtain ⟨rfl, rfl⟩ := Prod.mk.inj heq
    obtain ⟨plain, hplain, h⟩ := Option.bind_eq_some_iff.mp h
    obtain ⟨set', hset, h⟩ := Option.bind_eq_some_iff.mp h
    cases h
    obtain ⟨rfl, hname⟩ := upTo?_append hread
    refine ⟨name, rfl, named?_plain hplain, fun rest' => ?_⟩
    simp [className?, hname, hplain, hset]
  · cases h

private theorem namedClass?_plain {s : Text} (hs : '^' ∉ s.head?) :
    namedClass? flags (':' :: s) = className? flags false s := by
  have hne : ∀ rest, s ≠ '^' :: rest := by
    rintro rest rfl
    exact hs rfl
  rw [namedClass?]
  exact hne

/-- The name of a class holds no closing parenthesis, so that it does not reach into the end of its
text, and that there is none is told without the end, too. -/
theorem namedClass?_cut {s rest : Text} {set : CharSet}
    (h : namedClass? flags s = some (set, rest)) :
    ∃ pre, s = pre ++ rest ∧ ')' ∉ pre ∧
      ∀ rest', namedClass? flags (pre ++ rest') = some (set, rest') := by
  unfold namedClass? at h
  split at h
  · obtain ⟨name, rfl, hname, hread⟩ := className?_cut flags h
    refine ⟨':' :: '^' :: name ++ [':', ']'], by simp, by simpa using hname, fun rest' => ?_⟩
    simpa [namedClass?] using hread rest'
  · next s hnegated =>
    obtain ⟨name, rfl, hname, hread⟩ := className?_cut flags h
    refine ⟨':' :: name ++ [':', ']'], by simp, by simpa using hname, fun rest' => ?_⟩
    have hplain : '^' ∉ (name ++ ':' :: ']' :: rest').head? := by
      cases name with
      | nil => simp
      | cons c name =>
        intro hc
        obtain rfl : c = '^' := by simpa using hc
        exact hnegated _ rfl
    simpa [namedClass?_plain flags hplain] using hread rest'
  · cases h

theorem local_namedClass? : Local spare n fun _ => namedClass? flags := by
  apply Local.cut
  intro s rest set h
  obtain ⟨pre, rfl, -, hread⟩ := namedClass?_cut flags h
  exact ⟨pre, rfl, hread⟩

theorem namedClass?_steady : Steady fun s => (namedClass? flags s).isSome := by
  intro t t' s s' ht _ halike hs
  obtain ⟨⟨set, rest⟩, h⟩ := Option.isSome_iff_exists.mp hs
  obtain ⟨pre, rfl, hpre, hread⟩ := namedClass?_cut flags h
  obtain ⟨rest', rfl⟩ := halike.take ht hpre
  rw [hread rest']
  rfl

private theorem openingHyphens_of_head (rounds : Nat) (set : Option CharSet) {s : Text}
    (h : '-' ∉ s.head?) : openingHyphens flags.skip rounds set s = (set, s) := by
  unfold openingHyphens
  split
  · exact absurd rfl h
  · rfl

theorem openingHyphens_suffix (rounds : Nat) (set : Option CharSet) (s : Text) :
    (openingHyphens flags.skip rounds set s).2 <:+ s := by
  induction rounds generalizing set s with
  | zero => exact List.suffix_refl s
  | succ rounds ih =>
    by_cases hs : '-' ∈ s.head?
    · cases s with
      | nil => cases hs
      | cons c rest =>
        obtain rfl : c = '-' := by simpa using hs
        have hrest := (ih (some (.single '-')) (flags.skip rest)).trans
          (flags.skip_trims.suffix rest)
        exact hrest.trans (List.suffix_cons '-' rest)
    · rw [openingHyphens_of_head flags _ set hs]

/-- As many rounds as the text has characters are enough. -/
theorem openingHyphens_alike {t t' s s' : Text} (ht : Closing t) (ht' : Closing t')
    (h : Alike t t' s s') {rounds rounds' : Nat} (hrounds : s.length ≤ rounds)
    (hrounds' : s'.length ≤ rounds') (set : Option CharSet) :
    (openingHyphens flags.skip rounds' set s').1 = (openingHyphens flags.skip rounds set s).1 ∧
      Alike t t' (openingHyphens flags.skip rounds set s).2
        (openingHyphens flags.skip rounds' set s').2 := by
  induction rounds generalizing rounds' set s s' with
  | zero =>
    obtain rfl := List.eq_nil_of_length_eq_zero (Nat.le_zero.mp hrounds)
    have hs' : '-' ∉ s'.head? :=
      fun hs' => Option.not_mem_none '-' (h.symm.head ht' (by decide) hs')
    rw [openingHyphens_of_head flags _ set hs']
    exact ⟨rfl, h⟩
  | succ rounds ih =>
    rcases h.uncons ht ht' (c := '-') (by decide) with ⟨rest, rest', rfl, rfl, hrest⟩ | ⟨hs, hs'⟩
    · cases rounds' with
      | zero => cases hrounds'
      | succ rounds' =>
        have hskip := (flags.skip_trims.suffix rest).length_le
        have hskip' := (flags.skip_trims.suffix rest').length_le
        exact ih (flags.skip_trims.alike ht ht' hrest)
          (Nat.le_trans hskip (Nat.le_of_succ_le_succ hrounds))
          (Nat.le_trans hskip' (Nat.le_of_succ_le_succ hrounds')) (some (.single '-'))
    · rw [openingHyphens_of_head flags _ set hs, openingHyphens_of_head flags _ set hs']
      exact ⟨rfl, h⟩

private theorem local_classNegation : Local spare n fun _ s => some (classNegation flags s) := by
  apply Local.opt flags.skip_trims (c := '^') (by decide)
    ((Local.pure (some true)).comp flags.skip_trims) (.pure (some false))
  · intro m s rest hs
    rw [classNegation, hs]
    rfl
  · intro m s hs
    rw [classNegation]
    split
    · next hskip => simp [hskip] at hs
    · rfl

private theorem local_openingHyphens :
    Local spare n fun _ s => some (openingHyphens flags.skip s.length none s) where
  suffix {s rest set} h := by
    have hsuffix := openingHyphens_suffix flags s.length none s
    rw [Option.some.inj h] at hsuffix
    exact hsuffix
  swap {t t' s s' rest set m} ht ht' halike h _ _ := by
    have hsuffix := openingHyphens_suffix flags s'.length none s'
    have hsame := openingHyphens_alike flags ht ht' halike (Nat.le_refl _) (Nat.le_refl _) none
    rw [Option.some.inj h] at hsame
    exact ⟨(openingHyphens flags.skip s'.length none s').2,
      congrArg some (Prod.ext hsame.1 rfl), hsame.2, hsuffix⟩

private def openingPick : Option CharSet × Text → CharSet × Text
  | (some set, rest) => (set, rest)
  | (none, ']' :: rest) => (.single ']', rest)
  | (none, rest) => (.none, rest)

private theorem local_openingSet : Local spare n fun _ s => some (openingSet flags s) := by
  apply (local_openingHyphens flags).bind (K := fun _ p => some (openingPick p))
  intro set
  cases set with
  | some set => exact .pure (some set)
  | none =>
    apply Local.opt .id (c := ']') (by decide) (.pure (some (.single ']'))) (.pure (some .none))
    · rintro m s rest rfl
      rfl
    · intro m s hs
      unfold openingPick
      split
      · next h => cases h
      · next h =>
        cases h
        exact absurd rfl hs
      · next h =>
        cases h
        rfl

theorem local_openClass {α : Type} {K : Nat → Bool × CharSet × Text → Option (α × Text)}
    (hK : ∀ negated set, Local spare n fun m s => K m (negated, set, s)) :
    Local spare n fun m s => K m (openClass flags s) := by
  apply (local_classNegation flags).bind
    (K := fun m p => some (openingSet flags p.2) >>= fun q => K m (p.1, q.1, q.2))
  intro negated
  exact (local_openingSet flags).bind (K := fun m q => K m (negated, q.1, q.2))
    fun set => hK negated set

theorem local_classPrimitive?_cons (c : Char) :
    Local spare n fun _ s => classPrimitive? flags (c :: s) := by
  by_cases hc : c = '\\'
  · subst hc
    exact local_escape? flags
  · have hplain (s : Text) : classPrimitive? flags (c :: s) = some (.literal c, s) := by
      simp [classPrimitive?]
    simp only [hplain]
    exact .pure (some (Primitive.literal c))

theorem local_classPrimitive? : Local spare n fun _ => classPrimitive? flags :=
  (Local.cons (fun _ => rfl) (local_classPrimitive?_cons flags)).weaken

private theorem local_range? (first : Primitive) : Local spare n fun _ s => do
    let (last, rest) ← classPrimitive? flags (flags.skip s)
    return (← first.range? flags last, rest) := by
  apply ((local_classPrimitive? flags).comp flags.skip_trims).bind
  intro last
  exact .option (first.range? flags last) fun set => .pure (some set)

private theorem local_alone? (first : Primitive) :
    Local spare n fun _ s => do return (← first.alone? flags, s) :=
  .option (first.alone? flags) fun set => .pure (some set)

/-- A hyphen makes a range, but not in front of a bracket or another hyphen. -/
private def MakesRange (s : Text) : Prop :=
  ∃ after, s = '-' :: after ∧ ']' ∉ (flags.skip after).head? ∧ '-' ∉ (flags.skip after).head?

private theorem makesRange_steady : Steady (MakesRange flags) := by
  have hnone (c : Char) (hc : c ≠ ')') : Steady fun s => c ∉ (flags.skip s).head? :=
    ((Steady.head hc).comp flags.skip_trims).not
  exact ((hnone ']' (by decide)).and (hnone '-' (by decide))).behind (by decide)

theorem local_classItem?_cons (c : Char) :
    Local spare n fun _ s => classItem? flags (c :: s) := by
  apply (local_classPrimitive?_cons flags c).bind
  intro first
  apply Local.branch ((makesRange_steady flags).comp flags.skip_trims)
    ((local_range? flags first).behind.comp flags.skip_trims)
    ((local_alone? flags first).comp flags.skip_trims)
  · intro m s hs
    obtain ⟨after, hskip, hbracket, hhyphen⟩ := hs
    simp only [hskip]
    split
    · next h => simp [h] at hbracket
    · next h => simp [h] at hhyphen
    · rfl
  · intro m s hs
    dsimp only
    split
    · next after hskip =>
      rw [hskip]
      split
      · rfl
      · rfl
      · next hbracket hhyphen =>
        refine absurd ⟨after, hskip, fun h => ?_, fun h => ?_⟩ hs
        · obtain ⟨rest, hrest⟩ := List.head?_eq_some_iff.mp h
          exact hbracket rest hrest
        · obtain ⟨rest, hrest⟩ := List.head?_eq_some_iff.mp h
          exact hhyphen rest hrest
    · rfl

section Parts

variable {more : Nat → Option (SetOp × CharSet) → CharSet → Text → Option (CharSet × Text)}
  (hmore : ∀ waiting set, Local 0 n fun m => more m waiting set)
  (waiting : Option (SetOp × CharSet)) (set : CharSet)
include hmore

private theorem local_namedPart : Local 0 n fun m s =>
    namedClass? flags s >>= fun p => more m waiting (.union set p.1) p.2 :=
  (local_namedClass? flags).bind fun named => hmore waiting (.union set named)

private theorem local_nestedPart : Local 0 n (fun m s => do
    let (negated, inner, rest) := openClass flags s
    let (inner, rest) ← more m none inner rest
    let inner ← flags.negate? negated (flags.fold inner)
    more m waiting (.union set inner) rest) := by
  apply local_openClass flags (K := fun m p => do
    let (inner, rest) ← more m none p.2.1 p.2.2
    let inner ← flags.negate? p.1 (flags.fold inner)
    more m waiting (.union set inner) rest)
  intro negated inner
  dsimp only
  apply (hmore none inner).bind
  intro inner
  exact .option (flags.negate? negated (flags.fold inner)) fun inner =>
    hmore waiting (.union set inner)

private theorem local_openPart :
    Local 0 n fun m s => classPart? (more m) flags waiting set ('[' :: s) := by
  apply Local.branch (namedClass?_steady flags) (local_namedPart flags hmore waiting set)
    (local_nestedPart flags hmore waiting set)
  · intro m s hs
    obtain ⟨⟨named, rest⟩, hnamed⟩ := Option.isSome_iff_exists.mp hs
    simp only [classPart?, hnamed]
    rfl
  · intro m s hs
    simp only [classPart?, Option.not_isSome_iff_eq_none.mp hs]

private theorem local_itemPart (c : Char) : Local 0 n fun m s =>
    classItem? flags (c :: s) >>= fun p => more m waiting (.union set p.1) p.2 :=
  (local_classItem?_cons flags c).bind fun item => hmore waiting (.union set item)

/-- A character that is doubled for an operation stands for itself otherwise. -/
private theorem local_operatorPart (op : SetOp) {c : Char} (hc : c ≠ ')')
    (hin : ∀ m s, classPart? (more m) flags waiting set (c :: c :: s) =
      more m (some (op, joinClass flags waiting set)) .none s)
    (hout : ∀ m s, c ∉ s.head? → classPart? (more m) flags waiting set (c :: s) =
      classItem? flags (c :: s) >>= fun p => more m waiting (.union set p.1) p.2) :
    Local 0 n fun m s => classPart? (more m) flags waiting set (c :: s) := by
  apply Local.opt .id hc (hmore (some (op, joinClass flags waiting set)) .none)
    (local_itemPart flags hmore waiting set c)
  · rintro m s rest rfl
    exact hin m rest
  · exact hout

/-- One round of a class, given that the rounds behind it do not see how the text ends. -/
theorem local_classPart? : Local 1 n fun m => classPart? (more m) flags waiting set := by
  apply Local.cons (fun _ => rfl)
  intro c
  have hne {c : Char} {s : Text} (hs : c ∉ s.head?) (rest : Text) : s ≠ c :: rest := by
    rintro rfl
    exact hs rfl
  by_cases hopen : c = '['
  · subst hopen
    exact local_openPart flags hmore waiting set
  by_cases hclose : c = ']'
  · subst hclose
    exact .pure (some (joinClass flags waiting set))
  by_cases hand : c = '&'
  · subst hand
    apply local_operatorPart flags hmore waiting set .inter (by decide) (fun _ _ => rfl)
    intro m s hs
    simp [classPart?, hne hs]
  by_cases hdash : c = '-'
  · subst hdash
    apply local_operatorPart flags hmore waiting set .diff (by decide) (fun _ _ => rfl)
    intro m s hs
    simp [classPart?, hne hs]
  by_cases htilde : c = '~'
  · subst htilde
    apply local_operatorPart flags hmore waiting set .symmDiff (by decide) (fun _ _ => rfl)
    intro m s hs
    simp [classPart?, hne hs]
  have hother (m : Nat) (s : Text) : classPart? (more m) flags waiting set (c :: s) =
      classItem? flags (c :: s) >>= fun p => more m waiting (.union set p.1) p.2 := by
    simp [classPart?, hopen, hclose, hand, hdash, htilde]
  simp only [hother]
  exact local_itemPart flags hmore waiting set c

end Parts

theorem local_classBody? (waiting : Option (SetOp × CharSet)) (set : CharSet) :
    Local 0 n fun m => classBody? flags m waiting set := by
  induction n generalizing waiting set with
  | zero => exact .refuse fun _ => rfl
  | succ n ih =>
    exact .succ (H := fun m s => classPart? (classBody? flags m) flags waiting set (flags.skip s))
      (fun _ _ => rfl) ((local_classPart? flags ih waiting set).comp flags.skip_trims)

theorem local_bracketClass? : Local spare n fun _ => bracketClass? flags := by
  apply Local.bounded (F := fun m s => do
    let (negated, set, rest) := openClass flags s
    let (set, rest) ← classBody? flags m none set rest
    return (← flags.negate? negated (flags.fold set), rest))
  intro n
  apply local_openClass flags (K := fun m p => do
    let (set, rest) ← classBody? flags m none p.2.1 p.2.2
    return (← flags.negate? p.1 (flags.fold set), rest))
  intro negated set
  dsimp only
  apply (local_classBody? flags none set).bind
  intro set
  exact .option (flags.negate? negated (flags.fold set)) fun set => .pure (some set)

end TokenGraph
