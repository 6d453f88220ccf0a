import TokenGraph.Proofs.Pattern.Classes

/-!
# Reading patterns

The heads of groups and the counts of repetitions are read without regard to how their text ends,
and with them whole alternatives, round by round.
-/
namespace TokenGraph

variable {spare n : Nat}

section Groups

/-- The flags of a group are read up to the character that ends them, whatever stands behind it. -/
theorem groupFlags?_cut {seen : List Char} {negated dangling : Bool} {flags set : PatternFlags}
    {s rest : Text} (h : groupFlags? seen negated dangling flags s = some (set, rest)) :
    ∃ pre c after, s = pre ++ rest ∧ rest = c :: after ∧
      ∀ after', groupFlags? seen negated dangling flags (pre ++ c :: after') =
        some (set, c :: after') := by
  induction s generalizing seen negated dangling flags with
  | nil => cases h
  | cons c s ih =>
    rw [groupFlags?] at h
    split at h
    · next hend =>
      split at h
      · cases h
      · next hdangling =>
        cases h
        exact ⟨[], c, s, rfl, rfl, fun after' => by
          rw [List.nil_append, groupFlags?, if_pos hend, if_neg hdangling]⟩
    · next hend =>
      split at h
      · cases h
      · next hseen =>
        split at h
        · next hminus =>
          obtain ⟨pre, d, after, rfl, rfl, hpre⟩ := ih h
          exact ⟨c :: pre, d, after, rfl, rfl, fun after' => by
            rw [List.cons_append, groupFlags?, if_neg hend, if_neg hseen, if_pos hminus, hpre]⟩
        · next hminus =>
          obtain ⟨flags', hset, h⟩ := Option.bind_eq_some_iff.mp h
          obtain ⟨pre, d, after, rfl, rfl, hpre⟩ := ih h
          exact ⟨c :: pre, d, after, rfl, rfl, fun after' => by
            rw [List.cons_append, groupFlags?, if_neg hend, if_neg hseen, if_neg hminus, hset]
            exact hpre after'⟩

variable (flags : PatternFlags)

theorem local_namedHead? : Local spare n fun _ => namedHead? flags := by
  apply (local_upTo? '>').bind
  intro name
  exact .ite (.pure (some (GroupHead.group flags (some name)))) .fail

theorem local_flagsHead? : Local spare n fun _ => flagsHead? flags := by
  apply Local.cut
  intro s rest head h
  obtain ⟨⟨set, behind⟩, hread, h⟩ := Option.bind_eq_some_iff.mp h
  obtain ⟨pre, c, after, rfl, rfl, hpre⟩ := groupFlags?_cut hread
  by_cases hcolon : c = ':'
  · subst hcolon
    cases h
    exact ⟨pre ++ [':'], by simp, fun rest' => by simp [flagsHead?, hpre]⟩
  by_cases hclose : c = ')'
  · subst hclose
    change (if (pre ++ ')' :: after).length = (')' :: after).length then none
      else some (GroupHead.directive set, after)) = some (head, rest) at h
    split at h
    · cases h
    · next hlength =>
      cases h
      have hne : pre ≠ [] := by
        rintro rfl
        exact hlength rfl
      -- a directive without flags is refused, which is told by what was read as well
      exact ⟨pre ++ [')'], by simp, fun rest' => by simp [flagsHead?, hpre, hne]⟩
  · simp [hcolon, hclose] at h

/-- A letter and a bracket that begin the name of a group. -/
private def NamesGroup (s : Text) : Prop := ∃ rest, s = 'P' :: rest ∧ '<' ∈ rest.head?

private theorem namesGroup_steady : Steady NamesGroup :=
  (Steady.head (by decide)).behind (by decide)

private theorem local_plainMark : Local spare n fun _ s =>
    match s with
    | '<' :: rest => namedHead? flags rest
    | rest => flagsHead? flags rest := by
  apply Local.opt .id (c := '<') (by decide) (local_namedHead? flags) (local_flagsHead? flags)
  · rintro m s rest rfl
    rfl
  · intro m s hs
    split
    · exact absurd rfl hs
    · rfl

theorem local_groupMark? : Local spare n fun _ => groupMark? flags := by
  apply Local.branch namesGroup_steady (local_namedHead? flags).behind.behind
    (local_plainMark flags)
  · intro m s hs
    obtain ⟨rest, rfl, hrest⟩ := hs
    obtain ⟨inner, rfl⟩ := List.head?_eq_some_iff.mp hrest
    rfl
  · intro m s hs
    unfold groupMark?
    split
    · exact absurd ⟨_, rfl, rfl⟩ hs
    · rfl
    · next hbracket =>
      split
      · exact absurd rfl (hbracket _)
      · rfl

theorem local_groupHead? : Local spare n fun _ => groupHead? flags := by
  apply Local.opt flags.skip_trims (c := '?') (by decide) (local_groupMark? flags)
    (.pure (some (.group flags none)))
  · intro m s rest hs
    rw [groupHead?, hs]
    rfl
  · intro m s hs
    rw [groupHead?]
    split
    · next hskip => simp [hskip] at hs
    · rfl

end Groups

section Counts

variable (flags : PatternFlags)

theorem local_repeatCount? : Local spare n fun _ => repeatCount? flags := by
  have hblanks := Trims.dropWhile isBlank (by decide)
  apply Local.comp hblanks (F := fun _ s => some (s.takeWhile Char.isDigit, s.dropWhile Char.isDigit) >>=
    fun p => do
      let count ← decimalNumber? p.1
      if count < Nat.pow 2 32 then some (count, flags.skip (p.2.dropWhile isBlank)) else none)
  apply (local_takeWhile (by decide)).bind
  intro digits
  dsimp only
  apply Local.option
  intro count
  exact .ite (((Local.pure (some count)).comp flags.skip_trims).comp hblanks) .fail

private theorem local_limit (least : Nat) : Local spare n (fun _ s => do
    match ← repeatCount? flags s with
    | (most, '\x7D' :: rest) => if least ≤ most then some (some most, rest) else none
    | _ => none) := by
  apply (local_repeatCount? flags).bind
  intro most
  apply Local.opt .id (c := '\x7D') (by decide)
    (.ite (p := least ≤ most) (.pure (some (some most))) .fail) .fail
  · rintro m s rest rfl
    rfl
  · intro m s hs
    split
    · next h =>
      cases h
      exact absurd rfl hs
    · rfl

theorem local_repeatLimit? (least : Nat) : Local spare n fun _ => repeatLimit? flags least := by
  apply Local.opt flags.skip_trims (c := '\x7D') (by decide) (.pure (some none))
    (local_limit flags least)
  · intro m s rest hs
    rw [repeatLimit?, hs]
    rfl
  · intro m s hs
    rw [repeatLimit?]
    split
    · next hskip => simp [hskip] at hs
    · rfl

private theorem local_furtherCount (least : Nat) : Local spare n (fun _ s =>
    match s with
    | ',' :: rest => do
      let (most, rest) ← repeatLimit? flags least rest
      return ((least, most), rest)
    | _ => none) := by
  have hmost : Local spare n fun _ s => do
      let (most, rest) ← repeatLimit? flags least s
      return ((least, most), rest) :=
    (local_repeatLimit? flags least).bind fun most => .pure (some (least, most))
  apply Local.opt .id (c := ',') (by decide) hmost .fail
  · rintro m s rest rfl
    rfl
  · intro m s hs
    split
    · exact absurd rfl hs
    · rfl

theorem local_repeatCounts? : Local spare n fun _ => repeatCounts? flags := by
  apply ((local_repeatCount? flags).comp flags.skip_trims).bind
  intro least
  apply Local.opt .id (c := '\x7D') (by decide) (.pure (some (least, some least)))
    (local_furtherCount flags least)
  · rintro m s rest rfl
    rfl
  · intro m s hs
    split
    · next h =>
      cases h
      exact absurd rfl hs
    · next h =>
      cases h
      rfl
    · next hcomma =>
      split
      · next rest hs => exact (hcomma least rest (congrArg (Prod.mk least) hs)).elim
      · rfl

end Counts

section Alternatives

variable {more : Nat → PatternReading → Text → Option ((Regex × List Text) × Text)}
  (hmore : ∀ reading, Local 0 n fun m => more m reading) (reading : PatternReading)
include hmore

private theorem local_groupPiece :
    Local 0 n fun m s => nextPiece? (more m) reading ('(' :: s) := by
  apply (local_groupHead? reading.flags).bind
  intro head
  cases head with
  | directive set => exact hmore _
  | group inner name =>
    apply Local.ite .fail
    apply (hmore { flags := inner, names := name.toList ++ reading.names }).bind
    intro group
    apply Local.weaken
    apply Local.cons (fun _ => rfl)
    intro c
    by_cases hc : c = ')'
    · subst hc
      exact hmore { reading.add group.1 with names := group.2 }
    · exact .refuse fun s => by simp [hc]

theorem local_nextPiece? : Local 1 n fun m => nextPiece? (more m) reading := by
  apply Local.stop (reading.joined, reading.names)
  · intro m s hs
    cases s with
    | nil => rfl
    | cons c s =>
      obtain rfl := hs c rfl
      rfl
  intro c hclose
  by_cases hbar : c = '|'
  · subst hbar
    exact hmore _
  by_cases hopen : c = '('
  · subst hopen
    exact local_groupPiece hmore reading
  by_cases hbracket : c = '['
  · subst hbracket
    exact (local_bracketClass? reading.flags).bind fun set => hmore (reading.add (.one set))
  by_cases hquestion : c = '?'
  · subst hquestion
    exact .option (reading.repeat? 0 (some 1)) fun reading => (hmore reading).comp dropLazy_trims
  by_cases hstar : c = '*'
  · subst hstar
    exact .option (reading.repeat? 0 none) fun reading => (hmore reading).comp dropLazy_trims
  by_cases hplus : c = '+'
  · subst hplus
    exact .option (reading.repeat? 1 none) fun reading => (hmore reading).comp dropLazy_trims
  by_cases hbrace : c = '\x7B'
  · subst hbrace
    apply (local_repeatCounts? reading.flags).bind
    intro counts
    exact .option (reading.repeat? counts.1 counts.2) fun reading' =>
      (hmore reading').comp (dropLazy_trims.comp reading.flags.skip_trims)
  by_cases hescape : c = '\\'
  · subst hescape
    apply (local_escape? reading.flags).bind
    intro primitive
    exact .option (primitive.regex? reading.flags) fun r => hmore (reading.add r)
  by_cases hdot : c = '.'
  · subst hdot
    exact .option reading.flags.dot? fun set => hmore (reading.add (.one set))
  by_cases hstart : c = '^'
  · subst hstart
    exact hmore (reading.add (.anchor reading.flags.lineStart))
  by_cases hend : c = '$'
  · subst hend
    exact hmore (reading.add (.anchor reading.flags.lineEnd))
  have hother (m : Nat) (s : Text) : nextPiece? (more m) reading (c :: s) =
      reading.flags.literal? c >>= fun r => more m (reading.add r) s := by
    simp [nextPiece?]
  simp only [hother]
  exact .option (reading.flags.literal? c) fun r => hmore (reading.add r)

end Alternatives

theorem local_alternatives? (reading : PatternReading) :
    Local 0 n fun m => alternatives? m reading := by
  induction n generalizing reading with
  | zero => exact .refuse fun _ => rfl
  | succ n ih =>
    exact .succ (H := fun m s => nextPiece? (alternatives? m) reading (reading.flags.skip s))
      (fun _ _ => rfl) ((local_nextPiece? ih reading).comp reading.flags.skip_trims)

end TokenGraph
