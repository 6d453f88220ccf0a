import TokenGraph.Proofs.Pattern.Readers

/-!
# Reading remarks and escapes

Remarks, the names that stand in front of a certain character, and escapes are read without regard
to how their text ends.
-/
namespace TokenGraph

variable {spare n : Nat}

section Remarks

private theorem dropRemarks_cons (inComment : Bool) (c : Char) :
    (∃ inComment', ∀ s, dropRemarks inComment (c :: s) = dropRemarks inComment' s) ∨
      ∀ s, dropRemarks inComment (c :: s) = c :: s := by
  cases inComment with
  | true => exact .inl ⟨c ≠ '\n', fun s => rfl⟩
  | false =>
    by_cases hblank : isBlank c = true
    · exact .inl ⟨false, fun s => by simp [dropRemarks, hblank]⟩
    · by_cases hmark : c = '#'
      · subst hmark
        exact .inl ⟨true, fun s => by simp [dropRemarks, hblank]⟩
      · exact .inr fun s => by simp [dropRemarks, hblank, hmark]

private theorem dropRemarks_of_line {t : Text} (h : '\n' ∉ t) : dropRemarks true t = [] := by
  induction t with
  | nil => rfl
  | cons c t ih =>
    have hc : c ≠ '\n' := fun hc => h (by simp [hc])
    have ht : '\n' ∉ t := fun ht => h (List.mem_cons_of_mem c ht)
    simpa [dropRemarks, hc] using ih ht

private theorem dropRemarks_of_head {t : Text} (h : ∀ c ∈ t.head?, c = ')') :
    dropRemarks false t = t := by
  cases t with
  | nil => rfl
  | cons c t =>
    obtain rfl := h c rfl
    rfl

theorem dropRemarks_suffix (inComment : Bool) (s : Text) : dropRemarks inComment s <:+ s := by
  induction s generalizing inComment with
  | nil => exact List.suffix_refl []
  | cons c s ih =>
    rcases dropRemarks_cons inComment c with ⟨inComment', hdrop⟩ | hkeep
    · rw [hdrop]
      exact (ih inComment').trans (List.suffix_cons c s)
    · rw [hkeep]

/-- A comment that has begun takes either end whole. -/
theorem dropRemarks_alike {t t' s s' : Text} (ht : Closing t) (ht' : Closing t')
    (h : Alike t t' s s') (inComment : Bool) :
    Alike t t' (dropRemarks inComment s) (dropRemarks inComment s') := by
  induction h generalizing inComment with
  | read => exact .read
  | ends =>
    cases inComment with
    | false =>
      rw [dropRemarks_of_head ht.head, dropRemarks_of_head ht'.head]
      exact .ends
    | true =>
      rw [dropRemarks_of_line ht.line, dropRemarks_of_line ht'.line]
      exact .read
  | cons c h ih =>
    rcases dropRemarks_cons inComment c with ⟨inComment', hdrop⟩ | hkeep
    · rw [hdrop, hdrop]
      exact ih inComment'
    · rw [hkeep, hkeep]
      exact h.cons c

end Remarks

theorem PatternFlags.skip_trims (flags : PatternFlags) : Trims flags.skip where
  suffix s := by
    rw [skip]
    split
    · exact dropRemarks_suffix false s
    · exact List.suffix_refl s
  alike ht ht' h := by
    rw [skip, skip]
    split
    · exact dropRemarks_alike ht ht' h false
    · exact h

theorem dropLazy_trims : Trims dropLazy where
  suffix s := by
    unfold dropLazy
    split
    · exact List.suffix_cons '?' _
    · exact List.suffix_refl s
  alike {t t' s s'} ht ht' h := by
    have hends {t : Text} (ht : Closing t) : dropLazy t = t := by
      unfold dropLazy
      split
      · exact absurd (ht.head '?' rfl) (by decide)
      · rfl
    cases h with
    | read => exact .read
    | ends =>
      rw [hends ht, hends ht']
      exact .ends
    | @cons c s s' h =>
      by_cases hc : c = '?'
      · subst hc
        exact h
      · have hkeep (s : Text) : dropLazy (c :: s) = c :: s := by simp [dropLazy, hc]
        rw [hkeep, hkeep]
        exact h.cons c

section Runs

theorem upTo?_append {c : Char} {s name rest : Text} (h : upTo? c s = some (name, rest)) :
    s = name ++ c :: rest ∧ ∀ rest', upTo? c (name ++ c :: rest') = some (name, rest') := by
  induction s generalizing name with
  | nil => cases h
  | cons d s ih =>
    rw [upTo?] at h
    by_cases hd : d = c
    · rw [if_pos hd] at h
      cases h
      exact ⟨by rw [hd, List.nil_append], fun rest' => by simp [upTo?]⟩
    · rw [if_neg hd] at h
      obtain ⟨⟨name', rest⟩, hread, hpair⟩ := Option.map_eq_some_iff.mp h
      cases hpair
      obtain ⟨rfl, hname⟩ := ih hread
      refine ⟨rfl, fun rest' => ?_⟩
      rw [List.cons_append, upTo?, if_neg hd, hname rest']
      rfl

theorem local_upTo? (c : Char) : Local spare n fun _ => upTo? c := by
  apply Local.cut
  intro s rest name h
  obtain ⟨rfl, hname⟩ := upTo?_append h
  exact ⟨name ++ [c], by simp, fun rest' => by simpa using hname rest'⟩

private theorem takeWhile_alike {p : Char → Bool} (hp : p ')' = false) {t t' s s' : Text}
    (ht : Closing t) (ht' : Closing t') (h : Alike t t' s s') :
    s'.takeWhile p = s.takeWhile p := by
  induction h with
  | read => rfl
  | ends => rw [ht.takeWhile hp, ht'.takeWhile hp]
  | cons c _ ih => rw [List.takeWhile_cons, List.takeWhile_cons, ih]

theorem local_takeWhile {p : Char → Bool} (hp : p ')' = false) :
    Local spare n fun _ s => some (s.takeWhile p, s.dropWhile p) where
  suffix h := by
    cases h
    exact List.dropWhile_suffix p
  swap {t t' s s' rest x m} ht ht' halike h _ _ := by
    cases h
    refine ⟨s'.dropWhile p, ?_, (Trims.dropWhile p hp).alike ht ht' halike,
      List.dropWhile_suffix p⟩
    rw [takeWhile_alike hp ht ht' halike]

end Runs

section Escapes

variable (flags : PatternFlags)

theorem local_hexDigits? (count value : Nat) :
    Local spare n fun _ => hexDigits? flags.skip count value := by
  induction count generalizing value with
  | zero => exact .pure (some value)
  | succ count ih =>
    apply Local.weaken
    apply Local.cons (fun _ => rfl)
    intro c
    exact .option (hexDigit? c) fun digit => (ih (16 * value + digit)).comp flags.skip_trims

private theorem local_bracedHex :
    Local spare n fun _ s => do
      let (digits, rest) ← upTo? '\x7D' s
      let value ← hexNumber? (digits.filter fun c => (flags.skip [c]).length = 1)
      return (← scalar? value, flags.skip rest) := by
  apply (local_upTo? '\x7D').bind
  intro digits
  apply Local.option
  intro value
  exact .option (scalar? value) fun c => (Local.pure (some c)).comp flags.skip_trims

private theorem local_plainHex (plain? : Nat → Option Char) (count : Nat) :
    Local spare n fun _ s => do
      let (value, rest) ← hexDigits? flags.skip count 0 s
      return (← plain? value, rest) := by
  apply (local_hexDigits? flags count 0).bind
  intro value
  exact .option (plain? value) fun c => .pure (some c)

theorem local_hexEscape? (plain? : Nat → Option Char) (count : Nat) :
    Local spare n fun _ => hexEscape? flags.skip plain? count := by
  apply Local.opt flags.skip_trims (c := '\x7B') (by decide) (local_bracedHex flags)
    (local_plainHex flags plain? count)
  · intro m s rest hs
    rw [hexEscape?, hs]
    rfl
  · intro m s hs
    rw [hexEscape?]
    split
    · next rest hrest => simp [hrest] at hs
    · rfl

/-- A brace with a letter or a hyphen behind it begins the name of a word edge. -/
private def NamesEdge (s : Text) : Prop :=
  ∃ rest, s = '\x7B' :: rest ∧ ∃ c ∈ rest.head?, (c.isAlpha || c = '-') = true

private theorem namesEdge_steady : Steady NamesEdge :=
  (Steady.headTest (by decide)).behind (by decide)

private theorem local_namedEdge : Local spare n fun _ s => do
    let (name, rest) ← upTo? '\x7D' s
    return (← WordEdge.named? name, rest) := by
  apply (local_upTo? '\x7D').bind
  intro name
  exact .option (WordEdge.named? name) fun edge => .pure (some edge)

theorem local_wordEdge? : Local spare n fun _ => wordEdge? := by
  apply Local.branch namesEdge_steady local_namedEdge.behind (.pure (some .either))
  · intro m s hs
    obtain ⟨rest, rfl, c, hc, htest⟩ := hs
    obtain ⟨inner, rfl⟩ := List.head?_eq_some_iff.mp hc
    rw [wordEdge?, if_pos htest]
  · intro m s hs
    unfold wordEdge?
    split
    · next c inner =>
      have htest : ¬ (c.isAlpha || c = '-') = true := fun htest => hs ⟨_, rfl, c, rfl, htest⟩
      rw [if_neg htest]
      rfl
    · rfl

/-- All but four escapes are a single character. -/
private theorem escape?_letter {c : Char} (hx : c ≠ 'x') (hu : c ≠ 'u') (hU : c ≠ 'U')
    (hb : c ≠ 'b') : ∃ o : Option Primitive, ∀ s, escape? flags (c :: s) = o.map (·, s) := by
  refine ⟨(escape? flags [c]).map Prod.fst, fun s => ?_⟩
  unfold escape?
  dsimp only
  split
  -- the last case tells letters and digits from other characters
  case h_22 => split <;> rfl
  all_goals simp_all [Function.comp_def]

theorem local_escape? : Local spare n fun _ => escape? flags := by
  apply Local.weaken
  apply Local.cons (fun _ => rfl)
  intro c
  by_cases hx : c = 'x'
  · subst hx
    exact (local_hexEscape? flags flags.byte? 2).map Primitive.literal
  by_cases hu : c = 'u'
  · subst hu
    exact (local_hexEscape? flags scalar? 4).map Primitive.literal
  by_cases hU : c = 'U'
  · subst hU
    exact (local_hexEscape? flags scalar? 8).map Primitive.literal
  by_cases hb : c = 'b'
  · subst hb
    exact local_wordEdge?.map fun edge => Primitive.anchor (.word edge flags.wordChars)
  obtain ⟨o, ho⟩ := escape?_letter flags hx hu hU hb
  simp only [ho]
  exact .pure o

end Escapes

end TokenGraph
