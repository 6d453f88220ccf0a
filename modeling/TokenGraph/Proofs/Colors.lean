import Mathlib.Data.List.TakeWhile
import TokenGraph.Error

/-!
# Written colors

A color is meant to be written as a number sign with six or eight hexadecimal digits, two for each
channel, and white space at either end. All such texts are read as the colors that they stand for. A
channel is also read where it has a plus sign in place of its first digit; no other text is.
-/

namespace TokenGraph

/-! ### White space at the ends -/

section Trim

variable {front s back : List Char}

private theorem dropWhile_isBlank_blanks (h : ∀ c ∈ s, isBlank c = true) :
    s.dropWhile isBlank = [] := by
  rw [← List.append_nil s, List.dropWhile_append_of_pos h]
  rfl

/-- White space at the ends makes no difference. -/
theorem trim_append (hfront : ∀ c ∈ front, isBlank c = true)
    (hback : ∀ c ∈ back, isBlank c = true) : trim (front ++ s ++ back) = trim s := by
  have hback' : ∀ c ∈ back.reverse, isBlank c = true := by simpa using hback
  rw [trim, trim, List.append_assoc, List.dropWhile_append_of_pos hfront, List.dropWhile_append]
  split
  · next hempty =>
    rw [dropWhile_isBlank_blanks hback, List.isEmpty_iff.mp hempty]
  · rw [List.reverse_append, List.dropWhile_append_of_pos hback']

theorem exists_trim (s : List Char) : ∃ front back, s = front ++ trim s ++ back ∧
    (∀ c ∈ front, isBlank c = true) ∧ ∀ c ∈ back, isBlank c = true := by
  have htake : ∀ (l : List Char), ∀ c ∈ l.takeWhile isBlank, isBlank c = true := by
    intro l c hc
    exact List.mem_takeWhile_imp hc
  refine ⟨s.takeWhile isBlank, ((s.dropWhile isBlank).reverse.takeWhile isBlank).reverse, ?_,
    htake s, ?_⟩
  · rw [trim, List.append_assoc, ← List.reverse_append, List.takeWhile_append_dropWhile,
      List.reverse_reverse, List.takeWhile_append_dropWhile]
  · intro c hc
    exact htake _ c (List.mem_reverse.mp hc)

private theorem dropWhile_isBlank_self (h : ∀ c ∈ s.head?, isBlank c = false) :
    s.dropWhile isBlank = s := by
  cases s with
  | nil => rfl
  | cons c s => exact List.dropWhile_cons_of_neg (by simpa using h c rfl)

/-- A text without white space at its ends is trimmed already. -/
theorem trim_eq_self (hfirst : ∀ c ∈ s.head?, isBlank c = false)
    (hlast : ∀ c ∈ s.getLast?, isBlank c = false) : trim s = s := by
  have hreverse : ∀ c ∈ s.reverse.head?, isBlank c = false := by
    rwa [List.head?_reverse]
  rw [trim, dropWhile_isBlank_self hfirst, dropWhile_isBlank_self hreverse, List.reverse_reverse]

end Trim

/-! ### Digits -/

/-- A hexadecimal digit, of either case, and its value. -/
def IsHexDigit (c : Char) (n : Nat) : Prop :=
  (text "0123456789abcdef")[n]? = some c ∨ (text "0123456789ABCDEF")[n]? = some c

instance (c : Char) (n : Nat) : Decidable (IsHexDigit c n) :=
  inferInstanceAs (Decidable (_ ∨ _))

theorem IsHexDigit.lt {c : Char} {n : Nat} (h : IsHexDigit c n) : n < 16 := by
  rcases h with h | h <;> exact (List.getElem?_eq_some_iff.mp h).1

/-- What holds of the sixteen digits in either case holds of every digit. -/
private theorem IsHexDigit.of_all {p : Char → Nat → Bool}
    (hall : ∀ n < 16, (text "0123456789abcdef")[n]?.all (p · n) = true ∧
      (text "0123456789ABCDEF")[n]?.all (p · n) = true)
    {c : Char} {n : Nat} (h : IsHexDigit c n) : p c n = true := by
  obtain ⟨hlower, hupper⟩ := hall n h.lt
  rcases h with h | h
  · rw [h] at hlower
    exact hlower
  · rw [h] at hupper
    exact hupper

theorem hexDigit?_eq_some_iff {c : Char} {n : Nat} : hexDigit? c = some n ↔ IsHexDigit c n := by
  constructor
  · intro h
    have hbound : c.toNat < 103 ∧ n < 16 := by
      have hle : ∀ a b : Char, a ≤ b → a.toNat ≤ b.toNat := fun a b hab => hab
      rw [hexDigit?] at h
      split at h
      · next hdigit =>
        have hc := hle _ _ hdigit.2
        simp at h hc
        omega
      · split at h
        · next hlower =>
          have hc := hle _ _ hlower.2
          simp at h hc
          omega
        · split at h
          · next hupper =>
            have hc := hle _ _ hupper.2
            simp at h hc
            omega
          · cases h
    -- no digit comes behind 'f', so that a table of the characters up to it is enough
    have hall : ∀ k < 103, ∀ n < 16, hexDigit? (Char.ofNat k) = some n →
        IsHexDigit (Char.ofNat k) n := by decide +kernel
    have hc := hall c.toNat hbound.1 n hbound.2
    rw [Char.ofNat_toNat] at hc
    exact hc h
  · intro h
    have hread := IsHexDigit.of_all (p := fun c n => hexDigit? c = some n) (by decide +kernel) h
    exact of_decide_eq_true hread

theorem IsHexDigit.not_blank {c : Char} {n : Nat} (h : IsHexDigit c n) : isBlank c = false := by
  have hblank := IsHexDigit.of_all (p := fun c _ => !isBlank c) (by decide +kernel) h
  simpa using hblank

namespace Color

/-- Two hexadecimal digits, and the channel that they spell. -/
def Pair (high low : Char) (v : UInt8) : Prop :=
  ∃ h l, IsHexDigit high h ∧ IsHexDigit low l ∧ v.toNat = 16 * h + l

/-- A plus sign in place of the first digit. -/
def Signed (high low : Char) (v : UInt8) : Prop := high = '+' ∧ IsHexDigit low v.toNat

theorem not_isHexDigit_plus (n : Nat) : ¬ IsHexDigit '+' n := by
  intro h
  have hread : hexDigit? '+' = some n := hexDigit?_eq_some_iff.mpr h
  have hnone : hexDigit? '+' = none := rfl
  rw [hnone] at hread
  cases hread

theorem channel?_eq_some_iff {high low : Char} {v : UInt8} :
    channel? high low = some v ↔ Pair high low v ∨ Signed high low v := by
  rw [channel?]
  constructor
  · intro hread
    cases hlow : hexDigit? low with
    | none =>
      rw [hlow] at hread
      cases hread
    | some l =>
      have hl := hexDigit?_eq_some_iff.mp hlow
      have hlt := hl.lt
      rw [hlow] at hread
      dsimp only at hread
      split at hread
      · next hplus =>
        cases hread
        right
        refine ⟨hplus, ?_⟩
        rwa [UInt8.toNat_ofNat_of_lt' (by show l < 256; omega)]
      · obtain ⟨h, hhigh, rfl⟩ := Option.map_eq_some_iff.mp hread
        have hh := hexDigit?_eq_some_iff.mp hhigh
        have hlt' := hh.lt
        left
        refine ⟨h, l, hh, hl, ?_⟩
        exact UInt8.toNat_ofNat_of_lt' (by show 16 * h + l < 256; omega)
  · rintro (⟨h, l, hh, hl, hv⟩ | ⟨rfl, hl⟩)
    · have hplus : high ≠ '+' := by
        rintro rfl
        exact not_isHexDigit_plus h hh
      rw [hexDigit?_eq_some_iff.mpr hl, hexDigit?_eq_some_iff.mpr hh]
      dsimp only
      rw [if_neg hplus, Option.map_some, ← hv, UInt8.ofNat_toNat]
    · rw [hexDigit?_eq_some_iff.mpr hl]
      simp

/-- A color from its number sign on, with six digits or with eight. -/
inductive Spells (channel : Char → Char → UInt8 → Prop) : Text → Color → Prop
  | six {r r' g g' b b' : Char} {red green blue : UInt8} (hred : channel r r' red)
      (hgreen : channel g g' green) (hblue : channel b b' blue) :
      Spells channel ['#', r, r', g, g', b, b'] ⟨red, green, blue, 255⟩
  | eight {r r' g g' b b' a a' : Char} {red green blue alpha : UInt8} (hred : channel r r' red)
      (hgreen : channel g g' green) (hblue : channel b b' blue) (halpha : channel a a' alpha) :
      Spells channel ['#', r, r', g, g', b, b', a, a'] ⟨red, green, blue, alpha⟩

/-- A color with white space at either end. -/
def Written (channel : Char → Char → UInt8 → Prop) (s : Text) (c : Color) : Prop :=
  ∃ front body back, s = front ++ body ++ back ∧ (∀ x ∈ front, isBlank x = true) ∧
    (∀ x ∈ back, isBlank x = true) ∧ Spells channel body c

/-- A channel as it is read. -/
def Read (high low : Char) (v : UInt8) : Prop := Pair high low v ∨ Signed high low v

theorem Spells.trim_eq {body : Text} {c : Color} (h : Spells Read body c) : trim body = body := by
  have hlow : ∀ {high low v}, Read high low v → isBlank low = false := by
    rintro high low v (⟨-, l, -, hl, -⟩ | ⟨-, hl⟩) <;> exact hl.not_blank
  cases h with
  | six hred hgreen hblue =>
    apply trim_eq_self
    · simp [isBlank]
    · simp [hlow hblue]
  | eight hred hgreen hblue halpha =>
    apply trim_eq_self
    · simp [isBlank]
    · simp [hlow halpha]

theorem ofText?_eq_some_iff {s : Text} {c : Color} : ofText? s = some c ↔ Written Read s c := by
  constructor
  · intro h
    obtain ⟨front, back, hs, hfront, hback⟩ := exists_trim s
    refine ⟨front, trim s, back, hs, hfront, hback, ?_⟩
    rw [ofText?] at h
    split at h
    · next hbody =>
      simp only [Option.bind_eq_bind, Option.bind_eq_some_iff, channel?_eq_some_iff] at h
      obtain ⟨red, hred, green, hgreen, blue, hblue, ⟨⟩⟩ := h
      rw [hbody]
      exact .six hred hgreen hblue
    · next hbody =>
      simp only [Option.bind_eq_bind, Option.bind_eq_some_iff, channel?_eq_some_iff] at h
      obtain ⟨red, hred, green, hgreen, blue, hblue, alpha, halpha, ⟨⟩⟩ := h
      rw [hbody]
      exact .eight hred hgreen hblue halpha
    · cases h
  · rintro ⟨front, body, back, rfl, hfront, hback, hbody⟩
    rw [ofText?, trim_append hfront hback, hbody.trim_eq]
    cases hbody with
    | six hred hgreen hblue =>
      simp [channel?_eq_some_iff.mpr hred, channel?_eq_some_iff.mpr hgreen,
        channel?_eq_some_iff.mpr hblue]
    | eight hred hgreen hblue halpha =>
      simp [channel?_eq_some_iff.mpr hred, channel?_eq_some_iff.mpr hgreen,
        channel?_eq_some_iff.mpr hblue, channel?_eq_some_iff.mpr halpha]

variable {channel channel' : Char → Char → UInt8 → Prop} {s body : Text} {c : Color}

theorem Spells.imp (h : Spells channel body c)
    (himp : ∀ high low v, high ∈ body → channel high low v → channel' high low v) :
    Spells channel' body c := by
  cases h with
  | six hred hgreen hblue =>
    exact .six (himp _ _ _ (by simp) hred) (himp _ _ _ (by simp) hgreen)
      (himp _ _ _ (by simp) hblue)
  | eight hred hgreen hblue halpha =>
    exact .eight (himp _ _ _ (by simp) hred) (himp _ _ _ (by simp) hgreen)
      (himp _ _ _ (by simp) hblue) (himp _ _ _ (by simp) halpha)

theorem Written.imp (h : Written channel s c)
    (himp : ∀ high low v, high ∈ s → channel high low v → channel' high low v) :
    Written channel' s c := by
  obtain ⟨front, body, back, rfl, hfront, hback, hbody⟩ := h
  refine ⟨front, body, back, rfl, hfront, hback, hbody.imp ?_⟩
  intro high low v hhigh
  exact himp high low v (by simp [hhigh])

/-- There is no plus sign in a color that is written as it is meant to be. -/
theorem Written.plus_notMem (h : Written Pair s c) : '+' ∉ s := by
  have hpair : ∀ {high low v}, Pair high low v → '+' ≠ high ∧ '+' ≠ low := by
    rintro high low v ⟨h, l, hh, hl, -⟩
    constructor
    · rintro rfl
      exact not_isHexDigit_plus h hh
    · rintro rfl
      exact not_isHexDigit_plus l hl
  obtain ⟨front, body, back, rfl, hfront, hback, hbody⟩ := h
  have hblank : isBlank '+' = false := rfl
  have hends : '+' ∉ front ∧ '+' ∉ back := by
    constructor
    · intro hmem
      simp [hfront _ hmem] at hblank
    · intro hmem
      simp [hback _ hmem] at hblank
  have hinner : '+' ∉ body := by
    cases hbody with
    | six hred hgreen hblue => simp [hpair hred, hpair hgreen, hpair hblue]
    | eight hred hgreen hblue halpha =>
      simp [hpair hred, hpair hgreen, hpair hblue, hpair halpha]
  simp [hends, hinner]

theorem ofText_eq_ok_iff : ofText s = .ok c ↔ Written Read s c := by
  rw [← ofText?_eq_some_iff, ofText]
  cases ofText? s <;> simp

/-- What is read as a color are the texts that are written as one, and those with a plus sign in
place of the first digit of a channel. Any other text is refused, and reported as it stands. -/
theorem ofText_written (s : Text) :
    (∀ c, ofText s = .ok c ↔ Written Read s c) ∧
    (∀ cause, ofText s = .error cause ↔ (∀ c, ¬ Written Read s c) ∧ cause = .badColor s) ∧
    (∀ c, Written Pair s c → ofText s = .ok c) ∧
    ('+' ∉ s → ∀ c, ofText s = .ok c ↔ Written Pair s c) := by
  have hread : ∀ c, Written Pair s c → ofText s = .ok c := by
    intro c h
    apply ofText_eq_ok_iff.mpr
    exact h.imp fun high low v _ hpair => .inl hpair
  refine ⟨fun c => ofText_eq_ok_iff, ?_, hread, ?_⟩
  · intro cause
    simp only [← ofText_eq_ok_iff]
    rw [ofText]
    cases ofText? s <;> simp [eq_comm]
  · intro hplus c
    constructor
    · intro h
      apply (ofText_eq_ok_iff.mp h).imp
      rintro high low v hhigh (hpair | ⟨rfl, -⟩)
      · exact hpair
      · exact absurd hhigh hplus
    · exact hread c

theorem ofText_written_sample : '+' ∉ text " #0aF9c3E5\n" ∧
    ofText (text " #0aF9c3E5\n") = .ok ⟨0x0A, 0xF9, 0xC3, 0xE5⟩ ∧
    Written Pair (text " #0aF9c3E5\n") ⟨0x0A, 0xF9, 0xC3, 0xE5⟩ ∧
    ofText (text " 0aF9c3 ") = .error (.badColor (text " 0aF9c3 ")) ∧
    ∀ c, ¬ Written Read (text " 0aF9c3 ") c := by
  obtain ⟨-, -, -, hpair⟩ := ofText_written (text " #0aF9c3E5\n")
  obtain ⟨-, herror, -⟩ := ofText_written (text " 0aF9c3 ")
  have hplus : '+' ∉ text " #0aF9c3E5\n" := by decide
  have hread : ofText (text " #0aF9c3E5\n") = .ok ⟨0x0A, 0xF9, 0xC3, 0xE5⟩ := by decide +kernel
  have hrefused : ofText (text " 0aF9c3 ") = .error (.badColor (text " 0aF9c3 ")) := by
    decide +kernel
  exact ⟨hplus, hread, (hpair hplus _).mp hread, hrefused, ((herror _).mp hrefused).1⟩

/-- No color is written here, but one is read. -/
theorem ofText_signed : ofText (text "#+1+1+1") = .ok ⟨1, 1, 1, 255⟩ ∧
    ∀ c, ¬ Written Pair (text "#+1+1+1") c := by
  constructor
  · decide +kernel
  · intro c h
    exact h.plus_notMem (by decide)

end Color

end TokenGraph
