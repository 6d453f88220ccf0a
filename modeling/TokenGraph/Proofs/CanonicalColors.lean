import TokenGraph.Proofs.Colors

/-!
# Canonical colors

A color is written in one way, with capital letters, and with an alpha channel only if it is not
opaque. That text is read as the color again, and so is every other text that differs from it in the
case of letters and in white space at its ends.
-/

namespace TokenGraph.Color

/-- Texts that differ in the case of letters only. -/
def SameLetters (s t : Text) : Prop := s.map Char.toLower = t.map Char.toLower

instance (s t : Text) : Decidable (SameLetters s t) := inferInstanceAs (Decidable (_ = _))

variable {c d : Char} {n : Nat}

theorem toNat_le_toNat_toLower (c : Char) : c.toNat ≤ c.toLower.toNat := by
  by_cases hupper : c.val ≥ 'A'.val ∧ c.val ≤ 'Z'.val
  · have hshifted : c.toLower.val = c.val + ('a'.val - 'A'.val) :=
      congrArg Char.val (dif_pos hupper)
    have hshift : ('a'.val - 'A'.val).toNat = 32 := rfl
    have hle : c.val.toNat ≤ 90 := UInt32.le_iff_toNat_le.mp hupper.2
    show c.val.toNat ≤ c.toLower.val.toNat
    rw [hshifted, UInt32.toNat_add, hshift]
    omega
  · have hsame : c.toLower = c := dif_neg hupper
    rw [hsame]

/-- Only a table of the characters up to a small letter is needed to know all its forms. -/
theorem toNat_le_of_toLower (h : c.toLower = d.toLower) : c.toNat ≤ d.toLower.toNat := by
  rw [← h]
  exact toNat_le_toNat_toLower c

theorem eq_sign_of_toLower (h : c.toLower = '#'.toLower) : c = '#' := by
  have hlt : c.toNat < 36 := Nat.lt_succ_of_le (toNat_le_of_toLower h)
  have hall : ∀ k < 36, (Char.ofNat k).toLower = '#'.toLower → Char.ofNat k = '#' := by
    decide +kernel
  have hc := hall c.toNat hlt
  rw [Char.ofNat_toNat] at hc
  exact hc h

/-! ### Written digits -/

theorem digit_mem (hn : n < 16) : digit n ∈ text "0123456789ABCDEF" := by
  have hall : ∀ n < 16, (text "0123456789ABCDEF")[n]? = some (digit n) := by decide +kernel
  exact List.mem_of_getElem? (hall n hn)

/-- A digit that is written as a letter stands for its number in either case. -/
theorem isHexDigit_of_toLower (hn : n < 16) (h : c.toLower = (digit n).toLower) :
    IsHexDigit c n := by
  have hbound : ∀ n < 16, (digit n).toLower.toNat < 103 := by decide +kernel
  have hlt : c.toNat < 103 := Nat.lt_of_le_of_lt (toNat_le_of_toLower h) (hbound n hn)
  have hall : ∀ k < 103, ∀ n < 16, (Char.ofNat k).toLower = (digit n).toLower →
      IsHexDigit (Char.ofNat k) n := by decide +kernel
  have hc := hall c.toNat hlt n hn
  rw [Char.ofNat_toNat] at hc
  exact hc h

/-! ### Written channels -/

theorem channelText_subset (v : UInt8) : channelText v ⊆ text "0123456789ABCDEF" := by
  have hlt : v.toNat < 256 := v.toNat_lt
  have hhigh : v.toNat / 16 < 16 := by omega
  have hlow : v.toNat % 16 < 16 := by omega
  simp [channelText, digit_mem hhigh, digit_mem hlow]

theorem pair_of_toLower {high low : Char} {v : UInt8}
    (hhigh : high.toLower = (digit (v.toNat / 16)).toLower)
    (hlow : low.toLower = (digit (v.toNat % 16)).toLower) : Pair high low v := by
  have hlt : v.toNat < 256 := v.toNat_lt
  refine ⟨v.toNat / 16, v.toNat % 16, isHexDigit_of_toLower (by omega) hhigh,
    isHexDigit_of_toLower (by omega) hlow, ?_⟩
  exact (Nat.div_add_mod v.toNat 16).symm

/-! ### Written colors -/

theorem toText_of_opaque {c : Color} (h : c.alpha = 255) :
    c.toText = '#' :: (channelText c.red ++ channelText c.green ++ channelText c.blue) := by
  rw [toText, if_pos h, List.append_nil]

theorem toText_of_not_opaque {c : Color} (h : c.alpha ≠ 255) :
    c.toText = '#' :: (channelText c.red ++ channelText c.green ++ channelText c.blue ++
      channelText c.alpha) := by
  rw [toText, if_neg h]

/-- What is written spells the color, with small letters as well. -/
theorem spells_of_sameLetters {c : Color} {body : Text} (h : SameLetters body c.toText) :
    Spells Pair body c := by
  by_cases halpha : c.alpha = 255
  · rw [SameLetters, toText_of_opaque halpha] at h
    simp only [channelText, List.cons_append, List.nil_append, List.map_cons, List.map_nil,
      List.map_eq_cons_iff, List.map_eq_nil_iff] at h
    obtain ⟨x, _, rfl, hx, r, _, rfl, hr, r', _, rfl, hr', g, _, rfl, hg, g', _, rfl, hg', b, _,
      rfl, hb, b', _, rfl, hb', rfl⟩ := h
    obtain ⟨red, green, blue, alpha⟩ := c
    obtain rfl : alpha = 255 := halpha
    rw [eq_sign_of_toLower hx]
    exact .six (pair_of_toLower hr hr') (pair_of_toLower hg hg') (pair_of_toLower hb hb')
  · rw [SameLetters, toText_of_not_opaque halpha] at h
    simp only [channelText, List.cons_append, List.nil_append, List.map_cons, List.map_nil,
      List.map_eq_cons_iff, List.map_eq_nil_iff] at h
    obtain ⟨x, _, rfl, hx, r, _, rfl, hr, r', _, rfl, hr', g, _, rfl, hg, g', _, rfl, hg', b, _,
      rfl, hb, b', _, rfl, hb', a, _, rfl, ha, a', _, rfl, ha', rfl⟩ := h
    rw [eq_sign_of_toLower hx]
    exact .eight (pair_of_toLower hr hr') (pair_of_toLower hg hg') (pair_of_toLower hb hb')
      (pair_of_toLower ha ha')

/-- The text of a color has a sign, and two capital digits for each channel. -/
theorem toText_shape (c : Color) : ∃ digits, c.toText = '#' :: digits ∧
    digits.length = (if c.alpha = 255 then 6 else 8) ∧ digits ⊆ text "0123456789ABCDEF" := by
  by_cases halpha : c.alpha = 255
  · refine ⟨_, toText_of_opaque halpha, ?_, ?_⟩
    · rw [if_pos halpha]
      rfl
    · simp [channelText_subset]
  · refine ⟨_, toText_of_not_opaque halpha, ?_, ?_⟩
    · rw [if_neg halpha]
      rfl
    · simp [channelText_subset]

theorem ofText_of_sameLetters {c : Color} {front body back : Text}
    (hfront : ∀ x ∈ front, isBlank x = true) (hback : ∀ x ∈ back, isBlank x = true)
    (hbody : SameLetters body c.toText) : ofText (front ++ body ++ back) = .ok c := by
  have hwritten : Written Pair (front ++ body ++ back) c :=
    ⟨front, body, back, rfl, hfront, hback, spells_of_sameLetters hbody⟩
  apply ofText_eq_ok_iff.mpr
  exact hwritten.imp fun high low v _ hpair => .inl hpair

theorem ofText_toText (c : Color) : ofText c.toText = .ok c := by
  have hnone : ∀ x ∈ ([] : Text), isBlank x = true := by simp
  have hsame : SameLetters c.toText c.toText := rfl
  have hread := ofText_of_sameLetters hnone hnone hsame
  rwa [List.nil_append, List.append_nil] at hread

theorem toText_inj {c c' : Color} : c.toText = c'.toText ↔ c = c' := by
  constructor
  · intro h
    have hread := ofText_toText c
    rw [h, ofText_toText c', Except.ok.injEq] at hread
    exact hread.symm
  · rintro rfl
    rfl

/-- The text of a color is read as that color, in letters of either case and between white space.
It stands for all texts that are read as the color: it has capital digits, eight of them if the
color is not opaque, and two of the texts are read alike if and only if it is the same for both. -/
theorem toText_canonical :
    (∀ (c : Color) (front body back : Text), (∀ x ∈ front, isBlank x = true) →
      (∀ x ∈ back, isBlank x = true) → SameLetters body c.toText →
      ofText (front ++ body ++ back) = .ok c) ∧
    ∀ (s : Text) (c : Color), ofText s = .ok c →
      (∃ digits, c.toText = '#' :: digits ∧ digits.length = (if c.alpha = 255 then 6 else 8) ∧
        digits ⊆ text "0123456789ABCDEF") ∧
      ofText c.toText = .ok c ∧
      ∀ (s' : Text) (c' : Color), ofText s' = .ok c' →
        (c'.toText = c.toText ↔ ofText s' = ofText s) := by
  refine ⟨fun c front body back hfront hback hbody =>
    ofText_of_sameLetters hfront hback hbody, ?_⟩
  intro s c hs
  refine ⟨c.toText_shape, ofText_toText c, ?_⟩
  intro s' c' hs'
  rw [hs, hs', Except.ok.injEq, toText_inj]

/-- An opaque color that was written with eight digits is written with six. -/
theorem toText_canonical_sample :
    SameLetters (text "#0aF9c3e5") (toText ⟨0x0A, 0xF9, 0xC3, 0xE5⟩) ∧
    ofText (text "\u2003" ++ text "#0aF9c3e5" ++ text "\t\n") = .ok ⟨0x0A, 0xF9, 0xC3, 0xE5⟩ ∧
    ofText (text "#0af9c3FF") = .ok ⟨0x0A, 0xF9, 0xC3, 0xFF⟩ ∧
    toText ⟨0x0A, 0xF9, 0xC3, 0xFF⟩ = text "#0AF9C3" ∧
    ofText (text "#0AF9C3") = .ok ⟨0x0A, 0xF9, 0xC3, 0xFF⟩ := by
  obtain ⟨hread, hcanonical⟩ := toText_canonical
  have hletters : SameLetters (text "#0aF9c3e5") (toText ⟨0x0A, 0xF9, 0xC3, 0xE5⟩) := by
    decide +kernel
  have hopaque : ofText (text "#0af9c3FF") = .ok ⟨0x0A, 0xF9, 0xC3, 0xFF⟩ := by decide +kernel
  have htext : toText ⟨0x0A, 0xF9, 0xC3, 0xFF⟩ = text "#0AF9C3" := by decide +kernel
  have hfront : ∀ x ∈ text "\u2003", isBlank x = true := List.all_eq_true.mp (by decide)
  have hback : ∀ x ∈ text "\t\n", isBlank x = true := List.all_eq_true.mp (by decide)
  obtain ⟨-, hagain, -⟩ := hcanonical _ _ hopaque
  rw [htext] at hagain
  exact ⟨hletters, hread _ _ _ _ hfront hback hletters, hopaque, htext, hagain⟩

end TokenGraph.Color
