import TokenGraph.Text.Basic

/-!
# The order of bytes

Texts are in the order of their characters, and so are their UTF-8 bytes: where two characters
differ, so do their bytes, at a place where neither of them has ended.
-/

namespace TokenGraph

/-- The UTF-8 bytes of a text. -/
def bytes (s : Text) : List UInt8 := s.flatMap String.utf8EncodeChar

/-- The first list has the lesser byte where the two differ, which they do before either ends. -/
inductive Precedes : List UInt8 → List UInt8 → Prop
  | head {a b : UInt8} {s t : List UInt8} (h : a < b) : Precedes (a :: s) (b :: t)
  | tail {a : UInt8} {s t : List UInt8} (h : Precedes s t) : Precedes (a :: s) (a :: t)

private theorem not_precedes_nil {t : List UInt8} : ¬ Precedes [] t := by
  rintro ⟨⟩

private theorem precedes_ofNat {a b : Nat} {s t : List UInt8} (ha : a < 256) (hb : b < 256) :
    Precedes (.ofNat a :: s) (.ofNat b :: t) ↔ a < b ∨ a = b ∧ Precedes s t := by
  have hlt : UInt8.ofNat a < UInt8.ofNat b ↔ a < b := UInt8.ofNat_lt_iff_lt ha hb
  constructor
  · intro h
    generalize hx : UInt8.ofNat a = x at h
    generalize hy : UInt8.ofNat b = y at h
    cases h with
    | head h => exact .inl (hlt.mp (by rwa [hx, hy]))
    | tail h =>
      have hab := congrArg UInt8.toNat (hx.trans hy.symm)
      rw [UInt8.toNat_ofNat_of_lt' ha, UInt8.toNat_ofNat_of_lt' hb] at hab
      exact .inr ⟨hab, h⟩
  · rintro (h | ⟨rfl, h⟩)
    · exact .head (hlt.mpr h)
    · exact .tail h

theorem Precedes.append_lt {s t : List UInt8} (h : Precedes s t) (v w : List UInt8) :
    s ++ v < t ++ w := by
  induction h with
  | head h => exact List.cons_lt_cons_iff.mpr (.inl h)
  | tail _ ih => exact List.cons_lt_cons_iff.mpr (.inr ⟨rfl, ih⟩)

/-- A number is its digits to the base 64, of which four are enough for every character. -/
private theorem digits {n : Nat} (h : n < 0x110000) :
    n / 64 = 64 * (n / 4096) + n / 64 % 64 ∧ n / 4096 = 64 * (n / 262144) + n / 4096 % 64 ∧
      n / 262144 % 8 = n / 262144 := by
  omega

/-- A first byte tells how many follow it, and more of them for greater characters; the bytes of
characters of one length are their digits to the base 64. -/
theorem precedes_of_lt {c d : Char} (h : c < d) :
    Precedes (String.utf8EncodeChar c) (String.utf8EncodeChar d) := by
  have hlt : c.val.toNat < d.val.toNat := h
  have hbound : d.val.toNat < 0x110000 := by
    rcases d.valid with hvalid | ⟨-, hvalid⟩
    · exact Nat.lt_trans hvalid (by decide)
    · exact hvalid
  have hc := digits (Nat.lt_trans hlt hbound)
  have hd := digits hbound
  simp only [String.utf8EncodeChar]
  -- One case for each pair of lengths; a greater character is never the shorter one.
  repeat' split
  all_goals first
    | omega
    | simp (disch := omega) only [precedes_ofNat, not_precedes_nil]
      omega

theorem bytes_cons (c : Char) (s : Text) : bytes (c :: s) = String.utf8EncodeChar c ++ bytes s :=
  List.flatMap_cons

private theorem bytes_lt_of_lt {v w : Text} (h : v < w) : bytes v < bytes w := by
  induction h with
  | nil =>
    refine List.not_le.mp fun hle => ?_
    rw [bytes_cons] at hle
    exact String.utf8EncodeChar_ne_nil (List.append_eq_nil_iff.mp (List.le_nil.mp hle)).1
  | rel h =>
    rw [bytes_cons, bytes_cons]
    exact (precedes_of_lt h).append_lt _ _
  | cons _ ih =>
    rw [bytes_cons, bytes_cons]
    exact List.append_left_lt ih

theorem bytes_lt_bytes {v w : Text} : bytes v < bytes w ↔ v < w := by
  refine ⟨fun h => List.not_le.mp fun hle => ?_, bytes_lt_of_lt⟩
  rcases List.le_iff_lt_or_eq.mp hle with hlt | rfl
  · exact List.lt_asymm h (bytes_lt_of_lt hlt)
  · exact List.lt_irrefl _ h

end TokenGraph
