import Mathlib.Data.List.Infix
import TokenGraph.Pattern.Parser

/-!
# Readers and the end of their text

The readers of a pattern take a front part of a text and leave the rest. What a reader takes is
settled by what it takes: if the text ended differently behind that part, it would read the same
and leave the other end. This holds where both ends are empty or begin with a closing parenthesis,
which only the end of a group takes, and hold no line feed, so that neither can end a comment.

Recursive readers come as one reader for each number of rounds. Any number of rounds above the
length of the text will do for the other ending, so that the number does not matter either.
-/
namespace TokenGraph

/-- A reader takes a front part of a text and leaves the rest, or refuses the text. -/
abbrev Reader (α : Type) := Text → Option (α × Text)

/-- A text that may stand behind a group: nothing, or a closing parenthesis and the rest of its line. -/
structure Closing (t : Text) : Prop where
  head : ∀ c ∈ t.head?, c = ')'
  line : '\n' ∉ t

theorem Closing.nil : Closing [] := ⟨nofun, nofun⟩

theorem Closing.dropWhile {t : Text} (ht : Closing t) {p : Char → Bool} (hp : p ')' = false) :
    t.dropWhile p = t := by
  cases t with
  | nil => rfl
  | cons c t =>
    obtain rfl := ht.head c rfl
    exact List.dropWhile_cons_of_neg (by simp [hp])

theorem Closing.takeWhile {t : Text} (ht : Closing t) {p : Char → Bool} (hp : p ')' = false) :
    t.takeWhile p = [] := by
  have hsplit := List.takeWhile_append_dropWhile (p := p) (l := t)
  rw [ht.dropWhile hp] at hsplit
  exact List.append_left_eq_self.mp hsplit

/-- Two texts with the same characters up to one of the two ends, or up to their own end. -/
inductive Alike (t t' : Text) : Text → Text → Prop where
  | read : Alike t t' [] []
  | ends : Alike t t' t t'
  | cons (c : Char) {s s' : Text} : Alike t t' s s' → Alike t t' (c :: s) (c :: s')

namespace Alike

variable {t t' s s' : Text}

theorem symm (h : Alike t t' s s') : Alike t' t s' s := by
  induction h with
  | read => exact read
  | ends => exact ends
  | cons c _ ih => exact ih.cons c

theorem append (t t' u : Text) : Alike t t' (u ++ t) (u ++ t') := by
  induction u with
  | nil => exact ends
  | cons c u ih => exact ih.cons c

theorem self (t t' s : Text) : Alike t t' s s := by
  induction s with
  | nil => exact read
  | cons c s ih => exact ih.cons c

theorem eq_of_nil (h : Alike [] [] s s') : s' = s := by
  induction h with
  | read => rfl
  | ends => rfl
  | cons c _ ih => rw [ih]

/-- What stands in front of the end is the same in both texts. -/
theorem drop {pre rest : Text} (h : Alike t t' (pre ++ rest) s') (hrest : t <:+ rest) :
    ∃ rest', s' = pre ++ rest' ∧ Alike t t' rest rest' := by
  induction pre generalizing s' with
  | nil => exact ⟨s', rfl, h⟩
  | cons c pre ih =>
    rw [List.cons_append] at h
    generalize hs : c :: (pre ++ rest) = s at h
    cases h with
    | read => cases hs
    | ends =>
      -- something stands in front of the rest, so that the end cannot be all of it
      have hlength := hrest.length_le
      rw [← hs, List.length_cons, List.length_append] at hlength
      omega
    | cons d h =>
      obtain ⟨rfl, rfl⟩ := List.cons.inj hs
      obtain ⟨rest', rfl, hrest'⟩ := ih h
      exact ⟨rest', rfl, hrest'⟩

end Alike

/-- A character that no end begins with comes first in both texts or in neither. -/
theorem Alike.uncons {t t' s s' : Text} (ht : Closing t) (ht' : Closing t') (h : Alike t t' s s')
    {c : Char} (hc : c ≠ ')') :
    (∃ rest rest', s = c :: rest ∧ s' = c :: rest' ∧ Alike t t' rest rest') ∨
      (c ∉ s.head? ∧ c ∉ s'.head?) := by
  cases h with
  | read => exact .inr ⟨nofun, nofun⟩
  | ends => exact .inr ⟨fun h => hc (ht.head c h), fun h => hc (ht'.head c h)⟩
  | @cons d s s' h =>
    by_cases hd : d = c
    · subst hd
      exact .inl ⟨s, s', rfl, rfl, h⟩
    · exact .inr ⟨by simpa using hd, by simpa using hd⟩

theorem Alike.head {t t' s s' : Text} (ht : Closing t) (h : Alike t t' s s') {c : Char}
    (hc : c ≠ ')') (hs : c ∈ s.head?) : c ∈ s'.head? := by
  cases h with
  | read => exact hs
  | ends => exact absurd (ht.head c hs) hc
  | cons d h => exact hs

theorem Alike.take {t t' pre rest s' : Text} (ht : Closing t) (hpre : ')' ∉ pre)
    (h : Alike t t' (pre ++ rest) s') : ∃ rest', s' = pre ++ rest' := by
  induction pre generalizing s' with
  | nil => exact ⟨s', rfl⟩
  | cons c pre ih =>
    rw [List.mem_cons, not_or] at hpre
    rw [List.cons_append] at h
    generalize hs : c :: (pre ++ rest) = s at h
    cases h with
    | read => cases hs
    | ends => exact absurd (ht.head c (by rw [← hs]; rfl)).symm hpre.1
    | cons d h =>
      obtain ⟨rfl, rfl⟩ := List.cons.inj hs
      obtain ⟨rest', rfl⟩ := ih hpre.2 h
      exact ⟨rest', rfl⟩

/-- A property of texts that does not depend on how they end. -/
def Steady (P : Text → Prop) : Prop :=
  ∀ ⦃t t' s s' : Text⦄, Closing t → Closing t' → Alike t t' s s' → P s → P s'

/-- Dropping what a text begins with, as far as that can be told without its end. -/
structure Trims (d : Text → Text) : Prop where
  suffix : ∀ s, d s <:+ s
  alike : ∀ {t t' s s' : Text}, Closing t → Closing t' → Alike t t' s s' → Alike t t' (d s) (d s')

namespace Trims

variable {d : Text → Text}

theorem id : Trims id := ⟨List.suffix_refl, fun _ _ h => h⟩

theorem comp {e : Text → Text} (hd : Trims d) (he : Trims e) : Trims fun s => d (e s) where
  suffix s := (hd.suffix (e s)).trans (he.suffix s)
  alike ht ht' h := hd.alike ht ht' (he.alike ht ht' h)

theorem dropWhile (p : Char → Bool) (hp : p ')' = false) : Trims (List.dropWhile p) where
  suffix _ := List.dropWhile_suffix p
  alike {t t' s s'} ht ht' h := by
    induction h with
    | read => exact .read
    | ends =>
      rw [ht.dropWhile hp, ht'.dropWhile hp]
      exact .ends
    | cons c h ih =>
      rw [List.dropWhile_cons, List.dropWhile_cons]
      split
      · exact ih
      · exact h.cons c

end Trims

namespace Steady

variable {P Q : Text → Prop}

theorem not (hP : Steady P) : Steady fun s => ¬ P s :=
  fun _ _ _ _ ht ht' h hs hs' => hs (hP ht' ht h.symm hs')

theorem and (hP : Steady P) (hQ : Steady Q) : Steady fun s => P s ∧ Q s :=
  fun _ _ _ _ ht ht' h hs => ⟨hP ht ht' h hs.1, hQ ht ht' h hs.2⟩

theorem head {c : Char} (hc : c ≠ ')') : Steady fun s => c ∈ s.head? :=
  fun _ _ _ _ ht _ h hs => h.head ht hc hs

theorem headTest {p : Char → Bool} (hp : p ')' = false) :
    Steady fun s => ∃ c ∈ s.head?, p c = true := by
  intro t t' s s' ht _ h hs
  obtain ⟨c, hc, htest⟩ := hs
  have hne : c ≠ ')' := by
    rintro rfl
    exact Bool.false_ne_true (hp.symm.trans htest)
  exact ⟨c, h.head ht hne hc, htest⟩

theorem behind (hP : Steady P) {c : Char} (hc : c ≠ ')') :
    Steady fun s => ∃ rest, s = c :: rest ∧ P rest := by
  intro t t' s s' ht ht' h hs
  obtain ⟨rest, rfl, hrest⟩ := hs
  cases h with
  | ends => exact absurd (ht.head c rfl) hc
  | cons c h => exact ⟨_, rfl, hP ht ht' h hrest⟩

theorem comp (hP : Steady P) {d : Text → Text} (hd : Trims d) : Steady fun s => P (d s) :=
  fun _ _ _ _ ht ht' h hs => hP ht ht' (hd.alike ht ht' h) hs

end Steady

/-- A reader that looks at nothing but what it takes. -/
def Cuts {α : Type} (f : Reader α) : Prop :=
  ∀ ⦃s rest : Text⦄ ⦃x : α⦄, f s = some (x, rest) →
    ∃ pre, s = pre ++ rest ∧ ∀ rest', f (pre ++ rest') = some (x, rest')

/-- What the reader of `n` rounds takes is settled by what it takes: it ends with the text (`suffix`),
and where it leaves an end of the text, every sufficient number of rounds leaves the other end of the
other text (`swap`). There may be `spare` rounds to those that the length of the text asks for. -/
structure Local {α : Type} (spare n : Nat) (F : Nat → Reader α) : Prop where
  suffix : ∀ {s rest : Text} {x : α}, F n s = some (x, rest) → rest <:+ s
  swap : ∀ {t t' s s' rest : Text} {x : α} {m : Nat}, Closing t → Closing t' → Alike t t' s s' →
    F n s = some (x, rest) → t <:+ rest → s'.length < m + spare →
    ∃ rest', F m s' = some (x, rest') ∧ Alike t t' rest rest' ∧ rest' <:+ s'

namespace Local

variable {α β : Type} {spare n : Nat} {F H : Nat → Reader α}

theorem weaken (h : Local (spare + 1) n F) : Local spare n F where
  suffix := h.suffix
  swap ht ht' halike hread hrest hm := h.swap ht ht' halike hread hrest (by omega)

theorem pure (o : Option α) : Local spare n fun _ s => o.map (·, s) where
  suffix {s rest x} h := by
    obtain ⟨y, -, hpair⟩ := Option.map_eq_some_iff.mp h
    cases hpair
    exact List.suffix_refl s
  swap {t t' s s' rest x m} _ _ halike h _ _ := by
    obtain ⟨y, rfl, hpair⟩ := Option.map_eq_some_iff.mp h
    cases hpair
    exact ⟨s', rfl, halike, List.suffix_refl s'⟩

theorem fail : Local (α := α) spare n fun _ _ => none := pure none

theorem bind {K : Nat → α × Text → Option (β × Text)} (hF : Local spare n F)
    (hK : ∀ x, Local spare n fun m s => K m (x, s)) : Local spare n fun m s => F m s >>= K m where
  suffix {s rest y} h := by
    obtain ⟨⟨x, mid⟩, hfirst, hnext⟩ := Option.bind_eq_some_iff.mp h
    exact ((hK x).suffix hnext).trans (hF.suffix hfirst)
  swap {t t' s s' rest y m} ht ht' halike h hrest hm := by
    obtain ⟨⟨x, mid⟩, hfirst, hnext⟩ := Option.bind_eq_some_iff.mp h
    have hmid : t <:+ mid := hrest.trans ((hK x).suffix hnext)
    obtain ⟨mid', hfirst', hmidAlike, hsuffix⟩ := hF.swap ht ht' halike hfirst hmid hm
    have hrounds : mid'.length < m + spare := Nat.lt_of_le_of_lt hsuffix.length_le hm
    obtain ⟨rest', hnext', hrestAlike, hsuffix'⟩ :=
      (hK x).swap ht ht' hmidAlike hnext hrest hrounds
    exact ⟨rest', Option.bind_eq_some_iff.mpr ⟨(x, mid'), hfirst', hnext'⟩, hrestAlike,
      hsuffix'.trans hsuffix⟩

theorem map (hF : Local spare n F) (g : α → β) :
    Local spare n fun m s => (F m s).map fun p => (g p.1, p.2) := by
  have hmap : (fun m s => (F m s).map fun p => (g p.1, p.2)) =
      fun m s => F m s >>= fun p => (some (g p.1)).map (·, p.2) := by
    funext m s
    exact Option.map_eq_bind
  rw [hmap]
  exact hF.bind fun x => pure (some (g x))

theorem cut {f : Reader α} (hf : Cuts f) : Local spare n fun _ => f where
  suffix h := by
    obtain ⟨pre, rfl, -⟩ := hf h
    exact List.suffix_append pre _
  swap _ _ halike h hrest _ := by
    obtain ⟨pre, rfl, hpre⟩ := hf h
    obtain ⟨rest', rfl, hrestAlike⟩ := halike.drop hrest
    exact ⟨rest', hpre rest', hrestAlike, List.suffix_append pre rest'⟩

/-- A decision that does not look at the text. -/
theorem option {γ : Type} (o : Option γ) {K : γ → Nat → Reader α}
    (h : ∀ a, Local spare n (K a)) : Local spare n fun m s => o >>= fun a => K a m s := by
  cases o with
  | none => exact fail
  | some a => exact h a

theorem ite {p : Prop} [Decidable p] {A B : Nat → Reader α} (hA : Local spare n A)
    (hB : Local spare n B) : Local spare n fun m s => if p then A m s else B m s := by
  by_cases hp : p
  · simpa only [if_pos hp] using hA
  · simpa only [if_neg hp] using hB

theorem comp {d : Text → Text} (hd : Trims d) (hF : Local spare n F) :
    Local spare n fun m s => F m (d s) where
  suffix {s rest x} h := (hF.suffix h).trans (hd.suffix s)
  swap {t t' s s' rest x m} ht ht' halike h hrest hm := by
    have hrounds := Nat.lt_of_le_of_lt (hd.suffix s').length_le hm
    obtain ⟨rest', hread', hrestAlike, hsuffix⟩ :=
      hF.swap ht ht' (hd.alike ht ht' halike) h hrest hrounds
    exact ⟨rest', hread', hrestAlike, hsuffix.trans (hd.suffix s')⟩

/-- One of two readers, chosen by a property that does not depend on how the text ends. -/
theorem branch {A B : Nat → Reader α} {P : Text → Prop} (hP : Steady P)
    (hA : Local spare n A) (hB : Local spare n B) (hin : ∀ m s, P s → H m s = A m s)
    (hout : ∀ m s, ¬ P s → H m s = B m s) : Local spare n H where
  suffix {s rest x} h := by
    by_cases hs : P s
    · rw [hin n s hs] at h
      exact hA.suffix h
    · rw [hout n s hs] at h
      exact hB.suffix h
  swap {t t' s s' rest x m} ht ht' halike h hrest hm := by
    by_cases hs : P s
    · rw [hin n s hs] at h
      rw [hin m s' (hP ht ht' halike hs)]
      exact hA.swap ht ht' halike h hrest hm
    · have hs' : ¬ P s' := fun hs' => hs (hP ht' ht halike.symm hs')
      rw [hout n s hs] at h
      rw [hout m s' hs']
      exact hB.swap ht ht' halike h hrest hm

/-- A reader that takes at least one character needs one round less for what follows. -/
theorem cons (hnil : ∀ m, F m [] = none) (hcons : ∀ c, Local spare n fun m s => F m (c :: s)) :
    Local (spare + 1) n F where
  suffix {s rest x} h := by
    cases s with
    | nil => cases (hnil n).symm.trans h
    | cons c s => exact ((hcons c).suffix h).trans (List.suffix_cons c s)
  swap {t t' s s' rest x m} ht ht' halike h hrest hm := by
    cases halike with
    | read => cases (hnil n).symm.trans h
    | ends =>
      cases t with
      | nil => cases (hnil n).symm.trans h
      | cons c s =>
        -- a character of the end has been taken, which is left whole
        have hlength := (hrest.trans ((hcons c).suffix h)).length_le
        rw [List.length_cons] at hlength
        omega
    | cons c halike =>
      have hrounds := Nat.lt_of_succ_lt_succ hm
      obtain ⟨rest', hread', hrestAlike, hsuffix⟩ :=
        (hcons c).swap ht ht' halike h hrest hrounds
      exact ⟨rest', hread', hrestAlike, hsuffix.trans (List.suffix_cons c _)⟩

theorem behind {A : Nat → Reader α} (hA : Local spare n A) : Local spare n fun m s =>
    match s with
    | [] => none
    | _ :: rest => A m rest :=
  (cons (fun _ => rfl) fun _ => hA).weaken

/-- A reader that looks whether a certain character comes first, other than a closing parenthesis. -/
theorem opt {A B : Nat → Reader α} {d : Text → Text} (hd : Trims d) {c : Char} (hc : c ≠ ')')
    (hA : Local spare n A) (hB : Local spare n B)
    (hin : ∀ m s rest, d s = c :: rest → H m s = A m rest)
    (hout : ∀ m s, c ∉ (d s).head? → H m s = B m (d s)) : Local spare n H := by
  apply branch ((Steady.head hc).comp hd) (hA.behind.comp hd) (hB.comp hd)
  · intro m s hs
    cases hds : d s with
    | nil => simp [hds] at hs
    | cons a rest =>
      obtain rfl : c = a := by simpa [hds, eq_comm] using hs
      exact hin m s rest hds
  · exact hout

/-- A reader that stops in front of a closing parenthesis and at the end of the text. -/
theorem stop (x : α) (hstop : ∀ m s, (∀ c ∈ s.head?, c = ')') → F m s = some (x, s))
    (hcons : ∀ c, c ≠ ')' → Local spare n fun m s => F m (c :: s)) : Local (spare + 1) n F := by
  have hhead {c : Char} {s : Text} (hc : c = ')') : ∀ d ∈ (c :: s).head?, d = ')' := by
    intro d hd
    rw [List.head?_cons, Option.mem_some_iff] at hd
    exact hd ▸ hc
  constructor
  case suffix =>
    intro s rest y h
    cases s with
    | nil =>
      cases (hstop n [] nofun).symm.trans h
      exact List.suffix_refl []
    | cons c s =>
      by_cases hc : c = ')'
      · cases (hstop n (c :: s) (hhead hc)).symm.trans h
        exact List.suffix_refl (c :: s)
      · exact ((hcons c hc).suffix h).trans (List.suffix_cons c s)
  case swap =>
    intro t t' s s' rest y m ht ht' halike h hrest hm
    cases halike with
    | read =>
      cases (hstop n [] nofun).symm.trans h
      exact ⟨[], hstop m [] nofun, .read, List.suffix_refl []⟩
    | ends =>
      cases (hstop n t ht.head).symm.trans h
      exact ⟨t', hstop m t' ht'.head, .ends, List.suffix_refl t'⟩
    | @cons c s s' halike =>
      by_cases hc : c = ')'
      · cases (hstop n (c :: s) (hhead hc)).symm.trans h
        exact ⟨c :: s', hstop m (c :: s') (hhead hc), halike.cons c, List.suffix_refl _⟩
      · have hrounds := Nat.lt_of_succ_lt_succ hm
        obtain ⟨rest', hread', hrestAlike, hsuffix⟩ :=
          (hcons c hc).swap ht ht' halike h hrest hrounds
        exact ⟨rest', hread', hrestAlike, hsuffix.trans (List.suffix_cons c s')⟩

theorem refuse (h : ∀ s, F n s = none) : Local spare n F where
  suffix hread := by cases (h _).symm.trans hread
  swap _ _ _ hread _ _ := by cases (h _).symm.trans hread

/-- The reader of one more round, which may use the one of `n` rounds behind a first character. -/
theorem succ (hF : ∀ m s, F (m + 1) s = H m s) (hH : Local 1 n H) : Local 0 (n + 1) F where
  suffix hread := hH.suffix ((hF _ _).symm.trans hread)
  swap {t t' s s' rest x m} ht ht' halike h hrest hm := by
    cases m with
    | zero => exact absurd hm (Nat.not_lt_zero s'.length)
    | succ m =>
      rw [hF] at h
      rw [hF]
      exact hH.swap ht ht' halike h hrest hm

/-- A reader that gives itself as many rounds as its text has characters, and one. -/
theorem bounded {F : Nat → Reader α} (hF : ∀ n, Local 0 n F) :
    Local spare n fun _ s => F (s.length + 1) s where
  suffix {s _ _} h := (hF (s.length + 1)).suffix h
  swap {_ _ s s' _ _ _} ht ht' halike h hrest _ :=
    (hF (s.length + 1)).swap ht ht' halike h hrest (Nat.lt_succ_self s'.length)

end Local

end TokenGraph
