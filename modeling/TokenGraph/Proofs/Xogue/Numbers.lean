import TokenGraph.Proofs.Xogue.Contests

/-!
# Numbers

Which texts begin with an integer or a floating number, and what their automata read of all others.
Numbers end in front of a boundary, but for those that their mark ends. Every beginning of a number
is read, so a text that goes on differently is read as far as a number could.
-/

namespace TokenGraph.Xogue

open Scanner

variable {boundary : Char → Bool} {c : Char} {s v w : Text}

/-- A boundary of Xogue, and what follows it. -/
def AtBoundary (rest : Text) : Prop :=
  ∃ c v, rest = c :: v ∧ (isBlank c = true ∨ [c] ∈ operators)

/-- The text begins with an integer, in front of a boundary. -/
def HeadInteger (s w : Text) : Prop := ∃ rest, s = w ++ rest ∧ IntegerText w ∧ AtBoundary rest

/-- Digits or a number, with the mark that ends it. -/
def Marked (w : Text) : Prop :=
  ∃ v f, w = v ++ [f] ∧ (f = 'F' ∨ f = 'f') ∧ (Digits v ∨ Numeral v)

/-- The text begins with a floating number, in front of a boundary or marked. -/
def HeadFloat (s w : Text) : Prop :=
  ∃ rest, s = w ++ rest ∧ (Numeral w ∧ AtBoundary rest ∨ Marked w)

theorem atBoundary_iff {rest : Text} :
    AtBoundary rest ↔ ∃ c v, rest = c :: v ∧ isBoundary operators c = true := by
  simp [AtBoundary, isBoundary]

private theorem isWordPart_of_isBoundary (c : Char) (h : isBoundary operators c = true) :
    isWordPart c = false :=
  isWordPart_of_boundary h

/-! ### Integers -/

namespace DigitRun

variable {digit : Char → Bool}

theorem underscored (hv : DigitRun digit v) (hw : DigitRun digit w) :
    DigitRun digit (v ++ '_' :: w) := by
  induction hv with
  | last hd => exact .underline hd hw
  | next hd _ ih => exact .next hd ih
  | underline hd _ ih => exact .underline hd ih

theorem concat (h : DigitRun digit w) (hc : digit c = true) : DigitRun digit (w ++ [c]) := by
  induction h with
  | last hd => exact .next hd (.last hc)
  | next hd _ ih => exact .next hd ih
  | underline hd _ ih => exact .underline hd ih

end DigitRun

theorem Radix.integerText {letter : Char} {digit : Char → Bool} {mode : Nat}
    (h : Radix letter digit mode) (hw : DigitRun digit w) : IntegerText ('0' :: letter :: w) :=
  integerText_iff.mpr (.inr ⟨letter, digit, mode, w, h, hw, rfl⟩)

theorem Radix.digit_zero {letter : Char} {digit : Char → Bool} {mode : Nat}
    (h : Radix letter digit mode) : digit '0' = true := by
  cases h <;> decide

/-- What leads to the states of the automaton of the integers. -/
inductive IntegerPart : Nat → Text → Prop
  | start : IntegerPart 0 []
  | zero : IntegerPart 1 ['0']
  | run {w : Text} (hw : DigitRun isDigit w) : IntegerPart 2 w
  | underscore {w : Text} (hw : DigitRun isDigit w) : IntegerPart 3 (w ++ ['_'])
  | radix {letter : Char} {digit : Char → Bool} {mode : Nat} (h : Radix letter digit mode) :
      IntegerPart mode ['0', letter]
  | radixRun {letter : Char} {digit : Char → Bool} {mode : Nat} {w : Text}
      (h : Radix letter digit mode) (hw : DigitRun digit w) :
      IntegerPart (mode + 1) ('0' :: letter :: w)
  | radixUnderscore {letter : Char} {digit : Char → Bool} {mode : Nat} {w : Text}
      (h : Radix letter digit mode) (hw : DigitRun digit w) :
      IntegerPart (mode + 2) ('0' :: letter :: w ++ ['_'])

private theorem digitMove_eq_advance {digit : Char → Bool} {run u : Nat}
    (h : digitMove digit run c = .advance u) : digit c = true ∧ u = run := by
  rw [digitMove] at h
  split at h
  · next hc =>
    cases h
    exact ⟨hc, rfl⟩
  · cases h

private theorem runMove_eq_advance {digit : Char → Bool} {run u : Nat}
    (h : runMove boundary digit run c = .advance u) :
    digit c = true ∧ u = run ∨ c = '_' ∧ u = run + 1 := by
  rw [runMove] at h
  split at h
  · next hc =>
    cases h
    exact .inl ⟨hc, rfl⟩
  · split at h
    · next hc =>
      cases h
      exact .inr ⟨hc, rfl⟩
    · cases h

private theorem zeroMove_eq_advance {u : Nat} (h : integerMove boundary c 1 = .advance u) :
    c = '_' ∧ u = 3 ∨ isDigit c = true ∧ u = 2 ∨ ∃ digit, Radix c digit u := by
  rw [integerMove] at h
  split at h
  · next hc =>
    cases h
    exact .inl ⟨hc, rfl⟩
  split at h
  · next hc =>
    cases h
    exact .inr (.inl ⟨hc, rfl⟩)
  split at h
  · cases h
  -- What is left are the letters of the radixes.
  refine .inr (.inr ?_)
  split at h
  · next hc =>
    subst hc
    cases h
    exact ⟨_, .binary⟩
  split at h
  · next hc =>
    subst hc
    cases h
    exact ⟨_, .octal⟩
  split at h
  · next hc =>
    subst hc
    cases h
    exact ⟨_, .hex⟩
  · cases h

private theorem integerPart_step {t u : Nat} (hw : IntegerPart t w)
    (h : integerMove boundary c t = .advance u) : IntegerPart u (w ++ [c]) := by
  cases hw with
  | start =>
    rw [integerMove] at h
    split at h
    · next hc =>
      subst hc
      cases h
      exact .zero
    · split at h
      · next hc =>
        cases h
        exact .run (.last hc)
      · cases h
  | zero =>
    have hzero : isDigit '0' = true := by decide
    rcases zeroMove_eq_advance h with ⟨rfl, rfl⟩ | ⟨hc, rfl⟩ | ⟨digit, hradix⟩
    · exact .underscore (.last hzero)
    · exact .run (.next hzero (.last hc))
    · exact .radix hradix
  | run hw =>
    rcases runMove_eq_advance h with ⟨hc, rfl⟩ | ⟨rfl, rfl⟩
    · exact .run (hw.concat hc)
    · exact .underscore hw
  | @underscore w hw =>
    obtain ⟨hc, rfl⟩ := digitMove_eq_advance h
    rw [List.append_assoc]
    exact .run (hw.underscored (.last hc))
  | radix hradix =>
    rw [(hradix.moves boundary c).1] at h
    obtain ⟨hc, rfl⟩ := digitMove_eq_advance h
    exact .radixRun hradix (.last hc)
  | radixRun hradix hw =>
    rw [(hradix.moves boundary c).2.1] at h
    rcases runMove_eq_advance h with ⟨hc, rfl⟩ | ⟨rfl, rfl⟩
    · exact .radixRun hradix (hw.concat hc)
    · exact .radixUnderscore hradix hw
  | @radixUnderscore letter digit mode w hradix hw =>
    rw [(hradix.moves boundary c).2.2] at h
    obtain ⟨hc, rfl⟩ := digitMove_eq_advance h
    have hrun : DigitRun digit (w ++ ['_', c]) := hw.underscored (.last hc)
    simpa using IntegerPart.radixRun hradix hrun

private theorem integerPart_viable {t : Nat} (hw : IntegerPart t w) : Viable IntegerText w := by
  have hzero : isDigit '0' = true := by decide
  cases hw with
  | start => exact ⟨_, .decimal (.last hzero), List.nil_prefix⟩
  | zero => exact ⟨_, .decimal (.last hzero), List.prefix_rfl⟩
  | run hw => exact ⟨w, .decimal hw, List.prefix_rfl⟩
  | underscore hw => exact ⟨_, .decimal (hw.underscored (.last hzero)), ['0'], by simp⟩
  | radix hradix =>
    exact ⟨_, hradix.integerText (.last hradix.digit_zero), List.prefix_append ['0', _] ['0']⟩
  | radixRun hradix hw => exact ⟨_, hradix.integerText hw, List.prefix_rfl⟩
  | radixUnderscore hradix hw =>
    exact ⟨_, hradix.integerText (hw.underscored (.last hradix.digit_zero)), ['0'], by simp⟩

theorem integer_covers (hwords : ∀ d, boundary d = true → isWordPart d = false) :
    (scanner integerSteps boundary).Covers IntegerText IntegerPart where
  eager := eager_of_table integer_table boundary
  start := .start
  step hw h := integerPart_step hw (by rwa [integer_move] at h)
  viable := integerPart_viable
  reads hw := by
    obtain ⟨t, hreads, -⟩ := reads_integer hwords hw
    exact ⟨t, hreads⟩

private theorem integerPart_isAccepting {t : Nat} (hw : IntegerPart t w) :
    (graph integerSteps).isAccepting t = false := by
  rw [isAccepting_of_table integer_table]
  cases hw with
  | start | zero | run | underscore => rfl
  | radix h | radixRun h | radixUnderscore h => cases h <;> rfl

/-- In front of a boundary the automaton accepts where a word is complete, and nowhere else. -/
private theorem integerPart_stop {t : Nat} (hw : IntegerPart t w)
    (h : integerMove boundary c t = .stop true) : IntegerText w ∧ boundary c = true := by
  have hdigit : ∀ {digit : Char → Bool} {run : Nat}, digitMove digit run c ≠ .stop true := by
    intro digit run
    rw [digitMove]
    split <;> simp
  have hrun : ∀ {digit : Char → Bool} {run : Nat}, runMove boundary digit run c = .stop true →
      boundary c = true := by
    intro digit run hstop
    rw [runMove] at hstop
    split at hstop
    · cases hstop
    split at hstop
    · cases hstop
    · exact Move.stop.inj hstop
  cases hw with
  | start =>
    rw [integerMove] at h
    repeat' split at h
    all_goals cases h
  | zero =>
    refine ⟨.decimal (.last (by decide)), ?_⟩
    rw [integerMove] at h
    repeat' split at h
    all_goals first | assumption | cases h
  | run hw => exact ⟨.decimal hw, hrun h⟩
  | underscore => exact absurd h hdigit
  | radix hradix =>
    rw [(hradix.moves boundary c).1] at h
    exact absurd h hdigit
  | radixRun hradix hw =>
    rw [(hradix.moves boundary c).2.1] at h
    exact ⟨hradix.integerText hw, hrun h⟩
  | radixUnderscore hradix =>
    rw [(hradix.moves boundary c).2.2] at h
    exact absurd h hdigit

theorem integer_accepts_iff :
    (scanner integerSteps (isBoundary operators)).run s = ⟨true, w⟩ ↔ HeadInteger s w := by
  rw [HeadInteger]
  apply (integer_covers isWordPart_of_isBoundary).accepts_iff
  · intro t w rest hw hfinishes
    cases hfinishes with
    | atEnd hend =>
      rw [scanner, integerPart_isAccepting hw] at hend
      cases hend
    | atCharacter hstop =>
      rw [integer_move] at hstop
      obtain ⟨hword, hc⟩ := integerPart_stop hw hstop
      exact ⟨hword, atBoundary_iff.mpr ⟨_, _, rfl, hc⟩⟩
  · rintro w rest ⟨hw, hboundary⟩
    obtain ⟨c, v, rfl, hc⟩ := atBoundary_iff.mp hboundary
    obtain ⟨t, hreads, hstop⟩ := reads_integer isWordPart_of_isBoundary hw
    exact ⟨t, hreads, .atCharacter (hstop c hc)⟩

/-- The automaton of the integers accepts a text that begins with an integer in front of a boundary,
and reads that integer, of which there is but one. Of any other text it reads what an integer may
begin with. -/
theorem integer_scan : ∃ l p, language = .ok l ∧ l.operators = operators ∧
    l.prototype? .integer = some p ∧ ∀ s,
      (∀ w, p.scan l.operators s = ⟨true, w⟩ ↔ HeadInteger s w) ∧
      (∀ v w, HeadInteger s v → HeadInteger s w → v = w) ∧
      ∀ w, p.scan l.operators s = ⟨false, w⟩ ↔
        (¬ ∃ v, HeadInteger s v) ∧ LongestViable IntegerText s w := by
  refine ⟨xogue, integerTrial, language_eq, rfl, rfl, fun s =>
    ⟨fun w => integer_accepts_iff, ?_, ?_⟩⟩
  · intro v w hv hw
    rw [← integer_accepts_iff] at hv hw
    rw [hv] at hw
    exact congrArg Outcome.consumed hw
  · intro w
    exact rejects_iff (fun _ => integer_accepts_iff)
      (fun _ => (integer_covers isWordPart_of_isBoundary).longestViable)
      fun _ _ => LongestViable.unique

/-- Underscores stand alone, between digits; what spoils them is where the integer stops. -/
example : integerTrial.scan operators (text "0x_1 ") = ⟨false, text "0x"⟩ ∧
    integerTrial.scan operators (text "1__0 ") = ⟨false, text "1_"⟩ ∧
    integerTrial.scan operators (text "0b1_0+1") = ⟨true, text "0b1_0"⟩ ∧
    integerTrial.scan operators (text "0b102") = ⟨false, text "0b10"⟩ := by
  decide +kernel

/-! ### Floating numbers -/

theorem Digits.concat (h : Digits w) (hc : isDigit c = true) : Digits (w ++ [c]) := by
  refine ⟨by simp, fun d hd => ?_⟩
  rcases List.mem_append.mp hd with hd | hd
  · exact h.2 d hd
  · rw [List.mem_singleton.mp hd, hc]

theorem digits_single (hc : isDigit c = true) : Digits [c] := by
  refine ⟨by simp, fun d hd => ?_⟩
  rw [List.mem_singleton.mp hd, hc]

theorem Mantissa.concat (h : Mantissa w) (hc : isDigit c = true) : Mantissa (w ++ [c]) := by
  cases h with
  | @closed w v hw hv =>
    have hdigits : ∀ d ∈ v ++ [c], isDigit d = true := by
      intro d hd
      rcases List.mem_append.mp hd with hd | hd
      · exact hv d hd
      · rw [List.mem_singleton.mp hd, hc]
    simpa using Mantissa.closed hw hdigits
  | bare hv => exact .bare (hv.concat hc)

theorem Exponent.concat (h : Exponent w) (hc : isDigit c = true) : Exponent (w ++ [c]) := by
  cases h with
  | unsigned he hw => exact .unsigned he (hw.concat hc)
  | signed he hs hw => exact .signed he hs (hw.concat hc)

/-- What leads to the states of the automaton of the floating numbers. -/
inductive FloatPart : Nat → Text → Prop
  | start : FloatPart 0 []
  | digits {w : Text} (hw : Digits w) : FloatPart 1 w
  | point : FloatPart 2 ['.']
  | mantissa {w : Text} (hw : Mantissa w) : FloatPart 3 w
  | scale {w : Text} {e : Char} (hw : Digits w ∨ Mantissa w) (he : e = 'E' ∨ e = 'e') :
      FloatPart 4 (w ++ [e])
  | sign {w : Text} {e d : Char} (hw : Digits w ∨ Mantissa w) (he : e = 'E' ∨ e = 'e')
      (hd : d = '+' ∨ d = '-') : FloatPart 5 (w ++ [e, d])
  | exponent {w x : Text} (hw : Digits w ∨ Mantissa w) (hx : Exponent x) : FloatPart 6 (w ++ x)
  | marked {w : Text} {f : Char} (hw : Digits w ∨ Numeral w) (hf : f = 'F' ∨ f = 'f') :
      FloatPart 8 (w ++ [f])

private theorem floatPart_step {t u : Nat} (hw : FloatPart t w)
    (h : floatingMove boundary c t = .advance u) : FloatPart u (w ++ [c]) := by
  cases hw with
  | start =>
    rw [floatingMove] at h
    split at h
    · next hc =>
      cases h
      exact .digits (digits_single hc)
    split at h
    · next hc =>
      subst hc
      cases h
      exact .point
    · cases h
  | digits hw =>
    rw [floatingMove] at h
    split at h
    · next hc =>
      subst hc
      cases h
      exact .mantissa (.closed hw (by simp))
    split at h
    · next hc =>
      cases h
      exact .digits (hw.concat hc)
    split at h
    · next hc =>
      cases h
      exact .scale (.inl hw) hc
    split at h
    · next hc =>
      cases h
      exact .marked (.inl hw) hc
    · cases h
  | point =>
    rw [floatingMove] at h
    split at h
    · next hc =>
      cases h
      exact .mantissa (.bare (digits_single hc))
    · cases h
  | mantissa hw =>
    rw [floatingMove] at h
    split at h
    · next hc =>
      cases h
      exact .mantissa (hw.concat hc)
    split at h
    · next hc =>
      cases h
      exact .scale (.inr hw) hc
    split at h
    · next hc =>
      cases h
      exact .marked (.inr (.pointed hw)) hc
    · cases h
  | @scale w e hw he =>
    rw [floatingMove] at h
    split at h
    · next hc =>
      cases h
      have hpart := FloatPart.exponent hw (.unsigned he (digits_single hc))
      simpa using hpart
    split at h
    · next hc =>
      cases h
      have hpart := FloatPart.sign hw he hc
      simpa using hpart
    · cases h
  | @sign w e d hw he hd =>
    rw [floatingMove] at h
    split at h
    · next hc =>
      cases h
      have hpart := FloatPart.exponent hw (.signed he hd (digits_single hc))
      simpa using hpart
    · cases h
  | exponent hw hx =>
    rw [floatingMove] at h
    split at h
    · next hc =>
      cases h
      exact .marked (.inr (.scaled hw hx)) hc
    split at h
    · next hc =>
      cases h
      rw [List.append_assoc]
      exact .exponent hw (hx.concat hc)
    · cases h
  | marked => cases h

private theorem floatPart_viable {t : Nat} (hw : FloatPart t w) : Viable FloatText w := by
  have hzero : Digits ['0'] := digits_single (by decide)
  cases hw with
  | start => exact ⟨_, .float (.inl hzero) (.inl rfl), List.nil_prefix⟩
  | digits hw => exact ⟨_, .float (.inl hw) (.inl rfl), List.prefix_append _ _⟩
  | point => exact ⟨_, .double (.pointed (.bare hzero)), List.prefix_append ['.'] ['0']⟩
  | mantissa hw => exact ⟨w, .double (.pointed hw), List.prefix_rfl⟩
  | scale hw he => exact ⟨_, .double (.scaled hw (.unsigned he hzero)), ['0'], by simp⟩
  | sign hw he hd => exact ⟨_, .double (.scaled hw (.signed he hd hzero)), ['0'], by simp⟩
  | exponent hw hx => exact ⟨_, .double (.scaled hw hx), List.prefix_rfl⟩
  | marked hw hf => exact ⟨_, .float hw hf, List.prefix_rfl⟩

theorem floating_covers (hwords : ∀ d, boundary d = true → isWordPart d = false) :
    (scanner floatingSteps boundary).Covers FloatText FloatPart where
  eager := eager_of_table floating_table boundary
  start := .start
  step hw h := floatPart_step hw (by rwa [floating_move] at h)
  viable := floatPart_viable
  reads hw := by
    cases hw with
    | double hw =>
      obtain ⟨t, hreads, -⟩ := reads_double hwords hw
      exact ⟨t, hreads⟩
    | float hw hf => exact ⟨8, reads_float hw hf⟩

/-- Behind a complete number without its mark only a boundary accepts. -/
private theorem boundary_of_finishes {t : Nat} {rest : Text} (ht : t = 3 ∨ t = 6)
    (h : (scanner floatingSteps boundary).Finishes t rest true) :
    ∃ c v, rest = c :: v ∧ boundary c = true := by
  cases h with
  | atEnd hend =>
    rw [scanner, isAccepting_of_table floating_table] at hend
    rcases ht with rfl | rfl <;> cases hend
  | @atCharacter c v _ hstop =>
    refine ⟨c, v, rfl, ?_⟩
    rw [floating_move] at hstop
    rcases ht with rfl | rfl <;> rw [floatingMove] at hstop <;> repeat' split at hstop
    all_goals first | exact Move.stop.inj hstop | cases hstop

private theorem floatPart_finishes {t : Nat} {rest : Text} (hw : FloatPart t w)
    (h : (scanner floatingSteps boundary).Finishes t rest true) :
    Numeral w ∧ (∃ c v, rest = c :: v ∧ boundary c = true) ∨ Marked w := by
  cases hw with
  | marked hw hf => exact .inr ⟨_, _, rfl, hf, hw⟩
  | mantissa hw => exact .inl ⟨.pointed hw, boundary_of_finishes (.inl rfl) h⟩
  | exponent hw hx => exact .inl ⟨.scaled hw hx, boundary_of_finishes (.inr rfl) h⟩
  | start | digits | point | scale | sign =>
    cases h with
    | atEnd hend =>
      rw [scanner, isAccepting_of_table floating_table] at hend
      cases hend
    | atCharacter hstop =>
      simp only [floating_move, floatingMove] at hstop
      repeat' split at hstop
      all_goals cases hstop

theorem floating_accepts_iff :
    (scanner floatingSteps (isBoundary operators)).run s = ⟨true, w⟩ ↔ HeadFloat s w := by
  rw [HeadFloat]
  apply (floating_covers isWordPart_of_isBoundary).accepts_iff
  · intro t w rest hw hfinishes
    rw [atBoundary_iff]
    exact floatPart_finishes hw hfinishes
  · rintro w rest (⟨hw, hboundary⟩ | ⟨v, f, rfl, hf, hv⟩)
    · obtain ⟨c, v, rfl, hc⟩ := atBoundary_iff.mp hboundary
      obtain ⟨t, hreads, hstop⟩ := reads_double isWordPart_of_isBoundary hw
      exact ⟨t, hreads, .atCharacter (hstop c hc)⟩
    · have hend : (graph floatingSteps).isAccepting 8 = true :=
        isAccepting_of_table floating_table 8
      exact ⟨8, reads_float hv hf, finishes_of_accepting floating_table hend rest⟩

/-- The mark is no part of a number, since it leads elsewhere. -/
theorem Numeral.not_marked (h : Numeral w) : ¬ Marked w := by
  rintro ⟨v, f, rfl, hf, hv⟩
  obtain ⟨t, ht, hreads⟩ : ∃ t, (t = 3 ∨ t = 6) ∧
      (scanner floatingSteps fun _ => false).Reads 0 (v ++ [f]) t := reads_numeral h
  have hmark := hreads.unique (reads_float hv hf)
  omega

/-- The automaton of the floating numbers accepts a text that begins with a number in front of a
boundary, or with digits or a number and a mark, and reads that much, which it could not divide
differently. Of any other text it reads what a floating number may begin with. -/
theorem floating_scan : ∃ l p, language = .ok l ∧ l.operators = operators ∧
    l.prototype? .floating = some p ∧ ∀ s,
      (∀ w, p.scan l.operators s = ⟨true, w⟩ ↔ HeadFloat s w) ∧
      (∀ v w, HeadFloat s v → HeadFloat s w → v = w) ∧ (∀ w, Numeral w → ¬ Marked w) ∧
      ∀ w, p.scan l.operators s = ⟨false, w⟩ ↔
        (¬ ∃ v, HeadFloat s v) ∧ LongestViable FloatText s w := by
  refine ⟨xogue, floatingTrial, language_eq, rfl, rfl, fun s =>
    ⟨fun w => floating_accepts_iff, ?_, fun w => Numeral.not_marked, ?_⟩⟩
  · intro v w hv hw
    rw [← floating_accepts_iff] at hv hw
    rw [hv] at hw
    exact congrArg Outcome.consumed hw
  · intro w
    exact rejects_iff (fun _ => floating_accepts_iff)
      (fun _ => (floating_covers isWordPart_of_isBoundary).longestViable)
      fun _ _ => LongestViable.unique

/-- A point ends no number that has one, but is a boundary; an exponent needs its digits. -/
example : floatingTrial.scan operators (text "1.5.2") = ⟨true, text "1.5"⟩ ∧
    floatingTrial.scan operators (text ".5e-3f0") = ⟨true, text ".5e-3f"⟩ ∧
    floatingTrial.scan operators (text "1e+ ") = ⟨false, text "1e+"⟩ ∧
    floatingTrial.scan operators (text "12 ") = ⟨false, text "12"⟩ := by
  decide +kernel

end TokenGraph.Xogue
