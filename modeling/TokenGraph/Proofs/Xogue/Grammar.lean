import TokenGraph.Xogue

/-!
# The lexemes of Xogue

What words, numbers, literals and comments look like, whatever the automata make of them.
-/

namespace TokenGraph.Xogue

def isDigit (c : Char) : Bool := '0' ≤ c && c ≤ '9'

def isBinaryDigit (c : Char) : Bool := '0' ≤ c && c ≤ '1'

def isOctalDigit (c : Char) : Bool := '0' ≤ c && c ≤ '7'

def isHexDigit (c : Char) : Bool := isDigit c || ('A' ≤ c && c ≤ 'F') || ('a' ≤ c && c ≤ 'f')

def isWordStart (c : Char) : Bool := c = '_' || ('A' ≤ c && c ≤ 'Z') || ('a' ≤ c && c ≤ 'z')

def isWordPart (c : Char) : Bool := isWordStart c || isDigit c

theorem isWordPart_of_isDigit {c : Char} (h : isDigit c = true) : isWordPart c = true := by
  rw [isWordPart, h, Bool.or_true]

theorem isWordPart_of_isBinaryDigit {c : Char} (h : isBinaryDigit c = true) :
    isWordPart c = true := by
  apply isWordPart_of_isDigit
  simp only [isBinaryDigit, isDigit, Bool.and_eq_true, decide_eq_true_eq] at h ⊢
  exact ⟨h.1, Char.le_trans h.2 (by decide)⟩

theorem isWordPart_of_isOctalDigit {c : Char} (h : isOctalDigit c = true) :
    isWordPart c = true := by
  apply isWordPart_of_isDigit
  simp only [isOctalDigit, isDigit, Bool.and_eq_true, decide_eq_true_eq] at h ⊢
  exact ⟨h.1, Char.le_trans h.2 (by decide)⟩

theorem isWordPart_of_isHexDigit {c : Char} (h : isHexDigit c = true) : isWordPart c = true := by
  simp only [isHexDigit, Bool.or_eq_true, Bool.and_eq_true, decide_eq_true_eq] at h
  rcases h with (hdigit | ⟨hlow, hhigh⟩) | ⟨hlow, hhigh⟩
  · exact isWordPart_of_isDigit hdigit
  · have hle : c ≤ 'Z' := Char.le_trans hhigh (by decide)
    simp [isWordPart, isWordStart, hlow, hle]
  · have hle : c ≤ 'z' := Char.le_trans hhigh (by decide)
    simp [isWordPart, isWordStart, hlow, hle]

private theorem between_toNat {a b c : Char} (h : (decide (a ≤ c) && decide (c ≤ b)) = true) :
    a.toNat ≤ c.toNat ∧ c.toNat ≤ b.toNat := by
  rw [Bool.and_eq_true, decide_eq_true_iff, decide_eq_true_iff] at h
  exact h

theorem isWordPart_toNat {c : Char} (h : isWordPart c = true) : 48 ≤ c.toNat ∧ c.toNat ≤ 122 := by
  simp only [isWordPart, isWordStart, isDigit, Bool.or_eq_true, decide_eq_true_iff] at h
  rcases h with ((rfl | h) | h) | h
  · decide
  all_goals
    have hrange := between_toNat h
    simp at hrange
    omega

theorem isWordStart_of_isDigit {c : Char} (h : isDigit c = true) : isWordStart c = false := by
  have hdigit := between_toNat h
  simp at hdigit
  rw [Bool.eq_false_iff]
  intro hstart
  simp only [isWordStart, Bool.or_eq_true, decide_eq_true_iff] at hstart
  rcases hstart with (rfl | hstart) | hstart
  · simp at hdigit
  all_goals
    have hrange := between_toNat hstart
    simp at hrange
    omega

/-- A class of word parts does not hold what is no word part. -/
theorem class_eq_false {p : Char → Bool} {c : Char} (hp : p c = true → isWordPart c = true)
    (hc : isWordPart c = false) : p c = false := by
  rw [Bool.eq_false_iff]
  intro h
  rw [hp h] at hc
  cases hc

theorem ne_of_class {p : Char → Bool} {c d : Char} (hc : p c = true) (hd : p d = false) :
    c ≠ d := by
  intro h
  rw [h, hd] at hc
  cases hc

def Word (w : Text) : Prop :=
  ∃ c v, w = c :: v ∧ isWordStart c = true ∧ ∀ d ∈ v, isWordPart d = true

/-- Digits of a radix, with at most one underscore between two of them. -/
inductive DigitRun (digit : Char → Bool) : Text → Prop
  | last {d : Char} (hd : digit d = true) : DigitRun digit [d]
  | next {d : Char} {w : Text} (hd : digit d = true) (hw : DigitRun digit w) :
      DigitRun digit (d :: w)
  | underline {d : Char} {w : Text} (hd : digit d = true) (hw : DigitRun digit w) :
      DigitRun digit (d :: '_' :: w)

inductive IntegerText : Text → Prop
  | decimal {w : Text} (hw : DigitRun isDigit w) : IntegerText w
  | binary {w : Text} (hw : DigitRun isBinaryDigit w) : IntegerText ('0' :: 'b' :: w)
  | octal {w : Text} (hw : DigitRun isOctalDigit w) : IntegerText ('0' :: 'o' :: w)
  | hex {w : Text} (hw : DigitRun isHexDigit w) : IntegerText ('0' :: 'x' :: w)

def Digits (w : Text) : Prop := w ≠ [] ∧ ∀ c ∈ w, isDigit c = true

/-- Digits with a point in front of them, among them or behind them. -/
inductive Mantissa : Text → Prop
  | closed {w v : Text} (hw : Digits w) (hv : ∀ c ∈ v, isDigit c = true) : Mantissa (w ++ '.' :: v)
  | bare {v : Text} (hv : Digits v) : Mantissa ('.' :: v)

inductive Exponent : Text → Prop
  | unsigned {e : Char} {w : Text} (he : e = 'E' ∨ e = 'e') (hw : Digits w) : Exponent (e :: w)
  | signed {e s : Char} {w : Text} (he : e = 'E' ∨ e = 'e') (hs : s = '+' ∨ s = '-')
      (hw : Digits w) : Exponent (e :: s :: w)

/-- Numbers with a point or an exponent. -/
inductive Numeral : Text → Prop
  | pointed {w : Text} (hw : Mantissa w) : Numeral w
  | scaled {w x : Text} (hw : Digits w ∨ Mantissa w) (hx : Exponent x) : Numeral (w ++ x)

inductive FloatText : Text → Prop
  | double {w : Text} (hw : Numeral w) : FloatText w
  | float {w : Text} {f : Char} (hw : Digits w ∨ Numeral w) (hf : f = 'F' ∨ f = 'f') :
      FloatText (w ++ [f])

/-- Characters other than quote and backslash, and backslashes with the character that they
escape. -/
inductive StringBody : Text → Prop
  | nil : StringBody []
  | plain {c : Char} {w : Text} (hquote : c ≠ '"') (hslash : c ≠ '\\') (hw : StringBody w) :
      StringBody (c :: w)
  | escaped {c : Char} {w : Text} (hw : StringBody w) : StringBody ('\\' :: c :: w)

inductive StringText : Text → Prop
  | quoted {w : Text} (hw : StringBody w) : StringText ('"' :: w ++ ['"'])

inductive CharText : Text → Prop
  | plain {c : Char} (hc : c ≠ '\\') : CharText ['\'', c, '\'']
  | escaped {c : Char} : CharText ['\'', '\\', c, '\'']

/-- The first star that a slash follows is the last but one character. -/
def ClosesAtEnd (w : Text) : Prop :=
  ['*', '/'] <:+ w ∧ ∀ before after, w = before ++ '*' :: '/' :: after → after = []

/-- Two slashes, and what follows up to the first end of a line. -/
inductive LineComment : Text → Prop
  | closed {w : Text} (hw : '\n' ∉ w) : LineComment ('/' :: '/' :: w ++ ['\n'])

inductive BlockComment : Text → Prop
  | closed {w : Text} (hw : ClosesAtEnd w) : BlockComment ('/' :: '*' :: w)

/-- A text that is one token of a category, whatever the category's automaton says. Texts that a
comment leaves open to the end of the line, and numbers that begin with a point, are left out. -/
inductive Lexeme : Category → Text → Prop
  | keyword {w : Text} (hw : Word w) (hkeyword : w ∈ keywords) : Lexeme .keyword w
  | identifier {w : Text} (hw : Word w) (hkeyword : w ∉ keywords) : Lexeme .identifier w
  | operator {w : Text} (hw : w ∈ operators) : Lexeme .operator w
  | integer {w : Text} (hw : IntegerText w) : Lexeme .integer w
  | floating {w : Text} (hw : FloatText w) (hpoint : w.head? ≠ some '.') : Lexeme .floating w
  | string {w : Text} (hw : StringText w) : Lexeme .string w
  | char {w : Text} (hw : CharText w) : Lexeme .char w
  | comment {w : Text} (hw : BlockComment w) : Lexeme .comment w

end TokenGraph.Xogue
