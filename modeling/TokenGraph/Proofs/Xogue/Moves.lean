import TokenGraph.Proofs.Graph
import TokenGraph.Proofs.Rows
import TokenGraph.Proofs.Xogue.Grammar

/-!
# The moves of the automata

What each automaton of Xogue does at a character in each of its states. The tables are those of the
graphs that the building steps make; the moves are read off them.
-/

namespace TokenGraph.Xogue

abbrev char (c : Char) : Guard := .chars (some (.whole (.one (.single c))))

/-- The guard of a pattern that is one character or another. -/
abbrev either (a b : Char) : Guard :=
  .chars (some (.whole (.alt (.one (.single a)) (.one (.single b)))))

def bracket (ranges : List (Char × Char)) : CharSet :=
  ranges.foldl (fun set range => .union set (.range range.1 range.2)) .none

abbrev oneOf (ranges : List (Char × Char)) : Guard :=
  .chars (some (.whole (.one (bracket ranges))))

attribute [simp] Regex.found_whole_one

@[simp]
theorem contains_single (d c : Char) : (CharSet.single d).contains c = decide (c = d) := by
  rw [CharSet.single, CharSet.contains, Bool.eq_iff_iff, Bool.and_eq_true, decide_eq_true_iff,
    decide_eq_true_iff, decide_eq_true_iff]
  constructor
  · rintro ⟨hd, hc⟩
    exact Char.le_antisymm hc hd
  · rintro rfl
    exact ⟨Char.le_refl c, Char.le_refl c⟩

@[simp]
theorem found_either (a b c : Char) :
    (Regex.whole (.alt (.one (.single a)) (.one (.single b)))).found [c] =
      (decide (c = a) || decide (c = b)) := by
  rw [Regex.found_whole_alt, contains_single, contains_single]

@[simp]
theorem found_blanks (c : Char) :
    (Regex.whole (.repeated (.one .blanks) 1 none)).found [c] = isBlank c :=
  Regex.found_whole_repeated .blanks c

@[simp]
theorem contains_digit (c : Char) : (bracket [('0', '9')]).contains c = isDigit c := rfl

/-- The digits from one up are those that are not zero. -/
@[simp]
theorem contains_nonzeroDigit (c : Char) :
    (bracket [('1', '9')]).contains c = (isDigit c && decide (c ≠ '0')) := by
  have hle : '1' ≤ c ↔ '0' ≤ c ∧ c ≠ '0' := by
    have hzero : ('0' : Char).toNat = 48 := rfl
    have hone : ('1' : Char).toNat = 49 := rfl
    rw [Ne, ← Char.toNat_inj, Char.le_def, Char.le_def, UInt32.le_iff_toNat_le,
      UInt32.le_iff_toNat_le, Char.toNat_val, Char.toNat_val, Char.toNat_val, hzero, hone]
    omega
  change ('1' ≤ c && c ≤ '9') = _
  rw [isDigit, Bool.eq_iff_iff]
  simp [hle, and_right_comm]

@[simp]
theorem contains_binaryDigit (c : Char) : (bracket [('0', '1')]).contains c = isBinaryDigit c := rfl

@[simp]
theorem contains_octalDigit (c : Char) : (bracket [('0', '7')]).contains c = isOctalDigit c := rfl

@[simp]
theorem contains_hexDigit (c : Char) :
    (bracket [('0', '9'), ('A', 'F'), ('a', 'f')]).contains c = isHexDigit c := rfl

@[simp]
theorem contains_wordStart (c : Char) :
    (bracket [('_', '_'), ('A', 'Z'), ('a', 'z')]).contains c = isWordStart c := by
  rw [isWordStart, ← contains_single]
  rfl

@[simp]
theorem contains_wordPart (c : Char) :
    (bracket [('_', '_'), ('A', 'Z'), ('a', 'z'), ('0', '9')]).contains c = isWordPart c := by
  rw [isWordPart, isWordStart, ← contains_single]
  rfl

def graph (steps : List BuildStep) : Automaton := (Draft.run steps).graph

/-- The automaton of some steps, as a scanner that tests classes. -/
def scanner (steps : List BuildStep) (boundary : Char → Bool) : Scanner :=
  ⟨graph steps, false, boundary⟩

def commentRows : List Row := [
  ⟨false, [(char '/', some 1)]⟩,
  ⟨false, [(char '/', some 2), (char '*', some 3)]⟩,
  ⟨false, [(char '\n', some 5), (.otherwise true, some 2)]⟩,
  ⟨false, [(char '*', some 4), (.otherwise true, some 3)]⟩,
  ⟨false, [(char '*', some 4), (char '/', some 6), (.otherwise true, some 3)]⟩,
  ⟨true, []⟩,
  ⟨true, []⟩]

def identifierRows : List Row := [
  ⟨false, [(oneOf [('_', '_'), ('A', 'Z'), ('a', 'z')], some 1)]⟩,
  ⟨false, [(oneOf [('_', '_'), ('A', 'Z'), ('a', 'z'), ('0', '9')], some 1), (.boundary, some 3),
    (.otherwise false, none)]⟩,
  ⟨false, []⟩,
  ⟨true, []⟩]

def stringRows : List Row := [
  ⟨false, [(char '"', some 1)]⟩,
  ⟨false, [(char '\\', some 2), (.otherwise true, some 1), (char '"', some 3)]⟩,
  ⟨false, [(.otherwise true, some 1)]⟩,
  ⟨true, []⟩]

def charRows : List Row := [
  ⟨false, [(char '\'', some 1)]⟩,
  ⟨false, [(char '\\', some 2), (.otherwise true, some 3)]⟩,
  ⟨false, [(.otherwise true, some 3)]⟩,
  ⟨false, [(char '\'', some 4)]⟩,
  ⟨true, []⟩]

abbrev digit : Guard := oneOf [('0', '9')]

def floatingRows : List Row := [
  ⟨false, [(digit, some 1), (char '.', some 2)]⟩,
  ⟨false, [(char '.', some 3), (digit, some 1), (either 'E' 'e', some 4),
    (either 'F' 'f', some 8)]⟩,
  ⟨false, [(digit, some 3)]⟩,
  ⟨false, [(digit, some 3), (either 'E' 'e', some 4), (either 'F' 'f', some 8), (.boundary, some 9),
    (.otherwise false, none)]⟩,
  ⟨false, [(digit, some 6), (either '+' '-', some 5)]⟩,
  ⟨false, [(digit, some 6)]⟩,
  ⟨false, [(either 'F' 'f', some 8), (digit, some 6), (.boundary, some 9),
    (.otherwise false, none)]⟩,
  ⟨false, []⟩,
  ⟨true, []⟩,
  ⟨true, []⟩]

/-- The rows of a radix: its letter, its digits, and an underscore between them. -/
def radixRows (guard : Guard) (first : Nat) : List Row := [
  ⟨false, [(guard, some (first + 1))]⟩,
  ⟨false, [(guard, some (first + 1)), (char '_', some (first + 2)), (.boundary, some 5),
    (.otherwise false, none)]⟩,
  ⟨false, [(guard, some (first + 1))]⟩]

def integerRows : List Row := [
  ⟨false, [(char '0', some 1), (oneOf [('1', '9')], some 2)]⟩,
  ⟨false, [(char '_', some 3), (digit, some 2), (.boundary, some 5), (.otherwise false, none),
    (char 'b', some 6), (char 'o', some 9), (char 'x', some 12)]⟩,
  ⟨false, [(digit, some 2), (char '_', some 3), (.boundary, some 5), (.otherwise false, none)]⟩,
  ⟨false, [(digit, some 2)]⟩,
  ⟨false, []⟩,
  ⟨true, []⟩] ++
  radixRows (oneOf [('0', '1')]) 6 ++ radixRows (oneOf [('0', '7')]) 9 ++
  radixRows (oneOf [('0', '9'), ('A', 'F'), ('a', 'f')]) 12

def spaceRows : List Row := [
  ⟨false, [(.chars (some (.whole (.repeated (.one .blanks) 1 none))), some 1)]⟩,
  ⟨true, []⟩]

/-- The automata with their tables. -/
def tables : List (List BuildStep × List Row) := [
  (commentSteps, commentRows), (identifierSteps, identifierRows), (stringSteps, stringRows),
  (charSteps, charRows), (floatingSteps, floatingRows), (integerSteps, integerRows),
  (spaceSteps, spaceRows)]

theorem comment_table : (commentSteps, commentRows) ∈ tables := by simp [tables]

theorem identifier_table : (identifierSteps, identifierRows) ∈ tables := by simp [tables]

theorem string_table : (stringSteps, stringRows) ∈ tables := by simp [tables]

theorem char_table : (charSteps, charRows) ∈ tables := by simp [tables]

theorem floating_table : (floatingSteps, floatingRows) ∈ tables := by simp [tables]

theorem integer_table : (integerSteps, integerRows) ∈ tables := by simp [tables]

theorem space_table : (spaceSteps, spaceRows) ∈ tables := by simp [tables]

/-- Nothing is refused or missing when the automata are built, no symbols are among their steps, and
the graphs have the rows of the tables. -/
theorem tables_built : ∀ p ∈ tables, (Draft.run p.1).refused = none ∧
    (Draft.run p.1).missing = none ∧ (p.1.all fun | .literals _ => false | _ => true) = true ∧
    (graph p.1).rows = p.2 := by
  decide +kernel

theorem patterned_of_table {steps : List BuildStep} {rows : List Row}
    (h : (steps, rows) ∈ tables) : (graph steps).Patterned := by
  obtain ⟨-, -, hsteps, -⟩ := tables_built _ h
  have hliterals : ∀ symbols, .literals symbols ∉ steps := by
    intro symbols hmem
    cases List.all_eq_true.mp hsteps _ hmem
  intro s e he hkind
  obtain ⟨hchars, -⟩ := Draft.exists_edge_step hliterals
    (Automaton.mem_edges_of_mem_outgoing he)
  rw [hkind] at hchars
  obtain ⟨chars, hread, hsame⟩ := Option.map_eq_some_iff.mp hchars
  rw [hread, ← hsame]

theorem rows_eq {steps : List BuildStep} {rows : List Row} (h : (steps, rows) ∈ tables) :
    (graph steps).rows = rows :=
  (tables_built _ h).2.2.2

theorem move_of_table {steps : List BuildStep} {rows : List Row} (h : (steps, rows) ∈ tables)
    (boundary : Char → Bool) (s : Nat) (c : Char) :
    (scanner steps boundary).move s c = (rows.getD s ⟨false, []⟩).move boundary c :=
  Scanner.move_of_rows rfl (patterned_of_table h) (rows_eq h) s c

@[simp]
private theorem ite_stop (accepted : Bool) :
    (if accepted = true then Move.stop true else Move.stop false) = .stop accepted := by
  cases accepted <;> rfl

/-- Behind a slash (1), in a comment to the end of the line (2) or to star and slash (3), and behind
a star in the latter (4). -/
def commentMove (c : Char) : Nat → Move
  | 0 => if c = '/' then .advance 1 else .stop false
  | 1 => if c = '/' then .advance 2 else if c = '*' then .advance 3 else .stop false
  | 2 => if c = '\n' then .advance 5 else .advance 2
  | 3 => if c = '*' then .advance 4 else .advance 3
  | 4 => if c = '*' then .advance 4 else if c = '/' then .advance 6 else .advance 3
  | 5 | 6 => .stop true
  | _ => .stop false

theorem comment_move (boundary : Char → Bool) (s : Nat) (c : Char) :
    (scanner commentSteps boundary).move s c = commentMove c s := by
  rw [move_of_table comment_table]
  match s with
  | 0 | 1 | 2 | 3 | 4 | 5 | 6 => simp [commentRows, Row.move, commentMove]
  | s + 7 => rfl

def identifierMove (boundary : Char → Bool) (c : Char) : Nat → Move
  | 0 => if isWordStart c then .advance 1 else .stop false
  | 1 => if isWordPart c then .advance 1 else .stop (boundary c)
  | 3 => .stop true
  | _ => .stop false

theorem identifier_move (boundary : Char → Bool) (s : Nat) (c : Char) :
    (scanner identifierSteps boundary).move s c = identifierMove boundary c s := by
  rw [move_of_table identifier_table]
  match s with
  | 0 | 1 | 2 | 3 => simp [identifierRows, Row.move, identifierMove]
  | s + 4 => rfl

/-- In a string (1), and behind a backslash in it (2). -/
def stringMove (c : Char) : Nat → Move
  | 0 => if c = '"' then .advance 1 else .stop false
  | 1 => if c = '\\' then .advance 2 else if c = '"' then .advance 3 else .advance 1
  | 2 => .advance 1
  | 3 => .stop true
  | _ => .stop false

theorem string_move (boundary : Char → Bool) (s : Nat) (c : Char) :
    (scanner stringSteps boundary).move s c = stringMove c s := by
  rw [move_of_table string_table]
  match s with
  | 0 | 1 | 2 | 3 => simp [stringRows, Row.move, stringMove]
  | s + 4 => rfl

/-- Behind the quote (1), behind a backslash (2), and behind the character (3). -/
def charMove (c : Char) : Nat → Move
  | 0 => if c = '\'' then .advance 1 else .stop false
  | 1 => if c = '\\' then .advance 2 else .advance 3
  | 2 => .advance 3
  | 3 => if c = '\'' then .advance 4 else .stop false
  | 4 => .stop true
  | _ => .stop false

theorem char_move (boundary : Char → Bool) (s : Nat) (c : Char) :
    (scanner charSteps boundary).move s c = charMove c s := by
  rw [move_of_table char_table]
  match s with
  | 0 | 1 | 2 | 3 | 4 => simp [charRows, Row.move, charMove]
  | s + 5 => rfl

/-- Behind digits (1), behind a point that none stand before (2), behind a mantissa (3), behind the
letter of an exponent (4), its sign (5) and its digits (6). -/
def floatingMove (boundary : Char → Bool) (c : Char) : Nat → Move
  | 0 => if isDigit c then .advance 1 else if c = '.' then .advance 2 else .stop false
  | 1 =>
    if c = '.' then .advance 3 else if isDigit c then .advance 1
    else if c = 'E' ∨ c = 'e' then .advance 4 else if c = 'F' ∨ c = 'f' then .advance 8
    else .stop false
  | 2 => if isDigit c then .advance 3 else .stop false
  | 3 =>
    if isDigit c then .advance 3 else if c = 'E' ∨ c = 'e' then .advance 4
    else if c = 'F' ∨ c = 'f' then .advance 8 else .stop (boundary c)
  | 4 => if isDigit c then .advance 6 else if c = '+' ∨ c = '-' then .advance 5 else .stop false
  | 5 => if isDigit c then .advance 6 else .stop false
  | 6 =>
    if c = 'F' ∨ c = 'f' then .advance 8 else if isDigit c then .advance 6
    else .stop (boundary c)
  | 8 | 9 => .stop true
  | _ => .stop false

theorem floating_move (boundary : Char → Bool) (s : Nat) (c : Char) :
    (scanner floatingSteps boundary).move s c = floatingMove boundary c s := by
  rw [move_of_table floating_table]
  match s with
  | 0 | 1 | 2 | 3 | 4 | 5 | 6 | 7 | 8 | 9 => simp [floatingRows, Row.move, floatingMove]
  | s + 10 => rfl

/-- Where only a digit may follow, which leads to the state of the digits. -/
def digitMove (digit : Char → Bool) (run : Nat) (c : Char) : Move :=
  if digit c then .advance run else .stop false

/-- Behind a digit; the state behind an underscore comes next. -/
def runMove (boundary digit : Char → Bool) (run : Nat) (c : Char) : Move :=
  if digit c then .advance run else if c = '_' then .advance (run + 1) else .stop (boundary c)

/-- Behind a zero in front (1), behind other digits (2), and behind an underscore (3). From 6 on
there are three states for each radix: behind its letter, its digits, and an underscore. -/
def integerMove (boundary : Char → Bool) (c : Char) : Nat → Move
  | 0 => if c = '0' then .advance 1 else if isDigit c then .advance 2 else .stop false
  | 1 =>
    if c = '_' then .advance 3 else if isDigit c then .advance 2
    else if boundary c then .stop true
    else if c = 'b' then .advance 6 else if c = 'o' then .advance 9
    else if c = 'x' then .advance 12 else .stop false
  | 2 => runMove boundary isDigit 2 c
  | 3 => digitMove isDigit 2 c
  | 5 => .stop true
  | 6 => digitMove isBinaryDigit 7 c
  | 7 => runMove boundary isBinaryDigit 7 c
  | 8 => digitMove isBinaryDigit 7 c
  | 9 => digitMove isOctalDigit 10 c
  | 10 => runMove boundary isOctalDigit 10 c
  | 11 => digitMove isOctalDigit 10 c
  | 12 => digitMove isHexDigit 13 c
  | 13 => runMove boundary isHexDigit 13 c
  | 14 => digitMove isHexDigit 13 c
  | _ => .stop false

theorem integer_move (boundary : Char → Bool) (s : Nat) (c : Char) :
    (scanner integerSteps boundary).move s c = integerMove boundary c s := by
  rw [move_of_table integer_table]
  match s with
  | 0 =>
    by_cases hc : c = '0'
    · simp [integerRows, Row.move, integerMove, hc]
    · simp [integerRows, Row.move, integerMove, hc]
  | 1 | 2 | 3 | 4 | 5 | 6 | 7 | 8 | 9 | 10 | 11 | 12 | 13 | 14 =>
    simp [integerRows, radixRows, Row.move, integerMove, digitMove, runMove]
  | s + 15 => rfl

def spaceMove (c : Char) : Nat → Move
  | 0 => if isBlank c then .advance 1 else .stop false
  | 1 => .stop true
  | _ => .stop false

theorem space_move (boundary : Char → Bool) (s : Nat) (c : Char) :
    (scanner spaceSteps boundary).move s c = spaceMove c s := by
  rw [move_of_table space_table]
  match s with
  | 0 | 1 => simp [spaceRows, Row.move, spaceMove]
  | s + 2 => rfl

end TokenGraph.Xogue
