import TokenGraph.Catalog
import TokenGraph.Language.Setup
import TokenGraph.Pattern.Parser
/-!
# Xogue

The built-in language: its tables, its automata and its styles.
-/
namespace TokenGraph.Xogue

def name : Text := text "Xogue"

def operators : List Text := [
  "+", "-", "*", "/", "%", "&", "|", "^", "**",
  "+=", "-=", "*=", "/=", "%=", "&=", "|=", "^=", "**=", "=",
  "++", "--",
  ",", ".", ";", "?", ":", "->",
  "(", ")", "[", "]", "\x7B", "\x7D",
  "!", ">", "<", "==", ">=", "<=", "!="].map text

def keywords : List Text := [
  "if", "else", "elif", "switch", "case", "default", "when",
  "for", "while", "repeat", "break", "continue", "goto",
  "var", "fun", "return",
  "try", "throw", "catch", "finally",
  "int8", "int16", "int32", "int64", "float", "double", "string", "char",
  "za_warudo"].map text

def boundaryLabel : Text := text "ACCEPTABLE_SYMBOLS"

def othersLabel : Text := text "OTHERS"

def state (label : String) : BuildStep := .state (.fresh (text label) .intermediate)

def accepting (label : String) : BuildStep := .state (.fresh (text label) .accepting)

def failing (label : String) : BuildStep := .state (.fresh (text label) .error)

def on (src pattern dst : String) : BuildStep :=
  .edge (text src) (text pattern) (text dst) .charClass

def atBoundary (src dst : String) : BuildStep :=
  .edge (text src) boundaryLabel (text dst) .acceptOnBoundary

def skipping (src dst : String) : BuildStep :=
  .edge (text src) othersLabel (text dst) .fallbackConsume

def otherwiseFail (src : String) : BuildStep :=
  .edge (text src) othersLabel (text "ERROR") .fallbackNoConsume

/-- Comments run from two slashes to the end of the line, or from slash and star to star and slash. -/
def commentSteps : List BuildStep := [
  state "/", state "//", state "/*", state "/*...*", accepting "//...END", accepting "/*...*/END",
  on "START" "/" "/",
  on "/" "/" "//",
  on "//" "\n" "//...END",
  skipping "//" "//",
  on "/" "\\*" "/*",
  on "/*" "\\*" "/*...*",
  skipping "/*" "/*",
  on "/*...*" "\\*" "/*...*",
  on "/*...*" "/" "/*...*/END",
  skipping "/*...*" "/*"]

def identifierSteps : List BuildStep := [
  state "building", failing "ERROR", accepting "identifierEND",
  on "START" "[_A-Za-z]" "building",
  on "building" "[_A-Za-z0-9]" "building",
  atBoundary "building" "identifierEND",
  otherwiseFail "building"]

/-- Strings end at the first quote that no backslash stands before. -/
def stringSteps : List BuildStep := [
  state "opened", state "ends_w_back_slash", accepting "strEND",
  on "START" "\"" "opened",
  on "opened" "\\\\" "ends_w_back_slash",
  skipping "ends_w_back_slash" "opened",
  skipping "opened" "opened",
  on "opened" "\"" "strEND"]

/-- Characters are one character, or a backslash and one, between single quotes. -/
def charSteps : List BuildStep := [
  state "opened", state "back_slash", state "a_char", accepting "charEND",
  on "START" "'" "opened",
  on "opened" "\\\\" "back_slash",
  skipping "back_slash" "a_char",
  skipping "opened" "a_char",
  on "a_char" "'" "charEND"]

/-- Floating numbers have a point or an exponent, or end in `F`. -/
def floatingSteps : List BuildStep := [
  state "digits", state "a_dot", state "floating", state "floating_exp", state "floating_exp_sign",
  state "floating_exp_digits", failing "ERROR", accepting "floatEND", accepting "doubleEND",
  on "START" "[0-9]" "digits",
  on "START" "\\." "a_dot",
  on "digits" "\\." "floating",
  on "digits" "[0-9]" "digits",
  on "digits" "E|e" "floating_exp",
  on "digits" "F|f" "floatEND",
  on "a_dot" "[0-9]" "floating",
  on "floating" "[0-9]" "floating",
  on "floating" "E|e" "floating_exp",
  on "floating" "F|f" "floatEND",
  atBoundary "floating" "doubleEND",
  otherwiseFail "floating",
  on "floating_exp" "[0-9]" "floating_exp_digits",
  on "floating_exp" "\\+|-" "floating_exp_sign",
  on "floating_exp_digits" "F|f" "floatEND",
  on "floating_exp_digits" "[0-9]" "floating_exp_digits",
  atBoundary "floating_exp_digits" "doubleEND",
  otherwiseFail "floating_exp_digits",
  on "floating_exp_sign" "[0-9]" "floating_exp_digits"]

/-- The part of the integer automaton for one radix: its letter, then digits with single
underscores between them. -/
def radixSteps (letter mode run digit : String) : List BuildStep :=
  let underline := run ++ "_underline"
  [state mode, state run, state underline,
    on "starts_w_zero" letter mode,
    on mode digit run,
    on run digit run,
    on run "_" underline,
    atBoundary run "intEND",
    otherwiseFail run,
    on underline digit run]

def integerSteps : List BuildStep := [
  state "starts_w_zero", state "digits", state "digits_underline", failing "ERROR",
  accepting "intEND",
  on "START" "0" "starts_w_zero",
  on "START" "[1-9]" "digits",
  on "starts_w_zero" "_" "digits_underline",
  on "starts_w_zero" "[0-9]" "digits",
  atBoundary "starts_w_zero" "intEND",
  otherwiseFail "starts_w_zero",
  on "digits" "[0-9]" "digits",
  on "digits" "_" "digits_underline",
  atBoundary "digits" "intEND",
  otherwiseFail "digits",
  on "digits_underline" "[0-9]" "digits"] ++
  radixSteps "b" "binary_mode" "binaries" "[0-1]" ++
  radixSteps "o" "octal_mode" "octals" "[0-7]" ++
  radixSteps "x" "hex_mode" "hices" "[0-9A-Fa-f]"

def spaceSteps : List BuildStep := [
  accepting "spaceEND",
  on "START" "\\s+" "spaceEND"]

def prototype (category : Category) (machine : Automaton) (style : FontStyle) : SetupStep :=
  .prototype ⟨category, .machine machine, style⟩

def literals (category : Category) (table : LiteralTable) (style : FontStyle) : SetupStep :=
  .prototype ⟨category, .literals table, style⟩

def language : Except LanguageError Language := do
  let comment ← Automaton.build commentSteps
  let identifier ← Automaton.build identifierSteps
  let string ← Automaton.build stringSteps
  let char ← Automaton.build charSteps
  let floating ← Automaton.build floatingSteps
  let integer ← Automaton.build integerSteps
  let space ← Automaton.build spaceSteps
  Language.build name [
    .operators operators,
    .keywords keywords,
    prototype .comment comment (.inColor .darkGray),
    literals .keyword .keywords (.inColor .orange),
    prototype .identifier identifier .plain,
    prototype .string string (.inColor .lightGreen),
    prototype .char char (.inColor .greenYellow),
    literals .operator .operators (.inColor .peachPuff),
    prototype .floating floating (.inColor .skyBlue),
    prototype .integer integer (.inColor .skyBlue),
    prototype .space space .plain,
    prototype .unknown .initial .unknownDefault,
    .keywordsFromIdentifiers true]

def builtinCatalog : Except LanguageError (Logged Catalog) := do
  Catalog.empty.register (← language)

end TokenGraph.Xogue
