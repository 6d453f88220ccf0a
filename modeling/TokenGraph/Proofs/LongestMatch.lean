import Mathlib.Data.List.Infix
import TokenGraph.Proofs.Literals
import TokenGraph.Proofs.Xogue.Analyzer

/-!
# The longest symbol

Walking along some symbols never goes back to the last one that was passed, so a longer symbol
that the text only begins like can spoil a shorter one. It never does so where the symbols leave no
gaps, and only there.
-/

namespace TokenGraph

/-- Every text between a symbol and a longer one that begins with it is a symbol. -/
def GapFree (symbols : List Text) : Prop :=
  ∀ y ∈ symbols, y ≠ [] → ∀ x ∈ symbols, ∀ w, y <+: w → w <+: x → w ∈ symbols

/-- What lies below a symbol is one of its beginnings. -/
instance (symbols : List Text) : Decidable (GapFree symbols) :=
  decidable_of_iff
    (∀ y ∈ symbols, y ≠ [] → ∀ x ∈ symbols, ∀ w ∈ x.inits, y <+: w → symbols.contains w = true)
    ⟨fun h y hy hne x hx w hyw hwx =>
        List.contains_iff_mem.mp (h y hy hne x hx w ((List.mem_inits w x).mpr hwx) hyw),
      fun h y hy hne x hx w hw hyw =>
        List.contains_iff_mem.mpr (h y hy hne x hx w hyw ((List.mem_inits w x).mp hw))⟩

/-- The longest symbol that a text begins with. -/
structure LongestSymbol (symbols : List Text) (s u : Text) : Prop where
  mem : u ∈ symbols
  isPrefix : u <+: s
  longest : ∀ v ∈ symbols, v <+: s → v.length ≤ u.length

/-- In front of a symbol that is not empty the prototype accepts the longest one. -/
def Prototype.LongestWins (p : Prototype) (operators symbols : List Text) : Prop :=
  ∀ s, (∃ y ∈ symbols, y ≠ [] ∧ y <+: s) →
    ∃ u, LongestSymbol symbols s u ∧ p.scan operators s = ⟨true, u⟩

variable {symbols : List Text} {s : Text} {o : Outcome}

/-- What is read in front of a symbol lies between it and a longer one. -/
theorem Walked.accepts_longest (h : Walked symbols s o) (hgaps : GapFree symbols) {y : Text}
    (hy : y ∈ symbols) (hne : y ≠ []) (hs : y <+: s) :
    LongestSymbol symbols s o.consumed ∧ o.accepted = true := by
  have hlongest : ∀ v ∈ symbols, v <+: s → v <+: o.consumed :=
    fun v hv hvs => h.longest v hvs ⟨v, hv, List.prefix_rfl⟩
  have hread : o.consumed ≠ [] := by
    intro hnil
    exact hne (List.prefix_nil.mp (hnil ▸ hlongest y hy hs))
  obtain ⟨x, hx, hbegin⟩ := h.begins.resolve_left hread
  have hmem : o.consumed ∈ symbols := hgaps y hy hne x hx _ (hlongest y hy hs) hbegin
  exact ⟨⟨hmem, h.isPrefix, fun v hv hvs => (hlongest v hv hvs).length_le⟩,
    h.accepted.mpr ⟨hread, hmem⟩⟩

/-- A beginning of a symbol is read to its end, so only as a symbol is it accepted. -/
theorem Walked.mem_of_accepted (h : Walked symbols s o) (hs : Automaton.Begins symbols s)
    (haccepted : o.accepted = true) : s ∈ symbols := by
  have hall : s <+: o.consumed := h.longest s List.prefix_rfl hs
  rw [hall.eq_of_length_le h.isPrefix.length_le]
  exact (h.accepted.mp haccepted).2

theorem Prototype.longestWins_iff_gapFree {p : Prototype} (h : p.machine = .ofLiterals symbols)
    (operators : List Text) : p.LongestWins operators symbols ↔ GapFree symbols := by
  have hwalked : ∀ s, Walked symbols s (p.scan operators s) := fun s => Scanner.run_walked h s
  constructor
  · intro hwins y hy hne x hx w hyw hwx
    obtain ⟨u, -, hscan⟩ := hwins w ⟨y, hy, hne, hyw⟩
    exact (hwalked w).mem_of_accepted ⟨x, hx, hwx⟩ (by rw [hscan])
  · rintro hgaps s ⟨y, hy, hne, hys⟩
    obtain ⟨hlongest, haccepted⟩ := (hwalked s).accepts_longest hgaps hy hne hys
    exact ⟨_, hlongest, by rw [← haccepted]⟩

theorem Xogue.operators_gapFree : GapFree Xogue.operators := by decide +kernel

/-- The automaton of some symbols accepts the longest one wherever a text begins with one, if and
only if the symbols leave no gaps. The operators of Xogue leave none. -/
theorem Prototype.scan_longest_iff :
    (∀ symbols, ∃ m, Automaton.build [.literals symbols] = .ok m ∧
      ∀ category style operators,
        (Prototype.mk category m style).LongestWins operators symbols ↔ GapFree symbols) ∧
    GapFree Xogue.operators ∧ [] ∉ Xogue.operators ∧
    ∃ l p, Xogue.language = .ok l ∧ l.prototype? .operator = some p ∧
      ∀ operators, p.LongestWins operators Xogue.operators := by
  refine ⟨?_, Xogue.operators_gapFree, by decide, ?_⟩
  · intro symbols
    exact ⟨.ofLiterals symbols, rfl, fun category style operators =>
      longestWins_iff_gapFree rfl operators⟩
  · refine ⟨Xogue.xogue, Xogue.operatorTrial, Xogue.language_eq, rfl, fun operators => ?_⟩
    have hmachine : Xogue.operatorTrial.machine = .ofLiterals Xogue.operators := by
      rw [Xogue.operatorTrial]
    exact (longestWins_iff_gapFree hmachine operators).mpr Xogue.operators_gapFree

/-- The text begins with a symbol, but goes on like a longer one for a while. -/
example : ¬ GapFree [text "a", text "abc"] ∧
    Prototype.scan ⟨.operator, .ofLiterals [text "a", text "abc"], .plain⟩ [] (text "abd") =
      ⟨false, text "ab"⟩ := by decide +kernel

end TokenGraph
