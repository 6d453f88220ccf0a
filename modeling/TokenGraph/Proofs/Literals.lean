import TokenGraph.Language.Setup
import TokenGraph.Pattern.Parser
import TokenGraph.Proofs.WellFormed

/-!
# Reading literals

An automaton that was built last from some symbols walks along them: it reads as much of a text as
one of them begins with, and accepts if that is one of them as a whole. Neither the category it
stands for nor the boundaries of the language matter.
-/

namespace TokenGraph

/-- What walking along some symbols makes of a text. -/
structure Walked (symbols : List Text) (s : Text) (o : Outcome) : Prop where
  isPrefix : o.consumed <+: s
  begins : o.consumed = [] ∨ Automaton.Begins symbols o.consumed
  longest : ∀ v, v <+: s → Automaton.Begins symbols v → v <+: o.consumed
  nothing : o.consumed = [] ↔ ∀ x ∈ symbols, ∀ c, x.head? = some c → s.head? ≠ some c
  accepted : o.accepted = true ↔ o.consumed ≠ [] ∧ o.consumed ∈ symbols

/-- Nothing is read only where no symbol begins like the text. -/
private theorem consumed_eq_nil_iff {symbols : List Text} {s u : Text} (hu : u <+: s)
    (hbegins : u = [] ∨ Automaton.Begins symbols u)
    (hlongest : ∀ v, v <+: s → Automaton.Begins symbols v → v <+: u) :
    u = [] ↔ ∀ x ∈ symbols, ∀ c, x.head? = some c → s.head? ≠ some c := by
  constructor
  · rintro rfl x hx c hxc hsc
    obtain ⟨x, rfl⟩ := List.head?_eq_some_iff.mp hxc
    obtain ⟨s, rfl⟩ := List.head?_eq_some_iff.mp hsc
    have hshared : [c] <+: [] := hlongest [c] ⟨s, rfl⟩ ⟨c :: x, hx, ⟨x, rfl⟩⟩
    simp at hshared
  · intro hdiffer
    cases u with
    | nil => rfl
    | cons c u =>
      obtain ⟨x, hx, v, rfl⟩ := hbegins.resolve_left (by simp)
      obtain ⟨rest, rfl⟩ := hu
      exact absurd rfl (hdiffer _ hx c rfl)

theorem Scanner.run_walked {m : Scanner} {symbols : List Text} (h : m.graph = .ofLiterals symbols)
    (s : Text) : Walked symbols s (m.run s) := by
  obtain ⟨u, hrun, hbegins, hu, hlongest⟩ := run_ofLiterals h s
  have hlongest' : ∀ v, v <+: s → Automaton.Begins symbols v → v <+: u := by
    intro v hv hbegin
    exact List.prefix_of_prefix_length_le hv hu (hlongest v hv hbegin)
  rw [hrun]
  exact ⟨hu, hbegins, hlongest', consumed_eq_nil_iff hu hbegins hlongest',
    decide_eq_true_iff⟩

theorem Automaton.build_literals [PatternEngine] {steps : List BuildStep} {symbols : List Text}
    {m : Automaton} (h : Automaton.build (steps ++ [.literals symbols]) = .ok m) :
    m = .ofLiterals symbols := by
  obtain ⟨-, -, rfl⟩ := Draft.finish_eq_ok_iff.mp h
  exact Draft.graph_run_literals steps symbols

theorem Automaton.build_literals_alone [PatternEngine] (symbols : List Text) :
    Automaton.build [.literals symbols] = .ok (.ofLiterals symbols) :=
  Draft.finish_eq_ok_iff.mpr ⟨rfl, rfl, (Draft.graph_run_literals [] symbols).symm⟩

/-- Symbols can always be built. Whatever was built before them, and whatever the category and the
operators are, their automaton walks along them. -/
theorem Prototype.scan_walked [PatternEngine] (symbols : List Text) :
    (∃ m, Automaton.build [.literals symbols] = .ok m) ∧
    ∀ steps (p : Prototype), Automaton.build (steps ++ [.literals symbols]) = .ok p.machine →
      ∀ operators s, Walked symbols s (p.scan operators s) := by
  refine ⟨⟨_, Automaton.build_literals_alone symbols⟩, ?_⟩
  intro steps p h operators s
  exact Scanner.run_walked (Automaton.build_literals h) s

/-- A symbol and its beginning, the empty symbol and a repeated one, behind a state that is given
up; the text goes on like no symbol. -/
theorem Prototype.scan_walked_sample :
    Automaton.build ([.state (.fresh (text "left over") .accepting)] ++
      [.literals [text "é=", [], text "é", text "é=", text "é=>="]]) =
        .ok (.ofLiterals [text "é=", [], text "é", text "é=", text "é=>="]) ∧
      ∀ category, Walked [text "é=", [], text "é", text "é=", text "é=>="] (text "é=>é")
        (Prototype.scan ⟨category, .ofLiterals [text "é=", [], text "é", text "é=", text "é=>="],
          .plain⟩ [text "="] (text "é=>é")) := by
  obtain ⟨-, hwalked⟩ :=
    Prototype.scan_walked [text "é=", [], text "é", text "é=", text "é=>="]
  have hbuild : Automaton.build ([.state (.fresh (text "left over") .accepting)] ++
      [.literals [text "é=", [], text "é", text "é=", text "é=>="]]) =
        .ok (.ofLiterals [text "é=", [], text "é", text "é=", text "é=>="]) :=
    Draft.finish_eq_ok_iff.mpr ⟨rfl, rfl, (Draft.graph_run_literals _ _).symm⟩
  exact ⟨hbuild, fun category => hwalked _ _ hbuild _ _⟩

example : Prototype.scan ⟨.operator, .ofLiterals [text "é=", text "é", text "é=>="], .plain⟩ []
    (text "é=>é") = ⟨false, text "é=>"⟩ := by decide +kernel

end TokenGraph
