import Mathlib.Data.List.Forall2
import TokenGraph.Definition.Compile
import TokenGraph.Proofs.ByteOrder
import TokenGraph.Proofs.Catalogs
import TokenGraph.Proofs.Refusals
import TokenGraph.Proofs.Registrations

/-!
# Faults of definitions

Everything that is wrong with a definition, in one list, and the compiler stops at the head of it.
Some of its checks are made at once, some when an automaton is finished and some when the language
is; each layer is shown to stop at the first fault of its own list, and the lists are appended in
the order in which the layers come to report.
-/

namespace TokenGraph

private theorem forall₂_of_mapM {ε α β : Type} {f : α → Except ε β} {l : List α}
    {results : List β} (h : l.mapM f = .ok results) :
    List.Forall₂ (fun a b => f a = .ok b) l results := by
  induction l generalizing results with
  | nil =>
    cases h
    exact .nil
  | cons a l ih =>
    rw [List.mapM_cons] at h
    cases ha : f a with
    | error cause => simp [ha, bind, Except.bind] at h
    | ok b =>
      cases hl : l.mapM f with
      | error cause => simp [ha, hl, bind, Except.bind] at h
      | ok rest =>
        simp only [ha, hl, bind, Except.bind, pure, Except.pure, Except.ok.injEq] at h
        subst h
        exact .cons ha (ih hl)

/-! ### Lists of faults -/

def nameFaults (name : Text) : List DefinitionError :=
  if Category.all.any fun c => text c.name = name then []
  else [.language (.unknownCategory name)]

def colorFaults : Option Text → List DefinitionError
  | none => []
  | some written =>
    if (Color.ofText? written).isSome then [] else [.language (.badColor written)]

def StyleDefinition.faults (d : StyleDefinition) : List DefinitionError :=
  colorFaults d.foreground ++ colorFaults d.background ++ colorFaults d.underline

def LiteralSource.faults : LiteralSource → List DefinitionError
  | .table name =>
    if name = text "keywords" ∨ name = text "operators" then [] else [.unknownTable name]
  | .list _ => []

/-- A class edge without its class. -/
def EdgeDefinition.labelFaults (token : Text) (e : EdgeDefinition) : List DefinitionError :=
  if e.kind = .charClass ∧ e.label = none then [.missingEdgeLabel token e.src e.dst] else []

/-- The pattern of a class edge between two of the labels, if it is no expression. -/
def EdgeDefinition.badPattern? [PatternEngine] (labels : List Text) (e : EdgeDefinition) :
    Option Text :=
  e.label.filter fun pattern => e.kind = .charClass && labels.contains e.src &&
    labels.contains e.dst && (CharClass.ofPattern? pattern).isNone

namespace TokenDefinition

/-- The labels that edges can join. -/
def labels (d : TokenDefinition) : List Text := Automaton.startLabel :: d.states.map (·.label)

def machineFaults [PatternEngine] (d : TokenDefinition) (token : Text) : List DefinitionError :=
  d.edges.flatMap (·.labelFaults token) ++
    (d.edges.filterMap (·.badPattern? d.labels)).map fun pattern => .language (.badPattern pattern)

def recognizerFaults [PatternEngine] (d : TokenDefinition) (token : Text) : List DefinitionError :=
  match d.literals with
  | none => d.machineFaults token
  | some source =>
    (if d.states ≠ [] ∨ d.edges ≠ [] then [.conflictingAutomaton token] else []) ++ source.faults

def faults [PatternEngine] (token : Text) (d : TokenDefinition) : List DefinitionError :=
  nameFaults token ++ d.style.faults ++ d.recognizerFaults token

end TokenDefinition

/-- All that is wrong with a definition: in the names of its priority list, in its tokens one after
another, and in the priority list as a whole. -/
def LanguageDefinition.faults [PatternEngine] (d : LanguageDefinition) : List DefinitionError :=
  (d.priority.getD []).flatMap nameFaults ++ d.tokens.entries.flatMap (fun e => e.2.faults e.1) ++
    (priorityFaults ((d.priority.getD []).filterMap Category.ofText?)).map
      fun fault => .language (.invalidPriority fault)

/-! ### Refused patterns -/

namespace TokenDefinition

/-- The step that adds a state. -/
def stateStep (s : StateDefinition) : BuildStep := .state (.fresh s.label s.role.role)

theorem run_states [PatternEngine] (states : List StateDefinition) :
    (Draft.run (states.map stateStep)).refused = none ∧
      ∀ l, l ∈ (Draft.run (states.map stateStep)).graph.labels ↔
        l ∈ Automaton.startLabel :: states.map (·.label) := by
  induction states using List.reverseRecOn with
  | nil => exact ⟨rfl, fun l => Iff.rfl⟩
  | append_singleton states s ih =>
    obtain ⟨hrefused, hlabels⟩ := ih
    rw [List.map_append, List.map_singleton, Draft.run_append, List.foldl_cons, List.foldl_nil]
    have hrole : s.role.role ≠ .start := by cases s.role <;> decide
    refine ⟨?_, fun l => ?_⟩
    · rw [Draft.apply_refused, hrefused]
      rfl
    · refine (Automaton.mem_labels_addState hrole l).trans ?_
      rw [hlabels l]
      simp [or_assoc, State.fresh]

/-- An edge that stands for a step has its own label if it is a class edge. -/
theorem edgeStep_eq_ok {token : Text} {e : EdgeDefinition} {step : BuildStep}
    (h : edgeStep token e = .ok step) : ∃ label, step = .edge e.src label e.dst e.kind ∧
      (e.kind = .charClass → e.label = some label) := by
  rw [edgeStep] at h
  split at h
  · next label hlabel =>
    cases h
    refine ⟨label, rfl, fun hkind => ?_⟩
    simpa [hkind, defaultLabel?] using hlabel
  · cases h

/-- The states of a definition come without edges. -/
theorem freshStates_steps {token : Text} {edges : List EdgeDefinition} {steps : List BuildStep}
    (states : List StateDefinition)
    (h : List.Forall₂ (fun e step => edgeStep token e = .ok step) edges steps) :
    Draft.FreshStates (states.map stateStep ++ steps) := by
  have hedges : ∀ added, .state added ∉ steps := by
    intro added
    induction h with
    | nil => simp
    | cons he _ ih =>
      obtain ⟨label, rfl, -⟩ := edgeStep_eq_ok he
      simpa using ih
  intro added hadded
  obtain ⟨s, -, ⟨⟩⟩ := List.mem_map.mp ((List.mem_append.mp hadded).resolve_right (hedges added))
  exact ⟨rfl, rfl⟩

/-- Which labels there are is all that the reading of a pattern depends on. -/
theorem refusal?_eq_badPattern? [PatternEngine] {draft : Draft} {labels : List Text} {token : Text}
    {e : EdgeDefinition} {step : BuildStep}
    (hlabels : ∀ l, l ∈ draft.graph.labels ↔ l ∈ labels)
    (h : edgeStep token e = .ok step) : draft.refusal? step = e.badPattern? labels := by
  obtain ⟨label, rfl, hlabel⟩ := edgeStep_eq_ok h
  rw [Draft.refusal?, EdgeDefinition.badPattern?]
  simp only [Automaton.isSome_findLabel?, hlabels, Draft.chars?_eq_none_iff]
  by_cases hkind : e.kind = .charClass
  · simp [hlabel hkind, hkind, Option.filter_some, and_assoc]
  · simp [hkind]

/-- Edges leave the labels as they are, so that their patterns are all refused or not by the same
ones. -/
theorem foldl_edges [PatternEngine] {token : Text} {labels : List Text} {edges : List EdgeDefinition}
    {steps : List BuildStep}
    (h : List.Forall₂ (fun e step => edgeStep token e = .ok step) edges steps)
    {draft : Draft} (hlabels : ∀ l, l ∈ draft.graph.labels ↔ l ∈ labels) :
    (steps.foldl Draft.apply draft).refused =
      draft.refused.or (edges.filterMap (·.badPattern? labels)).head? := by
  induction h generalizing draft with
  | nil => simp
  | @cons e step edges steps hstep _ ih =>
    have hsame : (draft.apply step).graph.labels = draft.graph.labels := by
      obtain ⟨label, rfl, -⟩ := edgeStep_eq_ok hstep
      exact Draft.labels_addEdge _ _ _ _ _
    rw [List.foldl_cons, ih (by rwa [hsame]), Draft.apply_refused,
      refusal?_eq_badPattern? hlabels hstep, Option.or_assoc, List.filterMap_cons]
    cases e.badPattern? labels <;> rfl

end TokenDefinition

/-! ### Each check and its faults -/

theorem Category.name_of_ofText? {s : Text} {c : Category} (h : Category.ofText? s = some c) :
    text c.name = s := by
  have hname := List.find?_some h
  exact of_decide_eq_true hname

theorem categoryNamed_stops (name : Text) :
    StopsAtFirst (categoryNamed name) (nameFaults name) := by
  rw [categoryNamed, Category.ofText, nameFaults]
  cases h : Category.ofText? name with
  | some c =>
    have hany : (Category.all.any fun c => text c.name = name) = true := by
      rw [List.any_eq_true]
      exact ⟨c, List.mem_of_find?_eq_some h, decide_eq_true (Category.name_of_ofText? h)⟩
    rw [if_pos hany]
    exact .passed c
  | none =>
    have hany : ¬ (Category.all.any fun c => text c.name = name) = true := by
      rw [List.any_eq_true]
      rintro ⟨c, hc, hname⟩
      exact List.find?_eq_none.mp h c hc hname
    rw [if_neg hany]
    exact .failed _ []

theorem categoryNamed_eq_ok {name : Text} {c : Category} (h : categoryNamed name = .ok c) :
    Category.ofText? name = some c := by
  rw [categoryNamed, Category.ofText] at h
  split at h
  · next hname =>
    cases h
    exact hname
  · cases h

namespace StyleDefinition

theorem colorChange_stops (written : Option Text) (change : Color → StyleChange) :
    StopsAtFirst (colorChange written change) (colorFaults written) := by
  cases written with
  | none => exact .passed []
  | some s =>
    rw [colorChange, colorFaults, color, Color.ofText]
    cases Color.ofText? s with
    | none => exact .failed _ []
    | some c => exact .passed [change c]

theorem compile_stops (d : StyleDefinition) : StopsAtFirst d.compile d.faults := by
  rw [faults, List.append_assoc, ← List.append_nil (colorFaults d.underline)]
  refine (colorChange_stops d.foreground .foreground).bind fun _ _ => ?_
  refine (colorChange_stops d.background .background).bind fun _ _ => ?_
  exact (colorChange_stops d.underline .underline).bind fun _ _ => .passed _

end StyleDefinition

namespace TokenDefinition

theorem edgeStep_stops (token : Text) (e : EdgeDefinition) :
    StopsAtFirst (edgeStep token e) (e.labelFaults token) := by
  rw [edgeStep, EdgeDefinition.labelFaults]
  cases e.label with
  | some label => simpa using StopsAtFirst.passed _
  | none =>
    cases e.kind with
    | charClass => exact .failed _ []
    | _ => exact .passed _

/-- No pattern is read before every class edge is known to have one. -/
theorem machine_stops [PatternEngine] (d : TokenDefinition) (token : Text) :
    StopsAtFirst (d.machine token) (d.machineFaults token) := by
  refine (StopsAtFirst.mapM (edgeStep_stops token) d.edges).bind fun steps hsteps => ?_
  obtain ⟨hnone, hlabels⟩ := run_states d.states
  have hrefused : (Draft.run (d.states.map stateStep ++ steps)).refused =
      (d.edges.filterMap (·.badPattern? d.labels)).head? := by
    rw [Draft.run_append, foldl_edges (forall₂_of_mapM hsteps) hlabels, hnone, Option.none_or]
    rfl
  have hbuild : StopsAtFirst (Automaton.build (d.states.map stateStep ++ steps))
      ((d.edges.filterMap (·.badPattern? d.labels)).map .badPattern) := by
    have hmissing := (freshStates_steps d.states (forall₂_of_mapM hsteps)).missing_eq_none
    rw [Automaton.build, Draft.finish, hmissing, hrefused]
    cases d.edges.filterMap (·.badPattern? d.labels) with
    | nil => exact .passed _
    | cons pattern rest => exact .failed _ _
  have hmachine := hbuild.mapError DefinitionError.language
  rw [List.map_map] at hmachine
  exact hmachine

theorem recognizer_stops [PatternEngine] (d : TokenDefinition) (token : Text) :
    StopsAtFirst (d.recognizer token) (d.recognizerFaults token) := by
  rw [recognizer, recognizerFaults]
  cases d.literals with
  | none => exact (machine_stops d token).map Recognizer.machine
  | some source =>
    by_cases hboth : d.states ≠ [] ∨ d.edges ≠ []
    · have hconflict : (!d.states.isEmpty || !d.edges.isEmpty) = true := by simpa using hboth
      simp only [hconflict, if_pos, if_pos hboth]
      exact .failed _ _
    · have hfree : (!d.states.isEmpty || !d.edges.isEmpty) = false := by simpa using hboth
      simp only [hfree, if_neg hboth, Bool.false_eq_true, if_false]
      cases source with
      | list symbols => exact .passed _
      | table name =>
        dsimp only [LiteralSource.faults]
        by_cases hkeywords : name = text "keywords"
        · rw [if_pos hkeywords, if_pos (by simp [hkeywords])]
          exact .passed _
        · rw [if_neg hkeywords]
          by_cases hoperators : name = text "operators"
          · rw [if_pos hoperators, if_pos (by simp [hoperators])]
            exact .passed _
          · rw [if_neg hoperators, if_neg (by simp [hkeywords, hoperators])]
            exact .failed _ []

theorem registration_stops [PatternEngine] (token : Text) (d : TokenDefinition) :
    StopsAtFirst (d.registration token) (d.faults token) := by
  rw [faults, List.append_assoc]
  refine (categoryNamed_stops token).bind fun _ _ => ?_
  refine (StyleDefinition.compile_stops d.style).bind fun _ _ => ?_
  rw [← List.append_nil (d.recognizerFaults token)]
  exact (recognizer_stops d token).bind fun _ _ => .passed _

theorem registration_category [PatternEngine] {token : Text} {d : TokenDefinition} {r : Registration}
    (h : d.registration token = .ok r) : Category.ofText? token = some r.category := by
  simp only [registration, bind, Except.bind, pure, Except.pure] at h
  split at h
  · cases h
  · next hname =>
    split at h
    · cases h
    · split at h
      · cases h
      · cases h
        exact categoryNamed_eq_ok hname

end TokenDefinition

/-! ### The order of priority -/

namespace Setup

/-- The automata of tables cannot fail, and neither can slots that are all different. -/
theorem finish_stops {s : Setup} (h : (s.registrations.map (·.category)).Nodup) :
    StopsAtFirst s.finish ((priorityFaults (s.priority.getD [])).map .invalidPriority) := by
  have horder : StopsAtFirst s.order
      ((priorityFaults (s.priority.getD [])).map .invalidPriority) := by
    rw [order]
    cases s.priority with
    | none => exact .passed _
    | some order =>
      simp only [Option.getD_some, priorityFault?_eq_head?]
      cases priorityFaults order with
      | nil => exact .passed _
      | cons fault rest => exact .failed _ _
  rw [← List.append_nil (List.map _ _)]
  refine horder.bind fun priority _ => ?_
  rw [s.fill_eq_ok h (by simp)]
  exact .passed _

end Setup

/-! ### Definitions -/

namespace LanguageDefinition

/-- The categories of the priority list, where there is one. -/
def order? (d : LanguageDefinition) : Except DefinitionError (Option (List Category)) :=
  match d.priority with
  | none => .ok none
  | some names => (names.mapM categoryNamed).map some

/-- What is left to do once the order is known. -/
def compileWith [PatternEngine] (d : LanguageDefinition) (priority : Option (List Category)) :
    Except DefinitionError Language := do
  let registrations ← d.tokens.entries.mapM fun e => e.2.registration e.1
  let setup : Setup :=
    ⟨d.name, registrations, d.keywords, d.operators, priority, d.keywordsFromIdentifiers⟩
  setup.finish.mapError .language

theorem compile_eq [PatternEngine] (d : LanguageDefinition) :
    d.compile = d.order? >>= d.compileWith := by
  rw [compile, order?]
  cases d.priority <;> rfl

theorem order?_stops (d : LanguageDefinition) :
    StopsAtFirst d.order? ((d.priority.getD []).flatMap nameFaults) := by
  rw [order?]
  cases d.priority with
  | none => exact .passed none
  | some names => exact (StopsAtFirst.mapM categoryNamed_stops names).map some

theorem order?_eq_ok {d : LanguageDefinition} {priority : Option (List Category)}
    (h : d.order? = .ok priority) :
    priority.getD [] = (d.priority.getD []).filterMap Category.ofText? := by
  rw [order?] at h
  cases hnames : d.priority with
  | none =>
    rw [hnames] at h
    cases h
    rfl
  | some names =>
    rw [hnames] at h
    cases horder : names.mapM categoryNamed with
    | error cause => simp [horder, Except.map] at h
    | ok order =>
      simp only [horder, Except.map, Except.ok.injEq] at h
      subst h
      have hall := forall₂_of_mapM horder
      clear hnames horder
      induction hall with
      | nil => rfl
      | cons hname _ ih =>
        rw [Option.getD_some, Option.getD_some] at ih ⊢
        rw [List.filterMap_cons_some (categoryNamed_eq_ok hname), ih]

/-- The tokens of a definition have different names, and so different categories. -/
theorem registrations_nodup [PatternEngine] {d : LanguageDefinition} {registrations : List Registration}
    (h : (d.tokens.entries.mapM fun e => e.2.registration e.1) = .ok registrations) :
    (registrations.map (·.category)).Nodup := by
  have hnames : d.tokens.keys = registrations.map fun r => text r.category.name := by
    rw [Dictionary.keys, ← List.forall₂_eq_eq_eq, List.forall₂_map_left_iff,
      List.forall₂_map_right_iff]
    refine (forall₂_of_mapM h).imp fun e r hr => ?_
    exact (Category.name_of_ofText? (TokenDefinition.registration_category hr)).symm
  have hkeys := nodup_of_ascending d.tokens.keys_ascend
  rw [hnames] at hkeys
  refine List.Nodup.of_map (fun c : Category => text c.name) ?_
  rwa [List.map_map]

theorem compile_stops [PatternEngine] (d : LanguageDefinition) :
    StopsAtFirst d.compile d.faults := by
  rw [compile_eq, faults, List.append_assoc]
  refine d.order?_stops.bind fun priority hpriority => ?_
  have htokens := StopsAtFirst.mapM (fun e => TokenDefinition.registration_stops e.1 e.2)
    d.tokens.entries
  refine htokens.bind fun registrations hregistrations => ?_
  have hnodup := registrations_nodup hregistrations
  have hfinish := (Setup.finish_stops (s := ⟨d.name, registrations, d.keywords, d.operators,
    priority, d.keywordsFromIdentifiers⟩) hnodup).mapError DefinitionError.language
  rw [List.map_map, order?_eq_ok hpriority] at hfinish
  exact hfinish

/-- No check of a definition looks for a second prototype. -/
theorem duplicatePrototype_not_mem_faults [PatternEngine] (d : LanguageDefinition) (c : Category) :
    .language (.duplicatePrototype c) ∉ d.faults := by
  have hname : ∀ name, .language (.duplicatePrototype c) ∉ nameFaults name := by
    intro name
    rw [nameFaults]
    split <;> simp
  have hcolor : ∀ written, .language (.duplicatePrototype c) ∉ colorFaults written := by
    intro written
    rw [colorFaults.eq_def]
    split
    · simp
    · split <;> simp
  have hsource : ∀ source, .language (.duplicatePrototype c) ∉ LiteralSource.faults source := by
    intro source
    rw [LiteralSource.faults.eq_def]
    split
    · split <;> simp
    · simp
  have hmachine : ∀ (t : TokenDefinition) (token : Text),
      .language (.duplicatePrototype c) ∉ t.machineFaults token := by
    intro t token
    simp [TokenDefinition.machineFaults, EdgeDefinition.labelFaults]
  have hrecognizer : ∀ (t : TokenDefinition) (token : Text),
      .language (.duplicatePrototype c) ∉ t.recognizerFaults token := by
    intro t token
    rw [TokenDefinition.recognizerFaults]
    split
    · exact hmachine t token
    · split <;> simp [hsource]
  simp [faults, TokenDefinition.faults, StyleDefinition.faults, hname, hcolor, hrecognizer]

/-- The compiler reports the first thing that is wrong with a definition: a name of the priority
list that is no category; token by token, in the order of the bytes of their names, the name, the
colors, the source of the automaton and its class edges without a class and their patterns; and an
entry of the priority list that may not stand there. It succeeds where nothing is wrong, and never
finds a category registered twice. -/
theorem compile_reports_first [PatternEngine] (d : LanguageDefinition) :
    (∀ cause, d.compile = .error cause ↔ d.faults.head? = some cause) ∧
      ((∃ l, d.compile = .ok l) ↔ d.faults = []) ∧
      (d.tokens.keys.map bytes).Pairwise (· < ·) ∧
      ∀ c, d.compile ≠ .error (.language (.duplicatePrototype c)) := by
  have h := d.compile_stops
  refine ⟨h.error_iff, h.ok_iff, ?_, ?_⟩
  · rw [List.pairwise_map]
    exact d.tokens.keys_ascend.imp bytes_lt_bytes.mpr
  · intro c hc
    exact d.duplicatePrototype_not_mem_faults c (List.mem_of_head? ((h.error_iff _).mp hc))

end LanguageDefinition

/-- Literals beside states are found before the name of their table is, and both before a priority
list that tries what cannot be tried. -/
example : (LanguageDefinition.mk (text "Mixed") [] [] (some [text "unknown"]) false
    (Dictionary.empty.insert (text "keyword")
      { literals := some (.table (text "words")), states := [⟨text "END", .accepting⟩] })).faults =
      [.conflictingAutomaton (text "keyword"), .unknownTable (text "words"),
        .language (.invalidPriority .unknownListed)] := by decide

end TokenGraph
