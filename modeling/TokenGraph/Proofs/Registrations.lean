import Mathlib.Data.List.Nodup
import TokenGraph.Proofs.FirstFault
import TokenGraph.Proofs.Setup

/-!
# Languages set up step by step

Every step of a setup adds to one part of it only, so that a setup is told by the registrations, the
words of either table, the last priority list and the last word on identifiers, however these came
in between each other. Once the steps are over two things can be wrong: the priority list, and a
category that is registered twice.
-/

namespace TokenGraph

/-! ### What steps amount to -/

namespace SetupStep

def registration? : SetupStep → Option Registration
  | .prototype registration => some registration
  | _ => none

def keywords? : SetupStep → Option (List Text)
  | .keywords words => some words
  | _ => none

def operators? : SetupStep → Option (List Text)
  | .operators symbols => some symbols
  | _ => none

def order? : SetupStep → Option (List Category)
  | .priority order => some order
  | _ => none

def fromIdentifiers? : SetupStep → Option Bool
  | .keywordsFromIdentifiers enabled => some enabled
  | _ => none

/-- The registrations among some steps, of machines and of tables. -/
def registrations (steps : List SetupStep) : List Registration := steps.filterMap registration?

/-- What a table holds in the end. -/
def table (steps : List SetupStep) : LiteralTable → List Text
  | .keywords => (steps.filterMap keywords?).flatten
  | .operators => (steps.filterMap operators?).flatten

def lastOrder? (steps : List SetupStep) : Option (List Category) :=
  (steps.filterMap order?).getLast?

def lastFromIdentifiers? (steps : List SetupStep) : Option Bool :=
  (steps.filterMap fromIdentifiers?).getLast?

/-- A setup is told by what its steps amount to. -/
theorem run_eq (name : Text) (steps : List SetupStep) :
    Setup.run name steps = ⟨name, registrations steps, table steps .keywords,
      table steps .operators, lastOrder? steps, (lastFromIdentifiers? steps).getD false⟩ := by
  induction steps using List.reverseRecOn with
  | nil => rfl
  | append_singleton steps step ih =>
    have hrun : Setup.run name (steps ++ [step]) = (Setup.run name steps).apply step := by
      rw [Setup.run, List.foldl_append]
      rfl
    rw [hrun, ih]
    cases step <;>
      simp [Setup.apply, registrations, table, lastOrder?, lastFromIdentifiers?, registration?,
        keywords?, operators?, order?, fromIdentifiers?]

/-- Two sequences have the same registrations in the same order, and so for the steps of each table;
of priority lists and of words on identifiers they have the same last one. -/
structure Interleaved (steps steps' : List SetupStep) : Prop where
  registrations : registrations steps = registrations steps'
  keywords : steps.filterMap keywords? = steps'.filterMap keywords?
  operators : steps.filterMap operators? = steps'.filterMap operators?
  order : lastOrder? steps = lastOrder? steps'
  fromIdentifiers : lastFromIdentifiers? steps = lastFromIdentifiers? steps'

end SetupStep

open SetupStep

/-- Steps of different kinds may change places: what comes out is the same language or the same
error. -/
theorem Language.build_interleaved (name : Text) {steps steps' : List SetupStep}
    (h : Interleaved steps steps') :
    Language.build name steps = Language.build name steps' := by
  have htable : table steps = table steps' := by
    funext t
    cases t with
    | keywords => rw [table, table, h.keywords]
    | operators => rw [table, table, h.operators]
  rw [Language.build, Language.build, run_eq, run_eq, h.registrations, htable, h.order,
    h.fromIdentifiers]

/-- A table may be filled before or after a prototype that stands for it, and of two priority lists
the later one counts. -/
def tableLast : List SetupStep := [
  .prototype ⟨.keyword, .literals .keywords, .plain⟩,
  .priority [.space, .space],
  .keywords [text "if"],
  .prototype ⟨.space, .machine .initial, .plain⟩,
  .keywordsFromIdentifiers true,
  .keywords [text "else"],
  .priority [.keyword, .identifier, .space]]

def tableFirst : List SetupStep := [
  .priority [.keyword, .identifier, .space],
  .keywords [text "if"],
  .keywords [text "else"],
  .prototype ⟨.keyword, .literals .keywords, .plain⟩,
  .keywordsFromIdentifiers false,
  .keywordsFromIdentifiers true,
  .prototype ⟨.space, .machine .initial, .plain⟩]

theorem Language.build_interleaved_sample :
    Interleaved tableLast tableFirst ∧
      Language.build (text "C") tableLast = Language.build (text "C") tableFirst ∧
      ∃ l, Language.build (text "C") tableFirst = .ok l ∧
        l.prototype? .keyword =
          some ⟨.keyword, .ofLiterals [text "if", text "else"], .plain⟩ := by
  have hsame : Interleaved tableLast tableFirst := ⟨rfl, rfl, rfl, rfl, rfl⟩
  exact ⟨hsame, Language.build_interleaved (text "C") hsame, _, rfl, rfl⟩

/-! ### Orders of priority -/

/-- An entry of a priority list that may not stand behind the entries before it. -/
def priorityFaultAt? (before : List Category) (c : Category) : Option PriorityFault :=
  if c = .unknown then some .unknownListed
  else if c ∈ before then some (.repeated c)
  else none

def priorityFaults (order : List Category) : List PriorityFault :=
  order.zipIdx.filterMap fun entry => priorityFaultAt? (order.take entry.2) entry.1

theorem priorityFault?_eq_head? (order : List Category) :
    priorityFault? [] order = (priorityFaults order).head? := by
  suffices h : ∀ before seen rest, (∀ c, c ∈ seen ↔ c ∈ before) →
      priorityFault? seen rest = ((rest.zipIdx before.length).filterMap fun entry =>
        priorityFaultAt? ((before ++ rest).take entry.2) entry.1).head? from
    h [] [] order fun c => Iff.rfl
  intro before seen rest hseen
  induction rest generalizing before seen with
  | nil => rfl
  | cons c rest ih =>
    have hnext := ih (before ++ [c]) (c :: seen) (by simp [hseen, or_comm])
    rw [List.length_append, List.length_singleton, List.append_assoc,
      List.singleton_append] at hnext
    rw [priorityFault?, List.zipIdx_cons, List.filterMap_cons, List.take_left, hnext,
      priorityFaultAt?]
    by_cases hunknown : c = .unknown
    · rw [if_pos hunknown, if_pos hunknown]
      rfl
    · rw [if_neg hunknown, if_neg hunknown]
      by_cases hlisted : c ∈ before
      · rw [if_pos hlisted, if_pos (by simpa [hseen] using hlisted)]
        rfl
      · rw [if_neg hlisted, if_neg (by simpa [hseen] using hlisted)]

theorem priorityFaults_concat (order : List Category) (c : Category) :
    priorityFaults (order ++ [c]) = priorityFaults order ++ (priorityFaultAt? order c).toList := by
  have hbefore : order.zipIdx.filterMap (fun entry =>
      priorityFaultAt? ((order ++ [c]).take entry.2) entry.1) = priorityFaults order := by
    refine List.filterMap_congr fun entry hentry => ?_
    have hlt := List.snd_lt_of_mem_zipIdx hentry
    rw [List.take_append_of_le_length (by omega)]
  rw [priorityFaults, List.zipIdx_append, List.filterMap_append, hbefore]
  cases hc : priorityFaultAt? order c <;> simp [hc]

theorem priorityFault?_concat (order : List Category) (c : Category) :
    priorityFault? [] (order ++ [c]) = (priorityFault? [] order).or (priorityFaultAt? order c) := by
  rw [priorityFault?_eq_head?, priorityFault?_eq_head?, priorityFaults_concat, List.head?_append]
  cases priorityFaultAt? order c <;> rfl

/-- What a language may be told to try, in this order. -/
def SoundOrder (order : List Category) : Prop := .unknown ∉ order ∧ order.Nodup

theorem soundOrder_tried : SoundOrder Category.tried := ⟨by decide, by decide⟩

/-- What is wrong with the first entry up to which a priority list is not sound. -/
def FirstFaulty (order : List Category) (fault : PriorityFault) : Prop :=
  ∃ front c back, order = front ++ c :: back ∧ SoundOrder front ∧
    ((c = .unknown ∧ fault = .unknownListed) ∨ (c ∈ front ∧ fault = .repeated c))

theorem priorityFaultAt?_eq_none_iff {before : List Category} {c : Category} :
    priorityFaultAt? before c = none ↔ c ≠ .unknown ∧ c ∉ before := by
  rw [priorityFaultAt?]
  by_cases hunknown : c = .unknown <;> simp [hunknown]

theorem priorityFaultAt?_eq_some_iff {before : List Category} (h : SoundOrder before)
    {c : Category} {fault : PriorityFault} : priorityFaultAt? before c = some fault ↔
      (c = .unknown ∧ fault = .unknownListed) ∨ (c ∈ before ∧ fault = .repeated c) := by
  rw [priorityFaultAt?]
  by_cases hunknown : c = .unknown
  · subst hunknown
    simp [h.1, eq_comm]
  · by_cases hlisted : c ∈ before <;> simp [hunknown, hlisted, eq_comm]

theorem soundOrder_concat {order : List Category} {c : Category} :
    SoundOrder (order ++ [c]) ↔ SoundOrder order ∧ priorityFaultAt? order c = none := by
  rw [SoundOrder, SoundOrder, ← List.concat_eq_append, List.nodup_concat,
    priorityFaultAt?_eq_none_iff, List.concat_eq_append, List.mem_append, List.mem_singleton]
  tauto

theorem priorityFault?_eq_none_iff {order : List Category} :
    priorityFault? [] order = none ↔ SoundOrder order := by
  induction order using List.reverseRecOn with
  | nil => simp [priorityFault?, SoundOrder]
  | append_singleton order c ih =>
    rw [priorityFault?_concat, Option.or_eq_none_iff, ih, soundOrder_concat]

theorem priorityFault?_eq_some_iff {order : List Category} {fault : PriorityFault} :
    priorityFault? [] order = some fault ↔ FirstFaulty order fault := by
  rw [scan_eq_some_iff (priorityFault? []) priorityFaultAt? rfl priorityFault?_concat, FirstFaulty]
  simp only [priorityFault?_eq_none_iff]
  constructor
  · rintro ⟨front, c, back, hsplit, hfront, hc⟩
    exact ⟨front, c, back, hsplit, hfront, (priorityFaultAt?_eq_some_iff hfront).mp hc⟩
  · rintro ⟨front, c, back, hsplit, hfront, hc⟩
    exact ⟨front, c, back, hsplit, hfront, (priorityFaultAt?_eq_some_iff hfront).mpr hc⟩

/-! ### Categories registered twice -/

/-- The category of the first registration that repeats one. -/
def FirstRepeated (registrations : List Registration) (c : Category) : Prop :=
  ∃ front r back, registrations = front ++ r :: back ∧ (front.map (·.category)).Nodup ∧
    r.category ∈ front.map (·.category) ∧ c = r.category

namespace Setup

variable {s : Setup}

theorem fill_append (slots : Category → Option Prototype) (front back : List Registration) :
    s.fill slots (front ++ back) = s.fill slots front >>= fun filled => s.fill filled back := by
  induction front generalizing slots with
  | nil => rfl
  | cons r front ih =>
    rw [List.cons_append, fill, fill]
    split
    · rfl
    · exact ih _

/-- A registration that repeats a category of one before it. -/
def repeatAt? (before : List Registration) (r : Registration) : Option LanguageError :=
  if r.category ∈ before.map (·.category) then some (.duplicatePrototype r.category) else none

theorem failure?_fill_concat (registrations : List Registration) (r : Registration) :
    failure? (s.fill (fun _ => none) (registrations ++ [r])) =
      (failure? (s.fill (fun _ => none) registrations)).or (repeatAt? registrations r) := by
  rw [fill_append]
  refine failure?_bind fun filled hfill => ?_
  have hfilled : (filled r.category).isSome ↔ r.category ∈ registrations.map (·.category) := by
    rw [s.fill_find hfill]
    simp
  simp only [fill, hfilled, repeatAt?]
  split <;> rfl

theorem failure?_fill_eq_none_iff {registrations : List Registration} :
    failure? (s.fill (fun _ => none) registrations) = none ↔
      (registrations.map (·.category)).Nodup := by
  induction registrations using List.reverseRecOn with
  | nil => simp [fill, failure?]
  | append_singleton registrations r ih =>
    rw [failure?_fill_concat, Option.or_eq_none_iff, ih, List.map_append, List.map_singleton,
      ← List.concat_eq_append, List.nodup_concat, repeatAt?]
    simp [and_comm]

theorem failure?_fill_eq_some_iff {registrations : List Registration} {cause : LanguageError} :
    failure? (s.fill (fun _ => none) registrations) = some cause ↔
      ∃ c, FirstRepeated registrations c ∧ cause = .duplicatePrototype c := by
  rw [scan_eq_some_iff (fun l => failure? (s.fill (fun _ => none) l)) repeatAt? rfl
    failure?_fill_concat]
  simp only [failure?_fill_eq_none_iff, repeatAt?, Option.ite_none_right_eq_some]
  constructor
  · rintro ⟨front, r, back, hsplit, hfront, hrepeated, ⟨⟩⟩
    exact ⟨r.category, ⟨front, r, back, hsplit, hfront, hrepeated, rfl⟩, rfl⟩
  · rintro ⟨_, ⟨front, r, back, hsplit, hfront, hrepeated, rfl⟩, rfl⟩
    exact ⟨front, r, back, hsplit, hfront, hrepeated, rfl⟩

theorem failure?_order : failure? s.order =
    s.priority.bind fun order => (priorityFault? [] order).map .invalidPriority := by
  rw [order]
  cases s.priority with
  | none => rfl
  | some order =>
    dsimp only [Option.bind_some]
    cases priorityFault? [] order <;> rfl

/-- The priority list is checked before the registrations. -/
theorem failure?_finish : failure? s.finish =
    (failure? s.order).or (failure? (s.fill (fun _ => none) s.registrations)) := by
  refine failure?_bind fun order _ => ?_
  cases s.fill (fun _ => none) s.registrations <;> rfl

theorem failure?_order_eq_none_iff : failure? s.order = none ↔
    ∀ order, s.priority = some order → SoundOrder order := by
  rw [failure?_order, Option.bind_eq_none_iff]
  simp only [Option.map_eq_none_iff, priorityFault?_eq_none_iff]

theorem failure?_order_eq_some_iff {cause : LanguageError} : failure? s.order = some cause ↔
    ∃ order fault, s.priority = some order ∧ FirstFaulty order fault ∧
      cause = .invalidPriority fault := by
  rw [failure?_order, Option.bind_eq_some_iff]
  simp only [Option.map_eq_some_iff, priorityFault?_eq_some_iff, exists_and_left, @eq_comm _ cause]

theorem finish_eq_ok_iff : (∃ l, s.finish = .ok l) ↔
    (∀ order, s.priority = some order → SoundOrder order) ∧
      (s.registrations.map (·.category)).Nodup := by
  rw [← failure?_eq_none_iff, failure?_finish, Option.or_eq_none_iff, failure?_order_eq_none_iff,
    failure?_fill_eq_none_iff]

theorem finish_eq_error_iff {cause : LanguageError} : s.finish = .error cause ↔
    (∃ order fault, s.priority = some order ∧ FirstFaulty order fault ∧
      cause = .invalidPriority fault) ∨
    ((∀ order, s.priority = some order → SoundOrder order) ∧
      ∃ c, FirstRepeated s.registrations c ∧ cause = .duplicatePrototype c) := by
  rw [← failure?_eq_some_iff, failure?_finish, Option.or_eq_some_iff, failure?_order_eq_some_iff,
    failure?_order_eq_none_iff, failure?_fill_eq_some_iff]

theorem find?_of_mem {registrations : List Registration} {r : Registration}
    (hnodup : (registrations.map (·.category)).Nodup) (hr : r ∈ registrations) :
    registrations.find? (fun q => q.category = r.category) = some r := by
  cases hfind : registrations.find? (fun q => q.category = r.category) with
  | none =>
    have hother := List.find?_eq_none.mp hfind r hr
    simp at hother
  | some q =>
    have hsame : q.category = r.category := by simpa using List.find?_some hfind
    rw [List.inj_on_of_nodup_map hnodup (List.mem_of_find?_eq_some hfind) hr hsame]

/-- A slot holds what is registered for it. -/
theorem prototype?_of_mem {l : Language} (h : s.finish = .ok l) {r : Registration}
    (hr : r ∈ s.registrations) : l.prototype? r.category = some (s.prototype r) := by
  obtain ⟨-, hnodup⟩ := finish_eq_ok_iff.mp ⟨l, h⟩
  obtain rfl := finish_spec h
  exact congrArg (Option.map s.prototype) (find?_of_mem hnodup hr)

end Setup

/-! ### What is built -/

namespace Language

/-- A language as the steps ask for it. Tables and tries hold all the words that the steps bring,
early or late. -/
structure SetUpBy (l : Language) (name : Text) (steps : List SetupStep) : Prop where
  name : l.name = name
  keywords : l.keywords = table steps .keywords
  operators : l.operators = table steps .operators
  fromIdentifiers : l.keywordsFromIdentifiers = (lastFromIdentifiers? steps).getD false
  priority : l.priority = (lastOrder? steps).getD Category.tried
  sound : SoundOrder l.priority
  trialOrder : l.trialOrder =
    if l.keywordsFromIdentifiers then l.priority.filter (· ≠ .keyword) else l.priority
  slots : ∀ c, (l.prototype? c).isSome ↔ c ∈ (registrations steps).map (·.category)
  machines : ∀ c machine style, ⟨c, .machine machine, style⟩ ∈ registrations steps →
    l.prototype? c = some ⟨c, machine, style⟩
  tries : ∀ c t style, ⟨c, .literals t, style⟩ ∈ registrations steps →
    l.prototype? c = some ⟨c, .ofLiterals (table steps t), style⟩

theorem trialOrder_eq {l : Language} (h : SoundOrder l.priority) : l.trialOrder =
    if l.keywordsFromIdentifiers then l.priority.filter (· ≠ .keyword) else l.priority := by
  have hknown : ∀ c ∈ l.priority, c ≠ .unknown := fun c hc hunknown => h.1 (hunknown ▸ hc)
  rw [trialOrder]
  split
  · next henabled =>
    refine List.filter_congr fun c hc => ?_
    simp [hknown c hc, henabled]
  · next hdisabled =>
    refine List.filter_eq_self.mpr fun c hc => ?_
    simp [hknown c hc, hdisabled]

theorem build_setUpBy {name : Text} {steps : List SetupStep} {l : Language}
    (h : Language.build name steps = .ok l) : l.SetUpBy name steps := by
  rw [Language.build, run_eq] at h
  have hslot := fun r hr => Setup.prototype?_of_mem (r := r) h hr
  obtain ⟨hlisted, -⟩ := Setup.finish_eq_ok_iff.mp ⟨l, h⟩
  obtain rfl := Setup.finish_spec h
  have hsound : SoundOrder ((lastOrder? steps).getD Category.tried) := by
    cases hlast : lastOrder? steps with
    | none => exact soundOrder_tried
    | some order => exact hlisted order hlast
  refine ⟨rfl, rfl, rfl, rfl, rfl, hsound, trialOrder_eq hsound, fun c => by simp, ?_, ?_⟩
  · intro c machine style hr
    exact hslot _ hr
  · intro c t style hr
    refine (hslot _ hr).trans ?_
    cases t <;> rfl

/-- Building fails exactly with the first bad entry of the last priority list or, where that list is
sound, with the first category that is registered again; a language that comes out is as the steps
ask for it. -/
theorem build_error_or_setUp (name : Text) (steps : List SetupStep) :
    ((∃ cause, Language.build name steps = .error cause) ↔
      (∃ order, lastOrder? steps = some order ∧ (.unknown ∈ order ∨ ¬ order.Nodup)) ∨
        ¬ ((registrations steps).map (·.category)).Nodup) ∧
    (∀ cause, Language.build name steps = .error cause ↔
      (∃ order fault, lastOrder? steps = some order ∧ FirstFaulty order fault ∧
        cause = .invalidPriority fault) ∨
      ((∀ order, lastOrder? steps = some order → SoundOrder order) ∧
        ∃ c, FirstRepeated (registrations steps) c ∧ cause = .duplicatePrototype c)) ∧
    ∀ l, Language.build name steps = .ok l → l.SetUpBy name steps := by
  refine ⟨?_, ?_, fun l h => build_setUpBy h⟩
  · rw [← failure?_ne_none_iff, Ne, failure?_eq_none_iff, Language.build, run_eq,
      Setup.finish_eq_ok_iff]
    simp only [SoundOrder, not_and_or, not_forall, not_not, exists_prop]
  · intro cause
    rw [Language.build, run_eq]
    exact Setup.finish_eq_error_iff

/-- Blanks are registered again, and that is told unless the last priority list is at fault. -/
def blanksAgain : List SetupStep := tableLast ++ [.prototype ⟨.space, .literals .operators, .plain⟩]

theorem build_error_or_setUp_sample :
    Language.build (text "C") blanksAgain = .error (.duplicatePrototype .space) ∧
      Language.build (text "C") (blanksAgain ++ [.priority [.char, .space, .char, .unknown]]) =
        .error (.invalidPriority (.repeated .char)) ∧
      ∃ l, Language.build (text "C") tableLast = .ok l ∧ l.SetUpBy (text "C") tableLast ∧
        l.trialOrder = [.identifier, .space] := by
  obtain ⟨-, hagain, -⟩ := build_error_or_setUp (text "C") blanksAgain
  obtain ⟨-, hlisted, -⟩ := build_error_or_setUp (text "C")
    (blanksAgain ++ [.priority [.char, .space, .char, .unknown]])
  obtain ⟨-, -, hsetUp⟩ := build_error_or_setUp (text "C") tableLast
  have hrepeated : FirstRepeated (registrations blanksAgain) .space :=
    ⟨[⟨.keyword, .literals .keywords, .plain⟩, ⟨.space, .machine .initial, .plain⟩],
      ⟨.space, .literals .operators, .plain⟩, [], rfl, by decide, by decide, rfl⟩
  have hsound : ∀ order, lastOrder? blanksAgain = some order → SoundOrder order := by
    rintro order ⟨⟩
    exact ⟨by decide, by decide⟩
  have hfaulty : FirstFaulty [.char, .space, .char, .unknown] (.repeated .char) :=
    ⟨[.char, .space], .char, [.unknown], rfl, ⟨by decide, by decide⟩, .inr ⟨by decide, rfl⟩⟩
  exact ⟨(hagain _).mpr (.inr ⟨hsound, .space, hrepeated, rfl⟩),
    (hlisted _).mpr (.inl ⟨_, _, rfl, hfaulty, rfl⟩), _, rfl, hsetUp _ rfl, rfl⟩

end Language

end TokenGraph
