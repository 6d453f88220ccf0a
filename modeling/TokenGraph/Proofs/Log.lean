import TokenGraph.Proofs.ByteOrder
import TokenGraph.Proofs.Trials

/-!
# The log of an analysis

Every token is reported by one event, in the order of the tokens: it is traced where an automaton
has accepted it, and otherwise named with its language and the byte at which it begins. The log
alone tells the source, and the categories and texts that it was cut into.
-/

namespace TokenGraph

theorem length_bytes (s : Text) : (bytes s).length = byteSize s := by
  induction s with
  | nil => rfl
  | cons c s ih =>
    rw [bytes, List.flatMap_cons, List.length_append, String.length_utf8EncodeChar, byteSize, ← ih]
    rfl

theorem bytes_append (s t : Text) : bytes (s ++ t) = bytes s ++ bytes t := List.flatMap_append

namespace Event

/-- The text that an event of an analysis reports. -/
def consumed : Event → Text
  | accepted _ w => w
  | unrecognized _ _ w => w
  | _ => []

/-- The category and the text of the token that an event reports. -/
def token? : Event → Option (Category × Text)
  | accepted c w => some (c, w)
  | unrecognized _ _ w => some (.unknown, w)
  | _ => none

end Event

namespace Language

/-- The event of a token that is cut from the front of a text, which begins `offset` bytes into the
source. -/
inductive Records (l : Language) (offset : Nat) (s : Text) (t : Token) (e : Event) : Prop
  | accepted {c : Category} (hc : c ∈ l.trialOrder) (hw : l.Accepts c s t.text)
      (hcategory : t.category = if c = .identifier ∧ t.text ∈ l.keywords then .keyword else c)
      (hevent : e = .accepted t.category t.text)
      (hreport : e.level = .trace ∧ e.message = "accepted")
  | unrecognized (hnone : ∀ c ∈ l.trialOrder, ∀ w, ¬ l.Accepts c s w)
      (hcategory : t.category = .unknown) (hevent : e = .unrecognized l.name offset t.text)
      (hlevel : e.level = .debug)

/-- The events of tokens that are cut one after the other. -/
inductive RecordsAll (l : Language) : (offset : Nat) → Text → List Token → List Event → Prop
  | nil {offset : Nat} : RecordsAll l offset [] [] []
  | cons {offset : Nat} {rest : Text} {t : Token} {tokens : List Token} {e : Event}
      {events : List Event} (h : l.Records offset (t.text ++ rest) t e)
      (hrest : RecordsAll l (offset + (bytes t.text).length) rest tokens events) :
      RecordsAll l offset (t.text ++ rest) (t :: tokens) (e :: events)

variable {l : Language} {offset : Nat} {s : Text} {t : Token} {e : Event} {tokens : List Token}
  {events : List Event}

theorem Records.token? (h : l.Records offset s t e) : e.token? = some (t.category, t.text) := by
  cases h with
  | accepted _ _ _ hevent => rw [hevent, Event.token?]
  | unrecognized _ hcategory hevent => rw [hevent, Event.token?, hcategory]

theorem Records.consumed (h : l.Records offset s t e) : e.consumed = t.text := by
  cases h with
  | accepted _ _ _ hevent => rw [hevent, Event.consumed]
  | unrecognized _ _ hevent => rw [hevent, Event.consumed]

namespace RecordsAll

theorem length_eq (h : l.RecordsAll offset s tokens events) : events.length = tokens.length := by
  induction h with
  | nil => rfl
  | cons _ _ ih => rw [List.length_cons, List.length_cons, ih]

theorem flatMap_consumed (h : l.RecordsAll offset s tokens events) :
    events.flatMap Event.consumed = s := by
  induction h with
  | nil => rfl
  | cons h _ ih => rw [List.flatMap_cons, h.consumed, ih]

theorem filterMap_token? (h : l.RecordsAll offset s tokens events) :
    events.filterMap Event.token? = tokens.map fun t => (t.category, t.text) := by
  induction h with
  | nil => rfl
  | cons h _ ih => rw [List.filterMap_cons_some h.token?, List.map_cons, ih]

/-- The event of a token stands at the place of the token. -/
theorem exists_records {before after : List Token}
    (h : l.RecordsAll offset s (before ++ t :: after) events) :
    ∃ e, events[before.length]? = some e ∧
      l.Records (offset + (bytes (before.flatMap Token.text)).length)
        (s.drop (before.flatMap Token.text).length) t e := by
  induction before generalizing offset s events with
  | nil =>
    cases h with
    | cons h _ => exact ⟨_, rfl, h⟩
  | cons u before ih =>
    cases h with
    | @cons _ rest _ _ _ events _ hrest =>
      obtain ⟨e, he, hrecords⟩ := ih hrest
      refine ⟨e, he, ?_⟩
      rw [List.flatMap_cons, bytes_append, List.length_append, List.length_append, ← Nat.add_assoc,
        List.drop_length_add_append]
      exact hrecords

end RecordsAll

end Language

namespace Analyzer

variable {l : Language} {a : Analyzer}

/-- The token at the head of a text is reported as it was found. -/
theorem records_next (hl : l.WellFiled) (ha : Analyzer.ofLanguage l = .ok a) (offset : Nat)
    (c : Char) (rest : Text) :
    l.Records offset (c :: rest) (a.next offset c rest).1 (a.next offset c rest).2 := by
  obtain ⟨rfl, hslots, -⟩ := ofLanguage_spec ha
  cases hcontest : contest a.language.operators (c :: rest) a.trials [] with
  | won p w =>
    obtain ⟨hne, hscan, before, after, htrials, -⟩ := contest_won hcontest
    have hp : p ∈ a.trials := by simp [htrials]
    obtain ⟨k, hk, hslot⟩ := (mem_trials ha).mp hp
    have hcategory := acceptedToken_category ha hp w
    rw [hl k p hslot] at hcategory
    rw [next, hcontest, award]
    refine .accepted hk ?_ ?_ rfl ⟨rfl, rfl⟩
    · rw [acceptedToken_text]
      exact ⟨hne, p, hslot, hscan⟩
    · rw [acceptedToken_text]
      exact hcategory
  | lost w =>
    obtain ⟨hloses, -⟩ := contest_lost hcontest
    rw [next, hcontest, award]
    exact .unrecognized (not_accepts_of_not_wins hslots hloses) rfl rfl rfl

/-- One event for one token, from the front of the source to its end. -/
theorem recordsAll_tokensFrom (hl : l.WellFiled) (ha : Analyzer.ofLanguage l = .ok a)
    (offset : Nat) (s : Text) :
    l.RecordsAll offset s (a.tokensFrom 0 offset s).value (a.tokensFrom 0 offset s).events := by
  -- What a token leaves of the text is shorter, but it is not its tail.
  induction hn : s.length using Nat.strongRecOn generalizing offset s with
  | ind n ih =>
    cases s with
    | nil => exact .nil
    | cons c rest =>
      obtain ⟨hne, left, hleft⟩ := a.next_text offset c rest
      have hhead := records_next hl ha offset c rest
      have hdrop : (c :: rest).drop (a.next offset c rest).1.text.length = left := by
        rw [← hleft, List.drop_left]
      have hshorter : left.length < n := by
        rw [← hn, ← hleft, List.length_append]
        exact Nat.lt_add_of_pos_left (List.length_pos_iff.mpr hne)
      have hrest := ih left.length hshorter
        (offset + (bytes (a.next offset c rest).1.text).length) left rfl
      rw [tokensFrom_cons]
      dsimp only
      rw [hdrop, ← length_bytes]
      rw [← hleft] at hhead ⊢
      exact .cons hhead hrest

/-- An analysis reports every token with one event, at the place of the token: what an automaton
has accepted is traced with its final category, and what none has accepted is named with the
language and the number of bytes before it. The events alone tell the source and its tokens. -/
theorem analyze_recorded {name : Text} {steps : List SetupStep}
    (hl : Language.build name steps = .ok l) (ha : Analyzer.ofLanguage l = .ok a) (s : Text) :
    (a.analyzeLogged s).events.length = (a.analyze s).length ∧
    (∀ before t after, a.analyze s = before ++ t :: after →
      ∃ e, (a.analyzeLogged s).events[before.length]? = some e ∧
        l.Records (bytes (before.flatMap Token.text)).length
          (s.drop (before.flatMap Token.text).length) t e) ∧
    (a.analyzeLogged s).events.flatMap Event.consumed = s ∧
    (a.analyze s).map (fun t => (t.category, t.text)) =
      (a.analyzeLogged s).events.filterMap Event.token? := by
  have hall : l.RecordsAll 0 s (a.analyze s) (a.analyzeLogged s).events :=
    recordsAll_tokensFrom (Language.build_wellFiled hl) ha 0 s
  refine ⟨hall.length_eq, ?_, hall.flatMap_consumed, hall.filterMap_token?.symm⟩
  intro before t after hsplit
  rw [hsplit] at hall
  obtain ⟨e, he, hrecords⟩ := hall.exists_records
  rw [Nat.zero_add] at hrecords
  exact ⟨e, he, hrecords⟩

/-- A keyword and an operator are traced; the word behind them begins at the seventh byte. -/
theorem analyze_recorded_sample : ∃ l a, Language.build (text "Sample") sampleSteps = .ok l ∧
    Analyzer.ofLanguage l = .ok a ∧
    (a.analyzeLogged (text "éé==é!")).events = [
      .accepted .keyword (text "éé"), .accepted .operator (text "=="),
      .unrecognized (text "Sample") 6 (text "é"), .unrecognized (text "Sample") 8 (text "!")] ∧
    l.Records 6 (text "é!") ⟨.unknown, text "é", .unknownDefault⟩
      (.unrecognized (text "Sample") 6 (text "é")) ∧
    (a.analyzeLogged (text "éé==é!")).events.flatMap Event.consumed = text "éé==é!" := by
  have hsample : ∃ l a, Language.build (text "Sample") sampleSteps = .ok l ∧
      Analyzer.ofLanguage l = .ok a ∧
      a.analyze (text "éé==é!") =
        [⟨.keyword, text "éé", .plain⟩, ⟨.operator, text "==", .plain⟩] ++
          ⟨.unknown, text "é", .unknownDefault⟩ :: [⟨.unknown, text "!", .unknownDefault⟩] ∧
      (a.analyzeLogged (text "éé==é!")).events = [
        .accepted .keyword (text "éé"), .accepted .operator (text "=="),
        .unrecognized (text "Sample") 6 (text "é"), .unrecognized (text "Sample") 8 (text "!")] :=
    ⟨_, _, rfl, rfl, by decide +kernel, by decide +kernel⟩
  obtain ⟨l, a, hl, ha, htokens, hevents⟩ := hsample
  obtain ⟨-, hplaces, hjoined, -⟩ := analyze_recorded hl ha (text "éé==é!")
  obtain ⟨e, he, hrecords⟩ := hplaces _ _ _ htokens
  rw [hevents] at he
  cases he
  exact ⟨l, a, hl, ha, hevents, hrecords, hjoined⟩

end Analyzer

end TokenGraph
