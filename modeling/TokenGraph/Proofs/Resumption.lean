import TokenGraph.Proofs.Lookahead

/-!
# Taking up an analysis again

When a text is changed behind a beginning, the tokens whose trials did not look beyond that
beginning are still right, and the analysis can be taken up behind them.
-/

namespace TokenGraph.Analyzer

variable {a : Analyzer} {s : Text} {i n : Nat}

/-- At an offset of a source all that are tried stop in front of another offset. -/
def StopsWithin (a : Analyzer) (s : Text) (i n : Nat) : Prop :=
  ∀ p, Tried a.language.operators (s.drop i) a.trials p →
    i + (p.scan a.language.operators (s.drop i)).consumed.length < n

/-- Where nothing is tried at all, a single character is looked at. -/
structure LooksWithin (a : Analyzer) (s : Text) (i n : Nat) : Prop where
  stops : a.StopsWithin s i n
  untried : a.trials = [] → i < n

theorem LooksWithin.lt (h : a.LooksWithin s i n) : i < n := by
  cases htrials : a.trials with
  | nil => exact h.untried htrials
  | cons p trials =>
    have hp := h.stops p (by rw [htrials]; exact .head)
    omega

theorem LooksWithin.of_append {w : Text}
    (h : a.LooksWithin (w ++ s) (w.length + i) (w.length + n)) : a.LooksWithin s i n := by
  have hdrop : (w ++ s).drop (w.length + i) = s.drop i := List.drop_length_add_append i
  constructor
  · intro p hp
    have hstop := h.stops p (by rwa [hdrop])
    rw [hdrop] at hstop
    omega
  · intro htrials
    have hlt := h.untried htrials
    omega

/-- A token reaches no further than the trials at its place have read, or has one character. -/
private theorem LooksWithin.headToken_length {c : Char} {rest : Text}
    (h : a.LooksWithin (c :: rest) 0 n) : (a.headToken c rest).text.length ≤ n := by
  have hstops : ∀ p, Tried a.language.operators (c :: rest) a.trials p →
      (p.scan a.language.operators (c :: rest)).consumed.length < n := by
    intro p hp
    simpa using h.stops p hp
  cases hcontest : contest a.language.operators (c :: rest) a.trials [] with
  | won p w =>
    obtain ⟨-, hscan, before, after, htrials, hbefore⟩ := contest_won hcontest
    have hw := hstops p ⟨before, after, htrials, hbefore⟩
    rw [hscan] at hw
    rw [headToken_of_won hcontest, acceptedToken_text]
    exact Nat.le_of_lt hw
  | lost w =>
    obtain ⟨hloses, -, -, hsource⟩ := contest_lost hcontest
    rw [headToken_of_lost hcontest]
    rcases hsource with rfl | ⟨q, hq, rfl⟩
    · exact h.lt
    · have hread := hstops q (.of_mem hloses hq)
      have hpos := h.lt
      dsimp only
      split
      · exact Nat.succ_le_of_lt hpos
      · exact Nat.le_of_lt hread

private theorem LooksWithin.headToken_eq {c : Char} {u v : Text}
    (h : a.LooksWithin (c :: (u ++ v)) 0 (c :: u).length) (v' : Text) :
    a.headToken c (u ++ v') = a.headToken c (u ++ v) := by
  apply headToken_congr
  intro p hp
  have hstop := h.stops p hp
  rw [Nat.zero_add, List.drop_zero] at hstop
  exact Scanner.runFrom_append_congr (v := c :: u) hstop v'

/-- One token after the other is cut from the beginning that both texts share. -/
private theorem analyze_append_take (u v v' : Text) (k : Nat)
    (h : ∀ before t after, a.analyze (u ++ v) = before ++ t :: after → before.length < k →
      a.LooksWithin (u ++ v) (before.flatMap Token.text).length u.length) :
    ∃ left, u = ((a.analyze (u ++ v)).take k).flatMap Token.text ++ left ∧
      a.analyze (u ++ v') = (a.analyze (u ++ v)).take k ++ a.analyze (left ++ v') := by
  induction k generalizing u with
  | zero => exact ⟨u, rfl, rfl⟩
  | succ k ih =>
    cases htokens : a.analyze (u ++ v) with
    | nil => exact ⟨u, rfl, rfl⟩
    | cons t tokens =>
      have hhead : a.LooksWithin (u ++ v) 0 u.length := h [] t tokens htokens (Nat.succ_pos k)
      cases u with
      | nil => exact absurd hhead.lt (Nat.lt_irrefl 0)
      | cons c u =>
        obtain ⟨left, hleft⟩ := List.prefix_of_prefix_length_le (a.headToken_isPrefix c (u ++ v))
          (List.prefix_append (c :: u) v) hhead.headToken_length
        have hsource := analyze_cons_append hleft rfl
        have hchanged := analyze_cons_append hleft (hhead.headToken_eq v')
        rw [List.cons_append] at h htokens
        rw [hsource, List.cons.injEq] at htokens
        obtain ⟨rfl, hrest⟩ := htokens
        have hlooks : ∀ before t after, a.analyze (left ++ v) = before ++ t :: after →
            before.length < k →
            a.LooksWithin (left ++ v) (before.flatMap Token.text).length left.length := by
          intro before t after hsplit hk
          have hlater := h (a.headToken c (u ++ v) :: before) t after
            (by rw [hsource, hsplit, List.cons_append]) (Nat.succ_lt_succ hk)
          rw [← List.cons_append, ← hleft, List.append_assoc, List.flatMap_cons,
            List.length_append, List.length_append] at hlater
          exact hlater.of_append
        obtain ⟨last, hlast, hresumed⟩ := ih left hlooks
        rw [hrest] at hlast hresumed
        refine ⟨last, ?_, ?_⟩
        · rw [List.take_succ_cons, List.flatMap_cons, List.append_assoc, ← hlast, hleft]
        · rw [List.cons_append, hchanged, hresumed, List.take_succ_cons, List.cons_append]

/-- Tokens whose trials did not look beyond a beginning that two sources share are tokens of both,
and behind them the analysis of the other source goes on as if it began there. -/
theorem analyze_resumes (a : Analyzer) {u s s' : Text} (hs : u <+: s) (hs' : u <+: s') {k : Nat}
    (h : ∀ before t after, a.analyze s = before ++ t :: after → before.length < k →
      a.LooksWithin s (before.flatMap Token.text).length u.length) :
    ∃ rest, s' = ((a.analyze s).take k).flatMap Token.text ++ rest ∧
      a.analyze s' = (a.analyze s).take k ++ a.analyze rest := by
  obtain ⟨v, rfl⟩ := hs
  obtain ⟨v', rfl⟩ := hs'
  obtain ⟨left, hleft, hresumed⟩ := analyze_append_take u v v' k h
  refine ⟨left ++ v', ?_, hresumed⟩
  rw [← List.append_assoc, ← hleft]

/-- The operator is read up to the word behind it, which may be changed. -/
theorem analyze_resumes_sample : ∃ l a, Language.build (text "Sample") sampleSteps = .ok l ∧
    Analyzer.ofLanguage l = .ok a ∧
    (∀ before t after, a.analyze (text "éé==é!") = before ++ t :: after → before.length < 2 →
      a.LooksWithin (text "éé==é!") (before.flatMap Token.text).length (text "éé==é").length) ∧
    ∃ rest, text "éé==éé" = text "éé==" ++ rest ∧
      a.analyze (text "éé==éé") =
        [⟨.keyword, text "éé", .plain⟩, ⟨.operator, text "==", .plain⟩] ++ a.analyze rest := by
  have hsample : ∃ l a, Language.build (text "Sample") sampleSteps = .ok l ∧
      Analyzer.ofLanguage l = .ok a ∧ a.trials ≠ [] ∧
      a.analyze (text "éé==é!") = [
        ⟨.keyword, text "éé", .plain⟩, ⟨.operator, text "==", .plain⟩,
        ⟨.unknown, text "é", .unknownDefault⟩, ⟨.unknown, text "!", .unknownDefault⟩] ∧
      ∀ p ∈ a.trials, (p.scan a.language.operators (text "éé==é!")).consumed.length ≤ 2 ∧
        (p.scan a.language.operators (text "==é!")).consumed.length ≤ 2 :=
    ⟨_, _, rfl, rfl, by simp, by decide +kernel, by decide +kernel⟩
  obtain ⟨l, a, hl, ha, htrials, htokens, hread⟩ := hsample
  have hlooks : ∀ before t after, a.analyze (text "éé==é!") = before ++ t :: after →
      before.length < 2 →
      a.LooksWithin (text "éé==é!") (before.flatMap Token.text).length (text "éé==é").length := by
    intro before t after hsplit hk
    rw [htokens] at hsplit
    refine ⟨?_, fun hnone => absurd hnone htrials⟩
    rintro p ⟨left, right, horder, -⟩
    obtain ⟨hstart, hnext⟩ := hread p (by simp [horder])
    match before with
    | [] => exact Nat.lt_of_le_of_lt (Nat.add_le_add_left hstart 0) (by decide)
    | [first] =>
      obtain ⟨rfl, -⟩ := List.cons.inj hsplit
      exact Nat.lt_of_le_of_lt (Nat.add_le_add_left hnext 2) (by decide)
    | _ :: _ :: _ =>
      simp only [List.length_cons] at hk
      omega
  have hshared : text "éé==é" <+: text "éé==é!" := by decide
  have hchanged : text "éé==é" <+: text "éé==éé" := by decide
  have hresumed := analyze_resumes a hshared hchanged hlooks
  rw [htokens] at hresumed
  exact ⟨l, a, hl, ha, hlooks, hresumed⟩

/-- Without trials a token is a character that nobody has looked at, so that the places at which
trials stop say nothing. -/
theorem analyze_untried_not_resumed : ∃ l a,
    Language.build (text "Bare") [.priority []] = .ok l ∧ Analyzer.ofLanguage l = .ok a ∧
    (∀ before t after, a.analyze (text "a") = before ++ t :: after → before.length < 1 →
      a.StopsWithin (text "a") (before.flatMap Token.text).length (text "").length) ∧
    ∀ rest, a.analyze (text "b") ≠ (a.analyze (text "a")).take 1 ++ a.analyze rest := by
  have hbare : ∃ l a, Language.build (text "Bare") [.priority []] = .ok l ∧
      Analyzer.ofLanguage l = .ok a ∧ a.trials = [] ∧
      a.analyze (text "a") = [⟨.unknown, text "a", .unknownDefault⟩] ∧
      a.analyze (text "b") = [⟨.unknown, text "b", .unknownDefault⟩] :=
    ⟨_, _, rfl, rfl, rfl, rfl, rfl⟩
  obtain ⟨l, a, hl, ha, htrials, hfirst, hother⟩ := hbare
  refine ⟨l, a, hl, ha, ?_, ?_⟩
  · rintro - - - - - p ⟨before, after, horder, -⟩
    simp [htrials] at horder
  · intro rest h
    rw [hfirst, hother] at h
    have hchar : text "b" = text "a" := congrArg Token.text (List.cons.inj h).1
    revert hchar
    decide

end TokenGraph.Analyzer
