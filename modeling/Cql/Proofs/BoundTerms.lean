/-
The number of bind markers of a statement.

Whatever a list of tokens gives, the markers of its statement rise and are below the number of bound
terms, and there are no more bound terms than question marks.  If nothing was reported, every token in
front of the end of input was passed, so each of its question marks counts.  An end of input further in
front than the last token hides what comes after it.

* `State.Passes.marks_eq` — passed markers are numbered one after another;
* `Parser.marks_of_reads` — the markers of an accepted list of tokens;
* `Parser.markers_of_outcome` — the markers of a statement and the number of its bound
  terms.
-/
import Cql.Proofs.Acceptance
import Cql.Proofs.Numbering

namespace Cql

/-- How many bind markers there are among the tokens. -/
def questionMarks (tokens : List Token) : Nat :=
  tokens.countP fun token => token.kind = .punctuation .questionMark

theorem questionMarks_cons (token : Token) (tokens : List Token) :
    questionMarks (token :: tokens) =
      questionMarks tokens + if token.kind = .punctuation .questionMark then 1 else 0 := by
  simp [questionMarks, List.countP_cons]

theorem length_marks_number (ordinal : Nat) (tokens : List Token) :
    (marks (number ordinal (tokens.map (·.toLexeme)))).length = questionMarks tokens := by
  induction tokens generalizing ordinal with
  | nil => rfl
  | cons token tokens ih =>
    rw [questionMarks_cons, ← ih (ordinalAfter token.kind ordinal), List.map_cons, number]
    by_cases isMarker : token.kind = .punctuation .questionMark
    · simp [marks, Numbered.kind, isMarker]
    · simp [marks, Numbered.kind, isMarker]

namespace State

/-- Passing tokens numbers the bind markers among them, one after another. -/
theorem Passes.marks_eq {state after : State} {items : List Numbered}
    (h : state.Passes items after) :
    marks items = List.range' state.markers.count (marks items).length ∧
      after.markers.count = state.markers.count + (marks items).length := by
  induction h with
  | nothing state => exact ⟨rfl, rfl⟩
  | @one state after items inside others ih =>
    obtain ⟨numbered, counted⟩ := ih
    by_cases isMarker : state.kind = .punctuation .questionMark
    · have one_more : state.next.markers.count = state.markers.count + 1 := by
        simp [next, ordinalAfter, isMarker]
      have shown : marks (⟨state.lexeme 0, state.markers.count⟩ :: items) =
          state.markers.count :: marks items := by
        have : (state.lexeme 0).kind = .punctuation .questionMark := isMarker
        simp [marks, Numbered.kind, this]
      rw [one_more] at numbered counted
      rw [shown, List.length_cons, List.range'_succ, ← numbered, counted]
      exact ⟨rfl, by omega⟩
    · -- Any other token leaves the counter alone.
      have same : state.next.markers.count = state.markers.count := by
        simp [next, ordinalAfter, isMarker]
      have hidden : marks (⟨state.lexeme 0, state.markers.count⟩ :: items) = marks items := by
        have : ¬ (state.lexeme 0).kind = .punctuation .questionMark := isMarker
        simp [marks, Numbered.kind, this]
      rw [same] at numbered counted
      rw [hidden]
      exact ⟨numbered, counted⟩

/-- Each marker that is counted is a token less ahead. -/
theorem questionMarks_kept : Kept fun first second =>
    second.markers.count + questionMarks second.stream.ahead ≤
      first.markers.count + questionMarks first.stream.ahead where
  refl _ := Nat.le_refl _
  trans first second := Nat.le_trans second first
  advance state := by
    cases ahead : state.stream.ahead with
    | nil => simp [advance, TokenStream.advance, ahead]
    | cons token rest =>
      rw [ahead_advance ahead, questionMarks_cons]
      exact Nat.add_le_add_left (Nat.le_add_right ..) _
  number state isMarker := by
    have inside : state.kind ≠ .endOfInput := by
      rw [kind, isMarker]
      simp
    obtain ⟨token, rest, ahead, current⟩ := ahead_of_inside inside
    rw [current] at isMarker
    have : state.advance.stream.ahead = rest := ahead_advance ahead
    rw [ahead, questionMarks_cons, if_pos isMarker]
    simp only [this, BindMarkers.next]
    omega

end State

namespace Parser

theorem questionMarks_start (tokens : List Token) :
    questionMarks (ofTokens tokens).start.stream.ahead ≤ questionMarks tokens :=
  (TokenStream.ahead_ofTokens_prefix tokens).sublist.countP_le

/-- A statement comes from a run of the query that came to it. -/
theorem statement_eq_some_iff {parser : Parser} {parsed : ParsedStatement} :
    parser.outcome.statement = some parsed ↔ ∃ statement place,
      (Grammar.query.run parser.start).result = .ok (statement, place) ∧
        parsed = ⟨statement, (Grammar.query.run parser.start).state.markers.count,
          place.span parser.stream⟩ := by
  have found : parser.outcome.statement =
      parser.statement? (Grammar.query.run parser.start) := rfl
  rw [found]
  unfold statement?
  cases (Grammar.query.run parser.start).result with
  | error halt => simp
  | ok read =>
    constructor
    · intro same
      exact ⟨read.1, read.2, rfl, (Option.some.inj same).symm⟩
    · rintro ⟨statement, place, same, rfl⟩
      obtain rfl := Except.ok.inj same
      rfl

/-- What is accepted was passed as a whole, and its bind markers are numbered from zero. -/
theorem marks_of_reads {tokens : List Token} {statement : Statement} {place : Place} {after : State}
    (reads : Grammar.query.Reads (ofTokens tokens).start (statement, place) after) :
    marks (Language.sentence tokens) = List.range after.markers.count := by
  -- An accepted query ends at an end of input, and there is only one stretch up to the first.
  obtain ⟨atEnd, items, passes, -⟩ := Grammar.sound_query reads
  obtain ⟨last, atEnd', passes'⟩ := State.passes_sentence tokens
  obtain ⟨rfl, -⟩ := passes'.unique atEnd' passes atEnd
  obtain ⟨numbered, counted⟩ := passes.marks_eq
  have zero : (ofTokens tokens).start.markers.count = 0 := rfl
  rw [zero] at numbered counted
  rw [counted, Nat.zero_add, List.range_eq_range']
  exact numbered

/-- The bind markers of a statement, in the order of the grammar, rise to the number of its bound
terms.  There are no more bound terms than bind markers among the tokens; and if nothing was reported,
they are as many as stand in front of the first end of input. -/
theorem markers_of_outcome (tokens : List Token) (parsed : ParsedStatement)
    (found : (ofTokens tokens).outcome.statement = some parsed) :
    parsed.statement.markers.Pairwise (· < ·) ∧
      (∀ ordinal ∈ parsed.statement.markers, ordinal < parsed.boundTerms) ∧
      parsed.boundTerms ≤ questionMarks tokens ∧
      ((ofTokens tokens).outcome.diagnostics = [] → parsed.boundTerms =
        questionMarks (tokens.takeWhile fun token => token.kind ≠ .endOfInput)) := by
  -- That they rise and are few holds of every run, with or without reports.
  have rises : Ascending 0 parsed.statement.markers parsed.boundTerms := by
    obtain ⟨statement, place, result, rfl⟩ := statement_eq_some_iff.1 found
    exact Grammar.adds_query [] (ofTokens tokens).start _ (Nat.le_refl 0) result
  have bounded : parsed.boundTerms ≤ questionMarks tokens := by
    obtain ⟨statement, place, -, rfl⟩ := statement_eq_some_iff.1 found
    have kept := Grammar.query.run_keeps State.questionMarks_kept (ofTokens tokens).start
    have start := questionMarks_start tokens
    have zero : (ofTokens tokens).start.markers.count = 0 := rfl
    dsimp only
    omega
  refine ⟨rises.pairwise, fun ordinal mem => (rises.bounds ordinal mem).2, bounded, fun silent => ?_⟩
  -- Without a report the query was accepted, so the tokens that it passed are known.
  have success : (ofTokens tokens).outcome.isSuccess = true := by
    simp [Outcome.isSuccess, found, silent]
  obtain ⟨-, place, after, reads, same⟩ := succeeds_iff.1 ⟨success, found⟩
  have counted := congrArg List.length (marks_of_reads reads)
  rw [Language.sentence, length_marks_number, List.length_range] at counted
  rw [same, counted]

/-- `DELETE a[?] FROM t WHERE b = ?`. -/
def markedDeletion : List Token :=
  [⟨⟨.keyword .DELETE, "DELETE"⟩, ⟨0, 6⟩⟩, ⟨⟨.identifier "a", "a"⟩, ⟨7, 8⟩⟩,
   ⟨⟨.punctuation .leftBracket, "["⟩, ⟨8, 9⟩⟩, ⟨⟨.punctuation .questionMark, "?"⟩, ⟨9, 10⟩⟩,
   ⟨⟨.punctuation .rightBracket, "]"⟩, ⟨10, 11⟩⟩, ⟨⟨.keyword .FROM, "FROM"⟩, ⟨12, 16⟩⟩,
   ⟨⟨.identifier "t", "t"⟩, ⟨17, 18⟩⟩, ⟨⟨.keyword .WHERE, "WHERE"⟩, ⟨19, 24⟩⟩,
   ⟨⟨.identifier "b", "b"⟩, ⟨25, 26⟩⟩, ⟨⟨.punctuation .equal, "="⟩, ⟨27, 28⟩⟩,
   ⟨⟨.punctuation .questionMark, "?"⟩, ⟨29, 30⟩⟩]

theorem markers_of_markedDeletion :
    ∃ parsed, (ofTokens markedDeletion).outcome.statement = some parsed ∧
      parsed.statement.markers = [0, 1] ∧ (∀ ordinal ∈ [0, 1], ordinal < parsed.boundTerms) ∧
      parsed.boundTerms = questionMarks markedDeletion := by
  refine ⟨_, rfl, rfl, ?_⟩
  obtain ⟨-, below, -, all⟩ := markers_of_outcome markedDeletion _ rfl
  exact ⟨below, all rfl⟩

/-- `USE ks` with a bind marker behind an end of input. -/
def hiddenMarker : List Token :=
  [⟨⟨.keyword .USE, "USE"⟩, ⟨0, 3⟩⟩, ⟨⟨.identifier "ks", "ks"⟩, ⟨4, 6⟩⟩,
   ⟨⟨.endOfInput, ""⟩, ⟨6, 6⟩⟩, ⟨⟨.punctuation .questionMark, "?"⟩, ⟨7, 8⟩⟩]

/-- Not every bind marker among the tokens counts, even if nothing is reported. -/
theorem boundTerms_of_hiddenMarker :
    ¬ ∀ tokens parsed, (ofTokens tokens).outcome.statement = some parsed →
      parsed.statement.markers.Pairwise (· < ·) ∧
        (∀ ordinal ∈ parsed.statement.markers, ordinal < parsed.boundTerms) ∧
        parsed.boundTerms ≤ questionMarks tokens ∧
        ((ofTokens tokens).outcome.diagnostics = [] → parsed.boundTerms = questionMarks tokens) := by
  intro claimed
  have counted := (claimed hiddenMarker _ rfl).2.2.2 rfl
  have one : questionMarks hiddenMarker = 1 := rfl
  rw [one] at counted
  exact absurd counted Nat.zero_ne_one

end Parser

end Cql
