/-
Which texts are accepted, and as what.

A list of tokens is accepted as a statement if and only if the tokens in front of its end of input
derive from the grammar, and the statement is the one that the derivation stands for.  Nothing is said
of the spans of tokens, and a list that lacks its end of input reads as if it had one.

* `Grammar.recognizes_statement` — single statements;
* `Grammar.reads_query_iff` — statements with semicolons around them;
* `State.passes_sentence` — from its first state, a parser passes the sentence of its tokens;
* `Parser.accepts_modification_iff`, `Parser.accepts_selection_iff`,
  `Parser.accepts_administration_iff` — three parts of the grammar.
-/
import Cql.Parse
import Cql.Proofs.Batches
import Cql.Proofs.Commands
import Cql.Proofs.Selections
import Cql.Proofs.Unmarked

namespace Cql

namespace Language

/-- A statement of the grammar, with CREATE TABLE as far as it is accepted. -/
def statement : Phrase Statement :=
  modificationStatement <|> selectStatement <|> administrativeStatement <|> tableStatement

/-- A stretch without bind markers that stands for an administrative statement. -/
def administration : Phrase Statement := fun items statement =>
  statement.isAdministrative = true ∧ marks items = []

/-- Any statement.  What an administrative statement looks like is left open. -/
def anyStatement : Phrase Statement :=
  modificationStatement <|> selectStatement <|> administration

end Language

namespace Grammar

open Rule Phrase

/-! ### Single statements -/

theorem endsChange_of_endsStatement {kind : TokenKind} (h : endsStatement kind = true) :
    endsChange kind := by
  refine ⟨⟨ne_of_test h rfl, ?_⟩, ne_of_test h rfl⟩
  simp only [endsStatement, Bool.or_eq_true, decide_eq_true_eq] at h
  rcases h with rfl | rfl
  · decide
  · decide

theorem recognizes_insertStatement : (.insert <$> insertion : Rule Statement).Recognizes
    (do return .insert (← Language.insertion)) (endsStatement · = true) :=
  (recognizes_insertion.map Statement.insert).narrow fun _ => endsChange_of_endsStatement

theorem recognizes_updateStatement : (.update <$> update : Rule Statement).Recognizes
    (do return .update (← Language.update)) (endsStatement · = true) :=
  (recognizes_update.map Statement.update).narrow fun _ h => (endsChange_of_endsStatement h).1.1

theorem recognizes_deleteStatement : (.delete <$> deletion : Rule Statement).Recognizes
    (do return .delete (← Language.deletion)) (endsStatement · = true) :=
  (recognizes_deletion.map Statement.delete).narrow fun _ h => (endsChange_of_endsStatement h).1.1

theorem recognizes_batchStatement : (.batch <$> batch : Rule Statement).Recognizes
    (do return .batch (← Language.batch)) (endsStatement · = true) :=
  (recognizes_batch.map Statement.batch).narrow fun _ _ => trivial

theorem recognizes_selectStatement : (.select <$> selection : Rule Statement).Recognizes
    (do return .select (← Language.selection)) (endsStatement · = true) :=
  recognizes_selection.map Statement.select

theorem reads_statement {state after : State} {s : Statement} :
    statement.Reads state s after ↔ ∃ rule, statementAfter? state.kind = some rule ∧
      rule.Reads state.advance s after := by
  unfold statement
  rw [reads_kind_bind]
  cases known : statementAfter? state.kind with
  | none => simp [not_reads_expected]
  | some rule => simp

theorem recognizes_useStatement : (.use <$> keyspaceName : Rule Statement).Recognizes
    (do return .use (← Language.identifier)) (endsStatement · = true) :=
  ((recognizes_identifier _).map Statement.use).narrow fun _ _ => trivial

theorem recognizes_truncateStatement : (.truncate <$> tableName : Rule Statement).Recognizes
    (do return .truncate (← Language.tableName)) (endsStatement · = true) :=
  (recognizes_tableName.map Statement.truncate).narrow fun _ ends => ne_of_test ends rfl

theorem recognizes_grantStatement : (.grant <$> grant : Rule Statement).Recognizes
    (do return .grant (← Language.grant)) (endsStatement · = true) :=
  (recognizes_grant.map Statement.grant).narrow fun _ ends => ne_of_test ends rfl

theorem recognizes_revokeStatement : (.revoke <$> revocation : Rule Statement).Recognizes
    (do return .revoke (← Language.revocation)) (endsStatement · = true) :=
  (recognizes_revocation.map Statement.revoke).narrow fun _ _ => trivial

theorem recognizes_listStatement : (.listGrants <$> grantsOfUser : Rule Statement).Recognizes
    (do return .listGrants (← Language.grantsOfUser)) (endsStatement · = true) :=
  (recognizes_grantsOfUser.map Statement.listGrants).narrow fun _ _ => trivial

/-- What the rule for a first keyword reads is, with the keyword, a statement of the grammar. -/
theorem recognizes_statementAfter {kind : TokenKind} {rule : Rule Statement}
    (known : statementAfter? kind = some rule) : ∃ keyword phrase, kind = .keyword keyword ∧
      rule.Recognizes phrase (endsStatement · = true) ∧
        ∀ items s, (do word keyword; phrase) items s → Language.statement items s := by
  -- One case for each keyword that begins a statement.
  unfold statementAfter? at known
  split at known
  all_goals cases known
  · exact ⟨_, _, rfl, recognizes_selectStatement, fun _ _ => .inr ∘ .inl⟩
  · exact ⟨_, _, rfl, recognizes_insertStatement, fun _ _ => .inl ∘ .inl⟩
  · exact ⟨_, _, rfl, recognizes_updateStatement, fun _ _ => .inl ∘ .inr ∘ .inl⟩
  · exact ⟨_, _, rfl, recognizes_deleteStatement, fun _ _ => .inl ∘ .inr ∘ .inr ∘ .inl⟩
  · exact ⟨_, _, rfl, recognizes_batchStatement, fun _ _ => .inl ∘ .inr ∘ .inr ∘ .inr⟩
  · exact ⟨_, _, rfl, recognizes_useStatement, fun _ _ => .inr ∘ .inr ∘ .inl ∘ .inl⟩
  · exact ⟨_, _, rfl, recognizes_truncateStatement, fun _ _ => .inr ∘ .inr ∘ .inl ∘ .inr ∘ .inl⟩
  · refine ⟨_, _, rfl, recognizes_create, fun items s spelled => ?_⟩
    rw [bind_orElse] at spelled
    rcases spelled with spelled | spelled
    · exact .inr (.inr (.inl (.inr (.inr (.inl spelled)))))
    · exact .inr (.inr (.inr spelled))
  · exact ⟨_, _, rfl, recognizes_drop,
      fun _ _ => .inr ∘ .inr ∘ .inl ∘ .inr ∘ .inr ∘ .inr ∘ .inl⟩
  · exact ⟨_, _, rfl, recognizes_alter,
      fun _ _ => .inr ∘ .inr ∘ .inl ∘ .inr ∘ .inr ∘ .inr ∘ .inr ∘ .inl⟩
  · exact ⟨_, _, rfl, recognizes_grantStatement,
      fun _ _ => .inr ∘ .inr ∘ .inl ∘ .inr ∘ .inr ∘ .inr ∘ .inr ∘ .inr ∘ .inl⟩
  · exact ⟨_, _, rfl, recognizes_revokeStatement,
      fun _ _ => .inr ∘ .inr ∘ .inl ∘ .inr ∘ .inr ∘ .inr ∘ .inr ∘ .inr ∘ .inr ∘ .inl⟩
  · exact ⟨_, _, rfl, recognizes_listStatement,
      fun _ _ => .inr ∘ .inr ∘ .inl ∘ .inr ∘ .inr ∘ .inr ∘ .inr ∘ .inr ∘ .inr ∘ .inr⟩

theorem word_bind_weaken {keyword : Keyword} {phrase phrase' : Phrase Statement}
    {items : List Numbered} {s : Statement} (part : ∀ items s, phrase items s → phrase' items s)
    (spelled : (do word keyword; phrase) items s) : (do word keyword; phrase') items s := by
  obtain ⟨item, rest, rfl, same, spelled⟩ := ofKind_bind_iff.1 spelled
  exact ofKind_bind_iff.2 ⟨item, rest, rfl, same, part _ _ spelled⟩

/-- A statement of the grammar has a first keyword, and what is left of it is read by the rule for it. -/
theorem statementAfter_of_statement {items : List Numbered} {s : Statement}
    (spelled : Language.statement items s) : ∃ keyword rule phrase,
      statementAfter? (.keyword keyword) = some rule ∧
        rule.Recognizes phrase (endsStatement · = true) ∧ (do word keyword; phrase) items s := by
  rcases spelled with (spelled | spelled | spelled | spelled) | spelled |
    (spelled | spelled | spelled | spelled | spelled | spelled | spelled | spelled) | spelled
  · exact ⟨_, _, _, rfl, recognizes_insertStatement, spelled⟩
  · exact ⟨_, _, _, rfl, recognizes_updateStatement, spelled⟩
  · exact ⟨_, _, _, rfl, recognizes_deleteStatement, spelled⟩
  · exact ⟨_, _, _, rfl, recognizes_batchStatement, spelled⟩
  · exact ⟨_, _, _, rfl, recognizes_selectStatement, spelled⟩
  · exact ⟨_, _, _, rfl, recognizes_useStatement, spelled⟩
  · exact ⟨_, _, _, rfl, recognizes_truncateStatement, spelled⟩
  · exact ⟨_, _, _, rfl, recognizes_create, word_bind_weaken (fun _ _ => .inl) spelled⟩
  · exact ⟨_, _, _, rfl, recognizes_drop, spelled⟩
  · exact ⟨_, _, _, rfl, recognizes_alter, spelled⟩
  · exact ⟨_, _, _, rfl, recognizes_grantStatement, spelled⟩
  · exact ⟨_, _, _, rfl, recognizes_revokeStatement, spelled⟩
  · exact ⟨_, _, _, rfl, recognizes_listStatement, spelled⟩
  · exact ⟨_, _, _, rfl, recognizes_create, word_bind_weaken (fun _ _ => .inr) spelled⟩

/-- Statements are read as the grammar has them. -/
theorem recognizes_statement :
    statement.Recognizes Language.statement (endsStatement · = true) := by
  constructor
  · intro state s after reads
    obtain ⟨rule, known, reads'⟩ := reads_statement.1 reads
    obtain ⟨keyword, phrase, current, recognizes, part⟩ := recognizes_statementAfter known
    obtain ⟨items, passes, spelled⟩ := recognizes.spelled_after current reads'
    exact ⟨items, passes, part _ _ spelled⟩
  · intro state items s after passes spelled follows
    obtain ⟨keyword, rule, phrase, known, recognizes, spelled⟩ := statementAfter_of_statement spelled
    obtain ⟨current, reads⟩ := recognizes.reads_after passes spelled follows
    exact reads_statement.2 ⟨rule, by rw [current, known], reads⟩

/-! ### Queries -/

theorem recognizes_semicolons :
    semicolons.Recognizes (do let _ ← many (mark .semicolon); return ())
      (· ≠ .punctuation .semicolon) := by
  have one : (opened (fun kind => kind = .punctuation .semicolon) fun _ => Rule.done ()).Recognizes
      (mark .semicolon) anything := by
    refine (Recognizes.symbol "" rfl).congr (fun state u after => ?_) fun _ _ => Iff.rfl
    rw [reads_opened, Rule.symbol, reads_ofKind]
    simp [show Rule.done () = (pure () : Rule Unit) from rfl, reads_pure]
  have opens : (mark .semicolon).Opens anything (· = .punctuation .semicolon) := .ofKind rfl
  refine (Recognizes.many rfl opens (one.narrow fun _ _ => trivial) ?_).bind
    (fun _ => .pure _) fun _ => .pure _ fun _ => id
  intro kind other
  simpa using other

/-- Between a statement and the end of the input there are only semicolons. -/
theorem opens_semicolons : (many (mark .semicolon)).Opens (· = .endOfInput) (endsStatement · = true) := by
  refine .many (.ofKind rfl) ?_
  rintro _ rfl
  decide

theorem reads_semicolons_of_ne {state : State} (h : state.kind ≠ .punctuation .semicolon) :
    semicolons.Reads state () state :=
  recognizes_semicolons.complete _ [] _ _ (.nothing state) ⟨[], [], [], rfl, .none, rfl, rfl⟩ h

theorem exists_reads_semicolons (state : State) : ∃ after, semicolons.Reads state () after := by
  have list : ∃ units after, ReadsMany (fun kind => kind = .punctuation .semicolon) (fun _ => true)
      (fun _ => done ()) state units after := by
    generalize left : state.stream.ahead = tokens
    induction tokens generalizing state with
    | nil => exact ⟨[], state, .stop (by simp [left])⟩
    | cons token tokens ih =>
      by_cases semicolon : token.kind = .punctuation .semicolon
      · obtain ⟨units, after, others⟩ := ih _ (State.ahead_advance left)
        exact ⟨() :: units, after, .more left (decide_eq_true semicolon) (reads_pure.2 ⟨rfl, rfl⟩) rfl others⟩
      · exact ⟨[], state, .stop (by simpa [left] using semicolon)⟩
  obtain ⟨units, after, list⟩ := list
  exact ⟨after, reads_bind.2 ⟨units, after, reads_many.2 list, reads_pure.2 ⟨rfl, rfl⟩⟩⟩

/-- What a query reads: a statement between semicolons, up to the end of the input.  Its place reaches
from the first token of the statement to the last. -/
theorem reads_query {state after : State} {s : Statement} {place : Place} :
    query.Reads state (s, place) after ↔ after.kind = .endOfInput ∧ ∃ mid mid',
      (semicolons.Reads state () mid ∧ statement.Reads mid s mid' ∧ semicolons.Reads mid' () after) ∧
        place = .stretch mid.stream.position (mid'.stream.position - 1) := by
  unfold query
  constructor
  · intro reads
    obtain ⟨u, mid, first, reads⟩ := reads_bind.1 reads
    rw [reads_position_bind] at reads
    obtain ⟨s', mid', second, reads⟩ := reads_bind.1 reads
    rw [reads_since_bind] at reads
    obtain ⟨u', last, third, reads⟩ := reads_bind.1 reads
    rw [reads_kind_bind] at reads
    by_cases atEnd : last.kind = .endOfInput
    · rw [if_neg (by simp [atEnd])] at reads
      obtain ⟨same, rfl⟩ := reads_pure.1 reads
      obtain ⟨rfl, rfl⟩ := Prod.mk.inj same
      exact ⟨atEnd, mid, mid', ⟨first, second, third⟩, rfl⟩
    · rw [if_pos atEnd, reads_kind_bind, reads_here_bind] at reads
      exact absurd reads not_reads_report_bind
  · rintro ⟨atEnd, mid, mid', ⟨first, second, third⟩, rfl⟩
    refine reads_bind.2 ⟨(), mid, first, reads_position_bind.2 ?_⟩
    refine reads_bind.2 ⟨s, mid', second, reads_since_bind.2 ?_⟩
    refine reads_bind.2 ⟨(), after, third, reads_kind_bind.2 ?_⟩
    rw [if_neg (by simp [atEnd])]
    exact reads_pure.2 ⟨rfl, rfl⟩

theorem many_semicolons_iff {items : List Numbered} :
    (do let _ ← many (mark .semicolon); return () : Phrase Unit) items () ↔
      ∃ units, many (mark .semicolon) items units := by
  constructor
  · rintro ⟨front, units, _, rfl, spelled, rfl, -⟩
    exact ⟨units, by rwa [List.append_nil]⟩
  · rintro ⟨units, spelled⟩
    exact ⟨items, units, [], by rw [List.append_nil], spelled, rfl, rfl⟩

theorem kind_of_many_semicolons {items : List Numbered} {units : List Unit}
    (h : many (mark .semicolon) items units) :
    ∀ item ∈ items, item.kind = .punctuation .semicolon := by
  induction h with
  | none => simp
  | more first others ih =>
    obtain ⟨item, rfl, kind⟩ := ofKind_iff.1 first
    intro other mem
    rcases List.mem_cons.1 mem with rfl | mem
    · exact kind
    · exact ih other mem

theorem opens_statement : Language.statement.Opens anything (TokenKind.isKeyword · = true) := by
  have modification : Language.modificationStatement.Opens anything (TokenKind.isKeyword · = true) :=
    .orElse (opens_word rfl) (.orElse (opens_word rfl) (.orElse (opens_word rfl) (opens_word rfl)))
  have administration :
      Language.administrativeStatement.Opens anything (TokenKind.isKeyword · = true) :=
    .orElse (opens_word rfl) (.orElse (opens_word rfl) (.orElse (opens_word rfl)
      (.orElse (opens_word rfl) (.orElse (opens_word rfl) (.orElse (opens_word rfl)
        (.orElse (opens_word rfl) (opens_word rfl)))))))
  exact modification.orElse (.orElse (opens_word rfl) (administration.orElse (opens_word rfl)))

/-- Statements between semicolons are read as the grammar has them, up to an end of input. -/
theorem reads_query_iff {state after : State} {s : Statement} {place : Place} :
    query.Reads state (s, place) after ↔ after.kind = .endOfInput ∧ ∃ front middle rest units units',
      state.Passes (front ++ (middle ++ rest)) after ∧ many (mark .semicolon) front units ∧
        Language.statement middle s ∧ many (mark .semicolon) rest units' ∧
          place = .stretch (state.stream.position + front.length)
            (state.stream.position + front.length + middle.length - 1) := by
  rw [reads_query]
  constructor
  · rintro ⟨atEnd, mid, mid', ⟨first, second, third⟩, rfl⟩
    obtain ⟨front, passes₁, before⟩ := recognizes_semicolons.sound _ _ _ first
    obtain ⟨middle, passes₂, spelled⟩ := recognizes_statement.sound _ _ _ second
    obtain ⟨rest, passes₃, behind⟩ := recognizes_semicolons.sound _ _ _ third
    obtain ⟨units, before⟩ := many_semicolons_iff.1 before
    obtain ⟨units', behind⟩ := many_semicolons_iff.1 behind
    refine ⟨atEnd, front, middle, rest, units, units', passes₁.trans (passes₂.trans passes₃), before,
      spelled, behind, ?_⟩
    rw [passes₂.position_eq, passes₁.position_eq]
  · rintro ⟨atEnd, front, middle, rest, units, units', passes, before, spelled, behind, rfl⟩
    obtain ⟨mid, passes₁, passes'⟩ := passes.split
    obtain ⟨mid', passes₂, passes₃⟩ := passes'.split
    refine ⟨atEnd, mid, mid', ?_, by rw [passes₂.position_eq, passes₁.position_eq]⟩
    -- Each part ends where the next one begins, and none can go on into it.
    refine ⟨?_, ?_, ?_⟩
    · refine recognizes_semicolons.complete _ _ _ _ passes₁ (many_semicolons_iff.2 ⟨units, before⟩) ?_
      rw [passes₂.kind_eq]
      exact ne_of_test (opens_statement _ _ _ spelled trivial) rfl
    · refine recognizes_statement.complete _ _ _ _ passes₂ spelled ?_
      rw [passes₃.kind_eq]
      exact opens_semicolons _ _ _ behind atEnd
    · refine recognizes_semicolons.complete _ _ _ _ passes₃
        (many_semicolons_iff.2 ⟨units', behind⟩) ?_
      rw [atEnd]
      decide

theorem sound_query {state after : State} {s : Statement} {place : Place}
    (reads : query.Reads state (s, place) after) : after.kind = .endOfInput ∧
      ∃ items, state.Passes items after ∧ Language.query Language.statement items s := by
  obtain ⟨atEnd, front, middle, rest, units, units', passes, before, spelled, behind, -⟩ :=
    reads_query_iff.1 reads
  exact ⟨atEnd, _, passes, front, units, _, rfl, before, middle, s, rest, rfl, spelled, rest, units',
    [], by rw [List.append_nil], behind, rfl, rfl⟩

theorem complete_query {state after : State} {items : List Numbered} {s : Statement}
    (passes : state.Passes items after) (atEnd : after.kind = .endOfInput)
    (spelled : Language.query Language.statement items s) :
    ∃ place, query.Reads state (s, place) after := by
  obtain ⟨front, units, _, rfl, before, middle, s', _, rfl, spelled', rest, units', _, rfl, behind,
    rfl, rfl⟩ := spelled
  rw [List.append_nil] at passes
  exact ⟨_, reads_query_iff.2 ⟨atEnd, front, middle, rest, units, units', passes, before, spelled',
    behind, rfl⟩⟩

end Grammar

/-! ### Whole inputs -/

namespace State

theorem kind_of_ahead_nil {state : State} (ahead : state.stream.ahead = []) :
    state.kind = .endOfInput := by
  simp [kind, lexeme, TokenStream.peek, ahead, EndMark.token]

/-- The stretch up to the next end of input is the only one that ends at an end of input. -/
theorem Passes.unique {state after after' : State} {items items' : List Numbered}
    (h : state.Passes items after) (atEnd : after.kind = .endOfInput)
    (h' : state.Passes items' after') (atEnd' : after'.kind = .endOfInput) :
    items' = items ∧ after' = after := by
  induction h generalizing items' with
  | nothing state =>
    cases h' with
    | nothing => exact ⟨rfl, rfl⟩
    | one inside => exact absurd atEnd inside
  | one inside others ih =>
    cases h' with
    | nothing => exact absurd atEnd' inside
    | one _ others' =>
      obtain ⟨rfl, rfl⟩ := ih atEnd others'
      exact ⟨rfl, rfl⟩

/-- The tokens ahead are passed up to the first end of input. -/
theorem passes_ahead (state : State) : ∃ after, after.kind = .endOfInput ∧
    state.Passes (number state.markers.count ((state.stream.ahead.takeWhile fun token =>
      token.kind ≠ .endOfInput).map (·.toLexeme))) after := by
  -- The induction is on the tokens ahead; the state moves on with them.
  generalize bound : state.stream.ahead = tokens
  induction tokens generalizing state with
  | nil => exact ⟨state, kind_of_ahead_nil bound, .nothing state⟩
  | cons token rest ih =>
    have current : state.kind = token.kind := kind_of_ahead bound
    by_cases inside : token.kind = .endOfInput
    · refine ⟨state, by rw [current, inside], ?_⟩
      rw [List.takeWhile_cons_of_neg (by simpa using inside)]
      exact .nothing state
    · obtain ⟨after, atEnd, passes⟩ := ih state.next (State.ahead_advance bound)
      refine ⟨after, atEnd, ?_⟩
      rw [List.takeWhile_cons_of_pos (by simpa using inside)]
      have first : state.lexeme 0 = token.toLexeme := by simp [lexeme, TokenStream.peek, bound]
      have passed := Passes.one (by rwa [current]) passes
      rw [first] at passed
      simp only [next, current] at passed
      exact passed

end State

/-- A parser's first state. -/
def Parser.start (parser : Parser) : State := ⟨parser.stream, .none⟩

theorem TokenStream.takeWhile_ofTokens (tokens : List Token) :
    (ofTokens tokens).ahead.takeWhile (fun token => token.kind ≠ .endOfInput) =
      tokens.takeWhile fun token => token.kind ≠ .endOfInput := by
  unfold ofTokens
  cases last : tokens.getLast? with
  | none =>
    rw [List.getLast?_eq_none_iff.1 last]
  | some token =>
    dsimp only
    by_cases ends : token.kind = .endOfInput
    · obtain ⟨front, rfl⟩ := List.getLast?_eq_some_iff.1 last
      rw [if_pos ends, List.dropLast_concat, List.takeWhile_append]
      split
      · rename_i whole
        rw [List.takeWhile_cons_of_neg (by simpa using ends), List.append_nil]
        exact (List.takeWhile_prefix _).eq_of_length whole
      · rfl
    · rw [if_neg ends]

/-- From its first state, a parser passes the tokens in front of the first end of input. -/
theorem State.passes_sentence (tokens : List Token) : ∃ after, after.kind = .endOfInput ∧
    (Parser.ofTokens tokens).start.Passes (Language.sentence tokens) after := by
  obtain ⟨after, atEnd, passes⟩ := State.passes_ahead (Parser.ofTokens tokens).start
  refine ⟨after, atEnd, ?_⟩
  have ahead : (Parser.ofTokens tokens).start.stream = .ofTokens tokens := rfl
  rw [ahead, TokenStream.takeWhile_ofTokens] at passes
  exact passes

namespace Parser

open Phrase

/-- A parse succeeds if the query reads a statement and nothing was wrong before. -/
theorem succeeds_iff {parser : Parser} {parsed : ParsedStatement} :
    (parser.outcome.isSuccess = true ∧ parser.outcome.statement = some parsed) ↔
      parser.earlier = [] ∧ ∃ place after,
        Grammar.query.Reads parser.start (parsed.statement, place) after ∧
          parsed = ⟨parsed.statement, after.markers.count, place.span parser.stream⟩ := by
  have reply : parser.reply = Grammar.query.run parser.start := rfl
  unfold outcome Outcome.isSuccess diagnostics statement?
  dsimp only
  rw [reply]
  constructor
  · rintro ⟨success, found⟩
    cases result : (Grammar.query.run parser.start).result with
    | error halt => simp [result] at found
    | ok read =>
      obtain ⟨statement, place⟩ := read
      simp only [result, Option.some.injEq] at found
      subst found
      simp only [result, Option.isSome_some, Option.isNone_some, Bool.false_and, Bool.false_eq_true,
        if_false, Bool.true_and, List.isEmpty_iff, List.append_eq_nil_iff, List.map_eq_nil_iff]
        at success
      exact ⟨success.1, place, _, Rule.reads_iff.2 ⟨result, rfl, success.2⟩, rfl⟩
  · rintro ⟨none, place, after, reads, same⟩
    obtain ⟨result, rfl, silent⟩ := Rule.reads_iff.1 reads
    simp [result, none, silent, ← same]

/-- Without an accepted query there is no success, and with one there is. -/
theorem ofTokens_succeeds_iff {tokens : List Token} {statement : Statement} :
    (∃ parsed, ((ofTokens tokens).outcome.isSuccess = true ∧
      (ofTokens tokens).outcome.statement = some parsed) ∧ parsed.statement = statement) ↔
      ∃ place after, Grammar.query.Reads (ofTokens tokens).start (statement, place) after := by
  constructor
  · rintro ⟨parsed, success, rfl⟩
    obtain ⟨-, place, after, reads, -⟩ := succeeds_iff.1 success
    exact ⟨place, after, reads⟩
  · rintro ⟨place, after, reads⟩
    exact ⟨⟨statement, after.markers.count, place.span _⟩,
      succeeds_iff.2 ⟨rfl, place, after, reads, rfl⟩, rfl⟩

theorem gives_modificationStatement :
    Language.modificationStatement.Gives fun statement => statement.isModification = true :=
  .orElse (.bind fun _ => .bind fun _ => .pure rfl) (.orElse (.bind fun _ => .bind fun _ => .pure rfl)
    (.orElse (.bind fun _ => .bind fun _ => .pure rfl) (.bind fun _ => .bind fun _ => .pure rfl)))

theorem gives_selectStatement :
    Language.selectStatement.Gives fun statement => statement.isSelection = true :=
  .bind fun _ => .bind fun _ => .pure rfl

theorem input_iff {α : Type} {phrase : Phrase α} {items : List Numbered} {a : α} :
    Language.input phrase items a ↔ ∃ front middle rest units units',
      items = front ++ (middle ++ rest) ∧ many (mark .semicolon) front units ∧
        phrase middle a ∧ many (mark .semicolon) rest units' := by
  constructor
  · rintro ⟨front, units, _, rfl, before, middle, _, _, rfl, spelled, rest, units', _, rfl, behind,
      rfl, rfl⟩
    exact ⟨front, middle, rest, units, units', by rw [List.append_nil], before, spelled, behind⟩
  · rintro ⟨front, middle, rest, units, units', rfl, before, spelled, behind⟩
    exact ⟨front, units, _, rfl, before, middle, a, rest, rfl, spelled, rest, units', [],
      by rw [List.append_nil], behind, rfl, rfl⟩

theorem query_iff {phrase : Phrase Statement} {items : List Numbered} {statement : Statement} :
    Language.query phrase items statement ↔ ∃ front middle rest units units',
      items = front ++ (middle ++ rest) ∧ many (mark .semicolon) front units ∧
        phrase middle statement ∧ many (mark .semicolon) rest units' :=
  input_iff

theorem query_weaken {phrase phrase' : Phrase Statement} {items : List Numbered}
    {statement : Statement} (h : Language.query phrase items statement)
    (weaker : ∀ items, phrase items statement → phrase' items statement) :
    Language.query phrase' items statement := by
  obtain ⟨front, middle, rest, units, units', same, before, spelled, behind⟩ := query_iff.1 h
  exact query_iff.2 ⟨front, middle, rest, units, units', same, before, weaker _ spelled, behind⟩

theorem gives_creation {P : Statement → Prop} (keyspace : ∀ definition, P (.createKeyspace definition))
    (index : ∀ definition, P (.createIndex definition)) : Language.creation.Gives P :=
  .orElse (.bind fun _ => .bind fun _ => .pure (keyspace _))
    (.bind fun _ => .bind fun _ => .pure (index _))

theorem gives_dropping {P : Statement → Prop} (keyspace : ∀ name, P (.dropKeyspace name))
    (table : ∀ name, P (.dropTable name)) (index : ∀ name, P (.dropIndex name)) :
    Language.dropping.Gives P :=
  .orElse (.bind fun _ => .bind fun _ => .pure (keyspace _))
    (.orElse (.bind fun _ => .bind fun _ => .pure (table _))
      (.bind fun _ => .bind fun _ => .pure (index _)))

theorem gives_alteration {P : Statement → Prop} (keyspace : ∀ definition, P (.alterKeyspace definition))
    (table : ∀ alteration, P (.alterTable alteration)) : Language.alteration.Gives P :=
  .orElse (.bind fun _ => .bind fun _ => .pure (keyspace _))
    (.bind fun _ => .bind fun _ => .bind fun _ => .pure (table _))

theorem gives_administrativeStatement :
    Language.administrativeStatement.Gives fun statement => statement.isCommand = true := by
  refine .orElse (.bind fun _ => .bind fun _ => .pure rfl) ?_
  refine .orElse (.bind fun _ => .bind fun _ => .pure rfl) ?_
  refine .orElse (.bind fun _ => gives_creation (fun _ => rfl) (fun _ => rfl)) ?_
  refine .orElse (.bind fun _ => gives_dropping (fun _ => rfl) (fun _ => rfl) (fun _ => rfl)) ?_
  refine .orElse (.bind fun _ => gives_alteration (fun _ => rfl) (fun _ => rfl)) ?_
  refine .orElse (.bind fun _ => .bind fun _ => .pure rfl) ?_
  exact .orElse (.bind fun _ => .bind fun _ => .pure rfl) (.bind fun _ => .bind fun _ => .pure rfl)

theorem gives_tableStatement :
    Language.tableStatement.Gives fun statement => statement.isTableCreation = true :=
  .bind fun _ => .bind fun _ => .bind fun _ => .pure rfl

/-- Statements that are neither modifications nor selections are without bind markers. -/
theorem anyStatement_of_statement {items : List Numbered} {statement : Statement}
    (spelled : Language.statement items statement) : Language.anyStatement items statement := by
  rcases spelled with spelled | spelled | spelled | spelled
  · exact .inl spelled
  · exact .inr (.inl spelled)
  · have administrative := Statement.isAdministrative_of_isCommand
      (gives_administrativeStatement _ _ spelled)
    exact .inr (.inr ⟨administrative, (Language.bare_administrativeStatement _ _ spelled).1⟩)
  · have administrative := Statement.isAdministrative_of_isTableCreation
      (gives_tableStatement _ _ spelled)
    exact .inr (.inr ⟨administrative, (Language.bare_tableStatement _ _ spelled).1⟩)

/-- A list of tokens is read as a query if and only if its sentence is one of the grammar. -/
theorem reads_sentence_iff {tokens : List Token} {statement : Statement} :
    (∃ place after, Grammar.query.Reads (ofTokens tokens).start (statement, place) after) ↔
      Language.query Language.statement (Language.sentence tokens) statement := by
  obtain ⟨last, atEnd', passes'⟩ := State.passes_sentence tokens
  constructor
  · rintro ⟨place, after, reads⟩
    obtain ⟨atEnd, items, passes, spelled⟩ := Grammar.sound_query reads
    obtain ⟨rfl, -⟩ := passes.unique atEnd passes' atEnd'
    exact spelled
  · intro spelled
    obtain ⟨place, reads⟩ := Grammar.complete_query passes' atEnd' spelled
    exact ⟨place, last, reads⟩

/-- Whatever is accepted is a query of the grammar, or an administrative one. -/
theorem sound_sentence {tokens : List Token} {statement : Statement} {place : Place} {after : State}
    (reads : Grammar.query.Reads (ofTokens tokens).start (statement, place) after) :
    Language.query Language.anyStatement (Language.sentence tokens) statement :=
  query_weaken (reads_sentence_iff.1 ⟨place, after, reads⟩) fun _ => anyStatement_of_statement

/-- A list of tokens is accepted as a statement of one kind if and only if its sentence is a query of
that kind, if the phrase of the kind is a part of the grammar and all that the grammar has of it. -/
theorem accepts_kind_iff {phrase : Phrase Statement} {isOfKind : Statement → Bool}
    (gives : phrase.Gives fun statement => isOfKind statement = true)
    (part : ∀ items statement, phrase items statement → Language.statement items statement)
    (whole : ∀ items statement, Language.statement items statement →
      isOfKind statement = true → phrase items statement)
    (tokens : List Token) (statement : Statement) :
    (∃ parsed, (ofTokens tokens).outcome.isSuccess = true ∧
      (ofTokens tokens).outcome.statement = some parsed ∧ parsed.statement = statement ∧
        isOfKind statement = true) ↔
      Language.query phrase (Language.sentence tokens) statement := by
  constructor
  · rintro ⟨parsed, success, found, same, ofKind⟩
    have spelled := reads_sentence_iff.1 (ofTokens_succeeds_iff.1 ⟨parsed, ⟨success, found⟩, same⟩)
    exact query_weaken spelled fun items spelled => whole items _ spelled ofKind
  · intro spelled
    have ofKind : isOfKind statement = true := by
      obtain ⟨_, _, _, _, _, -, -, spelled', -⟩ := query_iff.1 spelled
      exact gives _ _ spelled'
    obtain ⟨parsed, ⟨success, found⟩, same⟩ := ofTokens_succeeds_iff.2
      (reads_sentence_iff.2 (query_weaken spelled fun items => part items _))
    exact ⟨parsed, success, found, same, ofKind⟩

/-- The same for modifications and selections, which are no administrative statements. -/
theorem accepts_iff {phrase : Phrase Statement} {isOfKind : Statement → Bool}
    (gives : phrase.Gives fun statement => isOfKind statement = true)
    (part : ∀ items statement, phrase items statement →
      (Language.modificationStatement <|> Language.selectStatement) items statement)
    (whole : ∀ items statement, Language.anyStatement items statement →
      isOfKind statement = true → phrase items statement)
    (tokens : List Token) (statement : Statement) :
    (∃ parsed, (ofTokens tokens).outcome.isSuccess = true ∧
      (ofTokens tokens).outcome.statement = some parsed ∧ parsed.statement = statement ∧
        isOfKind statement = true) ↔
      Language.query phrase (Language.sentence tokens) statement := by
  refine accepts_kind_iff gives (fun items statement spelled => ?_)
    (fun items statement spelled => whole _ _ (anyStatement_of_statement spelled)) tokens statement
  rcases part items statement spelled with spelled | spelled
  · exact .inl spelled
  · exact .inr (.inl spelled)

/-- A list of tokens is accepted as INSERT, UPDATE, DELETE or BATCH if and only if the tokens in front
of its end of input are such a statement of the grammar, with any semicolons around it; and what it is
accepted as is what the grammar makes of it. -/
theorem accepts_modification_iff (tokens : List Token) (statement : Statement) :
    (∃ parsed, (ofTokens tokens).outcome.isSuccess = true ∧
      (ofTokens tokens).outcome.statement = some parsed ∧ parsed.statement = statement ∧
        statement.isModification = true) ↔
      Language.query Language.modificationStatement (Language.sentence tokens) statement := by
  refine accepts_iff gives_modificationStatement (fun _ _ => .inl) ?_ tokens statement
  rintro items statement (spelled | spelled | ⟨administrative, -⟩) changes
  · exact spelled
  · have selects := gives_selectStatement _ _ spelled
    cases statement <;> simp_all [Statement.isSelection, Statement.isModification]
  · simp [Statement.isAdministrative, changes] at administrative

/-- A list of tokens is accepted as SELECT if and only if the tokens in front of its end of input are
a SELECT of the grammar, with any semicolons around it; and what it is accepted as is what the grammar
makes of it. -/
theorem accepts_selection_iff (tokens : List Token) (statement : Statement) :
    (∃ parsed, (ofTokens tokens).outcome.isSuccess = true ∧
      (ofTokens tokens).outcome.statement = some parsed ∧ parsed.statement = statement ∧
        statement.isSelection = true) ↔
      Language.query Language.selectStatement (Language.sentence tokens) statement := by
  refine accepts_iff gives_selectStatement (fun _ _ => .inr) ?_ tokens statement
  rintro items statement (spelled | spelled | ⟨administrative, -⟩) selects
  · have changes := gives_modificationStatement _ _ spelled
    cases statement <;> simp_all [Statement.isSelection, Statement.isModification]
  · exact spelled
  · simp [Statement.isAdministrative, selects] at administrative

/-- A list of tokens is accepted as a statement about schemas, permissions or whole tables, but not as
CREATE TABLE, if and only if the tokens in front of its end of input are such a statement of the grammar,
with any semicolons around it; and what it is accepted as is what the grammar makes of it. -/
theorem accepts_administration_iff (tokens : List Token) (statement : Statement) :
    (∃ parsed, (ofTokens tokens).outcome.isSuccess = true ∧
      (ofTokens tokens).outcome.statement = some parsed ∧ parsed.statement = statement ∧
        statement.isCommand = true) ↔
      Language.query Language.administrativeStatement (Language.sentence tokens) statement := by
  refine accepts_kind_iff gives_administrativeStatement (fun _ _ spelled => .inr (.inr (.inl spelled)))
    ?_ tokens statement
  rintro items statement (spelled | spelled | spelled | spelled) command
  · have changes := gives_modificationStatement _ _ spelled
    cases statement <;> simp_all [Statement.isModification, Statement.isCommand]
  · have selects := gives_selectStatement _ _ spelled
    cases statement <;> simp_all [Statement.isSelection, Statement.isCommand]
  · exact spelled
  · have creates := gives_tableStatement _ _ spelled
    cases statement <;> simp_all [Statement.isTableCreation, Statement.isCommand]

end Parser

end Cql
