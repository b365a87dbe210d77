/-
Batches whose statements may lack their semicolons.

What stands between the beginning of a batch and its APPLY can be anything.  Unless the parse is aborted it
comes to a batch, and a well-formed statement in there is found again, as an equal statement, if an item
begins at its keyword.  That is so exactly if no list of a statement in front of it is skipped past the
keyword; and it can happen that one is.

* `BatchTokens` — the tokens of a batch, with or without semicolons;
* `Grammar.ensures_batchItems` — its items are read up to its end;
* `BatchTokens.outcome_keeps_following` — **the outcome**: which well-formed statements are kept;
* `BatchTokens.not_outcome_keeps_following` — a well-formed statement that is lost.
-/
import Cql.Proofs.SkippedStatements

namespace Cql

namespace Grammar

open Rule

variable {state : State}

/-- A statement that is read is kept. -/
theorem eq_some_of_batchItem {opening : TokenKind} {rule : Rule Modification} {kept : Modification}
    {after : State} {item : Option Modification} (known : modificationAfter? opening = some rule)
    (reads : rule.Reads state kept after) (found : ((batchItem opening).run state).result = .ok item) :
    item = some kept := by
  unfold batchItem at found
  rw [known] at found
  have attempted : (attempt rule).Reads state (some kept) after := reads_attempt.2 ⟨kept, rfl, reads⟩
  simp only [attempted.run_bind] at found
  obtain ⟨_, -, found, -⟩ := bind_eq_ok found
  exact (Except.ok.inj found).symm

/-! ### Items up to the end of the batch -/

theorem exists_reads_eatMark (mark : Punctuation) (state : State) :
    ∃ found after, (eatMark mark).Reads state found after := by
  by_cases current : state.kind = .punctuation mark
  · exact ⟨true, state.advance, reads_eatKind.2 (.inl ⟨current, rfl, rfl⟩)⟩
  · exact ⟨false, state, reads_eatKind.2 (.inr ⟨current, rfl, rfl⟩)⟩

theorem exists_reads_skipModification_any (state : State) :
    ∃ after, skipModification.Reads state () after := by
  unfold skipModification
  cases boundary : state.kind.isBatchBoundary with
  | true =>
    obtain ⟨after, reads, -⟩ := exists_reads_skipUntil_dropWhile TokenKind.isBatchBoundary state
    exact ⟨after, by rw [reads_kind_bind, boundary]; exact reads⟩
  | false =>
    obtain ⟨after, reads, -⟩ := exists_reads_skipUntil_dropWhile TokenKind.isBatchBoundary state.advance
    exact ⟨after, by rw [reads_kind_bind, boundary]; exact reads_advance_bind.2 reads⟩

/-- An item of a batch comes to an end, with or without a statement, unless the parse is aborted. -/
theorem ensures_batchItem (opening : TokenKind) :
    (batchItem opening).Ensures state fun _ _ _ => True := by
  unfold batchItem
  cases modificationAfter? opening with
  | none =>
    obtain ⟨after, reads, -⟩ := exists_reads_skipUntil_dropWhile TokenKind.isBatchBoundary state
    exact .position_bind (.bind (.report (.bind_reads reads (.pure trivial))))
  | some rule =>
    refine .bind (.attempt (fun found _ => ?_) fun _ => ?_)
    · obtain ⟨_, after, reads⟩ := exists_reads_eatMark .semicolon (rule.run state).state
      exact .bind_reads reads (.pure trivial)
    · obtain ⟨after, reads⟩ := exists_reads_skipModification_any (rule.run state).state
      exact .bind_reads reads (.pure trivial)

/-- Whatever stands in front of APPLY, the items of a batch are read up to it. -/
theorem ensures_batchItems {items rest : List Token} {apply : Token}
    (applies : apply.kind = .keyword .APPLY) (inside : ∀ token ∈ items, opensItem token.kind = true)
    (ahead : state.stream.ahead = items ++ apply :: rest) :
    batchItems.Ensures state fun _ after _ => after.stream.ahead = apply :: rest := by
  -- Each item takes a token, so the induction is on how many are in front of APPLY.
  generalize bound : items.length = n
  induction n using Nat.strongRecOn generalizing items state with
  | ind n ih =>
    cases items with
    | nil => exact .many_nil ahead (by rw [applies]; rfl) ahead
    | cons token items =>
      refine .many_cons ahead (inside token List.mem_cons_self) ?_
      refine (ensures_batchItem token.kind).with_run.mono fun result mid reports ⟨run, _⟩ => ?_
      have ahead' : state.advance.stream.ahead = items ++ apply :: rest := State.ahead_advance ahead
      have takes := (batchItem token.kind).run_takes state.advance
      have left := not_not.1 ((takes_batchItem token.kind state.advance).not_overrunsAt
        (by rw [applies]; rfl) ⟨items, ahead'.symm⟩)
      obtain ⟨items', atRest, shorter⟩ := takes.exists_front ahead' left
      rw [run] at atRest
      have fewer : items'.length < n := bound ▸ Nat.lt_succ_of_le shorter.length_le
      exact ih _ fewer (fun other mem => inside other (List.mem_cons_of_mem _ (shorter.subset mem))) atRest rfl

end Grammar

/-- What is guaranteed of a query holds of what a parse comes to that is not aborted. -/
theorem Parser.exists_parsed {parser : Parser} {P : Statement × Place → State → List Report → Prop}
    (ensures : Grammar.query.Ensures parser.start P) (runs : parser.outcome.aborted = false) :
    ∃ parsed place, parser.outcome.statement = some parsed ∧
      P (parsed.statement, place) parser.reply.state parser.reply.reports := by
  cases result : parser.reply.result with
  | error halt =>
    have fatal := ensures.eq_fatal result
    have aborts : parser.outcome.aborted = true := by simp [Parser.outcome, Reply.halt?, result, fatal]
    exact absurd (runs.symm.trans aborts) (by decide)
  | ok found =>
    obtain ⟨statement, place⟩ := found
    have holds := ensures.of_ok result
    exact ⟨⟨statement, _, _⟩, place, by rw [Parser.outcome, Parser.statement?, result], holds⟩

/-! ### Batches as lists of tokens -/

/-- The tokens of a batch, `BEGIN mode? BATCH (USING objectives)? .. APPLY BATCH`, and whatever comes after
it.  In between can stand anything but APPLY. -/
structure BatchTokens where
  header : List Token
  mode : BatchMode
  attributes : Attributes
  items : List Token
  apply : Token
  batch : Token
  rest : List Token
  header_inside : ∀ token ∈ header, token.kind ≠ .endOfInput
  begins : Language.batchOpening (number 0 (header.map (·.toLexeme))) (mode, attributes)
  items_inside : ∀ token ∈ items, Grammar.opensItem token.kind = true
  /-- The first token is not USING, AND, TTL or TIMESTAMP, which the beginning of the batch could go on
  with. -/
  starts : ∀ token ∈ items.head?, Grammar.endsChange token.kind
  applies : apply.kind = .keyword .APPLY
  closes : batch.kind = .keyword .BATCH

namespace BatchTokens

open BatchText (tokenAt)

variable (text : BatchTokens)

def tokens : List Token :=
  text.header ++ (text.items ++ text.apply :: text.batch :: text.rest)

def parser : Parser := .ofTokens text.tokens

/-- The tokens from the one with this number on. -/
def tail (number : Nat) : List Token := text.parser.stream.ahead.drop number

/-- The state in front of the first item. -/
def start : State := (Grammar.batchHeader.run text.parser.start.advance).state

/-- An item of the batch begins at the token with this number. -/
def ItemBeginsAt (number : Nat) : Prop :=
  ∃ state, Grammar.Reaches text.start state ∧ state.stream.ahead = text.tail number

/-- A list of some statement in the batch is skipped past the token with this number. -/
def ListOverrunsAt (number : Nat) : Prop :=
  ∃ state, Grammar.Reaches text.start state ∧
    Grammar.StatementOverruns (text.tail number) state.kind state.advance

theorem exists_ahead : ∃ rest, text.parser.stream.ahead =
    text.header ++ (text.items ++ text.apply :: text.batch :: rest) := by
  have inside : text.batch.kind ≠ .endOfInput := by
    rw [text.closes]
    decide
  obtain ⟨rest, ahead⟩ := TokenStream.exists_ahead_ofTokens inside
    (text.header ++ (text.items ++ [text.apply])) text.rest
  simp only [List.append_assoc, List.singleton_append] at ahead
  exact ⟨rest, ahead⟩

/-- In front of the end of the batch, some token always comes next. -/
theorem exists_next (front rest : List Token)
    (ends : ∀ token ∈ front.head?, Grammar.endsChange token.kind) : ∃ next others,
      front ++ text.apply :: text.batch :: rest = next :: others ∧ Grammar.endsChange next.kind := by
  cases front with
  | nil => exact ⟨text.apply, _, rfl, by rw [text.applies]; exact ⟨⟨by decide, by decide⟩, by decide⟩⟩
  | cons next others => exact ⟨next, _, rfl, ends next rfl⟩

theorem reads_header {rest : List Token}
    (ahead : text.parser.stream.ahead = text.header ++ (text.items ++ text.apply :: text.batch :: rest)) :
    text.parser.start.kind = .keyword .BEGIN ∧
      Grammar.batchHeader.Reads text.parser.start.advance (text.mode, text.attributes) text.start ∧
        text.start.stream.ahead = text.items ++ text.apply :: text.batch :: rest := by
  obtain ⟨next, others, same, follows⟩ := text.exists_next text.items rest text.starts
  rw [same] at ahead ⊢
  have ahead : text.parser.start.stream.ahead = text.header ++ next :: others := ahead
  obtain ⟨mid, current, reads, atItems, -⟩ :=
    Grammar.exists_reads_opening text.header_inside text.begins follows ahead rfl
  obtain rfl : text.start = mid := (Rule.reads_iff.1 reads).2.1
  exact ⟨current, reads, atItems⟩

/-- Unless it is aborted, the parse comes to a batch with the statements among its items. -/
theorem exists_items (runs : text.parser.outcome.aborted = false) : ∃ parsed items,
    text.parser.outcome.statement = some parsed ∧
      (Grammar.batchItems.run text.start).result = .ok items ∧
        parsed.statement = .batch ⟨text.mode, text.attributes, items.filterMap id⟩ := by
  obtain ⟨rest, ahead⟩ := text.exists_ahead
  obtain ⟨isBatch, header, atItems⟩ := text.reads_header ahead
  have read := Grammar.ensures_batchItems text.applies text.items_inside atItems
  have kept : Grammar.modifications.Ensures text.start fun kept after _ =>
      after.stream.ahead = text.apply :: text.batch :: rest ∧ ∃ items,
        (Grammar.batchItems.run text.start).result = .ok items ∧ kept = items.filterMap id := by
    refine .bind (read.with_run.mono fun items after reports ⟨run, atEnd⟩ => .pure ?_)
    exact ⟨atEnd, items, by rw [run], rfl⟩
  have ensures := Grammar.ensures_batchQuery text.applies text.closes (fun _ _ _ => id) kept isBatch header
  obtain ⟨parsed, place, found, _, ⟨items, result, rfl⟩, same⟩ := Parser.exists_parsed ensures runs
  exact ⟨parsed, items, found, result, same⟩

/-- **A well-formed statement in a batch is kept if the parse comes to it**, whatever is broken in front of
it and whether or not semicolons stand there.  Unless it is aborted, the parse comes to a batch.  To a
statement in there that is accepted alone, and that what stands behind it does not go on, the parse comes
exactly if no list is skipped past its keyword; and then an equal statement is in the batch. -/
theorem outcome_keeps_following (runs : text.parser.outcome.aborted = false) :
    ∃ parsed modifications, text.parser.outcome.statement = some parsed ∧
      parsed.statement = .batch ⟨text.mode, text.attributes, modifications⟩ ∧
      ∀ before following behind alone, text.items = before ++ (following ++ behind) →
        AcceptedAlone following alone →
        (∀ token ∈ following, token.kind ≠ .punctuation .semicolon) →
        (∀ token ∈ behind.head?, Grammar.endsChange token.kind) →
        (text.ItemBeginsAt (text.header ++ before).length ↔
            ¬ text.ListOverrunsAt (text.header ++ before).length) ∧
          (text.ItemBeginsAt (text.header ++ before).length →
            ∃ kept ∈ modifications, (kept == alone) = true) := by
  obtain ⟨parsed, items, found, result, same⟩ := text.exists_items runs
  refine ⟨parsed, items.filterMap id, found, same, fun before following behind alone cut isAlone noSemicolon
    follows => ?_⟩
  obtain ⟨rest, ahead⟩ := text.exists_ahead
  obtain ⟨-, -, atItems⟩ := text.reads_header ahead
  have tail : text.tail (text.header ++ before).length =
      following ++ (behind ++ text.apply :: text.batch :: rest) := by
    rw [tail, ahead, cut]
    simp only [List.append_assoc]
    rw [← List.append_assoc, List.drop_left]
  rw [cut, List.append_assoc, List.append_assoc] at atItems
  have opened : ∀ token ∈ before ++ following, Grammar.opensItem token.kind = true := fun token mem =>
    text.items_inside token (by rw [cut, ← List.append_assoc]; exact List.mem_append_left _ mem)
  have inside : ∀ token ∈ following, token.kind.isInPart = true := fun token mem => by
    have := opened token (List.mem_append_right _ mem)
    simpa [TokenKind.isInPart, Grammar.opensItem, noSemicolon token mem] using this
  obtain ⟨next, more, rfl, begins⟩ := AcceptedAlone.begins inside isAlone
  constructor
  · unfold ItemBeginsAt ListOverrunsAt
    rw [tail]
    exact Grammar.exists_reaches_iff begins (fun token mem => opened token (List.mem_append_left _ mem))
      atItems result
  · rintro ⟨state, reaches, atTail⟩
    rw [tail] at atTail
    obtain ⟨behind', others, same', ends⟩ := text.exists_next behind rest follows
    rw [same'] at atTail
    obtain ⟨rule, kept, after, known, reads, -, equal⟩ := AcceptedAlone.reads inside atTail isAlone
      fun after atNext => by rwa [State.kind_of_ahead atNext]
    -- The item that is read there is the statement.
    obtain ⟨front, later, rfl, rest⟩ := reaches.exists_items result
    obtain ⟨item, later, rfl, read, -⟩ :=
      Rule.many_eq_ok_of_ahead atTail (opened next (by simp)) rest
    rw [State.kind_of_ahead atTail] at known
    obtain rfl := Grammar.eq_some_of_batchItem known reads read
    exact ⟨kept, by simp, equal⟩

/-- A well-formed statement behind one that is broken. -/
def insertion : List Token :=
  [tokenAt (.keyword .INSERT) "INSERT" 39, tokenAt (.keyword .INTO) "INTO" 46,
    tokenAt (.identifier "t") "t" 51, tokenAt (.punctuation .leftParen) "(" 53,
    tokenAt (.identifier "a") "a" 54, tokenAt (.punctuation .comma) "," 55,
    tokenAt (.identifier "b") "b" 57, tokenAt (.punctuation .rightParen) ")" 58,
    tokenAt (.keyword .VALUES) "VALUES" 60, tokenAt (.punctuation .leftParen) "(" 67,
    tokenAt (.integer "1") "1" 68, tokenAt (.punctuation .comma) "," 69,
    tokenAt (.punctuation .questionMark) "?" 71, tokenAt (.punctuation .rightParen) ")" 72]

theorem acceptedAlone_insertion : ∃ alone, AcceptedAlone insertion alone := by
  have accepted : (Parser.ofTokens insertion).outcome.isSuccess = true := by decide +kernel
  have inserts : ((Parser.ofTokens insertion).outcome.statement.any fun parsed =>
      parsed.statement matches .insert _) = true := by decide +kernel
  obtain ⟨parsed, found, isInsertion⟩ := (Option.any_eq_true _ _).1 inserts
  cases same : parsed.statement with
  | insert insertion => exact ⟨.insert insertion, parsed, ⟨accepted, found⟩, same⟩
  | _ => simp [same] at isInsertion

/-- An UPDATE without the sign in its only assignment. -/
def withoutSign : List Token :=
  [tokenAt (.keyword .UPDATE) "UPDATE" 12, tokenAt (.identifier "t") "t" 19,
    tokenAt (.keyword .SET) "SET" 21, tokenAt (.identifier "b") "b" 25,
    tokenAt (.keyword .WHERE) "WHERE" 27, tokenAt (.identifier "a") "a" 33,
    tokenAt (.punctuation .equal) "=" 35, tokenAt (.integer "1") "1" 37]

/-- An UPDATE without the sign in its only relation. -/
def withoutComparison : List Token :=
  [tokenAt (.keyword .UPDATE) "UPDATE" 12, tokenAt (.identifier "t") "t" 19,
    tokenAt (.keyword .SET) "SET" 21, tokenAt (.identifier "a") "a" 25,
    tokenAt (.punctuation .equal) "=" 27, tokenAt (.integer "1") "1" 29,
    tokenAt (.keyword .WHERE) "WHERE" 31, tokenAt (.identifier "b") "b" 37]

def ofBrokenAssignment : BatchTokens where
  header := [tokenAt (.keyword .BEGIN) "BEGIN" 0, tokenAt (.keyword .BATCH) "BATCH" 6]
  mode := .logged
  attributes := .none
  items := withoutSign ++ insertion
  apply := tokenAt (.keyword .APPLY) "APPLY" 74
  batch := tokenAt (.keyword .BATCH) "BATCH" 80
  rest := [tokenAt .endOfInput "" 85]
  header_inside := by decide
  begins := by
    refine Phrase.ofKind_bind_iff.2 ⟨_, _, rfl, rfl, [], .logged, _, rfl, .inr (.inr ⟨rfl, rfl⟩), ?_⟩
    exact Phrase.ofKind_bind_iff.2 ⟨_, _, rfl, rfl, [], _, [], rfl, .inr ⟨rfl, rfl⟩, rfl, rfl⟩
  items_inside := by decide
  starts := by
    rintro token ⟨⟩
    exact ⟨⟨by decide, by decide⟩, by decide⟩
  applies := rfl
  closes := rfl

def ofBrokenRelation : BatchTokens :=
  { ofBrokenAssignment with
    items := withoutComparison ++ insertion
    items_inside := by decide
    starts := ofBrokenAssignment.starts }

theorem outcome_of_brokenAssignment :
    ofBrokenAssignment.tokens = (tokenize
      "BEGIN BATCH UPDATE t SET b WHERE a = 1 INSERT INTO t (a, b) VALUES (1, ?) APPLY BATCH").tokens ∧
    ofBrokenAssignment.parser.outcome.aborted = false ∧ ¬ ofBrokenAssignment.ListOverrunsAt 10 ∧
    ∃ parsed modifications kept alone, ofBrokenAssignment.parser.outcome.statement = some parsed ∧
      parsed.statement = .batch ⟨.logged, .none, modifications⟩ ∧ kept ∈ modifications ∧
      AcceptedAlone insertion alone ∧ (kept == alone) = true := by
  have runs : ofBrokenAssignment.parser.outcome.aborted = false := by decide +kernel
  obtain ⟨parsed, modifications, found, batch, keeps⟩ := outcome_keeps_following ofBrokenAssignment runs
  obtain ⟨alone, isAlone⟩ := acceptedAlone_insertion
  obtain ⟨comes, kept⟩ := keeps withoutSign insertion [] alone rfl isAlone (by decide) (by simp)
  -- The whole first statement is one item, up to the keyword.
  have begins : ofBrokenAssignment.ItemBeginsAt 10 := by
    have read : ((Grammar.batchItem ofBrokenAssignment.start.kind).run
        ofBrokenAssignment.start.advance).result.toOption.isSome = true := by decide +kernel
    cases result : ((Grammar.batchItem ofBrokenAssignment.start.kind).run
        ofBrokenAssignment.start.advance).result with
    | error halt => simp [result, Except.toOption] at read
    | ok item => exact ⟨_, .item (by decide +kernel) result (.start _), by decide +kernel⟩
  obtain ⟨modification, mem, same⟩ := kept begins
  exact ⟨by decide +kernel, runs, comes.1 begins, parsed, modifications, modification, alone, found, batch,
    mem, isAlone, same⟩

/-- Not every well-formed statement behind a broken one is kept: without a semicolon it can be skipped
together with what is left of a relation. -/
theorem not_outcome_keeps_following : ¬ ∀ (text : BatchTokens) (before following behind : List Token)
    (alone : Modification), text.items = before ++ (following ++ behind) →
      (∀ token ∈ before.head?, token.kind = .keyword .UPDATE ∨ token.kind = .keyword .DELETE) →
      (∀ other, ¬ AcceptedAlone before other) → AcceptedAlone following alone →
      (∀ token ∈ before ++ following, token.kind ≠ .punctuation .semicolon) →
      (∀ token ∈ behind.head?, Grammar.endsChange token.kind) →
      text.parser.outcome.aborted = false →
        ∃ parsed batch, text.parser.outcome.statement = some parsed ∧ parsed.statement = .batch batch ∧
          ∃ kept ∈ batch.modifications, (kept == alone) = true := by
  intro keeps
  obtain ⟨alone, isAlone⟩ := acceptedAlone_insertion
  have changes : ∀ token ∈ withoutComparison.head?,
      token.kind = .keyword .UPDATE ∨ token.kind = .keyword .DELETE := by
    rintro token ⟨⟩
    exact .inl rfl
  have broken : ∀ other, ¬ AcceptedAlone withoutComparison other := by
    rintro other ⟨_, ⟨success, -⟩, -⟩
    have rejected : (Parser.ofTokens withoutComparison).outcome.isSuccess = false := by decide +kernel
    exact absurd (rejected.symm.trans success) (by decide)
  have runs : ofBrokenRelation.parser.outcome.aborted = false := by decide +kernel
  obtain ⟨parsed, batch, found, isBatch, kept, mem, -⟩ := keeps ofBrokenRelation withoutComparison
    insertion [] alone rfl changes broken isAlone (by decide) (by simp) runs
  -- No item of the batch comes to a statement.
  obtain ⟨parsed', items, found', read, isBatch'⟩ := ofBrokenRelation.exists_items runs
  obtain rfl := Option.some.inj (found.symm.trans found')
  have empty : ((Grammar.batchItems.run ofBrokenRelation.start).result.toOption.any
      (List.all · Option.isNone)) = true := by decide +kernel
  simp only [read, Except.toOption, Option.any_some, List.all_eq_true] at empty
  obtain rfl := Statement.batch.inj (isBatch.symm.trans isBatch')
  obtain ⟨item, memItems, rfl⟩ := List.mem_filterMap.1 mem
  exact absurd (empty _ memItems) (by simp)

end BatchTokens

end Cql
