/-
A broken statement in a batch leaves its neighbours alone.

A batch is cut at its semicolons.  Whatever stands in the parts, and however many of them are broken, the
parse goes on to the end of the batch unless it is aborted; a part that is accepted alone is found again
in the batch, in its place and as an equal statement, and a part that only begins like a statement is
reported at one of its own tokens.

* `BatchText` — the tokens of a batch, cut into parts;
* `Grammar.exists_reads_opening` — its beginning is read as the grammar has it;
* `Grammar.ensures_batchQuery` — what is guaranteed of its statements is guaranteed of the batch;
* `BatchText.outcome_isolates_broken` — **the outcome**, part by part.
-/
import Cql.Proofs.BatchRecovery

namespace Cql

/-! ### Batches as lists of parts -/

/-- The beginning of a batch after BEGIN, `mode? BATCH (USING objectives)?`. -/
def Language.batchHeader : Phrase (BatchMode × Attributes) := do
  let mode ← batchMode
  Phrase.word .BATCH
  let attributes ← usingClause
  return (mode, attributes)

/-- The beginning of a batch, up to its first statement. -/
def Language.batchOpening : Phrase (BatchMode × Attributes) := do
  Phrase.word .BEGIN
  batchHeader

/-- The tokens of a batch, `BEGIN mode? BATCH (USING objectives)? (part ';')* APPLY BATCH`, and whatever
comes after it.  The parts can be anything. -/
structure BatchText where
  header : List Token
  mode : BatchMode
  attributes : Attributes
  parts : List BatchPart
  apply : Token
  batch : Token
  rest : List Token
  header_inside : ∀ token ∈ header, token.kind ≠ .endOfInput
  begins : Language.batchOpening (number 0 (header.map (·.toLexeme))) (mode, attributes)
  /-- The first part does not begin with USING, AND, TTL or TIMESTAMP, which the beginning of the batch
  could go on with. -/
  starts : ∀ part ∈ parts.head?, Grammar.endsChange part.first.kind
  applies : apply.kind = .keyword .APPLY
  closes : batch.kind = .keyword .BATCH

namespace Grammar

open Rule Phrase

/-- The part of the rule for batches in front of the first statement. -/
def batchHeader : Rule (BatchMode × Attributes) := do
  let mode ← batchMode
  Rule.keyword .BATCH "after BEGIN"
  let attributes ← usingClause
  return (mode, attributes)

theorem recognizes_batchHeader : batchHeader.Recognizes Language.batchHeader endsChange := by
  refine recognizes_batchMode.bind (fun mode => ?_) fun _ => .andThen (.ofKind rfl)
  refine (Recognizes.keyword _ _).andThen fun _ => ?_
  exact recognizes_usingClause.bind (fun _ => .pure _) fun _ => .pure _ fun _ => id

/-- The beginning of a batch is read up to its first statement. -/
theorem exists_reads_opening {state : State} {header rest : List Token} {mode : BatchMode}
    {attributes : Attributes} {next : Token} (inside : ∀ token ∈ header, token.kind ≠ .endOfInput)
    (begins : Language.batchOpening (number 0 (header.map (·.toLexeme))) (mode, attributes))
    (follows : endsChange next.kind) (ahead : state.stream.ahead = header ++ next :: rest)
    (unnumbered : state.markers.count = 0) : ∃ mid, state.kind = .keyword .BEGIN ∧
      batchHeader.Reads state.advance (mode, attributes) mid ∧ mid.stream.ahead = next :: rest ∧
        mid.stream.position = state.stream.position + header.length := by
  obtain ⟨mid, passes, atNext⟩ := State.passes_of_ahead ahead inside
  rw [unnumbered] at passes
  have position := passes.position_eq
  rw [length_number, List.length_map] at position
  obtain ⟨current, reads⟩ :=
    recognizes_batchHeader.reads_after passes begins (by rwa [State.kind_of_ahead atNext])
  exact ⟨mid, current, reads, atNext, position⟩

section

variable {P : List Modification → List Report → Prop} {state mid : State} {apply batch : Token}
  {rest : List Token} (applies : apply.kind = .keyword .APPLY) (closes : batch.kind = .keyword .BATCH)
  (grows : ∀ kept reports more, P kept reports → P kept (reports ++ more))
  (read : modifications.Ensures mid fun kept after reports =>
    after.stream.ahead = apply :: batch :: rest ∧ P kept reports)
  {mode : BatchMode} {attributes : Attributes}
include applies closes grows read

/-- What is guaranteed of the statements of a batch is guaranteed of the rest of it, since what comes
behind them can add a report, but takes none away. -/
theorem ensures_batchRest : (do
      let modifications ← modifications
      if modifications.isEmpty && (← kind) = .keyword .APPLY then
        reportExpected "INSERT, UPDATE or DELETE" "in batch"
      Rule.keyword .APPLY "to end batch"
      Rule.keyword .BATCH "after APPLY"
      return { mode, attributes, modifications } : Rule Batch).Ensures mid fun found _ reports =>
        ∃ kept, P kept reports ∧ found = ⟨mode, attributes, kept⟩ := by
  refine .bind (read.mono ?_)
  rintro kept after reports ⟨atEnd, holds⟩
  have current : after.kind = .keyword .APPLY := (State.kind_of_ahead atEnd).trans applies
  have next := (State.kind_of_ahead (State.ahead_advance atEnd)).trans closes
  have ending : (do
      Rule.keyword .APPLY "to end batch"
      Rule.keyword .BATCH "after APPLY"
      return ⟨mode, attributes, kept⟩ : Rule Batch).Reads after ⟨mode, attributes, kept⟩
        after.advance.advance :=
    reads_bind.2 ⟨(), _, reads_ofKind.2 ⟨current, rfl⟩,
      reads_bind.2 ⟨(), _, reads_ofKind.2 ⟨next, rfl⟩, reads_pure.2 ⟨rfl, rfl⟩⟩⟩
  refine .kind_bind ?_
  split
  · -- An empty batch is reported, but read to its end.
    refine .bind (.kind_bind (.here_bind (.report (.of_reads ending ⟨kept, ?_, rfl⟩))))
    exact grows _ _ _ holds
  · exact .of_reads ending ⟨kept, grows _ _ _ holds, rfl⟩

variable (isBatch : state.kind = .keyword .BEGIN)
  (header : batchHeader.Reads state.advance (mode, attributes) mid)
include isBatch header

theorem ensures_batchStatement : statement.Ensures state fun found _ reports =>
    ∃ kept, P kept reports ∧ found = .batch ⟨mode, attributes, kept⟩ := by
  refine .kind_bind ?_
  rw [isBatch]
  refine .advance_bind (.map ?_)
  obtain ⟨mode', _, modeReads, header⟩ := reads_bind.1 header
  obtain ⟨_, _, keywordReads, header⟩ := reads_bind.1 header
  obtain ⟨attributes', _, usingReads, header⟩ := reads_bind.1 header
  obtain ⟨same, rfl⟩ := reads_pure.1 header
  obtain ⟨rfl, rfl⟩ := Prod.mk.inj same
  refine .bind_reads modeReads (.bind_reads keywordReads (.bind_reads usingReads ?_))
  refine (ensures_batchRest applies closes grows read).mono ?_
  rintro found after reports ⟨kept, holds, rfl⟩
  exact ⟨kept, holds, rfl⟩

theorem ensures_batchQuery : query.Ensures state fun found _ reports =>
    ∃ kept, P kept reports ∧ found.1 = .batch ⟨mode, attributes, kept⟩ := by
  have front : semicolons.Reads state () state := reads_semicolons_of_ne (by rw [isBatch]; decide)
  have inner := ensures_batchStatement applies closes grows read isBatch header
  refine .bind_reads front (.position_bind (.bind (inner.mono ?_)))
  rintro found mid reports ⟨kept, holds, rfl⟩
  obtain ⟨after, reads⟩ := exists_reads_semicolons mid
  refine .since_bind (.bind_reads reads (.kind_bind ?_))
  split
  · exact .kind_bind (.here_bind (.bind (.report (.pure ⟨kept, grows _ _ _ holds, rfl⟩))))
  · exact .pure ⟨kept, grows _ _ _ holds, rfl⟩

end

section

variable (text : BatchText) {state : State} {rest : List Token}
  (ahead : state.stream.ahead =
    text.header ++ (BatchPart.text text.parts ++ text.apply :: text.batch :: rest))
  (unnumbered : state.markers.count = 0)
include ahead unnumbered

/-- The beginning of a batch is read up to its first part. -/
theorem exists_reads_batchHeader : ∃ mid, state.kind = .keyword .BEGIN ∧
    batchHeader.Reads state.advance (text.mode, text.attributes) mid ∧
      mid.stream.ahead = BatchPart.text text.parts ++ text.apply :: text.batch :: rest ∧
        mid.stream.position = state.stream.position + text.header.length := by
  have starts := text.starts
  cases parts : text.parts with
  | nil =>
    rw [parts] at ahead
    have follows : endsChange text.apply.kind := by
      rw [text.applies]
      exact ⟨⟨by decide, by decide⟩, by decide⟩
    exact exists_reads_opening text.header_inside text.begins follows ahead unnumbered
  | cons part others =>
    rw [parts] at ahead starts
    exact exists_reads_opening text.header_inside text.begins (starts part rfl) ahead unnumbered

theorem ensures_query : query.Ensures state fun found _ reports => ∃ results,
    BatchPart.Recovered reports (state.stream.position + text.header.length) text.parts results ∧
      found.1 = .batch ⟨text.mode, text.attributes, results.filterMap id⟩ := by
  obtain ⟨mid, current, reads, atParts, position⟩ := exists_reads_batchHeader text ahead unnumbered
  have placed : mid.stream.position + mid.stream.ahead.length = mid.stream.position +
      (BatchPart.text text.parts ++ text.apply :: text.batch :: rest).length := by rw [atParts]
  have items := BatchPart.ensures_batchItems text.applies ⟨[], _, rfl, by simp, atParts⟩ placed
  have kept : modifications.Ensures mid fun kept after reports =>
      after.stream.ahead = text.apply :: text.batch :: rest ∧ ∃ results,
        BatchPart.Recovered reports mid.stream.position text.parts results ∧
          kept = results.filterMap id := by
    refine .bind (items.mono fun _ _ _ ⟨atEnd, results, recovered, same⟩ => .pure ?_)
    rw [List.append_nil]
    exact ⟨atEnd, results, recovered, same.symm⟩
  have grows : ∀ (kept : List Modification) (reports more : List Report),
      (∃ results, BatchPart.Recovered reports mid.stream.position text.parts results ∧
        kept = results.filterMap id) → ∃ results,
          BatchPart.Recovered (reports ++ more) mid.stream.position text.parts results ∧
            kept = results.filterMap id := by
    rintro kept reports more ⟨results, recovered, same⟩
    exact ⟨results, recovered.mono fun _ mem => List.mem_append_left _ mem, same⟩
  refine (ensures_batchQuery text.applies text.closes grows kept current reads).mono ?_
  rintro found after reports ⟨_, ⟨results, recovered, rfl⟩, same⟩
  exact ⟨results, position ▸ recovered, same⟩

end

end Grammar

/-! ### The outcome -/

/-- Only an end of input is taken off the end of the tokens. -/
theorem TokenStream.exists_ahead_ofTokens {token : Token} (inside : token.kind ≠ .endOfInput)
    (front rest : List Token) :
    ∃ rest', (ofTokens (front ++ token :: rest)).ahead = front ++ token :: rest' := by
  unfold ofTokens
  cases last : (front ++ token :: rest).getLast? with
  | none => exact absurd (List.getLast?_eq_none_iff.1 last) (by simp)
  | some other =>
    dsimp only
    split
    · rename_i ends
      cases rest with
      | nil =>
        rw [List.getLast?_concat] at last
        obtain rfl := Option.some.inj last
        exact absurd ends inside
      | cons next rest =>
        refine ⟨(next :: rest).dropLast, ?_⟩
        rw [List.dropLast_append_of_ne_nil (by simp), List.dropLast_cons_of_ne_nil (by simp)]
    · exact ⟨rest, rfl⟩

/-- The span of a token of the part or of its semicolon, or the stretch from one of these to another. -/
def BatchPart.Holds (part : BatchPart) (span : Span) : Prop :=
  ∃ first ∈ part.tokens, ∃ last ∈ part.tokens, span = first.span ∨ span = .cover first.span last.span

theorem BatchPart.holds_of_between {part : BatchPart} {stream : TokenStream} {front rest : List Token}
    (cut : stream.body = front ++ (part.tokens ++ rest)) {place : Place}
    (between : place.Between front.length (front.length + part.body.length)) :
    part.Holds (place.span stream) := by
  have length : part.tokens.length = part.body.length + 1 := by simp [tokens]
  have inside : ∀ position, front.length ≤ position → position ≤ front.length + part.body.length →
      ∃ token ∈ part.tokens, stream.spanAt position = token.span := by
    intro position low high
    have inTokens : position - front.length < part.tokens.length := by omega
    refine ⟨part.tokens[position - front.length], List.getElem_mem _, ?_⟩
    rw [TokenStream.spanAt, cut, List.getElem?_append_right low, List.getElem?_append_left inTokens,
      List.getElem?_eq_getElem inTokens, Option.getD_some]
  cases place with
  | token position =>
    obtain ⟨token, mem, span⟩ := inside position between.low_le between.le_high
    exact ⟨token, mem, token, mem, .inl span⟩
  | stretch first last =>
    obtain ⟨token, mem, span⟩ := inside first between.low_le
      (Nat.le_trans between.ordered between.le_high)
    obtain ⟨token', mem', span'⟩ := inside last (Nat.le_trans between.low_le between.ordered)
      between.le_high
    exact ⟨token, mem, token', mem', .inr (by rw [Place.span, span, span'])⟩

namespace BatchText

variable (text : BatchText)

def tokens : List Token :=
  text.header ++ (BatchPart.text text.parts ++ text.apply :: text.batch :: text.rest)

/-- **A broken statement in a batch leaves its neighbours alone.**  Unless the parse is aborted, it comes
to a batch.  Its statements are found in the parts, in their order and at most one in each; a part that
is accepted alone gives an equal statement.  A part that begins with INSERT, UPDATE or DELETE but is not
accepted alone has a diagnostic, reported between its first token and its semicolon. -/
theorem outcome_isolates_broken (runs : (Parser.ofTokens text.tokens).outcome.aborted = false) :
    ∃ parsed results, (Parser.ofTokens text.tokens).outcome.statement = some parsed ∧
      parsed.statement = .batch ⟨text.mode, text.attributes, results.filterMap id⟩ ∧
      List.Forall₂ BatchPart.Keeps text.parts results ∧
      ∀ before part after, text.parts = before ++ part :: after → part.IsBroken →
        ∃ report ∈ (Parser.ofTokens text.tokens).reply.reports,
          report.place.Between (text.header ++ BatchPart.text before).length
            ((text.header ++ BatchPart.text before).length + part.body.length) ∧
          report.diagnostic (.ofTokens text.tokens) ∈ (Parser.ofTokens text.tokens).outcome.diagnostics ∧
          ∃ span, (report.diagnostic (.ofTokens text.tokens)).primarySpan? = some span ∧
            part.Holds span := by
  -- The batch is ahead of the parser whole, as its last token is no end of input.
  have inside : text.batch.kind ≠ .endOfInput := by
    rw [text.closes]
    decide
  obtain ⟨rest, ahead⟩ := TokenStream.exists_ahead_ofTokens inside
    (text.header ++ (BatchPart.text text.parts ++ [text.apply])) text.rest
  simp only [List.append_assoc, List.singleton_append] at ahead
  have ensures : Grammar.query.Ensures (Parser.ofTokens text.tokens).start _ :=
    Grammar.ensures_query text ahead rfl
  have atStart : (Parser.ofTokens text.tokens).start.stream.position = 0 := by
    rw [TokenStream.position]
    exact congrArg List.length (TokenStream.passed_ofTokens text.tokens)
  cases result : (Parser.ofTokens text.tokens).reply.result with
  | error halt =>
    have fatal := ensures.eq_fatal result
    have aborts : (Parser.ofTokens text.tokens).outcome.aborted = true := by
      simp [Parser.outcome, Reply.halt?, result, fatal]
    exact absurd (runs.symm.trans aborts) (by decide)
  | ok found =>
    obtain ⟨statement, place⟩ := found
    obtain ⟨results, recovered, same⟩ := ensures.of_ok result
    rw [atStart, Nat.zero_add] at recovered
    refine ⟨_, results, by rw [Parser.outcome, Parser.statement?, result], same,
      recovered.forall₂_keeps, fun before part after cut broken => ?_⟩
    obtain ⟨report, mem, between⟩ := recovered.isReported cut broken
    rw [← List.length_append] at between
    have body : (TokenStream.ofTokens text.tokens).body = text.header ++ BatchPart.text before ++
        (part.tokens ++ (BatchPart.text after ++ text.apply :: text.batch :: rest)) := by
      rw [TokenStream.body, TokenStream.passed_ofTokens, tokens, ahead, cut]
      simp
    refine ⟨report, mem, between, ?_, _, rfl, BatchPart.holds_of_between body between⟩
    rw [Parser.outcome, Parser.diagnostics_reply]
    exact List.mem_append_right _ (List.mem_map_of_mem mem)

/-- A batch with bind markers whose first statement lacks a WHERE. -/
def twoDeletions : String :=
  "BEGIN BATCH USING TTL ? DELETE a FROM t; DELETE FROM t WHERE k = ?; APPLY BATCH"

/-- A token of one-byte characters that begins at `start`. -/
def tokenAt (kind : TokenKind) (text : String) (start : Nat) : Token :=
  ⟨⟨kind, text⟩, ⟨start, start + text.length⟩⟩

def withoutWhere : BatchPart where
  first := tokenAt (.keyword .DELETE) "DELETE" 24
  more := [tokenAt (.identifier "a") "a" 31, tokenAt (.keyword .FROM) "FROM" 33,
    tokenAt (.identifier "t") "t" 38]
  semicolon := tokenAt (.punctuation .semicolon) ";" 39
  first_inside := by decide
  more_inside := by decide
  ends := rfl

def withWhere : BatchPart where
  first := tokenAt (.keyword .DELETE) "DELETE" 41
  more := [tokenAt (.keyword .FROM) "FROM" 48, tokenAt (.identifier "t") "t" 53,
    tokenAt (.keyword .WHERE) "WHERE" 55, tokenAt (.identifier "k") "k" 61,
    tokenAt (.punctuation .equal) "=" 63, tokenAt (.punctuation .questionMark) "?" 65]
  semicolon := tokenAt (.punctuation .semicolon) ";" 66
  first_inside := by decide
  more_inside := by decide
  ends := rfl

theorem isAlone_withWhere : ∃ alone, withWhere.IsAlone alone := by
  have accepted : (Parser.ofTokens withWhere.body).outcome.isSuccess = true := by decide +kernel
  have deletes : ((Parser.ofTokens withWhere.body).outcome.statement.any fun parsed =>
      parsed.statement matches .delete _) = true := by decide +kernel
  obtain ⟨parsed, found, isDeletion⟩ := (Option.any_eq_true _ _).1 deletes
  cases same : parsed.statement with
  | delete deletion => exact ⟨.delete deletion, parsed, ⟨accepted, found⟩, same⟩
  | _ => simp [same] at isDeletion

def ofTwoDeletions : BatchText where
  header := [tokenAt (.keyword .BEGIN) "BEGIN" 0, tokenAt (.keyword .BATCH) "BATCH" 6,
    tokenAt (.keyword .USING) "USING" 12, tokenAt (.keyword .TTL) "TTL" 18,
    tokenAt (.punctuation .questionMark) "?" 22]
  mode := .logged
  attributes := ⟨none, some (.marker 0)⟩
  parts := [withoutWhere, withWhere]
  apply := tokenAt (.keyword .APPLY) "APPLY" 68
  batch := tokenAt (.keyword .BATCH) "BATCH" 74
  rest := [tokenAt .endOfInput "" 79]
  header_inside := by decide
  begins := by
    have marker : Language.integerOrMarker [⟨⟨.punctuation .questionMark, "?"⟩, 0⟩] (.marker 0) :=
      .inr ⟨_, rfl, rfl⟩
    have objective : Language.objective [⟨⟨.keyword .TTL, "TTL"⟩, 0⟩, _] (.keyword .TTL, .marker 0) :=
      ⟨[_], .keyword .TTL, _, rfl, ⟨_, rfl, rfl⟩, _, _, [], rfl, marker, rfl, rfl⟩
    have objectives : Language.objectives _ ⟨none, some (.marker 0)⟩ :=
      ⟨_, _, [], (List.append_nil _).symm, objective, [], [], [], rfl, .none, rfl, rfl⟩
    have clause : (do Phrase.word .USING; Language.objectives : Phrase Attributes)
        (⟨⟨.keyword .USING, "USING"⟩, 0⟩ :: _) ⟨none, some (.marker 0)⟩ :=
      Phrase.ofKind_bind_iff.2 ⟨_, _, rfl, rfl, objectives⟩
    refine Phrase.ofKind_bind_iff.2 ⟨_, _, rfl, rfl, [], .logged, _, rfl, .inr (.inr ⟨rfl, rfl⟩), ?_⟩
    exact Phrase.ofKind_bind_iff.2 ⟨_, _, rfl, rfl, _, _, [], rfl, .inl clause, rfl, rfl⟩
  starts := by
    rintro part ⟨⟩
    exact ⟨⟨by decide, by decide⟩, by decide⟩
  applies := rfl
  closes := rfl

theorem outcome_of_twoDeletions : ofTwoDeletions.tokens = (tokenize twoDeletions).tokens ∧
    (Parser.ofTokens ofTwoDeletions.tokens).outcome.aborted = false ∧
    ∃ parsed lost kept alone, (Parser.ofTokens ofTwoDeletions.tokens).outcome.statement = some parsed ∧
      parsed.statement = .batch ⟨.logged, ⟨none, some (.marker 0)⟩, Option.toList lost ++ [kept]⟩ ∧
      withWhere.IsAlone alone ∧ (kept == alone) = true ∧
      ∃ diagnostic ∈ (Parser.ofTokens ofTwoDeletions.tokens).outcome.diagnostics,
        ∃ span, diagnostic.primarySpan? = some span ∧ withoutWhere.Holds span := by
  have runs : (Parser.ofTokens ofTwoDeletions.tokens).outcome.aborted = false := by decide +kernel
  obtain ⟨parsed, results, found, batch, keeps, reported⟩ := outcome_isolates_broken ofTwoDeletions runs
  have rejected : (Parser.ofTokens withoutWhere.body).outcome.isSuccess = false := by decide +kernel
  have broken : withoutWhere.IsBroken :=
    ⟨by decide, fun alone ⟨_, ⟨success, _⟩, _⟩ => absurd (rejected.symm.trans success) (by decide)⟩
  obtain ⟨report, -, -, mem, span, primary, holds⟩ := reported [] withoutWhere [withWhere] rfl broken
  obtain ⟨alone, isAlone⟩ := isAlone_withWhere
  obtain ⟨lost, _, -, others, rfl⟩ := List.forall₂_cons_left_iff.1 keeps
  obtain ⟨result, _, keepsWhole, none, rfl⟩ := List.forall₂_cons_left_iff.1 others
  obtain rfl := List.forall₂_nil_left_iff.1 none
  obtain ⟨kept, rfl, same⟩ := keepsWhole alone isAlone
  refine ⟨by decide +kernel, runs, parsed, lost, kept, alone, found, ?_, isAlone, same, _, mem, span,
    primary, holds⟩
  rw [batch]
  cases lost <;> rfl

end BatchText

end Cql
