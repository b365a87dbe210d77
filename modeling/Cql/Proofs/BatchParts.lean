/-
The parts of a batch.

A part is what stands in front of a semicolon.  As the statements of a batch take no semicolon, however
broken they are, the reading of a part stays inside it; and a part that is accepted alone is read in the
batch as well, as the same statement but for the numbers of its bind markers.

* `BatchPart` — the tokens of a part and its semicolon;
* `BatchPart.IsAlone`, `AcceptedAlone` — tokens, taken for a list of their own, are accepted as a
  statement;
* `AcceptedAlone.iff_modification` — such tokens are the statements of the grammar;
* `AcceptedAlone.reads` — **they are read in a batch**, as an equal statement;
* `BatchPart.exists_rest` — **the reading of a part stays in the part**;
* `BatchPart.IsAlone.reads` — a part that is accepted alone is read in the batch;
* `BatchPart.isAlone_of_reads` — a part that is read in the batch without a report, and to its end, is
  accepted alone.
-/
import Mathlib.Data.List.TakeWhile
import Cql.Proofs.Acceptance
import Cql.Proofs.Renumbering
import Cql.Proofs.Taking

namespace Cql

/-! ### Passing the tokens ahead -/

namespace State

/-- Tokens ahead are passed, numbered from the markers on that are there already. -/
theorem passes_of_ahead {state : State} {front rest : List Token}
    (ahead : state.stream.ahead = front ++ rest) (inside : ∀ token ∈ front, token.kind ≠ .endOfInput) :
    ∃ after, state.Passes (number state.markers.count (front.map (·.toLexeme))) after ∧
      after.stream.ahead = rest := by
  induction front generalizing state with
  | nil => exact ⟨state, .nothing state, ahead⟩
  | cons token front ih =>
    have current : state.kind = token.kind := kind_of_ahead ahead
    have first : state.lexeme 0 = token.toLexeme := by simp [lexeme, TokenStream.peek, ahead]
    have ahead' : state.next.stream.ahead = front ++ rest := ahead_advance ahead
    obtain ⟨after, passes, same⟩ := ih ahead' fun token mem => inside token (List.mem_cons_of_mem _ mem)
    have passed := Passes.one (by rw [current]; exact inside token List.mem_cons_self) passes
    rw [first] at passed
    simp only [next, current] at passed
    exact ⟨after, passed, same⟩

/-- What is passed are tokens ahead. -/
theorem Passes.exists_taken {state after : State} {items : List Numbered}
    (h : state.Passes items after) : ∃ taken, state.stream.ahead = taken ++ after.stream.ahead ∧
      items = number state.markers.count (taken.map (·.toLexeme)) := by
  induction h with
  | nothing state => exact ⟨[], rfl, rfl⟩
  | @one state after items inside others ih =>
    obtain ⟨taken, ahead', rfl⟩ := ih
    obtain ⟨token, rest, ahead, current⟩ := ahead_of_inside inside
    have rest_eq : rest = taken ++ after.stream.ahead := (ahead_advance ahead).symm.trans ahead'
    refine ⟨token :: taken, by rw [ahead, rest_eq]; rfl, ?_⟩
    have kind : state.kind = token.kind := kind_of_ahead ahead
    rw [List.map_cons, number, current]
    simp only [next, kind]

end State

/-! ### Parts -/

instance (kind : TokenKind) : Decidable (Grammar.beginsChange kind) :=
  inferInstanceAs (Decidable (_ ∨ _ ∨ _))

/-- The tokens in front of a semicolon in a batch, and the semicolon.  Only the first token can be
INSERT, UPDATE or DELETE. -/
structure BatchPart where
  first : Token
  more : List Token
  semicolon : Token
  first_inside : first.kind.isInPart = true
  more_inside : ∀ token ∈ more, token.kind.isInPart = true ∧ ¬ Grammar.beginsChange token.kind
  ends : semicolon.kind = .punctuation .semicolon

/-- A statement of a batch that stands alone. -/
def Modification.toStatement : Modification → Statement
  | .insert insertion => .insert insertion
  | .update change => .update change
  | .delete deletion => .delete deletion

namespace BatchPart

/-- The tokens in front of the semicolon. -/
def body (part : BatchPart) : List Token := part.first :: part.more

def tokens (part : BatchPart) : List Token := part.body ++ [part.semicolon]

/-- The tokens of parts, one after another. -/
def text (parts : List BatchPart) : List Token := parts.flatMap tokens

/-- Is the first token INSERT, UPDATE or DELETE? -/
def changes (part : BatchPart) : Bool := Grammar.beginsChange part.first.kind

/-- The tokens in front of the semicolon, for themselves, are accepted as this statement. -/
def IsAlone (part : BatchPart) (modification : Modification) : Prop :=
  ∃ parsed, ((Parser.ofTokens part.body).outcome.isSuccess = true ∧
    (Parser.ofTokens part.body).outcome.statement = some parsed) ∧
      parsed.statement = modification.toStatement

variable (part : BatchPart)

theorem inside_of_mem_body {token : Token} (mem : token ∈ part.body) : token.kind.isInPart = true := by
  rcases List.mem_cons.1 mem with rfl | mem
  · exact part.first_inside
  · exact (part.more_inside token mem).1

end BatchPart

theorem Grammar.takes_modificationAfter {opening : TokenKind} {rule : Rule Modification}
    (known : modificationAfter? opening = some rule) : rule.TakesOnly TokenKind.isInPart := by
  unfold modificationAfter? at known
  split at known
  · exact Option.some.inj known ▸ takes_inStatement (takes_insertion.map _)
  · exact Option.some.inj known ▸ takes_update.map _
  · exact Option.some.inj known ▸ takes_deletion.map _
  · exact absurd known (by simp)

/-! ### Statements that are accepted alone -/

theorem Modification.toStatement_injective {found other : Modification}
    (same : found.toStatement = other.toStatement) : found = other := by
  cases found <;> cases other <;> cases same <;> rfl

/-- The statements of a batch, for themselves, are INSERT, UPDATE and DELETE. -/
theorem Language.statement_toStatement {items : List Numbered} {found : Modification} :
    Language.statement items found.toStatement ↔ Language.modification items found := by
  have alone : Modification.toStatement <$> Language.modification =
      ((do Phrase.word .INSERT; return .insert (← Language.insertion)) <|>
      (do Phrase.word .UPDATE; return .update (← Language.update)) <|>
      (do Phrase.word .DELETE; return .delete (← Language.deletion)) : Phrase Statement) := by
    simp only [Language.modification, Phrase.map_orElse, map_bind, map_pure]
    rfl
  constructor
  · intro spelled
    have one : (Modification.toStatement <$> Language.modification) items found.toStatement →
        Language.modification items found := by
      intro mapped
      obtain ⟨other, spelled, same⟩ := Phrase.map_iff.1 mapped
      rwa [Modification.toStatement_injective same]
    rw [alone] at one
    rcases spelled with (spelled | spelled | spelled | spelled) | spelled | spelled | spelled
    · exact one (.inl spelled)
    · exact one (.inr (.inl spelled))
    · exact one (.inr (.inr spelled))
    · have isBatch : (do Phrase.word .BEGIN; return .batch (← Language.batch) : Phrase Statement).Gives
          fun statement => ∀ other : Modification, statement ≠ other.toStatement :=
        .bind fun _ => .bind fun _ => .pure fun other => by cases other <;> exact Statement.noConfusion
      exact absurd rfl (isBatch _ _ spelled found)
    · have selects := Parser.gives_selectStatement _ _ spelled
      cases found <;> cases selects
    · have commands := Parser.gives_administrativeStatement _ _ spelled
      cases found <;> cases commands
    · have creates := Parser.gives_tableStatement _ _ spelled
      cases found <;> cases creates
  · intro spelled
    have mapped : (Modification.toStatement <$> Language.modification) items found.toStatement :=
      Phrase.map_iff.2 ⟨found, spelled, rfl⟩
    rw [alone] at mapped
    rcases mapped with spelled | spelled | spelled
    · exact .inl (.inl spelled)
    · exact .inl (.inr (.inl spelled))
    · exact .inl (.inr (.inr (.inl spelled)))

/-- A stretch of semicolons without a semicolon is empty. -/
theorem Language.eq_nil_of_many_semicolons {items : List Numbered} {units : List Unit}
    (h : Phrase.many (Phrase.mark .semicolon) items units)
    (none : ∀ item ∈ items, item.kind ≠ .punctuation .semicolon) : items = [] :=
  List.eq_nil_iff_forall_not_mem.2 fun item mem =>
    none item mem (Grammar.kind_of_many_semicolons h item mem)

/-- The tokens, for themselves, are accepted as this statement. -/
def AcceptedAlone (tokens : List Token) (modification : Modification) : Prop :=
  ∃ parsed, ((Parser.ofTokens tokens).outcome.isSuccess = true ∧
    (Parser.ofTokens tokens).outcome.statement = some parsed) ∧
      parsed.statement = modification.toStatement

namespace AcceptedAlone

variable {tokens : List Token} {found : Modification}

/-- There is only one statement that tokens can be accepted as. -/
theorem unique {other : Modification} (h : AcceptedAlone tokens found)
    (h' : AcceptedAlone tokens other) : found = other := by
  obtain ⟨parsed, ⟨-, isFound⟩, same⟩ := h
  obtain ⟨parsed', ⟨-, isFound'⟩, same'⟩ := h'
  obtain rfl := Option.some.inj (isFound.symm.trans isFound')
  exact Modification.toStatement_injective (same.symm.trans same')

variable (inside : ∀ token ∈ tokens, token.kind.isInPart = true)
include inside

theorem sentence_eq : Language.sentence tokens = number 0 (tokens.map (·.toLexeme)) := by
  have whole : tokens.takeWhile (fun token => token.kind ≠ .endOfInput) = tokens :=
    List.takeWhile_eq_self_iff.2 fun token mem => by
      simpa using (TokenKind.isInPart_iff.1 (inside token mem)).2.2
  rw [Language.sentence, whole]

/-- Tokens that can stand inside a statement of a batch are accepted alone if and only if they are a
statement of the grammar. -/
theorem iff_modification : AcceptedAlone tokens found ↔
    Language.modification (number 0 (tokens.map (·.toLexeme))) found := by
  have noSemicolon : ∀ item ∈ number 0 (tokens.map (·.toLexeme)),
      item.kind ≠ .punctuation .semicolon := by
    intro item mem
    have among : item.lexeme ∈ (number 0 (tokens.map (·.toLexeme))).map (·.lexeme) :=
      List.mem_map.2 ⟨item, mem, rfl⟩
    rw [map_lexeme_number] at among
    obtain ⟨token, mem, same⟩ := List.mem_map.1 among
    rw [Numbered.kind, ← same]
    exact (TokenKind.isInPart_iff.1 (inside token mem)).1
  unfold AcceptedAlone
  rw [Parser.ofTokens_succeeds_iff, Parser.reads_sentence_iff, sentence_eq inside, Parser.query_iff,
    ← Language.statement_toStatement]
  constructor
  · rintro ⟨front, middle, rest, _, _, whole, before, spelled, behind⟩
    rw [whole] at noSemicolon
    obtain rfl := Language.eq_nil_of_many_semicolons before fun item mem =>
      noSemicolon item (List.mem_append_left _ mem)
    obtain rfl := Language.eq_nil_of_many_semicolons behind fun item mem =>
      noSemicolon item (List.mem_append_right _ (List.mem_append_right _ mem))
    rw [whole, List.nil_append, List.append_nil]
    exact spelled
  · intro spelled
    exact ⟨[], _, [], [], [], by rw [List.nil_append, List.append_nil], .none, spelled, .none⟩

/-- Such tokens begin with INSERT, UPDATE or DELETE. -/
theorem begins (h : AcceptedAlone tokens found) :
    ∃ first more, tokens = first :: more ∧ Grammar.beginsChange first.kind := by
  have opens := Grammar.opens_modification _ _ .endOfInput ((iff_modification inside).1 h) trivial
  cases tokens with
  | nil => simp [Phrase.opening, number, Grammar.beginsChange] at opens
  | cons first more => exact ⟨first, more, rfl, opens⟩

variable {state after : State} {rest : List Token} {rule : Rule Modification}
  (ahead : state.stream.ahead = tokens ++ rest)
include ahead

/-- Tokens that are read in a batch, without a report, are accepted alone, as an equal statement. -/
theorem of_reads (known : Grammar.modificationAfter? state.kind = some rule)
    (reads : rule.Reads state.advance found after) (atEnd : after.stream.ahead = rest) :
    ∃ alone, AcceptedAlone tokens alone ∧ (found == alone) = true := by
  obtain ⟨-, items, passes, spelled⟩ := Grammar.sound_modification known reads
  obtain ⟨taken, whole, rfl⟩ := passes.exists_taken
  obtain rfl : tokens = taken := by
    rw [ahead, atEnd] at whole
    exact List.append_cancel_right whole
  -- Alone, the bind markers are numbered from zero.
  obtain ⟨alone, spelled', same⟩ := Language.modification_of_renumbered 0 spelled
  exact ⟨alone, (iff_modification inside).2 spelled', same⟩

/-- Tokens that are accepted alone are read in a batch, as an equal statement, if the statement cannot go
on behind them. -/
theorem reads (h : AcceptedAlone tokens found)
    (follows : ∀ after : State, after.stream.ahead = rest → Grammar.endsChange after.kind) :
    ∃ rule kept after, Grammar.modificationAfter? state.kind = some rule ∧
      rule.Reads state.advance kept after ∧ after.stream.ahead = rest ∧ (kept == found) = true := by
  obtain ⟨after, passes, atEnd⟩ := State.passes_of_ahead ahead fun token mem =>
    (TokenKind.isInPart_iff.1 (inside token mem)).2.2
  -- In a batch they are numbered on from those in front of it.
  obtain ⟨kept, spelled, -⟩ :=
    Language.modification_of_renumbered state.markers.count ((iff_modification inside).1 h)
  obtain ⟨rule, known, reads⟩ := Grammar.complete_modification passes spelled (follows after atEnd)
  obtain ⟨alone, isAlone, same⟩ := of_reads inside ahead known reads atEnd
  exact ⟨rule, kept, after, known, reads, atEnd, h.unique isAlone ▸ same⟩

end AcceptedAlone

namespace BatchPart

variable {part : BatchPart} {found : Modification}

/-- A part that is accepted alone begins with INSERT, UPDATE or DELETE. -/
theorem IsAlone.changes (h : part.IsAlone found) : part.changes = true := by
  obtain ⟨first, more, same, begins⟩ := AcceptedAlone.begins (fun _ => part.inside_of_mem_body) h
  obtain ⟨rfl, -⟩ := List.cons.inj same
  exact decide_eq_true begins

/-! ### Parts in a batch -/

variable {state after : State} {rest : List Token} {rule : Rule Modification}

theorem kind_of_tokens (ahead : state.stream.ahead = part.tokens ++ rest) :
    state.kind = part.first.kind :=
  State.kind_of_ahead ahead

theorem ahead_of_body (ahead : state.stream.ahead = part.tokens ++ rest) :
    state.stream.ahead = part.body ++ part.semicolon :: rest := by
  rw [ahead, tokens, List.append_assoc, List.singleton_append]

/-- Behind its first token. -/
theorem ahead_of_tokens (ahead : state.stream.ahead = part.tokens ++ rest) :
    state.advance.stream.ahead = part.more ++ part.semicolon :: rest := by
  have cut : part.tokens ++ rest = part.first :: (part.more ++ part.semicolon :: rest) := by
    simp [tokens, body]
  exact State.ahead_advance (ahead.trans cut)

/-- The reading of a part stays in the part, whatever comes of it: it takes some of the tokens behind the
first one, and leaves the others in front of the semicolon. -/
theorem exists_rest (ahead : state.stream.ahead = part.tokens ++ rest)
    (known : Grammar.modificationAfter? part.first.kind = some rule) :
    ∃ taken left, part.more = taken ++ left ∧
      (rule.run state.advance).state.stream.ahead = left ++ part.semicolon :: rest := by
  obtain ⟨taken, whole, inside⟩ := (Grammar.takes_modificationAfter known state.advance).exists_taken
  rw [ahead_of_tokens ahead] at whole
  rcases List.append_eq_append_iff.1 whole with ⟨beyond, rfl, others⟩ | ⟨left, same, others⟩
  · -- Beyond the part comes the semicolon, which is not taken.
    cases beyond with
    | nil => exact ⟨part.more, [], (List.append_nil _).symm, others.symm⟩
    | cons token beyond =>
      obtain ⟨rfl, -⟩ := List.cons.inj others
      have inStatement := inside part.semicolon (by simp)
      rw [part.ends] at inStatement
      exact absurd inStatement (by decide)
  · exact ⟨taken, left, same, others⟩

/-- A part that is read in a batch to its end, and without a report, is accepted alone, as an equal
statement. -/
theorem isAlone_of_reads (ahead : state.stream.ahead = part.tokens ++ rest)
    (known : Grammar.modificationAfter? part.first.kind = some rule)
    (reads : rule.Reads state.advance found after)
    (atEnd : after.stream.ahead = part.semicolon :: rest) :
    ∃ alone, part.IsAlone alone ∧ (found == alone) = true := by
  rw [← kind_of_tokens ahead] at known
  exact AcceptedAlone.of_reads (fun _ => part.inside_of_mem_body) (ahead_of_body ahead) known reads atEnd

/-- A part that is accepted alone is read in a batch, to its end and as an equal statement. -/
theorem IsAlone.reads (h : part.IsAlone found) (ahead : state.stream.ahead = part.tokens ++ rest) :
    ∃ rule kept after, Grammar.modificationAfter? part.first.kind = some rule ∧
      rule.Reads state.advance kept after ∧ after.stream.ahead = part.semicolon :: rest ∧
        (kept == found) = true := by
  rw [← kind_of_tokens ahead]
  refine AcceptedAlone.reads (fun _ => part.inside_of_mem_body) (ahead_of_body ahead) h fun after atEnd => ?_
  rw [State.kind_of_ahead atEnd, part.ends]
  exact ⟨⟨by decide, by decide⟩, by decide⟩

end BatchPart

end Cql
