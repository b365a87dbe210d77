/-
No batch is accepted before its end.

A batch ends with its only APPLY and the BATCH behind it.  Whatever a source is cut off at in front of
that, the tokens that are left lack one of the two; and what is left of the token or comment that is cut
in two makes up for neither.  So the source that is left is no batch with fewer statements, and it is no
other statement either, as it begins with BEGIN or has no keyword to begin with.

* `Grammar.takes_modifications` — the statements of a batch take no APPLY;
* `Language.exists_batch_end` — a statement that begins with BEGIN ends with its first APPLY and a BATCH;
* `no_shorter_statement` — the tokens of a batch without the last of them are no statement;
* `exists_cut_tokens` — the tokens of a source that is cut off;
* `rejects_truncatedBatch` — **a batch that is cut off is not accepted**.
-/
import Cql.Proofs.BatchIsolation
import Cql.Proofs.Fragments
import Cql.Proofs.StatementSpan

namespace Cql

open Bytes

/-! ### The end of a batch -/

namespace Grammar

open Rule

/-- The statements of a batch end in front of APPLY at the latest, however broken they are. -/
theorem takes_modifications : modifications.TakesOnly isBeforeApply := by
  refine (TakesOnly.many (fun kind opened => ?_) fun lexeme => takes_batchItem lexeme.kind).bind
    fun _ => .pure _
  exact decide_eq_true (of_decide_eq_true (Bool.and_eq_true_iff.1 opened).1)

theorem takes_batchHeader : batchHeader.TakesOnly isBeforeApply := by
  have mode : batchMode.TakesOnly isBeforeApply :=
    (TakesOnly.eatKind rfl).bind fun _ => .ite (.pure _)
      ((TakesOnly.eatKind rfl).bind fun _ => .ite (.pure _) (.pure _))
  have settings : usingClause.TakesOnly isBeforeApply :=
    (takes_inStatement (takes_heading takes_usingClause)).mono fun _ => isBeforeApply_of_isInPart
  exact mode.bind fun _ => (TakesOnly.ofKind _ rfl).bind fun _ => settings.bind fun _ => .pure _

/-- A batch that is read ends with its first APPLY and a BATCH. -/
theorem exists_end_of_batch {state after : State} {found : Batch} (reads : batch.Reads state found after) :
    ∃ items apply last, state.stream.ahead = items ++ apply :: last :: after.stream.ahead ∧
      (∀ token ∈ items, token.kind ≠ .keyword .APPLY) ∧ apply.kind = .keyword .APPLY ∧
      last.kind = .keyword .BATCH := by
  obtain ⟨mode, _, modeReads, reads⟩ := reads_bind.1 reads
  obtain ⟨_, _, keywordReads, reads⟩ := reads_bind.1 reads
  obtain ⟨attributes, _, usingReads, reads⟩ := reads_bind.1 reads
  obtain ⟨all, mid, itemReads, reads⟩ := reads_bind.1 reads
  have front : (batchHeader >>= fun _ => modifications).Reads state all mid :=
    reads_bind.2 ⟨(mode, attributes), _, reads_bind.2 ⟨mode, _, modeReads, reads_bind.2
      ⟨_, _, keywordReads, reads_bind.2 ⟨attributes, _, usingReads, reads_pure.2 ⟨rfl, rfl⟩⟩⟩⟩, itemReads⟩
  obtain ⟨items, ahead, before⟩ :=
    ((takes_batchHeader.bind fun _ => takes_modifications) state).exists_taken
  rw [(reads_iff.1 front).2.1] at ahead
  -- What is left of the batch is two tokens.
  obtain ⟨closing, passes, spelled⟩ := (recognizes_batchEnd mode attributes all).sound _ _ _ reads
  obtain ⟨_, _, _, rfl, ⟨rfl, -⟩, spelled⟩ := spelled
  obtain ⟨first, _, rfl, applies, spelled⟩ := Phrase.ofKind_bind_iff.1 spelled
  obtain ⟨second, _, rfl, closes, rfl, -⟩ := Phrase.ofKind_bind_iff.1 spelled
  obtain ⟨taken, ahead', numbered⟩ := passes.exists_taken
  match taken, numbered with
  | [apply, last], numbered =>
    simp only [List.nil_append, List.map_cons, number, List.cons.injEq] at numbered
    obtain ⟨rfl, rfl, -⟩ := numbered
    exact ⟨items, apply, last, by rw [ahead, ahead']; rfl,
      fun token mem => of_decide_eq_true (before token mem), applies, closes⟩

end Grammar

/-- The tokens of a statement that begins with BEGIN end with its only APPLY and a BATCH. -/
theorem Language.exists_batch_end {tokens : List Token} {statement : Statement}
    (inside : ∀ token ∈ tokens, token.kind ≠ .endOfInput)
    (spelled : Language.statement (number 0 (tokens.map (·.toLexeme))) statement) {first : Token}
    (opens : tokens.head? = some first) (begins : first.kind = .keyword .BEGIN) :
    ∃ items apply last, tokens = items ++ [apply, last] ∧
      (∀ token ∈ items, token.kind ≠ .keyword .APPLY) ∧ apply.kind = .keyword .APPLY ∧
      last.kind = .keyword .BATCH := by
  obtain ⟨more, rfl⟩ := List.head?_eq_some_iff.1 opens
  let start : State := ⟨⟨[], first :: more, "", .point 0⟩, .none⟩
  have ahead : start.stream.ahead = (first :: more) ++ [] := (List.append_nil _).symm
  obtain ⟨after, passes, atEnd⟩ := State.passes_of_ahead ahead inside
  have reads := Grammar.recognizes_statement.complete _ _ _ _ passes spelled
    (by rw [State.kind_of_ahead_nil atEnd]; rfl)
  obtain ⟨rule, known, reads⟩ := Grammar.reads_statement.1 reads
  have current : start.kind = .keyword .BEGIN := begins
  rw [current] at known
  obtain rfl := Option.some.inj known
  obtain ⟨found, reads, -⟩ := Rule.reads_map.1 reads
  obtain ⟨items, apply, last, ahead, before, applies, closes⟩ := Grammar.exists_end_of_batch reads
  rw [atEnd] at ahead
  refine ⟨first :: items, apply, last, congrArg (first :: ·) ahead, ?_, applies, closes⟩
  refine List.forall_mem_cons.2 ⟨?_, before⟩
  rw [begins]
  decide

theorem Language.head_of_batch {items : List Numbered} {found : Batch}
    (spelled : Language.statement items (.batch found)) :
    ∃ first rest, items = first :: rest ∧ first.kind = .keyword .BEGIN := by
  have other : ∀ {α : Type} {phrase : Phrase α} {keyword : Keyword} {make : α → Statement},
      (∀ a, make a ≠ .batch found) →
        ¬ (do Phrase.word keyword; return make (← phrase) : Phrase Statement) items (.batch found) := by
    rintro α phrase keyword make differs spelled
    obtain ⟨_, _, -, -, _, a, _, -, -, -, same⟩ := Phrase.ofKind_bind_iff.1 spelled
    exact differs a same.symm
  rcases Parser.anyStatement_of_statement spelled with
    (spelled | spelled | spelled | spelled) | spelled | spelled
  · exact absurd spelled (other fun _ => by simp)
  · exact absurd spelled (other fun _ => by simp)
  · exact absurd spelled (other fun _ => by simp)
  · obtain ⟨first, rest, rfl, begins, -⟩ := Phrase.ofKind_bind_iff.1 spelled
    exact ⟨first, rest, rfl, begins⟩
  · exact absurd spelled (other fun _ => by simp)
  · cases spelled.1

/-- The keywords that begin statements have letters that are no hexadecimal digits. -/
theorem Language.head_of_statement {items : List Numbered} {statement : Statement}
    (spelled : Language.statement items statement) : ∃ first rest keyword, items = first :: rest ∧
      first.kind = .keyword keyword ∧ keyword.spelling.toList.all Segment.isNumeric = false := by
  obtain ⟨keyword, rule, phrase, known, -, spelled⟩ := Grammar.statementAfter_of_statement spelled
  obtain ⟨first, rest, rfl, begins, -⟩ := Phrase.ofKind_bind_iff.1 spelled
  have letters : ∀ keyword ∈ Keyword.all, (Grammar.statementAfter? (.keyword keyword)).isSome = true →
      keyword.spelling.toList.all Segment.isNumeric = false := by decide
  exact ⟨first, rest, keyword, rfl, begins, letters keyword keyword.mem_all (by rw [known]; rfl)⟩

theorem exists_cons_of_number {tokens : List Token} {item : Numbered} {rest : List Numbered}
    (same : number 0 (tokens.map (·.toLexeme)) = item :: rest) :
    ∃ token more, tokens = token :: more ∧ token.kind = item.kind := by
  cases tokens with
  | nil => cases same
  | cons token more => exact ⟨token, more, rfl, congrArg Numbered.kind (List.cons.inj same).1⟩

/-! ### Batches that end too early -/

/-- Two lists with a first item of some kind in them are cut there in one way only. -/
theorem append_cons_inj {α : Type} {p : α → Prop} {front front' rest rest' : List α} {a a' : α}
    (before : ∀ b ∈ front, ¬ p b) (before' : ∀ b ∈ front', ¬ p b) (h : p a) (h' : p a')
    (same : front ++ a :: rest = front' ++ a' :: rest') : front = front' ∧ a = a' ∧ rest = rest' := by
  induction front generalizing front' with
  | nil =>
    cases front' with
    | nil => exact ⟨rfl, List.cons.inj same⟩
    | cons b front' =>
      obtain ⟨rfl, -⟩ := List.cons.inj same
      exact absurd h (before' a List.mem_cons_self)
  | cons b front ih =>
    cases front' with
    | nil =>
      obtain ⟨rfl, -⟩ := List.cons.inj same
      exact absurd h' (before b List.mem_cons_self)
    | cons b' front' =>
      obtain ⟨rfl, others⟩ := List.cons.inj same
      obtain ⟨rfl, rest⟩ := ih (fun b mem => before b (List.mem_cons_of_mem _ mem))
        (fun b mem => before' b (List.mem_cons_of_mem _ mem)) others
      exact ⟨rfl, rest⟩

/-- In what is `left` of a piece, a keyword was the front of the token that comes `next`. -/
def LeftOf (left next : List Token) : Prop :=
  ∀ token ∈ left, ∀ keyword : Keyword, token.kind = .keyword keyword →
    keyword.spelling.toList.all Segment.isNumeric = false → left = [token] ∧
      ∃ first more, next = first :: more ∧ Segment.Extends keyword first.kind

section

variable {passed left next behind : List Token} (leftOf : LeftOf left next) (nonempty : next ≠ [])
include leftOf nonempty

/-- The tokens of a batch without the last of them, and what is left of a piece, hold no end of a batch. -/
theorem no_batch_end {items items' : List Token} {apply last apply' last' : Token}
    (before : ∀ token ∈ items, token.kind ≠ .keyword .APPLY) (applies : apply.kind = .keyword .APPLY)
    (closes : last.kind = .keyword .BATCH)
    (before' : ∀ token ∈ items', token.kind ≠ .keyword .APPLY) (applies' : apply'.kind = .keyword .APPLY)
    (closes' : last'.kind = .keyword .BATCH) (whole : passed ++ next = items ++ [apply, last]) :
    passed ++ left ≠ items' ++ apply' :: last' :: behind := by
  intro short
  have split : passed ++ next = items ++ [apply] ++ [last] := by rw [whole]; simp
  rcases List.prefix_concat_iff.1 (isPrefix_of_cut split nonempty) with rfl | ⟨more, rfl⟩
  · -- BATCH would have to be left of a longer word, but it is what comes next.
    obtain rfl := List.append_cancel_left split
    rw [List.append_assoc] at short
    obtain ⟨-, -, rfl⟩ := append_cons_inj before before' applies applies' short
    obtain ⟨-, first, _, same, longer⟩ := leftOf last' List.mem_cons_self .BATCH closes' (by decide)
    obtain ⟨rfl, -⟩ := List.cons.inj same
    rw [closes] at longer
    exact longer.1 rfl
  · -- APPLY would have to be all that is left, and then BATCH is missing.
    have free : ∀ token ∈ passed, token.kind ≠ .keyword .APPLY :=
      fun token mem => before token (List.mem_append_left _ mem)
    have mem : apply' ∈ left := by
      have among : apply' ∈ passed ++ left := by simp [short]
      exact (List.mem_append.1 among).resolve_left fun mem => free apply' mem applies'
    obtain ⟨rfl, -⟩ := leftOf apply' mem .APPLY applies' (by decide)
    exact absurd (append_cons_inj free before' applies' applies' short).2.2 (by simp)

/-- The tokens of an accepted batch without the last of them, and what is left of a piece, are no
statement between semicolons. -/
theorem no_shorter_statement {front middle front' middle' : List Token} {found : Batch}
    {statement : Statement} (semicolons : ∀ token ∈ front, token.kind = .punctuation .semicolon)
    (semicolons' : ∀ token ∈ front', token.kind = .punctuation .semicolon)
    (inside : ∀ token ∈ middle, token.kind ≠ .endOfInput)
    (inside' : ∀ token ∈ middle', token.kind ≠ .endOfInput)
    (spelled : Language.statement (number 0 (middle.map (·.toLexeme))) (.batch found))
    (spelled' : Language.statement (number 0 (middle'.map (·.toLexeme))) statement)
    (whole : passed ++ next = front ++ middle) : passed ++ left ≠ front' ++ (middle' ++ behind) := by
  intro short
  obtain ⟨item, rest, items, begins⟩ := Language.head_of_batch spelled
  obtain ⟨first, more, rfl, kind⟩ := exists_cons_of_number items
  rw [← kind] at begins
  obtain ⟨item', rest', keyword, items', begins', letters⟩ := Language.head_of_statement spelled'
  obtain ⟨first', more', rfl, kind'⟩ := exists_cons_of_number items'
  rw [← kind'] at begins'
  have other : ¬ first.kind = .punctuation .semicolon := by simp [begins]
  have other' : ¬ first'.kind = .punctuation .semicolon := by simp [begins']
  -- Either BEGIN is in front of the cut, or the semicolons go on there.
  have cases : (∃ ending, passed = front ++ first :: ending ∧ more = ending ++ next) ∨
      (∀ token ∈ passed, token.kind = .punctuation .semicolon) ∧ ∃ token others, next = token :: others ∧
        (token.kind = .punctuation .semicolon ∨ token.kind = .keyword .BEGIN) := by
    rcases List.append_eq_append_iff.1 whole with ⟨rest, rfl, rfl⟩ | ⟨ending, rfl, split⟩
    · refine .inr ⟨fun token mem => semicolons token (List.mem_append_left _ mem), ?_⟩
      cases rest with
      | nil => exact ⟨first, more, rfl, .inr begins⟩
      | cons token rest => exact ⟨token, _, rfl, .inl (semicolons token (by simp))⟩
    · cases ending with
      | nil =>
        refine .inr ⟨fun token mem => semicolons token (by simpa using mem), first, more, ?_, .inr begins⟩
        simpa using split.symm
      | cons token ending =>
        obtain ⟨rfl, rfl⟩ := List.cons.inj split
        exact .inl ⟨ending, rfl, rfl⟩
  rcases cases with ⟨ending, rfl, rfl⟩ | ⟨all, token, others, rfl, kind⟩
  · -- The shorter text begins with the same BEGIN.
    simp only [List.append_assoc, List.cons_append] at short
    obtain ⟨rfl, rfl, same⟩ := append_cons_inj (p := fun token => token.kind ≠ .punctuation .semicolon)
      (fun token mem => not_not.2 (semicolons token mem))
      (fun token mem => not_not.2 (semicolons' token mem)) other other' short
    obtain ⟨items, apply, last, split, before, applies, closes⟩ :=
      Language.exists_batch_end inside spelled rfl begins
    obtain ⟨items', apply', last', split', before', applies', closes'⟩ :=
      Language.exists_batch_end inside' spelled' rfl begins
    have whole' : (first :: ending) ++ next = items ++ [apply, last] := split
    have short' : (first :: ending) ++ left = items' ++ apply' :: last' :: behind := by
      rw [List.cons_append, same, ← List.cons_append, split']
      simp
    exact no_batch_end leftOf nonempty before applies closes before' applies' closes' whole' short'
  · -- What is left of a semicolon or of BEGIN would have to begin the statement.
    have mem : first' ∈ left := by
      have among : first' ∈ passed ++ left := by simp [short]
      exact (List.mem_append.1 among).resolve_left fun mem => other' (all first' mem)
    obtain ⟨-, _, _, same, longer⟩ := leftOf first' mem keyword begins' letters
    obtain ⟨rfl, -⟩ := List.cons.inj same
    rcases kind with kind | kind
    · rw [kind] at longer
      exact longer
    · rw [kind] at longer
      have none : ∀ keyword ∈ Keyword.all,
          ¬ (keyword ≠ .BEGIN ∧ keyword.spelling.toList <+: Keyword.BEGIN.spelling.toList) := by decide
      exact none keyword keyword.mem_all longer

end

/-! ### Sources that are cut off -/

/-- The tokens of a source that is cut off in front of a token: those in front of the piece that is cut
in two, and what is left of that piece. -/
theorem exists_cut_tokens {source : String} (silent : (tokenize source).diagnostics = [])
    {inside behind : List Piece} (cut : pieces 0 0 source.toList = inside ++ behind)
    {more : List Piece} {last : Piece} {token : Token} (closes : inside = more ++ [last])
    (isToken : last.token? = some token) {front back : List Char}
    (split : Piece.texts inside = front ++ back) (nonempty : back ≠ []) :
    ∃ passed left next, inside.filterMap (·.token?) = passed ++ next ∧
      bodyOf (String.ofList front) = passed ++ left ∧ next ≠ [] ∧ LeftOf left next := by
  obtain ⟨before, piece, rest, head, tail, rfl, text, nonempty', rfl⟩ := exists_cut split nonempty
  rw [List.append_assoc, List.cons_append] at cut
  have sound : ∀ piece' ∈ before ++ piece :: (rest ++ behind), piece'.segment.problem = none := by
    rw [← cut]
    exact fun piece' mem => sound_of_mem_pieces silent mem
  have within : head <+: Piece.texts (piece :: (rest ++ behind)) := by
    refine ⟨tail ++ Piece.texts (rest ++ behind), ?_⟩
    rw [← List.append_assoc, ← text]
    rfl
  have fragment := pieces_append_of_isPrefix cut (fun piece' mem => sound piece' (by simp [mem])) within
  refine ⟨before.filterMap (·.token?), _, (piece :: rest).filterMap (·.token?), List.filterMap_append,
    by rw [bodyOf, String.toList_ofList, fragment, List.filterMap_append], ?_, ?_⟩
  · -- The last token is not in front of the piece that is cut in two.
    have mem : last ∈ piece :: rest := by
      have same := congrArg List.getLast? closes
      rw [List.getLast?_append, List.getLast?_concat, List.getLast?_cons] at same
      exact List.mem_of_getLast? (by simpa [List.getLast?_cons] using same)
    exact List.ne_nil_of_mem (List.mem_filterMap.2 ⟨last, mem, isToken⟩)
  · intro other mem keyword kind letters
    obtain ⟨before', after, standing⟩ := at_of_mem_pieces (by rw [cut]; simp : piece ∈ pieces 0 0 source.toList)
    have reads := standing.reads
    rw [text] at reads
    obtain ⟨alone, kind', content, longer⟩ :=
      keyword_of_fragment reads (sound piece (by simp)) nonempty' letters mem kind
    have isToken' : piece.token? = some ⟨⟨kind', String.ofList piece.text⟩, piece.span⟩ :=
      Piece.token?_eq_some.2 ⟨content, rfl⟩
    exact ⟨alone, _, _, List.filterMap_cons_some isToken', longer⟩

/-- **A truncated batch is never accepted.**  If a source is accepted as a batch, then what stands in
front of the boundary of a character before the end of the batch is not accepted, as whatever
statement. -/
theorem rejects_truncatedBatch {source : String} {parsed : ParsedStatement} {batch : Batch}
    (accepted : parse source = .ok parsed) (isBatch : parsed.statement = .batch batch) {cut : Nat}
    (boundary : IsBoundary cut source.toList) (inFront : cut < parsed.span.stop) :
    ∃ front rejection, slice? 0 cut source.toList = some front ∧
      parse (String.ofList front) = .error rejection ∧
      (parseOutcome (String.ofList front)).isSuccess = false := by
  obtain ⟨front, rest, split, rfl⟩ := boundary
  have rejects : ∀ other, parse (String.ofList front) ≠ .ok other := by
    intro other accepted'
    obtain ⟨silent, place, after, reads, made⟩ := parse_iff.1 accepted
    obtain ⟨semicolons, middle, back, body, all, -, spelled, rfl, -⟩ := exists_statement_tokens reads
    rw [isBatch] at spelled
    have nonempty : middle ≠ [] := by
      rintro rfl
      exact Language.ne_nil_of_statement spelled rfl
    obtain ⟨before, inside, behind, cut, rfl, rfl, rfl, tight⟩ := exists_pieces_around body nonempty
    have span : parsed.span.stop = size (Piece.texts (before ++ inside)) := by
      rw [made, Piece.texts_append, size_append]
      exact congrArg Span.stop (span_stretch cut tight)
    -- The cut is in front of the end of the last token.
    obtain ⟨rest', ends, nonempty'⟩ : ∃ rest', Piece.texts (before ++ inside) = front ++ rest' ∧
        rest' ≠ [] := by
      have spells : front ++ rest = Piece.texts (before ++ inside) ++ Piece.texts behind := by
        rw [← split, ← Piece.texts_append, List.append_assoc, ← cut, texts_pieces]
      rw [span] at inFront
      rcases List.append_eq_append_iff.1 spells with ⟨rest', same, -⟩ | ⟨more, rfl, -⟩
      · refine ⟨rest', same, ?_⟩
        rintro rfl
        rw [same, List.append_nil] at inFront
        exact Nat.lt_irrefl _ inFront
      · rw [size_append] at inFront
        omega
    obtain ⟨-, more, last, token, closes, isToken⟩ := tight
    obtain ⟨passed, left, next, whole, body', nonempty'', leftOf⟩ :=
      exists_cut_tokens silent (cut.trans (List.append_assoc _ _ _).symm)
        (show before ++ inside = (before ++ more) ++ [last] by rw [closes, List.append_assoc]) isToken ends
        nonempty'
    obtain ⟨-, place', after', reads', -⟩ := parse_iff.1 accepted'
    obtain ⟨semicolons', middle', back', short, all', -, spelled', -⟩ := exists_statement_tokens reads'
    have inBody : ∀ token ∈ bodyOf source, token.kind ≠ .endOfInput := (lossless_body source).kinds
    have inBody' : ∀ token ∈ bodyOf (String.ofList front), token.kind ≠ .endOfInput :=
      (lossless_body (String.ofList front)).kinds
    rw [body] at inBody
    rw [short] at inBody'
    refine no_shorter_statement leftOf nonempty'' all all' (fun token mem => inBody token (by simp [mem]))
      (fun token mem => inBody' token (by simp [mem])) spelled spelled' ?_ (body'.symm.trans short)
    rw [← whole, List.filterMap_append]
  have fails : (parseOutcome (String.ofList front)).isSuccess = false := by
    refine Bool.eq_false_iff.2 fun success => ?_
    obtain ⟨other, found⟩ := Option.isSome_iff_exists.1 (Bool.and_eq_true_iff.1 success).1
    exact rejects other (parse_eq_ok_iff.2 ⟨success, found⟩)
  have isFront : slice? 0 (size front) source.toList = some front :=
    slice?_eq_some.2 ⟨[], rest, split, rfl, Nat.zero_add _⟩
  cases result : parse (String.ofList front) with
  | ok other => exact absurd result (rejects other)
  | error rejection => exact ⟨front, rejection, isFront, result, fails⟩

/-- A batch in front of padding, with a word that goes on where APPLY ends. -/
def deletionsOfApplied : String :=
  "BEGIN BATCH DELETE FROM t WHERE applied = 1.5e+3 DELETE FROM t WHERE k = 'ü' APPLY BATCH;"

theorem rejects_truncatedBatch_deletions : ∃ parsed front rejection,
    parse deletionsOfApplied = .ok parsed ∧ parsed.span = ⟨0, 89⟩ ∧
    slice? 0 88 deletionsOfApplied.toList = some front ∧ parse (String.ofList front) = .error rejection ∧
    (parseOutcome (String.ofList front)).isSuccess = false := by
  have found : (parse deletionsOfApplied).toOption.map (fun parsed =>
      (parsed.span, parsed.statement matches .batch _)) = some (⟨0, 89⟩, true) := by decide +kernel
  have boundary : IsBoundary 88 deletionsOfApplied.toList :=
    ⟨deletionsOfApplied.toList.take 87, deletionsOfApplied.toList.drop 87,
      (List.take_append_drop _ _).symm, by decide +kernel⟩
  cases accepted : parse deletionsOfApplied with
  | error rejection =>
    rw [accepted] at found
    exact absurd found (by simp [Except.toOption])
  | ok parsed =>
    rw [accepted] at found
    obtain ⟨span, matched⟩ := Prod.mk.inj (Option.some.inj found)
    cases isBatch : parsed.statement with
    | batch batch =>
      obtain ⟨front, rejection, isFront, rejected, fails⟩ :=
        rejects_truncatedBatch accepted isBatch boundary (by rw [span]; decide)
      exact ⟨parsed, front, rejection, rfl, span, isFront, rejected, fails⟩
    | _ => simp [isBatch] at matched

end Cql
