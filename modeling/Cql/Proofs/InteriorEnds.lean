/-
What stands behind the first end of the input.

A list of tokens may hold an end of input that is not the last token.  A parse that comes to it stops
there, and what stands behind it is not read.  There is one exception.  Where a statement of a batch
halts right at the end of the input, the recovery takes a token in order to get on, whatever it is, and so
takes the end.

* `Grammar.BreaksOff`, `Grammar.BatchBreaksOff` — a statement of a batch halts at the end mark;
* `Grammar.heedsEndAt_query` — **otherwise a parse heeds the end of the input**;
* `Grammar.BreaksOff.run_batchItems` — a batch that breaks off is read on behind the end;
* `Parser.outcome_behind_end_iff` — **what stands behind an end of input changes nothing exactly if no
  batch breaks off there**.
-/
import Cql.Proofs.BatchIsolation
import Cql.Proofs.HeedingRules
import Cql.Proofs.Yields

namespace Cql

namespace Grammar

open Rule (HeedsEnd HeedsEndAt)

/-! ### Batches that break off -/

/-- The items of a batch are read from the state on, and one of them is a statement that halts at the end
mark. -/
inductive BreaksOff : State → Prop
  | here {state : State} {token : Token} {rest : List Token} {rule : Rule Modification}
      (ahead : state.stream.ahead = token :: rest)
      (known : modificationAfter? token.kind = some rule)
      (halts : (rule.run state.advance).result = .error .recorded)
      (atEnd : (rule.run state.advance).state.stream.ahead = []) : BreaksOff state
  | later {state : State} {token : Token} {rest : List Token} {item : Option Modification}
      (ahead : state.stream.ahead = token :: rest) (opened : opensItem token.kind = true)
      (read : ((batchItem token.kind).run state.advance).result = .ok item)
      (others : BreaksOff ((batchItem token.kind).run state.advance).state) : BreaksOff state

/-- A batch is ahead of the state, behind any number of semicolons, and breaks off. -/
def BatchBreaksOff (state : State) : Prop :=
  ∃ first header, Rule.semicolons.Reads state () first ∧ first.kind = .keyword .BEGIN ∧
    (batchHeader.run first.advance).result = .ok header ∧
      BreaksOff (batchHeader.run first.advance).state

/-- The end of a batch, `APPLY BATCH`. -/
def batchEnd (header : BatchMode × Attributes) (modifications : List Modification) : Rule Batch := do
  Rule.keyword .APPLY "to end batch"
  Rule.keyword .BATCH "after APPLY"
  return { mode := header.1, attributes := header.2, modifications }

/-- What follows the beginning of a batch. -/
def batchRest (header : BatchMode × Attributes) : Rule Batch := do
  let modifications ← modifications
  if modifications.isEmpty && (← Rule.kind) = .keyword .APPLY then
    Rule.reportExpected "INSERT, UPDATE or DELETE" "in batch"
  batchEnd header modifications

theorem run_batch : batch.run = (batchHeader >>= batchRest).run := by
  symm
  refine (Rule.run_bind_assoc _ _ _).trans (Rule.run_bind_congr fun mode => ?_)
  refine (Rule.run_bind_assoc _ _ _).trans (Rule.run_bind_congr fun _ => ?_)
  exact (Rule.run_bind_assoc _ _ _).trans (Rule.run_bind_congr fun attributes => rfl)

/-! ### What heeds the end of the input -/

section

variable {state : State}

theorem heedsEndAt_skipModification {token : Token} {rest : List Token}
    (ahead : state.stream.ahead = token :: rest) : skipModification.HeedsEndAt state := by
  refine .kind_bind ?_
  split
  · exact .advance_bind_of_ahead ahead (HeedsEnd.skipUntil _ _)
  · exact HeedsEnd.skipUntil _ _

/-- An item of a batch heeds the end, unless it is a statement that halts there. -/
theorem heedsEndAt_batchItem {opening : TokenKind}
    (inside : ∀ rule, modificationAfter? opening = some rule →
      (rule.run state).result = .error .recorded → (rule.run state).state.stream.ahead ≠ []) :
    (batchItem opening).HeedsEndAt state := by
  unfold batchItem
  cases known : modificationAfter? opening with
  | none =>
    exact (HeedsEnd.position.bind fun _ => (HeedsEnd.report _ _).bind fun _ =>
      (HeedsEnd.skipUntil _).bind fun _ => .pure _) state
  | some rule =>
    refine .bind ((heedsEnd_modificationAfter known).attempt _) fun result found => ?_
    rw [Rule.state_attempt]
    cases result with
    | some modification => exact ((HeedsEnd.eatMark _).bind fun _ => .pure _) _
    | none =>
      obtain ⟨token, rest, ahead⟩ :=
        List.exists_cons_of_ne_nil (inside rule known (Rule.attempt_eq_ok_none.1 found))
      exact .bind (heedsEndAt_skipModification ahead) fun _ _ => .pure _

theorem heedsEndAt_batchItems (whole : ¬ BreaksOff state) : batchItems.HeedsEndAt state := by
  -- Each item takes a token, so the induction is on how many are ahead.
  generalize bound : state.stream.ahead.length = n
  induction n using Nat.strongRecOn generalizing state with
  | ind n ih =>
    refine .many_step rfl (fun token rest ahead _ => heedsEndAt_batchItem fun rule known halts atEnd =>
      whole (.here ahead known halts atEnd)) fun token rest item ahead opened read _ => ?_
    have shorter := ((batchItem token.kind).run_takes state.advance).length_le
    rw [State.ahead_advance ahead] at shorter
    refine ih _ ?_ (fun others => whole (.later ahead opened read others)) rfl
    rw [ahead, List.length_cons] at bound
    exact bound ▸ Nat.lt_succ_of_le shorter

theorem heedsEnd_batchHeader : batchHeader.HeedsEnd :=
  heedsEnd_batchMode.bind fun _ => (HeedsEnd.keyword _ _).bind fun _ => heedsEnd_usingClause.bind fun _ =>
    .pure _

theorem heedsEndAt_batch (whole : ∀ header, (batchHeader.run state).result = .ok header →
    ¬ BreaksOff (batchHeader.run state).state) : batch.HeedsEndAt state := by
  have closing : ∀ header modifications, (batchEnd header modifications).HeedsEnd := fun _ _ =>
    (HeedsEnd.keyword _ _).bind fun _ => (HeedsEnd.keyword _ _).bind fun _ => .pure _
  have parts : (batchHeader >>= batchRest).HeedsEndAt state :=
    .bind (heedsEnd_batchHeader _) fun header found =>
      .bind (.bind (heedsEndAt_batchItems (whole header found)) fun _ _ => .pure _) fun _ _ =>
        .kind_bind ((HeedsEnd.ite ((HeedsEnd.reportExpected _ _).bind fun _ => closing _ _) (closing _ _)) _)
  unfold HeedsEndAt
  rw [run_batch]
  exact parts

theorem heedsEndAt_query (whole : ¬ BatchBreaksOff state) : query.HeedsEndAt state := by
  obtain ⟨first, reads⟩ := exists_reads_semicolons state
  have before : (Rule.semicolons.run state).state = first := (Rule.reads_iff.1 reads).2.1
  refine .bind (HeedsEnd.semicolons _) fun _ _ => .bind (HeedsEnd.position _) fun _ _ => ?_
  rw [before]
  show HeedsEndAt first _
  refine .bind (.kind_bind ?_) fun _ _ => ?_
  · split
    · rename_i rest known
      by_cases isBatch : first.kind = .keyword .BEGIN
      · rw [isBatch] at known
        obtain rfl := Option.some.inj known
        refine .advance_bind (by simp [isBatch]) (.bind ?_ fun _ _ => .pure _)
        exact heedsEndAt_batch fun header found breaksOff =>
          whole ⟨first, header, reads, isBatch, found, breaksOff⟩
      · refine .advance_bind (fun atEnd => ?_) (heedsEnd_statementAfter known isBatch _)
        exact absurd (atEnd ▸ known) (by simp [statementAfter?])
    · exact HeedsEnd.expected _ _ _
  · refine ((HeedsEnd.since _).bind fun _ => .bind .semicolons fun _ => .kind_bind fun _ => ?_) _
    exact .ite (.kind_bind fun _ => HeedsEnd.here.bind fun _ => (HeedsEnd.report _ _).bind fun _ => .pure _)
      (.pure _)

/-! ### What is read behind the end -/

theorem succeedsAt_batchEnd {header : BatchMode × Attributes} {modifications : List Modification} :
    (batchEnd header modifications).SucceedsAt state ↔
      state.kind = .keyword .APPLY ∧ state.advance.kind = .keyword .BATCH := by
  constructor
  · intro succeeds
    obtain ⟨_, found, succeeds⟩ := Rule.succeedsAt_bind.1 succeeds
    have moved : ((Rule.keyword .APPLY "to end batch").run state).state = state.advance :=
      (Rule.ofKind_eq_ok found).2
    obtain ⟨_, found', -⟩ := Rule.succeedsAt_bind.1 succeeds
    rw [moved] at found'
    exact ⟨(Rule.ofKind_eq_ok found).1, (Rule.ofKind_eq_ok found').1⟩
  · rintro ⟨applies, closes⟩
    have first : (Rule.keyword .APPLY "to end batch").Reads state () state.advance :=
      Rule.reads_ofKind.2 ⟨applies, rfl⟩
    have second : (Rule.keyword .BATCH "after APPLY").Reads state.advance () state.advance.advance :=
      Rule.reads_ofKind.2 ⟨closes, rfl⟩
    exact (Rule.succeedsAt_bind_of_reads first).2
      ((Rule.succeedsAt_bind_of_reads second).2 (Rule.succeedsAt_pure _))

/-- The rest of a batch is read if its items are and APPLY BATCH stands behind them. -/
theorem succeedsAt_batchRest {header : BatchMode × Attributes} :
    (batchRest header).SucceedsAt state ↔ ∃ items, (batchItems.run state).result = .ok items ∧
      (batchItems.run state).state.kind = .keyword .APPLY ∧
      (batchItems.run state).state.advance.kind = .keyword .BATCH := by
  -- That a batch is empty is reported, which changes neither the state nor the result.
  have ending : ∀ (modifications : List Modification) (state : State), (do
      if modifications.isEmpty && (← Rule.kind) = .keyword .APPLY then
        Rule.reportExpected "INSERT, UPDATE or DELETE" "in batch"
      batchEnd header modifications : Rule Batch).SucceedsAt state ↔
        (batchEnd header modifications).SucceedsAt state := by
    intro modifications state
    show (if _ then _ else _ : Rule Batch).SucceedsAt state ↔ _
    split
    · exact Iff.rfl
    · exact Iff.rfl
  have items : ∀ found, (batchItems.run state).result = .ok found → modifications.run state =
      ⟨.ok (found.filterMap id), (batchItems.run state).state, (batchItems.run state).reports⟩ := by
    intro found result
    have unfolded : modifications.run state = (do
        return (← batchItems).filterMap id : Rule (List Modification)).run state := rfl
    rw [unfolded, Rule.run_bind_of_ok result]
    simp [Rule.run, Run.done, Pure.pure]
  constructor
  · intro succeeds
    obtain ⟨modifications, found, succeeds⟩ := Rule.succeedsAt_bind.1 succeeds
    obtain ⟨list, result, -⟩ := Rule.bind_eq_ok found
    rw [items list result, ending, succeedsAt_batchEnd] at succeeds
    exact ⟨list, result, succeeds⟩
  · rintro ⟨list, result, closes⟩
    refine Rule.succeedsAt_bind.2 ⟨list.filterMap id, by rw [items list result], ?_⟩
    rw [items list result, ending, succeedsAt_batchEnd]
    exact closes

theorem succeedsAt_batch : batch.SucceedsAt state ↔ ∃ header,
    (batchHeader.run state).result = .ok header ∧
      (batchRest header).SucceedsAt (batchHeader.run state).state := by
  unfold Rule.SucceedsAt
  rw [run_batch]
  exact Rule.succeedsAt_bind

/-- A query comes to a value if its statement does. -/
theorem succeedsAt_query {first : State} (reads : Rule.semicolons.Reads state () first) :
    query.SucceedsAt state ↔ statement.SucceedsAt first := by
  have rest : ∀ (found : Statement) (number : Nat) (after : State), (do
      let place ← Rule.since number
      Rule.semicolons
      if (← Rule.kind) ≠ .endOfInput then
        Rule.report (.trailing (← Rule.kind)) (← Rule.here)
      return (found, place) : Rule (Statement × Place)).SucceedsAt after := by
    intro found number after
    obtain ⟨last, reads⟩ := exists_reads_semicolons after
    refine Rule.succeedsAt_bind.2 ⟨_, rfl, (Rule.succeedsAt_bind_of_reads reads).2 ?_⟩
    show (if _ then _ else _ : Rule (Statement × Place)).SucceedsAt last
    split
    · exact ⟨_, rfl⟩
    · exact ⟨_, rfl⟩
  have place : Rule.position.Reads first first.stream.position first := rfl
  refine (Rule.succeedsAt_bind_of_reads reads).trans ((Rule.succeedsAt_bind_of_reads place).trans ?_)
  rw [Rule.succeedsAt_bind]
  exact exists_congr fun found => and_iff_left (rest _ _ _)

theorem succeedsAt_statement (isBatch : state.kind = .keyword .BEGIN) :
    statement.SucceedsAt state ↔ batch.SucceedsAt state.advance := by
  have opened : statement.SucceedsAt state ↔
      (Rule.advance >>= fun _ => Statement.batch <$> batch).SucceedsAt state := by
    have seen : Rule.kind.Reads state state.kind state := rfl
    unfold statement
    rw [Rule.succeedsAt_bind_of_reads seen, isBatch]
    rfl
  have taken : Rule.advance.Reads state () state.advance := rfl
  rw [opened, Rule.succeedsAt_bind_of_reads taken, Rule.succeedsAt_map]

/-- At the end mark, nothing is left to skip. -/
theorem reads_skipModification_of_nil (ahead : state.stream.ahead = []) :
    skipModification.Reads state () state := by
  have stays : state.advance = state := by simp [State.advance, TokenStream.advance, ahead]
  have skips : ∀ stops, (Rule.skipUntil stops).Reads state () state := fun stops =>
    Rule.reads_bind.2 ⟨[], state, Rule.run_many_of_nil ahead, Rule.reads_pure.2 ⟨rfl, rfl⟩⟩
  unfold skipModification
  rw [Rule.reads_kind_bind]
  split
  · rw [Rule.reads_advance_bind, stays]
    exact skips _
  · exact skips _

/-- Once the end is no longer the last token, it is skipped, up to the keyword that ends the batch. -/
theorem exists_reads_skipModification_prolong (ahead : state.stream.ahead = []) {apply : Token}
    (rest : List Token) (final : EndMark) (applies : apply.kind = .keyword .APPLY) : ∃ after,
      skipModification.Reads (state.prolong (apply :: rest) final) () after ∧
        after.stream.ahead = apply :: rest := by
  have front : (state.prolong (apply :: rest) final).advance.stream.ahead = [] ++ apply :: rest :=
    State.ahead_advance (State.ahead_prolong_nil ahead)
  have stop : apply.kind.isBatchBoundary = true := by
    rw [applies]
    rfl
  obtain ⟨after, reads, atStop⟩ := Rule.exists_reads_skipUntil front (by simp) stop
  have current : (state.prolong (apply :: rest) final).kind.isBatchBoundary = false := by
    rw [State.kind_prolong, State.kind_of_ahead_nil ahead]
    rfl
  refine ⟨after, ?_, atStop⟩
  unfold skipModification
  rw [Rule.reads_kind_bind, current]
  exact Rule.reads_advance_bind.2 reads

theorem batchItem_of_halt {opening : TokenKind} {rule : Rule Modification} {after : State}
    (known : modificationAfter? opening = some rule)
    (halts : (rule.run state).result = .error .recorded)
    (skips : skipModification.Reads (rule.run state).state () after) :
    ((batchItem opening).run state).result = .ok none ∧
      ((batchItem opening).run state).state = after := by
  have rest : (skipModification >>= fun _ => pure none : Rule (Option Modification)).Reads
      (rule.run state).state none after :=
    Rule.reads_bind.2 ⟨(), after, skips, Rule.reads_pure.2 ⟨rfl, rfl⟩⟩
  unfold batchItem
  rw [known]
  dsimp only
  rw [Rule.run_bind_of_ok (Rule.attempt_eq_ok_none.2 halts), Rule.state_attempt]
  dsimp only
  rw [Rule.Reads] at rest
  exact ⟨by rw [rest], by rw [rest]⟩

theorem batchItems_cons {token : Token} {front : List Token} {item : Option Modification}
    {items : List (Option Modification)} (ahead : state.stream.ahead = token :: front)
    (opened : opensItem token.kind = true)
    (read : ((batchItem token.kind).run state.advance).result = .ok item)
    (others : (batchItems.run ((batchItem token.kind).run state.advance).state).result = .ok items) :
    (batchItems.run state).result = .ok (item :: items) ∧ (batchItems.run state).state =
      (batchItems.run ((batchItem token.kind).run state.advance).state).state := by
  have round : batchItems.run state = _ := Rule.run_many_of_ok ahead opened read rfl
  rw [round]
  exact ⟨congrArg (Except.map (item :: ·)) others, rfl⟩

theorem BreaksOff.ahead_ne_nil (h : BreaksOff state) : state.stream.ahead ≠ [] := by
  cases h with
  | here ahead => simp [ahead]
  | later ahead => simp [ahead]

/-- An item in front of the statement that halts at the end does not itself halt there. -/
theorem heedsEndAt_batchItem_of_later {opening : TokenKind}
    (others : BreaksOff ((batchItem opening).run state).state) : (batchItem opening).HeedsEndAt state := by
  refine heedsEndAt_batchItem fun rule known halts atEnd => others.ahead_ne_nil ?_
  rw [(batchItem_of_halt known halts (reads_skipModification_of_nil atEnd)).2, atEnd]

/-- The items of a batch that breaks off are read up to the end, and behind the end if APPLY follows. -/
theorem BreaksOff.run_batchItems (h : BreaksOff state) (apply : Token) (rest : List Token)
    (final : EndMark) (applies : apply.kind = .keyword .APPLY) : ∃ items,
      (batchItems.run state).result = .ok items ∧ (batchItems.run state).state.stream.ahead = [] ∧
      (batchItems.run (state.prolong (apply :: rest) final)).result = .ok items ∧
      (batchItems.run (state.prolong (apply :: rest) final)).state.stream.ahead = apply :: rest := by
  induction h with
  | @here state token front rule ahead known halts atEnd =>
    have opened : opensItem token.kind = true :=
      opensItem_of_beginsChange (isSome_modificationAfter?_iff.1 (by rw [known]; rfl))
    have closed : opensItem apply.kind = false := by
      rw [applies]
      rfl
    obtain ⟨found, stays⟩ := batchItem_of_halt known halts (reads_skipModification_of_nil atEnd)
    have nothing : batchItems.run (rule.run state.advance).state = _ := Rule.run_many_of_nil atEnd
    rw [← stays] at nothing
    obtain ⟨read, after⟩ := batchItems_cons ahead opened found (congrArg Reply.result nothing)
    -- On the longer stream the statement halts in front of the same end, which is skipped.
    have heeds := heedsEnd_modificationAfter known state.advance (apply :: rest) final
    obtain ⟨last, skips, atApply⟩ := exists_reads_skipModification_prolong atEnd rest final applies
    rw [← State.advance_prolong ahead] at heeds
    obtain ⟨found', skipped⟩ := batchItem_of_halt known (by rw [heeds]; exact halts)
      (by rw [heeds]; exact skips)
    have nothing' : batchItems.run last = _ := Rule.run_many_of_closed atApply closed
    rw [← skipped] at nothing'
    obtain ⟨read', after'⟩ := batchItems_cons (State.ahead_prolong_cons ahead) opened found'
      (congrArg Reply.result nothing')
    refine ⟨[none], read, ?_, read', ?_⟩
    · rw [after, nothing, stays, atEnd]
    · rw [after', nothing', skipped, atApply]
  | @later state token front item ahead opened read others ih =>
    obtain ⟨items, found, atEnd, found', atApply⟩ := ih
    have heeds := heedsEndAt_batchItem_of_later others (apply :: rest) final
    rw [← State.advance_prolong ahead] at heeds
    obtain ⟨read', after⟩ := batchItems_cons ahead opened read found
    have longer : ((batchItem token.kind).run (state.prolong (apply :: rest) final).advance).result =
        .ok item := by
      rw [heeds]
      exact read
    obtain ⟨read'', after'⟩ := batchItems_cons (State.ahead_prolong_cons ahead) opened longer
      (by rw [heeds]; exact found')
    refine ⟨item :: items, read', ?_, read'', ?_⟩
    · rw [after, atEnd]
    · rw [after', heeds]
      exact atApply

/-- A batch that breaks off comes to no statement. -/
theorem BatchBreaksOff.not_succeedsAt_query (h : BatchBreaksOff state) : ¬ query.SucceedsAt state := by
  obtain ⟨first, header, reads, isBatch, found, breaksOff⟩ := h
  rw [succeedsAt_query reads, succeedsAt_statement isBatch, succeedsAt_batch]
  rintro ⟨header', -, succeeds⟩
  obtain ⟨items, -, applies, -⟩ := succeedsAt_batchRest.1 succeeds
  obtain ⟨_, -, atEnd, -⟩ := breaksOff.run_batchItems ⟨⟨.keyword .APPLY, ""⟩, .point 0⟩ []
    ⟨"", .point 0⟩ rfl
  rw [State.kind_of_ahead_nil atEnd] at applies
  exact absurd applies (by simp)

/-- With APPLY BATCH behind the end, it comes to a statement. -/
theorem BatchBreaksOff.succeedsAt_query_prolong (h : BatchBreaksOff state) (apply batch : Token)
    (final : EndMark) (applies : apply.kind = .keyword .APPLY) (closes : batch.kind = .keyword .BATCH) :
    query.SucceedsAt (state.prolong [apply, batch] final) := by
  obtain ⟨first, header, reads, isBatch, found, breaksOff⟩ := h
  have reads' : Rule.semicolons.Reads (state.prolong [apply, batch] final) ()
      (first.prolong [apply, batch] final) := by
    rw [Rule.Reads, HeedsEnd.semicolons, show Rule.semicolons.run state = _ from reads]
    rfl
  have isBatch' : (first.prolong [apply, batch] final).kind = .keyword .BEGIN := by
    rwa [State.kind_prolong]
  have heeds := heedsEnd_batchHeader first.advance [apply, batch] final
  rw [← State.advance_prolong_of_inside (by simp [isBatch])] at heeds
  rw [succeedsAt_query reads', succeedsAt_statement isBatch', succeedsAt_batch, heeds]
  refine ⟨header, found, ?_⟩
  obtain ⟨items, -, -, result, atApply⟩ := breaksOff.run_batchItems apply [batch] final applies
  refine succeedsAt_batchRest.2 ⟨items, result, ?_, ?_⟩
  · exact (State.kind_of_ahead atApply).trans applies
  · exact (State.kind_of_ahead (State.ahead_advance atApply)).trans closes

end

end Grammar

/-! ### Outcomes -/

theorem Place.span_prolong {stream : TokenStream} {place : Place}
    (first : place.first ≤ stream.body.length) (last : place.last ≤ stream.body.length)
    (more : List Token) (final : EndMark) : place.span (stream.prolong more final) = place.span stream := by
  have same : ∀ position, position ≤ stream.body.length →
      (stream.prolong more final).spanAt position = stream.spanAt position := by
    intro position inside
    have body : (stream.prolong more final).body = stream.body ++ stream.final.token :: more := by
      simp [TokenStream.body, TokenStream.prolong]
    unfold TokenStream.spanAt
    rw [body]
    rcases Nat.lt_or_eq_of_le inside with inside | rfl
    · rw [List.getElem?_append_left inside, List.getElem?_eq_getElem inside]
      rfl
    · simp
  cases place with
  | token position => exact same position first
  | stretch start stop => rw [Place.span, Place.span, same start first, same stop last]

/-- The place of a statement lies in front of where the cursor comes to rest. -/
theorem Grammar.place_of_query (state : State) : query.YieldsAt state fun found after =>
    found.2.first ≤ after.stream.position ∧ found.2.last ≤ after.stream.position := by
  have ending : ∀ (statement : Statement) (place : Place), (do
      Rule.semicolons
      if (← Rule.kind) ≠ .endOfInput then
        Rule.report (.trailing (← Rule.kind)) (← Rule.here)
      return (statement, place) : Rule (Statement × Place)).Yields fun found => found.2 = place :=
    fun _ _ => .after fun _ => .after fun _ => .ite
      (.after fun _ => .after fun _ => .after fun _ => .pure rfl) (.pure rfl)
  refine .bind fun _ _ => .bind fun first isFirst => .bind fun statement _ => .bind fun place isPlace =>
    .of_takes fun found result left => ?_
  have read := (Grammar.statement.run_takes (Rule.semicolons.run state).state).position_le
  obtain rfl := Except.ok.inj isFirst
  obtain rfl := Except.ok.inj isPlace
  rw [ending statement _ _ found result]
  exact ⟨Nat.le_trans read left.position_le, Nat.le_trans (Nat.sub_le _ 1) left.position_le⟩

/-- An end of input that is not the last token is the end mark of the tokens up to it. -/
theorem TokenStream.exists_prolong (front : List Token) (mark : EndMark) (next : Token)
    (more : List Token) : ∃ more' final, ofTokens (front ++ mark.token :: next :: more) =
      (ofTokens (front ++ [mark.token])).prolong more' final := by
  obtain ⟨others, last, cut⟩ : ∃ others last, next :: more = others ++ [last] :=
    ⟨_, _, (List.dropLast_append_getLast (List.cons_ne_nil next more)).symm⟩
  have whole : front ++ mark.token :: next :: more = (front ++ mark.token :: others) ++ [last] := by
    rw [cut]
    simp
  rw [ofTokens_concat, whole, ofTokens, List.getLast?_concat, List.dropLast_concat]
  by_cases ends : last.kind = .endOfInput
  · exact ⟨others, ⟨last.text, last.span⟩, by simp [ends, prolong]⟩
  · exact ⟨others ++ [last], ⟨"", .point last.span.stop⟩, by simp [ends, prolong]⟩

namespace Parser

open Grammar (BatchBreaksOff)

/-- If a parse heeds the end, nothing behind it matters. -/
theorem outcome_prolong (parser : Parser) (heeds : Grammar.query.HeedsEndAt parser.start)
    (more : List Token) (final : EndMark) :
    (⟨parser.stream.prolong more final, parser.earlier⟩ : Parser).outcome = parser.outcome := by
  set longer : Parser := ⟨parser.stream.prolong more final, parser.earlier⟩
  have reply : longer.reply = parser.reply.prolong more final := heeds more final
  have moved := parser.takes_reply.position_add_length
  have inside : parser.reply.state.stream.position ≤ parser.stream.body.length := by
    simp only [TokenStream.body, TokenStream.position, List.length_append, List.length_reverse] at moved ⊢
    omega
  have statement : longer.statement? longer.reply = parser.statement? parser.reply := by
    rw [reply]
    unfold statement?
    cases result : parser.reply.result with
    | error halt => simp [Reply.prolong, result]
    | ok found =>
      obtain ⟨first, last⟩ := Grammar.place_of_query parser.start found result
      have span := Place.span_prolong (Nat.le_trans first inside) (Nat.le_trans last inside) more final
      simp only [Reply.prolong, result]
      rw [show longer.stream = parser.stream.prolong more final from rfl, span]
      rfl
  have reports : ∀ report ∈ parser.reply.reports,
      report.diagnostic longer.stream = report.diagnostic parser.stream := by
    intro report mem
    have between := (Grammar.ordered_query parser.start).between report mem
    have last := Nat.le_trans between.le_high inside
    have span := Place.span_prolong (Nat.le_trans between.ordered last) last more final
    unfold Report.diagnostic
    rw [show longer.stream = parser.stream.prolong more final from rfl, span]
  have diagnostics : longer.diagnostics longer.reply = parser.diagnostics parser.reply := by
    rw [diagnostics_reply, diagnostics_reply, reply]
    exact congrArg (parser.earlier ++ ·) (List.map_congr_left reports)
  have halts : longer.reply.halt? = parser.reply.halt? := by
    rw [reply]
    rfl
  simp only [outcome, statement, diagnostics, halts]

theorem isSome_statement_iff (parser : Parser) :
    parser.outcome.statement.isSome = true ↔ Grammar.query.SucceedsAt parser.start := by
  have reply : Grammar.query.run parser.start = parser.reply := rfl
  unfold outcome statement? Rule.SucceedsAt
  rw [reply]
  cases result : parser.reply.result with
  | ok found => simp [result]
  | error halt => simp [result]

section

variable (front : List Token) (mark : EndMark)

/-- **What stands behind an end of input.**  The tokens behind an end of input change nothing, whatever
they are, exactly if there is no batch that breaks off right at this end. -/
theorem outcome_behind_end_iff :
    (∀ more, (ofTokens (front ++ mark.token :: more)).outcome =
        (ofTokens (front ++ [mark.token])).outcome) ↔
      ¬ BatchBreaksOff (ofTokens (front ++ [mark.token])).start := by
  constructor
  · intro same breaksOff
    let apply : Token := ⟨⟨.keyword .APPLY, "APPLY"⟩, .point 0⟩
    let batch : Token := ⟨⟨.keyword .BATCH, "BATCH"⟩, .point 0⟩
    have longer : (ofTokens (front ++ mark.token :: [apply, batch, mark.token])).start =
        (ofTokens (front ++ [mark.token])).start.prolong [apply, batch] mark := by
      have whole : front ++ mark.token :: [apply, batch, mark.token] =
          (front ++ mark.token :: [apply, batch]) ++ [mark.token] := by simp
      rw [start, start, ofTokens, ofTokens, whole, TokenStream.ofTokens_concat, TokenStream.ofTokens_concat]
      rfl
    have found := breaksOff.succeedsAt_query_prolong apply batch mark rfl rfl
    rw [← longer, ← isSome_statement_iff] at found
    rw [same, isSome_statement_iff] at found
    exact breaksOff.not_succeedsAt_query found
  · intro whole more
    cases more with
    | nil => rfl
    | cons next more =>
      obtain ⟨more, final, longer⟩ := TokenStream.exists_prolong front mark next more
      rw [ofTokens, longer]
      exact outcome_prolong _ (Grammar.heedsEndAt_query whole) more final

end

/-- A batch whose only statement halts at the end of the input. -/
def openBatch : List Token :=
  [⟨⟨.keyword .BEGIN, "BEGIN"⟩, ⟨0, 5⟩⟩, ⟨⟨.keyword .BATCH, "BATCH"⟩, ⟨6, 11⟩⟩,
    ⟨⟨.keyword .INSERT, "INSERT"⟩, ⟨12, 18⟩⟩]

/-- What would end the batch. -/
def closingWords : List Token :=
  [⟨⟨.keyword .APPLY, "APPLY"⟩, ⟨19, 24⟩⟩, ⟨⟨.keyword .BATCH, "BATCH"⟩, ⟨25, 30⟩⟩]

/-- Not everything behind an end of input is ignored: APPLY BATCH there closes a batch. -/
theorem not_outcome_behind_end : ¬ ∀ (front more : List Token) (mark : EndMark),
    (ofTokens (front ++ mark.token :: more)).outcome = (ofTokens (front ++ [mark.token])).outcome := by
  intro same
  have longer : (ofTokens (openBatch ++ EndMark.token ⟨"", .point 18⟩ :: closingWords)).outcome.statement.isSome
      = true := by decide +kernel
  have short : (ofTokens (openBatch ++ [EndMark.token ⟨"", .point 18⟩])).outcome.statement.isSome
      = false := by decide +kernel
  rw [same openBatch closingWords ⟨"", .point 18⟩, short] at longer
  exact absurd longer (by decide)

end Parser

end Cql
