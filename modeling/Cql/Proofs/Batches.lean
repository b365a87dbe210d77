/-
Batches are read as the grammar has them.

* `Grammar.reads_modification` — the statements that can stand in a batch, told by their keywords;
* `Grammar.recognizes_modifications` — the statements of a batch;
* `Grammar.recognizes_batch` — a batch after BEGIN.
-/
import Cql.Proofs.Updates

namespace Cql.Grammar

open Rule Phrase

/-! ### Statements inside a batch -/

/-- The tokens that can follow a statement that changes rows. -/
def endsChange (kind : TokenKind) : Prop :=
  endsSettings kind ∧ kind ≠ .keyword .USING

/-- The keywords of the statements that can stand in a batch. -/
def beginsChange (kind : TokenKind) : Prop :=
  kind = .keyword .INSERT ∨ kind = .keyword .UPDATE ∨ kind = .keyword .DELETE

theorem opens_modification : Language.modification.Opens anything beginsChange :=
  .orElse (.andThen (.ofKind (.inl rfl)))
    (.orElse (.andThen (.ofKind (.inr (.inl rfl)))) (.andThen (.ofKind (.inr (.inr rfl)))))

theorem recognizes_insert : (.insert <$> insertion : Rule Modification).Recognizes
    (do return .insert (← Language.insertion)) endsChange :=
  recognizes_insertion.map Modification.insert

theorem recognizes_updateOf : (.update <$> update : Rule Modification).Recognizes
    (do return .update (← Language.update)) endsChange :=
  (recognizes_update.narrow fun _ follows => follows.1.1).map Modification.update

theorem recognizes_delete : (.delete <$> deletion : Rule Modification).Recognizes
    (do return .delete (← Language.deletion)) endsChange :=
  (recognizes_deletion.narrow fun _ follows => follows.1.1).map Modification.delete

theorem sound_modification {state after : State} {rule : Rule Modification}
    {modification : Modification} (known : modificationAfter? state.kind = some rule)
    (reads : rule.Reads state.advance modification after) :
    beginsChange state.kind ∧
      ∃ items, state.Passes items after ∧ Language.modification items modification := by
  unfold modificationAfter? at known
  split at known
  · rename_i current
    obtain rfl := Option.some.inj known
    obtain ⟨items, passes, spelled⟩ := recognizes_insert.spelled_after current reads
    exact ⟨.inl current, items, passes, .inl spelled⟩
  · rename_i current
    obtain rfl := Option.some.inj known
    obtain ⟨items, passes, spelled⟩ := recognizes_updateOf.spelled_after current reads
    exact ⟨.inr (.inl current), items, passes, .inr (.inl spelled)⟩
  · rename_i current
    obtain rfl := Option.some.inj known
    obtain ⟨items, passes, spelled⟩ := recognizes_delete.spelled_after current reads
    exact ⟨.inr (.inr current), items, passes, .inr (.inr spelled)⟩
  · exact absurd known (by simp)

theorem complete_modification {state after : State} {items : List Numbered}
    {modification : Modification} (passes : state.Passes items after)
    (spelled : Language.modification items modification) (follows : endsChange after.kind) :
    ∃ rule, modificationAfter? state.kind = some rule ∧
      rule.Reads state.advance modification after := by
  rcases spelled with spelled | spelled | spelled
  · obtain ⟨current, reads⟩ := recognizes_insert.reads_after passes spelled follows
    exact ⟨_, by rw [current]; rfl, reads⟩
  · obtain ⟨current, reads⟩ := recognizes_updateOf.reads_after passes spelled follows
    exact ⟨_, by rw [current]; rfl, reads⟩
  · obtain ⟨current, reads⟩ := recognizes_delete.reads_after passes spelled follows
    exact ⟨_, by rw [current]; rfl, reads⟩

/-- A statement of a batch that reports nothing. -/
theorem reads_batchItem {kind : TokenKind} {state after : State} {result : Option Modification} :
    (batchItem kind).Reads state result after ↔ ∃ rule modification mid,
      modificationAfter? kind = some rule ∧ rule.Reads state modification mid ∧
        (eatMark .semicolon >>= fun _ => pure (some modification)).Reads mid result after := by
  unfold batchItem
  cases known : modificationAfter? kind with
  | none =>
    constructor
    · intro h
      dsimp only at h
      rw [reads_position_bind] at h
      exact absurd h not_reads_report_bind
    · rintro ⟨rule, modification, mid, impossible, -⟩
      exact absurd impossible (by simp)
  | some rule =>
    dsimp only
    rw [reads_bind]
    constructor
    · rintro ⟨read, mid, first, second⟩
      obtain ⟨modification, rfl, reads⟩ := reads_attempt.1 first
      exact ⟨rule, modification, mid, rfl, reads, second⟩
    · rintro ⟨rule', modification, mid, same, reads, second⟩
      obtain rfl := Option.some.inj same
      exact ⟨some modification, mid, reads_attempt.2 ⟨modification, rfl, reads⟩, second⟩

/-- The kinds of tokens that are taken for the beginning of a statement in a batch. -/
def opensItem (kind : TokenKind) : Bool :=
  kind ≠ .keyword .APPLY && kind ≠ .endOfInput

theorem opensItem_of_beginsChange {kind : TokenKind} (h : beginsChange kind) :
    opensItem kind = true := by
  rcases h with rfl | rfl | rfl
  · decide
  · decide
  · decide

/-- An optional semicolon, after which the statement is given back. -/
theorem recognizes_semicolonAfter (modification : Modification) :
    (eatMark .semicolon >>= fun _ => pure (some modification)).Recognizes
      (optionally (mark .semicolon) >>= fun _ => pure (some modification))
      (· ≠ .punctuation .semicolon) :=
  .optionally (by decide) (.pure _) (.pure _ fun _ => id)

theorem recognizes_batchItem :
    (opened opensItem fun lexeme => batchItem lexeme.kind).Recognizes (some <$> Language.batchItem)
      fun kind => endsChange kind ∧ kind ≠ .punctuation .semicolon := by
  have shape : some <$> Language.batchItem = (do
      let modification ← Language.modification
      optionally (mark .semicolon)
      return some modification) := by
    simp only [Language.batchItem, map_bind, map_pure]
  rw [shape]
  constructor
  · intro state result after h
    obtain ⟨-, reads⟩ := reads_opened.1 h
    obtain ⟨rule, modification, mid, known, first, second⟩ := reads_batchItem.1 reads
    obtain ⟨-, front, passes, spelled⟩ := sound_modification known first
    obtain ⟨rest, passes', spelled'⟩ := (recognizes_semicolonAfter modification).sound _ _ _ second
    exact ⟨front ++ rest, passes.trans passes', front, modification, rest, rfl, spelled, spelled'⟩
  · rintro state items result after passes ⟨front, modification, rest, rfl, spelled, spelled'⟩ follows
    obtain ⟨mid, passes₁, passes₂⟩ := passes.split
    -- The statement ends in front of its semicolon, or where the item ends.
    have ends : endsChange mid.kind := by
      have opens : (optionally (mark .semicolon) >>= fun _ => pure (some modification) :
          Phrase (Option Modification)).Opens
          (fun kind => endsChange kind ∧ kind ≠ .punctuation .semicolon) endsChange := by
        refine .bind (.orElse (.ofKind ?_) (.pure _ fun _ => id)) fun _ => .pure _ fun _ h => h.1
        exact ⟨⟨by decide, by decide⟩, by decide⟩
      rw [passes₂.kind_eq]
      exact opens _ _ _ spelled' follows
    obtain ⟨rule, known, first⟩ := complete_modification passes₁ spelled ends
    have begins := opens_modification _ _ mid.kind spelled trivial
    rw [← passes₁.kind_eq] at begins
    refine reads_opened.2 ⟨opensItem_of_beginsChange begins, reads_batchItem.2 ?_⟩
    refine ⟨rule, modification, mid, known, first, ?_⟩
    exact (recognizes_semicolonAfter modification).complete _ _ _ _ passes₂ spelled' follows.2

theorem recognizes_modifications :
    modifications.Recognizes (many Language.batchItem) (· = .keyword .APPLY) := by
  have opens : (some <$> Language.batchItem).Opens anything beginsChange := opens_modification.andThen.map
  have items : (Rule.many opensItem (fun _ => true) fun lexeme => batchItem lexeme.kind).Recognizes
      (many (some <$> Language.batchItem)) (· = .keyword .APPLY) := by
    refine .many rfl opens (recognizes_batchItem.narrow ?_) ?_
    · rintro _ (rfl | rfl | rfl | rfl)
      · exact ⟨⟨⟨by decide, by decide⟩, by decide⟩, by decide⟩
      · exact ⟨⟨⟨by decide, by decide⟩, by decide⟩, by decide⟩
      · exact ⟨⟨⟨by decide, by decide⟩, by decide⟩, by decide⟩
      · exact ⟨⟨⟨by decide, by decide⟩, by decide⟩, by decide⟩
    · rintro _ rfl
      decide
  refine (items.map fun parts => parts.filterMap id).congr (fun _ _ _ => Iff.rfl) fun items as => ?_
  rw [many_map, map_iff]
  constructor
  · intro spelled
    exact ⟨as.map some, map_iff.2 ⟨as, spelled, rfl⟩, by simp⟩
  · rintro ⟨parts, spelled, rfl⟩
    obtain ⟨as, spelled', rfl⟩ := map_iff.1 spelled
    simpa using spelled'

/-! ### Batches -/

theorem recognizes_batchMode :
    batchMode.Recognizes Language.batchMode (· = .keyword .BATCH) := by
  refine .ifWord (.pure _) (.ifWord (.pure _) (.pure _) ?_) ?_
  · refine .pure _ ?_
    rintro _ rfl
    decide
  · refine .orElse (.andThen (.ofKind (by decide))) (.pure _ ?_)
    rintro _ rfl
    decide

/-- The end of a batch, which must not be empty. -/
theorem recognizes_batchEnd (mode : BatchMode) (attributes : Attributes) (all : List Modification) :
    (do
      if all.isEmpty && (← kind) = .keyword .APPLY then
        reportExpected "INSERT, UPDATE or DELETE" "in batch"
      keyword .APPLY "to end batch"
      keyword .BATCH "after APPLY"
      return ⟨mode, attributes, all⟩ : Rule Batch).Recognizes (do
      require (all ≠ [])
      word .APPLY
      word .BATCH
      return ⟨mode, attributes, all⟩) anything := by
  have ending : (do
      keyword .APPLY "to end batch"
      keyword .BATCH "after APPLY"
      return ⟨mode, attributes, all⟩ : Rule Batch).Recognizes (do
      word .APPLY
      word .BATCH
      return ⟨mode, attributes, all⟩) anything :=
    (Recognizes.keyword _ _).andThen fun _ => (Recognizes.keyword _ _).andThen fun _ => .pure _
  have whole : (if all ≠ [] then (do
      keyword .APPLY "to end batch"
      keyword .BATCH "after APPLY"
      return ⟨mode, attributes, all⟩) else expected "" "" : Rule Batch).Recognizes _ anything :=
    .ifHolds ending fun _ _ _ => not_reads_expected
  refine whole.congr (fun state found after => ?_) fun _ _ => Iff.rfl
  rw [reads_kind_bind]
  cases all with
  | cons first rest => simp
  | nil =>
    have empty : ¬ ([] : List Modification) ≠ [] := by simp
    rw [if_neg empty]
    -- An empty batch is reported in front of APPLY, and lacks APPLY in front of anything else.
    constructor
    · intro h
      dsimp only at h
      by_cases atEnd : state.kind = .keyword .APPLY
      · rw [if_pos (by simp [atEnd])] at h
        obtain ⟨u, mid, reported, -⟩ := reads_bind.1 h
        unfold reportExpected at reported
        rw [reads_kind_bind, reads_here_bind] at reported
        exact absurd reported not_reads_report
      · rw [if_neg (by simp [atEnd])] at h
        obtain ⟨u, mid, taken, -⟩ := reads_bind.1 h
        exact absurd (reads_ofKind.1 taken).1 atEnd
    · exact fun h => absurd h not_reads_expected

theorem recognizes_batch : batch.Recognizes Language.batch anything := by
  have shape : Language.batch = (do
      let mode ← Language.batchMode
      word .BATCH
      let attributes ← Language.usingClause
      let all ← many Language.batchItem
      require (all ≠ [])
      word .APPLY
      word .BATCH
      return ⟨mode, attributes, all⟩) := by
    unfold Language.batch
    refine congrArg (Language.batchMode >>= ·) (funext fun mode => ?_)
    refine congrArg (word .BATCH >>= ·) (funext fun _ => ?_)
    refine congrArg (Language.usingClause >>= ·) (funext fun attributes => ?_)
    exact many_ne_nil Language.batchItem fun all => do
      word .APPLY
      word .BATCH
      return (⟨mode, attributes, all⟩ : Batch)
  have opens : Language.batchItem.Opens anything beginsChange := opens_modification.andThen
  -- No part can go on into the next: each of those opens with a keyword of its own.
  rw [shape]
  refine recognizes_batchMode.bind (fun mode => ?_) fun _ => .andThen (.ofKind rfl)
  refine (Recognizes.keyword _ _).andThen fun _ => ?_
  refine recognizes_usingClause.bind (fun attributes => ?_) fun attributes => ?_
  · refine recognizes_modifications.bind (recognizes_batchEnd mode attributes) fun all => ?_
    exact .bind (.require fun _ => id) fun _ => .andThen (.ofKind rfl)
  · have begins : ∀ kind, beginsChange kind → endsSettings kind ∧ kind ≠ .keyword .USING := by
      rintro _ (rfl | rfl | rfl)
      · exact ⟨⟨by decide, by decide⟩, by decide⟩
      · exact ⟨⟨by decide, by decide⟩, by decide⟩
      · exact ⟨⟨by decide, by decide⟩, by decide⟩
    have applies : ∀ all : List Modification, (do
        require (all ≠ [])
        word .APPLY
        word .BATCH
        return ⟨mode, attributes, all⟩ : Phrase Batch).Opens anything (· = .keyword .APPLY) :=
      fun all => .bind (.require fun _ => id) fun _ => .andThen (.ofKind rfl)
    refine .bind (.many (opens.weaken (fun _ => id) begins) ?_) applies
    rintro _ rfl
    exact ⟨⟨by decide, by decide⟩, by decide⟩

end Cql.Grammar
