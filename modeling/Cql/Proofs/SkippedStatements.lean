/-
The statements of a batch that are skipped.

The semicolons of a batch are optional, so a broken statement may be followed by the keyword of the next
one.  Where the whole statement is given up, it is skipped up to that keyword.  But the lists in a
statement are repaired on their own, and INSERT, UPDATE and DELETE do not stop that: if a relation or an
assignment halts and nothing else stops the skipping in front of the keyword, the keyword is skipped
too, and with it at least the beginning of a statement that may be well formed.

* `Grammar.StatementOverruns` — a list of a statement is skipped past some token ahead;
* `Grammar.overrunsAt_modificationAfter`, `Grammar.overrunsAt_batchItem` — a statement, and an item of a
  batch, takes the keyword of the next one exactly if that happens;
* `Grammar.Reaches` — the states in front of the items of a batch;
* `Grammar.exists_reaches_iff` — **an item begins at a keyword exactly if no list is skipped past it**.
-/
import Cql.Proofs.BatchIsolation
import Cql.Proofs.Overruns

namespace Cql

namespace Grammar

open Rule

/-! ### Lists that are skipped past a keyword -/

/-- What of an UPDATE stands in front of its assignments. -/
def updateHeading : Rule (TableName × Attributes) := do
  let table ← tableName
  let attributes ← usingClause
  Rule.keyword .SET "in UPDATE"
  return (table, attributes)

/-- What of an UPDATE stands in front of its relations. -/
def updateFront : Rule ((TableName × Attributes) × List (Identifier × Operation)) := do
  let heading ← updateHeading
  let operations ← assignments
  Rule.keyword .WHERE "in UPDATE"
  return (heading, operations)

/-- What of a DELETE stands in front of its relations. -/
def deletionFront : Rule (List DeletionTarget × TableName × Attributes) := do
  let targets ←
    if (← Rule.kind) = .keyword .FROM then pure [] else commaSeparated deletionTarget
  Rule.keyword .FROM "in DELETE"
  let table ← tableName
  let attributes ← timestampClause
  Rule.keyword .WHERE "in DELETE"
  return (targets, table, attributes)

theorem run_update : update.run = (updateFront >>= fun front => do
    return ⟨front.1.1, front.1.2, front.2, ← relations⟩).run := by
  symm
  refine (run_bind_assoc _ _ _).trans ?_
  refine (run_bind_assoc _ _ _).trans (run_bind_congr fun table => ?_)
  refine (run_bind_assoc _ _ _).trans (run_bind_congr fun attributes => ?_)
  refine (run_bind_assoc _ _ _).trans (run_bind_congr fun _ => ?_)
  refine (run_bind_assoc assignments _ _).trans (run_bind_congr fun operations => ?_)
  exact run_bind_assoc _ _ _

theorem run_deletion : deletion.run = (deletionFront >>= fun front => do
    return ⟨front.2.1, front.1, front.2.2, ← relations⟩).run := by
  symm
  refine (run_bind_assoc _ _ _).trans (run_bind_congr fun current => ?_)
  split
  all_goals
    refine (run_bind_assoc _ _ _).trans (run_bind_congr fun targets => ?_)
    refine (run_bind_assoc _ _ _).trans (run_bind_congr fun _ => ?_)
    refine (run_bind_assoc _ _ _).trans (run_bind_congr fun table => ?_)
    refine (run_bind_assoc _ _ _).trans (run_bind_congr fun attributes => ?_)
    exact run_bind_assoc _ _ _

theorem takes_updateHeading : updateHeading.TakesOnly TokenKind.isInStatement :=
  (takes_heading takes_tableName).bind fun _ => (takes_heading takes_usingClause).bind fun _ =>
    (TakesOnly.ofKind _ rfl).bind fun _ => .pure _

theorem takes_deletionFront : deletionFront.TakesOnly TokenKind.isInStatement := by
  have source : ∀ targets : List DeletionTarget, (do
      Rule.keyword .FROM "in DELETE"
      let table ← tableName
      let attributes ← timestampClause
      Rule.keyword .WHERE "in DELETE"
      return (targets, table, attributes) : Rule (List DeletionTarget × TableName × Attributes)).TakesOnly
        TokenKind.isInStatement := fun _ =>
    (TakesOnly.ofKind _ rfl).bind fun _ => (takes_heading takes_tableName).bind fun _ =>
      takes_timestampClause.bind fun _ => (TakesOnly.ofKind _ rfl).bind fun _ => .pure _
  refine TakesOnly.kind.bind fun _ => ?_
  split
  · exact (TakesOnly.pure _).bind fun _ => source _
  · exact (TakesOnly.separated rfl takes_deletionTarget).bind fun _ => source _

/-- Of a SET clause, an assignment halts in front of `rest`, and nothing ends the skipping before. -/
def AssignmentsOverrun (rest : List Token) : State → Prop :=
  ListOverruns (.punctuation .comma) (fun kind => kind = .punctuation .comma || kind.isClauseBoundary)
    (some <$> assignment) rest

/-- Of a WHERE clause, a relation does. -/
def RelationsOverrun (rest : List Token) : State → Prop :=
  ListOverruns (.keyword .AND) (fun kind => kind = .keyword .AND || kind.isClauseBoundary) relation rest

/-- A statement that begins with the keyword `opening` is read from behind it, and one of its lists is
skipped past the first of the tokens `rest`. -/
inductive StatementOverruns (rest : List Token) : TokenKind → State → Prop
  | assignments {state : State} {heading : TableName × Attributes}
      (found : (updateHeading.run state).result = .ok heading)
      (overrun : AssignmentsOverrun rest (updateHeading.run state).state) :
      StatementOverruns rest (.keyword .UPDATE) state
  | relationsOfUpdate {state : State} {front : (TableName × Attributes) × List (Identifier × Operation)}
      (found : (updateFront.run state).result = .ok front)
      (overrun : RelationsOverrun rest (updateFront.run state).state) :
      StatementOverruns rest (.keyword .UPDATE) state
  | relationsOfDeletion {state : State} {front : List DeletionTarget × TableName × Attributes}
      (found : (deletionFront.run state).result = .ok front)
      (overrun : RelationsOverrun rest (deletionFront.run state).state) :
      StatementOverruns rest (.keyword .DELETE) state

theorem StatementOverruns.isSuffix {rest : List Token} {opening : TokenKind} {state : State}
    (h : StatementOverruns rest opening state) : rest <:+ state.stream.ahead := by
  cases h with
  | assignments found overrun => exact overrun.isSuffix.trans (updateHeading.run_takes state).isSuffix
  | relationsOfUpdate found overrun => exact overrun.isSuffix.trans (updateFront.run_takes state).isSuffix
  | relationsOfDeletion found overrun =>
    exact overrun.isSuffix.trans (deletionFront.run_takes state).isSuffix

theorem StatementOverruns.beginsChange {rest : List Token} {opening : TokenKind} {state : State}
    (h : StatementOverruns rest opening state) : beginsChange opening := by
  cases h with
  | assignments => exact .inr (.inl rfl)
  | relationsOfUpdate => exact .inr (.inl rfl)
  | relationsOfDeletion => exact .inr (.inr rfl)

/-- A statement is only skipped past a token behind its own keyword. -/
theorem StatementOverruns.length_lt {rest : List Token} {state : State}
    (h : StatementOverruns rest state.kind state.advance) : rest.length < state.stream.ahead.length := by
  have inside : state.kind ≠ .endOfInput := fun atEnd => absurd (atEnd ▸ h.beginsChange) (by decide)
  obtain ⟨token, others, ahead, -⟩ := State.ahead_of_inside inside
  have shorter := h.isSuffix.length_le
  rw [State.ahead_advance ahead] at shorter
  rw [ahead, List.length_cons]
  omega

section

variable {next : Token} {more : List Token} {state : State} (begins : beginsChange next.kind)
include begins

theorem isBatchBoundary_of_beginsChange : next.kind.isBatchBoundary = true :=
  TokenKind.isBatchBoundary_iff.2 (.inl begins)

/-- What is not part of a list is not read past a keyword. -/
theorem not_overrunsAt_of_takes {α : Type} {rule : Rule α} (takes : rule.TakesOnly TokenKind.isInStatement)
    (ahead : next :: more <:+ state.stream.ahead) : ¬ rule.OverrunsAt (next :: more) state := by
  refine (takes state).not_overrunsAt ?_ ahead
  simp [TokenKind.isInStatement, isBatchBoundary_of_beginsChange begins]

/-- The recovery in a clause does not stop at such a keyword. -/
theorem overrunsAt_clause {α : Type} {separator : TokenKind} {item : Rule (Option α)}
    (takes : item.TakesOnly TokenKind.isInItem) (inside : ¬ beginsChange separator)
    (ahead : next :: more <:+ state.stream.ahead) :
    (gather separator TokenKind.isClauseBoundary item).OverrunsAt (next :: more) state ↔
      ListOverruns separator (fun kind => kind = separator || kind.isClauseBoundary) item (next :: more)
        state := by
  have other : next.kind.isInItem = false := by
    simp [TokenKind.isInItem, isBatchBoundary_of_beginsChange begins]
  have skipped : skips TokenKind.isClauseBoundary next = true := by
    rcases begins with kind | kind | kind
    all_goals
      rw [skips_iff, kind]
      decide
  exact overrunsAt_gather takes other (fun same => inside (same ▸ begins)) skipped ahead

/-- A statement that ends with relations. -/
theorem overrunsAt_bind_relations {α β : Type} {front : Rule α} {make : α → List Relation → β} :
    (front >>= fun a => make a <$> relations).OverrunsAt (next :: more) state ↔
      front.OverrunsAt (next :: more) state ∨ ∃ a, (front.run state).result = .ok a ∧
        RelationsOverrun (next :: more) (front.run state).state := by
  rw [overrunsAt_bind]
  by_cases left : front.OverrunsAt (next :: more) state
  · simp only [left, true_or]
  · have list := overrunsAt_clause begins takes_relation (by decide : ¬ beginsChange (.keyword .AND))
      (not_not.1 left)
    simp only [left, false_or, overrunsAt_map]
    exact exists_congr fun _ => and_congr_right fun _ => list

variable (ahead : next :: more <:+ state.stream.ahead)
include ahead

theorem overrunsAt_updateFront : updateFront.OverrunsAt (next :: more) state ↔
    ∃ heading, (updateHeading.run state).result = .ok heading ∧
      AssignmentsOverrun (next :: more) (updateHeading.run state).state := by
  have left := not_overrunsAt_of_takes begins takes_updateHeading ahead
  have list := overrunsAt_clause begins (takes_assignment.map some)
    (by decide : ¬ beginsChange (.punctuation .comma)) (not_not.1 left)
  have ending : (Rule.keyword .WHERE "in UPDATE").TakesOnly TokenKind.isInStatement := .ofKind _ rfl
  refine (overrunsAt_bind_of_not left).trans (exists_congr fun heading => and_congr_right fun _ => ?_)
  rw [AssignmentsOverrun, ← list]
  refine overrunsAt_bind.trans (or_iff_left_of_imp ?_)
  rintro ⟨operations, -, overruns⟩ assigned
  exact not_overrunsAt_of_takes begins (ending.bind fun _ => .pure _) assigned overruns

/-- A statement is skipped past a keyword exactly where one of its lists is. -/
theorem overrunsAt_modificationAfter {opening : TokenKind} {rule : Rule Modification}
    (known : modificationAfter? opening = some rule) :
    rule.OverrunsAt (next :: more) state ↔ StatementOverruns (next :: more) opening state := by
  unfold modificationAfter? at known
  split at known
  · obtain rfl := Option.some.inj known
    refine iff_of_false (not_overrunsAt_of_takes begins (takes_insertion.map _) ahead) ?_
    rintro ⟨⟩
  · obtain rfl := Option.some.inj known
    rw [overrunsAt_map, overrunsAt_congr run_update]
    refine (overrunsAt_bind_relations begins).trans ?_
    rw [overrunsAt_updateFront begins ahead]
    constructor
    · rintro (⟨heading, found, overrun⟩ | ⟨front, found, overrun⟩)
      · exact .assignments found overrun
      · exact .relationsOfUpdate found overrun
    · rintro (⟨found, overrun⟩ | ⟨found, overrun⟩)
      · exact .inl ⟨_, found, overrun⟩
      · exact .inr ⟨_, found, overrun⟩
  · obtain rfl := Option.some.inj known
    rw [overrunsAt_map, overrunsAt_congr run_deletion]
    refine (overrunsAt_bind_relations begins).trans ?_
    constructor
    · rintro (overruns | ⟨front, found, overrun⟩)
      · exact absurd overruns (not_overrunsAt_of_takes begins takes_deletionFront ahead)
      · exact .relationsOfDeletion found overrun
    · rintro (_ | _ | ⟨found, overrun⟩)
      exact .inr ⟨_, found, overrun⟩
  · exact absurd known (by simp)

/-- So is an item of a batch, since between statements the recovery stops at the keyword. -/
theorem overrunsAt_batchItem (opening : TokenKind) :
    (batchItem opening).OverrunsAt (next :: more) state ↔
      StatementOverruns (next :: more) opening state := by
  have stops : isPassedOver next.kind = false := by
    rw [isPassedOver, isBatchBoundary_of_beginsChange begins]
    rfl
  cases known : modificationAfter? opening with
  | none =>
    refine iff_of_false ((takes_stray opening known _).not_overrunsAt stops ahead) ?_
    rintro (_ | _ | _)
    all_goals cases known
  | some rule =>
    rw [← overrunsAt_modificationAfter begins ahead known]
    unfold batchItem
    rw [known]
    refine (overrunsAt_bind.trans (or_iff_left_of_imp ?_)).trans overrunsAt_attempt
    rintro ⟨result, -, overruns⟩ left
    cases result with
    | some modification =>
      have ending : (Rule.eatMark .semicolon).TakesOnly isPassedOver := .eatKind rfl
      exact ((ending.bind fun _ => .pure _) _).not_overrunsAt stops left overruns
    | none => exact ((takes_skipModification.bind fun _ => .pure _) _).not_overrunsAt stops left overruns

end

/-! ### Where the items of a batch begin -/

/-- From the first state on the items of a batch are read, and the second state is in front of one of them,
or behind all. -/
inductive Reaches : State → State → Prop
  | start (state : State) : Reaches state state
  | item {state after : State} {result : Option Modification} (opened : opensItem state.kind = true)
      (read : ((batchItem state.kind).run state.advance).result = .ok result)
      (others : Reaches ((batchItem state.kind).run state.advance).state after) : Reaches state after

theorem Reaches.isSuffix {state after : State} (h : Reaches state after) :
    after.stream.ahead <:+ state.stream.ahead := by
  induction h with
  | start state => exact List.suffix_refl _
  | @item state after result opened read others ih =>
    have advanced := (State.takes_kept.advance state).isSuffix
    exact ih.trans (((batchItem state.kind).run_takes state.advance).isSuffix.trans advanced)

/-- What does not hold in front of an item holds somewhere behind it, if at all. -/
theorem exists_reaches_step {state : State} {result : Option Modification} {P : State → Prop}
    (opened : opensItem state.kind = true)
    (read : ((batchItem state.kind).run state.advance).result = .ok result) (elsewhere : ¬ P state) :
    (∃ after, Reaches state after ∧ P after) ↔
      ∃ after, Reaches ((batchItem state.kind).run state.advance).state after ∧ P after := by
  constructor
  · rintro ⟨after, reaches, holds⟩
    cases reaches with
    | start => exact absurd holds elsewhere
    | item _ _ others => exact ⟨after, others, holds⟩
  · rintro ⟨after, reaches, holds⟩
    exact ⟨after, .item opened read reaches, holds⟩

/-- The items from a state on that is reached are the last ones of all. -/
theorem Reaches.exists_items {state after : State} (h : Reaches state after)
    {items : List (Option Modification)} (read : (batchItems.run state).result = .ok items) :
    ∃ front others, items = front ++ others ∧ (batchItems.run after).result = .ok others := by
  induction h generalizing items with
  | start state => exact ⟨[], items, rfl, read⟩
  | @item state after result opened found others ih =>
    have inside : state.kind ≠ .endOfInput := fun atEnd => by simp [atEnd, opensItem] at opened
    obtain ⟨token, rest, ahead, -⟩ := State.ahead_of_inside inside
    rw [State.kind_of_ahead ahead] at opened ih
    obtain ⟨first, items, rfl, -, later⟩ := many_eq_ok_of_ahead ahead opened read
    obtain ⟨front, others, rfl, same⟩ := ih later
    exact ⟨first :: front, others, rfl, same⟩

/-- **An item of a batch begins at a keyword** that can begin one if and only if no list of an item in
front of it is skipped past the keyword. -/
theorem exists_reaches_iff {next : Token} (begins : beginsChange next.kind) {front more : List Token}
    {state : State} (inFront : ∀ token ∈ front, opensItem token.kind = true)
    (ahead : state.stream.ahead = front ++ next :: more) {items : List (Option Modification)}
    (read : (batchItems.run state).result = .ok items) :
    (∃ after, Reaches state after ∧ after.stream.ahead = next :: more) ↔
      ¬ ∃ after, Reaches state after ∧ StatementOverruns (next :: more) after.kind after.advance := by
  -- Each item takes a token, so the induction is on how many are in front of the keyword.
  generalize bound : front.length = n
  induction n using Nat.strongRecOn generalizing front state items with
  | ind n ih =>
    cases front with
    | nil =>
      refine iff_of_true ⟨state, .start state, ahead⟩ ?_
      rintro ⟨after, reaches, overruns⟩
      -- Behind the keyword it cannot be skipped any more.
      have longer := overruns.length_lt
      have shorter := reaches.isSuffix.length_le
      rw [ahead, List.nil_append] at shorter
      omega
    | cons token front =>
      have ahead' : state.advance.stream.ahead = front ++ next :: more := State.ahead_advance ahead
      have current : state.kind = token.kind := State.kind_of_ahead ahead
      have opened := inFront token List.mem_cons_self
      obtain ⟨result, items, rfl, found, later⟩ := many_eq_ok_of_ahead ahead opened read
      rw [← current] at opened found later
      have elsewhere : state.stream.ahead ≠ next :: more := fun same => by
        have longer := congrArg List.length (ahead.symm.trans same)
        simp only [List.cons_append, List.length_cons, List.length_append] at longer
        omega
      have overruns := overrunsAt_batchItem begins ⟨front, ahead'.symm⟩ state.kind
      by_cases overrun : StatementOverruns (next :: more) state.kind state.advance
      · refine iff_of_false ?_ (not_not.2 ⟨state, .start state, overrun⟩)
        rintro ⟨after, reaches, atNext⟩
        cases reaches with
        | start => exact elsewhere atNext
        | item _ _ others => exact overruns.2 overrun (atNext ▸ others.isSuffix)
      · obtain ⟨front', left, shorter⟩ := ((batchItem state.kind).run_takes state.advance).exists_front
          ahead' (not_not.1 (overruns.not.2 overrun))
        have fewer : front'.length < n := bound ▸ Nat.lt_succ_of_le shorter.length_le
        have others := ih front'.length fewer
          (fun other mem => inFront other (List.mem_cons_of_mem _ (shorter.subset mem))) left later rfl
        exact (exists_reaches_step opened found elsewhere).trans
          (others.trans (not_congr (exists_reaches_step opened found overrun).symm))

end Grammar

end Cql
