/-
Broken assignments and relations leave their neighbours alone.

A SET clause is cut at its commas into segments, and a WHERE clause at the ANDs between its relations.
A segment is either taken whole or broken, and what is left of a broken one is skipped; so the clause
comes to the assignments or relations of the other segments, and what is reported of it is what is
reported of each segment.  Only an assignment can run on behind its segment: in a list or a map that is
not closed, the comma is one of its own.

* `Rule.Collects` — what a clause comes to, segment by segment;
* `Joined.collects` — a list that may be broken comes to what its stretches do;
* `Grammar.clauses_collect_segments` — **the two clauses**;
* `Grammar.not_assignments_collect` — an assignment that runs on takes its neighbour with it.
-/
import Cql.Proofs.BatchIsolation
import Cql.Proofs.Stretches

namespace Cql

variable {α β : Type} {state after : State}

/-- A stretch whose result is seen as something else. -/
def Stretch.map (f : α → β) (stretch : Stretch α) : Stretch β :=
  { stretch with result? := stretch.result?.map f }

/-- What the stretches come to that are not broken, in their order, as far as it counts. -/
def Stretch.nodes (node? : α → Option β) (stretches : List (Stretch α)) : List β :=
  stretches.filterMap fun stretch => stretch.result?.bind node?

namespace Rule

/-- What a list makes of its stretches: it ends behind the last one, reports what is reported of each of
them and something of every broken one, and comes to their nodes, unless one is broken and there are no
nodes. -/
structure Collects (list : Rule (List β)) (node? : α → Option β) (state : State)
    (stretches : List (Stretch α)) (after : State) : Prop where
  state_eq : (list.run state).state = after
  reports_eq : (list.run state).reports = stretches.flatMap (·.reports)
  explained : ∀ stretch ∈ stretches, stretch.result? = none → stretch.reports ≠ []
  result_eq : (list.run state).result =
    if (∃ stretch ∈ stretches, stretch.result? = none) ∧ Stretch.nodes node? stretches = [] then
      .error .recorded
    else .ok (Stretch.nodes node? stretches)

theorem Makes.map {item : Rule α} {inside : TokenKind → Bool} {stretch : Stretch α} (f : α → β)
    (makes : item.Makes some inside state stretch after) :
    (f <$> item).Makes some inside state (stretch.map f) after := by
  cases makes with
  | whole run good ahead =>
    obtain rfl := Option.some.inj good
    exact .whole (run_bind_of_reads run (reads_pure.2 ⟨rfl, rfl⟩)) rfl ahead
  | broken fails takes ahead markers all =>
    have halts : (item.run state).result = .error .recorded :=
      fails.resolve_right fun ⟨_, _, bad⟩ => by cases bad
    have same : (f <$> item).run state =
        ⟨.error .recorded, (item.run state).state, (item.run state).reports⟩ := run_bind_of_error halts
    have mapped : (f <$> item).Makes some inside state ⟨_, none, ((f <$> item).run state).reports⟩ after :=
      .broken (.inl (congrArg Reply.result same)) takes ahead (by rw [same, markers]) all
    rwa [same] at mapped

end Rule

/-- What a list keeps of the parts that its stretches come to. -/
theorem Run.settle_of_map (node? : α → Option β) (stretches : List (Stretch α)) :
    Run.settle (stretches.map (·.result?.map node?)) state =
      ⟨if (∃ stretch ∈ stretches, stretch.result? = none) ∧ Stretch.nodes node? stretches = [] then
          .error .recorded
        else .ok (Stretch.nodes node? stretches), state, []⟩ := by
  have kept : (stretches.map (·.result?.map node?)).filterMap Option.join =
      Stretch.nodes node? stretches := by
    rw [List.filterMap_map]
    refine congrArg (List.filterMap · stretches) (funext fun stretch => ?_)
    cases result : stretch.result? <;> simp [result]
  have broken : ((stretches.map (·.result?.map node?)).any Option.isNone &&
      (Stretch.nodes node? stretches).isEmpty) = true ↔
        (∃ stretch ∈ stretches, stretch.result? = none) ∧ Stretch.nodes node? stretches = [] := by simp
  unfold Run.settle
  simp only [kept, broken]
  split <;> rfl

/-- **A list that may be broken** comes to what its stretches do, if its parts do. -/
theorem Joined.collects {makes : State → Stretch α → State → Prop} {separator : TokenKind}
    {ends : TokenKind → Prop} {stops : TokenKind → Bool} {item : Rule (Option β)} {node? : α → Option β}
    {stretches : List (Stretch α)} (h : Joined makes separator ends state stretches after)
    (inside : separator ≠ .endOfInput) (apart : ∀ kind, ends kind → kind ≠ separator)
    (explained : ∀ state stretch after, makes state stretch after → stretch.result? = none →
      stretch.reports ≠ [])
    (goesOver : ∀ state stretch after, makes state stretch after → after.kind = separator ∨ ends after.kind →
      (Rule.part (fun kind => kind = separator || stops kind) item).run state =
        ⟨.ok (stretch.result?.map node?), after, stretch.reports⟩) :
    (Rule.gather separator stops item).Collects node? state stretches after := by
  have parts : ∀ state stretch after, makes state stretch after → after.kind = separator ∨ ends after.kind →
      ∃ part, (Rule.part (fun kind => kind = separator || stops kind) item).run state =
        ⟨.ok part, after, stretch.reports⟩ ∧ part = stretch.result?.map node? :=
    fun state stretch after one stop => ⟨_, goesOver state stretch after one stop, rfl⟩
  obtain ⟨first, rest, mid, reports, reports', run, run', reported, results⟩ :=
    h.exists_run_list inside apart parts parts
  obtain all : first :: rest = stretches.map (·.result?.map node?) :=
    List.forall₂_eq_eq_eq ▸ List.forall₂_map_right_iff.2 results.flip
  have read : (Rule.separated separator
      (Rule.part (fun kind => kind = separator || stops kind) item)).run state =
        ⟨.ok (first :: rest), after, stretches.flatMap (·.reports)⟩ := by
    rw [← reported]
    exact Rule.run_bind_of_run run (Rule.run_bind_of_reads run' (Rule.reads_pure.2 ⟨rfl, rfl⟩))
  have reply : (Rule.gather separator stops item).run state =
      ⟨(Run.settle (stretches.map (·.result?.map node?)) after).result, after,
        stretches.flatMap (·.reports)⟩ := by
    rw [Rule.run_gather, Run.andThen, read, all]
    simp only [Run.settle_of_map, List.append_nil]
  refine ⟨?_, ?_, h.forall_mem explained, ?_⟩
  · rw [reply]
  · rw [reply]
  · rw [reply, Run.settle_of_map]

namespace Grammar

open Rule

/-- A token inside a broken segment of a clause: it neither separates two segments nor ends the clause. -/
def isInSegment (separator kind : TokenKind) : Bool :=
  kind ≠ separator && !kind.isClauseBoundary && kind ≠ .endOfInput

/-- A token behind the last segment of a clause. -/
def EndsSegments (kind : TokenKind) : Prop := kind.isClauseBoundary = true ∨ kind = .endOfInput

theorem EndsSegments.ne {kind separator : TokenKind} (ends : EndsSegments kind)
    (inside : separator.isClauseBoundary = false) (noEnd : separator ≠ .endOfInput) : kind ≠ separator := by
  rintro rfl
  exact ends.elim (fun boundary => by rw [inside] at boundary; cases boundary) noEnd

theorem isInSegment_skips {separator : TokenKind} {token : Token}
    (inside : isInSegment separator token.kind = true) :
    skips (fun kind => kind = separator || kind.isClauseBoundary) token = true := by
  simp only [isInSegment, Bool.and_eq_true, decide_eq_true_eq, Bool.not_eq_true'] at inside
  exact skips_iff.2 ⟨by simp [inside], inside.2⟩

section

variable {separator : TokenKind} {item : Rule α} {stretch : Stretch α}

/-- Assignments and relations end in front of an AND, or in front of the end of their clause. -/
theorem confinedTo_of_takes (takes : item.TakesOnly TokenKind.isInItem) {tokens : List Token}
    (ahead : state.stream.ahead = tokens ++ after.stream.ahead)
    (stop : after.kind = .keyword .AND ∨ EndsSegments after.kind) : item.ConfinedTo state after := by
  refine .of_takes takes ahead ?_
  rcases stop with isAnd | ends | isEnd
  · rw [isAnd]
    rfl
  · simp [TokenKind.isInItem, TokenKind.isInClause, ends]
  · rw [isEnd]
    rfl

/-- A segment of a clause as a part of a list. -/
theorem run_part_of_segment (makes : item.Makes some (isInSegment separator) state stretch after)
    (confined : item.ConfinedTo state after) (stop : after.kind = separator ∨ EndsSegments after.kind) :
    (part (fun kind => kind = separator || kind.isClauseBoundary) item).run state =
      ⟨.ok stretch.result?, after, stretch.reports⟩ := by
  refine makes.run_part confined (fun token => isInSegment_skips) ?_
  rcases stop with rfl | ends | isEnd
  · exact .inl (by simp)
  · exact .inl (by simp [ends])
  · exact .inr isEnd

end

/-- What an assignment makes of a segment.  If it is broken and a comma comes behind it, the rule has to
halt in front of the comma. -/
def MakesAssignment (state : State) (segment : Stretch (Identifier × Operation)) (after : State) : Prop :=
  assignment.Makes some (isInSegment (.punctuation .comma)) state segment after ∧
    (segment.result? = none → after.kind = .punctuation .comma → assignment.ConfinedTo state after)

/-- What a relation makes of a segment. -/
def MakesRelation (state : State) (segment : Stretch (Option Relation)) (after : State) : Prop :=
  relation.Makes some (isInSegment (.keyword .AND)) state segment after

/-- **The two clauses** come to what their segments do.  For a SET clause, a broken assignment must not run
on behind the comma at its end. -/
theorem clauses_collect_segments (state after : State) :
    (∀ segments, Joined MakesAssignment (.punctuation .comma) EndsSegments state segments after →
      assignments.Collects some state segments after) ∧
    (∀ segments, Joined MakesRelation (.keyword .AND) EndsSegments state segments after →
      relations.Collects id state segments after) := by
  constructor
  · intro segments joined
    refine joined.collects (by decide) (fun _ ends => ends.ne rfl (by decide))
      (fun _ _ _ one => one.1.reports_ne_nil (by simp)) ?_
    rintro state segment after ⟨makes, confined⟩ stop
    have confined' : assignment.ConfinedTo state after := by
      by_cases broken : segment.result? = none
      · exact stop.elim (confined broken) fun ends =>
          confinedTo_of_takes takes_assignment makes.ahead (.inr ends)
      · exact makes.confinedTo broken
    exact run_part_of_segment (makes.map some) (overrunsAt_map.not.2 confined') stop
  · intro segments joined
    refine joined.collects (by decide) (fun _ ends => ends.ne rfl (by decide))
      (fun _ _ _ one => Makes.reports_ne_nil one (by simp)) ?_
    intro state segment after makes stop
    rw [Option.map_id]
    exact run_part_of_segment makes (confinedTo_of_takes takes_relation makes.ahead stop) stop

/-! ### Clauses with a broken segment -/

open BatchText (tokenAt)

/-- In front of `b 2, c = 1 WHERE`. -/
def setWithoutEqual : State := (Parser.ofTokens
  [tokenAt (.identifier "b") "b" 0, tokenAt (.integer "2") "2" 2, tokenAt (.punctuation .comma) "," 3,
    tokenAt (.identifier "c") "c" 5, tokenAt (.punctuation .equal) "=" 7, tokenAt (.integer "1") "1" 9,
    tokenAt (.keyword .WHERE) "WHERE" 11]).start

/-- In front of `b 2 AND c = 1`. -/
def whereWithoutEqual : State := (Parser.ofTokens
  [tokenAt (.identifier "b") "b" 0, tokenAt (.integer "2") "2" 2, tokenAt (.keyword .AND) "AND" 4,
    tokenAt (.identifier "c") "c" 8, tokenAt (.punctuation .equal) "=" 10,
    tokenAt (.integer "1") "1" 12]).start

theorem clauses_collect_withoutEqual :
    (assignments.run setWithoutEqual).result = .ok [(.unquoted "c", .assign (.term (.integer "1")))] ∧
      (assignments.run setWithoutEqual).reports ≠ [] ∧
    (relations.run whereWithoutEqual).result =
        .ok [.compare (.unquoted "c") .equal (.term (.integer "1"))] ∧
      (relations.run whereWithoutEqual).reports ≠ [] := by
  have brokenSet : MakesAssignment setWithoutEqual
      ⟨setWithoutEqual.stream.ahead.take 2, none, (assignment.run setWithoutEqual).reports⟩
      (State.advance^[2] setWithoutEqual) :=
    ⟨.broken (.inl rfl) (State.takes_iterate _ _) rfl rfl (by decide),
      fun _ _ => not_not.2 (by decide +kernel)⟩
  have wholeSet : MakesAssignment (State.advance^[3] setWithoutEqual)
      ⟨(setWithoutEqual.stream.ahead.drop 3).take 3,
        some (.unquoted "c", .assign (.term (.integer "1"))), []⟩
      (State.advance^[6] setWithoutEqual) :=
    ⟨.whole rfl rfl rfl, by simp⟩
  have brokenWhere : MakesRelation whereWithoutEqual
      ⟨whereWithoutEqual.stream.ahead.take 2, none, (relation.run whereWithoutEqual).reports⟩
      (State.advance^[2] whereWithoutEqual) :=
    .broken (.inl rfl) (State.takes_iterate _ _) rfl rfl (by decide)
  have wholeWhere : MakesRelation (State.advance^[3] whereWithoutEqual)
      ⟨(whereWithoutEqual.stream.ahead.drop 3).take 3,
        some (some (.compare (.unquoted "c") .equal (.term (.integer "1")))), []⟩
      (State.advance^[6] whereWithoutEqual) := .whole rfl rfl rfl
  have set := (clauses_collect_segments _ _).1 _ (.more brokenSet rfl (.last wholeSet (.inl rfl)))
  have relations := (clauses_collect_segments _ _).2 _ (.more brokenWhere rfl (.last wholeWhere (.inr rfl)))
  refine ⟨set.result_eq.trans (if_neg ?_), ?_, relations.result_eq.trans (if_neg ?_), ?_⟩
  · simp [Stretch.nodes]
  · rw [set.reports_eq]
    exact fun none => set.explained _ List.mem_cons_self rfl (List.append_eq_nil_iff.1 none).1
  · simp [Stretch.nodes]
  · rw [relations.reports_eq]
    exact fun none => relations.explained _ List.mem_cons_self rfl (List.append_eq_nil_iff.1 none).1

/-- In front of `a = [1, b = 2 WHERE`. -/
def setWithOpenList : State := (Parser.ofTokens
  [tokenAt (.identifier "a") "a" 0, tokenAt (.punctuation .equal) "=" 2,
    tokenAt (.punctuation .leftBracket) "[" 4, tokenAt (.integer "1") "1" 5,
    tokenAt (.punctuation .comma) "," 6, tokenAt (.identifier "b") "b" 8,
    tokenAt (.punctuation .equal) "=" 10, tokenAt (.integer "2") "2" 12,
    tokenAt (.keyword .WHERE) "WHERE" 14]).start

/-- Not every whole assignment is kept: the comma in front of it can be taken as one of a list that is
not closed. -/
theorem not_assignments_collect : ¬ ∀ state segments after,
    Joined (assignment.Makes some (isInSegment (.punctuation .comma))) (.punctuation .comma) EndsSegments
      state segments after → assignments.Collects some state segments after := by
  intro collects
  have broken : assignment.Makes some (isInSegment (.punctuation .comma)) setWithOpenList
      ⟨setWithOpenList.stream.ahead.take 4, none, (assignment.run setWithOpenList).reports⟩
      (State.advance^[4] setWithOpenList) :=
    .broken (.inl rfl) (State.takes_iterate _ _) rfl rfl (by decide)
  have whole : assignment.Makes some (isInSegment (.punctuation .comma))
      (State.advance^[5] setWithOpenList)
      ⟨(setWithOpenList.stream.ahead.drop 5).take 3, some (.unquoted "b", .assign (.term (.integer "2"))), []⟩
      (State.advance^[8] setWithOpenList) := .whole rfl rfl rfl
  have collected := (collects _ _ _ (.more broken rfl (.last whole (.inl rfl)))).result_eq
  -- No assignment is kept, and the clause fails.
  have fails : (assignments.run setWithOpenList).result = .error .recorded := rfl
  rw [fails] at collected
  simp [Stretch.nodes] at collected

end Grammar

end Cql
