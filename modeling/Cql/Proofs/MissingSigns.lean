/-
The one problem that ends a parse.

A positive amount right after `column = other` lacks its sign.  The rule that finds this out stands deep
inside others that recover from what is wrong in them, and none of them recovers from this.  So a run
either ends the parse, and then its last report is that a sign is missing at the token taken last, or it
is mild throughout.

What has been taken before a rule starts is a context like a precondition: an assignment is read where an
UPDATE, the name of its table and SET have gone before, and whole items after SET.

* `AtItem`, `EndsUnsigned` — what the tokens taken so far can end in;
* `Reply.Orderly` — mild, or ended for want of a sign;
* `Rule.OrderlyAt.bind`, `Rule.OrderlyAt.attempt`, `Rule.OrderlyAt.many` — how this is put together;
* `Grammar.orderly_update`, `Grammar.orderly_batch`, `Grammar.orderly_query` — UPDATE, alone or in a
  batch;
* `Parser.aborted_iff_missing_sign` — **a parse is ended exactly if a sign is missing**, and its last
  diagnostic says where.
-/
import Cql.Parse
import Cql.Proofs.MildRules
import Cql.Proofs.Taking

namespace Cql

/-! ### What goes before an assignment -/

/-- The tokens end in a keyword and tokens of certain kinds after it, in a certain context. -/
def EndsInClause (opening : Keyword) (inside : TokenKind → Bool) (context : List Token → Prop)
    (tokens : List Token) : Prop :=
  ∃ front keyword items, tokens = front ++ keyword :: items ∧ context front ∧
    keyword.kind = .keyword opening ∧ ∀ item ∈ items, inside item.kind = true

/-- The tokens end in UPDATE and what can stand between it and SET. -/
def InUpdate : List Token → Prop := EndsInClause .UPDATE TokenKind.isHeading fun _ => True

/-- The tokens end in a SET clause of an UPDATE. -/
def InSet : List Token → Prop := EndsInClause .SET TokenKind.isInClause InUpdate

/-- The tokens end in a SET clause of an UPDATE, where an item of it begins. -/
def AtItem (tokens : List Token) : Prop :=
  InSet tokens ∧ ∃ token ∈ tokens.getLast?,
    token.kind = .keyword .SET ∨ token.kind = .punctuation .comma

/-- Tokens `column '=' other amount` of which the amount neither starts with `-` nor is zero. -/
structure UnsignedChange (digits : String) (column equal other amount : Token) : Prop where
  column : column.kind.isNameLike = true
  equal : equal.kind = .punctuation .equal
  other : other.kind.isNameLike = true
  amount : amount.kind = .integer digits
  noMinus : digits.toList.head? ≠ some '-'
  nonzero : ∃ digit ∈ digits.toList, digit ≠ '0'

/-- The tokens end in an item of a SET clause that lacks a sign. -/
def EndsUnsigned (digits : String) (tokens : List Token) : Prop :=
  ∃ front column equal other amount, tokens = front ++ [column, equal, other, amount] ∧
    AtItem front ∧ UnsignedChange digits column equal other amount

theorem EndsInClause.append {opening : Keyword} {inside : TokenKind → Bool}
    {context : List Token → Prop} {tokens more : List Token}
    (h : EndsInClause opening inside context tokens)
    (all : ∀ token ∈ more, inside token.kind = true) :
    EndsInClause opening inside context (tokens ++ more) := by
  obtain ⟨front, keyword, items, rfl, outside, opens, good⟩ := h
  refine ⟨front, keyword, items ++ more, by simp, outside, opens, fun token mem => ?_⟩
  rcases List.mem_append.1 mem with mem | mem
  · exact good token mem
  · exact all token mem

/-- The tokens before the cursor, in order. -/
def State.before (state : State) : List Token := state.stream.passed.reverse

namespace State

theorem before_advance {state : State} {token : Token} {rest : List Token}
    (ahead : state.stream.ahead = token :: rest) : state.advance.before = state.before ++ [token] := by
  simp [before, passed_advance ahead]

theorem TakesOnly.before {good : TokenKind → Bool} {first second : State}
    (h : first.TakesOnly good second) :
    ∃ taken, second.before = first.before ++ taken ∧ ∀ token ∈ taken, good token.kind = true := by
  obtain ⟨taken, passed, all⟩ := h
  refine ⟨taken.reverse, by simp [State.before, passed], fun token mem => ?_⟩
  exact all token (List.mem_reverse.1 mem)

/-- A context is not left by tokens that belong to it. -/
theorem TakesOnly.stays {opening : Keyword} {good : TokenKind → Bool} {context : List Token → Prop}
    {first second : State} (h : first.TakesOnly good second)
    (inside : EndsInClause opening good context first.before) :
    EndsInClause opening good context second.before := by
  obtain ⟨taken, same, all⟩ := h.before
  rw [same]
  exact inside.append all

theorem position_eq (state : State) : state.stream.position = state.before.length := by
  simp [TokenStream.position, before]

end State

/-! ### Replies -/

/-- The parse is ended, and the last report is that the token taken last lacks its sign. -/
def Reply.LacksSign {α : Type} (reply : Reply α) : Prop :=
  reply.result = .error .fatal ∧ ∃ digits earlier,
    reply.reports =
      earlier ++ [⟨.missingMinus digits, .token (reply.state.stream.position - 1)⟩] ∧
    (∀ report ∈ earlier, report.problem.isMild = true) ∧ EndsUnsigned digits reply.state.before

theorem Reply.halt?_eq_some_iff {α : Type} (reply : Reply α) {halt : Halt} :
    reply.halt? = some halt ↔ reply.result = .error halt := by
  unfold halt?
  split
  · rename_i value
    simp [value]
  · rename_i halt' value
    simp [value]

/-- The reply is mild, or the parse is ended for want of a sign. -/
def Reply.Orderly {α : Type} (reply : Reply α) : Prop := reply.Mild ∨ reply.LacksSign

/-- Mild reports in front change nothing. -/
theorem Reply.Orderly.after {α β : Type} {reply : Reply α} {reply' : Reply β}
    (h : reply.Orderly) {reports : List Report}
    (mild : ∀ report ∈ reports, report.problem.isMild = true)
    (fatal : reply'.result = .error .fatal ↔ reply.result = .error .fatal)
    (state : reply'.state = reply.state) (all : reply'.reports = reports ++ reply.reports) :
    reply'.Orderly := by
  rcases h with ⟨goesOn, mild'⟩ | ⟨ends, digits, earlier, last, mild', unsigned⟩
  · refine .inl ⟨fun ends => goesOn (fatal.1 ends), fun report mem => ?_⟩
    rw [all] at mem
    rcases List.mem_append.1 mem with mem | mem
    · exact mild report mem
    · exact mild' report mem
  · refine .inr ⟨fatal.2 ends, digits, reports ++ earlier, ?_, fun report mem => ?_, ?_⟩
    · rw [all, last, state, List.append_assoc]
    · rcases List.mem_append.1 mem with mem | mem
      · exact mild report mem
      · exact mild' report mem
    · rwa [state]

theorem Reply.Orderly.congr {α β : Type} {reply : Reply α} {reply' : Reply β} (h : reply.Orderly)
    (fatal : reply'.result = .error .fatal ↔ reply.result = .error .fatal)
    (state : reply'.state = reply.state) (reports : reply'.reports = reply.reports) :
    reply'.Orderly := by
  have none : ∀ report ∈ ([] : List Report), report.problem.isMild = true := by simp
  exact h.after none fatal state reports

theorem Run.orderly_andThen {α β : Type} {run : Run α} {next : α → Run β} {state : State}
    (first : (run state).Orderly)
    (second : ∀ a, (run state).result = .ok a → (next a (run state).state).Orderly) :
    (Run.andThen run next state).Orderly := by
  unfold Run.andThen
  cases result : (run state).result with
  | error halt =>
    simp only [result]
    exact first.congr (by simp [result]) rfl rfl
  | ok a =>
    simp only [result]
    rcases first with mild | ends
    · exact (second a result).after mild.reports Iff.rfl rfl rfl
    · exact absurd ends.1 (by simp [result])

/-- A fatal halt is not recovered from. -/
theorem Run.orderly_attempt {α : Type} {run : Run α} {state : State} (h : (run state).Orderly) :
    (Run.attempt run state).Orderly := by
  unfold Run.attempt
  cases result : (run state).result with
  | ok a =>
    simp only [result]
    exact h.congr (by simp [result]) rfl rfl
  | error halt =>
    cases halt with
    | recorded =>
      simp only [result]
      exact h.congr (by simp [result]) rfl rfl
    | fatal =>
      simp only [result]
      exact h.congr (by simp [result]) rfl rfl

namespace Rule

variable {α β : Type} {state : State}

/-- From `state` the rule is mild, or ends the parse for want of a sign. -/
def OrderlyAt (state : State) (rule : Rule α) : Prop := (rule.run state).Orderly

namespace OrderlyAt

theorem of_mild {rule : Rule α} (mild : rule.Mild) : rule.OrderlyAt state := .inl (mild.run state)

theorem bind {rule : Rule α} {next : α → Rule β} (first : rule.OrderlyAt state)
    (second : ∀ a, (rule.run state).result = .ok a → (next a).OrderlyAt (rule.run state).state) :
    (rule >>= next).OrderlyAt state :=
  Run.orderly_andThen first second

theorem map {rule : Rule α} (f : α → β) (h : rule.OrderlyAt state) : (f <$> rule).OrderlyAt state :=
  h.bind fun _ _ => of_mild (.pure _)

theorem kind_bind {next : TokenKind → Rule β} (h : (next state.kind).OrderlyAt state) :
    (Rule.kind >>= next).OrderlyAt state := h

theorem attempt {rule : Rule α} (h : rule.OrderlyAt state) : (attempt rule).OrderlyAt state :=
  Run.orderly_attempt h

/-- A list is read item by item, in an invariant of what has been taken. -/
theorem many {opens : TokenKind → Bool} {goesOn : α → Bool} {item : Lexeme → Rule α}
    (invariant : List Token → Prop)
    (items : ∀ (state : State) (token : Token) rest, invariant state.before → state.stream.ahead = token :: rest →
      opens token.kind = true → (item token.toLexeme).OrderlyAt state.advance ∧
        invariant ((item token.toLexeme).run state.advance).state.before)
    (holds : invariant state.before) : (many opens goesOn item).OrderlyAt state := by
  refine many_induction (motive := fun state reply => invariant state.before → reply.Orderly)
    (fun _ _ _ => .inl ⟨by simp, by simp⟩) ?_ ?_ ?_ state holds
  · intro state token rest halt ahead opened result holds
    exact (items state token rest holds ahead opened).1.congr (by simp [result]) rfl rfl
  · intro state token rest a ahead opened result _ holds
    exact (items state token rest holds ahead opened).1.congr (by simp [result]) rfl rfl
  · intro state token rest a others ahead opened result _ later holds
    obtain ⟨mild | ends, kept⟩ := items state token rest holds ahead opened
    · refine (later kept).after mild.reports ?_ rfl rfl
      cases others.result <;> simp [Except.map]
    · exact absurd ends.1 (by simp [result])

end OrderlyAt

/-! ### Rules that take one token -/

theorem run_eatKind (wanted : TokenKind) (state : State) :
    (eatKind wanted).run state =
      if state.kind = wanted then ⟨.ok true, state.advance, []⟩ else ⟨.ok false, state, []⟩ := by
  by_cases same : state.kind = wanted
  · rw [if_pos same]
    exact reads_eatKind.2 (.inl ⟨same, rfl, rfl⟩)
  · rw [if_neg same]
    exact reads_eatKind.2 (.inr ⟨same, rfl, rfl⟩)

theorem eatKind_eq_ok_false {wanted : TokenKind}
    (h : ((eatKind wanted).run state).result = .ok false) :
    ((eatKind wanted).run state).state = state := by
  rw [run_eatKind] at h ⊢
  split at h
  · exact absurd h (by simp)
  · rename_i other
    rw [if_neg other]

/-- A rule for one token that comes to a value has taken it. -/
theorem ofKind_eq_ok {wanted : TokenKind} {context : String} {u : Unit}
    (h : ((ofKind wanted context).run state).result = .ok u) :
    state.kind = wanted ∧ ((ofKind wanted context).run state).state = state.advance := by
  by_cases same : state.kind = wanted
  · have reads : (ofKind wanted context).Reads state () state.advance := reads_ofKind.2 ⟨same, rfl⟩
    exact ⟨same, (reads_iff.1 reads).2.1⟩
  · have halts : ((ofKind wanted context).run state).result = .error .recorded := by
      show (Run.andThen (eatKind wanted).run _ state).result = _
      unfold Run.andThen
      rw [run_eatKind, if_neg same]
      rfl
    rw [halts] at h
    exact absurd h (by simp)

theorem accept_eq_ok {read : Lexeme → Option α} {what context : String} {a : α}
    (h : ((accept read what context).run state).result = .ok a) :
    read (state.lexeme 0) = some a ∧ ((accept read what context).run state).state = state.advance := by
  cases seen : read (state.lexeme 0) with
  | some b =>
    have reads : (accept read what context).Reads state b state.advance := reads_accept.2 ⟨seen, rfl⟩
    obtain ⟨result, after, -⟩ := reads_iff.1 reads
    rw [result, Except.ok.injEq] at h
    exact ⟨by rw [h], after⟩
  | none =>
    have looked : (accept? read).Reads state none state := by
      unfold accept?
      rw [reads_look_bind, seen]
      exact reads_pure.2 ⟨rfl, rfl⟩
    have halts : ((accept read what context).run state).result = .error .recorded := by
      show (Run.andThen (accept? read).run _ state).result = _
      unfold Run.andThen
      rw [show (accept? read).run state = _ from looked]
      rfl
    rw [halts] at h
    exact absurd h (by simp)

end Rule

/-- The token taken is the current one. -/
theorem State.before_advance_of_kind {state : State} (inside : state.kind ≠ .endOfInput) :
    ∃ token, token.kind = state.kind ∧ state.advance.before = state.before ++ [token] := by
  cases ahead : state.stream.ahead with
  | nil => exact absurd (by simp [kind, lexeme, TokenStream.peek, ahead, EndMark.token]) inside
  | cons token rest =>
    exact ⟨token, by simp [kind, lexeme, TokenStream.peek, ahead], before_advance ahead⟩

theorem Rule.before_of_ofKind {state : State} {wanted : TokenKind} {context : String} {u : Unit}
    (inside : wanted ≠ .endOfInput) (h : ((ofKind wanted context).run state).result = .ok u) :
    ∃ token, token.kind = wanted ∧
      ((ofKind wanted context).run state).state.before = state.before ++ [token] := by
  obtain ⟨rfl, after⟩ := ofKind_eq_ok h
  rw [after]
  exact State.before_advance_of_kind inside

namespace Grammar

open Rule OrderlyAt

/-! ### Assignments -/

theorem before_of_identifier {state : State} {context : String} {name : Identifier}
    (h : ((identifier context).run state).result = .ok name) :
    ∃ token, token.kind.isNameLike = true ∧
      ((identifier context).run state).state.before = state.before ++ [token] := by
  obtain ⟨seen, after⟩ := accept_eq_ok h
  have isName : state.kind.isNameLike = true := isNameLike_of_ofLexeme? seen
  have inside : state.kind ≠ .endOfInput := fun same => by
    simp [same, TokenKind.isNameLike, TokenKind.isUnreservedKeyword] at isName
  obtain ⟨token, same, taken⟩ := State.before_advance_of_kind inside
  exact ⟨token, same ▸ isName, by rw [← taken]; exact congrArg State.before after⟩

theorem isNonPositive_eq_false {digits : String} (h : isNonPositive digits = false) :
    digits.toList.head? ≠ some '-' ∧ ∃ digit ∈ digits.toList, digit ≠ '0' := by
  simpa [isNonPositive] using h

/-- A change without a sign ends the parse only if its amount is positive. -/
theorem orderly_unsignedChange {digits : String} {checkColumns : Rule Unit} {state : State}
    {front : List Token} {column equal other : Token} (checks : checkColumns.Mild)
    (keeps : ∀ state, (checkColumns.run state).state = state)
    (current : state.kind = .integer digits) (before : state.before = front ++ [column, equal, other])
    (atItem : AtItem front) (isColumn : column.kind.isNameLike = true)
    (isEqual : equal.kind = .punctuation .equal) (isOther : other.kind.isNameLike = true) :
    (unsignedChange digits checkColumns).OrderlyAt state := by
  refine .bind (of_mild .here) fun place found => .bind (of_mild .advance) fun _ _ =>
    .bind (of_mild checks) fun _ _ => ?_
  have placed : place = .token state.stream.position := (Except.ok.inj found).symm
  split
  · exact of_mild (.pure _)
  rename_i positive
  have inside : state.kind ≠ .endOfInput := by simp [current]
  obtain ⟨amount, isAmount, taken⟩ := State.before_advance_of_kind inside
  obtain ⟨noMinus, nonzero⟩ := isNonPositive_eq_false (by simpa using positive)
  have state' : (checkColumns.run ((Rule.advance.run (here.run state).state).state)).state =
      state.advance := keeps _
  refine .inr ⟨rfl, digits, [], ?_, by simp, front, column, equal, other, amount, ?_, atItem,
    isColumn, isEqual, isOther, isAmount.trans current, noMinus, nonzero⟩
  · show [(⟨.missingMinus digits, place⟩ : Report)] = _
    rw [placed]
    show _ = [(⟨.missingMinus digits, .token ((checkColumns.run _).state.stream.position - 1)⟩ : Report)]
    rw [state', State.position_eq, State.position_eq, taken]
    simp
  · show (checkColumns.run _).state.before = _
    rw [state', taken, before]
    simp

theorem orderly_selfAssignment (column : Identifier) {state : State} {front : List Token}
    {columnToken equal : Token} (before : state.before = front ++ [columnToken, equal])
    (atItem : AtItem front) (isColumn : columnToken.kind.isNameLike = true)
    (isEqual : equal.kind = .punctuation .equal) : (selfAssignment column).OrderlyAt state := by
  refine .bind (of_mild .here) fun place _ => .bind (of_mild (mild_identifier _)) fun other found => ?_
  obtain ⟨otherToken, isOther, taken⟩ := before_of_identifier found
  have check : (if other == column then pure () else report .startsFromOther place : Rule Unit).Mild :=
    .ite (.pure ()) rfl
  refine kind_bind ?_
  split
  · exact of_mild (mild_signedChange _ check)
  · exact of_mild (mild_signedChange _ check)
  · rename_i digits current
    refine orderly_unsignedChange check (fun state => ?_) current ?_ atItem isColumn isEqual isOther
    · split <;> rfl
    · rw [taken]
      show state.before ++ _ = _
      rw [before]
      simp
  · exact of_mild (by simp [check])
  · exact of_mild (.expected _ _)

theorem orderly_assignment {state : State} (atItem : AtItem state.before) :
    assignment.OrderlyAt state := by
  refine .bind (of_mild (mild_identifier _)) fun column found => ?_
  obtain ⟨columnToken, isColumn, taken⟩ := before_of_identifier found
  refine .bind (of_mild (.eatMark _)) fun bracket eaten => ?_
  cases bracket with
  | true => exact of_mild (by simp)
  | false =>
    have stays : ((eatMark .leftBracket).run _).state = _ := eatKind_eq_ok_false eaten
    refine .bind (of_mild (.symbol _ _)) fun _ found => ?_
    obtain ⟨equal, isEqual, taken'⟩ := before_of_ofKind (by simp) found
    refine kind_bind ?_
    split
    · refine (orderly_selfAssignment column (taken'.trans ?_) atItem isColumn isEqual).bind
        fun _ _ => of_mild (.pure _)
      rw [stays, taken]
      simp
    · exact of_mild (by simp)

/-- The assignments of a clause, the broken ones among them. -/
def assignmentPart : Rule (Option (Option (Identifier × Operation))) :=
  part (fun kind => kind = .punctuation .comma || kind.isClauseBoundary) (some <$> assignment)

theorem takes_assignmentPart : assignmentPart.TakesOnly TokenKind.isInClause := by
  have items := (takes_assignment.map some).mono fun _ => TokenKind.isInClause_of_isInItem
  refine .part (fun kind goesOn inside => ?_) items
  rw [Bool.or_eq_false_iff] at goesOn
  simp [TokenKind.isInClause, goesOn.2, inside]

theorem orderly_assignmentPart {state : State} (atItem : AtItem state.before) :
    assignmentPart.OrderlyAt state := by
  refine (attempt ((orderly_assignment atItem).map some)).bind fun result _ => of_mild ?_
  cases result <;> simp

theorem orderly_assignments {state : State} (atItem : AtItem state.before) :
    assignments.OrderlyAt state := by
  have run : assignments.run = Run.andThen (separated (.punctuation .comma) assignmentPart).run
      Run.settle := run_gather _ _ _
  unfold OrderlyAt
  rw [run]
  refine Run.orderly_andThen ?_ fun parts _ => .inl (Run.Mild.settle parts _)
  -- Between two items the tokens taken end somewhere in the SET clause; after a comma, where an item
  -- begins.
  refine OrderlyAt.bind (orderly_assignmentPart atItem) fun first _ =>
    .bind (many InSet (fun state token rest inSet ahead opened => ?_) ?_) fun _ _ =>
      of_mild (.pure _)
  · have comma : token.kind = .punctuation .comma := of_decide_eq_true opened
    have next : AtItem state.advance.before := by
      rw [State.before_advance ahead]
      exact ⟨inSet.append (by simp [comma, TokenKind.isInClause, TokenKind.isClauseBoundary]),
        token, by simp, .inr comma⟩
    exact ⟨orderly_assignmentPart next, (takes_assignmentPart _).stays next.1⟩
  · exact (takes_assignmentPart _).stays atItem.1

/-! ### Statements -/

theorem orderly_update {state : State} (opened : InUpdate state.before) :
    update.OrderlyAt state := by
  refine .bind (of_mild mild_tableName) fun table _ => .bind (of_mild mild_usingClause) fun _ _ =>
    .bind (of_mild (.keyword _ _)) fun _ found => ?_
  have heading := (takes_usingClause _).stays ((takes_tableName _).stays opened)
  obtain ⟨set, isSet, taken⟩ := before_of_ofKind (by simp) found
  refine .bind (orderly_assignments (?_ : AtItem _)) fun _ _ => of_mild (by simp)
  rw [keyword, taken]
  exact ⟨⟨_, set, [], rfl, heading, isSet, by simp⟩, set, by simp, .inl isSet⟩

theorem orderly_modification {opening : Token} {rule : Rule Modification}
    (found : modificationAfter? opening.kind = some rule) {state : State} {front : List Token}
    (before : state.before = front ++ [opening]) : rule.OrderlyAt state := by
  unfold modificationAfter? at found
  split at found
  · obtain rfl := Option.some.inj found
    exact of_mild (by simp)
  · rename_i isUpdate
    obtain rfl := Option.some.inj found
    exact (orderly_update ⟨front, opening, [], before, trivial, isUpdate, by simp⟩).map _
  · obtain rfl := Option.some.inj found
    exact of_mild (by simp)
  · exact absurd found (by simp)

theorem orderly_batchItem {opening : Token} {state : State} {front : List Token}
    (before : state.before = front ++ [opening]) : (batchItem opening.kind).OrderlyAt state := by
  unfold batchItem
  split
  · rename_i rule found
    refine .bind (attempt (orderly_modification found before)) fun result _ => of_mild ?_
    cases result <;> simp
  · exact of_mild (by simp [Problem.isMild])

theorem orderly_batch {state : State} : batch.OrderlyAt state := by
  have items : ∀ state, modifications.OrderlyAt state := by
    intro state
    refine .bind (many (fun _ => True) (fun state token rest _ ahead _ => ?_) trivial)
      fun _ _ => of_mild (.pure _)
    exact ⟨orderly_batchItem (State.before_advance ahead), trivial⟩
  exact .bind (of_mild mild_batchMode) fun _ _ => .bind (of_mild (.keyword _ _)) fun _ _ =>
    .bind (of_mild mild_usingClause) fun _ _ => .bind (items _) fun _ _ => of_mild (by simp)

theorem orderly_statementAfter {opening : Token} {rule : Rule Statement}
    (found : statementAfter? opening.kind = some rule) {state : State} {front : List Token}
    (before : state.before = front ++ [opening]) : rule.OrderlyAt state := by
  unfold statementAfter? at found
  split at found
  case h_3 isUpdate =>
    obtain rfl := Option.some.inj found
    exact (orderly_update ⟨front, opening, [], before, trivial, isUpdate, by simp⟩).map _
  case h_5 =>
    obtain rfl := Option.some.inj found
    exact orderly_batch.map _
  all_goals
    first
    | obtain rfl := Option.some.inj found
      exact of_mild (by simp)
    | exact absurd found (by simp)

theorem orderly_statement {state : State} : statement.OrderlyAt state := by
  refine kind_bind ?_
  split
  · rename_i rule found
    have inside : state.kind ≠ .endOfInput := fun same => by simp [same, statementAfter?] at found
    obtain ⟨opening, isOpening, taken⟩ := State.before_advance_of_kind inside
    exact .bind (of_mild .advance) fun _ _ => orderly_statementAfter (isOpening ▸ found) taken
  · exact of_mild (.expected _ _)

/-- A parse is mild, or it is ended for want of a sign. -/
theorem orderly_query {state : State} : query.OrderlyAt state :=
  .bind (of_mild .semicolons) fun _ _ => .bind (of_mild .position) fun _ _ =>
    .bind orderly_statement fun _ _ => of_mild (by simp [Problem.isMild])

end Grammar

/-! ### What a parse finds out -/

theorem Problem.code_of_isMild {problem : Problem} (mild : problem.isMild = true) :
    problem.code ≠ "P020" := by
  cases problem with
  | unexplained => simp [isMild] at mild
  | missingMinus amount => simp [isMild] at mild
  | _ => simp [code]

theorem TokenStream.spanAt_of_body {stream : TokenStream} {front rest : List Token} {token : Token}
    (h : stream.body = front ++ token :: rest) : stream.spanAt front.length = token.span := by
  simp [spanAt, h]

namespace Parser

/-- A parse that comes to no statement has reported something, so that nothing is added. -/
theorem diagnostics_reply (parser : Parser) : parser.diagnostics parser.reply =
    parser.earlier ++ parser.reply.reports.map (·.diagnostic parser.stream) := by
  unfold diagnostics
  dsimp only
  split
  · rename_i unexplained
    rw [Bool.and_eq_true, List.isEmpty_iff, List.append_eq_nil_iff, List.map_eq_nil_iff] at unexplained
    obtain ⟨none, -, silent⟩ := unexplained
    obtain ⟨read, result, -⟩ := Grammar.query.run_candid ⟨parser.stream, .none⟩ silent
    have found : parser.reply.result = .ok read := result
    simp [statement?, found] at none
  · rfl

theorem takes_reply (parser : Parser) : State.Takes ⟨parser.stream, .none⟩ parser.reply.state :=
  Grammar.query.run_takes _

/-- The tokens before the cursor are the first ones of the stream, and so of the list. -/
theorem exists_before_reply (tokens : List Token) :
    ∃ more rest, (TokenStream.ofTokens tokens).body = (ofTokens tokens).reply.state.before ++ more ∧
      tokens = (ofTokens tokens).reply.state.before ++ rest := by
  obtain ⟨taken, ahead, passed, -⟩ := (ofTokens tokens).takes_reply
  have start : (ofTokens tokens).stream = .ofTokens tokens := rfl
  simp only [start, TokenStream.passed_ofTokens, List.append_nil] at ahead passed
  have before : (ofTokens tokens).reply.state.before = taken := by
    rw [State.before, passed, List.reverse_reverse]
  obtain ⟨last, whole⟩ := TokenStream.ahead_ofTokens_prefix tokens
  rw [before, TokenStream.body, TokenStream.passed_ofTokens]
  exact ⟨_, _, ahead, by rw [← whole, ahead, List.append_assoc]⟩

/-- **A sign that is missing ends the parse, and nothing else does.**  A parse is aborted exactly if a
diagnostic has the code P020.  Then there is no statement; that diagnostic is the last one, and no other
has its code; and it is about the amount of an assignment `column = other amount` in the SET clause of
an UPDATE, an integer that neither starts with `-` nor is zero. -/
theorem aborted_iff_missing_sign (tokens : List Token) :
    ((ofTokens tokens).outcome.aborted = true ↔
      ∃ diagnostic ∈ (ofTokens tokens).outcome.diagnostics, diagnostic.code = some "P020") ∧
    ((ofTokens tokens).outcome.aborted = true → (ofTokens tokens).outcome.statement = none ∧
      ∃ earlier last, (ofTokens tokens).outcome.diagnostics = earlier ++ [last] ∧
        (∀ diagnostic ∈ earlier, diagnostic.code ≠ some "P020") ∧ last.code = some "P020" ∧
        ∃ digits front column equal other amount rest,
          tokens = front ++ column :: equal :: other :: amount :: rest ∧ AtItem front ∧
          UnsignedChange digits column equal other amount ∧
          last.labels = [⟨.primary, amount.span, "expected '-' or '+' before this value"⟩]) := by
  have diagnostics : (ofTokens tokens).outcome.diagnostics =
      (ofTokens tokens).reply.reports.map (·.diagnostic (TokenStream.ofTokens tokens)) :=
    (ofTokens tokens).diagnostics_reply
  have codes : ∀ reports : List Report, (∀ report ∈ reports, report.problem.isMild = true) →
      ∀ diagnostic ∈ reports.map (·.diagnostic (TokenStream.ofTokens tokens)),
        diagnostic.code ≠ some "P020" := by
    intro reports mild diagnostic mem
    obtain ⟨report, reported, rfl⟩ := List.mem_map.1 mem
    exact fun same => Problem.code_of_isMild (mild report reported) (Option.some.inj same)
  have aborted : (ofTokens tokens).outcome.aborted = true ↔
      (ofTokens tokens).reply.result = .error .fatal :=
    decide_eq_true_iff.trans (ofTokens tokens).reply.halt?_eq_some_iff
  rw [diagnostics, aborted]
  have orderly : (ofTokens tokens).reply.Orderly := Grammar.orderly_query
  rcases orderly with mild | ⟨fatal, digits, earlier, reports, mild, front, column, equal, other, amount,
    before, atItem, unsigned⟩
  · refine ⟨iff_of_false mild.goesOn ?_, fun fatal => absurd fatal mild.goesOn⟩
    rintro ⟨diagnostic, mem, code⟩
    exact codes _ mild.reports diagnostic mem code
  · -- The report is made when the amount has just been taken.
    obtain ⟨more, rest, body, whole⟩ := exists_before_reply tokens
    have position : (ofTokens tokens).reply.state.stream.position - 1 =
        (front ++ [column, equal, other]).length := by
      rw [State.position_eq, before]
      simp
    rw [before] at body whole
    have parts : (TokenStream.ofTokens tokens).body =
        (front ++ [column, equal, other]) ++ amount :: more := by
      simpa using body
    have span := TokenStream.spanAt_of_body parts
    rw [position] at reports
    refine ⟨iff_of_true fatal ?_, fun _ => ⟨by simp [outcome, statement?, fatal], ?_⟩⟩
    · rw [reports]
      exact ⟨_, List.mem_map_of_mem (List.mem_append_right _ List.mem_cons_self), rfl⟩
    · rw [reports, List.map_append]
      refine ⟨_, _, rfl, codes earlier mild, rfl, digits, front, column, equal, other, amount, rest,
        by simpa using whole, atItem, unsigned, ?_⟩
      rw [← span]
      rfl

/-- A batch whose first UPDATE is broken and whose second one lacks a sign in its third assignment. -/
def unsignedInBatch : List Token :=
  (tokenize "BEGIN BATCH UPDATE t SET a = 1 b; UPDATE u SET a[0] = 1, b = b - 'x', c = d 03 WHERE k = 1").tokens

theorem aborted_of_unsignedInBatch : (ofTokens unsignedInBatch).outcome.aborted = true ∧
    (ofTokens unsignedInBatch).outcome.statement = none ∧
    ∃ diagnostic ∈ (ofTokens unsignedInBatch).outcome.diagnostics, diagnostic.code = some "P020" := by
  have aborted : (ofTokens unsignedInBatch).outcome.aborted = true := by
    rw [unsignedInBatch, tokenize, String.toList_ofList]
    decide +kernel
  exact ⟨aborted, ((aborted_iff_missing_sign _).2 aborted).1, (aborted_iff_missing_sign _).1.1 aborted⟩

end Parser

end Cql
