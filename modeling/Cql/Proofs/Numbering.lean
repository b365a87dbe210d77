/-
Rules number bind markers in order.

The invariant ties the counter to the trees built so far: the ordinals in them rise, and all are below
the counter.  A rule is described by the ordinals before it and after it.  What is dropped on the way,
because it was broken or replaced, only takes ordinals away; and a rule that builds nothing with
markers in it can only raise the counter.  So the invariant holds along every run that comes to a
value, whatever it reports.

* `Rule.Numbers` — a rule adds the ordinals of its value to those before it;
* `Rule.Numbers.bind`, `Rule.Numbers.attempt`, `Rule.Numbers.many`, `Rule.Numbers.gather` — the forms
  of rules.
-/
import Cql.Grammar.Statement
import Cql.Proofs.Markers
import Cql.Proofs.Yields

namespace Cql

/-- Bind markers are only ever added. -/
theorem State.count_kept : Kept fun first second => first.markers.count ≤ second.markers.count where
  refl _ := Nat.le_refl _
  trans := Nat.le_trans
  advance _ := Nat.le_refl _
  number _ _ := Nat.le_succ _

theorem Rule.count_le {α : Type} (rule : Rule α) (state : State) :
    state.markers.count ≤ (rule.run state).state.markers.count :=
  rule.run_keeps State.count_kept state

namespace Rule

variable {α β : Type} {before : List Nat}

/-- If the ordinals `before` rise to the counter and the rule comes to `a`, then the ordinals `f a`
rise to the counter after it. -/
def Numbers (rule : Rule α) (before : List Nat) (f : α → List Nat) : Prop :=
  ∀ state a, Ascending 0 before state.markers.count → (rule.run state).result = .ok a →
    Ascending 0 (f a) (rule.run state).state.markers.count

/-- Whatever was numbered before, the rule adds the ordinals of its value. -/
abbrev Adds (rule : Rule α) (f : α → List Nat) : Prop :=
  ∀ before, rule.Numbers before fun a => before ++ f a

namespace Numbers

variable {f : α → List Nat} {g : β → List Nat}

/-- The ordinals of a value that is put together from what was read, if they rise with those. -/
theorem done {a : α} (rises : ∀ high, Ascending 0 before high → Ascending 0 (f a) high) :
    (pure a : Rule α).Numbers before f := by
  intro state b rise result
  obtain rfl : a = b := Except.ok.inj result
  exact rises _ rise

theorem pure {a : α} (less : (f a).Sublist before) : (pure a : Rule α).Numbers before f :=
  done fun _ rises => rises.sublist less

theorem eq {a : α} (same : f a = before) : (Pure.pure a : Rule α).Numbers before f :=
  done fun _ rises => by rwa [same]

/-- Whatever a rule does, the ordinals before it still rise to the counter. -/
theorem any (rule : Rule α) : rule.Numbers before fun _ => before :=
  fun state _ rises _ => rises.raise (rule.count_le state)

theorem bind {rule : Rule α} {next : α → Rule β} (first : rule.Numbers before f)
    (second : ∀ a, (next a).Numbers (f a) g) : (rule >>= next).Numbers before g := by
  intro state b rises result
  have run : (rule >>= next).run state = Run.andThen rule.run (fun a => (next a).run) state := rfl
  rw [run] at result ⊢
  unfold Run.andThen at result ⊢
  cases found : (rule.run state).result with
  | error halt => simp [found] at result
  | ok a =>
    simp only [found] at result ⊢
    exact second a _ b (first state a rises found) result

/-- A rule that builds nothing with markers, and another. -/
theorem skip {rule : Rule α} {next : α → Rule β} (second : ∀ a, (next a).Numbers before g) :
    (rule >>= next).Numbers before g :=
  (any rule).bind second

theorem map {rule : Rule α} {h : α → β} (first : rule.Numbers before fun a => g (h a)) :
    (h <$> rule).Numbers before g :=
  first.bind fun _ => eq rfl

theorem ite {condition : Prop} [Decidable condition] {yes no : Rule α}
    (first : yes.Numbers before f) (second : no.Numbers before f) :
    (if condition then yes else no).Numbers before f := by
  by_cases h : condition
  · rwa [if_pos h]
  · rwa [if_neg h]

/-- A choice between two rules, and then the same rule after both. -/
theorem either {condition : Prop} [Decidable condition] {yes no : Rule α} {next : α → Rule β}
    (first : yes.Numbers before f) (second : no.Numbers before f)
    (rest : ∀ a, (next a).Numbers (f a) g) :
    (if condition then yes >>= next else no >>= next).Numbers before g :=
  ite (first.bind rest) (second.bind rest)

theorem fail {problem : Problem} {place : Place} : (fail problem place : Rule α).Numbers before f :=
  fun _ _ _ result => absurd result (by simp [run])

theorem abort {problem : Problem} {place : Place} : (abort problem place : Rule α).Numbers before f :=
  fun _ _ _ result => absurd result (by simp [run])

theorem expected {what context : String} : (expected what context : Rule α).Numbers before f :=
  skip fun _ => skip fun _ => fail

theorem reported {problem : Problem} {place : Place} {next : Unit → Rule β}
    (second : (next ()).Numbers before g) : (report problem place >>= next).Numbers before g :=
  skip fun _ => second

theorem accept {read : Lexeme → Option α} {what context : String}
    (less : ∀ lexeme a, read lexeme = some a → (f a).Sublist before) :
    (accept read what context).Numbers before f := by
  have looked : (accept? read).Numbers before fun result => (result.map f).getD before := by
    refine skip fun lexeme => ?_
    cases seen : read lexeme with
    | none => exact eq rfl
    | some a => exact skip fun _ => pure (less lexeme a seen)
  refine looked.bind fun result => ?_
  cases result with
  | none => exact expected
  | some a => exact eq rfl

theorem marker : Rule.marker?.Numbers before fun ordinal => before ++ ordinal.toList := by
  intro state ordinal rises result
  unfold run at result ⊢
  by_cases isMarker : (state.lexeme 0).kind = .punctuation .questionMark
  · simp only [isMarker, if_true, BindMarkers.next, Except.ok.injEq] at result ⊢
    subst result
    exact rises.append ⟨Nat.le_refl _, Nat.le_refl _⟩
  · simp only [isMarker, if_false, Except.ok.injEq] at result ⊢
    subst result
    simpa using rises

/-- What is left of a rule that halts is dropped. -/
theorem attempt {rule : Rule α} (h : rule.Numbers before fun a => before ++ f a) :
    (Rule.attempt rule).Numbers before fun result => before ++ result.toList.flatMap f := by
  intro state result rises found
  -- A rule that halted may have numbered markers; the counter has moved on past them.
  have after := rises.raise (rule.count_le state)
  unfold run Run.attempt at found ⊢
  cases value : (rule.run state).result with
  | ok a =>
    simp only [value, Except.ok.injEq] at found ⊢
    subst found
    simpa using h state a rises value
  | error halt =>
    cases halt with
    | recorded =>
      simp only [value, Except.ok.injEq] at found ⊢
      subst found
      simpa using after
    | fatal => simp [value] at found

/-- The items of a list add their ordinals one after another. -/
theorem many {opens : TokenKind → Bool} {goesOn : α → Bool} {item : Lexeme → Rule α}
    (one : ∀ lexeme, (item lexeme).Adds f) :
    (Rule.many opens goesOn item).Adds fun as => as.flatMap f := by
  intro before state as rises result
  refine many_ok_induction (motive := fun first as last => ∀ before,
    Ascending 0 before first.markers.count →
      Ascending 0 (before ++ as.flatMap f) last.markers.count) ?_ ?_ ?_ result before rises
  · intro state before rises
    simpa using rises
  · intro state token rest a _ _ found _ before rises
    simpa using one token.toLexeme before state.advance a rises found
  · -- The ordinals so far are what comes before the rest of the list.
    intro state last token rest a others _ _ found _ later before rises
    rw [List.flatMap_cons, ← List.append_assoc]
    exact later (before ++ f a) (one token.toLexeme before state.advance a rises found)

theorem following {separator : TokenKind} {item : Rule α}
    (one : item.Adds f) :
    (Rule.following separator item).Adds fun as => as.flatMap f :=
  many fun _ => one

theorem separated {separator : TokenKind} {item : Rule α}
    (one : item.Adds f) :
    (Rule.separated separator item).Adds fun as => as.flatMap f := by
  intro before
  refine (one before).bind fun first => (following one _).bind fun rest => pure ?_
  simp

theorem twoOrMore {context : String} {item : Rule α}
    (one : item.Adds f) :
    (Rule.twoOrMore context item).Adds fun as => as.flatMap f := by
  intro before
  refine (one before).bind fun first => skip fun _ => (separated one _).bind fun rest => pure ?_
  simp

theorem flatMap_filterMap_id (items : List (Option α)) :
    (items.filterMap id).flatMap f = items.flatMap (·.toList.flatMap f) := by
  induction items with
  | nil => rfl
  | cons item items ih =>
    rw [List.flatMap_cons, ← ih]
    cases item with
    | none => rfl
    | some a =>
      have first : (some a).toList.flatMap f = f a := by simp
      rw [first]
      rfl

theorem part {stops : TokenKind → Bool} {item : Rule α} (one : item.Adds f) :
    (part stops item).Adds fun result => result.toList.flatMap f := by
  intro before
  refine (attempt (one before)).bind fun result => ?_
  cases result with
  | none => exact skip fun _ => eq rfl
  | some a => exact eq rfl

/-- The parts of a list that were broken or came out empty have no ordinals. -/
theorem gather {separator : TokenKind} {stops : TokenKind → Bool} {item : Rule (Option α)}
    (one : item.Adds fun result => result.toList.flatMap f) :
    (Rule.gather separator stops item).Adds fun as => as.flatMap f := by
  intro before state as rises result
  rw [run_gather] at result ⊢
  unfold Run.andThen at result ⊢
  cases found : ((Rule.separated separator (Rule.part
      (fun kind => kind = separator || stops kind) item)).run state).result with
  | error halt => simp [found] at result
  | ok parts =>
    have ordinals := separated (part one) before state parts rises found
    simp only [found] at result ⊢
    unfold Run.settle at result ⊢
    by_cases lost : (parts.any Option.isNone && (parts.filterMap Option.join).isEmpty) = true
    · -- Nothing is left of the list, so it halts.
      rw [if_pos lost] at result
      exact absurd result (by simp [Run.halt])
    · rw [if_neg lost] at result ⊢
      obtain rfl : parts.filterMap Option.join = as := Except.ok.inj result
      have kept : parts.filterMap Option.join = (parts.filterMap id).filterMap id := by
        rw [List.filterMap_filterMap]
        rfl
      rw [kept, flatMap_filterMap_id, flatMap_filterMap_id]
      exact ordinals

end Numbers

end Rule

namespace Grammar

open Rule
open Rule.Numbers

/-! ### Values -/

theorem adds_markerOr {constant? : TokenKind → Option Term} {what context : String}
    (bare : ∀ kind term, constant? kind = some term → term.markers = []) :
    (markerOr constant? what context).Adds Term.markers := by
  intro before
  refine marker.bind fun ordinal => ?_
  cases ordinal with
  | none => exact accept fun lexeme term seen => by simp [bare _ _ seen]
  | some ordinal => exact eq rfl

theorem adds_scalar (context : String) : (scalar context).Adds Term.markers :=
  adds_markerOr fun _ _ => Term.markers_of_constant

theorem adds_integerOrMarker (context : String) : (integerOrMarker context).Adds Term.markers := by
  refine adds_markerOr fun kind term seen => ?_
  split at seen
  · obtain rfl := Option.some.inj seen
    rfl
  · exact absurd seen (by simp)

section

variable {value : String → Rule Value} (one : ∀ context, (value context).Adds Value.markers)
include one

theorem adds_listLiteral : (listLiteral value).Adds Value.markers := by
  intro before
  refine skip fun _ => skip fun eaten => ite (pure (by simp [Value.markers, Value.itemMarkers])) ?_
  refine (separated (one _) before).bind fun items => skip fun _ => eq ?_
  rw [Value.markers, Value.itemMarkers_eq]

theorem adds_mapEntry :
    (mapEntry value).Adds fun entry => entry.1.markers ++ entry.2.markers := by
  intro before
  refine (one _ before).bind fun key => skip fun _ => (one _ _).bind fun entry => eq ?_
  rw [List.append_assoc]

theorem adds_bracedLiteral : (bracedLiteral value).Adds Value.markers := by
  intro before
  refine skip fun _ => skip fun eaten => ite (pure (by simp [Value.markers])) ?_
  refine (one _ before).bind fun first => skip fun colon => ite ?_ ?_
  · refine (one _ _).bind fun firstValue => (following (adds_mapEntry one) _).bind fun rest => ?_
    refine skip fun _ => pure ?_
    rw [Value.markers, Value.entryMarkers_eq, List.flatMap_cons]
    simp
  · refine (following (one _) _).bind fun rest => skip fun _ => eq ?_
    rw [Value.markers, Value.itemMarkers_eq, List.flatMap_cons, List.append_assoc]

end

theorem adds_scalarOr {list braced : Rule Value} {context : String} (first : list.Adds Value.markers)
    (second : braced.Adds Value.markers) : (scalarOr list braced context).Adds Value.markers := by
  intro before
  refine skip fun kind => ?_
  split
  · exact first before
  · exact second before
  · exact (adds_scalar context before).bind fun term => eq rfl

theorem adds_valueWithin (levels : Nat) (context : String) :
    (valueWithin levels context).Adds Value.markers := by
  induction levels generalizing context with
  | zero => exact adds_scalarOr (fun _ => skip fun _ => fail) fun _ => skip fun _ => fail
  | succ levels ih => exact adds_scalarOr (adds_listLiteral ih) (adds_bracedLiteral ih)

theorem adds_value (context : String) : (value context).Adds Value.markers :=
  adds_valueWithin maxNesting context

theorem adds_values (context : String) : (values context).Adds (·.flatMap Value.markers) :=
  separated (adds_value context)

/-! ### Relations -/

theorem adds_tokenRelation (first : Nat) :
    (tokenRelation first).Adds fun relation => relation.toList.flatMap Relation.markers := by
  intro before
  refine skip fun _ => skip fun columns => skip fun _ => skip fun sign => skip fun again => ite ?_ ?_
  · refine skip fun _ => (adds_values _ before).bind fun arguments => skip fun _ => ite ?_ ?_
    · exact pure (by simp [Relation.markers, TokenOperand.markers])
    · -- The arguments are dropped, and their markers with them.
      exact skip fun _ => skip fun _ => pure (by simp)
  · refine (adds_value _ before).bind fun argument => pure ?_
    simp [Relation.markers, TokenOperand.markers]

theorem adds_relation :
    relation.Adds fun relation => relation.toList.flatMap Relation.markers := by
  intro before
  refine skip fun first => skip fun isToken => ite (adds_tokenRelation first before) ?_
  refine skip fun column => skip fun isIn => ite ?_ ?_
  · refine skip fun _ => (adds_values _ before).bind fun members => skip fun _ => pure ?_
    simp [Relation.markers]
  · refine skip fun sign => (adds_value _ before).bind fun operand => pure ?_
    simp [Relation.markers]

theorem adds_relations : relations.Adds (·.flatMap Relation.markers) :=
  gather adds_relation

/-! ### INSERT and DELETE -/

theorem adds_objectiveValue (objective : TokenKind) :
    (objectiveValue objective).Adds Term.markers := by
  intro before
  refine (adds_integerOrMarker _ before).bind fun term => skip fun current => skip fun next => ?_
  exact ite (skip fun _ => eq rfl) (eq rfl)

theorem adds_objectives : objectives.Adds Attributes.markers := by
  intro before
  refine skip fun kind => ?_
  have settings : (Rule.many TokenKind.isObjective (fun _ => true) fun objective => do
      return (objective.kind, ← objectiveValue objective.kind)).Adds
        (·.flatMap fun setting => setting.2.markers) :=
    many fun objective before => (adds_objectiveValue _ before).bind fun term => eq rfl
  -- An objective that comes again takes the ordinal of the earlier value away.
  have attributes : ∀ items high,
      Ascending 0 (before ++ items.flatMap fun setting => setting.2.markers) high →
        Ascending 0 (before ++ (Attributes.none.setAll items).markers) high := by
    intro items high rises
    obtain ⟨mid, first, second⟩ := rises.split
    exact first.append (Attributes.ascending_setAll second)
  exact ite (skip fun _ => (settings before).bind fun items => done (attributes items))
    ((settings before).bind fun items => done (attributes items))

theorem adds_usingClause : usingClause.Adds Attributes.markers := by
  intro before
  exact skip fun isUsing => ite (adds_objectives before)
    (pure (by simp [Attributes.markers, Attributes.none, inOrder]))

theorem adds_insertion : insertion.Adds Insertion.markers := by
  intro before
  refine skip fun _ => skip fun table => skip fun _ => skip fun columns => skip fun _ => ?_
  refine skip fun _ => skip fun _ => (twoOrMore (adds_value _) before).bind fun values => ?_
  refine skip fun _ => (adds_usingClause _).bind fun attributes => eq ?_
  rw [List.append_assoc]
  rfl

theorem adds_elementKey : elementKey.Adds Value.markers := by
  intro before
  exact (adds_value _ before).bind fun key => skip fun _ => eq rfl

theorem adds_deletionTarget : deletionTarget.Adds DeletionTarget.markers := by
  intro before
  refine skip fun column => skip fun bracket => ite ?_ (pure (by simp [DeletionTarget.markers]))
  exact (adds_elementKey before).bind fun key => pure (by simp [DeletionTarget.markers])

theorem adds_timestampClause : timestampClause.Adds Attributes.markers := by
  intro before
  refine skip fun isUsing => ite ?_ (pure (by simp [Attributes.markers, Attributes.none, inOrder]))
  refine skip fun _ => (adds_integerOrMarker _ before).bind fun term => pure ?_
  have alone : ∀ ordinal : Option Nat, inOrder ordinal none = ordinal.toList := by
    intro ordinal
    cases ordinal <;> rfl
  simp [Attributes.markers, Attributes.none, alone, Term.markers]

theorem adds_deletion : deletion.Adds Deletion.markers := by
  intro before
  have none : (Pure.pure [] : Rule (List DeletionTarget)).Numbers before fun targets =>
      before ++ targets.flatMap DeletionTarget.markers := pure (by simp)
  refine skip fun kind => either none (separated adds_deletionTarget before) fun targets => ?_
  refine skip fun _ => skip fun table => (adds_timestampClause _).bind fun attributes => ?_
  refine skip fun _ => (adds_relations _).bind fun relations => pure ?_
  simp [Deletion.markers]

/-! ### UPDATE -/

theorem adds_elementAssignment : elementAssignment.Adds Operation.markers := by
  intro before
  refine (adds_elementKey before).bind fun key => skip fun _ => ?_
  refine (adds_value _ _).bind fun assigned => eq ?_
  rw [Operation.markers_element, List.append_assoc]

theorem adds_plainAssignment (column : Identifier) :
    (plainAssignment column).Adds Operation.markers := by
  intro before
  refine (adds_value _ before).bind fun assigned => skip fun plus => ite ?_ ?_
  · refine skip fun place => skip fun other => ite (reported (pure ?_)) (pure ?_)
    · simp [Operation.markers, Operation.arguments]
    · simp [Operation.markers, Operation.arguments]
  · exact pure (by simp [Operation.markers, Operation.arguments])

theorem adds_signedChange (sign : Sign) (checkColumns : Rule Unit) :
    (signedChange sign checkColumns).Adds Operation.markers := by
  intro before
  refine skip fun _ => skip fun place => (adds_value _ before).bind fun operand => skip fun _ => ?_
  cases made : Operation.delta sign operand with
  | ok operation => exact eq (by rw [Operation.markers_of_delta made])
  | error fault => exact fail

theorem adds_unsignedChange (digits : String) (checkColumns : Rule Unit) :
    (unsignedChange digits checkColumns).Adds Operation.markers := by
  intro before
  refine skip fun place => skip fun _ => skip fun _ => ite (pure ?_) abort
  simp [Operation.markers, Operation.arguments, Value.markers, Term.markers, Term.ordinal?]

theorem adds_selfAssignment (column : Identifier) :
    (selfAssignment column).Adds Operation.markers := by
  intro before
  refine skip fun place => skip fun other => skip fun kind => ?_
  split
  · exact adds_signedChange .plus _ before
  · exact adds_signedChange .minus _ before
  · exact adds_unsignedChange _ _ before
  · refine (adds_scalar _ before).bind fun amount => skip fun _ => pure ?_
    simp [Operation.markers, Operation.arguments, Value.markers]
  · exact expected

theorem adds_assignment : assignment.Adds fun assigned => assigned.2.markers := by
  intro before
  refine skip fun column => skip fun bracket => ite ?_ ?_
  · exact (adds_elementAssignment before).bind fun operation => eq rfl
  refine skip fun _ => skip fun kind => ite ?_ ?_
  · exact (adds_selfAssignment column before).bind fun operation => eq rfl
  · exact (adds_plainAssignment column before).bind fun operation => eq rfl

theorem adds_assignments :
    assignments.Adds (·.flatMap fun assigned => assigned.2.markers) := by
  refine gather fun before => map ?_
  simpa using adds_assignment before

theorem adds_update : update.Adds Update.markers := by
  intro before
  refine skip fun table => (adds_usingClause before).bind fun attributes => skip fun _ => ?_
  refine (adds_assignments _).bind fun operations => skip fun _ => ?_
  refine (adds_relations _).bind fun relations => pure ?_
  simp [Update.markers]

/-! ### Batches -/

theorem adds_modificationAfter {kind : TokenKind} {rule : Rule Modification}
    (h : modificationAfter? kind = some rule) : rule.Adds Modification.markers := by
  intro before
  unfold modificationAfter? at h
  split at h
  case h_4 => exact absurd h (by simp)
  all_goals obtain rfl := Option.some.inj h
  · exact map (adds_insertion before)
  · exact map (adds_update before)
  · exact map (adds_deletion before)

theorem adds_batchItem (opening : TokenKind) :
    (batchItem opening).Adds fun modification => modification.toList.flatMap Modification.markers := by
  intro before
  unfold batchItem
  cases known : modificationAfter? opening with
  | none => exact skip fun _ => skip fun _ => skip fun _ => pure (by simp)
  | some rule =>
    refine (attempt (adds_modificationAfter known before)).bind fun result => ?_
    cases result with
    | none => exact skip fun _ => eq rfl
    | some modification => exact skip fun _ => eq rfl

theorem adds_modifications : modifications.Adds (·.flatMap Modification.markers) := by
  intro before
  refine (many (fun opening => adds_batchItem opening.kind) before).bind fun items => ?_
  exact eq (congrArg (before ++ ·) (flatMap_filterMap_id items))

theorem adds_batch : batch.Adds Batch.markers := by
  intro before
  refine skip fun mode => skip fun _ => (adds_usingClause before).bind fun attributes => ?_
  refine (adds_modifications _).bind fun modifications => skip fun kind => ?_
  have ending : (do
      keyword .APPLY "to end batch"
      keyword .BATCH "after APPLY"
      return ⟨mode, attributes, modifications⟩ : Rule Batch).Numbers
        (before ++ attributes.markers ++ modifications.flatMap Modification.markers)
        fun statements => before ++ statements.markers := by
    refine skip fun _ => skip fun _ => eq ?_
    rw [List.append_assoc]
    rfl
  exact ite (skip fun _ => ending) ending

/-! ### Whole statements -/

theorem adds_selection : selection.Adds Selection.markers := by
  intro before
  refine skip fun projection => skip fun _ => skip fun table => skip fun isWhere => ?_
  have none : (Pure.pure [] : Rule (List Relation)).Numbers before fun relations =>
      before ++ relations.flatMap Relation.markers := pure (by simp)
  refine either (adds_relations before) none fun relations => skip fun orderings => ?_
  exact skip fun limit => skip fun allowFiltering => eq rfl

theorem adds_create : create.Adds Statement.markers := by
  intro before
  refine skip fun _ => ite (skip fun _ => pure ?_) (skip fun _ => ite (skip fun _ => pure ?_) ?_)
  · simp [Statement.markers]
  · simp [Statement.markers]
  · exact skip fun _ => ite (skip fun _ => pure (by simp [Statement.markers])) expected

theorem adds_drop : drop.Adds Statement.markers := by
  intro before
  refine skip fun _ => ite (skip fun _ => pure ?_) (skip fun _ => ite (skip fun _ => pure ?_) ?_)
  · simp [Statement.markers]
  · simp [Statement.markers]
  · exact skip fun _ => ite (skip fun _ => pure (by simp [Statement.markers])) expected

theorem adds_alter : alter.Adds Statement.markers := by
  intro before
  refine skip fun _ => ite (skip fun _ => pure ?_) (skip fun _ => ite ?_ expected)
  · simp [Statement.markers]
  · exact skip fun table => skip fun change => pure (by simp [Statement.markers])

theorem adds_statementAfter {kind : TokenKind} {rule : Rule Statement}
    (h : statementAfter? kind = some rule) : rule.Adds Statement.markers := by
  intro before
  have none : ∀ {α : Type} (rule : Rule α) (statement : α → Statement),
      (∀ a, (statement a).markers = []) → (statement <$> rule).Numbers before fun statement =>
        before ++ statement.markers :=
    fun rule statement bare => skip fun a => eq (by rw [bare, List.append_nil])
  unfold statementAfter? at h
  split at h
  case h_14 => exact absurd h (by simp)
  all_goals obtain rfl := Option.some.inj h
  · exact map (adds_selection before)
  · exact map (adds_insertion before)
  · exact map (adds_update before)
  · exact map (adds_deletion before)
  · exact map (adds_batch before)
  · exact none _ _ fun _ => rfl
  · exact none _ _ fun _ => rfl
  · exact adds_create before
  · exact adds_drop before
  · exact adds_alter before
  · exact none _ _ fun _ => rfl
  · exact none _ _ fun _ => rfl
  · exact none _ _ fun _ => rfl

theorem adds_statement : statement.Adds Statement.markers := by
  intro before
  unfold statement
  refine skip fun kind => ?_
  cases known : statementAfter? kind with
  | none => exact expected
  | some rule => exact skip fun _ => adds_statementAfter known before

theorem adds_query : query.Adds fun read => read.1.markers := by
  intro before
  refine skip fun _ => skip fun first => (adds_statement before).bind fun statement => ?_
  refine skip fun place => skip fun _ => skip fun kind => ?_
  exact ite (skip fun _ => skip fun _ => skip fun _ => eq rfl) (eq rfl)

end Grammar

end Cql
