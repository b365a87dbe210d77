/-
What a statement says of the order of its rows.

ORDER BY and CLUSTERING ORDER BY are lists of columns with directions.  Whatever else was wrong with a
statement that is given, its ordering is made of such lists in its text, and of one that breaks off only
what was read of it.  The ordering of an accepted statement is made of all that its text says.

* `Language.HoldsOrderings` — tokens among which there are lists of columns with directions;
* `Rule.Orders` — a rule that takes such lists, with a law for each form of rule;
* `Grammar.orders_selection`, `Grammar.orders_tableDefinition` — the statements that order rows;
* `Language.orderings` — what a text says of the order of rows;
* `Parser.describes_orderings` — **every ordering agrees with the entries that made it**.
-/
import Cql.Proofs.BatchParts
import Cql.Proofs.BestEffort
import Cql.Proofs.Braces
import Cql.Proofs.Orderings
import Cql.Proofs.TableCreation

namespace Cql

open Phrase

/-! ### Lists of columns with directions -/

namespace Language

/-- A list of columns with their directions, `ORDER BY ordering (',' ordering)*` or
`CLUSTERING ORDER BY '(' entry (',' entry)*`. -/
def orderingList : Phrase (List (Identifier × Direction)) :=
  (do
    word .ORDER
    word .BY
    commaSeparated ordering) <|>
  (do
    word .CLUSTERING
    word .ORDER
    word .BY
    mark .leftParen
    commaSeparated clusteringEntry)

/-- An optional `ORDER BY ordering (',' ordering)*`, as the entries that it lists. -/
def orderEntries : Phrase (List (Identifier × Direction)) :=
  (do
    word .ORDER
    word .BY
    commaSeparated ordering) <|>
  pure []

theorem map_orderEntries : ColumnOrder.ofList <$> orderEntries = orderClause := by
  simp only [orderEntries, orderClause, map_orElse, map_bind, map_pure, bind_pure_comp]
  rfl

/-- Among the tokens there are, one behind another, lists of these columns with their directions. -/
inductive HoldsOrderings : List Token → List (Identifier × Direction) → Prop
  | none (tokens : List Token) : HoldsOrderings tokens []
  | more {front listed rest : List Token} {entries others : List (Identifier × Direction)} {ordinal : Nat}
      (spelled : orderingList (number ordinal (listed.map (·.toLexeme))) entries)
      (later : HoldsOrderings rest others) :
      HoldsOrderings (front ++ (listed ++ rest)) (entries ++ others)

namespace HoldsOrderings

variable {tokens rest : List Token} {entries others : List (Identifier × Direction)}

/-- Any tokens may stand in front. -/
theorem behind (front : List Token) (h : HoldsOrderings tokens entries) :
    HoldsOrderings (front ++ tokens) entries := by
  cases h with
  | none => exact .none _
  | more spelled later =>
    rw [← List.append_assoc]
    exact .more spelled later

theorem append (first : HoldsOrderings tokens entries) (second : HoldsOrderings rest others) :
    HoldsOrderings (tokens ++ rest) (entries ++ others) := by
  induction first with
  | none tokens => exact second.behind tokens
  | more spelled later ih =>
    rw [List.append_assoc, List.append_assoc, List.append_assoc]
    exact .more spelled ih

/-- A list that is passed, with whatever is taken behind it. -/
theorem of_passes {state mid after : State} {items : List Numbered} (passes : state.Passes items mid)
    (spelled : orderingList items entries) (takes : mid.Takes after) : ∃ taken,
      state.stream.ahead = taken ++ after.stream.ahead ∧ HoldsOrderings taken entries := by
  obtain ⟨listed, ahead, rfl⟩ := passes.exists_taken
  obtain ⟨left, ahead', -, -⟩ := takes
  refine ⟨listed ++ left, by rw [ahead, ahead', List.append_assoc], ?_⟩
  have one : HoldsOrderings ([] ++ (listed ++ left)) (entries ++ []) := .more spelled (.none left)
  rwa [List.nil_append, List.append_nil] at one

end HoldsOrderings

end Language

/-! ### Rules that take such lists -/

namespace Rule

variable {α β : Type}

/-- What a quiet rule comes to is read. -/
theorem Quiet.reads {rule : Rule α} (quiet : rule.Quiet) {state : State} {a : α}
    (found : (rule.run state).result = .ok a) : rule.Reads state a (rule.run state).state :=
  reads_iff.2 ⟨found, rfl, quiet.run found⟩

theorem Quiet.reads_attempt {rule : Rule α} (quiet : rule.Quiet) {state : State} {a : α}
    (found : ((attempt rule).run state).result = .ok (some a)) :
    rule.Reads state a ((attempt rule).run state).state := by
  rw [state_attempt]
  exact quiet.reads (attempt_eq_ok_some.1 found)

/-- The tokens that the rule takes hold lists of columns.  With the columns that there were before, they
agree with the value. -/
def Orders (rule : Rule α) (before : List (Identifier × Direction))
    (Agrees : α → List (Identifier × Direction) → Prop) : Prop :=
  ∀ state a, (rule.run state).result = .ok a → ∃ taken more,
    state.stream.ahead = taken ++ (rule.run state).state.stream.ahead ∧
      Language.HoldsOrderings taken more ∧ Agrees a (before ++ more)

namespace Orders

variable {before : List (Identifier × Direction)} {P P' : α → List (Identifier × Direction) → Prop}
  {Q : β → List (Identifier × Direction) → Prop}

/-- A rule whose tokens do not matter. -/
theorem of_yields {rule : Rule α} (h : rule.Yields fun a => P a before) : rule.Orders before P := by
  intro state a found
  obtain ⟨taken, ahead, -, -⟩ := rule.run_takes state
  exact ⟨taken, [], ahead, .none taken, by rw [List.append_nil]; exact h state a found⟩

theorem pure {a : α} (h : P a before) : (pure a : Rule α).Orders before P := of_yields (.pure h)

theorem expected (what context : String) : (expected what context : Rule α).Orders before P :=
  of_yields (.expected what context)

theorem mono {rule : Rule α} (h : rule.Orders before P) (weaker : ∀ a entries, P a entries → P' a entries) :
    rule.Orders before P' := by
  intro state a found
  obtain ⟨taken, more, ahead, holds, agrees⟩ := h state a found
  exact ⟨taken, more, ahead, holds, weaker a _ agrees⟩

theorem bind {rule : Rule α} {next : α → Rule β} (first : rule.Orders before P)
    (second : ∀ a entries, P a entries → (next a).Orders entries Q) : (rule >>= next).Orders before Q := by
  intro state b found
  obtain ⟨a, found, found', after⟩ := bind_eq_ok found
  obtain ⟨taken, more, ahead, holds, agrees⟩ := first state a found
  obtain ⟨taken', more', ahead', holds', agrees'⟩ := second a _ agrees _ b found'
  refine ⟨taken ++ taken', more ++ more', ?_, holds.append holds', ?_⟩
  · rw [after, ahead, ahead', List.append_assoc]
  · rwa [← List.append_assoc]

/-- The tokens of the first rule do not matter. -/
theorem after {rule : Rule α} {next : α → Rule β} (second : ∀ a, (next a).Orders before Q) :
    (rule >>= next).Orders before Q := by
  have nothing : rule.Orders before fun _ entries => entries = before := of_yields fun _ _ _ => rfl
  exact nothing.bind fun a entries same => same ▸ second a

theorem map {rule : Rule α} {f : α → β} (h : rule.Orders before fun a => Q (f a)) :
    (f <$> rule).Orders before Q := h.bind fun _ _ agrees => pure agrees

theorem ite {condition : Prop} [Decidable condition] {yes no : Rule α} (first : yes.Orders before P)
    (second : no.Orders before P) : (if condition then yes else no).Orders before P := by
  split
  · exact first
  · exact second

/-- Where a rule halts, its tokens do not matter. -/
theorem attempt {rule : Rule α} (h : rule.Orders before P) :
    (attempt rule).Orders before fun result entries => result.elim (entries = before) (P · entries) := by
  intro state result found
  cases result with
  | none =>
    obtain ⟨taken, ahead, -, -⟩ := (Rule.attempt rule).run_takes state
    exact ⟨taken, [], ahead, .none taken, List.append_nil before⟩
  | some a =>
    rw [state_attempt]
    exact h state a (attempt_eq_ok_some.1 found)

/-- A quiet rule takes what its phrase has. -/
theorem of_sound {rule : Rule α} {phrase : Phrase α} (quiet : rule.Quiet) (sound : rule.Sound phrase)
    (h : ∀ (state mid : State) items a, state.Passes items mid → phrase items a → ∃ taken more,
      state.stream.ahead = taken ++ mid.stream.ahead ∧ Language.HoldsOrderings taken more ∧
        P a (before ++ more)) : rule.Orders before P := by
  intro state a found
  obtain ⟨items, passes, spelled⟩ := sound _ _ _ (quiet.reads found)
  exact h _ _ _ _ passes spelled

/-- In a list with separators, the columns of the items come one after another. -/
theorem following {item : Rule α} {entries : α → List (Identifier × Direction)}
    (h : ∀ before, item.Orders before fun a all => all = before ++ entries a) (separator : TokenKind) :
    (following separator item).Orders before fun as all => all = before ++ as.flatMap entries := by
  intro state as found
  have listed : ∃ taken, state.stream.ahead =
        taken ++ ((Rule.following separator item).run state).state.stream.ahead ∧
      Language.HoldsOrderings taken (as.flatMap entries) := by
    refine many_ok_induction (motive := fun state as after => ∃ taken,
      state.stream.ahead = taken ++ after.stream.ahead ∧ Language.HoldsOrderings taken (as.flatMap entries))
      (fun _ => ⟨[], rfl, .none []⟩) (fun _ _ _ ends => by cases ends) ?_ found
    rintro state after token rest a others ahead - first - ⟨taken', ahead', holds'⟩
    obtain ⟨taken, more, ahead'', holds, same⟩ := h [] state.advance a first
    obtain rfl : more = entries a := same
    refine ⟨token :: taken ++ taken', ?_, (holds.behind [token]).append holds'⟩
    rw [State.ahead_advance ahead, ahead'] at ahead''
    rw [ahead, ahead'', List.cons_append, List.cons_append, List.append_assoc]
  obtain ⟨taken, ahead, holds⟩ := listed
  exact ⟨taken, _, ahead, holds, rfl⟩

theorem separated {item : Rule α} {entries : α → List (Identifier × Direction)}
    (h : ∀ before, item.Orders before fun a all => all = before ++ entries a) (separator : TokenKind) :
    (separated separator item).Orders before fun as all => all = before ++ as.flatMap entries := by
  refine (h before).bind fun a all same => (following h separator).bind fun as all' same' => pure ?_
  rw [same', same, List.flatMap_cons, List.append_assoc]

/-- What is skipped of an item does not matter. -/
theorem restoring {item : Rule (Salvage α)} {entries : List α → List (Identifier × Direction)}
    (nothing : entries [] = []) (h : item.Orders before fun items all => all = before ++ entries items.kept)
    (stops : TokenKind → Bool) :
    (restoring stops item).Orders before fun as all => all = before ++ entries as := by
  refine h.attempt.bind fun result all agrees => ?_
  cases result with
  | none => exact after fun _ => pure (by rw [agrees, nothing, List.append_nil])
  | some items => exact ite (after fun _ => pure agrees) (pure agrees)

end Orders

end Rule

/-! ### ORDER BY -/

namespace Grammar

open Rule

theorem quiet_direction : direction.Quiet := by simp [direction]

theorem quiet_orderClause : orderClause.Quiet := by
  have one : ordering.Quiet := by simp [ordering, quiet_direction]
  simp [orderClause, one]

/-- The ordering is made of the entries. -/
def MadeOf (order : ColumnOrder) (entries : List (Identifier × Direction)) : Prop :=
  order = .ofList entries

theorem orders_orderClause : orderClause.Orders [] MadeOf := by
  refine .of_sound quiet_orderClause recognizes_orderClause.sound
    fun state mid items order passes spelled => ?_
  rw [← Language.map_orderEntries] at spelled
  obtain ⟨entries, listed | ⟨rfl, rfl⟩, rfl⟩ := map_iff.1 spelled
  · obtain ⟨taken, ahead, holds⟩ := Language.HoldsOrderings.of_passes passes (.inl listed)
      (State.takes_kept.refl mid)
    exact ⟨taken, entries, ahead, holds, rfl⟩
  · obtain rfl := State.Passes.nil_iff.1 passes
    exact ⟨[], [], rfl, .none [], rfl⟩

theorem orders_selection : selection.Orders [] fun selection => MadeOf selection.orderings := by
  have clauses : ∀ (table : TableName) (projection : Projection) (relations : List Relation), (do
      let orderings ← orderClause
      let limit ← limitClause
      let allowFiltering ← filteringClause
      return ⟨table, projection, relations, orderings, limit, allowFiltering⟩ :
        Rule Selection).Orders [] fun selection => MadeOf selection.orderings :=
    fun _ _ _ => orders_orderClause.bind fun _ _ made => .after fun _ => .after fun _ => .pure made
  refine .after fun projection => .after fun _ => .after fun table => .after fun _ => ?_
  split
  · exact .after fun relations => clauses table projection relations
  · exact .after fun relations => clauses table projection relations

end Grammar

/-! ### CLUSTERING ORDER BY -/

/-- The column that an element orders, with its direction. -/
def TableElement.ordering? : TableElement → Option (Identifier × Direction)
  | .ordering name direction => some (name, direction)
  | _ => none

/-- The columns that elements order, with their directions. -/
def TableElement.orderings (elements : List TableElement) : List (Identifier × Direction) :=
  elements.filterMap ordering?

theorem TableElement.orderings_map (entries : List (Identifier × Direction)) :
    orderings (entries.map fun entry => .ordering entry.1 entry.2) = entries := by
  induction entries with
  | nil => rfl
  | cons entry entries ih => exact congrArg (entry :: ·) ih

/-- A table has the ordering of all its elements. -/
theorem TableDefinition.clusteringOrder_ofElements (table : TableName) (elements : List TableElement) :
    (ofElements table elements).clusteringOrder = .ofList (TableElement.orderings elements) := by
  have all (definition : TableDefinition) : (elements.foldl add definition).clusteringOrder =
      (TableElement.orderings elements).foldl (fun order entry => order.insert entry.1 entry.2)
        definition.clusteringOrder := by
    induction elements generalizing definition with
    | nil => rfl
    | cons element elements ih =>
      rw [List.foldl_cons, ih]
      cases element <;> simp [add, TableElement.orderings, TableElement.ordering?, List.filterMap_cons]
  exact all (bare table)

namespace Rule

variable {α : Type} {item : Rule α} {phrase : Phrase α} {state : State} {salvage : Salvage α}

section

variable (quiet : item.Quiet) (sound : item.Sound phrase)
include quiet sound

/-- What is kept of the items behind the first one are read items; the rest was taken as well. -/
theorem exists_passes_of_following {results : List (Option α)}
    (found : ((many (· = .punctuation .comma) Option.isSome fun _ => attempt item).run state).result =
      .ok results) : ∃ items mid, state.Passes items mid ∧
        Phrase.many (do mark .comma; phrase) items (results.filterMap id) ∧
        mid.Takes ((many (· = .punctuation .comma) Option.isSome fun _ => attempt item).run state).state := by
  refine many_ok_induction (motive := fun state results after => ∃ items mid, state.Passes items mid ∧
    Phrase.many (do mark .comma; phrase) items (results.filterMap id) ∧ mid.Takes after) ?_ ?_ ?_ found
  · exact fun state => ⟨[], state, .nothing state, .none, State.takes_kept.refl state⟩
  · -- The list breaks off at an item that is not read.
    rintro state token rest a ahead - - broken
    obtain rfl : a = none := by simpa using broken
    have taken := State.takes_kept.trans (State.takes_kept.advance state) ((attempt item).run_takes _)
    exact ⟨[], state, .nothing state, .none, taken⟩
  · rintro state after token rest a others ahead opened first read ⟨items, mid, passes', spelled', takes⟩
    obtain ⟨a, rfl⟩ := Option.isSome_iff_exists.1 read
    obtain ⟨front, passes, spelled⟩ := sound _ _ _ (quiet.reads_attempt first)
    have current : state.kind = .punctuation .comma :=
      (State.kind_of_ahead ahead).trans (of_decide_eq_true opened)
    obtain ⟨front, passes, spelled⟩ :=
      (passes_ofKind_bind (by decide)).2 ⟨current, front, passes, spelled⟩
    exact ⟨front ++ items, mid, passes.trans passes', .more spelled spelled', takes⟩

/-- What is kept of a list that may break off are the items read; the rest was taken as well. -/
theorem exists_passes_of_salvaged (found : ((salvaged item).run state).result = .ok salvage) :
    salvage.kept = [] ∨ ∃ items mid, state.Passes items mid ∧ Phrase.commaSeparated phrase items salvage.kept ∧
      mid.Takes ((salvaged item).run state).state := by
  obtain ⟨result, first, found, after⟩ := bind_eq_ok found
  cases result with
  | none =>
    obtain rfl := Except.ok.inj found
    exact .inl rfl
  | some a =>
    obtain ⟨front, passes, spelled⟩ := sound _ _ _ (quiet.reads_attempt first)
    obtain ⟨others, later, found, after'⟩ := bind_eq_ok found
    obtain ⟨results, listed, found', after''⟩ := bind_eq_ok later
    obtain rfl := Except.ok.inj found
    obtain rfl := Except.ok.inj found'
    obtain ⟨items, mid, passes', spelled', takes⟩ := exists_passes_of_following quiet sound listed
    refine .inr ⟨front ++ items, mid, passes.trans passes', ?_, ?_⟩
    · exact ⟨front, a, items, rfl, spelled, items, results.filterMap id, [], (List.append_nil _).symm,
        spelled', rfl, rfl⟩
    · rw [salvaged, after, after', salvagedAfterComma, after'']
      exact takes

end

/-- A token that must come next was there, if the rule comes to a value. -/
theorem ofKind_bind_eq_ok {wanted : TokenKind} {context : String} {next : Unit → Rule α} {a : α}
    (found : ((ofKind wanted context >>= next).run state).result = .ok a) : state.kind = wanted ∧
      (ofKind wanted context >>= next).run state = (next ()).run state.advance := by
  obtain ⟨_, first, -, -⟩ := bind_eq_ok found
  have reads := (Quiet.ofKind wanted context).reads first
  obtain ⟨current, same⟩ := reads_ofKind.1 reads
  exact ⟨current, by rw [reads.run_bind, same]⟩

/-- A list that is closed keeps what it is made of. -/
theorem closed_eq_ok {list : Rule (Salvage α)} {close : Rule Unit}
    (found : ((closed list close).run state).result = .ok salvage) : ∃ items,
      (list.run state).result = .ok items ∧ salvage.kept = items.kept ∧
        (list.run state).state.Takes ((closed list close).run state).state := by
  obtain ⟨items, first, found, after⟩ := bind_eq_ok found
  refine ⟨items, first, ?_, ?_⟩
  · split at found
    · obtain ⟨_, -, found, -⟩ := bind_eq_ok found
      obtain rfl := Except.ok.inj found
      rfl
    · obtain rfl := Except.ok.inj found
      rfl
  · rw [closed, after]
    exact run_takes _ _

end Rule

namespace Grammar

open Rule

theorem quiet_clusteringEntry : clusteringEntry.Quiet := by simp [clusteringEntry]

/-- The columns that are listed behind CLUSTERING ORDER. -/
theorem exists_taken_of_clusteringOrder {state : State} {option : Salvage TableElement}
    (words : state.kind = .keyword .CLUSTERING ∧ (state.lexeme 1).kind = .keyword .ORDER)
    (found : (clusteringOrder.run state.advance.advance).result = .ok option) : ∃ taken,
      state.stream.ahead = taken ++ (clusteringOrder.run state.advance.advance).state.stream.ahead ∧
        Language.HoldsOrderings taken (TableElement.orderings option.kept) := by
  obtain ⟨current, next⟩ := words
  rw [← State.kind_advance (by simp [current])] at next
  obtain ⟨taken, ahead, -, -⟩ : state.Takes (clusteringOrder.run state.advance.advance).state :=
    (Rule.advance >>= fun _ => Rule.advance >>= fun _ => clusteringOrder).run_takes state
  unfold clusteringOrder at found ahead ⊢
  obtain ⟨third, same⟩ := ofKind_bind_eq_ok found
  rw [keyword, same] at found ahead ⊢
  obtain ⟨fourth, same'⟩ := ofKind_bind_eq_ok found
  rw [symbol, same'] at found ahead ⊢
  obtain ⟨items, listed, kept, takes⟩ := closed_eq_ok found
  rw [kept]
  rcases exists_passes_of_salvaged quiet_clusteringEntry recognizes_clusteringEntry.sound listed with
    none | ⟨front, mid, passes, spelled, left⟩
  · -- Nothing is kept of a list whose first entry is broken.
    exact ⟨taken, ahead, none ▸ .none taken⟩
  · rw [Phrase.commaSeparated, separated_map] at spelled
    obtain ⟨entries, spelled, same⟩ := map_iff.1 spelled
    obtain ⟨list, passes, spelled⟩ := (passes_ofKind_bind (by decide)).2 ⟨current,
      (passes_ofKind_bind (by decide)).2 ⟨next, (passes_ofKind_bind (by decide)).2 ⟨third,
        (passes_ofKind_bind (by decide)).2 ⟨fourth, front, passes, spelled⟩⟩⟩⟩
    rw [same, TableElement.orderings_map]
    exact Language.HoldsOrderings.of_passes passes (.inr spelled) (State.takes_kept.trans left takes)

theorem orders_tableOption (before : List (Identifier × Direction)) : tableOption.Orders before
    fun option all => all = before ++ TableElement.orderings option.kept := by
  intro state option found
  -- The option is told by the kinds of two tokens, and looking at them takes none.
  have looked : tableOption.run state =
      (if state.kind = .keyword .COMPACT && (state.lexeme 1).kind = .keyword .STORAGE then do
        Rule.advance
        Rule.advance
        return ⟨[.compactStorage], true⟩
      else if state.kind = .keyword .CLUSTERING && (state.lexeme 1).kind = .keyword .ORDER then do
        Rule.advance
        Rule.advance
        clusteringOrder
      else do
        let setting ← property
        return ⟨setting.toList.map fun setting => .property setting.1 setting.2, true⟩ :
          Rule (Salvage TableElement)).run state := rfl
  rw [looked] at found ⊢
  revert found
  split
  · have none : (do
        Rule.advance
        Rule.advance
        return ⟨[.compactStorage], true⟩ : Rule (Salvage TableElement)).Orders before
          fun option all => all = before ++ TableElement.orderings option.kept :=
      .after fun _ => .after fun _ => .pure (List.append_nil before).symm
    exact none state option
  split
  · rename_i words
    intro found
    obtain ⟨taken, ahead, holds⟩ := exists_taken_of_clusteringOrder (by simpa using words) found
    exact ⟨taken, _, ahead, holds, rfl⟩
  · have none : (do
        let setting ← property
        return ⟨setting.toList.map fun setting => .property setting.1 setting.2, true⟩ :
          Rule (Salvage TableElement)).Orders before
            fun option all => all = before ++ TableElement.orderings option.kept := by
      refine .after fun setting => .pure ?_
      cases setting with
      | none => exact (List.append_nil before).symm
      | some setting => exact (List.append_nil before).symm
    exact none state option

theorem orders_tableOptions (before : List (Identifier × Direction)) : tableOptions.Orders before
    fun options all => all = before ++ TableElement.orderings options := by
  have options : (separated (.keyword .AND) tableOptionOrSkip).Orders before
      fun options all => all = before ++ options.flatMap TableElement.orderings :=
    .separated (fun before => .restoring rfl (orders_tableOption before) _) _
  refine .after fun _ => .ite (options.bind fun options all same => .pure ?_)
    (.pure (List.append_nil before).symm)
  rw [same, TableElement.orderings, List.filterMap_flatten]
  rfl

theorem orders_tableDefinition :
    tableDefinition.Orders [] fun definition => MadeOf definition.clusteringOrder := by
  have unordered : tableElements.Yields fun elements =>
      ∀ element ∈ elements, element.ordering? = none :=
    yields_tableElements (fun _ _ => rfl) (fun _ => rfl) fun _ _ _ => rfl
  refine .after fun table => .after fun _ => Orders.bind
    (P := fun elements all => TableElement.orderings elements = [] ∧ all = [])
    (.of_yields (unordered.mono fun _ none => ⟨List.filterMap_eq_nil_iff.2 none, rfl⟩)) ?_
  rintro elements _ ⟨none, rfl⟩
  refine .after fun _ => (orders_tableOptions []).bind fun options all same => .pure ?_
  rw [MadeOf, TableDefinition.clusteringOrder_ofElements, same, TableElement.orderings,
    List.filterMap_append]
  exact congrArg ColumnOrder.ofList (congrArg (· ++ _) none)

end Grammar

/-! ### Statements -/

/-- The ordering of rows that a statement asks for, if it is one that can. -/
def Statement.order? : Statement → Option ColumnOrder
  | .select selection => some selection.orderings
  | .createTable definition => some definition.clusteringOrder
  | _ => none

namespace Grammar

open Rule

/-- The ordering of the statement, if it has one, is made of the entries. -/
def OrderMadeOf (statement : Statement) (entries : List (Identifier × Direction)) : Prop :=
  ∀ order ∈ statement.order?, MadeOf order entries

theorem orders_of_unordered {rule : Rule Statement} (h : rule.Yields fun statement => statement.order? = none) :
    rule.Orders [] OrderMadeOf :=
  .of_yields (h.mono fun _ none order mem => by rw [none] at mem; cases mem)

theorem orders_create : create.Orders [] OrderMadeOf := by
  have keyspace : (do return .createKeyspace (← keyspaceDefinition) : Rule Statement).Yields
      fun statement => statement.order? = none := .after fun _ => .pure rfl
  have index : (do
      if ← eat .INDEX then return .createIndex (← indexDefinition)
      else expected "KEYSPACE, TABLE or INDEX" "after CREATE" : Rule Statement).Yields
      fun statement => statement.order? = none :=
    .after fun _ => .ite (.after fun _ => .pure rfl) (.expected _ _)
  refine .after fun _ => .ite (orders_of_unordered keyspace) (.after fun _ => .ite ?_
    (orders_of_unordered index))
  exact orders_tableDefinition.bind fun definition entries made => .pure fun order mem =>
    Option.some.inj mem ▸ made

theorem orders_statementAfter {opening : TokenKind} {rule : Rule Statement}
    (found : statementAfter? opening = some rule) : rule.Orders [] OrderMadeOf := by
  -- Only SELECT and CREATE have to do with the order of rows.
  have other : ∀ {α : Type} (rest : Rule α) (f : α → Statement), (∀ a, (f a).order? = none) →
      some (f <$> rest) = some rule → rule.Orders [] OrderMadeOf := by
    intro α rest f unordered same
    obtain rfl := Option.some.inj same
    exact orders_of_unordered (.map ((Yields.trivial rest).mono fun a _ => unordered a))
  unfold statementAfter? at found
  split at found
  case h_1 =>
    exact Option.some.inj found ▸ .map (orders_selection.mono fun _ _ made order mem =>
      Option.some.inj mem ▸ made)
  case h_8 => exact Option.some.inj found ▸ orders_create
  case h_9 =>
    refine Option.some.inj found ▸ orders_of_unordered ?_
    exact .after fun _ => .ite (.after fun _ => .pure rfl) (.after fun _ => .ite (.after fun _ => .pure rfl)
      (.after fun _ => .ite (.after fun _ => .pure rfl) (.expected _ _)))
  case h_10 =>
    refine Option.some.inj found ▸ orders_of_unordered ?_
    exact .after fun _ => .ite (.after fun _ => .pure rfl) (.after fun _ => .ite
      (.after fun _ => .after fun _ => .pure rfl) (.expected _ _))
  case h_14 => exact absurd found (by simp)
  all_goals exact other _ _ (fun _ => rfl) found

theorem orders_statement : statement.Orders [] OrderMadeOf := by
  refine .after fun opening => ?_
  split
  · rename_i rest found
    exact .after fun _ => orders_statementAfter found
  · exact .expected _ _

theorem orders_query : query.Orders [] fun result => OrderMadeOf result.1 :=
  .after fun _ => .after fun _ => orders_statement.bind fun _ _ made => .after fun _ => .after fun _ =>
    .after fun _ => .ite (.after fun _ => .after fun _ => .after fun _ => .pure made) (.pure made)

end Grammar

/-! ### Texts -/

namespace Language

/-- What a SELECT says of the order of rows, behind its keyword. -/
def selectionEntries : Phrase (List (Identifier × Direction)) := do
  let _ ← projection
  word .FROM
  let _ ← tableName
  let _ ← whereClause
  let entries ← orderEntries
  let _ ← limitClause
  let _ ← filteringClause
  return entries

theorem map_selectionEntries : ColumnOrder.ofList <$> selectionEntries = Selection.orderings <$> selection := by
  simp only [selectionEntries, selection, ← map_orderEntries, map_bind, map_pure, bind_map_left]

/-- What a CREATE TABLE in which no item is missing says of the order of rows. -/
def tableEntries : Phrase (List (Identifier × Direction)) := fun items entries =>
  ∃ text, tableCreation items text ∧ text.Gapless ∧ entries = text.orderings

/-- What a statement says of the order of rows, if it is one that can. -/
def orderings : Phrase (List (Identifier × Direction)) := (do word .SELECT; selectionEntries) <|> tableEntries

/-- The statements with an ordering are those that say something of the order of rows. -/
theorem orderings_iff {items : List Numbered} {order : ColumnOrder} :
    (∃ found, statement items found ∧ found.order? = some order) ↔
      ∃ entries, orderings items entries ∧ order = .ofList entries := by
  constructor
  · rintro ⟨found, spelled | spelled | spelled | spelled, has⟩
    · have changes := Parser.gives_modificationStatement _ _ spelled
      cases found <;> cases changes <;> cases has
    · obtain ⟨item, _, rfl, select, front, found, _, rfl, selects, rfl, rfl⟩ := ofKind_bind_iff.1 spelled
      have clause : (Selection.orderings <$> selection) front found.orderings :=
        map_iff.2 ⟨found, selects, rfl⟩
      rw [← map_selectionEntries] at clause
      obtain ⟨entries, listed, same⟩ := map_iff.1 clause
      rw [List.append_nil]
      exact ⟨entries, .inl (ofKind_bind_iff.2 ⟨item, front, rfl, select, listed⟩),
        (Option.some.inj has).symm.trans same⟩
    · have command := Parser.gives_administrativeStatement _ _ spelled
      cases found <;> cases command <;> cases has
    · obtain ⟨text, creates, gapless, rfl⟩ := tableStatement_iff.1 spelled
      exact ⟨text.orderings, .inr ⟨text, creates, gapless, rfl⟩, (Option.some.inj has).symm⟩
  · rintro ⟨entries, spelled | ⟨text, creates, gapless, rfl⟩, rfl⟩
    · obtain ⟨item, rest, rfl, select, listed⟩ := ofKind_bind_iff.1 spelled
      have clause : (ColumnOrder.ofList <$> selectionEntries) rest (.ofList entries) :=
        map_iff.2 ⟨entries, listed, rfl⟩
      rw [map_selectionEntries] at clause
      obtain ⟨found, spelled, same⟩ := map_iff.1 clause
      refine ⟨.select found, .inr (.inl (ofKind_bind_iff.2 ⟨item, rest, rfl, select, ?_⟩)),
        congrArg some same.symm⟩
      exact ⟨rest, found, [], (List.append_nil rest).symm, spelled, rfl, rfl⟩
    · exact ⟨.createTable text.definition, .inr (.inr (.inr (tableStatement_iff.2
        ⟨text, creates, gapless, rfl⟩))), rfl⟩

end Language

namespace Parser

variable {parsed : ParsedStatement} {order : ColumnOrder}

/-- However much was wrong with a statement, its ordering is made of lists in its text. -/
theorem exists_entries_of_outcome (parser : Parser) (found : parser.outcome.statement = some parsed)
    (has : parsed.statement.order? = some order) : ∃ entries,
      Language.HoldsOrderings parser.stream.ahead entries ∧ order = .ofList entries := by
  replace found : parser.statement? parser.reply = some parsed := found
  unfold statement? at found
  split at found
  · rename_i statement place result
    obtain rfl := Option.some.inj found
    obtain ⟨taken, entries, ahead, holds, made⟩ := Grammar.orders_query parser.start _ result
    have whole := holds.append (.none (Grammar.query.run parser.start).state.stream.ahead)
    rw [← ahead, List.append_nil] at whole
    exact ⟨entries, whole, made order has⟩
  · exact absurd found (by simp)

/-- The ordering of an accepted statement is made of all that its text says. -/
theorem accepts_ordering_iff (tokens : List Token) (order : ColumnOrder) :
    (∃ parsed, ((ofTokens tokens).outcome.isSuccess = true ∧
      (ofTokens tokens).outcome.statement = some parsed) ∧ parsed.statement.order? = some order) ↔
      ∃ entries, Language.input Language.orderings (Language.sentence tokens) entries ∧
        order = .ofList entries := by
  constructor
  · rintro ⟨parsed, accepted, has⟩
    have spelled := reads_sentence_iff.1 (ofTokens_succeeds_iff.1 ⟨parsed, accepted, rfl⟩)
    obtain ⟨front, middle, rest, units, units', whole, before, spelled, behind⟩ := query_iff.1 spelled
    obtain ⟨entries, listed, same⟩ := Language.orderings_iff.1 ⟨_, spelled, has⟩
    exact ⟨entries, input_iff.2 ⟨front, middle, rest, units, units', whole, before, listed, behind⟩, same⟩
  · rintro ⟨entries, listed, same⟩
    obtain ⟨front, middle, rest, units, units', whole, before, listed, behind⟩ := input_iff.1 listed
    obtain ⟨found, spelled, has⟩ := Language.orderings_iff.2 ⟨entries, listed, same⟩
    obtain ⟨parsed, accepted, rfl⟩ := ofTokens_succeeds_iff.2 (reads_sentence_iff.2 (query_iff.2
      ⟨front, middle, rest, units, units', whole, before, spelled, behind⟩))
    exact ⟨parsed, accepted, has⟩

/-- **Every ordering agrees with the entries that made it**: one that is filled by insertions, one that is
read from an ORDER BY, one of a statement with faults, and one of an accepted statement. -/
theorem describes_orderings :
    (∀ entries : List (Identifier × Direction),
      (entries.foldl (fun order entry => order.insert entry.1 entry.2) ColumnOrder.empty).Describes entries) ∧
    (∀ (state after : State) (order : ColumnOrder) (reports : List Report),
      Grammar.orderClause.run state = ⟨.ok order, after, reports⟩ → reports = [] ∧
        ∃ items entries, state.Passes items after ∧ Language.orderEntries items entries ∧
          order.Describes entries) ∧
    (∀ (parser : Parser) (parsed : ParsedStatement) (order : ColumnOrder),
      parser.outcome.statement = some parsed → parsed.statement.order? = some order →
        ∃ entries, Language.HoldsOrderings parser.stream.ahead entries ∧ order.Describes entries) ∧
    (∀ (tokens : List Token) (parsed : ParsedStatement) (order : ColumnOrder),
      (ofTokens tokens).outcome.isSuccess = true → (ofTokens tokens).outcome.statement = some parsed →
      parsed.statement.order? = some order →
        (∃ entries, Language.input Language.orderings (Language.sentence tokens) entries) ∧
        ∀ entries, Language.input Language.orderings (Language.sentence tokens) entries →
          order.Describes entries) := by
  refine ⟨ColumnOrder.describes_ofList, fun state after order reports run => ?_,
    fun parser parsed order found has => ?_, fun tokens parsed order success found has => ?_⟩
  · obtain ⟨silent, reads⟩ := Grammar.quiet_orderClause.run_eq_iff.1 run
    obtain ⟨items, passes, spelled⟩ := Grammar.recognizes_orderClause.sound _ _ _ reads
    rw [← Language.map_orderEntries] at spelled
    obtain ⟨entries, listed, rfl⟩ := map_iff.1 spelled
    exact ⟨silent, items, entries, passes, listed, ColumnOrder.describes_ofList entries⟩
  · obtain ⟨entries, holds, rfl⟩ := exists_entries_of_outcome parser found has
    exact ⟨entries, holds, ColumnOrder.describes_ofList entries⟩
  · constructor
    · obtain ⟨entries, listed, -⟩ := (accepts_ordering_iff tokens order).1 ⟨parsed, ⟨success, found⟩, has⟩
      exact ⟨entries, listed⟩
    · intro entries listed
      obtain ⟨parsed', ⟨-, found'⟩, has'⟩ :=
        (accepts_ordering_iff tokens (.ofList entries)).2 ⟨entries, listed, rfl⟩
      -- The parser has one outcome, so the text has one ordering.
      obtain rfl : parsed = parsed' := Option.some.inj (found.symm.trans found')
      obtain rfl : order = .ofList entries := Option.some.inj (has.symm.trans has')
      exact ColumnOrder.describes_ofList entries

/-- `SELECT a FROM t ORDER BY b DESC, a, "b" ASC`. -/
def repeatedOrdering : List Token :=
  [.keyword .SELECT, .identifier "a", .keyword .FROM, .identifier "t", .keyword .ORDER, .keyword .BY,
    .identifier "b", .keyword .DESC, .punctuation .comma, .identifier "a", .punctuation .comma,
    .quotedName "b", .keyword .ASC].map fun kind => ⟨⟨kind, kind.render⟩, .point 0⟩

/-- `CREATE TABLE t (a int) WITH CLUSTERING ORDER BY (b DESC, a`, where the list breaks off. -/
def brokenOrdering : List Token :=
  [.keyword .CREATE, .keyword .TABLE, .identifier "t", .punctuation .leftParen, .identifier "a",
    .keyword .INT, .punctuation .rightParen, .keyword .WITH, .keyword .CLUSTERING, .keyword .ORDER,
    .keyword .BY, .punctuation .leftParen, .identifier "b", .keyword .DESC, .punctuation .comma,
    .identifier "a"].map fun kind => ⟨⟨kind, kind.render⟩, .point 0⟩

/-- The first ordering has its columns once, `b` in front and ascending; the second one has `b` alone. -/
theorem describes_repeatedOrdering :
    (∃ parsed order entries, (ofTokens repeatedOrdering).outcome.isSuccess = true ∧
      (ofTokens repeatedOrdering).outcome.statement = some parsed ∧
      parsed.statement.order? = some order ∧
      order.entries = [(.unquoted "b", .ascending), (.unquoted "a", .ascending)] ∧
      Language.input Language.orderings (Language.sentence repeatedOrdering) entries ∧
      order.Describes entries) ∧
    (∃ parsed order entries, (ofTokens brokenOrdering).outcome.statement = some parsed ∧
      parsed.statement.order? = some order ∧ order.entries = [(.unquoted "b", .descending)] ∧
      Language.HoldsOrderings brokenOrdering entries ∧ order.Describes entries) := by
  obtain ⟨-, -, faulty, accepted⟩ := describes_orderings
  constructor
  · obtain ⟨⟨entries, listed⟩, describes⟩ := accepted repeatedOrdering _ _ rfl rfl rfl
    exact ⟨_, _, entries, rfl, rfl, rfl, rfl, listed, describes entries listed⟩
  · obtain ⟨entries, holds, describes⟩ := faulty (ofTokens brokenOrdering) _ _ rfl rfl
    exact ⟨_, _, entries, rfl, rfl, rfl, holds, describes⟩

end Parser

end Cql
