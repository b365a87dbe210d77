/-
Well-formed statements.

The types of the syntax allow more than the grammar can produce: an IN without values, a set literal
without elements, a DELETE with a TTL.  What is well-formed is said part by part, from values up to
statements, and what puts statements together keeps it.

* `Value.WellFormed`, `DataType.WithinLevels` — how deep collections may stand inside one another, and
  which of them may be empty;
* `Operation.WellFormed`, `Relation.WellFormed`, `Attributes.WellFormed` — the parts of clauses;
* `Statement.WellFormed` — statements;
* `Operation.wellFormed_of_delta`, `TableDefinition.wellFormed_ofElements` — what is put together of
  well-formed parts.
-/
import Cql.Proofs.LastWins
import Cql.Proofs.Operands

namespace Cql

/-! ### Values and types -/

/-- At most `levels` collections stand inside one another, and no set or map literal is empty; `{}` is
written for either of them. -/
inductive Value.WellFormed : Nat → Value → Prop
  | term {levels : Nat} (term : Term) : WellFormed levels (.term term)
  | emptyBraces {levels : Nat} : WellFormed (levels + 1) .emptyBraces
  | list {levels : Nat} {items : List Value} (within : ∀ item ∈ items, WellFormed levels item) :
      WellFormed (levels + 1) (.list items)
  | set {levels : Nat} {items : List Value} (nonempty : items ≠ [])
      (within : ∀ item ∈ items, WellFormed levels item) : WellFormed (levels + 1) (.set items)
  | map {levels : Nat} {entries : List (Value × Value)} (nonempty : entries ≠ [])
      (keys : ∀ entry ∈ entries, WellFormed levels entry.1)
      (values : ∀ entry ∈ entries, WellFormed levels entry.2) : WellFormed (levels + 1) (.map entries)

/-- At most `levels` collection types stand inside one another. -/
inductive DataType.WithinLevels : Nat → DataType → Prop
  | native {levels : Nat} (type : NativeType) : WithinLevels levels (.native type)
  | custom {levels : Nat} (className : String) : WithinLevels levels (.custom className)
  | list {levels : Nat} {element : DataType} (within : WithinLevels levels element) :
      WithinLevels (levels + 1) (.list element)
  | set {levels : Nat} {element : DataType} (within : WithinLevels levels element) :
      WithinLevels (levels + 1) (.set element)
  | map {levels : Nat} {key value : DataType} (first : WithinLevels levels key)
      (second : WithinLevels levels value) : WithinLevels (levels + 1) (.map key value)

/-! ### Parts of clauses -/

/-- A TTL and a timestamp are integers or bind markers. -/
structure Attributes.WellFormed (attributes : Attributes) : Prop where
  timestamp : ∀ term ∈ attributes.timestamp, term.counts = true
  timeToLive : ∀ term ∈ attributes.timeToLive, term.counts = true

/-- An element whose key is an integer literal is one of a list, and any other is one of a map. -/
def Operation.KeyFits : Operation → Prop
  | .listSetIndex index _ => index.isInteger = true
  | .mapPut key _ => key.isInteger = false
  | _ => True

structure Operation.WellFormed (operation : Operation) : Prop where
  arguments : ∀ value ∈ operation.arguments, value.WellFormed maxNesting
  key : operation.KeyFits

/-- An IN names a value at least, a TOKEN a column at least, and two TOKENs are of one length. -/
inductive Relation.WellFormed : Relation → Prop
  | compare {column : Identifier} {sign : Comparison} {value : Value}
      (within : value.WellFormed maxNesting) : WellFormed (.compare column sign value)
  | isIn {column : Identifier} {values : List Value} (nonempty : values ≠ [])
      (within : ∀ value ∈ values, value.WellFormed maxNesting) : WellFormed (.isIn column values)
  | call {columns : List Identifier} {sign : Comparison} {arguments : List Value}
      (nonempty : columns ≠ []) (arity : arguments.length = columns.length)
      (within : ∀ value ∈ arguments, value.WellFormed maxNesting) :
      WellFormed (.token columns sign (.call arguments))
  | value {columns : List Identifier} {sign : Comparison} {value : Value} (nonempty : columns ≠ [])
      (within : value.WellFormed maxNesting) : WellFormed (.token columns sign (.value value))

/-- No column has two directions. -/
def ColumnOrder.WellFormed (order : ColumnOrder) : Prop :=
  order.columns.Pairwise fun column other => (column == other) = false

/-- No property has two values. -/
def Properties.WellFormed (properties : Properties) : Prop :=
  (properties.toList.map (·.1)).Nodup

/-! ### Statements -/

structure Insertion.WellFormed (insertion : Insertion) : Prop where
  columns : 2 ≤ insertion.columns.length
  values : 2 ≤ insertion.values.length
  within : ∀ value ∈ insertion.values, value.WellFormed maxNesting
  attributes : insertion.attributes.WellFormed

structure Update.WellFormed (change : Update) : Prop where
  nonempty : change.operations ≠ []
  operations : ∀ assignment ∈ change.operations, assignment.2.WellFormed
  relations : ∀ relation ∈ change.relations, relation.WellFormed
  attributes : change.attributes.WellFormed

structure Deletion.WellFormed (deletion : Deletion) : Prop where
  timeToLive : deletion.attributes.timeToLive = none
  keys : ∀ target ∈ deletion.targets, ∀ key ∈ target.key, key.WellFormed maxNesting
  relations : ∀ relation ∈ deletion.relations, relation.WellFormed
  attributes : deletion.attributes.WellFormed

def Modification.WellFormed : Modification → Prop
  | .insert insertion => insertion.WellFormed
  | .update change => change.WellFormed
  | .delete deletion => deletion.WellFormed

structure Batch.WellFormed (group : Batch) : Prop where
  modifications : ∀ modification ∈ group.modifications, modification.WellFormed
  attributes : group.attributes.WellFormed

structure Selection.WellFormed (selection : Selection) : Prop where
  /-- A count has no items, which is already so by the shape of `Projection`. -/
  count : selection.projection.isCount = true → selection.projection.selectors = []
  relations : ∀ relation ∈ selection.relations, relation.WellFormed
  orderings : selection.orderings.WellFormed

/-- Components of the partition key are not empty. -/
structure TableDefinition.WellFormed (definition : TableDefinition) : Prop where
  columns : ∀ column ∈ definition.columns, column.2.WithinLevels maxNesting
  keyComponents : ∀ component ∈ definition.keyComponents, component ≠ []
  properties : definition.properties.WellFormed
  clusteringOrder : definition.clusteringOrder.WellFormed

def TableChange.WellFormed : TableChange → Prop
  | .retype _ type | .add _ type => type.WithinLevels maxNesting
  | .drop _ => True
  | .setProperties properties => properties.WellFormed
  | .rename renames => renames ≠ []

def Statement.WellFormed : Statement → Prop
  | .select selection => selection.WellFormed
  | .insert insertion => insertion.WellFormed
  | .update change => change.WellFormed
  | .delete deletion => deletion.WellFormed
  | .batch group => group.WellFormed
  | .createKeyspace definition | .alterKeyspace definition => definition.properties.WellFormed
  | .createTable definition => definition.WellFormed
  | .alterTable alteration => alteration.change.WellFormed
  | .use _ | .truncate _ | .createIndex _ | .dropKeyspace _ | .dropTable _ | .dropIndex _ | .grant _
  | .revoke _ | .listGrants _ => True

/-! ### What is put together of well-formed parts -/

theorem Attributes.wellFormed_none : Attributes.none.WellFormed := ⟨by simp [none], by simp [none]⟩

theorem Attributes.WellFormed.set {attributes : Attributes} (h : attributes.WellFormed)
    (objective : TokenKind) {term : Term} (counts : term.counts = true) :
    (attributes.set objective term).WellFormed := by
  unfold Attributes.set
  split
  · exact ⟨h.timestamp, by simpa using counts⟩
  · exact ⟨by simpa using counts, h.timeToLive⟩

namespace Operation

variable {key value : Value}

theorem wellFormed_element (first : key.WellFormed maxNesting) (second : value.WellFormed maxNesting) :
    (element key value).WellFormed := by
  unfold element
  split
  · rename_i isIndex
    exact ⟨by simp [arguments, first, second], isIndex⟩
  · rename_i isKey
    exact ⟨by simp [arguments, first, second], by simpa [KeyFits] using isKey⟩

/-- The argument of a change is the value behind the sign. -/
theorem wellFormed_of_delta {sign : Sign} {operation : Operation} (h : value.WellFormed maxNesting)
    (changes : delta sign value = .ok operation) : operation.WellFormed := by
  unfold delta at changes
  split at changes
  all_goals cases changes
  all_goals exact ⟨by simpa [arguments] using h, trivial⟩

theorem wellFormed_counterDecrement (amount : Term) : (counterDecrement amount).WellFormed :=
  ⟨by simpa [arguments] using .term amount, trivial⟩

theorem wellFormed_assign (h : value.WellFormed maxNesting) : (assign value).WellFormed :=
  ⟨by simpa [arguments] using h, trivial⟩

theorem wellFormed_listPrepend (h : value.WellFormed maxNesting) : (listPrepend value).WellFormed :=
  ⟨by simpa [arguments] using h, trivial⟩

end Operation

namespace ColumnOrder

theorem wellFormed_empty : empty.WellFormed := .nil

/-- A column is added only if no spelling of it is there. -/
theorem WellFormed.insert {order : ColumnOrder} (h : order.WellFormed) (column : Identifier)
    (direction : Direction) : (order.insert column direction).WellFormed := by
  have absent : ∀ entries : List (Identifier × Direction), lookup column entries = none →
      ∀ other ∈ entries.map (·.1), (other == column) = false := by
    intro entries unknown other mem
    induction entries with
    | nil => exact absurd mem (by simp)
    | cons entry rest ih =>
      unfold lookup at unknown
      split at unknown
      · exact absurd unknown (by simp)
      · rename_i distinct
        rcases List.mem_cons.1 mem with rfl | mem
        · simpa using distinct
        · exact ih unknown mem
  unfold WellFormed at h ⊢
  rw [columns_insert]
  cases known : order.get? column with
  | some direction => exact h
  | none =>
    refine List.pairwise_append.2 ⟨h, List.pairwise_singleton _ _, fun other mem other' mem' => ?_⟩
    obtain rfl := List.mem_singleton.1 mem'
    exact absent order.entries known other mem

theorem wellFormed_ofList (entries : List (Identifier × Direction)) : (ofList entries).WellFormed := by
  unfold ofList
  refine List.foldlRecOn entries _ wellFormed_empty fun order h entry _ => ?_
  exact h.insert entry.1 entry.2

end ColumnOrder

namespace Properties

/-- Names that ascend are distinct. -/
theorem wellFormed_of_ascending {properties : Properties}
    (ascending : (properties.toList.map (·.1)).Pairwise (· < ·)) : properties.WellFormed := by
  refine List.Pairwise.imp (fun before => ?_) ascending
  rintro rfl
  exact String.lt_irrefl _ before

theorem wellFormed_ofList (settings : List (String × PropertyValue)) : (ofList settings).WellFormed :=
  wellFormed_of_ascending (names_ofList settings)

end Properties

/-- What CREATE TABLE says about its table: a type within the common bound, or a component of the
partition key that is not empty. -/
def TableElement.WellFormed : TableElement → Prop
  | .column _ type => type.WithinLevels maxNesting
  | .keyComponent columns => columns ≠ []
  | .clusteringColumn _ | .property _ _ | .compactStorage | .ordering _ _ => True

namespace TableDefinition

theorem wellFormed_ofElements (table : TableName) {elements : List TableElement}
    (all : ∀ element ∈ elements, element.WellFormed) : (ofElements table elements).WellFormed := by
  -- That names are distinct is kept because they ascend, so that is carried along.
  have step : ∀ (elements : List TableElement) (definition : TableDefinition),
      (∀ element ∈ elements, element.WellFormed) → definition.WellFormed →
      (definition.properties.toList.map (·.1)).Pairwise (· < ·) →
      (elements.foldl add definition).WellFormed := by
    intro elements
    induction elements with
    | nil => exact fun _ _ h _ => h
    | cons element rest ih =>
      intro definition all h ascending
      obtain ⟨first, others⟩ := List.forall_mem_cons.1 all
      rw [List.foldl_cons]
      cases element with
      | column name type =>
        refine ih _ others { h with columns := fun column mem => ?_ } ascending
        rcases List.mem_append.1 mem with mem | mem
        · exact h.columns column mem
        · obtain rfl := List.mem_singleton.1 mem
          exact first
      | keyComponent columns =>
        refine ih _ others { h with keyComponents := fun component mem => ?_ } ascending
        rcases List.mem_append.1 mem with mem | mem
        · exact h.keyComponents component mem
        · obtain rfl := List.mem_singleton.1 mem
          exact first
      | clusteringColumn name => exact ih _ others { h with } ascending
      | property name value =>
        have ascending' : ((definition.properties.insert name value).toList.map (·.1)).Pairwise (· < ·) :=
          TextMap.pairwise_insertEntry ascending
        exact ih _ others { h with properties := Properties.wellFormed_of_ascending ascending' } ascending'
      | compactStorage => exact ih _ others { h with } ascending
      | ordering column direction =>
        exact ih _ others { h with clusteringOrder := h.clusteringOrder.insert column direction } ascending
  exact step elements (bare table) all ⟨by simp [bare], by simp [bare], .nil, .nil⟩ .nil

end TableDefinition

end Cql
