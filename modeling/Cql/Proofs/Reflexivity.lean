/-
Every statement equals itself.

The equality of statements ignores the ordinals of bind markers and the quotes of names.  It is put
together from the equalities of parts, each of which holds of a part and itself.

* `Value.sameAs_self` — values, by the recursion of their equality;
* the instances of `ReflBEq`, up to that for `Statement`.
-/
import Cql.Syntax.Statement

namespace Cql

instance : ReflBEq Identifier := ⟨Identifier.beq_iff.2 rfl⟩

instance : ReflBEq Term where
  rfl := by
    intro term
    show term.sameAs term = true
    cases term with
    | marker ordinal => rfl
    | _ => exact beq_self_eq_true _

namespace Value

mutual

theorem sameAs_self (value : Value) : value.sameAs value = true := by
  cases value with
  | term term => exact beq_self_eq_true term
  | list items => exact sameItems_self items
  | set items => exact sameItems_self items
  | map entries => exact sameEntries_self entries
  | emptyBraces => rfl

theorem sameItems_self (items : List Value) : sameItems items items = true := by
  cases items with
  | nil => rfl
  | cons item items => rw [sameItems, sameAs_self item, sameItems_self items, Bool.true_and]

theorem sameEntries_self (entries : List (Value × Value)) : sameEntries entries entries = true := by
  cases entries with
  | nil => rfl
  | cons entry entries =>
    obtain ⟨key, value⟩ := entry
    rw [sameEntries, sameAs_self key, sameAs_self value, sameEntries_self entries, Bool.true_and,
      Bool.true_and]

end

end Value

instance : ReflBEq Value := ⟨Value.sameAs_self _⟩

deriving instance ReflBEq for TableName, ColumnOrder, Attributes, Insertion, Operation, TokenOperand,
  Relation, Update, DeletionTarget, Deletion, Modification, Batch, Selector, Projection, Selection,
  KeyspaceDefinition, TableDefinition, IndexDefinition, TableChange, TableAlteration, Grant, Revocation,
  Statement

end Cql
