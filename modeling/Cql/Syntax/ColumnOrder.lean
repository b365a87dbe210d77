/-
Orderings of rows by columns.

A column has one direction.  Naming it again changes the direction and leaves it in its place.

* `ColumnOrder.insert` — names a column with a direction;
* `ColumnOrder.get?` — the direction of a column; `ColumnOrder.get?_insert` says what an insertion
  changes.
-/
import Cql.Syntax.Identifier

namespace Cql

inductive Direction
  | ascending
  | descending
  deriving DecidableEq

structure ColumnOrder where
  entries : List (Identifier × Direction)
  deriving BEq

namespace ColumnOrder

def empty : ColumnOrder := ⟨[]⟩

def size (order : ColumnOrder) : Nat := order.entries.length

def isEmpty (order : ColumnOrder) : Bool := order.entries.isEmpty

/-- Sets the direction of a column: in its place if it is there, at the end if not. -/
def insertEntry (column : Identifier) (direction : Direction) :
    List (Identifier × Direction) → List (Identifier × Direction)
  | [] => [(column, direction)]
  | entry :: rest =>
    if entry.1 == column then (entry.1, direction) :: rest
    else entry :: insertEntry column direction rest

def insert (order : ColumnOrder) (column : Identifier) (direction : Direction) : ColumnOrder :=
  ⟨insertEntry column direction order.entries⟩

/-- The direction of a column in a list of entries. -/
def lookup (column : Identifier) : List (Identifier × Direction) → Option Direction
  | [] => none
  | entry :: rest => if entry.1 == column then some entry.2 else lookup column rest

def get? (order : ColumnOrder) (column : Identifier) : Option Direction :=
  lookup column order.entries

/-- The order written as a list. -/
def ofList (entries : List (Identifier × Direction)) : ColumnOrder :=
  entries.foldl (fun order entry => order.insert entry.1 entry.2) empty

theorem lookup_insertEntry (entries : List (Identifier × Direction)) (column other : Identifier)
    (direction : Direction) :
    lookup other (insertEntry column direction entries)
      = if column == other then some direction else lookup other entries := by
  induction entries with
  | nil => simp [insertEntry, lookup]
  | cons entry rest ih =>
    simp only [insertEntry]
    split
    · rename_i same
      have : (entry.1 == other) = (column == other) := by
        rw [Bool.eq_iff_iff, Identifier.beq_iff, Identifier.beq_iff, Identifier.beq_iff.1 same]
      simp only [lookup, this]
      split <;> rfl
    · rename_i distinct
      by_cases h : (column == other) = true
      · have : (entry.1 == other) = false := by
          rw [Bool.eq_false_iff, ne_eq, Identifier.beq_iff, ← Identifier.beq_iff.1 h,
            ← Identifier.beq_iff]
          exact distinct
        simp [lookup, this, ih, h]
      · simp [lookup, ih, h]

theorem get?_insert (order : ColumnOrder) (column other : Identifier) (direction : Direction) :
    (order.insert column direction).get? other
      = if column == other then some direction else order.get? other :=
  lookup_insertEntry order.entries column other direction

end ColumnOrder

end Cql
