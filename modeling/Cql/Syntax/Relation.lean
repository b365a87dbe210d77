/-
What a query selects and by which conditions.

* `Relation` — one condition of a WHERE clause; a clause is the conjunction of its relations;
* `Selector`, `Projection` — what a SELECT returns.
-/
import Cql.Syntax.Identifier
import Cql.Syntax.Value
import Cql.Token.Basic

namespace Cql

inductive Comparison
  | equal | less | lessEqual | greater | greaterEqual
  deriving DecidableEq

namespace Comparison

def mark : Comparison → Punctuation
  | equal => .equal
  | less => .less
  | lessEqual => .lessEqual
  | greater => .greater
  | greaterEqual => .greaterEqual

def render (comparison : Comparison) : String := comparison.mark.spelling

/-- The comparison that a mark stands for. -/
def ofMark? : Punctuation → Option Comparison
  | .equal => some equal
  | .less => some less
  | .lessEqual => some lessEqual
  | .greater => some greater
  | .greaterEqual => some greaterEqual
  | _ => none

theorem ofMark?_eq_some {mark : Punctuation} {comparison : Comparison} :
    ofMark? mark = some comparison ↔ mark = comparison.mark := by
  cases mark <;> cases comparison <;> decide

/-- The number of the comparison. -/
def tag : Comparison → Nat
  | equal => 0
  | less => 1
  | lessEqual => 2
  | greater => 3
  | greaterEqual => 4

instance : Digest Comparison where
  digest comparison := [.tag comparison.tag]

end Comparison

/-- The right-hand side of a relation on a token. -/
inductive TokenOperand
  /-- The token of a row, `TOKEN(value, ..)`. -/
  | call (arguments : List Value)
  /-- A value that stands for a token. -/
  | value (value : Value)
  deriving BEq

instance : Digest TokenOperand where
  digest
    | .call arguments => .tag 0 :: Digest.digest arguments
    | .value value => .tag 1 :: Digest.digest value

inductive Relation
  /-- The relation `column <comparison> value`. -/
  | compare (column : Identifier) (comparison : Comparison) (value : Value)
  /-- The relation `column IN (value, ..)`. -/
  | isIn (column : Identifier) (values : List Value)
  /-- The relation `TOKEN(column, ..) <comparison> operand`. -/
  | token (columns : List Identifier) (comparison : Comparison) (operand : TokenOperand)
  deriving BEq

namespace Relation

/-- The columns that a relation restricts. -/
def columns : Relation → List Identifier
  | compare column _ _ | isIn column _ => [column]
  | token columns _ _ => columns

def isToken : Relation → Bool
  | token _ _ _ => true
  | _ => false

instance : Digest Relation where
  digest
    | compare column comparison value =>
      .tag 0 :: (Digest.digest column ++ Digest.digest comparison ++ Digest.digest value)
    | isIn column values => .tag 2 :: (Digest.digest column ++ Digest.digest values)
    | token columns comparison operand =>
      .tag 1 :: (Digest.digest columns ++ Digest.digest comparison ++ Digest.digest operand)

end Relation

/-- One item of a SELECT list. -/
inductive Selector
  | column (column : Identifier)
  | writeTime (column : Identifier)
  | ttl (column : Identifier)
  deriving BEq

namespace Selector

/-- The column that a selector reads. -/
def target : Selector → Identifier
  | column name | writeTime name | ttl name => name

def render : Selector → String
  | column name => name.render
  | writeTime name => "WRITETIME(" ++ name.render ++ ")"
  | ttl name => "TTL(" ++ name.render ++ ")"

instance : Digest Selector where
  digest
    | column name => .tag 0 :: Digest.digest name
    | writeTime name => .tag 1 :: Digest.digest name
    | ttl name => .tag 2 :: Digest.digest name

end Selector

/-- What a SELECT returns.  A list of items and the mark of a count are one type here, so that a count
with items cannot be written down at all. -/
inductive Projection
  /-- All columns, `*`. -/
  | everything
  /-- The number of rows, `COUNT(*)`. -/
  | count
  | items (selectors : List Selector)
  deriving BEq

namespace Projection

/-- The items of a SELECT list; `*` and a count have none. -/
def selectors : Projection → List Selector
  | items selectors => selectors
  | _ => []

def isCount : Projection → Bool
  | count => true
  | _ => false

/-- Are all columns returned? -/
def isWildcard (projection : Projection) : Bool :=
  projection.selectors.isEmpty && !projection.isCount

end Projection

end Cql
