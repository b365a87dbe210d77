/-
Changes that an UPDATE makes to a column.

In `column = column + value` and `column = column - value` the syntax of the value picks the
operation: a list, a set or a map literal changes a collection, an integer or a bind marker changes a
counter.

* `Operation` — a change to one column;
* `Operation.delta` — the change written with a plus or a minus sign.
-/
import Cql.Syntax.Value

namespace Cql

inductive Operation
  /-- The assignment `column = value`. -/
  | assign (value : Value)
  /-- The assignment `column = column + amount`. -/
  | counterIncrement (amount : Term)
  /-- The assignment `column = column - amount`. -/
  | counterDecrement (amount : Term)
  /-- The assignment `column = column + [..]`. -/
  | listAppend (items : Value)
  /-- The assignment `column = [..] + column`. -/
  | listPrepend (items : Value)
  /-- The assignment `column = column - [..]`. -/
  | listDiscard (items : Value)
  /-- The assignment `column[index] = value` with an integer index. -/
  | listSetIndex (index value : Value)
  /-- The assignment `column = column + {..}`. -/
  | setAdd (items : Value)
  /-- The assignment `column = column - {..}`. -/
  | setDiscard (items : Value)
  /-- The assignment `column[key] = value`. -/
  | mapPut (key value : Value)
  /-- The assignment `column = column + {key: value, ..}`. -/
  | mapPutAll (entries : Value)
  deriving BEq

/-- The sign of a change. -/
inductive Sign
  | plus
  | minus
  deriving DecidableEq

/-- Why a value cannot be added or subtracted. -/
inductive DeltaFault
  /-- A constant that is not an integer. -/
  | notAnInteger
  /-- A map literal after a minus sign. -/
  | mapSubtracted
  deriving DecidableEq

namespace Operation

def name : Operation → String
  | assign _ => "set"
  | counterIncrement _ => "counter increment"
  | counterDecrement _ => "counter decrement"
  | listAppend _ => "list append"
  | listPrepend _ => "list prepend"
  | listDiscard _ => "list discard"
  | listSetIndex _ _ => "list set index"
  | setAdd _ => "set add"
  | setDiscard _ => "set discard"
  | mapPut _ _ => "map put"
  | mapPutAll _ => "map put all"

def isCounter : Operation → Bool
  | counterIncrement _ | counterDecrement _ => true
  | _ => false

/-- The value of a plain assignment or of a change to a whole collection. -/
def operand? : Operation → Option Value
  | assign value | listAppend value | listPrepend value | listDiscard value | setAdd value
  | setDiscard value | mapPutAll value => some value
  | _ => none

/-- The values of an operation in the order in which they are written. -/
def arguments : Operation → List Value
  | counterIncrement amount | counterDecrement amount => [.term amount]
  | listSetIndex index value => [index, value]
  | mapPut key value => [key, value]
  | assign value | listAppend value | listPrepend value | listDiscard value | setAdd value
  | setDiscard value | mapPutAll value => [value]

/-- The change of `column[key] = value`. -/
def element (key value : Value) : Operation :=
  if key.isInteger then listSetIndex key value else mapPut key value

/-- The change of `column = column + value` or `column = column - value`. -/
def delta : Sign → Value → Except DeltaFault Operation
  | .plus, .term (.integer digits) => .ok (counterIncrement (.integer digits))
  | .plus, .term (.marker ordinal) => .ok (counterIncrement (.marker ordinal))
  | .minus, .term (.integer digits) => .ok (counterDecrement (.integer digits))
  | .minus, .term (.marker ordinal) => .ok (counterDecrement (.marker ordinal))
  | _, .term _ => .error .notAnInteger
  | .plus, .list items => .ok (listAppend (.list items))
  | .minus, .list items => .ok (listDiscard (.list items))
  | .plus, .set items => .ok (setAdd (.set items))
  | .minus, .set items => .ok (setDiscard (.set items))
  | .plus, .emptyBraces => .ok (setAdd .emptyBraces)
  | .minus, .emptyBraces => .ok (setDiscard .emptyBraces)
  | .plus, .map entries => .ok (mapPutAll (.map entries))
  | .minus, .map _ => .error .mapSubtracted

instance : Digest Operation where
  digest
    | assign value => .tag 0 :: Digest.digest value
    | counterIncrement amount => .tag 1 :: Digest.digest amount
    | counterDecrement amount => .tag 2 :: Digest.digest amount
    | listAppend items => .tag 3 :: Digest.digest items
    | listPrepend items => .tag 4 :: Digest.digest items
    | listDiscard items => .tag 5 :: Digest.digest items
    | listSetIndex index value => .tag 6 :: (Digest.digest index ++ Digest.digest value)
    | setAdd items => .tag 7 :: Digest.digest items
    | setDiscard items => .tag 8 :: Digest.digest items
    | mapPut key value => .tag 9 :: (Digest.digest key ++ Digest.digest value)
    | mapPutAll entries => .tag 10 :: Digest.digest entries

instance : Hashable Operation := ⟨Digest.hash⟩

end Operation

end Cql
