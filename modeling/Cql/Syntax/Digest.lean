/-
What a hash is taken of.

A digest is what a value writes to a hasher, one write after another: numbers of constructors, sizes,
flags and texts, as far as equality looks at them.  Values that are equal have the same digest, so that
hashing the digest agrees with `==`, whatever the hasher makes of it.

* `Stamp` — one write;
* `Digest` — the types with a digest.
-/
namespace Cql

inductive Stamp
  /-- The number of a constructor, from zero on. -/
  | tag (constructor : Nat)
  /-- The number of items of a list, which is written in front of them. -/
  | size (count : Nat)
  | flag (value : Bool)
  | text (text : String)
  deriving DecidableEq, Hashable

class Digest (α : Type) where
  digest : α → List Stamp

namespace Digest

variable {α β : Type} [Digest α] [Digest β]

/-- The hash of a digest. -/
def hash (a : α) : UInt64 := Hashable.hash (digest a)

instance : Digest String where
  digest text := [.text text]

instance : Digest Bool where
  digest value := [.flag value]

instance : Digest (Option α) where
  digest
    | none => [.tag 0]
    | some a => .tag 1 :: digest a

instance : Digest (List α) where
  digest items := .size items.length :: items.flatMap digest

end Digest

end Cql
