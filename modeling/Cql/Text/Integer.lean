/-
Decimal integers: an optional sign, then one or more ASCII digits, and nothing else.

* `Integer.value?` — the number that a text spells;
* `Integer.bounded?` — the same for two's complement words of a given width, which hold the numbers
  from `-2 ^ (width - 1)` up to but not including `2 ^ (width - 1)`.
-/
namespace Cql.Integer

/-- Value of a run of digits, most significant first. -/
def digits (cs : List Char) : Nat := cs.foldl (fun n c => 10 * n + (c.toNat - '0'.toNat)) 0

/-- A number without sign. -/
def unsigned? (cs : List Char) : Option Nat :=
  if cs ≠ [] ∧ cs.all Char.isDigit then some (digits cs) else none

/-- The number a text spells, if it spells one. -/
def value? (text : String) : Option Int :=
  match text.toList with
  | '-' :: cs => (unsigned? cs).map fun n => -(n : Int)
  | '+' :: cs => (unsigned? cs).map fun n => (n : Int)
  | cs => (unsigned? cs).map fun n => (n : Int)

/-- How many numbers below zero a signed word of `width` bits holds; from zero on it holds as many. -/
def half (width : Nat) : Nat := Nat.pow 2 (width - 1)

/-- The numbers of a signed word. -/
def Fits (width : Nat) (n : Int) : Prop := -(half width : Int) ≤ n ∧ n < (half width : Int)

instance (width : Nat) (n : Int) : Decidable (Fits width n) :=
  inferInstanceAs (Decidable (_ ∧ _))

/-- The number a text spells, if there is one and a signed word of `width` bits holds it. -/
def bounded? (width : Nat) (text : String) : Option Int :=
  (value? text).filter fun n => Fits width n

theorem bounded?_eq_some {width : Nat} {text : String} {n : Int} :
    bounded? width text = some n ↔ value? text = some n ∧ Fits width n := by
  simp [bounded?, Option.filter_eq_some_iff]

end Cql.Integer
