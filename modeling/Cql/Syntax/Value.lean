/-
Values: constants, bind markers and collection literals.

Numbers, UUIDs and hexadecimal constants keep the text they were written with.  A bind marker carries
the ordinal it was given, but all bind markers are equal, at any depth of a value.

* `Term` — a constant or a bind marker;
* `Value` — a term or a collection of values;
* `Value.resolve` — what `{}` stands for once the type of its column is known;
* `Value.sameAs` — the equality, written `==`;
* `Value.render` — the written form.
-/
import Cql.Syntax.Digest
import Cql.Text.Integer
import Cql.Text.Quoted

namespace Cql

inductive Term
  | string (text : String)
  | integer (digits : String)
  | float (digits : String)
  | boolean (value : Bool)
  | uuid (digits : String)
  | hex (digits : String)
  | marker (ordinal : Nat)

namespace Term

def isMarker : Term → Bool
  | marker _ => true
  | _ => false

def ordinal? : Term → Option Nat
  | marker ordinal => some ordinal
  | _ => none

/-- Text of a constant, without the quotes of a string. -/
def rawText? : Term → Option String
  | string text => some text
  | integer digits | float digits | uuid digits | hex digits => some digits
  | boolean true => some "true"
  | boolean false => some "false"
  | marker _ => none

/-- Value of an integer, if a word of 64 bits holds it. -/
def int64? : Term → Option Int
  | integer digits => Integer.bounded? 64 digits
  | _ => none

def kindName : Term → String
  | string _ => "string"
  | integer _ => "integer"
  | float _ => "float"
  | boolean _ => "boolean"
  | uuid _ => "uuid"
  | hex _ => "blob"
  | marker _ => "bind marker"

/-- Equality of terms.  Bind markers are equal whatever their ordinals. -/
def sameAs : Term → Term → Bool
  | string a, string b => a == b
  | integer a, integer b => a == b
  | float a, float b => a == b
  | boolean a, boolean b => a == b
  | uuid a, uuid b => a == b
  | hex a, hex b => a == b
  | marker _, marker _ => true
  | _, _ => false

instance : BEq Term := ⟨sameAs⟩

/-- The number of the constructor. -/
def tag : Term → Nat
  | string _ => 0
  | integer _ => 1
  | float _ => 2
  | boolean _ => 3
  | uuid _ => 4
  | hex _ => 5
  | marker _ => 6

/-- The ordinal of a bind marker is left out. -/
instance : Digest Term where
  digest term := .tag term.tag ::
    match term with
    | marker _ => []
    | boolean value => Digest.digest value
    | other => Digest.digest other.rawText?

instance : Hashable Term := ⟨Digest.hash⟩

def render : Term → String
  | string text => Quoted.render '\'' text
  | marker _ => "?"
  | term => term.rawText?.getD ""

end Term

inductive CollectionKind
  | list
  | set
  | map
  deriving DecidableEq

def CollectionKind.name : CollectionKind → String
  | list => "list"
  | set => "set"
  | map => "map"

/-- Whatever can stand where a term is expected.  `emptyBraces` is `{}`, which is an empty set or an
empty map; only the type of its column can tell. -/
inductive Value
  | term (term : Term)
  | list (items : List Value)
  | set (items : List Value)
  | map (entries : List (Value × Value))
  | emptyBraces

namespace Value

def term? : Value → Option Term
  | term t => some t
  | _ => none

def isMarker (value : Value) : Bool := value.term?.any Term.isMarker

/-- Is the value an integer constant? -/
def isInteger : Value → Bool
  | term (.integer _) => true
  | _ => false

theorem isInteger_iff {value : Value} : value.isInteger = true ↔ ∃ digits, value = term (.integer digits) := by
  unfold isInteger
  split <;> simp_all

/-- Text of a constant. -/
def constantText? (value : Value) : Option String := value.term?.bind Term.rawText?

/-- The kind of a collection as far as its syntax tells: `{}` reads as a set. -/
def collectionKind? : Value → Option CollectionKind
  | term _ => none
  | list _ => some .list
  | set _ | emptyBraces => some .set
  | map _ => some .map

/-- Number of elements, or of entries; a term has none. -/
def size : Value → Nat
  | term _ | emptyBraces => 0
  | list items | set items => items.length
  | map entries => entries.length

def isEmptyBraces : Value → Bool
  | emptyBraces => true
  | _ => false

/-- Reads `{}` as the column of the given kind wants it, and leaves every other value alone. -/
def resolve : Value → CollectionKind → Value
  | emptyBraces, .map => map []
  | emptyBraces, .set => set []
  | value, _ => value

mutual

/-- Equality of values. -/
def sameAs : Value → Value → Bool
  | term a, term b => a == b
  | list as, list bs => sameItems as bs
  | set as, set bs => sameItems as bs
  | map as, map bs => sameEntries as bs
  | emptyBraces, emptyBraces => true
  | _, _ => false

def sameItems : List Value → List Value → Bool
  | [], [] => true
  | a :: as, b :: bs => sameAs a b && sameItems as bs
  | _, _ => false

def sameEntries : List (Value × Value) → List (Value × Value) → Bool
  | [], [] => true
  | (k, a) :: as, (l, b) :: bs => sameAs k l && sameAs a b && sameEntries as bs
  | _, _ => false

end

instance : BEq Value := ⟨sameAs⟩

mutual

/-- A collection is first told from a term, and then by its kind. -/
def stamps : Value → List Stamp
  | term t => .tag 0 :: Digest.digest t
  | list items => .tag 1 :: .tag 0 :: .size items.length :: itemStamps items
  | set items => .tag 1 :: .tag 1 :: .size items.length :: itemStamps items
  | map entries => .tag 1 :: .tag 2 :: .size entries.length :: entryStamps entries
  | emptyBraces => [.tag 1, .tag 3]

def itemStamps : List Value → List Stamp
  | [] => []
  | item :: items => stamps item ++ itemStamps items

def entryStamps : List (Value × Value) → List Stamp
  | [] => []
  | (key, value) :: entries => stamps key ++ stamps value ++ entryStamps entries

end

instance : Digest Value := ⟨stamps⟩

instance : Hashable Value := ⟨Digest.hash⟩

mutual

/-- The written form of a value. -/
def render : Value → String
  | term t => t.render
  | list items => "[" ++ ", ".intercalate (renderItems items) ++ "]"
  | set items => "\x7b" ++ ", ".intercalate (renderItems items) ++ "\x7d"
  | map entries => "\x7b" ++ ", ".intercalate (renderEntries entries) ++ "\x7d"
  | emptyBraces => "\x7b\x7d"

def renderItems : List Value → List String
  | [] => []
  | item :: items => render item :: renderItems items

def renderEntries : List (Value × Value) → List String
  | [] => []
  | (key, value) :: entries => (render key ++ ": " ++ render value) :: renderEntries entries

end

end Value

end Cql
