/-
Properties of keyspaces and tables.

Names of properties are folded to lower case, those in quotes too.  Naming a property again replaces
its value.

* `PropertyValue` — a text, or a map from texts to texts;
* `Properties.insert`, `Properties.get?` — setting and looking up.
-/
import Cql.Text.Lowercase
import Cql.Text.Map

namespace Cql

inductive PropertyValue
  | text (text : String)
  | map (entries : TextMap String)
  deriving DecidableEq

def PropertyValue.text? : PropertyValue → Option String
  | text s => some s
  | map _ => none

def PropertyValue.map? : PropertyValue → Option (TextMap String)
  | text _ => none
  | map entries => some entries

/-- The properties, under their lower-case names. -/
structure Properties where
  byName : TextMap PropertyValue
  deriving DecidableEq

namespace Properties

def empty : Properties := ⟨.empty⟩

def size (properties : Properties) : Nat := properties.byName.size

def isEmpty (properties : Properties) : Bool := properties.byName.isEmpty

def insert (properties : Properties) (name : String) (value : PropertyValue) : Properties :=
  ⟨properties.byName.insert (Lowercase.text name) value⟩

def get? (properties : Properties) (name : String) : Option PropertyValue :=
  properties.byName.get? (Lowercase.text name)

def getText? (properties : Properties) (name : String) : Option String :=
  (properties.get? name).bind PropertyValue.text?

def getMap? (properties : Properties) (name : String) : Option (TextMap String) :=
  (properties.get? name).bind PropertyValue.map?

def contains (properties : Properties) (name : String) : Bool := (properties.get? name).isSome

/-- Names and values in ascending order of the names. -/
def toList (properties : Properties) : List (String × PropertyValue) := properties.byName.entries

/-- The properties of a list of names and values, of which a later one replaces an earlier one. -/
def ofList (entries : List (String × PropertyValue)) : Properties :=
  entries.foldl (fun properties entry => properties.insert entry.1 entry.2) empty

end Properties

end Cql
