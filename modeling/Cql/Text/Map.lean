/-
Finite maps from texts, in ascending order of their keys.

Texts are compared character by character, which is also the order of their UTF-8 forms.

* `TextMap.insert` — sets a key, replacing the value it had;
* `TextMap.get?_insert` — the one thing that an insertion changes.
-/
namespace Cql

structure TextMap (β : Type) where
  entries : List (String × β)
  deriving DecidableEq, Hashable

namespace TextMap

variable {β : Type}

def empty : TextMap β := ⟨[]⟩

def size (map : TextMap β) : Nat := map.entries.length

def isEmpty (map : TextMap β) : Bool := map.entries.isEmpty

/-- Sets a key in a list of entries with ascending keys. -/
def insertEntry (key : String) (value : β) : List (String × β) → List (String × β)
  | [] => [(key, value)]
  | entry :: rest =>
    if key < entry.1 then (key, value) :: entry :: rest
    else if key = entry.1 then (key, value) :: rest
    else entry :: insertEntry key value rest

def insert (map : TextMap β) (key : String) (value : β) : TextMap β :=
  ⟨insertEntry key value map.entries⟩

/-- The value of a key in a list of entries. -/
def lookup (key : String) : List (String × β) → Option β
  | [] => none
  | entry :: rest => if entry.1 = key then some entry.2 else lookup key rest

def get? (map : TextMap β) (key : String) : Option β := lookup key map.entries

/-- The map of a list of entries, of which a later one replaces an earlier one. -/
def ofList (entries : List (String × β)) : TextMap β :=
  entries.foldl (fun map entry => map.insert entry.1 entry.2) empty

theorem lookup_insertEntry (entries : List (String × β)) (key other : String) (value : β) :
    lookup other (insertEntry key value entries)
      = if key = other then some value else lookup other entries := by
  induction entries with
  | nil => simp [insertEntry, lookup]
  | cons entry rest ih =>
    simp only [insertEntry]
    split
    · simp only [lookup]
    split
    · rename_i same
      rw [same]
      simp only [lookup]
      split <;> rfl
    · rename_i distinct
      by_cases h : entry.1 = other
      · have : key ≠ other := fun same => distinct (same.trans h.symm)
        simp [lookup, h, this]
      · simp [lookup, h, ih]

theorem get?_insert (map : TextMap β) (key other : String) (value : β) :
    (map.insert key value).get? other = if key = other then some value else map.get? other :=
  lookup_insertEntry map.entries key other value

end TextMap

end Cql
