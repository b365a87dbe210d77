/-
Values without the numbers of their bind markers.

Bind markers are equal whatever their numbers, at any depth of a value.  So two values are equal if and
only if they are the same once all their markers have one number; and since no number is written, they
are written alike.

* `Value.erase` — a value with one number for all its bind markers;
* `Value.agree_iff` — **equality of values** is sameness without the numbers;
* `Value.render_erase` — the written form does without them.
-/
import Cql.Proofs.Renumbering

namespace Cql

/-! ### Terms -/

namespace Term

/-- The term, with one number for all bind markers. -/
def erase : Term → Term
  | marker _ => marker 0
  | term => term

theorem agree_iff {term other : Term} : Agree term other ↔ term.erase = other.erase := by
  show term.sameAs other = true ↔ _
  cases term <;> cases other <;> simp [sameAs, erase]

theorem render_erase (term : Term) : term.erase.render = term.render := by
  cases term <;> rfl

end Term

namespace Value

/-! ### Values -/

mutual

/-- The value, with one number for all bind markers. -/
def erase : Value → Value
  | term t => .term t.erase
  | list items => .list (eraseItems items)
  | set items => .set (eraseItems items)
  | map entries => .map (eraseEntries entries)
  | emptyBraces => .emptyBraces

def eraseItems : List Value → List Value
  | [] => []
  | item :: items => item.erase :: eraseItems items

def eraseEntries : List (Value × Value) → List (Value × Value)
  | [] => []
  | (key, value) :: entries => (key.erase, value.erase) :: eraseEntries entries

end

mutual

theorem sameAs_iff (value other : Value) : value.sameAs other = true ↔ value.erase = other.erase := by
  cases value with
  | term term => cases other <;> simp [sameAs, erase, Term.agree_iff]
  | list items => cases other <;> simp [sameAs, erase, sameItems_iff items]
  | set items => cases other <;> simp [sameAs, erase, sameItems_iff items]
  | map entries => cases other <;> simp [sameAs, erase, sameEntries_iff entries]
  | emptyBraces => cases other <;> simp [sameAs, erase]

theorem sameItems_iff (items others : List Value) :
    sameItems items others = true ↔ eraseItems items = eraseItems others := by
  cases items with
  | nil => cases others <;> simp [sameItems, eraseItems]
  | cons item items =>
    cases others with
    | nil => simp [sameItems, eraseItems]
    | cons other others => simp [sameItems, eraseItems, sameAs_iff item, sameItems_iff items]

theorem sameEntries_iff (entries others : List (Value × Value)) :
    sameEntries entries others = true ↔ eraseEntries entries = eraseEntries others := by
  cases entries with
  | nil => cases others <;> simp [sameEntries, eraseEntries]
  | cons entry entries =>
    obtain ⟨key, value⟩ := entry
    cases others with
    | nil => simp [sameEntries, eraseEntries]
    | cons other others =>
      simp [sameEntries, eraseEntries, sameAs_iff key, sameAs_iff value, sameEntries_iff entries, and_assoc]

end

mutual

theorem render_erase (value : Value) : value.erase.render = value.render := by
  cases value with
  | term term => exact term.render_erase
  | list items => rw [erase, render, render, renderItems_erase items]
  | set items => rw [erase, render, render, renderItems_erase items]
  | map entries => rw [erase, render, render, renderEntries_erase entries]
  | emptyBraces => rfl

theorem renderItems_erase (items : List Value) : renderItems (eraseItems items) = renderItems items := by
  cases items with
  | nil => rfl
  | cons item items => rw [eraseItems, renderItems, renderItems, render_erase item, renderItems_erase items]

theorem renderEntries_erase (entries : List (Value × Value)) :
    renderEntries (eraseEntries entries) = renderEntries entries := by
  cases entries with
  | nil => rfl
  | cons entry entries =>
    obtain ⟨key, value⟩ := entry
    rw [eraseEntries, renderEntries, renderEntries, render_erase key, render_erase value,
      renderEntries_erase entries]

end

/-- **Equality of values** is sameness without the numbers of bind markers. -/
theorem agree_iff {value other : Value} : Agree value other ↔ value.erase = other.erase :=
  sameAs_iff value other

theorem render_of_agree {value other : Value} (h : Agree value other) : value.render = other.render := by
  rw [← render_erase value, agree_iff.1 h, render_erase]

end Value

end Cql
