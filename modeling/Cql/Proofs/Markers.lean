/-
The bind markers of a statement.

The ordinals of the markers in a tree are listed in the order in which the grammar has them: lists
from left to right, the key of an entry before its value, the key of an element before the value it
is assigned.  Of the two attributes of a USING clause, which may be written in either order, the one
with the smaller ordinal comes first.

* `Value.markers`, `Statement.markers` — the ordinals in a tree;
* `Ascending` — ordinals that rise from one bound to another.
-/
import Cql.Grammar.Modification
import Cql.Syntax.Statement

namespace Cql

def Term.markers (term : Term) : List Nat := term.ordinal?.toList

theorem Term.markers_of_constant {kind : TokenKind} {term : Term} (h : ofKind? kind = some term) :
    term.markers = [] := by
  unfold ofKind? at h
  split at h <;> cases h <;> rfl

namespace Value

mutual

/-- The ordinals of the bind markers in a value. -/
def markers : Value → List Nat
  | term t => t.markers
  | list items | set items => itemMarkers items
  | map entries => entryMarkers entries
  | emptyBraces => []

def itemMarkers : List Value → List Nat
  | [] => []
  | item :: items => markers item ++ itemMarkers items

def entryMarkers : List (Value × Value) → List Nat
  | [] => []
  | (key, value) :: entries => markers key ++ markers value ++ entryMarkers entries

end

theorem itemMarkers_eq (items : List Value) : itemMarkers items = items.flatMap markers := by
  induction items with
  | nil => rfl
  | cons item items ih => rw [itemMarkers, ih, List.flatMap_cons]

theorem entryMarkers_eq (entries : List (Value × Value)) :
    entryMarkers entries = entries.flatMap fun entry => markers entry.1 ++ markers entry.2 := by
  induction entries with
  | nil => rfl
  | cons entry entries ih => rw [entryMarkers, ih, List.flatMap_cons]

end Value

def Operation.markers (operation : Operation) : List Nat := operation.arguments.flatMap Value.markers

theorem Operation.markers_element (key value : Value) :
    (element key value).markers = key.markers ++ value.markers := by
  unfold element
  split <;> simp [markers, arguments]

/-- The change that a sign makes has the markers of its value. -/
theorem Operation.markers_of_delta {sign : Sign} {operand : Value} {operation : Operation}
    (h : delta sign operand = .ok operation) : operation.markers = operand.markers := by
  unfold delta at h
  split at h <;> cases h <;> simp [markers, arguments]

def TokenOperand.markers : TokenOperand → List Nat
  | call arguments => arguments.flatMap Value.markers
  | value v => v.markers

def Relation.markers : Relation → List Nat
  | compare _ _ value => value.markers
  | isIn _ values => values.flatMap Value.markers
  | token _ _ operand => operand.markers

/-- The ordinals of two terms that may be written in either order. -/
def inOrder : Option Nat → Option Nat → List Nat
  | some first, some second => [min first second, max first second]
  | some first, none => [first]
  | none, second => second.toList

def Attributes.markers (attributes : Attributes) : List Nat :=
  inOrder (attributes.timestamp.bind Term.ordinal?) (attributes.timeToLive.bind Term.ordinal?)

def Insertion.markers (insertion : Insertion) : List Nat :=
  insertion.values.flatMap Value.markers ++ insertion.attributes.markers

def Update.markers (change : Update) : List Nat :=
  change.attributes.markers ++
    (change.operations.flatMap (·.2.markers) ++ change.relations.flatMap Relation.markers)

def DeletionTarget.markers (target : DeletionTarget) : List Nat :=
  target.key.toList.flatMap Value.markers

def Deletion.markers (deletion : Deletion) : List Nat :=
  deletion.targets.flatMap DeletionTarget.markers ++
    (deletion.attributes.markers ++ deletion.relations.flatMap Relation.markers)

def Modification.markers : Modification → List Nat
  | insert insertion => insertion.markers
  | update change => change.markers
  | delete deletion => deletion.markers

def Batch.markers (batch : Batch) : List Nat :=
  batch.attributes.markers ++ batch.modifications.flatMap Modification.markers

def Selection.markers (selection : Selection) : List Nat :=
  selection.relations.flatMap Relation.markers

/-- The ordinals of the bind markers in a statement. -/
def Statement.markers : Statement → List Nat
  | select selection => selection.markers
  | insert insertion => insertion.markers
  | update change => change.markers
  | delete deletion => deletion.markers
  | batch statements => statements.markers
  | _ => []

/-! ### Rising ordinals -/

/-- The ordinals rise, the first is not below `low`, and all are below `high`. -/
def Ascending : Nat → List Nat → Nat → Prop
  | low, [], high => low ≤ high
  | low, ordinal :: rest, high => low ≤ ordinal ∧ Ascending (ordinal + 1) rest high

namespace Ascending

variable {low mid high : Nat} {ordinals others : List Nat}

theorem le (h : Ascending low ordinals high) : low ≤ high := by
  induction ordinals generalizing low with
  | nil => exact h
  | cons ordinal rest ih =>
    have := ih h.2
    have := h.1
    omega

/-- A lower bound may be lowered. -/
theorem lower (h : Ascending mid ordinals high) (less : low ≤ mid) : Ascending low ordinals high := by
  cases ordinals with
  | nil => exact Nat.le_trans less h
  | cons ordinal rest => exact ⟨Nat.le_trans less h.1, h.2⟩

theorem append (first : Ascending low ordinals mid) (second : Ascending mid others high) :
    Ascending low (ordinals ++ others) high := by
  induction ordinals generalizing low with
  | nil => exact second.lower first
  | cons ordinal rest ih => exact ⟨first.1, ih first.2⟩

theorem split (h : Ascending low (ordinals ++ others) high) :
    ∃ mid, Ascending low ordinals mid ∧ Ascending mid others high := by
  induction ordinals generalizing low with
  | nil => exact ⟨low, Nat.le_refl _, h⟩
  | cons ordinal rest ih =>
    obtain ⟨mid, first, second⟩ := ih h.2
    exact ⟨mid, ⟨h.1, first⟩, second⟩

/-- An upper bound may be raised. -/
theorem raise (h : Ascending low ordinals mid) (less : mid ≤ high) : Ascending low ordinals high := by
  have := h.append (show Ascending mid [] high from less)
  rwa [List.append_nil] at this

theorem bounds (h : Ascending low ordinals high) :
    ∀ ordinal ∈ ordinals, low ≤ ordinal ∧ ordinal < high := by
  induction ordinals generalizing low with
  | nil => simp
  | cons ordinal rest ih =>
    rw [List.forall_mem_cons]
    have later := h.2.le
    refine ⟨⟨h.1, by omega⟩, fun other mem => ?_⟩
    have := ih h.2 other mem
    have := h.1
    omega

theorem pairwise (h : Ascending low ordinals high) : ordinals.Pairwise (· < ·) := by
  induction ordinals generalizing low with
  | nil => exact .nil
  | cons ordinal rest ih =>
    refine .cons (fun other mem => ?_) (ih h.2)
    have := h.2.bounds other mem
    omega

/-- A part of rising ordinals rises. -/
theorem sublist (h : Ascending low ordinals high) (part : others.Sublist ordinals) :
    Ascending low others high := by
  induction part generalizing low with
  | slnil => exact h
  | cons ordinal _ ih => exact (ih h.2).lower (by have := h.1; omega)
  | cons_cons ordinal _ ih => exact ⟨h.1, ih h.2⟩

end Ascending

/-! ### The attributes of a USING clause -/

theorem inOrder_comm (first second : Option Nat) : inOrder first second = inOrder second first := by
  cases first with
  | none => cases second <;> rfl
  | some first =>
    cases second with
    | none => rfl
    | some second => simp only [inOrder, Nat.min_comm, Nat.max_comm]

/-- A later term in place of the second one takes its ordinal away and adds its own at the end. -/
theorem inOrder_sublist {low high : Nat} {first second later : Option Nat}
    (h : Ascending low (inOrder first second ++ later.toList) high) :
    (inOrder first later).Sublist (inOrder first second ++ later.toList) := by
  cases first with
  | none => exact List.sublist_append_right ..
  | some first =>
    -- The later term was numbered after the first one, so it stands behind it in either order.
    have below : ∀ ordinal ∈ later, first < ordinal := by
      intro ordinal same
      obtain rfl : later = some ordinal := same
      have := (List.pairwise_append.1 h.pairwise).2.2
      cases second with
      | none => simpa [inOrder] using this
      | some second =>
        simp only [inOrder, Option.toList_some, List.mem_cons, List.not_mem_nil, or_false,
          forall_eq_or_imp, forall_eq] at this
        omega
    have kept : [first].Sublist (inOrder (some first) second) := by
      cases second with
      | none => exact List.Sublist.refl _
      | some second =>
        rcases Nat.le_total first second with less | less
        · simp [inOrder, Nat.min_eq_left less]
        · simp [inOrder, Nat.max_eq_left less]
    cases later with
    | none => simpa [inOrder] using kept
    | some ordinal =>
      have less := below ordinal rfl
      have same : inOrder (some first) (some ordinal) = [first] ++ [ordinal] := by
        simp [inOrder, Nat.min_eq_left (Nat.le_of_lt less), Nat.max_eq_right (Nat.le_of_lt less)]
      rw [same]
      exact kept.append (List.Sublist.refl _)

namespace Attributes

theorem markers_set_sublist {attributes : Attributes} {low high : Nat} {term : Term}
    (objective : TokenKind) (h : Ascending low (attributes.markers ++ term.markers) high) :
    (attributes.set objective term).markers.Sublist (attributes.markers ++ term.markers) := by
  unfold set
  by_cases isTimeToLive : objective = .keyword .TTL
  · rw [if_pos isTimeToLive]
    exact inOrder_sublist h
  · rw [if_neg isTimeToLive]
    unfold markers at h ⊢
    rw [inOrder_comm] at h ⊢
    rw [inOrder_comm (attributes.timestamp.bind _)]
    exact inOrder_sublist h

/-- If the ordinals of objectives rise, so do those of what the objectives come to. -/
theorem ascending_setAll {settings : List (TokenKind × Term)} {attributes : Attributes}
    {low high : Nat}
    (h : Ascending low (attributes.markers ++ settings.flatMap (·.2.markers)) high) :
    Ascending low (attributes.setAll settings).markers high := by
  induction settings generalizing attributes with
  | nil => simpa [setAll] using h
  | cons setting settings ih =>
    rw [List.flatMap_cons, ← List.append_assoc] at h
    refine ih (h.sublist ?_)
    have first := h.sublist (List.sublist_append_left ..)
    exact (markers_set_sublist setting.1 first).append (List.Sublist.refl _)

end Attributes

end Cql
