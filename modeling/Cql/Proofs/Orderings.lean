/-
Orderings and the insertions that make them.

An ordering is made by naming columns one after another, some of them more than once and in more than
one spelling.  What each column comes to is told from the entries alone, without the order in which the
insertions take place.

* `ColumnOrder.firstNamed` — where a column is named first among entries;
* `ColumnOrder.Describes` — how an ordering agrees with the entries that were inserted;
* `ColumnOrder.Describes.insert` — one more insertion;
* `ColumnOrder.describes_ofList` — **an ordering agrees with all its insertions**;
* `ColumnOrder.describes_iff` — no other ordering does.
-/
import Mathlib.Data.Finset.Card
import Cql.Proofs.LastWins
import Cql.Proofs.Reflexivity

namespace Cql.ColumnOrder

variable {order : ColumnOrder} {entries : List (Identifier × Direction)} {column other : Identifier}
  {direction : Direction}

/-- Where a column is named first among the entries, in whatever spelling. -/
def firstNamed (entries : List (Identifier × Direction)) (column : Identifier) : Nat :=
  entries.findIdx (·.1 == column)

/-- The ordering agrees with the entries that were inserted, the first of them first. -/
structure Describes (order : ColumnOrder) (entries : List (Identifier × Direction)) : Prop where
  /-- No two of the columns are spellings of one. -/
  distinct : order.columns.Pairwise fun column other => (column == other) = false
  /-- Columns stand in the order in which they are named first. -/
  inOrder : order.columns.Pairwise fun column other =>
    firstNamed entries column < firstNamed entries other
  /-- They are spelled as they are where they are named first. -/
  spelling : ∀ column ∈ order.columns,
    (entries[firstNamed entries column]?).map (·.1) = some column
  /-- No column that is named is missing. -/
  complete : ∀ entry ∈ entries, ∃ column ∈ order.columns, (column == entry.1) = true
  /-- A column has the direction that it is given last, and none if it is not named. -/
  last : ∀ column, order.get? column = (entries.filter (·.1 == column)).getLast?.map (·.2)
  /-- A column is listed with the direction that it has. -/
  listed : ∀ entry ∈ order.entries, order.get? entry.1 = some entry.2
  /-- There are as many columns as names that differ. -/
  size : order.size = (entries.map (·.1.text)).toFinset.card

/-! ### Columns and directions -/

/-- A column has a direction if a spelling of it is among the columns. -/
theorem isSome_get?_iff :
    (order.get? column).isSome = true ↔ ∃ other ∈ order.columns, (other == column) = true := by
  obtain ⟨entries⟩ := order
  unfold get? columns
  induction entries with
  | nil => simp [lookup]
  | cons entry rest ih =>
    rw [lookup, List.map_cons, List.exists_mem_cons_iff]
    by_cases same : (entry.1 == column) = true
    · simp [same]
    · simp [same, ih]

/-- Where no two columns are spellings of one, each is listed with its direction. -/
theorem get?_of_mem (distinct : order.columns.Pairwise fun column other => (column == other) = false)
    {entry : Identifier × Direction} (mem : entry ∈ order.entries) :
    order.get? entry.1 = some entry.2 := by
  obtain ⟨entries⟩ := order
  unfold get?
  unfold columns at distinct
  induction entries with
  | nil => exact absurd mem List.not_mem_nil
  | cons first rest ih =>
    obtain ⟨others, distinct⟩ := List.pairwise_cons.1 distinct
    rw [lookup]
    rcases List.mem_cons.1 mem with rfl | mem
    · rw [if_pos BEq.rfl]
    · rw [if_neg (by simp [others entry.1 (List.mem_map_of_mem mem)])]
      exact ih distinct mem

/-- Where no two columns are spellings of one, there are as many as names that differ. -/
theorem size_eq_card (distinct : order.columns.Pairwise fun column other => (column == other) = false) :
    order.size = (order.columns.map (·.text)).toFinset.card := by
  have texts : (order.columns.map (·.text)).Nodup :=
    List.pairwise_map.2 (distinct.imp fun different same => by simp [Identifier.beq_iff.2 same] at different)
  rw [List.toFinset_card_of_nodup texts, List.length_map, columns, List.length_map, size]

/-! ### Where columns are named -/

/-- Later entries do not change where a column is named first. -/
theorem firstNamed_append (more : List (Identifier × Direction))
    (named : firstNamed entries column < entries.length) :
    firstNamed (entries ++ more) column = firstNamed entries column :=
  ((List.prefix_append entries more).findIdx_eq_of_findIdx_lt_length named)

/-- A column that is named by no entry so far is named first by the next one. -/
theorem firstNamed_append_of_forall (unnamed : ∀ entry ∈ entries, (entry.1 == column) = false) :
    firstNamed (entries ++ [(column, direction)]) column = entries.length := by
  have none : entries.findIdx (·.1 == column) = entries.length := List.findIdx_eq_length.2 unnamed
  rw [firstNamed, List.findIdx_append, none, if_neg (Nat.lt_irrefl _), List.findIdx_cons]
  simp

namespace Describes

/-- The columns are named among the entries. -/
theorem firstNamed_lt (h : order.Describes entries) (mem : column ∈ order.columns) :
    firstNamed entries column < entries.length := by
  obtain ⟨entry, found, -⟩ := Option.map_eq_some_iff.1 (h.spelling column mem)
  exact (List.getElem?_eq_some_iff.1 found).1

theorem empty : ColumnOrder.empty.Describes [] where
  distinct := .nil
  inOrder := .nil
  spelling _ mem := absurd mem List.not_mem_nil
  complete _ mem := absurd mem List.not_mem_nil
  last _ := rfl
  listed _ mem := absurd mem List.not_mem_nil
  size := rfl

end Describes

/-! ### Insertions -/

/-- What is listed after an insertion is what was listed before it, and the column if it was not. -/
theorem mem_columns_insert (mem : other ∈ (order.insert column direction).columns) :
    other ∈ order.columns ∨ other = column ∧ order.get? column = none := by
  rw [columns_insert] at mem
  cases known : order.get? column with
  | some _ => exact .inl (by simpa [known] using mem)
  | none => simpa [known] using mem

theorem mem_columns_insert_of_mem (mem : other ∈ order.columns) :
    other ∈ (order.insert column direction).columns := by
  rw [columns_insert]
  split
  · exact mem
  · exact List.mem_append_left _ mem

namespace Describes

variable (h : order.Describes entries)
include h

/-- A column without a direction is named by no entry. -/
theorem unnamed (unknown : order.get? column = none) :
    ∀ entry ∈ entries, (entry.1 == column) = false := by
  intro entry mem
  obtain ⟨other, mem, same⟩ := h.complete entry mem
  refine Bool.eq_false_iff.2 fun same' => ?_
  have named : (other == column) = true :=
    Identifier.beq_iff.2 ((Identifier.beq_iff.1 same).trans (Identifier.beq_iff.1 same'))
  have known := isSome_get?_iff.2 ⟨other, mem, named⟩
  simp [unknown] at known

/-- A column that is listed after an insertion is named first where it was, or by the insertion. -/
theorem firstNamed_insert (mem : other ∈ (order.insert column direction).columns) :
    other ∈ order.columns ∧
        firstNamed (entries ++ [(column, direction)]) other = firstNamed entries other ∨
      other = column ∧ firstNamed (entries ++ [(column, direction)]) other = entries.length := by
  rcases mem_columns_insert mem with listed | ⟨rfl, unknown⟩
  · exact .inl ⟨listed, firstNamed_append _ (h.firstNamed_lt listed)⟩
  · exact .inr ⟨rfl, firstNamed_append_of_forall (h.unnamed unknown)⟩

theorem distinct_insert : (order.insert column direction).columns.Pairwise
    fun column other => (column == other) = false := by
  rw [columns_insert]
  split
  · exact h.distinct
  · rename_i unknown
    refine List.pairwise_append.2 ⟨h.distinct, List.pairwise_singleton _ _, fun other mem _ mem' => ?_⟩
    obtain rfl := List.mem_singleton.1 mem'
    exact Bool.eq_false_iff.2 fun same => unknown (isSome_get?_iff.2 ⟨other, mem, same⟩)

theorem inOrder_insert : (order.insert column direction).columns.Pairwise fun first second =>
    firstNamed (entries ++ [(column, direction)]) first <
      firstNamed (entries ++ [(column, direction)]) second := by
  -- The columns that were there are named first where they were.
  have kept : order.columns.Pairwise fun first second =>
      firstNamed (entries ++ [(column, direction)]) first <
        firstNamed (entries ++ [(column, direction)]) second := by
    refine h.inOrder.imp_of_mem fun {first second} mem mem' before => ?_
    rwa [firstNamed_append _ (h.firstNamed_lt mem), firstNamed_append _ (h.firstNamed_lt mem')]
  rw [columns_insert]
  split
  · exact kept
  · rename_i unknown
    refine List.pairwise_append.2 ⟨kept, List.pairwise_singleton _ _, fun first mem _ mem' => ?_⟩
    obtain rfl := List.mem_singleton.1 mem'
    rw [firstNamed_append _ (h.firstNamed_lt mem),
      firstNamed_append_of_forall (h.unnamed (by simpa using unknown))]
    exact h.firstNamed_lt mem

theorem complete_insert : ∀ entry ∈ entries ++ [(column, direction)],
    ∃ other ∈ (order.insert column direction).columns, (other == entry.1) = true := by
  intro entry mem
  rcases List.mem_append.1 mem with mem | mem
  · obtain ⟨other, listed, same⟩ := h.complete entry mem
    exact ⟨other, mem_columns_insert_of_mem listed, same⟩
  · obtain rfl := List.mem_singleton.1 mem
    refine isSome_get?_iff.1 ?_
    simp [get?_insert]

theorem spelling_insert : ∀ other ∈ (order.insert column direction).columns,
    ((entries ++ [(column, direction)])[firstNamed (entries ++ [(column, direction)]) other]?).map (·.1) =
      some other := by
  intro other mem
  rcases h.firstNamed_insert mem with ⟨listed, same⟩ | ⟨rfl, same⟩
  · rw [same, List.getElem?_append_left (h.firstNamed_lt listed)]
    exact h.spelling other listed
  · rw [same, List.getElem?_append_right le_rfl]
    simp

theorem last_insert (other : Identifier) : (order.insert column direction).get? other =
    ((entries ++ [(column, direction)]).filter (·.1 == other)).getLast?.map (·.2) := by
  rw [get?_insert, List.filter_append]
  by_cases same : (column == other) = true
  · simp [same]
  · simp [same, h.last other]

/-- One more insertion keeps the agreement. -/
theorem insert (column : Identifier) (direction : Direction) :
    (order.insert column direction).Describes (entries ++ [(column, direction)]) where
  distinct := h.distinct_insert
  inOrder := h.inOrder_insert
  spelling := h.spelling_insert
  complete := h.complete_insert
  last := h.last_insert
  listed _ mem := get?_of_mem h.distinct_insert mem
  size := by
    rw [size_eq_card h.distinct_insert]
    congr 1
    -- The columns and the entries have the same names.
    ext text
    simp only [List.mem_toFinset, List.mem_map]
    constructor
    · rintro ⟨other, mem, rfl⟩
      obtain ⟨entry, found, rfl⟩ := Option.map_eq_some_iff.1 (h.spelling_insert other mem)
      exact ⟨entry, List.mem_of_getElem? found, rfl⟩
    · rintro ⟨entry, mem, rfl⟩
      obtain ⟨other, listed, same⟩ := h.complete_insert entry mem
      exact ⟨other, listed, Identifier.beq_iff.1 same⟩

end Describes

/-- **An ordering agrees with the insertions that made it**, however many there are and however often a
column is named. -/
theorem describes_ofList (entries : List (Identifier × Direction)) : (ofList entries).Describes entries := by
  -- The last insertion is made in the ordering of those in front of it.
  induction entries using List.reverseRecOn with
  | nil => exact .empty
  | append_singleton entries entry ih =>
    have one : ofList (entries ++ [entry]) = (ofList entries).insert entry.1 entry.2 := by
      rw [ofList, List.foldl_append]
      rfl
    rw [one]
    exact ih.insert entry.1 entry.2

/-- Where a column is named first depends on its name alone. -/
theorem firstNamed_congr (same : (column == other) = true) :
    firstNamed entries column = firstNamed entries other := by
  have alike : (fun entry : Identifier × Direction => entry.1 == column) = fun entry => entry.1 == other := by
    funext entry
    rw [Bool.eq_iff_iff, Identifier.beq_iff, Identifier.beq_iff, Identifier.beq_iff.1 same]
  rw [firstNamed, firstNamed, alike]

/-- Orderings that agree with the same entries have the same columns. -/
theorem Describes.mem_columns {order' : ColumnOrder} (h : order.Describes entries)
    (h' : order'.Describes entries) (mem : column ∈ order.columns) : column ∈ order'.columns := by
  obtain ⟨entry, found, rfl⟩ := Option.map_eq_some_iff.1 (h.spelling column mem)
  obtain ⟨other, mem', same⟩ := h'.complete entry (List.mem_of_getElem? found)
  -- Both are spelled as the entry that names them first.
  have spelled : some entry.1 = some other := by
    have named := h'.spelling other mem'
    rwa [firstNamed_congr same, found] at named
  rwa [Option.some.inj spelled]

/-- **The agreement leaves nothing open**: it decides which columns there are, how they are spelled, where
they stand and which direction each has. -/
theorem describes_iff : order.Describes entries ↔ order = ofList entries := by
  constructor
  · intro h
    have made := describes_ofList entries
    have columns : order.columns = (ofList entries).columns :=
      List.Pairwise.eq_of_mem_iff (r := InvImage (· < ·) (firstNamed entries)) h.inOrder made.inOrder
        fun column => ⟨h.mem_columns made, made.mem_columns h⟩
    have listed : ∀ {order' : ColumnOrder}, order'.Describes entries → order'.entries =
        order'.columns.map fun column => (column, ((ofList entries).get? column).getD .ascending) := by
      intro order' h'
      rw [ColumnOrder.columns, List.map_map]
      refine (List.map_id _).symm.trans (List.map_congr_left fun entry mem => ?_)
      have known := h'.listed entry mem
      rw [h'.last, ← made.last] at known
      simp [known]
    obtain ⟨entries'⟩ := order
    refine congrArg mk ((listed h).trans ?_)
    rw [columns]
    exact (listed made).symm
  · rintro rfl
    exact describes_ofList entries

example : (ofList [(.unquoted "a", .ascending), (.unquoted "b", .descending),
    (.quoted "a", .descending)]).entries.map (fun entry => (entry.1.isQuoted, entry.2)) =
      [(false, .descending), (false, .descending)] := by decide

end Cql.ColumnOrder
