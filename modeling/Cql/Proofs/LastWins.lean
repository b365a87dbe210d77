/-
What is said last counts.

Orderings and properties are filled with one entry after another.  An entry replaces what was said of
its name before it; a column stays where it was named first, and properties stand in the order of their
names.

* `get_foldl_insert` — looking up after many insertions finds the last one of the name;
* `ColumnOrder.columns_ofList`, `ColumnOrder.get?_ofList` — the columns of an ordering, and their
  directions;
* `TextMap.keys_ofList`, `TextMap.mem_entries_ofList` — the keys of a map, and their values;
* `TextMap.eq_ofList_iff` — keys and values make the map;
* `Properties.names_ofList`, `Properties.mem_toList_ofList` — the names of properties, and their values;
* `Properties.eq_ofList_iff` — names and values make the properties.
-/
import Mathlib.Data.List.Sort
import Cql.Syntax.ColumnOrder
import Cql.Syntax.Properties

namespace Cql

/-- If an insertion changes what is found only where it hits, then what is found after many is what the
last hit inserted. -/
theorem get_foldl_insert {σ ε β : Type} (get : σ → Option β) (insert : σ → ε → σ) (hits : ε → Bool)
    (value : ε → β)
    (get_insert : ∀ map entry,
      get (insert map entry) = if hits entry = true then some (value entry) else get map)
    (entries : List ε) (map : σ) :
    get (entries.foldl insert map) = ((entries.filter hits).getLast?.map value).or (get map) := by
  induction entries generalizing map with
  | nil => rfl
  | cons entry rest ih =>
    rw [List.foldl_cons, ih, get_insert]
    by_cases hit : hits entry = true
    · -- A later hit overrules this one, and without a later one this is the last.
      rw [if_pos hit, List.filter_cons_of_pos hit, List.getLast?_cons]
      cases (rest.filter hits).getLast? with
      | none => rfl
      | some last => rfl
    · rw [if_neg hit, List.filter_cons_of_neg hit]

/-! ### Orderings -/

namespace ColumnOrder

/-- The columns in the order in which they stand. -/
def columns (order : ColumnOrder) : List Identifier := order.entries.map (·.1)

theorem beq_comm (a b : Identifier) : (a == b) = (b == a) := by
  rw [Bool.eq_iff_iff, Identifier.beq_iff, Identifier.beq_iff]
  exact eq_comm

/-- Spellings of one column have one direction. -/
theorem get?_congr (order : ColumnOrder) {column other : Identifier}
    (same : (column == other) = true) : order.get? column = order.get? other := by
  obtain ⟨entries⟩ := order
  unfold get?
  induction entries with
  | nil => rfl
  | cons entry rest ih =>
    have alike : (entry.1 == column) = (entry.1 == other) := by
      rw [Bool.eq_iff_iff, Identifier.beq_iff, Identifier.beq_iff, Identifier.beq_iff.1 same]
    rw [lookup, lookup, alike, ih]

theorem columns_insert (order : ColumnOrder) (column : Identifier) (direction : Direction) :
    (order.insert column direction).columns =
      if (order.get? column).isSome then order.columns else order.columns ++ [column] := by
  obtain ⟨entries⟩ := order
  unfold insert columns get?
  induction entries with
  | nil => rfl
  | cons entry rest ih =>
    by_cases same : (entry.1 == column) = true
    · simp [insertEntry, lookup, same]
    · simp only [insertEntry, lookup, same, Bool.false_eq_true, if_false, List.map_cons] at ih ⊢
      rw [ih]
      split
      · rfl
      · rfl

/-- Each column stands where it was named first. -/
theorem columns_foldl_insert (entries : List (Identifier × Direction)) (order : ColumnOrder) :
    (entries.foldl (fun order entry => order.insert entry.1 entry.2) order).columns =
      order.columns ++
        ((entries.map (·.1)).filter fun column => (order.get? column).isNone).eraseDups := by
  induction entries generalizing order with
  | nil => simp
  | cons entry rest ih =>
    rw [List.foldl_cons, ih, columns_insert, List.map_cons]
    -- What the rest adds is neither in the order yet nor the column of this entry.
    have later : (fun column => ((order.insert entry.1 entry.2).get? column).isNone) =
        fun column => !(column == entry.1) && (order.get? column).isNone := by
      funext column
      rw [get?_insert, beq_comm column]
      cases (entry.1 == column) with
      | true => rfl
      | false => rfl
    rw [later]
    cases known : order.get? entry.1 with
    | some direction =>
      have absent : (fun column => !(column == entry.1) && (order.get? column).isNone) =
          fun column => (order.get? column).isNone := by
        funext column
        by_cases same : (column == entry.1) = true
        · simp [same, get?_congr order same, known]
        · simp [same]
      rw [absent, List.filter_cons_of_neg (by simp [known])]
      rfl
    | none =>
      rw [List.filter_cons_of_pos (by simp [known]), List.eraseDups_cons, List.filter_filter]
      simp

/-- The columns of a list of entries are those that it names, each where it is named first. -/
theorem columns_ofList (entries : List (Identifier × Direction)) :
    (ofList entries).columns = (entries.map (·.1)).eraseDups := by
  have folded := columns_foldl_insert entries empty
  have whole : (entries.map (·.1)).filter (fun column => (empty.get? column).isNone) =
      entries.map (·.1) := List.filter_eq_self.2 fun _ _ => rfl
  rwa [whole] at folded

/-- The direction of a column is the one that it is given last. -/
theorem get?_ofList (entries : List (Identifier × Direction)) (column : Identifier) :
    (ofList entries).get? column =
      (entries.filter (·.1 == column)).getLast?.map (·.2) := by
  have folded := get_foldl_insert (get? · column) (fun order entry => order.insert entry.1 entry.2)
    (·.1 == column) (·.2) (fun order entry => get?_insert order entry.1 column entry.2) entries empty
  exact folded.trans Option.or_none

end ColumnOrder

/-! ### Properties -/

namespace TextMap

variable {β : Type} {key other : String} {value : β} {entries : List (String × β)}

theorem mem_keys_insertEntry (h : other ∈ (insertEntry key value entries).map (·.1)) :
    other = key ∨ other ∈ entries.map (·.1) := by
  induction entries with
  | nil => exact .inl (by simpa [insertEntry] using h)
  | cons entry rest ih =>
    simp only [insertEntry] at h
    split at h
    · simpa using h
    split at h
    · rename_i same
      rw [List.map_cons, List.mem_cons] at h
      exact h.imp id (List.mem_cons_of_mem _)
    · rw [List.map_cons, List.mem_cons] at h
      rcases h with rfl | h
      · exact .inr (List.mem_cons_self ..)
      · exact (ih h).imp id (List.mem_cons_of_mem _)

/-- Keys that ascend go on ascending. -/
theorem pairwise_insertEntry (ascending : (entries.map (·.1)).Pairwise (· < ·)) :
    ((insertEntry key value entries).map (·.1)).Pairwise (· < ·) := by
  induction entries with
  | nil => simp [insertEntry]
  | cons entry rest ih =>
    obtain ⟨first, others⟩ := List.pairwise_cons.1 ascending
    simp only [insertEntry]
    split
    · rename_i before
      refine List.pairwise_cons.2 ⟨fun other mem => ?_, ascending⟩
      rcases List.mem_cons.1 mem with rfl | mem
      · exact before
      · exact String.lt_trans before (first other mem)
    split
    · rename_i same
      rw [List.map_cons, List.pairwise_cons, same]
      exact ⟨first, others⟩
    · rename_i notBefore different
      have behind : entry.1 < key :=
        Std.lt_of_le_of_ne (String.not_lt.1 notBefore) (Ne.symm different)
      refine List.pairwise_cons.2 ⟨fun other mem => ?_, ih others⟩
      rcases mem_keys_insertEntry mem with rfl | mem
      · exact behind
      · exact first other mem

/-- Where keys ascend, an entry is there if its key is found with its value. -/
theorem mem_iff_lookup (ascending : (entries.map (·.1)).Pairwise (· < ·)) :
    (key, value) ∈ entries ↔ lookup key entries = some value := by
  induction entries with
  | nil => simp [lookup]
  | cons entry rest ih =>
    obtain ⟨first, others⟩ := List.pairwise_cons.1 ascending
    rw [List.mem_cons, ih others, lookup]
    by_cases same : entry.1 = key
    · rw [if_pos same]
      -- No later entry has the key, since their keys are greater.
      have absent : lookup key rest ≠ some value := by
        intro found
        have mem : key ∈ rest.map (·.1) :=
          List.mem_map.2 ⟨(key, value), (ih others).2 found, rfl⟩
        exact String.lt_irrefl key (same ▸ first key mem)
      constructor
      · rintro (rfl | found)
        · rfl
        · exact absurd found absent
      · intro found
        exact .inl (Prod.ext same.symm (Option.some.inj found).symm)
    · rw [if_neg same]
      refine or_iff_right fun this => same ?_
      rw [← this]

/-- Keys ascend, so each is there once. -/
theorem keys_ofList (entries : List (String × β)) :
    ((ofList entries).entries.map (·.1)).Pairwise (· < ·) := by
  have none : ((empty : TextMap β).entries.map (·.1)).Pairwise (· < ·) := .nil
  refine List.foldlRecOn (motive := fun map : TextMap β => (map.entries.map (·.1)).Pairwise (· < ·))
    entries _ none fun map ascending entry _ => ?_
  exact pairwise_insertEntry ascending

/-- The value of a key is the one that it is given last. -/
theorem mem_entries_ofList (entries : List (String × β)) (key : String) (value : β) :
    (key, value) ∈ (ofList entries).entries ↔
      (entries.filter (·.1 = key)).getLast?.map (·.2) = some value := by
  have folded := get_foldl_insert (fun map : TextMap β => map.get? key)
    (fun map entry => map.insert entry.1 entry.2) (fun entry => decide (entry.1 = key)) (·.2)
    (fun map entry => by simp [get?_insert]) entries empty
  have found : lookup key (ofList entries).entries = (entries.filter (·.1 = key)).getLast?.map (·.2) :=
    folded.trans Option.or_none
  rw [mem_iff_lookup (keys_ofList entries), found]

/-- A map is made by a list if its keys ascend and each has the value that the list gives to it last. -/
theorem eq_ofList_iff {map : TextMap β} {entries : List (String × β)} :
    map = ofList entries ↔ (map.entries.map (·.1)).Pairwise (· < ·) ∧
      ∀ key value, (key, value) ∈ map.entries ↔
        (entries.filter (·.1 = key)).getLast?.map (·.2) = some value := by
  constructor
  · rintro rfl
    exact ⟨keys_ofList entries, mem_entries_ofList entries⟩
  · rintro ⟨ascending, valued⟩
    have made := keys_ofList entries
    rw [List.pairwise_map] at ascending made
    have same : map.entries = (ofList entries).entries :=
      List.Pairwise.eq_of_mem_iff (r := InvImage (· < ·) Prod.fst) ascending made fun entry =>
        (valued entry.1 entry.2).trans (mem_entries_ofList entries entry.1 entry.2).symm
    obtain ⟨listed⟩ := map
    exact congrArg mk same

end TextMap

namespace Properties

/-- Properties are a map under their names in lower case. -/
theorem byName_ofList (settings : List (String × PropertyValue)) :
    (ofList settings).byName =
      .ofList (settings.map fun setting => (Lowercase.text setting.1, setting.2)) := by
  unfold ofList TextMap.ofList
  rw [List.foldl_map]
  exact (List.foldl_hom byName fun _ _ => rfl).symm

/-- Names ascend, so each is there once. -/
theorem names_ofList (settings : List (String × PropertyValue)) :
    ((ofList settings).toList.map (·.1)).Pairwise (· < ·) := by
  rw [toList, byName_ofList]
  exact TextMap.keys_ofList _

/-- The value of a name is the one that it is given last, in whatever case it is written. -/
theorem mem_toList_ofList (settings : List (String × PropertyValue)) (name : String)
    (value : PropertyValue) : (name, value) ∈ (ofList settings).toList ↔
      (settings.filter (Lowercase.text ·.1 = name)).getLast?.map (·.2) = some value := by
  rw [toList, byName_ofList, TextMap.mem_entries_ofList, List.filter_map, List.getLast?_map, Option.map_map]
  rfl

/-- Properties are made by a list if their names ascend and each has the value that the list gives to it
last, in whatever case it is written. -/
theorem eq_ofList_iff {properties : Properties} {settings : List (String × PropertyValue)} :
    properties = ofList settings ↔ (properties.toList.map (·.1)).Pairwise (· < ·) ∧
      ∀ name value, (name, value) ∈ properties.toList ↔
        (settings.filter (Lowercase.text ·.1 = name)).getLast?.map (·.2) = some value := by
  constructor
  · rintro rfl
    exact ⟨names_ofList settings, mem_toList_ofList settings⟩
  · rintro ⟨ascending, valued⟩
    obtain ⟨byName⟩ := properties
    refine congrArg mk (Eq.trans (TextMap.eq_ofList_iff.2 ⟨ascending, fun name value => ?_⟩)
      (byName_ofList settings).symm)
    rw [← TextMap.mem_entries_ofList, ← byName_ofList]
    exact (valued name value).trans (mem_toList_ofList settings name value).symm

end Properties

end Cql
