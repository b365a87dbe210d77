/-
Equality and hashing agree.

Two nodes of the syntax are equal if they are the same but for the ordinals of bind markers and the
quotes of names, at any depth.  What a node writes to a hasher has neither of them in it, so equal nodes
write the same; and whatever the hasher makes of it, a hash set keeps one node of each kind.

* `Identifier.erase`, `Operation.erase`, `Relation.erase` and so on — a node without ordinals and quotes;
* `OneOfEach` — a list of nodes that has one of each kind of some others;
* `Digest.oneOfEach_kept` — what a hash set keeps, from what one insertion does;
* `HashesAs` — how equality, digests and hash sets agree with the erased nodes;
* `hashesAs_syntax` — **they agree** for all nodes that are compared and hashed.
-/
import Mathlib.Data.List.Induction
import Std.Data.HashSet.Lemmas
import Cql.Proofs.Erasure

namespace Cql

/-! ### Nodes without ordinals and quotes -/

/-- The name, as if it had been written without quotes. -/
def Identifier.erase (name : Identifier) : Identifier := ⟨name.text, false⟩

def TableName.erase (name : TableName) : TableName := ⟨name.keyspace.map (·.erase), name.table.erase⟩

def Operation.erase : Operation → Operation
  | .assign value => .assign value.erase
  | .counterIncrement amount => .counterIncrement amount.erase
  | .counterDecrement amount => .counterDecrement amount.erase
  | .listAppend items => .listAppend items.erase
  | .listPrepend items => .listPrepend items.erase
  | .listDiscard items => .listDiscard items.erase
  | .listSetIndex index value => .listSetIndex index.erase value.erase
  | .setAdd items => .setAdd items.erase
  | .setDiscard items => .setDiscard items.erase
  | .mapPut key value => .mapPut key.erase value.erase
  | .mapPutAll entries => .mapPutAll entries.erase

def TokenOperand.erase : TokenOperand → TokenOperand
  | .call arguments => .call (arguments.map Value.erase)
  | .value operand => .value operand.erase

def Relation.erase : Relation → Relation
  | .compare column comparison value => .compare column.erase comparison value.erase
  | .isIn column values => .isIn column.erase (values.map Value.erase)
  | .token columns comparison operand =>
    .token (columns.map Identifier.erase) comparison operand.erase

def Selector.erase : Selector → Selector
  | .column name => .column name.erase
  | .writeTime name => .writeTime name.erase
  | .ttl name => .ttl name.erase

/-! ### Equality -/

/-- Lists are equal if they are the same once their items are erased. -/
theorem beq_iff_map_erase {α : Type} [BEq α] {erase : α → α}
    (item : ∀ a b : α, (a == b) = true ↔ erase a = erase b) (as bs : List α) :
    (as == bs) = true ↔ as.map erase = bs.map erase := by
  induction as generalizing bs with
  | nil => cases bs <;> simp
  | cons a as ih =>
    cases bs with
    | nil => simp
    | cons b bs => rw [List.cons_beq_cons, Bool.and_eq_true, item, ih, List.map_cons, List.map_cons,
        List.cons.injEq]

theorem Identifier.beq_iff_erase (name other : Identifier) :
    (name == other) = true ↔ name.erase = other.erase := by
  simp [beq_iff, erase]

theorem TableName.beq_iff_erase (name other : TableName) :
    (name == other) = true ↔ name.erase = other.erase := by
  obtain ⟨keyspace, table⟩ := name
  obtain ⟨keyspace', table'⟩ := other
  show (keyspace == keyspace' && table == table') = true ↔ _
  cases keyspace <;> cases keyspace' <;> simp [erase, Identifier.beq_iff_erase]

theorem Operation.beq_iff_erase (operation other : Operation) :
    (operation == other) = true ↔ operation.erase = other.erase := by
  have pair (key value key' value' : Value) : (key == key' && value == value') = true ↔
      key.erase = key'.erase ∧ value.erase = value'.erase :=
    Bool.and_eq_true_iff.trans (and_congr Value.agree_iff Value.agree_iff)
  -- Two constructors have one or two arguments to compare, or they differ.
  cases operation <;> cases other <;> first
    | exact Value.agree_iff.trans (by simp [erase])
    | exact Term.agree_iff.trans (by simp [erase])
    | exact (pair ..).trans (by simp [erase])
    | exact iff_of_false nofun nofun

theorem TokenOperand.beq_iff_erase (operand other : TokenOperand) :
    (operand == other) = true ↔ operand.erase = other.erase := by
  cases operand <;> cases other <;> first
    | exact Value.agree_iff.trans (by simp [erase])
    | exact (beq_iff_map_erase (fun _ _ => Value.agree_iff) ..).trans (by simp [erase])
    | exact iff_of_false nofun nofun

theorem Relation.beq_iff_erase (relation other : Relation) :
    (relation == other) = true ↔ relation.erase = other.erase := by
  cases relation with
  | compare column comparison value =>
    cases other with
    | compare column' comparison' value' =>
      show (column == column' && (comparison == comparison' && value == value')) = true ↔ _
      rw [Bool.and_eq_true, Bool.and_eq_true, Identifier.beq_iff_erase, beq_iff_eq,
        show (value == value') = true ↔ _ from Value.agree_iff]
      simp [erase]
    | _ => exact iff_of_false nofun nofun
  | isIn column values =>
    cases other with
    | isIn column' values' =>
      show (column == column' && values == values') = true ↔ _
      rw [Bool.and_eq_true, Identifier.beq_iff_erase,
        beq_iff_map_erase fun _ _ => Value.agree_iff]
      simp [erase]
    | _ => exact iff_of_false nofun nofun
  | token columns comparison operand =>
    cases other with
    | token columns' comparison' operand' =>
      show (columns == columns' && (comparison == comparison' && operand == operand')) = true ↔ _
      rw [Bool.and_eq_true, Bool.and_eq_true, beq_iff_map_erase Identifier.beq_iff_erase, beq_iff_eq,
        TokenOperand.beq_iff_erase]
      simp [erase]
    | _ => exact iff_of_false nofun nofun

theorem Selector.beq_iff_erase (selector other : Selector) :
    (selector == other) = true ↔ selector.erase = other.erase := by
  cases selector <;> cases other <;> first
    | exact (Identifier.beq_iff_erase ..).trans (by simp [erase])
    | exact iff_of_false nofun nofun

/-! ### Digests -/

open Digest

theorem digest_map_erase {α : Type} [Digest α] {erase : α → α}
    (item : ∀ a, digest (erase a) = digest a) (as : List α) :
    digest (as.map erase) = digest as := by
  show Stamp.size (as.map erase).length :: (as.map erase).flatMap digest = .size as.length :: as.flatMap digest
  rw [List.length_map, List.flatMap_map]
  simp only [item]

/-- A name is written without its quotes. -/
theorem Identifier.digest_erase (name : Identifier) : digest name.erase = digest name := rfl

theorem TableName.digest_erase (name : TableName) : digest name.erase = digest name := by
  obtain ⟨keyspace, table⟩ := name
  cases keyspace <;> rfl

/-- A bind marker is written without its ordinal. -/
theorem Term.digest_erase (term : Term) : digest term.erase = digest term := by
  cases term <;> rfl

namespace Value

theorem length_eraseItems (items : List Value) : (eraseItems items).length = items.length := by
  induction items with
  | nil => rfl
  | cons item items ih => rw [eraseItems, List.length_cons, ih, List.length_cons]

theorem length_eraseEntries (entries : List (Value × Value)) :
    (eraseEntries entries).length = entries.length := by
  induction entries with
  | nil => rfl
  | cons entry entries ih => rw [eraseEntries, List.length_cons, ih, List.length_cons]

mutual

theorem stamps_erase (value : Value) : stamps value.erase = stamps value := by
  cases value with
  | term term => rw [erase, stamps, stamps, term.digest_erase]
  | list items => rw [erase, stamps, stamps, length_eraseItems, itemStamps_erase items]
  | set items => rw [erase, stamps, stamps, length_eraseItems, itemStamps_erase items]
  | map entries => rw [erase, stamps, stamps, length_eraseEntries, entryStamps_erase entries]
  | emptyBraces => rfl

theorem itemStamps_erase (items : List Value) : itemStamps (eraseItems items) = itemStamps items := by
  cases items with
  | nil => rfl
  | cons item items => rw [eraseItems, itemStamps, itemStamps, stamps_erase item, itemStamps_erase items]

theorem entryStamps_erase (entries : List (Value × Value)) :
    entryStamps (eraseEntries entries) = entryStamps entries := by
  cases entries with
  | nil => rfl
  | cons entry entries =>
    obtain ⟨key, value⟩ := entry
    rw [eraseEntries, entryStamps, entryStamps, stamps_erase key, stamps_erase value,
      entryStamps_erase entries]

end

theorem digest_erase (value : Value) : digest value.erase = digest value := stamps_erase value

end Value

theorem Operation.digest_erase (operation : Operation) : digest operation.erase = digest operation := by
  have pair (key value : Value) :
      digest key.erase ++ digest value.erase = digest key ++ digest value := by
    rw [key.digest_erase, value.digest_erase]
  cases operation <;> first
    | exact congrArg (_ :: ·) (Value.digest_erase _)
    | exact congrArg (_ :: ·) (Term.digest_erase _)
    | exact congrArg (_ :: ·) (pair _ _)

theorem TokenOperand.digest_erase (operand : TokenOperand) : digest operand.erase = digest operand := by
  cases operand with
  | call arguments => exact congrArg (.tag 0 :: ·) (digest_map_erase Value.digest_erase arguments)
  | value operand => exact congrArg (.tag 1 :: ·) operand.digest_erase

theorem Relation.digest_erase (relation : Relation) : digest relation.erase = digest relation := by
  cases relation with
  | compare column comparison value =>
    show .tag 0 :: (digest column.erase ++ digest comparison ++ digest value.erase) = _
    rw [column.digest_erase, value.digest_erase]
    rfl
  | isIn column values =>
    show .tag 2 :: (digest column.erase ++ digest (values.map Value.erase)) = _
    rw [column.digest_erase, digest_map_erase Value.digest_erase]
    rfl
  | token columns comparison operand =>
    show .tag 1 :: (digest (columns.map Identifier.erase) ++ digest comparison ++ digest operand.erase) = _
    rw [digest_map_erase Identifier.digest_erase, operand.digest_erase]
    rfl

theorem Selector.digest_erase (selector : Selector) : digest selector.erase = digest selector := by
  cases selector <;> rfl

/-! ### Hash sets -/

/-- Of equal nodes one is kept, the first of them, and nothing else is. -/
structure OneOfEach {α : Type} [BEq α] (kept nodes : List α) : Prop where
  distinct : kept.Pairwise fun a b => (a == b) = false
  complete : ∀ node ∈ nodes, ∃ a ∈ kept, (a == node) = true
  first : ∀ a ∈ kept, nodes.find? (· == a) = some a

namespace OneOfEach

variable {α : Type} [BEq α] {kept kept' nodes : List α}

theorem nil : OneOfEach ([] : List α) [] := ⟨.nil, nofun, nofun⟩

/-- The order in which nodes are kept does not matter. -/
theorem of_perm [PartialEquivBEq α] (h : OneOfEach kept nodes) (perm : kept'.Perm kept) :
    OneOfEach kept' nodes where
  distinct := perm.symm.pairwise h.distinct fun different => BEq.symm_false different
  complete node mem := by
    obtain ⟨a, mem, same⟩ := h.complete node mem
    exact ⟨a, perm.mem_iff.2 mem, same⟩
  first a mem := h.first a (perm.mem_iff.1 mem)

/-- A node that no kept one equals is the first of its kind. -/
theorem find?_eq_none [PartialEquivBEq α] (h : OneOfEach kept nodes) {node : α}
    (new : kept.contains node = false) : nodes.find? (· == node) = none := by
  refine List.find?_eq_none.2 fun other mem same => ?_
  obtain ⟨a, mem, same'⟩ := h.complete other mem
  have known : kept.contains node = true :=
    List.contains_iff_exists_mem_beq.2 ⟨a, mem, BEq.symm (BEq.trans same' same)⟩
  rw [new] at known
  cases known

/-- One more node is kept if none that equals it is. -/
theorem insert [EquivBEq α] (h : OneOfEach kept nodes) (node : α) :
    OneOfEach (if kept.contains node then kept else node :: kept) (nodes ++ [node]) := by
  have first : ∀ a ∈ kept, (nodes ++ [node]).find? (· == a) = some a := fun a mem => by
    rw [List.find?_append, h.first a mem, Option.some_or]
  cases known : kept.contains node with
  | true =>
    refine ⟨h.distinct, fun other mem => ?_, first⟩
    rcases List.mem_append.1 mem with mem | mem
    · exact h.complete other mem
    · obtain rfl := List.mem_singleton.1 mem
      obtain ⟨a, mem, same⟩ := List.contains_iff_exists_mem_beq.1 known
      exact ⟨a, mem, BEq.symm same⟩
  | false =>
    refine ⟨List.pairwise_cons.2 ⟨fun a mem => ?_, h.distinct⟩, fun other mem => ?_,
      List.forall_mem_cons.2 ⟨?_, first⟩⟩
    · exact Bool.eq_false_iff.2 fun same => by
        rw [List.contains_iff_exists_mem_beq.2 ⟨a, mem, same⟩] at known
        cases known
    · rcases List.mem_append.1 mem with mem | mem
      · obtain ⟨a, mem, same⟩ := h.complete other mem
        exact ⟨a, List.mem_cons_of_mem _ mem, same⟩
      · obtain rfl := List.mem_singleton.1 mem
        exact ⟨other, List.mem_cons_self, BEq.rfl⟩
    · rw [List.find?_append, h.find?_eq_none known]
      simp

end OneOfEach

/-- What a hash set keeps of nodes that are inserted one after another, if hashes are made from digests
in this way. -/
def Digest.kept {α : Type} [BEq α] [Digest α] (mix : List Stamp → UInt64) (nodes : List α) : List α :=
  letI : Hashable α := ⟨fun node => mix (digest node)⟩
  (nodes.foldl (fun known node => known.insert node) (∅ : Std.HashSet α)).toList

/-- Where equal nodes have one digest, a hash set keeps one of each, whatever its hashes are. -/
theorem Digest.oneOfEach_kept {α : Type} [BEq α] [Digest α] [EquivBEq α]
    (lawful : ∀ a b : α, (a == b) = true → digest a = digest b) (mix : List Stamp → UInt64)
    (nodes : List α) : OneOfEach (kept mix nodes) nodes := by
  let _ : Hashable α := ⟨fun node => mix (digest node)⟩
  have _ : LawfulHashable α := ⟨fun a b same => congrArg mix (lawful a b same)⟩
  unfold kept
  -- The last node is inserted into the set of those in front of it.
  induction nodes using List.reverseRecOn with
  | nil =>
    rw [List.foldl_nil, Std.HashSet.toList_empty]
    exact .nil
  | append_singleton nodes node ih =>
    rw [List.foldl_append, List.foldl_cons, List.foldl_nil]
    refine (ih.insert node).of_perm ?_
    rw [Std.HashSet.contains_toList]
    exact Std.HashSet.toList_insert_perm

/-! ### Agreement -/

/-- Nodes are equal if they are the same once erased, equal nodes write the same to a hasher, and a hash
set keeps one node of each kind. -/
structure HashesAs {α : Type} [BEq α] [Digest α] (erase : α → α) : Prop where
  equivalence : Equivalence fun a b : α => (a == b) = true
  beq_iff : ∀ a b : α, (a == b) = true ↔ erase a = erase b
  digest_eq : ∀ a b : α, (a == b) = true → digest a = digest b
  oneOfEach : ∀ (mix : List Stamp → UInt64) (nodes : List α), OneOfEach (kept mix nodes) nodes

/-- It is enough that erasing leaves the digest as it is. -/
theorem HashesAs.of_digest_erase {α : Type} [BEq α] [Digest α] {erase : α → α}
    (beq_iff : ∀ a b : α, (a == b) = true ↔ erase a = erase b)
    (digest_erase : ∀ a, digest (erase a) = digest a) : HashesAs erase := by
  have refl (a : α) : (a == a) = true := (beq_iff a a).2 rfl
  have symm {a b : α} (same : (a == b) = true) : (b == a) = true :=
    (beq_iff b a).2 ((beq_iff a b).1 same).symm
  have trans {a b c : α} (same : (a == b) = true) (same' : (b == c) = true) : (a == c) = true :=
    (beq_iff a c).2 (((beq_iff a b).1 same).trans ((beq_iff b c).1 same'))
  have lawful (a b : α) (same : (a == b) = true) : digest a = digest b := by
    rw [← digest_erase a, (beq_iff a b).1 same, digest_erase b]
  have _ : EquivBEq α := { rfl := refl _, symm := symm, trans := trans }
  exact ⟨⟨refl, symm, trans⟩, beq_iff, lawful, oneOfEach_kept lawful⟩

/-- A collection literal. -/
@[ext] structure Literal where
  value : Value
  isCollection : value.collectionKind?.isSome = true

namespace Literal

instance : BEq Literal := ⟨fun literal other => literal.value == other.value⟩

/-- What the value writes behind the tag that tells it from a term. -/
instance : Digest Literal := ⟨fun literal => (digest literal.value).tail⟩

theorem collectionKind?_erase (value : Value) : value.erase.collectionKind? = value.collectionKind? := by
  cases value <;> rfl

def erase (literal : Literal) : Literal where
  value := literal.value.erase
  isCollection := by
    rw [collectionKind?_erase]
    exact literal.isCollection

theorem beq_iff_erase (literal other : Literal) :
    (literal == other) = true ↔ literal.erase = other.erase := by
  rw [Literal.ext_iff]
  exact Value.agree_iff

theorem digest_erase (literal : Literal) : digest literal.erase = digest literal :=
  congrArg List.tail literal.value.digest_erase

end Literal

/-- **Equality and hashing agree** for all nodes that are compared and hashed: they see everything but the
ordinals of bind markers and the quotes of names, at any depth. -/
theorem hashesAs_syntax :
    HashesAs Identifier.erase ∧ HashesAs TableName.erase ∧ HashesAs Term.erase ∧ HashesAs Value.erase ∧
    HashesAs Literal.erase ∧ HashesAs Operation.erase ∧ HashesAs TokenOperand.erase ∧
    HashesAs Relation.erase ∧ HashesAs Selector.erase :=
  ⟨.of_digest_erase Identifier.beq_iff_erase Identifier.digest_erase,
    .of_digest_erase TableName.beq_iff_erase TableName.digest_erase,
    .of_digest_erase (fun _ _ => Term.agree_iff) Term.digest_erase,
    .of_digest_erase (fun _ _ => Value.agree_iff) Value.digest_erase,
    .of_digest_erase Literal.beq_iff_erase Literal.digest_erase,
    .of_digest_erase Operation.beq_iff_erase Operation.digest_erase,
    .of_digest_erase TokenOperand.beq_iff_erase TokenOperand.digest_erase,
    .of_digest_erase Relation.beq_iff_erase Relation.digest_erase,
    .of_digest_erase Selector.beq_iff_erase Selector.digest_erase⟩

end Cql
