/-
Byte offsets into a list of characters.

* `Bytes.size` — the number of bytes of the UTF-8 form;
* `Bytes.before?` — the characters in front of an offset, if no character stands across it;
  `Bytes.before?_eq_some` says that this splits the list at a size.
-/
namespace Cql.Bytes

/-- Number of bytes of the UTF-8 form. -/
def size : List Char → Nat
  | [] => 0
  | c :: cs => c.utf8Size + size cs

@[simp] theorem size_append (as bs : List Char) : size (as ++ bs) = size as + size bs := by
  induction as with
  | nil => simp [size]
  | cons c as ih => simp [size, ih, Nat.add_assoc]

/-- The bytes of a text are those of its characters. -/
@[simp] theorem size_toList (text : String) : size text.toList = text.utf8ByteSize := by
  have ofList : ∀ cs : List Char, size cs = (String.ofList cs).utf8ByteSize := by
    intro cs
    induction cs with
    | nil => simp [size]
    | cons c cs ih =>
      rw [size, ih, ← List.singleton_append, String.ofList_append, String.utf8ByteSize_append]
      simp
  rw [ofList, String.ofList_toList]

/-- The characters in front of a byte offset, or nothing if no character ends there. -/
def before? : Nat → List Char → Option (List Char)
  | 0, _ => some []
  | _ + 1, [] => none
  | offset + 1, c :: cs =>
    if c.utf8Size ≤ offset + 1 then (before? (offset + 1 - c.utf8Size) cs).map (c :: ·) else none

theorem before?_eq_some {offset : Nat} {cs as : List Char} :
    before? offset cs = some as ↔ size as = offset ∧ ∃ bs, cs = as ++ bs := by
  induction cs generalizing offset as with
  | nil =>
    cases offset with
    | zero => cases as <;> simp [before?, size, Char.utf8Size_pos, Nat.ne_of_gt]
    | succ offset => cases as <;> simp [before?, size]
  | cons c cs ih =>
    cases offset with
    | zero =>
      cases as with
      | nil => simp [before?, size]
      | cons d as =>
        have := d.utf8Size_pos
        simp only [before?, Option.some.injEq, List.nil_eq, reduceCtorEq, size, false_iff]
        omega
    | succ offset =>
      have := c.utf8Size_pos
      cases as with
      | nil => simp [before?, size]
      | cons d as =>
        by_cases h : c.utf8Size ≤ offset + 1
        · simp only [before?, h, if_true, Option.map_eq_some_iff, List.cons.injEq, ih, size,
            List.cons_append]
          constructor
          · rintro ⟨_, ⟨sized, bs, rfl⟩, rfl, rfl⟩
            exact ⟨by omega, bs, rfl, rfl⟩
          · rintro ⟨sized, bs, rfl, rfl⟩
            exact ⟨as, ⟨by omega, bs, rfl⟩, rfl, rfl⟩
        · simp only [before?, h, if_false, reduceCtorEq, size, List.cons_append, List.cons.injEq,
            false_iff]
          rintro ⟨sized, bs, rfl, rfl⟩
          omega

end Cql.Bytes
