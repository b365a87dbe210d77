/-
Changes of a counter.

A counter is changed by a literal of any number of digits, with or without a minus sign of its own.  The
sign in front of it is an operator if a blank stands between them, and part of the literal if not; and a
literal without an operator stands for the change that it spells, which must not be positive.

* `Integer.value?_of_digits`, `Integer.value?_of_negative` — what a literal spells;
* `Operation.change?` — the change that an operation stands for;
* `Identifier.SpelledBy.writes_negative` — a name with a negative number right behind it;
* `Grammar.counterChange_of_integer` — **the change is the one that is written**.
-/
import Cql.Proofs.Updates
import Cql.Proofs.WrittenNames

namespace Cql

/-! ### The numbers that literals spell -/

namespace Integer

/-- Among digits, only zeros make zero. -/
theorem foldl_eq_zero {cs : List Char} (all : ∀ c ∈ cs, c.isDigit = true) (n : Nat) :
    cs.foldl (fun n c => 10 * n + (c.toNat - '0'.toNat)) n = 0 ↔ n = 0 ∧ ∀ c ∈ cs, c = '0' := by
  induction cs generalizing n with
  | nil => simp
  | cons c cs ih =>
    obtain ⟨digit, others⟩ := List.forall_mem_cons.1 all
    have zero : c.toNat - '0'.toNat = 0 ↔ c = '0' := by
      refine ⟨fun low => Char.toNat_inj.1 ?_, fun same => by rw [same, Nat.sub_self]⟩
      have high : '0'.toNat ≤ c.toNat := by
        simp only [Char.isDigit, Bool.and_eq_true, decide_eq_true_eq] at digit
        exact UInt32.le_iff_toNat_le.1 digit.1
      omega
    have step : 10 * n + (c.toNat - '0'.toNat) = 0 ↔ n = 0 ∧ c = '0' := by
      rw [← zero]
      omega
    rw [List.foldl_cons, ih others, step, List.forall_mem_cons, and_assoc]

theorem digits_eq_zero {cs : List Char} (mem : cs ∈ Lexical.digits) :
    digits cs = 0 ↔ ∀ c ∈ cs, c = '0' := by
  have zeros := foldl_eq_zero (Lexical.mem_digits.1 mem).2 0
  rwa [and_iff_right rfl] at zeros

theorem unsigned?_of_mem {cs : List Char} (mem : cs ∈ Lexical.digits) :
    unsigned? cs = some (digits cs) := by
  obtain ⟨nonempty, all⟩ := Lexical.mem_digits.1 mem
  exact if_pos ⟨nonempty, List.all_eq_true.2 all⟩

theorem value?_of_digits {text : String} (mem : text.toList ∈ Lexical.digits) :
    value? text = some (digits text.toList : Int) := by
  have all := (Lexical.mem_digits.1 mem).2
  unfold value?
  split
  · rename_i split
    rw [split] at all
    exact absurd (all '-' List.mem_cons_self) (by decide)
  · rename_i split
    rw [split] at all
    exact absurd (all '+' List.mem_cons_self) (by decide)
  · rw [unsigned?_of_mem mem]
    rfl

theorem value?_of_negative {text : String} {cs : List Char} (split : text.toList = '-' :: cs)
    (mem : cs ∈ Lexical.digits) : value? text = some (-(digits cs : Int)) := by
  rw [value?, split]
  simp [unsigned?_of_mem mem]

end Integer

namespace Grammar

/-- A literal that is not positive, and the digits in it. -/
theorem notPositive_iff {n : String} (mem : n.toList ∈ Lexical.integer) : ∃ value : Int,
    Integer.value? n = some value ∧ (Language.NotPositive n ↔ value ≤ 0) ∧
      (Language.NotPositive n → (magnitude n).toList ∈ Lexical.digits ∧
        Integer.value? (magnitude n) = some (-value)) := by
  rcases Lexical.mem_integer.1 mem with mem | ⟨ds, mem, split⟩
  · have notMinus : n.toList.head? ≠ some '-' := by
      intro minus
      obtain ⟨rest, split⟩ := List.head?_eq_some_iff.1 minus
      have all := (Lexical.mem_digits.1 mem).2
      rw [split] at all
      exact absurd (all '-' List.mem_cons_self) (by decide)
    have zeros := Integer.digits_eq_zero mem
    have unchanged : magnitude n = n := magnitude_eq_iff.2 (.inr ⟨notMinus, rfl⟩)
    have notPositive : Language.NotPositive n ↔ Integer.digits n.toList = 0 := by
      rw [zeros, Language.NotPositive, or_iff_right notMinus]
    refine ⟨_, Integer.value?_of_digits mem, ?_, fun low => ?_⟩
    · rw [notPositive]
      omega
    · rw [unchanged, Integer.value?_of_digits mem, notPositive.1 low]
      exact ⟨mem, rfl⟩
  · have stripped : (magnitude n).toList = ds := by
      simp [magnitude, split]
    have notPositive : Language.NotPositive n := .inl (by rw [split]; rfl)
    refine ⟨_, Integer.value?_of_negative split mem, ⟨fun _ => by omega, fun _ => notPositive⟩, fun _ => ?_⟩
    rw [Integer.value?_of_digits (by rwa [stripped]), stripped, Int.neg_neg]
    exact ⟨mem, rfl⟩

end Grammar

/-- What an operation adds to a counter, if it changes one by a number. -/
def Operation.change? : Operation → Option Int
  | counterIncrement (.integer digits) => Integer.value? digits
  | counterDecrement (.integer digits) => (Integer.value? digits).map (-·)
  | _ => none

/-! ### Where the scanner cuts -/

/-- A name with a negative number right behind it: its sign makes no UUID of it. -/
theorem Identifier.SpelledBy.writes_negative {name : Identifier} {text : String} (h : SpelledBy text name)
    {ds : List Char} (mem : ds ∈ Lexical.digits) : ∃ kind, ofLexeme? ⟨kind, text⟩ = some name ∧
      Writes (text.toList ++ '-' :: ds)
        [⟨kind, text⟩, ⟨.integer (String.ofList ('-' :: ds)), String.ofList ('-' :: ds)⟩] := by
  have integer : '-' :: ds ∈ Lexical.integer := Lexical.mem_integer.2 (.inr ⟨ds, mem, rfl⟩)
  refine h.writes_of_stops (.token (.integer integer) rfl) fun more breaks => ⟨?_, ?_⟩
  · rintro s ⟨⟩
    decide
  · refine h.not_startsWith_uuidForm ('-' :: ds) ?_ fun s mem => ?_
    · exact Nat.lt_of_le_of_lt (Lexical.count_hyphen_of_integer integer) (by decide)
    · have stops := (Option.all_eq_true _ _).1 breaks s mem
      exact ⟨Segment.isWordChar_of_stopsRuns (Segment.stopsRuns_of_breaks stops),
        Segment.ne_of_breaks stops rfl⟩

/-! ### What the grammar has for a change -/

namespace Grammar

open Rule Phrase

variable {column other : Identifier} {first second : Lexeme} {n : String}

/-- The lexeme of an integer literal. -/
def integerLexeme (n : String) : Lexeme := ⟨.integer n, n⟩

/-- The lexemes up to the second name in `column '=' column ..`. -/
def selfLexemes (first second : Lexeme) : List Lexeme := [first, ⟨.punctuation .equal, "="⟩, second]

/-- An assignment that starts from its own column. -/
theorem spelled_self {rest : List Lexeme} {operation : Operation}
    (seen : Identifier.ofLexeme? first = some column) (seen' : Identifier.ofLexeme? second = some other)
    (same : (other == column) = true)
    (change : (Language.signedChange <|> Language.unsignedChange).Spelled rest (· = operation)) :
    Language.assignment.Spelled (selfLexemes first second ++ rest) (· = (column, operation)) := by
  have own : (Language.itself column).Spelled [second] fun _ => True :=
    spelled_identifier_bind seen' fun items none => ⟨(), ⟨List.map_eq_nil_iff.1 none, same⟩, trivial⟩
  have changed : (Language.change column).Spelled (⟨.punctuation .equal, "="⟩ :: ([second] ++ rest))
      (· = operation) := by
    refine .orElse_right (.orElse_right (.orElse_right (.ofKind_bind rfl ?_)))
    exact own.bind fun _ _ => change
  exact spelled_identifier_bind seen (changed.map fun _ same => congrArg (Prod.mk column) same)

theorem spelled_integer (levels : Nat) :
    (Language.valueWithin levels).Spelled [integerLexeme n] (· = .term (.integer n)) := by
  have scalar : (.term <$> Language.scalar : Phrase Value).Spelled [integerLexeme n]
      (· = .term (.integer n)) := by
    have term : Language.scalar.Spelled [integerLexeme n] (· = .integer n) :=
      .orElse_left (.token fun _ => ⟨.integer n, rfl, rfl⟩)
    exact term.map fun _ same => congrArg Value.term same
  cases levels with
  | zero => exact scalar
  | succ levels => exact .orElse_left scalar

theorem spelled_signedChange {sign : Sign} {mark : Lexeme} {operation : Operation}
    (signed : mark.kind = .punctuation (Sign.mark sign))
    (delta : Operation.delta sign (.term (.integer n)) = .ok operation) :
    Language.signedChange.Spelled [mark, integerLexeme n] (· = operation) := by
  intro items same
  obtain ⟨item, rest, rfl, rfl, amount⟩ := List.map_eq_cons_iff.1 same
  obtain ⟨operand, spelled, rfl⟩ := spelled_integer maxNesting rest amount
  exact ⟨operation, signedChange_iff.2 ⟨item, rest, sign, _, rfl, signed, spelled, delta⟩, rfl⟩

theorem spelled_unsignedChange (low : Language.NotPositive n) :
    Language.unsignedChange.Spelled [integerLexeme n] (· = .counterDecrement (.integer (magnitude n))) := by
  intro items same
  obtain ⟨item, rfl, integer⟩ := List.map_eq_singleton_iff.1 same
  refine ⟨_, Language.unsignedChange_iff.2 (.inl ⟨item, n, _, rfl, ?_, low, magnitude_eq_iff.1 rfl, rfl⟩), rfl⟩
  rw [Numbered.kind, integer]
  rfl

/-! ### A missing sign -/

/-- The parse is ended, since the literal lacks its sign. -/
def EndsAt {α : Type} (n : String) (reply : Reply α) : Prop :=
  ∃ last place, reply = ⟨.error .fatal, last, [⟨.missingMinus n, place⟩]⟩

theorem EndsAt.bind {α β : Type} {rule : Rule α} {next : α → Rule β} {state : State}
    (h : EndsAt n (rule.run state)) : EndsAt n ((rule >>= next).run state) := by
  obtain ⟨last, place, same⟩ := h
  rw [run_bind_of_error (congrArg Reply.result same), same]
  exact ⟨last, place, rfl⟩

theorem reads_kind (state : State) : kind.Reads state state.kind state := rfl

theorem not_questionMark (seen : Identifier.ofLexeme? first = some column) :
    first.kind ≠ .punctuation .questionMark := by
  intro isMark
  simp [Identifier.ofLexeme?, isMark] at seen

theorem endsAt_unsignedChange (positive : ¬ Language.NotPositive n) (state : State) :
    EndsAt n ((unsignedChange n (pure ())).run state) := by
  have failed : ¬ isNonPositive n = true := fun low => positive (isNonPositive_iff.1 low)
  show EndsAt n ((if isNonPositive n then (pure (.counterDecrement (.integer (magnitude n))) : Rule Operation)
    else abort (.missingMinus n) (.token state.stream.position)).run state.advance)
  rw [if_neg failed]
  exact ⟨_, _, rfl⟩

variable {state after : State}

theorem endsAt_selfAssignment (seen : Identifier.ofLexeme? second = some other)
    (same : (other == column) = true) (positive : ¬ Language.NotPositive n)
    (covers : state.Covers [second, integerLexeme n] after) :
    EndsAt n ((selfAssignment column).run state) := by
  have place : here.Reads state (.token state.stream.position) state := rfl
  have named : (identifier "in assignment").Reads state other state.advance :=
    reads_accept.2 ⟨by rw [covers.cons.2.1, seen], rfl⟩
  have amount : state.advance.kind = .integer n := (covers.advance (not_questionMark seen)).kind_eq
  rw [selfAssignment_eq, place.run_bind, named.run_bind, if_pos same]
  unfold afterSelf
  rw [(reads_kind _).run_bind, amount]
  exact endsAt_unsignedChange positive _

/-- A positive literal without an operator ends the parse. -/
theorem endsAt_assignment (seen : Identifier.ofLexeme? first = some column)
    (seen' : Identifier.ofLexeme? second = some other) (same : (other == column) = true)
    (positive : ¬ Language.NotPositive n)
    (covers : state.Covers (selfLexemes first second ++ [integerLexeme n]) after) :
    EndsAt n (assignment.run state) := by
  have rest := covers.advance (not_questionMark seen)
  have amount := rest.advance (by simp)
  have named : (identifier "in SET clause").Reads state column state.advance :=
    reads_accept.2 ⟨by rw [covers.cons.2.1, seen], rfl⟩
  have spared : (eatMark .leftBracket).Reads state.advance false state.advance :=
    reads_eatKind.2 (.inr ⟨by rw [rest.kind_eq]; simp, rfl, rfl⟩)
  have equal : (symbol .equal "in assignment").Reads state.advance () state.advance.advance :=
    reads_ofKind.2 ⟨rest.kind_eq, rfl⟩
  have isName : state.advance.advance.kind.isNameLike = true := by
    rw [amount.kind_eq]
    exact isNameLike_of_ofLexeme? seen'
  unfold assignment
  rw [named.run_bind, spared.run_bind, if_neg (by simp), equal.run_bind, (reads_kind _).run_bind,
    if_pos isName]
  exact (endsAt_selfAssignment seen' same positive amount).bind

/-! ### Written changes -/

open Identifier (SpelledBy)

variable {left right source : String} {tail : List Char} {rest : List Lexeme}

/-- The tokens of an assignment that starts from its own column. -/
theorem exists_writes_self (spelled : SpelledBy left column)
    (writes : Writes (right.toList ++ tail) (second :: rest))
    (split : source.toList = left.toList ++ ' ' :: '=' :: ' ' :: (right.toList ++ tail)) :
    ∃ first, Identifier.ofLexeme? first = some column ∧
      Writes source.toList (selfLexemes first second ++ rest) := by
  have equal : Writes ('=' :: ' ' :: (right.toList ++ tail)) (⟨.punctuation .equal, "="⟩ :: second :: rest) :=
    writes.blank.mark fun _ _ => rfl
  obtain ⟨kind, seen, written⟩ := spelled.writes_append equal.blank rfl
  rw [split]
  exact ⟨_, seen, written⟩

theorem readsWhole_self (spelled : SpelledBy left column) (same : (other == column) = true)
    {operation : Operation} (change : (Language.signedChange <|> Language.unsignedChange).Spelled rest
      (· = operation))
    (split : source.toList = left.toList ++ ' ' :: '=' :: ' ' :: (right.toList ++ tail))
    (writes : ∃ kind, Identifier.ofLexeme? ⟨kind, right⟩ = some other ∧
      Writes (right.toList ++ tail) (⟨kind, right⟩ :: rest)) :
    assignment.ReadsWhole source (column, operation) := by
  obtain ⟨kind, seen', writes⟩ := writes
  obtain ⟨first, seen, written⟩ := exists_writes_self spelled writes split
  exact recognizes_assignment.readsWhole (by decide) written (spelled_self seen seen' same change)

theorem writes_integer (mem : n.toList ∈ Lexical.integer) : Writes n.toList [integerLexeme n] := by
  have written : Writes n.toList [⟨.integer (String.ofList n.toList), String.ofList n.toList⟩] :=
    .token (.integer mem) rfl
  rwa [String.ofList_toList] at written

section

variable (spelled : SpelledBy left column) (spelled' : SpelledBy right other) (same : (other == column) = true)
  (mem : n.toList ∈ Lexical.integer)

include spelled spelled' same mem

/-- A literal behind an operator, with a blank between them. -/
theorem readsWhole_signed (sign : Sign) (c : Char) {operation : Operation}
    (first : ∀ more : List Char, Segment.first c (' ' :: more) = .ofMark (Sign.mark sign))
    (delta : Operation.delta sign (.term (.integer n)) = .ok operation)
    (split : source.toList = left.toList ++ ' ' :: '=' :: ' ' :: (right.toList ++ ' ' :: c :: ' ' :: n.toList)) :
    assignment.ReadsWhole source (column, operation) := by
  have amount : Writes (c :: ' ' :: n.toList)
      [⟨.punctuation (Sign.mark sign), String.ofList [c]⟩, integerLexeme n] :=
    (writes_integer mem).blank.mark fun more _ => first (n.toList ++ more)
  exact readsWhole_self spelled same (.orElse_left (spelled_signedChange rfl delta)) split
    (spelled'.writes_append amount.blank rfl)

/-- A literal without an operator, if it is not positive. -/
theorem readsWhole_unsigned (low : Language.NotPositive n)
    (split : source.toList = left.toList ++ ' ' :: '=' :: ' ' :: (right.toList ++ ' ' :: n.toList)) :
    assignment.ReadsWhole source (column, .counterDecrement (.integer (magnitude n))) :=
  readsWhole_self spelled same (.orElse_right (spelled_unsignedChange low)) split
    (spelled'.writes_append (writes_integer mem).blank rfl)

/-- A literal without an operator, if it is positive. -/
theorem endsAt_unsigned (positive : ¬ Language.NotPositive n)
    (split : source.toList = left.toList ++ ' ' :: '=' :: ' ' :: (right.toList ++ ' ' :: n.toList)) :
    EndsAt n (assignment.run (Parser.ofTokens (tokenize source).tokens).start) := by
  obtain ⟨kind, seen', written'⟩ := spelled'.writes_append (writes_integer mem).blank rfl
  obtain ⟨first, seen, written⟩ := exists_writes_self spelled written' split
  obtain ⟨after, covers, -⟩ := written.covers
  exact endsAt_assignment seen seen' same positive covers

omit mem

/-- An unsigned literal behind a minus sign that belongs to it. -/
theorem readsWhole_negative (mem : n.toList ∈ Lexical.digits)
    (split : source.toList = left.toList ++ ' ' :: '=' :: ' ' :: (right.toList ++ '-' :: n.toList) ∨
      source.toList = left.toList ++ ' ' :: '=' :: ' ' :: (right.toList ++ ' ' :: '-' :: n.toList)) :
    assignment.ReadsWhole source (column, .counterDecrement (.integer n)) := by
  have negative : ("-" ++ n).toList = '-' :: n.toList := by simp
  have integer : ("-" ++ n).toList ∈ Lexical.integer := Lexical.mem_integer.2 (.inr ⟨_, mem, negative⟩)
  have low : Language.NotPositive ("-" ++ n) := .inl (by rw [negative]; rfl)
  have stripped : magnitude ("-" ++ n) = n := magnitude_eq_iff.2 (.inl rfl)
  rw [← stripped]
  rcases split with split | split
  · refine readsWhole_self spelled same (.orElse_right (spelled_unsignedChange low)) split ?_
    obtain ⟨kind, seen, written⟩ := spelled'.writes_negative mem
    rw [← negative, String.ofList_toList, negative] at written
    exact ⟨kind, seen, written⟩
  · exact readsWhole_unsigned spelled spelled' same integer low (by rw [split, negative])

end

/-- **The change is the one that is written.**  Let two texts spell names of one column, and another be
the text of an integer literal, of any length and with or without a minus sign, that spells a number.
Added to the column, it is read as an increment by the number, and subtracted from it with a blank behind
the operator, as a decrement.  Without an operator it is read exactly if the number is not positive, and
then as a decrement by an unsigned literal that comes to the same change; otherwise the parse ends for want
of a sign.  And an unsigned literal is subtracted alike whether there is a blank behind the minus sign, a
blank in front of it, or none. -/
theorem counterChange_of_integer (spelled : SpelledBy left column) (spelled' : SpelledBy right other)
    (same : (other == column) = true) (mem : n.toList ∈ Lexical.integer) :
    ∃ value, Integer.value? n = some value ∧
      (∃ operation, assignment.ReadsWhole (left ++ " = " ++ right ++ " + " ++ n) (column, operation) ∧
        operation = .counterIncrement (.integer n) ∧ operation.change? = some value) ∧
      (∃ operation, assignment.ReadsWhole (left ++ " = " ++ right ++ " - " ++ n) (column, operation) ∧
        operation = .counterDecrement (.integer n) ∧ operation.change? = some (-value)) ∧
      ((∃ assigned, assignment.ReadsWhole (left ++ " = " ++ right ++ " " ++ n) assigned) ↔ value ≤ 0) ∧
      (value ≤ 0 → ∃ digits : String, digits.toList ∈ Lexical.digits ∧
        assignment.ReadsWhole (left ++ " = " ++ right ++ " " ++ n) (column, .counterDecrement (.integer digits)) ∧
        (Operation.counterDecrement (.integer digits)).change? = some value) ∧
      (0 < value → EndsAt n (assignment.run
        (Parser.ofTokens (tokenize (left ++ " = " ++ right ++ " " ++ n)).tokens).start)) ∧
      (n.toList ∈ Lexical.digits → ∃ operation, operation.change? = some (-value) ∧
        assignment.ReadsWhole (left ++ " = " ++ right ++ " -" ++ n) (column, operation) ∧
        assignment.ReadsWhole (left ++ " = " ++ right ++ "-" ++ n) (column, operation) ∧
        assignment.ReadsWhole (left ++ " = " ++ right ++ " - " ++ n) (column, operation)) := by
  obtain ⟨value, spells, notPositive, unsigned⟩ := notPositive_iff mem
  have decrement : assignment.ReadsWhole (left ++ " = " ++ right ++ " - " ++ n)
      (column, .counterDecrement (.integer n)) :=
    readsWhole_signed spelled spelled' same mem .minus '-' (fun _ => rfl) rfl (by simp)
  have down : (Operation.counterDecrement (.integer n)).change? = some (-value) := by
    simp [Operation.change?, spells]
  have alone (low : value ≤ 0) : assignment.ReadsWhole (left ++ " = " ++ right ++ " " ++ n)
      (column, .counterDecrement (.integer (magnitude n))) :=
    readsWhole_unsigned spelled spelled' same mem (notPositive.2 low) (by simp)
  have ends (high : 0 < value) : EndsAt n (assignment.run
      (Parser.ofTokens (tokenize (left ++ " = " ++ right ++ " " ++ n)).tokens).start) :=
    endsAt_unsigned spelled spelled' same mem (fun low => Int.not_le.2 high (notPositive.1 low)) (by simp)
  refine ⟨value, spells, ⟨_, ?_, rfl, spells⟩, ⟨_, decrement, rfl, down⟩, ⟨?_, fun low => ⟨_, alone low⟩⟩,
    fun low => ?_, ends, fun digits => ⟨_, down, ?_, ?_, decrement⟩⟩
  · exact readsWhole_signed spelled spelled' same mem .plus '+' (fun _ => rfl) rfl (by simp)
  · rintro ⟨assigned, -, after, -, reads⟩
    by_contra high
    obtain ⟨last, place, ended⟩ := ends (Int.not_le.1 high)
    rw [ended] at reads
    cases reads
  · obtain ⟨mem', spells'⟩ := unsigned (notPositive.2 low)
    exact ⟨magnitude n, mem', alone low, by simp [Operation.change?, spells']⟩
  · exact readsWhole_negative spelled spelled' same digits (.inr (by simp))
  · exact readsWhole_negative spelled spelled' same digits (.inl (by simp))

/-- Negative zero, taken from a column that is called by a keyword and by its name in quotes. -/
theorem counterChange_of_integer_negativeZero : ∃ digits : String, digits.toList ∈ Lexical.digits ∧
    assignment.ReadsWhole "TTL = \"ttl\" -00" (.unquoted "TTL", .counterDecrement (.integer digits)) ∧
    (Operation.counterDecrement (.integer digits)).change? = some 0 := by
  have keyword : SpelledBy "TTL" (.unquoted "TTL") := by
    refine .word (Lexical.mem_word.2 ⟨_, _, rfl, rfl, List.all_eq_true.1 rfl⟩) fun keyword found => ?_
    have same : Keyword.ofWord? "TTL" = some .TTL := by decide +kernel
    obtain rfl := Option.some.inj (found.symm.trans same)
    rfl
  have quotes : SpelledBy (Quoted.render '"' "ttl") (.quoted "ttl") := .quotes (by decide)
  have written : Quoted.render '"' "ttl" = "\"ttl\"" := by decide +kernel
  rw [written] at quotes
  have zero : "-00".toList ∈ Lexical.integer :=
    Lexical.mem_integer.2 (.inr ⟨['0', '0'], Lexical.mem_digits.2 ⟨by simp, List.all_eq_true.1 rfl⟩, rfl⟩)
  obtain ⟨value, spells, -, -, -, alone, -⟩ :=
    counterChange_of_integer keyword quotes (by decide +kernel) zero
  have same : Integer.value? "-00" = some 0 := by decide +kernel
  obtain rfl := Option.some.inj (spells.symm.trans same)
  exact alone (Int.le_refl 0)

end Grammar

end Cql
