/-
Braces, read in two ways.

As a value, braces with something inside are a set or a map, which the first sign behind the first value
decides.  As a property, they can only be a map, and each entry has to have its colon.  The two ways are
written apart, but what one makes of a map the other makes of it too: the same entries, from the same
tokens, with the same numbers for the bind markers and without a report.

* `Rule.Quiet.run_eq_iff` — a quiet rule that comes to a value reads it;
* `Language.mapLiteral_iff` — as phrases, map literals are the braces that stand for maps, or for nothing;
* `Grammar.exists_first_of_set` — a set is read where no colon comes behind its first value;
* `Grammar.mapLiteral_iff_bracedLiteral` — **the two ways agree**, and where braces are a set, the one
  that wants a map reports the missing colon.
-/
import Cql.Proofs.Properties
import Cql.Proofs.ReportOrder
import Cql.Proofs.Yields

namespace Cql

namespace Rule

variable {α : Type}

/-- A quiet rule that comes to a value reads it. -/
theorem Quiet.run_eq_iff {rule : Rule α} (quiet : rule.Quiet) {state after : State} {a : α}
    {reports : List Report} :
    rule.run state = ⟨.ok a, after, reports⟩ ↔ reports = [] ∧ rule.Reads state a after := by
  constructor
  · intro run
    have silent := quiet.run (congrArg Reply.result run)
    rw [run] at silent
    -- The reports of the reply are those that the rule has not made.
    obtain rfl : reports = [] := silent
    exact ⟨rfl, run⟩
  · rintro ⟨rfl, reads⟩
    exact reads

/-- Where anything may follow, a rule reads exactly the stretches that its phrase has. -/
theorem Recognizes.reads_iff_exists {rule : Rule α} {phrase : Phrase α}
    (recognizes : rule.Recognizes phrase Phrase.anything) {state after : State} {a : α} :
    rule.Reads state a after ↔ ∃ items, state.Passes items after ∧ phrase items a := by
  constructor
  · exact recognizes.sound _ _ _
  · rintro ⟨items, passes, spelled⟩
    exact recognizes.complete _ _ _ _ passes spelled trivial

/-- A token that has to be of another kind is reported, and stays where it is. -/
theorem run_ofKind_of_ne {wanted : TokenKind} {context : String} {state : State}
    (other : state.kind ≠ wanted) : (ofKind wanted context).run state =
      ⟨.error .recorded, state,
        [⟨.expected wanted.render context state.kind, .token state.stream.position⟩]⟩ := by
  have notEaten : (eatKind wanted).Reads state false state := reads_eatKind.2 (.inr ⟨other, rfl, rfl⟩)
  unfold ofKind
  rw [notEaten.run_bind]
  rfl

end Rule

/-! ### As phrases -/

namespace Language

open Phrase

/-- As phrases, map literals are the braces that stand for maps, or for nothing. -/
theorem mapLiteral_iff {phrase : Phrase Value} {items : List Numbered} {entries : List (Value × Value)} :
    mapLiteral phrase items entries ↔ bracedLiteral phrase items (.map entries) ∨
      entries = [] ∧ bracedLiteral phrase items .emptyBraces := by
  -- With the opening brace in each of its alternatives, a map literal has two of the three of braces.
  unfold mapLiteral bracedLiteral
  rw [bind_orElse]
  constructor
  · rintro (⟨front, u, _, rfl, opening, last, u', _, rfl, closing, rfl, rfl⟩ |
      ⟨front, u, _, rfl, opening, middle, _, _, rfl, spelled, last, u', _, rfl, closing, rfl, rfl⟩)
    · exact .inr ⟨rfl, .inl ⟨front, u, _, rfl, opening, last, u', [], rfl, closing, rfl, rfl⟩⟩
    · exact .inl (.inr (.inr
        ⟨front, u, _, rfl, opening, middle, entries, _, rfl, spelled, last, u', [], rfl, closing, rfl, rfl⟩))
  · rintro ((⟨_, _, _, -, -, _, _, _, -, -, -, impossible⟩ |
        ⟨_, _, _, -, -, _, _, _, -, -, _, _, _, -, -, -, impossible⟩ |
        ⟨front, u, _, rfl, opening, middle, _, _, rfl, spelled, last, u', _, rfl, closing, rfl, same⟩) |
      ⟨rfl, ⟨front, u, _, rfl, opening, last, u', _, rfl, closing, rfl, -⟩ |
        ⟨_, _, _, -, -, _, _, _, -, -, _, _, _, -, -, -, impossible⟩ |
        ⟨_, _, _, -, -, _, _, _, -, -, _, _, _, -, -, -, impossible⟩⟩)
    · exact absurd impossible (by simp)
    · exact absurd impossible (by simp)
    · obtain rfl := Value.map.inj same
      exact .inr
        ⟨front, u, _, rfl, opening, middle, entries, _, rfl, spelled, last, u', [], rfl, closing, rfl, rfl⟩
    · exact .inl ⟨front, u, _, rfl, opening, last, u', [], rfl, closing, rfl, rfl⟩
    · exact absurd impossible (by simp)
    · exact absurd impossible (by simp)

end Language

namespace Grammar

open Rule Phrase

/-! ### As rules -/

section

variable {rule : String → Rule Value}

/-- A set is read where no colon comes behind its first value. -/
theorem exists_first_of_set {state after : State} {items : List Value}
    (reads : (bracedLiteral rule).Reads state (.set items) after) : ∃ first mid,
      state.kind = .punctuation .leftBrace ∧ state.advance.kind ≠ .punctuation .rightBrace ∧
        (rule "in collection literal").Reads state.advance first mid ∧ mid.kind ≠ .punctuation .colon := by
  unfold bracedLiteral symbol eatMark at reads
  obtain ⟨_, opened, brace, reads⟩ := reads_bind.1 reads
  obtain ⟨atBrace, rfl⟩ := reads_ofKind.1 brace
  rw [reads_eatKind_bind] at reads
  split at reads
  · -- Nothing inside the braces is no set.
    exact absurd (reads_pure.1 reads).1 (by simp)
  rename_i notEmpty
  obtain ⟨first, mid, one, reads⟩ := reads_bind.1 reads
  rw [reads_eatKind_bind] at reads
  split at reads
  · -- A colon makes a map of it.
    obtain ⟨_, _, -, reads⟩ := reads_bind.1 reads
    obtain ⟨_, _, -, reads⟩ := reads_bind.1 reads
    obtain ⟨_, _, -, reads⟩ := reads_bind.1 reads
    exact absurd (reads_pure.1 reads).1 (by simp)
  · rename_i noColon
    exact ⟨first, mid, atBrace, notEmpty, one, noColon⟩

/-- Where a value is not followed by a colon, it is no key, and the map that it stands in halts. -/
theorem run_mapLiteral_of_noColon {state mid : State} {first : Value}
    (atBrace : state.kind = .punctuation .leftBrace)
    (notEmpty : state.advance.kind ≠ .punctuation .rightBrace)
    (one : (rule "as map key").Reads state.advance first mid) (noColon : mid.kind ≠ .punctuation .colon) :
    (mapLiteral rule).run state = ⟨.error .recorded, mid,
      [⟨.expected ":" "after map key" mid.kind, .token mid.stream.position⟩]⟩ := by
  have brace : (symbol .leftBrace "to open map literal").Reads state () state.advance :=
    reads_ofKind.2 ⟨atBrace, rfl⟩
  have goesOn : (eatMark .rightBrace).Reads state.advance false state.advance :=
    reads_eatKind.2 (.inr ⟨notEmpty, rfl, rfl⟩)
  have entry : (mapEntry rule).run state.advance = ⟨.error .recorded, mid,
      [⟨.expected ":" "after map key" mid.kind, .token mid.stream.position⟩]⟩ := by
    have halts : (symbol .colon "after map key").run mid = _ := run_ofKind_of_ne noColon
    unfold mapEntry
    rw [one.run_bind, run_bind_of_error (congrArg Reply.result halts), halts]
    rfl
  have list : (Rule.commaSeparated (mapEntry rule)).run state.advance = ⟨.error .recorded, mid,
      [⟨.expected ":" "after map key" mid.kind, .token mid.stream.position⟩]⟩ := by
    unfold Rule.commaSeparated Rule.separated
    rw [run_bind_of_error (congrArg Reply.result entry), entry]
  unfold mapLiteral
  rw [brace.run_bind, goesOn.run_bind]
  show (Rule.commaSeparated (mapEntry rule) >>= _).run state.advance = _
  rw [run_bind_of_error (congrArg Reply.result list), list]

end

/-- **The two ways to read braces agree**, however many more levels of collections may be opened.  A map
literal comes to entries if and only if the braces come to a map of these entries, or to empty braces and
there are no entries, and then the states behind them and the reports are the same.  Where the braces come
to a set, the map literal halts at the token behind the first value, which is no colon. -/
theorem mapLiteral_iff_bracedLiteral (levels : Nat) (state : State) :
    (∀ entries after reports,
      (mapLiteral (valueWithin levels)).run state = ⟨.ok entries, after, reports⟩ ↔
        (bracedLiteral (valueWithin levels)).run state = ⟨.ok (.map entries), after, reports⟩ ∨
          entries = [] ∧
            (bracedLiteral (valueWithin levels)).run state = ⟨.ok .emptyBraces, after, reports⟩) ∧
      ∀ items after reports,
        (bracedLiteral (valueWithin levels)).run state = ⟨.ok (.set items), after, reports⟩ →
          ∃ halted, halted.kind ≠ .punctuation .colon ∧
            (mapLiteral (valueWithin levels)).run state = ⟨.error .recorded, halted,
              [⟨.expected ":" "after map key" halted.kind, .token halted.stream.position⟩]⟩ := by
  have one := recognizes_valueWithin levels
  have opens := opens_valueWithin levels
  have quietMap := quiet_mapLiteral (quiet_valueWithin levels)
  have quietBraces := quiet_bracedLiteral (quiet_valueWithin levels)
  constructor
  · intro entries after reports
    rw [quietMap.run_eq_iff, quietBraces.run_eq_iff, quietBraces.run_eq_iff,
      (recognizes_mapLiteral one opens).reads_iff_exists, (recognizes_bracedLiteral one opens).reads_iff_exists,
      (recognizes_bracedLiteral one opens).reads_iff_exists]
    constructor
    · rintro ⟨rfl, items, passes, spelled⟩
      rcases Language.mapLiteral_iff.1 spelled with map | ⟨rfl, empty⟩
      · exact .inl ⟨rfl, items, passes, map⟩
      · exact .inr ⟨rfl, rfl, items, passes, empty⟩
    · rintro (⟨rfl, items, passes, map⟩ | ⟨rfl, rfl, items, passes, empty⟩)
      · exact ⟨rfl, items, passes, Language.mapLiteral_iff.2 (.inl map)⟩
      · exact ⟨rfl, items, passes, Language.mapLiteral_iff.2 (.inr ⟨rfl, empty⟩)⟩
  · intro items after reports run
    obtain ⟨-, reads⟩ := quietBraces.run_eq_iff.1 run
    obtain ⟨first, mid, atBrace, notEmpty, inBraces, noColon⟩ := exists_first_of_set reads
    -- What is read as a value is read as a key too; only the report would say where it was wanted.
    have asKey := (one "as map key").reads_iff_exists.2 ((one _).reads_iff_exists.1 inBraces)
    exact ⟨mid, noColon, run_mapLiteral_of_noColon atBrace notEmpty asKey noColon⟩

/-- In front of `{1}`. -/
def atSingleton : State :=
  ⟨.ofTokens [⟨⟨.punctuation .leftBrace, "\x7b"⟩, 0, 1⟩, ⟨⟨.integer "1", "1"⟩, 1, 2⟩,
    ⟨⟨.punctuation .rightBrace, "\x7d"⟩, 2, 3⟩], ⟨0⟩⟩

/-- Where braces have one value, the map that they are taken for lacks a colon. -/
theorem mapLiteral_of_singleton : ∃ after halted,
    (bracedLiteral (valueWithin maxNesting)).run atSingleton =
        ⟨.ok (.set [.term (.integer "1")]), after, []⟩ ∧
      halted.kind ≠ .punctuation .colon ∧
      (mapLiteral (valueWithin maxNesting)).run atSingleton = ⟨.error .recorded, halted,
        [⟨.expected ":" "after map key" halted.kind, .token halted.stream.position⟩]⟩ := by
  have run : (bracedLiteral (valueWithin maxNesting)).run atSingleton =
      ⟨.ok (.set [.term (.integer "1")]), ⟨atSingleton.stream.moveTo 3, ⟨0⟩⟩, []⟩ := rfl
  obtain ⟨halted, noColon, halts⟩ := (mapLiteral_iff_bracedLiteral maxNesting atSingleton).2 _ _ _ run
  exact ⟨_, halted, run, noColon, halts⟩

end Grammar

end Cql
