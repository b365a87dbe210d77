/-
Recovery that runs into what comes next.

A list that may be broken skips what is left of a broken item, up to a separator or to a token that stops
it.  Where neither comes before some token ahead, that token is skipped as well, unless the items of the
list take it anyway.  So whether a list takes the token is decided where an item halts in front of it.

* `Rule.OverrunsAt` — the rule takes the first of the tokens `rest`, which are ahead, and maybe more;
* `Rule.overrunsAt_bind`, `Rule.overrunsAt_skipUntil`, `Rule.overrunsAt_part` — the forms of rules;
* `Rule.ListOverruns` — an item halts in front of `rest`, and nothing in between stops the skipping;
* `Rule.overrunsAt_gather` — **a list overruns `rest` if and only if that happens**.
-/
import Mathlib.Data.List.TakeWhile
import Cql.Proofs.Guarantees
import Cql.Proofs.Taking
import Cql.Proofs.Yields

namespace Cql

/-- What is ahead was ahead before. -/
theorem State.Takes.isSuffix {first second : State} (takes : first.Takes second) :
    second.stream.ahead <:+ first.stream.ahead := by
  obtain ⟨taken, ahead, -⟩ := takes
  exact ⟨taken, ahead.symm⟩

/-- Some of what is in front of `rest` is taken, and the others are left. -/
theorem State.Takes.exists_front {first second : State} (takes : first.Takes second)
    {front rest : List Token} (ahead : first.stream.ahead = front ++ rest)
    (left : rest <:+ second.stream.ahead) :
    ∃ front', second.stream.ahead = front' ++ rest ∧ front' <:+ front := by
  obtain ⟨taken, whole, -⟩ := takes
  obtain ⟨front', left⟩ := left
  refine ⟨front', left.symm, taken, ?_⟩
  rw [ahead, ← left, ← List.append_assoc] at whole
  exact (List.append_cancel_right whole).symm

namespace Rule

variable {α β : Type} {rest : List Token} {state : State}

/-- From this state the rule takes the first of the tokens `rest`. -/
def OverrunsAt (rest : List Token) (state : State) (rule : Rule α) : Prop :=
  ¬ rest <:+ (rule.run state).state.stream.ahead

/-! ### The forms of rules -/

/-- Two rules in a row take the token if one of them does. -/
theorem overrunsAt_bind {rule : Rule α} {next : α → Rule β} :
    (rule >>= next).OverrunsAt rest state ↔ rule.OverrunsAt rest state ∨
      ∃ a, (rule.run state).result = .ok a ∧ (next a).OverrunsAt rest (rule.run state).state := by
  unfold OverrunsAt
  cases result : (rule.run state).result with
  | error halt => simp [run_bind_of_error result]
  | ok a =>
    rw [run_bind_of_ok result]
    have later := ((next a).run_takes (rule.run state).state).isSuffix
    constructor
    · exact fun overruns => .inr ⟨a, rfl, overruns⟩
    · rintro (overruns | ⟨_, ⟨⟩, overruns⟩)
      · exact fun ahead => overruns (ahead.trans later)
      · exact overruns

theorem overrunsAt_bind_of_not {rule : Rule α} {next : α → Rule β} (h : ¬ rule.OverrunsAt rest state) :
    (rule >>= next).OverrunsAt rest state ↔
      ∃ a, (rule.run state).result = .ok a ∧ (next a).OverrunsAt rest (rule.run state).state :=
  overrunsAt_bind.trans (or_iff_right h)

theorem overrunsAt_attempt {rule : Rule α} :
    (attempt rule).OverrunsAt rest state ↔ rule.OverrunsAt rest state := by
  rw [OverrunsAt, state_attempt, OverrunsAt]

theorem overrunsAt_map {rule : Rule α} {f : α → β} :
    (f <$> rule).OverrunsAt rest state ↔ rule.OverrunsAt rest state := by
  show (rule >>= fun a => pure (f a)).OverrunsAt rest state ↔ _
  rw [overrunsAt_bind]
  refine or_iff_left_of_imp ?_
  rintro ⟨a, -, overruns⟩
  exact overruns

theorem overrunsAt_congr {rule other : Rule α} (same : rule.run = other.run) :
    rule.OverrunsAt rest state ↔ other.OverrunsAt rest state := by
  rw [OverrunsAt, same, OverrunsAt]

section

variable {next : Token} {more : List Token}

/-- A rule that cannot take a token leaves it ahead. -/
theorem TakesOnlyAt.not_overrunsAt {good : TokenKind → Bool} {rule : Rule α}
    (takes : rule.TakesOnlyAt good state) (other : good next.kind = false)
    (ahead : next :: more <:+ state.stream.ahead) : ¬ rule.OverrunsAt (next :: more) state := by
  obtain ⟨taken, whole, inside⟩ := takes.exists_taken
  refine not_not.2 ?_
  rcases List.suffix_or_suffix_of_suffix ahead (rule.run_takes state).isSuffix with left | ⟨front, left⟩
  · exact left
  cases front with
  | nil => exact ⟨[], left.symm⟩
  | cons first front =>
    -- Otherwise the token is among those that are taken.
    obtain ⟨rfl, rfl⟩ := List.cons.inj left
    obtain ⟨before, ahead⟩ := ahead
    have same : before ++ first :: front = taken := by
      refine List.append_cancel_right (Eq.trans ?_ (ahead.trans whole))
      rw [List.append_assoc]
      rfl
    have mem : first ∈ taken := by simp [← same]
    exact absurd (other.symm.trans (inside first mem)) (by simp)

/-- Skipping takes a token that it does not stop at, unless it stops in front of it. -/
theorem overrunsAt_skipUntil {stops : TokenKind → Bool} (skipped : skips stops next = true)
    (ahead : next :: more <:+ state.stream.ahead) :
    (skipUntil stops).OverrunsAt (next :: more) state ↔ ∃ front,
      state.stream.ahead = front ++ next :: more ∧ ∀ token ∈ front, skips stops token = true := by
  obtain ⟨after, reads, left⟩ := exists_reads_skipUntil_dropWhile stops state
  unfold OverrunsAt
  rw [show ((skipUntil stops).run state).state = after from (reads_iff.1 reads).2.1, left]
  obtain ⟨front, ahead⟩ := ahead
  rw [← ahead, List.dropWhile_append]
  constructor
  · intro overruns
    refine ⟨front, rfl, List.dropWhile_eq_nil_iff.1 (not_not.1 fun stopped => ?_)⟩
    rw [if_neg (by simpa using stopped)] at overruns
    exact overruns (List.suffix_append _ _)
  · rintro ⟨front', same, all⟩
    obtain rfl := List.append_cancel_right same
    rw [if_pos (by simpa using all), List.dropWhile_cons_of_pos skipped]
    intro suffix
    have longer := (suffix.trans (List.dropWhile_suffix _)).length_le
    rw [List.length_cons] at longer
    omega

end

/-! ### Lists that may be broken -/

section

variable {separator : TokenKind} {stops : TokenKind → Bool} {item : Rule α}

/-- The item of a part halts in front of `rest`, and all tokens in between are skipped. -/
def PartOverruns (stops : TokenKind → Bool) (item : Rule α) (rest : List Token) (state : State) : Prop :=
  (item.run state).result = .error .recorded ∧ ∃ front,
    (item.run state).state.stream.ahead = front ++ rest ∧ ∀ token ∈ front, skips stops token = true

theorem PartOverruns.isSuffix (h : PartOverruns stops item rest state) : rest <:+ state.stream.ahead := by
  obtain ⟨-, front, cut, -⟩ := h
  exact (List.suffix_append _ _).trans (cut ▸ (item.run_takes state).isSuffix)

/-- One of the parts of a list does so. -/
inductive ListOverruns (separator : TokenKind) (stops : TokenKind → Bool) (item : Rule α)
    (rest : List Token) : State → Prop
  | here {state : State} (overruns : PartOverruns stops item rest state) :
      ListOverruns separator stops item rest state
  | later {state : State} {token : Token} {others : List Token} {result : Option α}
      (read : ((part stops item).run state).result = .ok result)
      (ahead : ((part stops item).run state).state.stream.ahead = token :: others)
      (separates : token.kind = separator)
      (overruns : ListOverruns separator stops item rest ((part stops item).run state).state.advance) :
      ListOverruns separator stops item rest state

theorem ListOverruns.isSuffix (h : ListOverruns separator stops item rest state) :
    rest <:+ state.stream.ahead := by
  induction h with
  | here overruns => exact overruns.isSuffix
  | @later state _ _ _ _ _ _ _ ih =>
    have advanced := (State.takes_kept.advance ((part stops item).run state).state).isSuffix
    exact ih.trans (advanced.trans ((part stops item).run_takes state).isSuffix)

theorem state_separated : ((separated separator item).run state).state =
    match (item.run state).result with
    | .ok _ => ((following separator item).run (item.run state).state).state
    | .error _ => (item.run state).state := by
  unfold separated
  cases result : (item.run state).result with
  | error halt => rw [run_bind_of_error result]
  | ok a =>
    rw [run_bind_of_ok result]
    cases others : ((following separator item).run (item.run state).state).result with
    | error halt => rw [run_bind_of_error others]
    | ok as =>
      rw [run_bind_of_ok others]
      rfl

/-- Behind a separator, a list goes on like one that begins there. -/
theorem state_following {token : Token} {others : List Token}
    (ahead : state.stream.ahead = token :: others) (separates : token.kind = separator) :
    ((following separator item).run state).state =
      ((separated separator item).run state.advance).state := by
  have opened : decide (token.kind = separator) = true := decide_eq_true separates
  rw [state_separated]
  unfold following
  cases result : (item.run state.advance).result with
  | error halt => rw [run_many_of_error ahead opened result]
  | ok a => rw [run_many_of_ok ahead opened result rfl]

section

variable {next : Token} {more : List Token} {good : TokenKind → Bool} (takes : item.TakesOnly good)
  (other : good next.kind = false)
include takes other

theorem overrunsAt_part (skipped : skips stops next = true) (ahead : next :: more <:+ state.stream.ahead) :
    (part stops item).OverrunsAt (next :: more) state ↔ PartOverruns stops item (next :: more) state := by
  have left := (takes state).not_overrunsAt other ahead
  unfold part
  rw [overrunsAt_bind_of_not (overrunsAt_attempt.not.2 left), state_attempt]
  constructor
  · rintro ⟨result, found, overruns⟩
    cases result with
    | some a => exact absurd overruns left
    | none =>
      refine ⟨attempt_eq_ok_none.1 found, (overrunsAt_skipUntil skipped (not_not.1 left)).1 ?_⟩
      exact overrunsAt_map.1 overruns
  · rintro ⟨halts, cut⟩
    refine ⟨none, attempt_eq_ok_none.2 halts, ?_⟩
    exact overrunsAt_map.2 ((overrunsAt_skipUntil skipped (not_not.1 left)).2 cut)

/-- A list overruns `rest` if and only if one of its parts does. -/
theorem overrunsAt_separated (skipped : skips stops next = true) (inside : next.kind ≠ separator)
    (ahead : next :: more <:+ state.stream.ahead) :
    (separated separator (part stops item)).OverrunsAt (next :: more) state ↔
      ListOverruns separator stops item (next :: more) state := by
  constructor
  · -- Each part takes a separator in front of it, so the induction is on how many tokens are ahead.
    generalize bound : state.stream.ahead.length = n
    induction n using Nat.strongRecOn generalizing state with
    | ind n ih =>
      intro overruns
      by_cases broken : PartOverruns stops item (next :: more) state
      · exact .here broken
      have left := not_not.1 ((overrunsAt_part takes other skipped ahead).not.2 broken)
      unfold OverrunsAt at overruns
      rw [state_separated] at overruns
      cases read : ((part stops item).run state).result with
      | error halt =>
        rw [read] at overruns
        exact absurd left overruns
      | ok result =>
        simp only [read] at overruns
        obtain ⟨token, others, ahead'⟩ : ∃ token others,
            ((part stops item).run state).state.stream.ahead = token :: others :=
          List.exists_cons_of_ne_nil fun empty => by simp [empty] at left
        by_cases separates : token.kind = separator
        · rw [state_following ahead' separates] at overruns
          have behind : next :: more <:+ others := by
            rw [ahead'] at left
            refine (List.suffix_cons_iff.1 left).resolve_left fun same => inside ?_
            rw [(List.cons.inj same).1]
            exact separates
          have shorter := ((part stops item).run_takes state).length_le
          rw [ahead', List.length_cons, bound] at shorter
          have later := State.ahead_advance ahead'
          exact .later read ahead' separates
            (ih others.length shorter (by rwa [later]) (by rw [later]) overruns)
        · have closed : decide (token.kind = separator) = false := decide_eq_false separates
          unfold following at overruns
          rw [run_many_of_closed ahead' closed] at overruns
          exact absurd left overruns
  · intro overruns
    clear ahead
    induction overruns with
    | @here state overruns =>
      exact overrunsAt_bind.2 (.inl ((overrunsAt_part takes other skipped overruns.isSuffix).2 overruns))
    | @later state token others result read ahead' separates overruns ih =>
      unfold OverrunsAt
      rw [state_separated]
      simp only [read]
      rw [state_following ahead' separates]
      exact ih

end

/-- **A list that may be broken** takes the first of the tokens `next :: more` if and only if an item
halts in front of them and nothing in between ends the skipping. -/
theorem overrunsAt_gather {item : Rule (Option α)} {next : Token} {more : List Token}
    {good : TokenKind → Bool} (takes : item.TakesOnly good) (other : good next.kind = false)
    (inside : next.kind ≠ separator) (skipped : skips stops next = true)
    (ahead : next :: more <:+ state.stream.ahead) :
    (gather separator stops item).OverrunsAt (next :: more) state ↔
      ListOverruns separator (fun kind => kind = separator || stops kind) item (next :: more) state := by
  obtain ⟨goesOn, noEnd⟩ := skips_iff.1 skipped
  have skipped' : skips (fun kind => kind = separator || stops kind) next = true :=
    skips_iff.2 ⟨by simp [inside, goesOn], noEnd⟩
  rw [← overrunsAt_separated takes other skipped' inside ahead, OverrunsAt, state_gather, OverrunsAt]

end

end Rule

end Cql
