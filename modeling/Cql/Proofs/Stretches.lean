/-
Lists, stretch by stretch.

The tokens of a list are cut into stretches with separators between them, and the rule for an item makes
of each stretch what it can: it takes the whole stretch, or it fails somewhere on it.  What is left of a
stretch is skipped, as long as the rule has not failed behind its end; so the list goes on with the next
stretch as if nothing had been wrong with this one.

* `Rule.Makes` — what a rule makes of the stretch between two states;
* `Rule.ConfinedTo` — the rule does not get past the end of the stretch;
* `Joined` — stretches with separators between them, up to a token that ends the list;
* `Rule.reads_skipUntil_of_takes` — skipping to the end of a stretch;
* `Joined.exists_run_list` — **a list goes over its stretches**, if the rule for an item does.
-/
import Mathlib.Data.List.Forall2
import Mathlib.Logic.Function.Iterate
import Cql.Proofs.Explanations
import Cql.Proofs.Overruns
import Cql.Proofs.Recognition

namespace Cql

/-- Tokens of a list, the result that they come to if they are not broken, and what is reported of them. -/
structure Stretch (α : Type) where
  tokens : List Token
  result? : Option α
  reports : List Report

/-- A number of tokens further on. -/
theorem State.takes_iterate (state : State) (n : Nat) : state.Takes (State.advance^[n] state) := by
  induction n generalizing state with
  | zero => exact State.takes_kept.refl state
  | succ n ih => exact State.takes_kept.trans (State.takes_kept.advance state) (ih state.advance)

namespace State.Takes

variable {state first second : State}

/-- Of two states that are found by taking tokens from one, the one with fewer tokens ahead is found from
the other. -/
theorem of_isSuffix (takes : state.Takes first) (takes' : state.Takes second)
    (shorter : second.stream.ahead <:+ first.stream.ahead) : first.Takes second := by
  obtain ⟨taken, ahead, passed, final⟩ := takes
  obtain ⟨taken', ahead', passed', final'⟩ := takes'
  obtain ⟨front, cut⟩ := shorter
  have same : (taken ++ front) ++ second.stream.ahead = taken' ++ second.stream.ahead := by
    rw [List.append_assoc, cut, ← ahead, ahead']
  have whole := List.append_cancel_right same
  refine ⟨front, cut.symm, ?_, final'.trans final.symm⟩
  rw [passed', passed, ← whole, List.reverse_append, List.append_assoc]

/-- A state with the same tokens ahead and the same markers is the same. -/
theorem eq_of_ahead (takes : first.Takes second) (ahead : first.stream.ahead = second.stream.ahead)
    (markers : second.markers = first.markers) : first = second := by
  obtain ⟨taken, cut, passed, final⟩ := takes
  obtain rfl : taken = [] := List.append_cancel_right ((cut.symm.trans ahead).trans (List.nil_append _).symm)
  obtain ⟨⟨passed₁, ahead₁, final₁⟩, markers₁⟩ := first
  obtain ⟨⟨passed₂, ahead₂, final₂⟩, markers₂⟩ := second
  simp_all

end State.Takes

namespace Rule

variable {α β : Type} {state : State}

/-- What the rule makes of the stretch up to the second state.  It may take the whole stretch and come to a
value that is judged to be good.  Or it may halt, or come to a value that is not; then the tokens of the
stretch are all of a kind that may be skipped. -/
inductive Makes (item : Rule β) (judge : β → Option α) (inside : TokenKind → Bool) (state : State) :
    Stretch α → State → Prop
  | whole {tokens : List Token} {b : β} {a : α} {reports : List Report} {after : State}
      (run : item.run state = ⟨.ok b, after, reports⟩) (good : judge b = some a)
      (ahead : state.stream.ahead = tokens ++ after.stream.ahead) :
      Makes item judge inside state ⟨tokens, some a, reports⟩ after
  | broken {tokens : List Token} {after : State}
      (fails : (item.run state).result = .error .recorded ∨
        ∃ b, (item.run state).result = .ok b ∧ judge b = none)
      (takes : state.Takes after) (ahead : state.stream.ahead = tokens ++ after.stream.ahead)
      (markers : after.markers = (item.run state).state.markers)
      (all : ∀ token ∈ tokens, inside token.kind = true) :
      Makes item judge inside state ⟨tokens, none, (item.run state).reports⟩ after

theorem Makes.ahead {item : Rule β} {judge : β → Option α} {inside : TokenKind → Bool}
    {stretch : Stretch α} {after : State} (makes : item.Makes judge inside state stretch after) :
    state.stream.ahead = stretch.tokens ++ after.stream.ahead := by
  cases makes with
  | whole run good ahead => exact ahead
  | broken fails takes ahead markers all => exact ahead

/-- A broken stretch is reported, if the rule judges all to be good that it reads without a report. -/
theorem Makes.reports_ne_nil {item : Rule β} {judge : β → Option α} {inside : TokenKind → Bool}
    {stretch : Stretch α} {after : State} (makes : item.Makes judge inside state stretch after)
    (sound : ∀ b last, item.Reads state b last → judge b ≠ none) (broken : stretch.result? = none) :
    stretch.reports ≠ [] := by
  cases makes with
  | whole => cases broken
  | broken fails =>
    rcases fails with halts | ⟨b, found, bad⟩
    · exact Rule.reports_ne_nil halts
    · exact fun silent => sound b _ (reads_iff.2 ⟨found, rfl, silent⟩) bad

/-- Where it ends, the rule has not taken the token right behind the stretch. -/
def ConfinedTo (item : Rule β) (state after : State) : Prop := ¬ item.OverrunsAt after.stream.ahead state

/-- A rule does not get past a token that it cannot take. -/
theorem ConfinedTo.of_takes {item : Rule β} {good : TokenKind → Bool} {after : State} {tokens : List Token}
    (takes : item.TakesOnly good) (ahead : state.stream.ahead = tokens ++ after.stream.ahead)
    (other : good after.kind = false) : item.ConfinedTo state after := by
  unfold ConfinedTo
  cases left : after.stream.ahead with
  | nil => exact not_not.2 List.nil_suffix
  | cons next more =>
    rw [State.kind_of_ahead left] at other
    exact (takes state).not_overrunsAt other ⟨tokens, by rw [ahead, left]⟩

/-- A rule that takes the whole stretch ends right behind it. -/
theorem Makes.confinedTo {item : Rule β} {judge : β → Option α} {inside : TokenKind → Bool}
    {stretch : Stretch α} {after : State} (makes : item.Makes judge inside state stretch after)
    (whole : stretch.result? ≠ none) : item.ConfinedTo state after := by
  cases makes with
  | whole run good ahead =>
    have atEnd : (item.run state).state = after := congrArg Reply.state run
    exact not_not.2 (atEnd ▸ List.suffix_refl _)
  | broken => exact absurd rfl whole

/-! ### Skipping -/

/-- Tokens that do not stop it are skipped, up to one that does. -/
theorem reads_skipUntil_of_takes {stops : TokenKind → Bool} {after : State} {tokens : List Token}
    (takes : state.Takes after) (ahead : state.stream.ahead = tokens ++ after.stream.ahead)
    (markers : after.markers = state.markers) (all : ∀ token ∈ tokens, skips stops token = true)
    (stop : stops after.kind = true ∨ after.kind = .endOfInput) :
    (skipUntil stops).Reads state () after := by
  have list : ∃ units, ReadsMany (fun kind => !stops kind && kind ≠ .endOfInput) (fun _ => true)
      (fun _ => done ()) state units after := by
    induction tokens generalizing state with
    | nil =>
      obtain rfl := takes.eq_of_ahead ahead markers
      refine ⟨[], .stop fun token mem => ?_⟩
      obtain ⟨rest, ahead⟩ := List.head?_eq_some_iff.1 mem
      rw [← State.kind_of_ahead ahead]
      rcases stop with stop | stop <;> simp [stop]
    | cons token tokens ih =>
      obtain ⟨skipped, all⟩ := List.forall_mem_cons.1 all
      have advanced : state.advance.stream.ahead = tokens ++ after.stream.ahead := State.ahead_advance ahead
      have takes' : state.advance.Takes after :=
        (State.takes_kept.advance state).of_isSuffix takes (by rw [advanced]; exact List.suffix_append _ _)
      obtain ⟨units, others⟩ := ih takes' advanced markers all
      exact ⟨() :: units, .more ahead skipped (reads_pure.2 ⟨rfl, rfl⟩) rfl others⟩
  obtain ⟨units, list⟩ := list
  exact reads_bind.2 ⟨units, after, reads_many.2 list, reads_pure.2 ⟨rfl, rfl⟩⟩

/-- What a rule has left of a stretch is skipped, and then the list has what the rule came to. -/
theorem ConfinedTo.reads_skipUntil {item : Rule β} {inside stops : TokenKind → Bool} {after : State}
    {tokens : List Token} (confined : item.ConfinedTo state after) (takes : state.Takes after)
    (ahead : state.stream.ahead = tokens ++ after.stream.ahead)
    (markers : after.markers = (item.run state).state.markers)
    (all : ∀ token ∈ tokens, inside token.kind = true)
    (skipped : ∀ token : Token, inside token.kind = true → skips stops token = true)
    (stop : stops after.kind = true ∨ after.kind = .endOfInput) (a : α) :
    (do skipUntil stops; return a : Rule α).Reads (item.run state).state a after := by
  -- The rule has taken some of the stretch, and the others are still ahead.
  have left := not_not.1 confined
  obtain ⟨front, ahead', within⟩ := (item.run_takes state).exists_front ahead left
  have skip := reads_skipUntil_of_takes ((item.run_takes state).of_isSuffix takes left) ahead' markers
    (fun token mem => skipped token (all token (within.subset mem))) stop
  exact reads_bind.2 ⟨(), after, skip, reads_pure.2 ⟨rfl, rfl⟩⟩

theorem run_bind_of_run {rule : Rule α} {next : α → Rule β} {a : α} {b : β} {mid after : State}
    {reports reports' : List Report} (first : rule.run state = ⟨.ok a, mid, reports⟩)
    (second : (next a).run mid = ⟨.ok b, after, reports'⟩) :
    (rule >>= next).run state = ⟨.ok b, after, reports ++ reports'⟩ := by
  rw [run_bind_of_ok (congrArg Reply.result first), first]
  simp only [second]

/-- What is read without a report behind a rule leaves its reports as they are. -/
theorem run_bind_of_reads {rule : Rule α} {next : α → Rule β} {a : α} {b : β} {mid after : State}
    {reports : List Report} (first : rule.run state = ⟨.ok a, mid, reports⟩)
    (second : (next a).Reads mid b after) : (rule >>= next).run state = ⟨.ok b, after, reports⟩ := by
  rw [run_bind_of_run first second, List.append_nil]

theorem run_attempt_of_ok {item : Rule β} {b : β} (found : (item.run state).result = .ok b) :
    (attempt item).run state = ⟨.ok (some b), (item.run state).state, (item.run state).reports⟩ := by
  show Run.attempt item.run state = _
  simp [Run.attempt, found]

theorem run_attempt_of_recorded {item : Rule β} (halts : (item.run state).result = .error .recorded) :
    (attempt item).run state = ⟨.ok none, (item.run state).state, (item.run state).reports⟩ := by
  show Run.attempt item.run state = _
  simp [Run.attempt, halts]

/-- Where no separator comes, a list ends. -/
theorem run_following_of_ne {separator : TokenKind} {next : Rule β} (other : state.kind ≠ separator) :
    (following separator next).run state = ⟨.ok [], state, []⟩ := by
  cases ahead : state.stream.ahead with
  | nil => exact run_many_of_nil ahead
  | cons token rest =>
    rw [State.kind_of_ahead ahead] at other
    exact run_many_of_closed ahead (decide_eq_false other)

/-- Where a separator comes, a list goes on with an item behind it. -/
theorem run_following_of_run {separator : TokenKind} {next : Rule β} {b : β} {bs : List β} {mid after : State}
    {reports reports' : List Report} (separates : state.kind = separator) (inside : separator ≠ .endOfInput)
    (first : next.run state.advance = ⟨.ok b, mid, reports⟩)
    (others : (following separator next).run mid = ⟨.ok bs, after, reports'⟩) :
    (following separator next).run state = ⟨.ok (b :: bs), after, reports ++ reports'⟩ := by
  obtain ⟨token, rest, ahead, -⟩ := State.ahead_of_inside (separates ▸ inside)
  have opened : decide (token.kind = separator) = true := by
    rw [← State.kind_of_ahead ahead, separates]
    exact decide_eq_true rfl
  unfold following at others ⊢
  rw [run_many_of_ok ahead opened (congrArg Reply.result first) rfl, first]
  simp only [others]
  rfl

/-- A part of a list that may be broken makes of a stretch what its item does. -/
theorem Makes.run_part {item : Rule α} {inside stops : TokenKind → Bool} {stretch : Stretch α}
    {after : State} (makes : item.Makes some inside state stretch after)
    (confined : item.ConfinedTo state after)
    (skipped : ∀ token : Token, inside token.kind = true → skips stops token = true)
    (stop : stops after.kind = true ∨ after.kind = .endOfInput) :
    (part stops item).run state = ⟨.ok stretch.result?, after, stretch.reports⟩ := by
  unfold part
  cases makes with
  | whole run good =>
    obtain rfl := Option.some.inj good
    have tried := run_attempt_of_ok (congrArg Reply.result run)
    rw [run] at tried
    exact run_bind_of_reads tried (reads_pure.2 ⟨rfl, rfl⟩)
  | broken fails takes ahead markers all =>
    have halts : (item.run state).result = .error .recorded := by
      rcases fails with halts | ⟨a, -, bad⟩
      · exact halts
      · cases bad
    exact run_bind_of_reads (run_attempt_of_recorded halts)
      (confined.reads_skipUntil takes ahead markers all skipped stop none)

end Rule

/-! ### Stretches in a row -/

/-- Stretches with separators between them, up to a token that ends the list. -/
inductive Joined {α : Type} (makes : State → Stretch α → State → Prop) (separator : TokenKind)
    (ends : TokenKind → Prop) : State → List (Stretch α) → State → Prop
  | last {state after : State} {stretch : Stretch α} (one : makes state stretch after)
      (isLast : ends after.kind) : Joined makes separator ends state [stretch] after
  | more {state mid after : State} {stretch : Stretch α} {stretches : List (Stretch α)}
      (one : makes state stretch mid) (separates : mid.kind = separator)
      (others : Joined makes separator ends mid.advance stretches after) :
      Joined makes separator ends state (stretch :: stretches) after

namespace Joined

variable {α β : Type} {makes : State → Stretch α → State → Prop} {separator : TokenKind}
  {ends : TokenKind → Prop} {state after : State} {stretches : List (Stretch α)}

theorem end_kind (h : Joined makes separator ends state stretches after) : ends after.kind := by
  induction h with
  | last one isLast => exact isLast
  | more one separates others ih => exact ih

/-- What holds of every stretch that a rule makes something of holds of all. -/
theorem forall_mem (h : Joined makes separator ends state stretches after) {P : Stretch α → Prop}
    (holds : ∀ state stretch after, makes state stretch after → P stretch) :
    ∀ stretch ∈ stretches, P stretch := by
  induction h with
  | last one isLast => exact List.forall_mem_singleton.2 (holds _ _ _ one)
  | more one separates others ih => exact List.forall_mem_cons.2 ⟨holds _ _ _ one, ih⟩

section

variable {next : Rule β} {R : Stretch α → β → Prop} (inside : separator ≠ .endOfInput)
  (apart : ∀ kind, ends kind → kind ≠ separator)
  (goesOver : ∀ state stretch after, makes state stretch after → after.kind = separator ∨ ends after.kind →
    ∃ b, next.run state = ⟨.ok b, after, stretch.reports⟩ ∧ R stretch b)

include inside apart goesOver

/-- Behind a separator, a list goes over the stretches that come next. -/
theorem exists_run_following (h : Joined makes separator ends state stretches after) {before : State}
    (separates : before.kind = separator) (same : before.advance = state) :
    ∃ bs, (Rule.following separator next).run before = ⟨.ok bs, after, stretches.flatMap (·.reports)⟩ ∧
      List.Forall₂ R stretches bs := by
  induction h generalizing before with
  | last one isLast =>
    obtain ⟨b, run, holds⟩ := goesOver _ _ _ one (.inr isLast)
    rw [← same] at run
    have run' := Rule.run_following_of_run separates inside run (Rule.run_following_of_ne (apart _ isLast))
    exact ⟨[b], by simpa using run', .cons holds .nil⟩
  | more one separates' others ih =>
    obtain ⟨b, run, holds⟩ := goesOver _ _ _ one (.inl separates')
    rw [← same] at run
    obtain ⟨bs, run', holds'⟩ := ih separates' rfl
    exact ⟨b :: bs, Rule.run_following_of_run separates inside run run', .cons holds holds'⟩

/-- **A list goes over its stretches.**  Let the rules for its items come over each stretch to its end,
with its reports, and to a result that is related to it.  Then the list comes over all the stretches to
their end, with their reports in order, and its items are related to them one by one. -/
theorem exists_run_list (h : Joined makes separator ends state stretches after) {first : Rule β}
    (goesOverFirst : ∀ state stretch after, makes state stretch after →
      after.kind = separator ∨ ends after.kind →
        ∃ b, first.run state = ⟨.ok b, after, stretch.reports⟩ ∧ R stretch b) :
    ∃ b bs mid reports reports', first.run state = ⟨.ok b, mid, reports⟩ ∧
      (Rule.following separator next).run mid = ⟨.ok bs, after, reports'⟩ ∧
      reports ++ reports' = stretches.flatMap (·.reports) ∧ List.Forall₂ R stretches (b :: bs) := by
  cases h with
  | last one isLast =>
    obtain ⟨b, run, holds⟩ := goesOverFirst _ _ _ one (.inr isLast)
    exact ⟨b, [], after, _, [], run, Rule.run_following_of_ne (apart _ isLast), by simp, .cons holds .nil⟩
  | more one separates others =>
    obtain ⟨b, run, holds⟩ := goesOverFirst _ _ _ one (.inl separates)
    obtain ⟨bs, run', holds'⟩ := others.exists_run_following inside apart goesOver separates rfl
    exact ⟨b, bs, _, _, _, run, run', rfl, .cons holds holds'⟩

end

end Joined

end Cql
