/-
What a rule guarantees, unless it ends the parse.

A rule that recovers from what goes wrong comes to a value, and what matters are the value, the tokens
that are left and the reports on the way.  A guarantee speaks of these three.  A fatal problem ends the
parse, so nothing has to hold behind it; but a halt that callers could recover from breaks a guarantee.

* `Rule.Ensures` — the rule comes to a value, and a property holds of it, of the state after it and of
  the reports, unless it is fatal;
* `Rule.Ensures.bind`, `Rule.Ensures.attempt`, `Rule.Ensures.many_cons` — the forms of rules;
* `Rule.exists_reads_skipUntil_dropWhile`, `Rule.exists_reads_skipUntil` — skipping ends in front of the
  first token that stops it, and not before.
-/
import Cql.Proofs.ReportOrder

namespace Cql

namespace Rule

variable {α β : Type}

/-- From `state` the rule comes to a value, and `P` holds of the value, of the state after it and of the
reports; or the rule is fatal. -/
def Ensures (rule : Rule α) (state : State) (P : α → State → List Report → Prop) : Prop :=
  match (rule.run state).result with
  | .ok a => P a (rule.run state).state (rule.run state).reports
  | .error halt => halt = .fatal

namespace Ensures

variable {state : State} {P Q : α → State → List Report → Prop}

theorem of_reads {rule : Rule α} {a : α} {after : State} (reads : rule.Reads state a after)
    (h : P a after []) : rule.Ensures state P := by
  obtain ⟨result, rfl, silent⟩ := reads_iff.1 reads
  unfold Ensures
  rw [result, silent]
  exact h

theorem mono {rule : Rule α} (h : rule.Ensures state P)
    (weaker : ∀ a after reports, P a after reports → Q a after reports) : rule.Ensures state Q := by
  unfold Ensures at h ⊢
  split at h
  · exact weaker _ _ _ h
  · exact h

theorem of_ok {rule : Rule α} {a : α} (h : rule.Ensures state P)
    (result : (rule.run state).result = .ok a) :
    P a (rule.run state).state (rule.run state).reports := by
  unfold Ensures at h
  rwa [result] at h

theorem eq_fatal {rule : Rule α} {halt : Halt} (h : rule.Ensures state P)
    (result : (rule.run state).result = .error halt) : halt = .fatal := by
  unfold Ensures at h
  rwa [result] at h

/-- What is guaranteed are the value, the state and the reports of the run. -/
theorem with_run {rule : Rule α} (h : rule.Ensures state P) :
    rule.Ensures state fun a after reports =>
      rule.run state = ⟨.ok a, after, reports⟩ ∧ P a after reports := by
  unfold Ensures at h ⊢
  split at h
  · rename_i result
    exact ⟨by rw [← result], h⟩
  · exact h

/-- What is taken are tokens ahead. -/
theorem with_takes {rule : Rule α} (h : rule.Ensures state P) :
    rule.Ensures state fun a after reports => state.Takes after ∧ P a after reports := by
  refine h.with_run.mono fun a after reports ⟨run, holds⟩ => ⟨?_, holds⟩
  have takes := rule.run_takes state
  rwa [run] at takes

theorem pure {a : α} (h : P a state []) : (pure a : Rule α).Ensures state P := h

theorem bind {rule : Rule α} {next : α → Rule β} {P : β → State → List Report → Prop}
    (h : rule.Ensures state fun a mid reports =>
      (next a).Ensures mid fun b after reports' => P b after (reports ++ reports')) :
    (rule >>= next).Ensures state P := by
  show match (Run.andThen rule.run (fun a => (next a).run) state).result with
    | .ok b => P b (Run.andThen rule.run (fun a => (next a).run) state).state
        (Run.andThen rule.run (fun a => (next a).run) state).reports
    | .error halt => halt = .fatal
  unfold Ensures at h
  unfold Run.andThen
  cases result : (rule.run state).result with
  | ok a => simpa only [result] using h
  | error halt => simpa only [result] using h

/-- A rule that reads its value without a report, then another. -/
theorem bind_reads {rule : Rule α} {next : α → Rule β} {P : β → State → List Report → Prop} {a : α}
    {mid : State} (reads : rule.Reads state a mid) (h : (next a).Ensures mid P) :
    (rule >>= next).Ensures state P :=
  .bind (.of_reads reads (by simpa only [List.nil_append] using h))

theorem map {rule : Rule α} {f : α → β} {P : β → State → List Report → Prop}
    (h : rule.Ensures state fun a after reports => P (f a) after reports) :
    (f <$> rule).Ensures state P :=
  .bind (h.mono fun a after reports holds => .pure (by simpa only [List.append_nil] using holds))

theorem kind_bind {next : TokenKind → Rule β} {P : β → State → List Report → Prop}
    (h : (next state.kind).Ensures state P) : (Rule.kind >>= next).Ensures state P := h

theorem position_bind {next : Nat → Rule β} {P : β → State → List Report → Prop}
    (h : (next state.stream.position).Ensures state P) : (position >>= next).Ensures state P := h

theorem here_bind {next : Place → Rule β} {P : β → State → List Report → Prop}
    (h : (next (.token state.stream.position)).Ensures state P) : (here >>= next).Ensures state P := h

theorem since_bind {first : Nat} {next : Place → Rule β} {P : β → State → List Report → Prop}
    (h : (next (.stretch first (state.stream.position - 1))).Ensures state P) :
    (since first >>= next).Ensures state P := h

theorem advance_bind {next : Unit → Rule β} {P : β → State → List Report → Prop}
    (h : (next ()).Ensures state.advance P) : (Rule.advance >>= next).Ensures state P := h

theorem report {problem : Problem} {place : Place} {P : Unit → State → List Report → Prop}
    (h : P () state [⟨problem, place⟩]) : (report problem place).Ensures state P := h

/-- A rule that may halt: what holds where it comes to a value, and where it does not. -/
theorem attempt {rule : Rule α} {P : Option α → State → List Report → Prop}
    (value : ∀ a, (rule.run state).result = .ok a →
      P (some a) (rule.run state).state (rule.run state).reports)
    (halted : (rule.run state).result = .error .recorded →
      P none (rule.run state).state (rule.run state).reports) : (attempt rule).Ensures state P := by
  unfold Ensures run Run.attempt
  cases result : (rule.run state).result with
  | ok a => simpa only [result] using value a result
  | error halt =>
    cases halt with
    | recorded => simpa only [result] using halted result
    | fatal => simp only [result]

section

variable {opens : TokenKind → Bool} {item : Lexeme → Rule α} {P : List α → State → List Report → Prop}
  {token : Token} {rest : List Token} (ahead : state.stream.ahead = token :: rest)
include ahead

/-- A list ends in front of a token that does not open an item. -/
theorem many_nil (closed : opens token.kind = false) (h : P [] state []) :
    (many opens (fun _ => true) item).Ensures state P := by
  refine of_reads (reads_many.2 (.stop ?_)) h
  rw [ahead]
  simpa using closed

/-- One item of a list, then the others. -/
theorem many_cons (opened : opens token.kind = true)
    (h : (item token.toLexeme).Ensures state.advance fun a mid reports =>
      (many opens (fun _ => true) item).Ensures mid fun as after reports' =>
        P (a :: as) after (reports ++ reports')) :
    (many opens (fun _ => true) item).Ensures state P := by
  unfold Ensures at h ⊢
  rw [run_many]
  simp only [ahead, opened, if_true]
  cases result : ((item token.toLexeme).run state.advance).result with
  | error halt => simpa only [result] using h
  | ok a =>
    simp only [result] at h ⊢
    cases others : ((many opens (fun _ => true) item).run
        ((item token.toLexeme).run state.advance).state).result with
    | error halt => simpa only [others, Except.map] using h
    | ok as => simpa only [others, Except.map] using h

end

end Ensures

/-! ### Skipping -/

/-- Is the token skipped? -/
def skips (stops : TokenKind → Bool) (token : Token) : Bool :=
  !stops token.kind && token.kind ≠ .endOfInput

theorem skips_iff {stops : TokenKind → Bool} {token : Token} :
    skips stops token = true ↔ stops token.kind = false ∧ token.kind ≠ .endOfInput := by
  simp [skips]

/-- Skipping goes on as long as it can. -/
theorem exists_reads_skipUntil_dropWhile (stops : TokenKind → Bool) (state : State) :
    ∃ after, (skipUntil stops).Reads state () after ∧
      after.stream.ahead = state.stream.ahead.dropWhile (skips stops) := by
  have list : ∃ units after, ReadsMany (fun kind => !stops kind && kind ≠ .endOfInput) (fun _ => true)
      (fun _ => done ()) state units after ∧
        after.stream.ahead = state.stream.ahead.dropWhile (skips stops) := by
    generalize tokens : state.stream.ahead = ahead
    induction ahead generalizing state with
    | nil => exact ⟨[], state, .stop (by simp [tokens]), tokens⟩
    | cons first rest ih =>
      cases skipped : skips stops first with
      | false =>
        refine ⟨[], state, .stop (by simpa [tokens, skips] using skipped), ?_⟩
        rw [tokens, List.dropWhile_cons_of_neg (by simp [skipped])]
      | true =>
        obtain ⟨units, after, others, atStop⟩ := ih state.advance (State.ahead_advance tokens)
        refine ⟨() :: units, after, .more tokens skipped (reads_pure.2 ⟨rfl, rfl⟩) rfl others, ?_⟩
        rw [atStop, List.dropWhile_cons_of_pos skipped]
  obtain ⟨units, after, list, atStop⟩ := list
  exact ⟨after, reads_bind.2 ⟨units, after, reads_many.2 list, reads_pure.2 ⟨rfl, rfl⟩⟩, atStop⟩

/-- Skipping ends in front of the first token that stops it. -/
theorem exists_reads_skipUntil {stops : TokenKind → Bool} {state : State} {skipped rest : List Token}
    {token : Token} (ahead : state.stream.ahead = skipped ++ token :: rest)
    (passes : ∀ token ∈ skipped, stops token.kind = false ∧ token.kind ≠ .endOfInput)
    (stop : stops token.kind = true) :
    ∃ after, (skipUntil stops).Reads state () after ∧ after.stream.ahead = token :: rest := by
  obtain ⟨after, reads, atStop⟩ := exists_reads_skipUntil_dropWhile stops state
  refine ⟨after, reads, ?_⟩
  rw [atStop, ahead, List.dropWhile_append_of_pos fun token mem => skips_iff.2 (passes token mem),
    List.dropWhile_cons_of_neg (by simp [skips, stop])]

end Rule

end Cql
