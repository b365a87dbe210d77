/-
Tokens behind the end of the input.

A stream is prolonged when its end mark becomes an ordinary token and more tokens come behind it.  The
tokens up to the old end mark stay what they were, so a rule that never takes an end of input, and never
looks behind one, does on the longer stream what it did on the shorter one.

* `TokenStream.prolong`, `State.prolong`, `Reply.prolong` — the same with more tokens behind the end;
* `Rule.HeedsEndAt` — from this state the rule does the same whatever stands behind the end;
* `Rule.HeedsEndAt.bind`, `Rule.HeedsEndAt.many_step` — rules in a row, and one round of a list;
* `Rule.HeedsEnd` — the same for all states, with a law for each form of rules.
-/
import Cql.Proofs.Recognition

namespace Cql

/-- The end mark becomes an ordinary token, with more tokens and another end mark behind it. -/
def TokenStream.prolong (more : List Token) (final : EndMark) (stream : TokenStream) : TokenStream :=
  ⟨stream.passed, stream.ahead ++ stream.final.token :: more, final⟩

namespace State

variable {more : List Token} {final : EndMark} {state : State}

def prolong (more : List Token) (final : EndMark) (state : State) : State :=
  { state with stream := state.stream.prolong more final }

@[simp] theorem position_prolong :
    (state.prolong more final).stream.position = state.stream.position := rfl

@[simp] theorem lexeme_prolong : (state.prolong more final).lexeme 0 = state.lexeme 0 := by
  cases ahead : state.stream.ahead <;> simp [lexeme, TokenStream.peek, prolong, TokenStream.prolong, ahead]

@[simp] theorem kind_prolong : (state.prolong more final).kind = state.kind :=
  congrArg Lexeme.kind lexeme_prolong

/-- The token after the current one is the same, unless the current one is the end mark. -/
theorem lexeme_one_prolong (inside : state.kind ≠ .endOfInput) :
    (state.prolong more final).lexeme 1 = state.lexeme 1 := by
  obtain ⟨token, rest, ahead, -⟩ := ahead_of_inside inside
  cases rest <;> simp [lexeme, TokenStream.peek, prolong, TokenStream.prolong, ahead]

theorem ahead_prolong_nil (ahead : state.stream.ahead = []) :
    (state.prolong more final).stream.ahead = state.stream.final.token :: more := by
  simp [prolong, TokenStream.prolong, ahead]

theorem ahead_prolong_cons {token : Token} {rest : List Token}
    (ahead : state.stream.ahead = token :: rest) :
    (state.prolong more final).stream.ahead = token :: (rest ++ state.stream.final.token :: more) := by
  simp [prolong, TokenStream.prolong, ahead]

/-- Taking a token in front of the end mark. -/
theorem advance_prolong {token : Token} {rest : List Token}
    (ahead : state.stream.ahead = token :: rest) :
    (state.prolong more final).advance = state.advance.prolong more final := by
  simp [advance, TokenStream.advance, prolong, TokenStream.prolong, ahead]

theorem advance_prolong_of_inside (inside : state.kind ≠ .endOfInput) :
    (state.prolong more final).advance = state.advance.prolong more final := by
  obtain ⟨token, rest, ahead, -⟩ := ahead_of_inside inside
  exact advance_prolong ahead

end State

def Reply.prolong {α : Type} (more : List Token) (final : EndMark) (reply : Reply α) : Reply α :=
  { reply with state := reply.state.prolong more final }

namespace Rule

variable {α β : Type} {state : State}

/-- From this state the rule does the same, whatever stands behind the end of the input. -/
def HeedsEndAt (state : State) (rule : Rule α) : Prop :=
  ∀ more final, rule.run (state.prolong more final) = (rule.run state).prolong more final

namespace HeedsEndAt

theorem pure (a : α) : (pure a : Rule α).HeedsEndAt state := fun _ _ => rfl

theorem bind {rule : Rule α} {next : α → Rule β} (first : rule.HeedsEndAt state)
    (second : ∀ a, (rule.run state).result = .ok a →
      (next a).HeedsEndAt (rule.run state).state) : (rule >>= next).HeedsEndAt state := by
  intro more final
  show Run.andThen rule.run _ (state.prolong more final) = (Run.andThen rule.run _ state).prolong more final
  unfold Run.andThen
  rw [first more final]
  cases result : (rule.run state).result with
  | ok a => simp [Reply.prolong, result, second a result more final]
  | error halt => simp [Reply.prolong, result]

theorem attempt {rule : Rule α} (h : rule.HeedsEndAt state) : (attempt rule).HeedsEndAt state := by
  intro more final
  show Run.attempt rule.run (state.prolong more final) = (Run.attempt rule.run state).prolong more final
  unfold Run.attempt
  rw [h more final]
  cases result : (rule.run state).result with
  | ok a => simp [Reply.prolong, result]
  | error halt => cases halt <;> simp [Reply.prolong, result]

theorem look : (look 0).HeedsEndAt state := by
  intro more final
  simp [run, Reply.prolong]

theorem kind_bind {next : TokenKind → Rule β} (h : (next state.kind).HeedsEndAt state) :
    (Rule.kind >>= next).HeedsEndAt state := by
  intro more final
  show (next (state.prolong more final).kind).run _ = _
  rw [State.kind_prolong]
  exact h more final

/-- A rule may look behind the current token, as long as nothing comes of it at the end. -/
theorem kind_nextKind_bind {next : TokenKind → TokenKind → Rule β}
    (inside : state.kind ≠ .endOfInput → (next state.kind (state.lexeme 1).kind).HeedsEndAt state)
    (atEnd : ∀ kind, next .endOfInput kind = next .endOfInput .endOfInput)
    (heeds : (next .endOfInput .endOfInput).HeedsEndAt state) :
    (do next (← Rule.kind) (← nextKind)).HeedsEndAt state := by
  have looks : ∀ state, (do next (← Rule.kind) (← nextKind) : Rule β).run state =
      (next state.kind (state.lexeme 1).kind).run state := fun _ => rfl
  intro more final
  rw [looks, looks, State.kind_prolong]
  by_cases current : state.kind = .endOfInput
  · rw [current, atEnd, atEnd (state.lexeme 1).kind]
    exact heeds more final
  · rw [State.lexeme_one_prolong current]
    exact inside current more final

theorem advance_bind_of_ahead {next : Unit → Rule β} {token : Token} {rest : List Token}
    (ahead : state.stream.ahead = token :: rest)
    (second : (next ()).HeedsEndAt state.advance) : (Rule.advance >>= next).HeedsEndAt state := by
  refine bind (bind (fun more final => ?_) fun _ _ => pure ()) fun _ _ => second
  simp [run, Reply.prolong, State.advance_prolong ahead]

theorem advance_bind {next : Unit → Rule β} (inside : state.kind ≠ .endOfInput)
    (second : (next ()).HeedsEndAt state.advance) : (Rule.advance >>= next).HeedsEndAt state := by
  obtain ⟨token, rest, ahead, -⟩ := State.ahead_of_inside inside
  exact advance_bind_of_ahead ahead second

/-- One round of a list: an item, and the items after it. -/
theorem many_step {opens : TokenKind → Bool} {goesOn : α → Bool} {item : Lexeme → Rule α}
    (closed : opens .endOfInput = false)
    (first : ∀ token rest, state.stream.ahead = token :: rest → opens token.kind = true →
      (item token.toLexeme).HeedsEndAt state.advance)
    (others : ∀ token rest a, state.stream.ahead = token :: rest → opens token.kind = true →
      ((item token.toLexeme).run state.advance).result = .ok a → goesOn a = true →
        (many opens goesOn item).HeedsEndAt ((item token.toLexeme).run state.advance).state) :
    (many opens goesOn item).HeedsEndAt state := by
  intro more final
  rw [run_many, run_many]
  cases ahead : state.stream.ahead with
  | nil => simp [State.ahead_prolong_nil ahead, EndMark.token, closed, Reply.prolong]
  | cons token rest =>
    simp only [State.ahead_prolong_cons ahead]
    by_cases opened : opens token.kind = true
    · rw [if_pos opened, if_pos opened, State.advance_prolong ahead, first token rest ahead opened]
      cases result : ((item token.toLexeme).run state.advance).result with
      | error halt => simp [Reply.prolong, result]
      | ok a =>
        by_cases continues : goesOn a = true
        · have same := others token rest a ahead opened result continues more final
          simp [Reply.prolong, result, continues, same]
        · simp [Reply.prolong, result, continues]
    · simp [opened, Reply.prolong]

end HeedsEndAt

/-- The rule does the same, whatever stands behind the end of the input. -/
def HeedsEnd (rule : Rule α) : Prop := ∀ state, rule.HeedsEndAt state

namespace HeedsEnd

theorem pure (a : α) : (pure a : Rule α).HeedsEnd := fun _ => .pure a

theorem bind {rule : Rule α} {next : α → Rule β} (first : rule.HeedsEnd)
    (second : ∀ a, (next a).HeedsEnd) : (rule >>= next).HeedsEnd :=
  fun state => .bind (first state) fun a _ => second a _

theorem map {rule : Rule α} (f : α → β) (h : rule.HeedsEnd) : (f <$> rule).HeedsEnd :=
  h.bind fun _ => pure _

theorem ite {condition : Prop} [Decidable condition] {yes no : Rule α} (first : yes.HeedsEnd)
    (second : no.HeedsEnd) : (if condition then yes else no).HeedsEnd := by
  split
  · exact first
  · exact second

theorem kind_bind {next : TokenKind → Rule β} (h : ∀ kind, (next kind).HeedsEnd) :
    (Rule.kind >>= next).HeedsEnd := fun state => .kind_bind (h _ state)

/-- A token may be taken once its kind is known not to be an end of input. -/
theorem kind_bind_at {next : TokenKind → Rule β}
    (h : ∀ state : State, (next state.kind).HeedsEndAt state) : (Rule.kind >>= next).HeedsEnd :=
  fun state => .kind_bind (h state)

theorem position : Rule.position.HeedsEnd := fun _ _ _ => rfl

theorem here : Rule.here.HeedsEnd := fun _ _ _ => rfl

theorem since (first : Nat) : (Rule.since first).HeedsEnd := fun _ _ _ => rfl

theorem report (problem : Problem) (place : Place) : (report problem place).HeedsEnd :=
  fun _ _ _ => rfl

theorem fail (problem : Problem) (place : Place) : (fail problem place : Rule α).HeedsEnd :=
  fun _ _ _ => rfl

theorem abort (problem : Problem) (place : Place) : (abort problem place : Rule α).HeedsEnd :=
  fun _ _ _ => rfl

theorem expected (what context : String) : (expected what context : Rule α).HeedsEnd :=
  kind_bind fun _ => here.bind fun _ => fail _ _

theorem reportExpected (what context : String) : (reportExpected what context).HeedsEnd :=
  kind_bind fun _ => here.bind fun _ => report _ _

theorem tooDeep : (tooDeep : Rule α).HeedsEnd := here.bind fun _ => fail _ _

theorem attempt {rule : Rule α} (h : rule.HeedsEnd) : (attempt rule).HeedsEnd :=
  fun state => .attempt (h state)

theorem marker : marker?.HeedsEnd := by
  intro state more final
  unfold run
  rw [State.lexeme_prolong]
  by_cases isMarker : (state.lexeme 0).kind = .punctuation .questionMark
  · have inside : state.kind ≠ .endOfInput := by
      rw [State.kind, isMarker]
      decide
    rw [if_pos isMarker, if_pos isMarker, State.advance_prolong_of_inside inside]
    rfl
  · rw [if_neg isMarker, if_neg isMarker]
    rfl

/-- A token is taken if it can be read, which an end of input cannot. -/
theorem accept {read : Lexeme → Option α} (what context : String)
    (unread : ∀ text, read ⟨.endOfInput, text⟩ = none) : (accept read what context).HeedsEnd := by
  refine bind (fun state => .bind .look fun lexeme found => ?_) fun result => ?_
  · obtain rfl : state.lexeme 0 = lexeme := Except.ok.inj found
    cases seen : read (state.lexeme 0) with
    | none => exact .pure none
    | some a =>
      have inside : state.kind ≠ .endOfInput := by
        intro atEnd
        have lexeme : state.lexeme 0 = ⟨.endOfInput, (state.lexeme 0).text⟩ := by
          rw [← atEnd]
          rfl
        rw [lexeme, unread] at seen
        exact absurd seen (by simp)
      exact .advance_bind inside (.pure _)
  · cases result with
    | some a => exact pure a
    | none => exact expected what context

theorem eatKind {wanted : TokenKind} (inside : wanted ≠ .endOfInput) : (eatKind wanted).HeedsEnd := by
  refine kind_bind_at fun state => ?_
  split
  · rename_i same
    exact .advance_bind (by rwa [same]) (.pure true)
  · exact .pure false

theorem eat (wanted : Keyword) : (eat wanted).HeedsEnd := eatKind (by simp)

theorem eatMark (wanted : Punctuation) : (eatMark wanted).HeedsEnd := eatKind (by simp)

theorem ofKind {wanted : TokenKind} (context : String) (inside : wanted ≠ .endOfInput) :
    (ofKind wanted context).HeedsEnd :=
  (eatKind inside).bind fun _ => ite (expected _ _) (pure _)

theorem keyword (wanted : Keyword) (context : String) : (keyword wanted context).HeedsEnd :=
  ofKind context (by simp)

theorem symbol (wanted : Punctuation) (context : String) : (symbol wanted context).HeedsEnd :=
  ofKind context (by simp)

theorem many {opens : TokenKind → Bool} {goesOn : α → Bool} {item : Lexeme → Rule α}
    (closed : opens .endOfInput = false) (items : ∀ lexeme, (item lexeme).HeedsEnd) :
    (many opens goesOn item).HeedsEnd := by
  intro state
  -- Each item takes a token, so the induction is on how many are ahead.
  generalize bound : state.stream.ahead.length = n
  induction n using Nat.strongRecOn generalizing state with
  | ind n ih =>
    refine .many_step closed (fun token _ _ _ => items _ _) fun token rest a ahead _ _ _ => ?_
    have shorter := ((item token.toLexeme).run_takes state.advance).length_le
    rw [State.ahead_advance ahead] at shorter
    exact ih _ (by rw [ahead, List.length_cons] at bound; omega) _ rfl

theorem skipUntil (stops : TokenKind → Bool) : (skipUntil stops).HeedsEnd :=
  (many (by simp) fun _ => pure ()).bind fun _ => pure ()

theorem semicolons : semicolons.HeedsEnd := (many (by simp) fun _ => pure ()).bind fun _ => pure ()

section

variable {item : Rule α} (heeds : item.HeedsEnd)
include heeds

theorem following {separator : TokenKind} (inside : separator ≠ .endOfInput) :
    (following separator item).HeedsEnd :=
  many (by simpa using inside.symm) fun _ => heeds

theorem separated {separator : TokenKind} (inside : separator ≠ .endOfInput) :
    (separated separator item).HeedsEnd :=
  heeds.bind fun _ => (following heeds inside).bind fun _ => pure _

theorem commaSeparated : (commaSeparated item).HeedsEnd := separated heeds (by simp)

theorem twoOrMore (context : String) : (twoOrMore context item).HeedsEnd :=
  heeds.bind fun _ => (symbol _ _).bind fun _ => (commaSeparated heeds).bind fun _ => pure _

theorem salvagedAfterComma : (salvagedAfterComma item).HeedsEnd :=
  (many (by simp) fun _ => heeds.attempt).bind fun _ => pure _

theorem salvaged : (salvaged item).HeedsEnd := by
  refine heeds.attempt.bind fun result => ?_
  cases result with
  | none => exact pure _
  | some first => exact (salvagedAfterComma heeds).bind fun _ => pure _

end

theorem closed {list : Rule (Salvage α)} {close : Rule Unit} (items : list.HeedsEnd)
    (closes : close.HeedsEnd) : (closed list close).HeedsEnd :=
  items.bind fun _ => ite (closes.attempt.bind fun _ => pure _) (pure _)

theorem restoring (stops : TokenKind → Bool) {item : Rule (Salvage α)} (heeds : item.HeedsEnd) :
    (restoring stops item).HeedsEnd := by
  refine heeds.attempt.bind fun result => ?_
  cases result with
  | none => exact (skipUntil stops).bind fun _ => pure _
  | some items => exact ite ((skipUntil stops).bind fun _ => pure _) (pure _)

/-- A list that may be broken is a list of parts; what it comes to does not depend on the stream. -/
theorem gather {separator : TokenKind} {item : Rule (Option α)} (inside : separator ≠ .endOfInput)
    (stops : TokenKind → Bool) (heeds : item.HeedsEnd) : (gather separator stops item).HeedsEnd := by
  have next : (part (fun kind => kind = separator || stops kind) item).HeedsEnd := by
    refine heeds.attempt.bind fun result => ?_
    cases result with
    | some a => exact pure _
    | none => exact (skipUntil _).bind fun _ => pure _
  have settles : ∀ parts more final state, (Run.settle parts : Run (List α)) (State.prolong more final state) =
      (Run.settle parts state).prolong more final := by
    intro parts more final state
    unfold Run.settle
    split <;> rfl
  intro state more final
  rw [run_gather]
  unfold Run.andThen
  rw [separated next inside state more final]
  cases result : ((Rule.separated separator
    (part (fun kind => kind = separator || stops kind) item)).run state).result with
  | error halt => simp [Reply.prolong, result]
  | ok parts => simp [Reply.prolong, result, settles]

end HeedsEnd

end Rule

end Cql
