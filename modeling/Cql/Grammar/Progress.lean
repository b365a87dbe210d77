/-
The stream only moves forward.

What every single step of a state keeps is kept by every rule (`Rule.run_keeps`).  So the tokens
ahead of a rule split into those it takes and those it leaves (`Rule.run_takes`), and the bound in the
meaning of lists is never met: a list is read as far as it goes (`Rule.run_many`), and what holds of its
runs is proved round by round (`Rule.many_induction`).
-/
import Cql.Grammar.Rule

namespace Cql

/-- A relation of states that holds of every single step: of none, of taking a token, of numbering
a bind marker, and of two steps in a row. -/
structure Kept (R : State → State → Prop) : Prop where
  refl : ∀ state, R state state
  trans : ∀ {first second third}, R first second → R second third → R first third
  advance : ∀ state, R state state.advance
  number : ∀ state, (state.lexeme 0).kind = .punctuation .questionMark →
    R state { state.advance with markers := state.markers.next.2 }

namespace Run

variable {α β : Type} {R : State → State → Prop}

/-- Does a run lead to a state related to the one it started from? -/
def Keeps (R : State → State → Prop) (run : Run α) : Prop := ∀ state, R state (run state).state

namespace Keeps

variable (kept : Kept R)
include kept

theorem done (a : α) : Keeps R (Run.done a) := fun state => kept.refl state

theorem halt (h : Halt) : Keeps R (Run.halt h : Run α) := fun state => kept.refl state

theorem andThen {run : Run α} {next : α → Run β} (first : Keeps R run)
    (second : ∀ a, Keeps R (next a)) : Keeps R (Run.andThen run next) := by
  intro state
  unfold Run.andThen
  simp only
  split
  · exact kept.trans (first state) (second _ _)
  · exact first state

omit kept in
theorem attempt {run : Run α} (first : Keeps R run) : Keeps R (Run.attempt run) := by
  intro state
  unfold Run.attempt
  simp only
  split <;> exact first state

theorem manyUpTo {opens : TokenKind → Bool} {goesOn : α → Bool} {item : Lexeme → Run α}
    (items : ∀ lexeme, Keeps R (item lexeme)) (bound : Nat) :
    Keeps R (Run.manyUpTo opens goesOn item bound) := by
  induction bound with
  | zero => exact done kept []
  | succ bound ih =>
    intro state
    have first := fun lexeme => kept.trans (kept.advance state) (items lexeme state.advance)
    unfold Run.manyUpTo
    split
    · exact kept.refl state
    split
    · simp only
      split
      · exact first _
      split
      · exact kept.trans (first _) (ih _)
      · exact first _
    · exact kept.refl state

theorem many {opens : TokenKind → Bool} {goesOn : α → Bool} {item : Lexeme → Run α}
    (items : ∀ lexeme, Keeps R (item lexeme)) : Keeps R (Run.many opens goesOn item) :=
  fun state => manyUpTo kept items _ state

theorem skipUntil (stops : TokenKind → Bool) : Keeps R (Run.skipUntil stops) :=
  andThen kept (many kept fun _ => done kept ()) fun _ => done kept ()

theorem part {resync : Run Unit} {item : Run α} (skips : Keeps R resync) (reads : Keeps R item) :
    Keeps R (Run.part resync item) := by
  refine andThen kept (attempt reads) fun result => ?_
  match result with
  | some a => exact done kept (some a)
  | none => exact andThen kept skips fun _ => done kept none

theorem settle (parts : List (Option (Option α))) : Keeps R (Run.settle parts) := by
  unfold Run.settle
  simp only
  split
  · exact halt kept _
  · exact done kept _

theorem gather {separator : TokenKind} {stops : TokenKind → Bool} {item : Run (Option α)}
    (reads : Keeps R item) : Keeps R (Run.gather separator stops item) := by
  have next := part kept (skipUntil kept fun kind => kind = separator || stops kind) reads
  exact andThen kept next fun _ => andThen kept (many kept fun _ => next) fun _ => settle kept _

end Keeps

end Run

/-- What every single step of a state keeps is kept by every rule. -/
theorem Rule.run_keeps {R : State → State → Prop} (kept : Kept R) {α : Type} (rule : Rule α) :
    Run.Keeps R rule.run := by
  induction rule with
  | done a => exact Run.Keeps.done kept a
  | andThen rule next first second => exact Run.Keeps.andThen kept first second
  | look n => exact fun state => kept.refl state
  | take => exact fun state => kept.advance state
  | marker? =>
    intro state
    unfold Rule.run
    split
    · rename_i isMarker
      exact kept.number state isMarker
    · exact kept.refl state
  | position => exact fun state => kept.refl state
  | report problem place => exact fun state => kept.refl state
  | fail problem place => exact fun state => kept.refl state
  | abort problem place => exact fun state => kept.refl state
  | attempt rule ih => exact Run.Keeps.attempt ih
  | many opens goesOn item ih => exact Run.Keeps.many kept ih
  | gather separator stops item ih => exact Run.Keeps.gather kept ih

/-- The second state is found by taking tokens from the first. -/
def State.Takes (first second : State) : Prop :=
  ∃ taken, first.stream.ahead = taken ++ second.stream.ahead ∧
    second.stream.passed = taken.reverse ++ first.stream.passed ∧
    second.stream.final = first.stream.final

theorem TokenStream.advance_takes (stream : TokenStream) :
    ∃ taken, stream.ahead = taken ++ stream.advance.ahead ∧
      stream.advance.passed = taken.reverse ++ stream.passed ∧
      stream.advance.final = stream.final := by
  unfold advance
  split
  · exact ⟨[], rfl, rfl, rfl⟩
  · rename_i token rest ahead
    exact ⟨[token], ahead, rfl, rfl⟩

theorem State.takes_kept : Kept State.Takes where
  refl state := ⟨[], rfl, rfl, rfl⟩
  trans := by
    rintro first second third ⟨as, ahead, passed, final⟩ ⟨bs, ahead', passed', final'⟩
    refine ⟨as ++ bs, ?_, ?_, final'.trans final⟩
    · rw [ahead, ahead', List.append_assoc]
    · rw [passed', passed, List.reverse_append, List.append_assoc]
  advance state := state.stream.advance_takes
  number state _ := state.stream.advance_takes

/-- A rule takes some of the tokens ahead and leaves the others. -/
theorem Rule.run_takes {α : Type} (rule : Rule α) (state : State) :
    state.Takes (rule.run state).state :=
  rule.run_keeps State.takes_kept state

theorem State.Takes.length_le {first second : State} (takes : first.Takes second) :
    second.stream.ahead.length ≤ first.stream.ahead.length := by
  obtain ⟨taken, ahead, _, _⟩ := takes
  rw [ahead, List.length_append]
  omega

theorem State.ahead_advance {state : State} {token : Token} {rest : List Token}
    (ahead : state.stream.ahead = token :: rest) : state.advance.stream.ahead = rest := by
  simp [State.advance, TokenStream.advance, ahead]

namespace Run

variable {α : Type} {opens : TokenKind → Bool} {goesOn : α → Bool} {item : Lexeme → Run α}

/-- Bounds that reach to the end of the stream are all the same. -/
theorem manyUpTo_congr (takes : ∀ lexeme, Keeps State.Takes (item lexeme)) (m : Nat) :
    ∀ (n : Nat) (state : State), state.stream.ahead.length ≤ m → state.stream.ahead.length ≤ n →
      manyUpTo opens goesOn item m state = manyUpTo opens goesOn item n state := by
  induction m with
  | zero =>
    intro n state enough _
    have ahead := List.length_eq_zero_iff.1 (Nat.le_zero.1 enough)
    cases n <;> simp [manyUpTo, ahead, Run.done]
  | succ m ih =>
    intro n state enough enough'
    cases ahead : state.stream.ahead with
    | nil => cases n <;> simp [manyUpTo, ahead, Run.done]
    | cons token rest =>
      rw [ahead, List.length_cons] at enough enough'
      obtain ⟨n, rfl⟩ : ∃ k, n = k + 1 := ⟨n - 1, by omega⟩
      have shorter := (takes token.toLexeme state.advance).length_le
      rw [State.ahead_advance ahead] at shorter
      simp only [manyUpTo, ahead, ih n (item token.toLexeme state.advance).state (by omega) (by omega)]

/-- A list is read as far as it goes. -/
theorem many_eq (takes : ∀ lexeme, Keeps State.Takes (item lexeme)) (state : State) :
    many opens goesOn item state =
      match state.stream.ahead with
      | [] => ⟨.ok [], state, []⟩
      | token :: _ =>
        if opens token.kind then
          let first := item token.toLexeme state.advance
          match first.result with
          | .error halt => ⟨.error halt, first.state, first.reports⟩
          | .ok a =>
            if goesOn a then
              let rest := many opens goesOn item first.state
              ⟨rest.result.map (a :: ·), rest.state, first.reports ++ rest.reports⟩
            else
              ⟨.ok [a], first.state, first.reports⟩
        else
          ⟨.ok [], state, []⟩ := by
  cases ahead : state.stream.ahead with
  | nil => simp [many, manyUpTo, ahead, Run.done]
  | cons token rest =>
    have shorter := (takes token.toLexeme state.advance).length_le
    rw [State.ahead_advance ahead] at shorter
    have enough := @manyUpTo_congr _ opens goesOn item takes rest.length _ _ shorter (Nat.le_refl _)
    by_cases opened : opens token.kind = true
    · match result : (item token.toLexeme state.advance).result with
      | .error halt => simp [many, manyUpTo, ahead, opened, result]
      | .ok a => simp [many, manyUpTo, ahead, opened, result, enough]
    · simp [many, manyUpTo, ahead, opened]

end Run

/-- A list in a rule is read as far as it goes. -/
theorem Rule.run_many {α : Type} (opens : TokenKind → Bool) (goesOn : α → Bool)
    (item : Lexeme → Rule α) (state : State) :
    (Rule.many opens goesOn item).run state =
      match state.stream.ahead with
      | [] => ⟨.ok [], state, []⟩
      | token :: _ =>
        if opens token.kind then
          let first := (item token.toLexeme).run state.advance
          match first.result with
          | .error halt => ⟨.error halt, first.state, first.reports⟩
          | .ok a =>
            if goesOn a then
              let rest := (Rule.many opens goesOn item).run first.state
              ⟨rest.result.map (a :: ·), rest.state, first.reports ++ rest.reports⟩
            else
              ⟨.ok [a], first.state, first.reports⟩
        else
          ⟨.ok [], state, []⟩ :=
  Run.many_eq (fun lexeme => (item lexeme).run_takes) state

/-- A list is read item by item, until no item is opened, or one halts, or one is the last. -/
theorem Rule.many_induction {α : Type} {opens : TokenKind → Bool} {goesOn : α → Bool}
    {item : Lexeme → Rule α} {motive : State → Reply (List α) → Prop}
    (stop : ∀ state : State, (∀ token ∈ state.stream.ahead.head?, opens token.kind = false) →
      motive state ⟨.ok [], state, []⟩)
    (halts : ∀ {state : State} {token : Token} {rest : List Token} {halt : Halt},
      state.stream.ahead = token :: rest → opens token.kind = true →
      ((item token.toLexeme).run state.advance).result = .error halt →
        motive state ⟨.error halt, ((item token.toLexeme).run state.advance).state,
          ((item token.toLexeme).run state.advance).reports⟩)
    (last : ∀ {state : State} {token : Token} {rest : List Token} {a : α},
      state.stream.ahead = token :: rest → opens token.kind = true →
      ((item token.toLexeme).run state.advance).result = .ok a → goesOn a = false →
        motive state ⟨.ok [a], ((item token.toLexeme).run state.advance).state,
          ((item token.toLexeme).run state.advance).reports⟩)
    (more : ∀ {state : State} {token : Token} {rest : List Token} {a : α} (others : Reply (List α)),
      state.stream.ahead = token :: rest → opens token.kind = true →
      ((item token.toLexeme).run state.advance).result = .ok a → goesOn a = true →
      motive ((item token.toLexeme).run state.advance).state others →
        motive state ⟨others.result.map (a :: ·), others.state,
          ((item token.toLexeme).run state.advance).reports ++ others.reports⟩)
    (state : State) : motive state ((Rule.many opens goesOn item).run state) := by
  -- Each item takes a token, so the induction is on how many are ahead.
  generalize bound : state.stream.ahead.length = n
  induction n using Nat.strongRecOn generalizing state with
  | ind n ih =>
    rw [run_many]
    cases ahead : state.stream.ahead with
    | nil => exact stop state (by simp [ahead])
    | cons token rest =>
      have shorter := ((item token.toLexeme).run_takes state.advance).length_le
      rw [State.ahead_advance ahead] at shorter
      rw [ahead, List.length_cons] at bound
      dsimp only
      by_cases opened : opens token.kind = true
      · rw [if_pos opened]
        cases first : ((item token.toLexeme).run state.advance).result with
        | error halt => exact halts ahead opened first
        | ok a =>
          dsimp only
          by_cases continues : goesOn a = true
          · rw [if_pos continues]
            exact more _ ahead opened first continues (ih _ (by omega) _ rfl)
          · rw [if_neg continues]
            exact last ahead opened first (Bool.eq_false_iff.2 continues)
      · rw [if_neg opened]
        exact stop state (by simpa [ahead] using opened)

end Cql
