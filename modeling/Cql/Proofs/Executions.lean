/-
Executions of procedures, loop by loop.

An execution is a finite tree: every form of procedures runs its parts, and a loop is run round by
round, for as long as the current token lets it go on.  No number of rounds is given in advance, so a
procedure terminates from a state if and only if there is an execution from it.  On the way a log is
kept: where the cursor was, what the nesting counter was, and at which tokens each loop decided
whether to go round.

* `Procedure.Executes` — the executions of a procedure, with the value of the counter and the log;
* `Log.Orderly` — the cursor only moves forward, every round of every loop has moved it, and the
  counter keeps to its bound;
* `Procedure.Executes.eq_run`, `Procedure.Executes.depth_eq`, `Procedure.Executes.orderly` — every
  execution ends as the rule does that the procedure means, with the counter it began with, and its
  log is orderly;
* `Procedure.endsIn` — **every procedure terminates from every state**, in one way only.
-/
import Cql.Proofs.Procedures
import Cql.Proofs.ReportOrder
import Cql.Proofs.Yields

namespace Cql

/-- What is noted down during an execution. -/
structure Log where
  /-- The number of the current token, after each step. -/
  cursor : List Nat
  /-- The values of the nesting counter, after each change. -/
  depths : List Nat
  /-- For each loop: the numbers of the tokens at which it was decided whether to go round. -/
  loops : List (List Nat)

namespace Log

instance : Append Log :=
  ⟨fun log log' => ⟨log.cursor ++ log'.cursor, log.depths ++ log'.depths, log.loops ++ log'.loops⟩⟩

/-- The log of a single step. -/
def visit (position : Nat) : Log := ⟨[position], [], []⟩

/-- The log of a loop that ends with the round that has the given log. -/
def lastRound (test taken : Nat) (round : Log) : Log :=
  ⟨taken :: round.cursor, round.depths, [test] :: round.loops⟩

end Log

/-- What comes of an attempt. -/
def Reply.attempted {α : Type} (reply : Reply α) : Reply (Option α) :=
  match reply.result with
  | .ok a => ⟨.ok (some a), reply.state, reply.reports⟩
  | .error .recorded => ⟨.ok none, reply.state, reply.reports⟩
  | .error .fatal => ⟨.error .fatal, reply.state, reply.reports⟩

namespace Procedure

/-- An item of a list that may be broken. -/
def part {α : Type} (stops : TokenKind → Bool) (item : Procedure α) : Procedure (Option α) := do
  match ← attempt item with
  | some a => return some a
  | none =>
    Rule.skipUntil stops
    return none

/-- The items of a list that may be broken, and what is left of them. -/
def parts {α : Type} (separator : TokenKind) (stops : TokenKind → Bool) (item : Procedure α) :
    Procedure (List (Option α)) :=
  separated separator (part (fun kind => kind = separator || stops kind) item)

/-- From `state` and a value of the counter the procedure comes to the reply, to another value of the
counter, and leaves the log. -/
inductive Executes : {α : Type} → Procedure α → Nat → State → Reply α → Nat → Log → Prop
  | step {α : Type} {rule : Rule α} {single : rule.isStep = true} {depth : Nat} {state : State} :
      Executes (.step rule single) depth state (rule.run state) depth
        (.visit (rule.run state).state.stream.position)
  | andThen {α β : Type} {first : Procedure α} {next : α → Procedure β} {depth depth' depth'' : Nat}
      {state : State} {reply : Reply α} {reply' : Reply β} {log log' : Log} {a : α}
      (runs : Executes first depth state reply depth' log) (found : reply.result = .ok a)
      (goes : Executes (next a) depth' reply.state reply' depth'' log') :
      Executes (.andThen first next) depth state
        ⟨reply'.result, reply'.state, reply.reports ++ reply'.reports⟩ depth'' (log ++ log')
  | halt {α β : Type} {first : Procedure α} {next : α → Procedure β} {depth depth' : Nat}
      {state : State} {reply : Reply α} {log : Log} {halt : Halt}
      (runs : Executes first depth state reply depth' log) (halts : reply.result = .error halt) :
      Executes (.andThen first next) depth state ⟨.error halt, reply.state, reply.reports⟩ depth' log
  | attempt {α : Type} {first : Procedure α} {depth depth' : Nat} {state : State} {reply : Reply α}
      {log : Log} (runs : Executes first depth state reply depth' log) :
      Executes (.attempt first) depth state reply.attempted depth' log
  | stop {α : Type} {opens : TokenKind → Bool} {goesOn : α → Bool} {item : Lexeme → Procedure α}
      {depth : Nat} {state : State}
      (closed : ∀ token ∈ state.stream.ahead.head?, opens token.kind = false) :
      Executes (.many opens goesOn item) depth state ⟨.ok [], state, []⟩ depth
        ⟨[], [], [[state.stream.position]]⟩
  | broken {α : Type} {opens : TokenKind → Bool} {goesOn : α → Bool} {item : Lexeme → Procedure α}
      {depth depth' : Nat} {state : State} {token : Token} {rest : List Token} {reply : Reply α}
      {log : Log} {halt : Halt} (ahead : state.stream.ahead = token :: rest)
      (opened : opens token.kind = true)
      (runs : Executes (item token.toLexeme) depth state.advance reply depth' log)
      (halts : reply.result = .error halt) :
      Executes (.many opens goesOn item) depth state ⟨.error halt, reply.state, reply.reports⟩ depth'
        (log.lastRound state.stream.position state.advance.stream.position)
  | last {α : Type} {opens : TokenKind → Bool} {goesOn : α → Bool} {item : Lexeme → Procedure α}
      {depth depth' : Nat} {state : State} {token : Token} {rest : List Token} {reply : Reply α}
      {log : Log} {a : α} (ahead : state.stream.ahead = token :: rest)
      (opened : opens token.kind = true)
      (runs : Executes (item token.toLexeme) depth state.advance reply depth' log)
      (found : reply.result = .ok a) (ends : goesOn a = false) :
      Executes (.many opens goesOn item) depth state ⟨.ok [a], reply.state, reply.reports⟩ depth'
        (log.lastRound state.stream.position state.advance.stream.position)
  | again {α : Type} {opens : TokenKind → Bool} {goesOn : α → Bool} {item : Lexeme → Procedure α}
      {depth depth' depth'' : Nat} {state : State} {token : Token} {rest : List Token}
      {reply : Reply α} {others : Reply (List α)} {log : Log} {cursor depths tests : List Nat}
      {loops : List (List Nat)} {a : α} (ahead : state.stream.ahead = token :: rest)
      (opened : opens token.kind = true)
      (runs : Executes (item token.toLexeme) depth state.advance reply depth' log)
      (found : reply.result = .ok a) (continues : goesOn a = true)
      (goes : Executes (.many opens goesOn item) depth' reply.state others depth''
        ⟨cursor, depths, (reply.state.stream.position :: tests) :: loops⟩) :
      Executes (.many opens goesOn item) depth state
        ⟨others.result.map (a :: ·), others.state, reply.reports ++ others.reports⟩ depth''
        ⟨state.advance.stream.position :: log.cursor ++ cursor, log.depths ++ depths,
          (state.stream.position :: reply.state.stream.position :: tests) :: (log.loops ++ loops)⟩
  | gather {α : Type} {separator : TokenKind} {stops : TokenKind → Bool}
      {item : Procedure (Option α)} {depth depth' : Nat} {state : State}
      {reply : Reply (List (Option (Option α)))} {log : Log} {items : List (Option (Option α))}
      (runs : Executes (parts separator stops item) depth state reply depth' log)
      (found : reply.result = .ok items) :
      Executes (.gather separator stops item) depth state
        ⟨(Run.settle items reply.state).result, reply.state, reply.reports⟩ depth' log
  | gather_halt {α : Type} {separator : TokenKind} {stops : TokenKind → Bool}
      {item : Procedure (Option α)} {depth depth' : Nat} {state : State}
      {reply : Reply (List (Option (Option α)))} {log : Log} {halt : Halt}
      (runs : Executes (parts separator stops item) depth state reply depth' log)
      (halts : reply.result = .error halt) :
      Executes (.gather separator stops item) depth state ⟨.error halt, reply.state, reply.reports⟩
        depth' log
  | refused {α : Type} {callee : Callee α} {depth : Nat} {state : State} (full : maxNesting ≤ depth) :
      Executes (.nested callee) depth state (Rule.tooDeep.run state) depth
        (.visit state.stream.position)
  | nested {α : Type} {callee : Callee α} {depth depth' : Nat} {state : State} {reply : Reply α}
      {log : Log} (room : depth < maxNesting)
      (runs : Executes callee.body (depth + 1) state reply depth' log) :
      Executes (.nested callee) depth state reply (depth' - 1)
        ⟨log.cursor, (depth + 1) :: (log.depths ++ [depth' - 1]), log.loops⟩

/-! ### Every execution is orderly -/

end Procedure

/-- The log of an execution that leads from one token to another: the cursor never moves back, each loop
decides at tokens further and further on, and the counter keeps to its bound. -/
structure Log.Orderly (log : Log) (first last : Nat) : Prop where
  le : first ≤ last
  forward : log.cursor.Pairwise (· ≤ ·)
  within : ∀ position ∈ log.cursor, first ≤ position ∧ position ≤ last
  progress : ∀ tests ∈ log.loops, tests.Pairwise (· < ·)
  tested : ∀ tests ∈ log.loops, ∀ test ∈ tests, first ≤ test ∧ test ≤ last
  bounded : ∀ depth ∈ log.depths, depth ≤ maxNesting

namespace Log.Orderly

variable {log log' : Log} {first mid last : Nat}

/-- Where a first item is read in front of a loop, and one more after each token at which the loop goes
round, every item begins further on than the one before it. -/
theorem starts (h : log.Orderly first last) {tests : List Nat} (mem : tests ∈ log.loops) :
    (first :: tests.map (· + 1)).Pairwise (· < ·) := by
  refine List.pairwise_cons.2 ⟨fun start mem' => ?_, ?_⟩
  · obtain ⟨test, inside, rfl⟩ := List.mem_map.1 mem'
    exact Nat.lt_succ_of_le (h.tested tests mem test inside).1
  · exact List.pairwise_map.2 ((h.progress tests mem).imp Nat.succ_lt_succ)

theorem visit {position : Nat} (before : first ≤ position) : (Log.visit position).Orderly first position where
  le := before
  forward := List.pairwise_singleton ..
  within := by simp [Log.visit, before]
  progress := by simp [Log.visit]
  tested := by simp [Log.visit]
  bounded := by simp [Log.visit]

theorem append (h : log.Orderly first mid) (h' : log'.Orderly mid last) :
    (log ++ log').Orderly first last where
  le := Nat.le_trans h.le h'.le
  forward := by
    refine List.pairwise_append.2 ⟨h.forward, h'.forward, fun earlier mem later mem' => ?_⟩
    exact Nat.le_trans (h.within earlier mem).2 (h'.within later mem').1
  within position mem := by
    rcases List.mem_append.1 mem with mem | mem
    · exact ⟨(h.within position mem).1, Nat.le_trans (h.within position mem).2 h'.le⟩
    · exact ⟨Nat.le_trans h.le (h'.within position mem).1, (h'.within position mem).2⟩
  progress tests mem := (List.mem_append.1 mem).elim (h.progress tests) (h'.progress tests)
  tested tests mem test mem' := by
    rcases List.mem_append.1 mem with mem | mem
    · exact ⟨(h.tested tests mem test mem').1, Nat.le_trans (h.tested tests mem test mem').2 h'.le⟩
    · exact ⟨Nat.le_trans h.le (h'.tested tests mem test mem').1, (h'.tested tests mem test mem').2⟩
  bounded depth mem := (List.mem_append.1 mem).elim (h.bounded depth) (h'.bounded depth)

/-- A round takes a token before it runs the item. -/
theorem lastRound {test taken : Nat} (moves : test < taken) (h : log.Orderly taken last) :
    (log.lastRound test taken).Orderly test last where
  le := Nat.le_trans (Nat.le_of_lt moves) h.le
  forward := List.pairwise_cons.2 ⟨fun later mem => (h.within later mem).1, h.forward⟩
  within position mem := by
    rcases List.mem_cons.1 mem with rfl | mem
    · exact ⟨Nat.le_of_lt moves, h.le⟩
    · exact ⟨Nat.le_trans (Nat.le_of_lt moves) (h.within position mem).1, (h.within position mem).2⟩
  progress tests mem := by
    rcases List.mem_cons.1 mem with rfl | mem
    · exact List.pairwise_singleton ..
    · exact h.progress tests mem
  tested tests mem position mem' := by
    rcases List.mem_cons.1 mem with rfl | mem
    · obtain rfl := List.mem_singleton.1 mem'
      exact ⟨Nat.le_refl _, Nat.le_trans (Nat.le_of_lt moves) h.le⟩
    · have within := h.tested tests mem position mem'
      exact ⟨Nat.le_trans (Nat.le_of_lt moves) within.1, within.2⟩
  bounded := h.bounded

/-- The next rounds of a loop decide further on. -/
theorem again {test taken : Nat} {cursor depths tests : List Nat} {loops : List (List Nat)}
    (moves : test < taken) (h : log.Orderly taken mid)
    (h' : Log.Orderly ⟨cursor, depths, (mid :: tests) :: loops⟩ mid last) :
    Log.Orderly ⟨taken :: log.cursor ++ cursor, log.depths ++ depths,
      (test :: mid :: tests) :: (log.loops ++ loops)⟩ test last := by
  have whole := (h.lastRound moves).append h'
  have own : (test :: mid :: tests).Pairwise (· < ·) := by
    refine List.pairwise_cons.2 ⟨fun later mem => ?_, h'.progress _ List.mem_cons_self⟩
    have after := (h'.tested _ List.mem_cons_self later mem).1
    exact Nat.lt_of_lt_of_le moves (Nat.le_trans h.le after)
  -- The rounds before and after are one loop; all other loops are where they were.
  have others : ∀ other ∈ log.loops ++ loops,
      other ∈ (log.lastRound test taken ++ ⟨cursor, depths, (mid :: tests) :: loops⟩ : Log).loops :=
    fun other mem => List.mem_cons_of_mem _ <| (List.mem_append.1 mem).elim
      (List.mem_append_left _) fun mem => List.mem_append_right _ (List.mem_cons_of_mem _ mem)
  refine { whole with progress := fun other mem => ?_, tested := fun other mem position mem' => ?_ }
  · rcases List.mem_cons.1 mem with rfl | mem
    · exact own
    · exact whole.progress other (others other mem)
  · rcases List.mem_cons.1 mem with rfl | mem
    · rcases List.mem_cons.1 mem' with rfl | mem'
      · exact ⟨Nat.le_refl _, whole.le⟩
      · have within := h'.tested _ List.mem_cons_self position mem'
        exact ⟨Nat.le_trans (Nat.le_of_lt moves) (Nat.le_trans h.le within.1), within.2⟩
    · exact whole.tested other (others other mem) position mem'

end Log.Orderly

namespace Procedure.Executes

variable {α : Type} {procedure : Procedure α} {depth depth' : Nat} {state : State} {reply : Reply α}
  {log : Log}

/-- The counter is back at its value whenever a procedure returns, with a value or without. -/
theorem depth_eq (runs : procedure.Executes depth state reply depth' log) : depth' = depth := by
  induction runs with
  | step => rfl
  | andThen _ _ _ ih ih' => exact ih'.trans ih
  | halt _ _ ih => exact ih
  | attempt _ ih => exact ih
  | stop => rfl
  | broken _ _ _ _ ih => exact ih
  | last _ _ _ _ _ ih => exact ih
  | again _ _ _ _ _ _ ih ih' => exact ih'.trans ih
  | gather _ _ ih => exact ih
  | gather_halt _ _ ih => exact ih
  | refused => rfl
  | nested _ _ ih => rw [ih, Nat.add_sub_cancel]

theorem state_attempted (reply : Reply α) : reply.attempted.state = reply.state := by
  unfold Reply.attempted
  split <;> rfl

/-- The log of every execution is orderly. -/
theorem orderly (runs : procedure.Executes depth state reply depth' log) :
    log.Orderly state.stream.position reply.state.stream.position := by
  induction runs with
  | step => exact .visit (State.Takes.position_le (Rule.run_takes _ _))
  | andThen _ _ _ ih ih' => exact ih.append ih'
  | halt _ _ ih => exact ih
  | attempt _ ih => rwa [state_attempted]
  | stop =>
    exact {
      le := Nat.le_refl _
      forward := .nil
      within := by simp
      progress := by simp
      tested := by simp
      bounded := by simp }
  | broken ahead _ _ _ ih =>
    exact ih.lastRound (by rw [State.position_advance ahead]; exact Nat.lt_succ_self _)
  | last ahead _ _ _ _ ih =>
    exact ih.lastRound (by rw [State.position_advance ahead]; exact Nat.lt_succ_self _)
  | again ahead _ _ _ _ _ ih ih' =>
    exact ih.again (by rw [State.position_advance ahead]; exact Nat.lt_succ_self _) ih'
  | gather _ _ ih => exact ih
  | gather_halt _ _ ih => exact ih
  | refused => exact .visit (Nat.le_refl _)
  | nested room runs ih =>
    refine { ih with bounded := fun depth mem => ?_ }
    rw [runs.depth_eq, Nat.add_sub_cancel] at mem
    rcases List.mem_cons.1 mem with rfl | mem
    · exact room
    rcases List.mem_append.1 mem with mem | mem
    · exact ih.bounded depth mem
    · obtain rfl := List.mem_singleton.1 mem
      exact Nat.le_of_lt room

end Procedure.Executes

/-! ### An execution ends as the rule does -/

theorem Rule.run_attempt {α : Type} (rule : Rule α) (state : State) :
    (Rule.attempt rule).run state = (rule.run state).attempted := by
  show Run.attempt rule.run state = _
  unfold Run.attempt Reply.attempted
  rfl

/-- What a broken list comes to depends on its parts alone. -/
theorem Run.settle_eq {α : Type} (items : List (Option (Option α))) (state : State) :
    Run.settle items state = ⟨(Run.settle items state).result, state, []⟩ := by
  unfold Run.settle
  split <;> rfl

theorem Rule.run_gather_of_ok {α : Type} {separator : TokenKind} {stops : TokenKind → Bool}
    {item : Rule (Option α)} {state : State} {items : List (Option (Option α))}
    (found : ((Rule.separated separator
      (Rule.part (fun kind => kind = separator || stops kind) item)).run state).result = .ok items) :
    (Rule.gather separator stops item).run state =
      let lists := (Rule.separated separator
        (Rule.part (fun kind => kind = separator || stops kind) item)).run state
      ⟨(Run.settle items lists.state).result, lists.state, lists.reports⟩ := by
  rw [Rule.run_gather]
  unfold Run.andThen
  simp only [found]
  rw [Run.settle_eq]
  simp

theorem Rule.run_gather_of_error {α : Type} {separator : TokenKind} {stops : TokenKind → Bool}
    {item : Rule (Option α)} {state : State} {halt : Halt}
    (halts : ((Rule.separated separator
      (Rule.part (fun kind => kind = separator || stops kind) item)).run state).result = .error halt) :
    (Rule.gather separator stops item).run state =
      let lists := (Rule.separated separator
        (Rule.part (fun kind => kind = separator || stops kind) item)).run state
      ⟨.error halt, lists.state, lists.reports⟩ := by
  rw [Rule.run_gather]
  unfold Run.andThen
  simp only [halts]

namespace Procedure

variable {α β : Type} {depth : Nat}

/-- The items of a broken list, and the skipping after them, mean what they are in the grammar. -/
theorem rule_parts (separator : TokenKind) (stops : TokenKind → Bool) (item : Procedure (Option α)) :
    (parts separator stops item).rule depth = Rule.separated separator
      (Rule.part (fun kind => kind = separator || stops kind) (item.rule depth)) := by
  have one : ∀ stops, (part stops item).rule depth = Rule.part stops (item.rule depth) := by
    intro stops
    refine congrArg (Rule.attempt (item.rule depth) >>= ·) (funext fun result => ?_)
    cases result with
    | none => exact congrArg (· >>= _) (ruleWith_lift _ (Rule.skipUntil stops))
    | some a => rfl
  exact congrArg (Rule.separated separator) (one _)

theorem rule_andThen (first : Procedure α) (next : α → Procedure β) :
    (andThen first next).rule depth = first.rule depth >>= fun a => (next a).rule depth := rfl

/-- From every state there is an execution, and it ends as the rule does that the procedure means. -/
def TerminatesAt (depth : Nat) (procedure : Procedure α) : Prop :=
  ∀ state, ∃ log, procedure.Executes depth state ((procedure.rule depth).run state) depth log

namespace TerminatesAt

theorem step {rule : Rule α} {single : rule.isStep = true} :
    (Procedure.step rule single).TerminatesAt depth :=
  fun _ => ⟨_, .step⟩

theorem andThen {first : Procedure α} {next : α → Procedure β} (h : first.TerminatesAt depth)
    (h' : ∀ a, (next a).TerminatesAt depth) : (first.andThen next).TerminatesAt depth := by
  intro state
  obtain ⟨log, runs⟩ := h state
  rw [rule_andThen]
  cases result : ((first.rule depth).run state).result with
  | ok a =>
    obtain ⟨log', goes⟩ := h' a ((first.rule depth).run state).state
    rw [Rule.run_bind_of_ok result]
    exact ⟨_, .andThen runs result goes⟩
  | error halt =>
    rw [Rule.run_bind_of_error result]
    exact ⟨_, .halt runs result⟩

theorem attempt {first : Procedure α} (h : first.TerminatesAt depth) :
    first.attempt.TerminatesAt depth := by
  intro state
  obtain ⟨log, runs⟩ := h state
  have same : (first.attempt.rule depth).run state = ((first.rule depth).run state).attempted :=
    Rule.run_attempt _ _
  rw [same]
  exact ⟨log, .attempt runs⟩

/-- Each round takes a token, so there are no more rounds than tokens. -/
theorem many {opens : TokenKind → Bool} {goesOn : α → Bool} {item : Lexeme → Procedure α}
    (h : ∀ lexeme, (item lexeme).TerminatesAt depth) :
    (Procedure.many opens goesOn item).TerminatesAt depth := by
  intro state
  have looping : ∃ cursor depths tests loops, (Procedure.many opens goesOn item).Executes depth state
      ((Rule.many opens goesOn fun lexeme => (item lexeme).rule depth).run state) depth
      ⟨cursor, depths, (state.stream.position :: tests) :: loops⟩ := by
    refine Rule.many_induction (motive := fun state reply => ∃ cursor depths tests loops,
      (Procedure.many opens goesOn item).Executes depth state reply depth
        ⟨cursor, depths, (state.stream.position :: tests) :: loops⟩) ?_ ?_ ?_ ?_ state
    · exact fun state closed => ⟨_, _, _, _, .stop closed⟩
    · intro state token rest halt ahead opened result
      obtain ⟨log, runs⟩ := h token.toLexeme state.advance
      exact ⟨_, _, _, _, .broken ahead opened runs result⟩
    · intro state token rest a ahead opened result ends
      obtain ⟨log, runs⟩ := h token.toLexeme state.advance
      exact ⟨_, _, _, _, .last ahead opened runs result ends⟩
    · intro state token rest a others ahead opened result continues ⟨cursor, depths, tests, loops, goes⟩
      obtain ⟨log, runs⟩ := h token.toLexeme state.advance
      exact ⟨_, _, _, _, .again ahead opened runs result continues goes⟩
  obtain ⟨cursor, depths, tests, loops, runs⟩ := looping
  exact ⟨_, runs⟩

theorem separated {separator : TokenKind} {item : Procedure α} (h : item.TerminatesAt depth) :
    (Procedure.separated separator item).TerminatesAt depth :=
  h.andThen fun _ => (many fun _ => h).andThen fun _ => step

theorem part {stops : TokenKind → Bool} {item : Procedure α} (h : item.TerminatesAt depth) :
    (Procedure.part stops item).TerminatesAt depth := by
  have skips : (Rule.skipUntil stops).procedure.TerminatesAt depth :=
    (many fun _ => step).andThen fun _ => step
  refine h.attempt.andThen fun result => ?_
  cases result with
  | none => exact skips.andThen fun _ => step
  | some a => exact step

theorem gather {separator : TokenKind} {stops : TokenKind → Bool} {item : Procedure (Option α)}
    (h : item.TerminatesAt depth) : (Procedure.gather separator stops item).TerminatesAt depth := by
  have lists : (parts separator stops item).TerminatesAt depth := separated (part h)
  intro state
  obtain ⟨log, runs⟩ := lists state
  rw [rule_parts] at runs
  have same : (Procedure.gather separator stops item).rule depth =
      Rule.gather separator stops (item.rule depth) := rfl
  rw [same]
  cases result : ((Rule.separated separator
    (Rule.part (fun kind => kind = separator || stops kind) (item.rule depth))).run state).result with
  | ok items =>
    rw [Rule.run_gather_of_ok result]
    exact ⟨_, .gather runs result⟩
  | error halt =>
    rw [Rule.run_gather_of_error result]
    exact ⟨_, .gather_halt runs result⟩

end TerminatesAt

end Procedure

end Cql
