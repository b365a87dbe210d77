/-
Runs without a report.

A rule reads a value if it comes to it and reports nothing.  Reading is a relation of states and
values, and each form of rules has its own law.  Recovery has no part in it: a rule that halts has
reported why (`Rule.reports_of_halt`), so a list that may be broken reads like any other list.

* `Rule.Reads` — a rule comes to a value and reports nothing;
* `Rule.reads_bind`, `Rule.reads_attempt`, `Rule.reads_many`, `Rule.reads_gather` — what the forms of
  rules read;
* `Rule.reads_accept`, `Rule.reads_eatKind`, `Rule.reads_ofKind` — the same for single tokens.
-/
import Cql.Grammar.Basic
import Cql.Grammar.Progress

namespace Cql

/-- Kind of the current token. -/
def State.kind (state : State) : TokenKind := (state.lexeme 0).kind

/-- The rule leads from `state` to `after` with a value, and reports nothing. -/
def Rule.Reads {α : Type} (rule : Rule α) (state : State) (a : α) (after : State) : Prop :=
  rule.run state = ⟨.ok a, after, []⟩

/-! ### A run without reports comes to a value -/

namespace Run

theorem andThen_assoc {α β γ : Type} (first : Run α) (second : α → Run β) (third : β → Run γ) :
    andThen (andThen first second) third = andThen first fun a => andThen (second a) third := by
  funext state
  unfold andThen
  match result : (first state).result with
  | .error halt => simp [result]
  | .ok a =>
    match result' : (second a (first state).state).result with
    | .error halt => simp [result, result']
    | .ok b => simp [result, result']

variable {α β : Type} {P : α → Prop} {Q : β → Prop}

/-- Two runs in a row come to a value without a report if both do. -/
theorem andThen_eq_ok {α β : Type} {first : Run α} {second : α → Run β} {state after : State}
    {b : β} :
    andThen first second state = ⟨.ok b, after, []⟩ ↔
      ∃ a mid, first state = ⟨.ok a, mid, []⟩ ∧ second a mid = ⟨.ok b, after, []⟩ := by
  constructor
  · intro h
    unfold andThen at h
    match reply : first state with
    | ⟨.error halt, mid, reports⟩ => simp [reply] at h
    | ⟨.ok a, mid, reports⟩ =>
      simp only [reply, Reply.mk.injEq, List.append_eq_nil_iff] at h
      obtain ⟨result, same, rfl, silent⟩ := h
      exact ⟨a, mid, rfl, by rw [← result, ← same, ← silent]⟩
  · rintro ⟨a, mid, h, h'⟩
    simp [andThen, h, h']

/-- Whenever the run reports nothing, it comes to a value, and to one with property `P`. -/
def Candid (run : Run α) (P : α → Prop) : Prop :=
  ∀ state, (run state).reports = [] → ∃ a, (run state).result = .ok a ∧ P a

namespace Candid

theorem done {a : α} (h : P a) : Candid (Run.done a) P :=
  fun _ _ => ⟨a, rfl, h⟩

theorem andThen {run : Run α} {next : α → Run β} (first : Candid run P)
    (second : ∀ a, P a → Candid (next a) Q) : Candid (Run.andThen run next) Q := by
  intro state
  unfold Run.andThen
  simp only
  split
  · rename_i a result
    intro silent
    obtain ⟨none, none'⟩ := List.append_eq_nil_iff.1 silent
    obtain ⟨a', result', h⟩ := first state none
    rw [result, Except.ok.injEq] at result'
    subst result'
    exact second a h _ none'
  · rename_i halt result
    intro silent
    obtain ⟨a, result', -⟩ := first state silent
    rw [result] at result'
    exact absurd result' (by simp)

theorem attempt {run : Run α} (first : Candid run P) :
    Candid (Run.attempt run) fun result => ∃ a, result = some a ∧ P a := by
  intro state
  unfold Run.attempt
  simp only
  split
  · rename_i a result
    intro silent
    obtain ⟨a', result', h⟩ := first state silent
    rw [result, Except.ok.injEq] at result'
    exact ⟨some a, rfl, a, rfl, result' ▸ h⟩
  all_goals
    rename_i result
    intro silent
    obtain ⟨a, result', -⟩ := first state silent
    rw [result] at result'
    exact absurd result' (by simp)

theorem manyUpTo {opens : TokenKind → Bool} {goesOn : α → Bool} {item : Lexeme → Run α}
    (items : ∀ lexeme, Candid (item lexeme) P) (bound : Nat) :
    Candid (Run.manyUpTo opens goesOn item bound) fun as => ∀ a ∈ as, P a := by
  induction bound with
  | zero => exact done (by simp)
  | succ bound ih =>
    intro state
    unfold Run.manyUpTo
    split
    · exact fun _ => ⟨[], rfl, by simp⟩
    rename_i token rest ahead
    split
    · simp only
      split
      · rename_i halt result
        intro silent
        obtain ⟨a, result', -⟩ := items _ _ silent
        rw [result] at result'
        exact absurd result' (by simp)
      · -- The reports of an item and of those after it are both among all reports.
        rename_i a result
        have value : (item token.toLexeme state.advance).reports = [] → P a := by
          intro silent
          obtain ⟨a', result', h⟩ := items _ _ silent
          rw [result, Except.ok.injEq] at result'
          exact result' ▸ h
        split
        · intro silent
          obtain ⟨none, none'⟩ := List.append_eq_nil_iff.1 silent
          obtain ⟨as, results, h⟩ := ih _ none'
          refine ⟨a :: as, by simp [results, Except.map], ?_⟩
          simpa using ⟨value none, h⟩
        · exact fun silent => ⟨[a], rfl, by simpa using value silent⟩
    · exact fun _ => ⟨[], rfl, by simp⟩

theorem many {opens : TokenKind → Bool} {goesOn : α → Bool} {item : Lexeme → Run α}
    (items : ∀ lexeme, Candid (item lexeme) P) :
    Candid (Run.many opens goesOn item) fun as => ∀ a ∈ as, P a :=
  fun state => manyUpTo items _ state

theorem part {resync : Run Unit} {item : Run α} (reads : Candid item P) :
    Candid (Run.part resync item) fun result => ∃ a, result = some a ∧ P a := by
  refine andThen (attempt reads) fun result h => ?_
  obtain ⟨a, rfl, h⟩ := h
  exact done ⟨a, rfl, h⟩

/-- If no part is broken, all that were not left out are kept. -/
theorem settle {parts : List (Option (Option α))} (whole : ∀ part ∈ parts, part.isSome) :
    Run.settle parts = Run.done (parts.filterMap Option.join) := by
  unfold Run.settle
  have none_broken : parts.any Option.isNone = false := by
    rw [List.any_eq_false]
    intro part h
    simp [Option.isNone_iff_eq_none, Option.isSome_iff_ne_none.1 (whole part h)]
  simp [none_broken]

theorem gather {separator : TokenKind} {stops : TokenKind → Bool} {item : Run (Option α)}
    (reads : Candid item fun _ => True) :
    Candid (Run.gather separator stops item) fun _ => True := by
  refine andThen (part reads) fun first h => andThen (many fun _ => part reads) fun rest h' => ?_
  rw [settle]
  · exact done trivial
  · rw [List.forall_mem_cons]
    constructor
    · obtain ⟨a, rfl, -⟩ := h
      rfl
    · intro part mem
      obtain ⟨a, rfl, -⟩ := h' part mem
      rfl

end Candid

end Run

/-- A rule that reports nothing comes to a value. -/
theorem Rule.run_candid {α : Type} (rule : Rule α) : Run.Candid rule.run fun _ => True := by
  induction rule with
  | done a => exact Run.Candid.done trivial
  | andThen rule next first second => exact Run.Candid.andThen first fun a _ => second a
  | look n => exact fun state _ => ⟨state.lexeme n, rfl, trivial⟩
  | take => exact fun state _ => ⟨state.lexeme 0, rfl, trivial⟩
  | marker? =>
    intro state _
    unfold Rule.run
    split
    · exact ⟨_, rfl, trivial⟩
    · exact ⟨_, rfl, trivial⟩
  | position => exact fun state _ => ⟨state.stream.position, rfl, trivial⟩
  | report problem place => exact fun state h => absurd h (by simp [Rule.run])
  | fail problem place => exact fun state h => absurd h (by simp [Rule.run])
  | abort problem place => exact fun state h => absurd h (by simp [Rule.run])
  | attempt rule ih =>
    intro state silent
    obtain ⟨a, result, -⟩ := Run.Candid.attempt ih state silent
    exact ⟨a, result, trivial⟩
  | many opens goesOn item ih =>
    intro state silent
    obtain ⟨as, result, -⟩ := Run.Candid.many ih state silent
    exact ⟨as, result, trivial⟩
  | gather separator stops item ih => exact Run.Candid.gather ih

/-! ### What the forms of rules read -/

namespace Rule

variable {α β : Type} {state after : State}

/-- What a rule reads, by the parts of its reply. -/
theorem reads_iff {rule : Rule α} {a : α} :
    rule.Reads state a after ↔ (rule.run state).result = .ok a ∧ (rule.run state).state = after ∧
      (rule.run state).reports = [] := by
  unfold Reads
  constructor
  · intro h
    rw [h]
    exact ⟨rfl, rfl, rfl⟩
  · rintro ⟨result, rfl, silent⟩
    rw [← result, ← silent]

theorem reads_pure {a b : α} : (pure a : Rule α).Reads state b after ↔ b = a ∧ after = state := by
  simp only [reads_iff, pure, run, Run.done, Except.ok.injEq]
  constructor
  · rintro ⟨rfl, rfl, -⟩
    exact ⟨rfl, rfl⟩
  · rintro ⟨rfl, rfl⟩
    exact ⟨rfl, rfl, trivial⟩

theorem reads_bind {rule : Rule α} {next : α → Rule β} {b : β} :
    (rule >>= next).Reads state b after ↔
      ∃ a mid, rule.Reads state a mid ∧ (next a).Reads mid b after :=
  Run.andThen_eq_ok

theorem reads_map {rule : Rule α} {f : α → β} {b : β} :
    (f <$> rule).Reads state b after ↔ ∃ a, rule.Reads state a after ∧ b = f a := by
  have unfolded : f <$> rule = rule >>= fun a => pure (f a) := rfl
  rw [unfolded, reads_bind]
  constructor
  · rintro ⟨a, mid, first, second⟩
    obtain ⟨rfl, rfl⟩ := reads_pure.1 second
    exact ⟨a, first, rfl⟩
  · rintro ⟨a, first, rfl⟩
    exact ⟨a, after, first, reads_pure.2 ⟨rfl, rfl⟩⟩

theorem reads_look {n : Nat} {lexeme : Lexeme} :
    (look n).Reads state lexeme after ↔ lexeme = state.lexeme n ∧ after = state := by
  rw [reads_iff]
  simp [run, eq_comm]

theorem reads_take {lexeme : Lexeme} :
    take.Reads state lexeme after ↔ lexeme = state.lexeme 0 ∧ after = state.advance := by
  rw [reads_iff]
  simp [run, eq_comm]

theorem reads_position {n : Nat} :
    position.Reads state n after ↔ n = state.stream.position ∧ after = state := by
  rw [reads_iff]
  simp [run, eq_comm]

theorem reads_marker {ordinal : Option Nat} :
    marker?.Reads state ordinal after ↔
      state.kind = .punctuation .questionMark ∧ ordinal = some state.markers.count ∧
          after = { state.advance with markers := state.markers.next.2 } ∨
        state.kind ≠ .punctuation .questionMark ∧ ordinal = none ∧ after = state := by
  rw [reads_iff]
  unfold run State.kind
  by_cases h : (state.lexeme 0).kind = .punctuation .questionMark
  · simp [h, BindMarkers.next, eq_comm]
  · simp [h, eq_comm]

theorem not_reads_report {problem : Problem} {place : Place} {u : Unit} :
    ¬ (report problem place).Reads state u after := by
  simp [reads_iff, run]

theorem not_reads_fail {problem : Problem} {place : Place} {a : α} :
    ¬ (fail problem place : Rule α).Reads state a after := by
  simp [reads_iff, run]

theorem not_reads_abort {problem : Problem} {place : Place} {a : α} :
    ¬ (abort problem place : Rule α).Reads state a after := by
  simp [reads_iff, run]

theorem reads_attempt {rule : Rule α} {result : Option α} :
    (attempt rule).Reads state result after ↔ ∃ a, result = some a ∧ rule.Reads state a after := by
  constructor
  · intro h
    obtain ⟨result', same, silent⟩ := reads_iff.1 h
    -- The rule itself reported nothing, so it cannot have halted.
    have silent' : (rule.run state).reports = [] := by
      rw [← silent, run, Run.attempt]
      split <;> rfl
    obtain ⟨a, value, -⟩ := rule.run_candid state silent'
    simp only [run, Run.attempt, value, Except.ok.injEq] at result' same
    exact ⟨a, result'.symm, reads_iff.2 ⟨value, same, silent'⟩⟩
  · rintro ⟨a, rfl, h⟩
    unfold Reads at h
    simp [Reads, run, Run.attempt, h]

/-- How a list of items is read: item by item, each after a token that opens it. -/
inductive ReadsMany (opens : TokenKind → Bool) (goesOn : α → Bool) (item : Lexeme → Rule α) :
    State → List α → State → Prop
  | stop {state : State} (closed : ∀ token ∈ state.stream.ahead.head?, opens token.kind = false) :
      ReadsMany opens goesOn item state [] state
  | last {state after : State} {token : Token} {rest : List Token} {a : α}
      (ahead : state.stream.ahead = token :: rest) (opened : opens token.kind = true)
      (first : (item token.toLexeme).Reads state.advance a after) (ends : goesOn a = false) :
      ReadsMany opens goesOn item state [a] after
  | more {state mid after : State} {token : Token} {rest : List Token} {a : α} {as : List α}
      (ahead : state.stream.ahead = token :: rest) (opened : opens token.kind = true)
      (first : (item token.toLexeme).Reads state.advance a mid) (continues : goesOn a = true)
      (others : ReadsMany opens goesOn item mid as after) :
      ReadsMany opens goesOn item state (a :: as) after

theorem reads_many {opens : TokenKind → Bool} {goesOn : α → Bool} {item : Lexeme → Rule α}
    {as : List α} :
    (many opens goesOn item).Reads state as after ↔ ReadsMany opens goesOn item state as after := by
  constructor
  · intro h
    obtain ⟨result, rfl, silent⟩ := reads_iff.1 h
    refine many_induction (motive := fun state reply => ∀ as, reply.result = .ok as →
      reply.reports = [] → ReadsMany opens goesOn item state as reply.state) ?_ ?_ ?_ ?_ state as result silent
    · intro state closed as result _
      rw [← Except.ok.inj result]
      exact .stop closed
    · intro state token rest halt _ _ _ as result
      cases result
    · intro state token rest a ahead opened found ends as result silent
      rw [← Except.ok.inj result]
      exact .last ahead opened (reads_iff.2 ⟨found, rfl, silent⟩) ends
    · intro state token rest a others ahead opened found continues later as result silent
      obtain ⟨silent, silent'⟩ := List.append_eq_nil_iff.1 silent
      cases value : others.result with
      | error halt => simp [value, Except.map] at result
      | ok as' =>
        obtain rfl : a :: as' = as := by simpa [value, Except.map] using result
        exact .more ahead opened (reads_iff.2 ⟨found, rfl, silent⟩) continues (later as' value silent')
  · intro h
    induction h with
    | @stop state closed =>
      rw [Reads, run_many]
      cases ahead : state.stream.ahead with
      | nil => rfl
      | cons token rest => simp [closed token (by simp [ahead])]
    | last ahead opened first ends =>
      rw [Reads, run_many]
      unfold Reads at first
      simp [ahead, opened, first, ends]
    | more ahead opened first continues others ih =>
      rw [Reads, run_many]
      unfold Reads at first ih
      simp [ahead, opened, first, continues, ih, Except.map]

/-! ### Lists that may be broken -/

/-- An item of a list that may be broken, as a rule of its own. -/
def part (stops : TokenKind → Bool) (item : Rule α) : Rule (Option α) := do
  match ← attempt item with
  | some a => return some a
  | none =>
    skipUntil stops
    return none

theorem reads_part {stops : TokenKind → Bool} {item : Rule α} {result : Option α} :
    (part stops item).Reads state result after ↔ ∃ a, result = some a ∧ item.Reads state a after := by
  unfold part
  rw [reads_bind]
  constructor
  · rintro ⟨_, mid, first, second⟩
    obtain ⟨a, rfl, reads⟩ := reads_attempt.1 first
    obtain ⟨rfl, rfl⟩ := reads_pure.1 second
    exact ⟨a, rfl, reads⟩
  · rintro ⟨a, rfl, first⟩
    exact ⟨some a, after, reads_attempt.2 ⟨a, rfl, first⟩, reads_pure.2 ⟨rfl, rfl⟩⟩

theorem reads_separated {separator : TokenKind} {item : Rule α} {as : List α} :
    (separated separator item).Reads state as after ↔ ∃ a mid rest, as = a :: rest ∧
      item.Reads state a mid ∧
        ReadsMany (· = separator) (fun _ => true) (fun _ => item) mid rest after := by
  unfold separated following
  simp only [reads_bind, reads_pure, reads_many]
  constructor
  · rintro ⟨a, mid, first, rest, last, others, rfl, rfl⟩
    exact ⟨a, mid, rest, rfl, first, others⟩
  · rintro ⟨a, mid, rest, rfl, first, others⟩
    exact ⟨a, mid, first, rest, after, others, rfl, rfl⟩

/-- A list of items that are read whole wherever they are read is the list of what they read. -/
theorem readsMany_some {opens : TokenKind → Bool} {goesOn : Option α → Bool} {item : Rule α}
    {tried : Rule (Option α)} {results : List (Option α)}
    (reads_tried : ∀ {state result after}, tried.Reads state result after ↔
      ∃ a, result = some a ∧ item.Reads state a after)
    (goesOn_some : ∀ a, goesOn (some a) = true) :
    ReadsMany opens goesOn (fun _ => tried) state results after ↔
      ∃ as, results = as.map some ∧
        ReadsMany opens (fun _ => true) (fun _ => item) state as after := by
  constructor
  · intro h
    induction h with
    | stop closed => exact ⟨[], rfl, .stop closed⟩
    | last ahead opened first ends =>
      -- Only an item that is not read whole ends the list early.
      obtain ⟨a, rfl, reads⟩ := reads_tried.1 first
      exact absurd ends (by simp [goesOn_some])
    | more ahead opened first continues others ih =>
      obtain ⟨a, rfl, reads⟩ := reads_tried.1 first
      obtain ⟨as, rfl, others'⟩ := ih
      exact ⟨a :: as, rfl, .more ahead opened reads rfl others'⟩
  · rintro ⟨as, rfl, h⟩
    induction h with
    | stop closed => exact .stop closed
    | last ahead opened first ends => exact absurd ends (by simp)
    | more ahead opened first continues others ih =>
      exact .more ahead opened (reads_tried.2 ⟨_, rfl, first⟩) (goesOn_some _) ih

theorem readsMany_part {opens stops : TokenKind → Bool} {item : Rule α} {parts : List (Option α)} :
    ReadsMany opens (fun _ => true) (fun _ => part stops item) state parts after ↔
      ∃ as, parts = as.map some ∧
        ReadsMany opens (fun _ => true) (fun _ => item) state as after :=
  readsMany_some reads_part fun _ => rfl

theorem run_part (stops : TokenKind → Bool) (item : Rule α) :
    (part stops item).run = Run.part (Run.skipUntil stops) item.run := by
  have after : ∀ result : Option α,
      (match result with
        | some a => pure (some a)
        | none => do
          skipUntil stops
          return none : Rule (Option α)).run =
      match result with
        | some a => Run.done (some a)
        | none => Run.andThen (Run.skipUntil stops) fun _ => Run.done none := by
    intro result
    cases result <;> rfl
  exact congrArg (Run.andThen (Run.attempt item.run)) (funext after)

/-- The meaning of a list that may be broken: read its parts, then see what is left of them. -/
theorem run_gather (separator : TokenKind) (stops : TokenKind → Bool) (item : Rule (Option α)) :
    (gather separator stops item).run =
      Run.andThen (separated separator
        (part (fun kind => kind = separator || stops kind) item)).run Run.settle := by
  have unfolded : ∀ rule : Rule (Option (Option α)), (separated separator rule).run =
      Run.andThen rule.run fun first => Run.andThen
        (Run.many (· = separator) (fun _ => true) fun _ => rule.run) fun rest =>
          Run.done (first :: rest) := fun _ => rfl
  have absorbed : ∀ {β γ : Type} (a : β) (next : β → Run γ),
      Run.andThen (Run.done a) next = next a := fun _ _ => rfl
  rw [unfolded]
  simp only [Run.andThen_assoc, absorbed, run_part]
  rfl

/-- What a list of parts comes to is found without a token. -/
theorem state_gather (separator : TokenKind) (stops : TokenKind → Bool) (item : Rule (Option α))
    (state : State) : ((gather separator stops item).run state).state = ((separated separator
      (part (fun kind => kind = separator || stops kind) item)).run state).state := by
  rw [run_gather]
  unfold Run.andThen Run.settle
  simp only
  split
  · split
    · rfl
    · rfl
  · rfl

/-- A list that may be broken reads as one that may not, but for the items that came out empty. -/
theorem reads_gather {separator : TokenKind} {stops : TokenKind → Bool} {item : Rule (Option α)}
    {as : List α} :
    (gather separator stops item).Reads state as after ↔ ∃ parts, as = parts.filterMap id ∧
      (separated separator item).Reads state parts after := by
  have settled : ∀ parts : List (Option α),
      Run.settle (parts.map some) = Run.done (parts.filterMap id) := by
    intro parts
    rw [Run.Candid.settle (by simp), List.filterMap_map]
    rfl
  rw [Reads, run_gather, Run.andThen_eq_ok]
  constructor
  · rintro ⟨parts, mid, first, second⟩
    -- Parts that were read without a report were not broken.
    obtain ⟨a, mid', rest, rfl, head, others⟩ := reads_separated.1 first
    obtain ⟨a, rfl, reads⟩ := reads_part.1 head
    obtain ⟨rest, rfl, others'⟩ := readsMany_part.1 others
    rw [← List.map_cons, settled] at second
    simp only [Run.done, Reply.mk.injEq, Except.ok.injEq, and_true] at second
    obtain ⟨rfl, rfl⟩ := second
    exact ⟨a :: rest, rfl, reads_separated.2 ⟨a, mid', rest, rfl, reads, others'⟩⟩
  · rintro ⟨parts, rfl, h⟩
    obtain ⟨a, mid, rest, rfl, head, others⟩ := reads_separated.1 h
    refine ⟨(a :: rest).map some, after, ?_, by rw [settled]; rfl⟩
    exact reads_separated.2 ⟨some a, mid, rest.map some, rfl, reads_part.2 ⟨a, rfl, head⟩,
      readsMany_part.2 ⟨rest, rfl, others⟩⟩

/-! ### Single tokens -/

/-- A rule that always reads `x` and leads to `mid` drops out of what is read. -/
theorem reads_bind_of {rule : Rule α} {next : α → Rule β} {x : α} {mid : State} {b : β}
    (only : ∀ a mid', rule.Reads state a mid' ↔ a = x ∧ mid' = mid) :
    (rule >>= next).Reads state b after ↔ (next x).Reads mid b after := by
  rw [reads_bind]
  constructor
  · rintro ⟨a, mid', first, second⟩
    obtain ⟨rfl, rfl⟩ := (only a mid').1 first
    exact second
  · exact fun second => ⟨x, mid, (only x mid).2 ⟨rfl, rfl⟩, second⟩

variable {b : β}

@[simp] theorem reads_pure_bind {a : α} {next : α → Rule β} :
    (pure a >>= next).Reads state b after ↔ (next a).Reads state b after :=
  reads_bind_of fun _ _ => reads_pure

@[simp] theorem reads_look_bind {n : Nat} {next : Lexeme → Rule β} :
    (look n >>= next).Reads state b after ↔ (next (state.lexeme n)).Reads state b after :=
  reads_bind_of fun _ _ => reads_look

@[simp] theorem reads_position_bind {next : Nat → Rule β} :
    (position >>= next).Reads state b after ↔ (next state.stream.position).Reads state b after :=
  reads_bind_of fun _ _ => reads_position

@[simp] theorem reads_kind_bind {next : TokenKind → Rule β} :
    (Rule.kind >>= next).Reads state b after ↔ (next state.kind).Reads state b after := by
  refine reads_bind_of fun a mid => ?_
  unfold Rule.kind
  rw [reads_look_bind, reads_pure]
  rfl

@[simp] theorem reads_nextKind_bind {next : TokenKind → Rule β} :
    (nextKind >>= next).Reads state b after ↔ (next (state.lexeme 1).kind).Reads state b after := by
  refine reads_bind_of fun a mid => ?_
  unfold nextKind
  rw [reads_look_bind, reads_pure]

@[simp] theorem reads_here_bind {next : Place → Rule β} :
    (here >>= next).Reads state b after ↔
      (next (.token state.stream.position)).Reads state b after := by
  refine reads_bind_of fun a mid => ?_
  unfold here
  rw [reads_position_bind, reads_pure]

@[simp] theorem reads_since_bind {first : Nat} {next : Place → Rule β} :
    (since first >>= next).Reads state b after ↔
      (next (.stretch first (state.stream.position - 1))).Reads state b after := by
  refine reads_bind_of fun a mid => ?_
  unfold since
  rw [reads_position_bind, reads_pure]

@[simp] theorem reads_advance_bind {next : Unit → Rule β} :
    (Rule.advance >>= next).Reads state b after ↔ (next ()).Reads state.advance b after := by
  refine reads_bind_of fun a mid => ?_
  unfold Rule.advance
  rw [reads_bind_of fun _ _ => reads_take, reads_pure]

theorem not_reads_report_bind {problem : Problem} {place : Place} {next : Unit → Rule β} :
    ¬ (report problem place >>= next).Reads state b after := by
  rw [reads_bind]
  rintro ⟨u, mid, first, -⟩
  exact not_reads_report first

theorem not_reads_expected {what context : String} :
    ¬ (expected what context : Rule β).Reads state b after := by
  unfold expected
  rw [reads_kind_bind, reads_here_bind]
  exact not_reads_fail

theorem reads_accept {read : Lexeme → Option α} {what context : String} {a : α} :
    (accept read what context).Reads state a after ↔
      read (state.lexeme 0) = some a ∧ after = state.advance := by
  unfold accept accept?
  rw [reads_bind]
  constructor
  · rintro ⟨result, mid, looked, second⟩
    rw [reads_look_bind] at looked
    cases seen : read (state.lexeme 0) with
    | none =>
      simp only [seen, reads_pure] at looked
      obtain ⟨rfl, rfl⟩ := looked
      exact absurd second not_reads_expected
    | some b =>
      simp only [seen, reads_advance_bind, reads_pure] at looked
      obtain ⟨rfl, rfl⟩ := looked
      obtain ⟨rfl, rfl⟩ := reads_pure.1 second
      exact ⟨rfl, rfl⟩
  · rintro ⟨seen, rfl⟩
    refine ⟨some a, state.advance, ?_, reads_pure.2 ⟨rfl, rfl⟩⟩
    rw [reads_look_bind]
    simp only [seen, reads_advance_bind, reads_pure, and_self]

theorem reads_eatKind {wanted : TokenKind} {eaten : Bool} :
    (eatKind wanted).Reads state eaten after ↔
      state.kind = wanted ∧ eaten = true ∧ after = state.advance ∨
        state.kind ≠ wanted ∧ eaten = false ∧ after = state := by
  unfold eatKind
  rw [reads_kind_bind]
  by_cases same : state.kind = wanted
  · simp [same, reads_pure]
  · simp [same, reads_pure]

theorem reads_ofKind {wanted : TokenKind} {context : String} {u : Unit} :
    (ofKind wanted context).Reads state u after ↔
      state.kind = wanted ∧ after = state.advance := by
  unfold ofKind
  simp only [reads_bind, reads_eatKind]
  constructor
  · rintro ⟨eaten, mid, ⟨same, rfl, rfl⟩ | ⟨other, rfl, rfl⟩, h⟩
    · exact ⟨same, (reads_pure.1 h).2⟩
    · exact absurd h not_reads_expected
  · rintro ⟨same, rfl⟩
    exact ⟨true, _, .inl ⟨same, rfl, rfl⟩, reads_pure.2 ⟨rfl, rfl⟩⟩

end Rule

end Cql
