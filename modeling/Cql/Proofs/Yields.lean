/-
What rules come to, whatever they report.

A statement outlives many faults: a broken item is skipped, a list is closed where it breaks off, a
property without a value is left out.  What holds of a value that a rule comes to, on every way there, is
put together from the parts of the rule just as what a rule reads without a report.

* `Rule.run_bind_of_ok`, `Rule.bind_eq_ok` — the run of two rules in a row;
* `Rule.SucceedsAt` — from a state the rule comes to a value;
* `Rule.Yields` — every value that the rule comes to has a property;
* `Rule.Yields.many`, `Rule.Yields.separated`, `Rule.Yields.twoOrMore` — lists;
* `Rule.Yields.gather`, `Rule.Yields.gather_ne_nil`, `Rule.Yields.salvaged`, `Rule.Yields.restoring` —
  lists and items that may be broken.
-/
import Cql.Proofs.Reading

namespace Cql.Rule

variable {α β : Type} {state : State}

/-! ### Two rules in a row -/

theorem run_bind_of_ok {rule : Rule α} {next : α → Rule β} {a : α}
    (found : (rule.run state).result = .ok a) : (rule >>= next).run state =
      let second := (next a).run (rule.run state).state
      ⟨second.result, second.state, (rule.run state).reports ++ second.reports⟩ := by
  show Run.andThen rule.run _ state = _
  simp [Run.andThen, found]

theorem run_bind_of_error {rule : Rule α} {next : α → Rule β} {halt : Halt}
    (halts : (rule.run state).result = .error halt) :
    (rule >>= next).run state = ⟨.error halt, (rule.run state).state, (rule.run state).reports⟩ := by
  show Run.andThen rule.run _ state = _
  simp [Run.andThen, halts]

/-- After a rule that reads, the next one runs from where it ended. -/
theorem Reads.run_bind {first : Rule α} {next : α → Rule β} {a : α} {mid : State}
    (reads : first.Reads state a mid) : (first >>= next).run state = (next a).run mid := by
  obtain ⟨found, rfl, silent⟩ := reads_iff.1 reads
  rw [run_bind_of_ok found, silent]
  rfl

theorem run_bind_congr {rule : Rule α} {next other : α → Rule β}
    (same : ∀ a, (next a).run = (other a).run) : (rule >>= next).run = (rule >>= other).run :=
  congrArg (Run.andThen rule.run) (funext same)

theorem run_bind_assoc {γ : Type} (rule : Rule α) (next : α → Rule β) (last : β → Rule γ) :
    (rule >>= next >>= last).run = (rule >>= fun a => next a >>= last).run :=
  Run.andThen_assoc _ _ _

/-- Two rules in a row come to a value if both do. -/
theorem bind_eq_ok {rule : Rule α} {next : α → Rule β} {b : β}
    (found : ((rule >>= next).run state).result = .ok b) : ∃ a, (rule.run state).result = .ok a ∧
      ((next a).run (rule.run state).state).result = .ok b ∧
      ((rule >>= next).run state).state = ((next a).run (rule.run state).state).state := by
  cases result : (rule.run state).result with
  | error halt =>
    rw [run_bind_of_error result] at found
    exact absurd found (by simp)
  | ok a =>
    rw [run_bind_of_ok result] at found ⊢
    exact ⟨a, rfl, found, rfl⟩

theorem state_attempt (rule : Rule α) : ((attempt rule).run state).state = (rule.run state).state := by
  show (Run.attempt rule.run state).state = _
  unfold Run.attempt
  simp only
  split <;> rfl

/-- An attempt comes back with nothing where the rule halts and can be recovered from. -/
theorem attempt_eq_ok_none {rule : Rule α} :
    ((attempt rule).run state).result = .ok none ↔ (rule.run state).result = .error .recorded := by
  show (Run.attempt rule.run state).result = _ ↔ _
  unfold Run.attempt
  simp only
  split <;> simp [*]

/-- An attempt comes back with what the rule comes to. -/
theorem attempt_eq_ok_some {rule : Rule α} {a : α} :
    ((attempt rule).run state).result = .ok (some a) ↔ (rule.run state).result = .ok a := by
  show (Run.attempt rule.run state).result = _ ↔ _
  unfold Run.attempt
  simp only
  split <;> simp [*]

/-! ### One round of a list -/

section

variable {opens : TokenKind → Bool} {goesOn : α → Bool} {item : Lexeme → Rule α} {token : Token}
  {rest : List Token}

theorem run_many_of_nil (ahead : state.stream.ahead = []) :
    (many opens goesOn item).run state = ⟨.ok [], state, []⟩ := by
  rw [run_many, ahead]

theorem run_many_of_closed (ahead : state.stream.ahead = token :: rest)
    (closed : opens token.kind = false) :
    (many opens goesOn item).run state = ⟨.ok [], state, []⟩ := by
  rw [run_many, ahead]
  simp [closed]

theorem run_many_of_error (ahead : state.stream.ahead = token :: rest)
    (opened : opens token.kind = true) {halt : Halt}
    (halts : ((item token.toLexeme).run state.advance).result = .error halt) :
    (many opens goesOn item).run state =
      ⟨.error halt, ((item token.toLexeme).run state.advance).state,
        ((item token.toLexeme).run state.advance).reports⟩ := by
  rw [run_many, ahead]
  simp [opened, halts]

theorem run_many_of_ok (ahead : state.stream.ahead = token :: rest)
    (opened : opens token.kind = true) {a : α}
    (found : ((item token.toLexeme).run state.advance).result = .ok a) (continues : goesOn a = true) :
    (many opens goesOn item).run state =
      let first := (item token.toLexeme).run state.advance
      let others := (many opens goesOn item).run first.state
      ⟨others.result.map (a :: ·), others.state, first.reports ++ others.reports⟩ := by
  rw [run_many, ahead]
  simp [opened, found, continues]

/-- A list that comes to a value, and has a first item. -/
theorem many_eq_ok_of_ahead {items : List α} (ahead : state.stream.ahead = token :: rest)
    (opened : opens token.kind = true)
    (found : ((many opens (fun _ => true) item).run state).result = .ok items) : ∃ a others,
      items = a :: others ∧ ((item token.toLexeme).run state.advance).result = .ok a ∧
        ((many opens (fun _ => true) item).run ((item token.toLexeme).run state.advance).state).result =
          .ok others := by
  cases first : ((item token.toLexeme).run state.advance).result with
  | error halt =>
    rw [run_many_of_error ahead opened first] at found
    cases found
  | ok a =>
    rw [run_many_of_ok ahead opened first rfl] at found
    cases later : ((many opens (fun _ => true) item).run
        ((item token.toLexeme).run state.advance).state).result with
    | error halt => simp [later, Except.map] at found
    | ok others => exact ⟨a, others, by simpa [later, Except.map] using found.symm, rfl, rfl⟩

/-- A list that comes to a value comes to it item by item. -/
theorem many_ok_induction {motive : State → List α → State → Prop}
    (stop : ∀ state, motive state [] state)
    (last : ∀ {state : State} {token : Token} {rest : List Token} {a : α},
      state.stream.ahead = token :: rest → opens token.kind = true →
      ((item token.toLexeme).run state.advance).result = .ok a → goesOn a = false →
        motive state [a] ((item token.toLexeme).run state.advance).state)
    (more : ∀ {state after : State} {token : Token} {rest : List Token} {a : α} {others : List α},
      state.stream.ahead = token :: rest → opens token.kind = true →
      ((item token.toLexeme).run state.advance).result = .ok a → goesOn a = true →
      motive ((item token.toLexeme).run state.advance).state others after → motive state (a :: others) after)
    {items : List α} (found : ((many opens goesOn item).run state).result = .ok items) :
    motive state items ((many opens goesOn item).run state).state := by
  refine many_induction (motive := fun state reply => ∀ items, reply.result = .ok items →
    motive state items reply.state) ?_ ?_ ?_ ?_ state items found
  · intro state _ items same
    exact Except.ok.inj same ▸ stop state
  · intro state token rest halt _ _ _ items same
    cases same
  · intro state token rest a ahead opened first ends items same
    exact Except.ok.inj same ▸ last ahead opened first ends
  · intro state token rest a others ahead opened first continues later items same
    cases result : others.result with
    | error halt => simp [result, Except.map] at same
    | ok as =>
      obtain rfl : a :: as = items := by simpa [result, Except.map] using same
      exact more ahead opened first continues (later as result)

end

/-! ### Rules that come to a value -/

/-- From this state the rule comes to a value, whatever was reported on the way. -/
def SucceedsAt (state : State) (rule : Rule α) : Prop := ∃ a, (rule.run state).result = .ok a

theorem succeedsAt_pure (a : α) : (pure a : Rule α).SucceedsAt state := ⟨a, rfl⟩

theorem succeedsAt_bind {rule : Rule α} {next : α → Rule β} : (rule >>= next).SucceedsAt state ↔
    ∃ a, (rule.run state).result = .ok a ∧ (next a).SucceedsAt (rule.run state).state := by
  constructor
  · rintro ⟨b, found⟩
    obtain ⟨a, found, found', -⟩ := bind_eq_ok found
    exact ⟨a, found, b, found'⟩
  · rintro ⟨a, found, b, found'⟩
    exact ⟨b, by rw [run_bind_of_ok found]; exact found'⟩

theorem succeedsAt_bind_of_reads {rule : Rule α} {next : α → Rule β} {a : α} {mid : State}
    (reads : rule.Reads state a mid) :
    (rule >>= next).SucceedsAt state ↔ (next a).SucceedsAt mid := by
  obtain ⟨found, rfl, -⟩ := reads_iff.1 reads
  rw [succeedsAt_bind, found]
  constructor
  · rintro ⟨b, same, succeeds⟩
    exact Except.ok.inj same ▸ succeeds
  · exact fun succeeds => ⟨a, rfl, succeeds⟩

theorem succeedsAt_map {rule : Rule α} {f : α → β} :
    (f <$> rule).SucceedsAt state ↔ rule.SucceedsAt state := by
  show (rule >>= fun a => pure (f a)).SucceedsAt state ↔ _
  rw [succeedsAt_bind]
  exact exists_congr fun a => and_iff_left (succeedsAt_pure _)

/-! ### Properties of values -/

/-- What the rule comes to from this state, and the state after it, have the property. -/
def YieldsAt (state : State) (rule : Rule α) (P : α → State → Prop) : Prop :=
  ∀ a, (rule.run state).result = .ok a → P a (rule.run state).state

theorem YieldsAt.bind {rule : Rule α} {next : α → Rule β} {Q : β → State → Prop}
    (second : ∀ a, (rule.run state).result = .ok a → (next a).YieldsAt (rule.run state).state Q) :
    (rule >>= next).YieldsAt state Q := by
  intro b found
  obtain ⟨a, found, found', after⟩ := bind_eq_ok found
  rw [after]
  exact second a found b found'

/-- The cursor has moved on. -/
theorem YieldsAt.of_takes {rule : Rule α} {P : α → State → Prop}
    (h : rule.YieldsAt state fun a after => state.Takes after → P a after) : rule.YieldsAt state P :=
  fun a found => h a found (rule.run_takes state)

/-- Every value that the rule comes to has the property, whatever was reported on the way. -/
def Yields (rule : Rule α) (P : α → Prop) : Prop :=
  ∀ state a, (rule.run state).result = .ok a → P a

namespace Yields

variable {P : α → Prop} {Q : β → Prop}

theorem pure {a : α} (h : P a) : (pure a : Rule α).Yields P := by
  rintro state _ ⟨⟩
  exact h

theorem trivial (rule : Rule α) : rule.Yields fun _ => True := fun _ _ _ => .intro

theorem mono {P' : α → Prop} {rule : Rule α} (h : rule.Yields P) (weaker : ∀ a, P a → P' a) :
    rule.Yields P' := fun state a found => weaker a (h state a found)

theorem and {P' : α → Prop} {rule : Rule α} (h : rule.Yields P) (h' : rule.Yields P') :
    rule.Yields fun a => P a ∧ P' a := fun state a found => ⟨h state a found, h' state a found⟩

theorem bind {rule : Rule α} {next : α → Rule β} (first : rule.Yields P)
    (second : ∀ a, P a → (next a).Yields Q) : (rule >>= next).Yields Q := by
  intro state b found
  obtain ⟨a, found, found', -⟩ := bind_eq_ok found
  exact second a (first state a found) _ b found'

/-- Nothing needs to be known of the first value. -/
theorem after {rule : Rule α} {next : α → Rule β} (second : ∀ a, (next a).Yields Q) :
    (rule >>= next).Yields Q := (trivial rule).bind fun a _ => second a

theorem map {rule : Rule α} {f : α → β} (h : rule.Yields fun a => Q (f a)) : (f <$> rule).Yields Q :=
  h.bind fun _ holds => pure holds

theorem ite {condition : Prop} [Decidable condition] {yes no : Rule α} (first : yes.Yields P)
    (second : no.Yields P) : (if condition then yes else no).Yields P := by
  split
  · exact first
  · exact second

theorem fail (problem : Problem) (place : Place) : (fail problem place : Rule α).Yields P := by
  rintro state a ⟨⟩

theorem abort (problem : Problem) (place : Place) : (abort problem place : Rule α).Yields P := by
  rintro state a ⟨⟩

theorem expected (what context : String) : (expected what context : Rule α).Yields P :=
  after fun _ => after fun _ => fail _ _

theorem tooDeep : (tooDeep : Rule α).Yields P := after fun _ => fail _ _

theorem accept {read : Lexeme → Option α} (what context : String)
    (h : ∀ lexeme a, read lexeme = some a → P a) : (accept read what context).Yields P := by
  have looked : (accept? read).Yields fun result => ∀ a ∈ result, P a := by
    refine after fun lexeme => ?_
    cases seen : read lexeme with
    | none => exact pure (by simp)
    | some a => exact after fun _ => pure (by simpa using h lexeme a seen)
  refine looked.bind fun result holds => ?_
  cases result with
  | none => exact expected what context
  | some a => exact pure (holds a rfl)

theorem attempt {rule : Rule α} (h : rule.Yields P) :
    (attempt rule).Yields fun result => ∀ a ∈ result, P a := by
  intro state result found
  replace found : (Run.attempt rule.run state).result = .ok result := found
  unfold Run.attempt at found
  cases value : (rule.run state).result with
  | ok a =>
    simp only [value, Except.ok.injEq] at found
    subst found
    simpa using h state a value
  | error halt =>
    cases halt with
    | recorded =>
      simp only [value, Except.ok.injEq] at found
      subst found
      simp
    | fatal => simp [value] at found

theorem many {opens : TokenKind → Bool} {goesOn : α → Bool} {item : Lexeme → Rule α}
    (items : ∀ lexeme, (item lexeme).Yields P) :
    (many opens goesOn item).Yields fun as => ∀ a ∈ as, P a := by
  intro state as found
  refine many_ok_induction (motive := fun _ as _ => ∀ a ∈ as, P a) (fun _ => by simp) ?_ ?_ found
  · intro state token rest a _ _ first _
    exact List.forall_mem_singleton.2 (items _ _ a first)
  · intro state after token rest a others _ _ first _ all
    exact List.forall_mem_cons.2 ⟨items _ _ a first, all⟩

section

variable {item : Rule α} (h : item.Yields P)
include h

theorem following (separator : TokenKind) :
    (following separator item).Yields fun as => ∀ a ∈ as, P a := many fun _ => h

theorem separated (separator : TokenKind) :
    (separated separator item).Yields fun as => as ≠ [] ∧ ∀ a ∈ as, P a :=
  h.bind fun _ holds => (following h separator).bind fun _ all =>
    pure ⟨List.cons_ne_nil _ _, List.forall_mem_cons.2 ⟨holds, all⟩⟩

theorem commaSeparated : (commaSeparated item).Yields fun as => as ≠ [] ∧ ∀ a ∈ as, P a :=
  separated h _

theorem twoOrMore (context : String) :
    (twoOrMore context item).Yields fun as => 2 ≤ as.length ∧ ∀ a ∈ as, P a := by
  refine h.bind fun _ holds => after fun _ => (commaSeparated h).bind fun rest ⟨others, all⟩ => pure ?_
  refine ⟨?_, List.forall_mem_cons.2 ⟨holds, all⟩⟩
  have inRest : 0 < rest.length := List.length_pos_iff.2 others
  rw [List.length_cons]
  omega

theorem salvagedAfterComma : (salvagedAfterComma item).Yields fun items => ∀ a ∈ items.kept, P a := by
  refine (many fun _ => h.attempt).bind fun results all => pure fun a mem => ?_
  obtain ⟨result, inResults, same⟩ := List.mem_filterMap.1 mem
  exact all result inResults a same

theorem salvaged : (salvaged item).Yields fun items => ∀ a ∈ items.kept, P a := by
  refine h.attempt.bind fun result holds => ?_
  cases result with
  | none => exact pure (by simp)
  | some first =>
    exact (salvagedAfterComma h).bind fun rest all => pure (List.forall_mem_cons.2 ⟨holds first rfl, all⟩)

end

theorem closed {list : Rule (Salvage α)} (close : Rule Unit)
    (h : list.Yields fun items => ∀ a ∈ items.kept, P a) :
    (closed list close).Yields fun items => ∀ a ∈ items.kept, P a :=
  h.bind fun _ all => ite (after fun _ => pure all) (pure all)

theorem restoring (stops : TokenKind → Bool) {item : Rule (Salvage α)}
    (h : item.Yields fun items => ∀ a ∈ items.kept, P a) :
    (restoring stops item).Yields fun as => ∀ a ∈ as, P a := by
  refine h.attempt.bind fun result holds => ?_
  cases result with
  | none => exact after fun _ => pure (by simp)
  | some items => exact ite (after fun _ => pure (holds items rfl)) (pure (holds items rfl))

/-! ### Lists that may be broken -/

theorem part (stops : TokenKind → Bool) {item : Rule α} (h : item.Yields P) :
    (part stops item).Yields fun result => ∀ a ∈ result, P a := by
  refine h.attempt.bind fun result holds => ?_
  cases result with
  | none => exact after fun _ => pure (by simp)
  | some a => exact pure holds

/-- What a list that may be broken comes to are the items of some of its parts, and not none of them
because all were skipped. -/
theorem exists_parts_of_gather {separator : TokenKind} {stops : TokenKind → Bool}
    {item : Rule (Option α)} {as : List α}
    (found : ((gather separator stops item).run state).result = .ok as) : ∃ parts,
      ((Rule.separated separator (Rule.part (fun kind => kind = separator || stops kind) item)).run
        state).result = .ok parts ∧
      as = parts.filterMap Option.join ∧ (none ∈ parts → as ≠ []) := by
  rw [run_gather] at found
  unfold Run.andThen at found
  cases result : ((Rule.separated separator
      (Rule.part (fun kind => kind = separator || stops kind) item)).run state).result with
  | error halt => simp [result] at found
  | ok parts =>
    simp only [result, Run.settle] at found
    split at found
    · exact absurd found (by simp [Run.halt])
    · rename_i kept
      obtain rfl := Except.ok.inj found
      refine ⟨parts, rfl, rfl, fun broken empty => kept ?_⟩
      rw [Bool.and_eq_true, List.any_eq_true, List.isEmpty_iff]
      exact ⟨⟨none, broken, rfl⟩, empty⟩

theorem gather {separator : TokenKind} (stops : TokenKind → Bool) {item : Rule (Option α)}
    (h : item.Yields fun result => ∀ a ∈ result, P a) :
    (gather separator stops item).Yields fun as => ∀ a ∈ as, P a := by
  intro state as found
  obtain ⟨parts, read, rfl, -⟩ := exists_parts_of_gather found
  obtain ⟨-, all⟩ := separated (part _ h) separator state parts read
  intro a mem
  obtain ⟨result, inParts, same⟩ := List.mem_filterMap.1 mem
  obtain rfl : result = some (some a) := Option.join_eq_some_iff.1 same
  exact all _ inParts _ rfl a rfl

/-- If no item comes out empty, something is kept. -/
theorem gather_ne_nil {separator : TokenKind} (stops : TokenKind → Bool) {item : Rule (Option α)}
    (h : item.Yields fun result => result ≠ none) : (Rule.gather separator stops item).Yields (· ≠ []) := by
  intro state as found
  obtain ⟨parts, read, rfl, broken⟩ := exists_parts_of_gather found
  obtain ⟨some, all⟩ := separated (part _ h) separator state parts read
  obtain ⟨first, inParts⟩ := List.exists_mem_of_ne_nil _ some
  cases first with
  | none => exact broken inParts
  | some result =>
    obtain ⟨a, rfl⟩ := Option.ne_none_iff_exists'.1 (all _ inParts result rfl)
    exact List.ne_nil_of_mem (List.mem_filterMap.2 ⟨_, inParts, rfl⟩)

end Yields

end Cql.Rule
