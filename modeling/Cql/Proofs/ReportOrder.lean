/-
Reports in the order of their places.

What a rule reports comes in the order of the tokens that it is about: no report begins in front of the
end of an earlier one, none begins in front of the token where the rule started, and none reaches behind
the cursor.  Where each report is about the current token, this goes from rule to rule by itself.  Some
rules note a place, take more tokens and only then report it; such a rule keeps the order because nothing
is reported in between.

* `Rule.Quiet` — a rule that reports nothing unless it halts;
* `Report.InOrder` — reports in the order of their places, between two tokens;
* `Rule.OrderedAt`, `Rule.Ordered` — a rule whose reports are in order, from a state or from every state;
* `Rule.OrderedAt.bind`, `Rule.OrderedAt.bind_quiet` — a rule after another one, and after a quiet one;
* `Rule.OrderedAt.many`, `Rule.Ordered.gather` — lists, the broken items among them.
-/
import Cql.Proofs.MissingSigns

namespace Cql

/-! ### Quiet rules -/

namespace Rule

/-- A rule that reports nothing unless it halts. -/
def Quiet {α : Type} : Rule α → Prop
  | done _ | look _ | take | marker? | position | fail _ _ | abort _ _ => True
  | andThen rule next => rule.Quiet ∧ ∀ a, (next a).Quiet
  | many _ _ item => ∀ lexeme, (item lexeme).Quiet
  | report _ _ | attempt _ | gather _ _ _ => False

namespace Quiet

/-- A quiet list is as quiet as its items, which are read one after another. -/
theorem reports_many {α : Type} {opens : TokenKind → Bool} {goesOn : α → Bool}
    {item : Lexeme → Rule α} {state : State} {as : List α}
    (quiet : ∀ lexeme state a, ((item lexeme).run state).result = .ok a →
      ((item lexeme).run state).reports = [])
    (h : ((Rule.many opens goesOn item).run state).result = .ok as) :
    ((Rule.many opens goesOn item).run state).reports = [] := by
  refine many_induction (motive := fun _ reply => ∀ as, reply.result = .ok as → reply.reports = [])
    (fun _ _ _ _ => rfl) ?_ ?_ ?_ state as h
  · intro state token rest halt _ _ _ as same
    cases same
  · intro state token rest a _ _ found _ _ _
    exact quiet _ _ a found
  · intro state token rest a others _ _ found _ later as same
    cases result : others.result with
    | error halt => simp [result, Except.map] at same
    | ok as => exact List.append_eq_nil_iff.2 ⟨quiet _ _ a found, later as result⟩

/-- A quiet rule that comes to a value has reported nothing. -/
protected theorem run {α : Type} {rule : Rule α} (quiet : rule.Quiet) {state : State} {a : α}
    (h : (rule.run state).result = .ok a) : (rule.run state).reports = [] := by
  induction rule generalizing state with
  | done a => rfl
  | andThen rule next first second =>
    unfold run Run.andThen at h ⊢
    cases result : (rule.run state).result with
    | error halt => simp [result] at h
    | ok b =>
      simp only [result] at h ⊢
      rw [first quiet.1 result, second b (quiet.2 b) h, List.append_nil]
  | look n => rfl
  | take => rfl
  | marker? =>
    unfold run
    split
    · rfl
    · rfl
  | position => rfl
  | report problem place => exact absurd quiet id
  | fail problem place => simp [Rule.run] at h
  | abort problem place => simp [Rule.run] at h
  | attempt rule ih => exact absurd quiet id
  | many opens goesOn item ih => exact reports_many (fun lexeme _ _ => ih lexeme (quiet lexeme)) h
  | gather separator stops item ih => exact absurd quiet id

variable {α β : Type}

@[simp] theorem pure (a : α) : (pure a : Rule α).Quiet := trivial

@[simp] theorem bind_iff {rule : Rule α} {next : α → Rule β} :
    (rule >>= next).Quiet ↔ rule.Quiet ∧ ∀ a, (next a).Quiet := Iff.rfl

@[simp] theorem map_iff {rule : Rule α} {f : α → β} : (f <$> rule).Quiet ↔ rule.Quiet :=
  ⟨And.left, fun quiet => ⟨quiet, fun _ => trivial⟩⟩

@[simp] theorem look (n : Nat) : (look n).Quiet := trivial

@[simp] theorem take : Rule.take.Quiet := trivial

@[simp] theorem marker : Rule.marker?.Quiet := trivial

@[simp] theorem position : Rule.position.Quiet := trivial

@[simp] theorem fail (problem : Problem) (place : Place) : (fail problem place : Rule α).Quiet :=
  trivial

@[simp] theorem ite {condition : Prop} [Decidable condition] {yes no : Rule α} (first : yes.Quiet)
    (second : no.Quiet) : (if condition then yes else no).Quiet := by
  split
  · exact first
  · exact second

@[simp] theorem kind : Rule.kind.Quiet := by simp [Rule.kind]

@[simp] theorem nextKind : Rule.nextKind.Quiet := by simp [Rule.nextKind]

@[simp] theorem here : Rule.here.Quiet := by simp [Rule.here]

@[simp] theorem since (first : Nat) : (Rule.since first).Quiet := by simp [Rule.since]

@[simp] theorem advance : Rule.advance.Quiet := by simp [Rule.advance]

@[simp] theorem expected (what context : String) : (Rule.expected what context : Rule α).Quiet := by
  simp [Rule.expected]

@[simp] theorem accept (read : Lexeme → Option α) (what context : String) :
    (Rule.accept read what context).Quiet := by
  refine ⟨⟨trivial, fun lexeme => ?_⟩, fun result => ?_⟩
  · dsimp only
    cases read lexeme with
    | none => trivial
    | some a => simp
  · cases result with
    | none => simp
    | some a => simp

@[simp] theorem eatKind (wanted : TokenKind) : (Rule.eatKind wanted).Quiet := by simp [Rule.eatKind]

@[simp] theorem eat (wanted : Keyword) : (Rule.eat wanted).Quiet := eatKind _

@[simp] theorem eatMark (wanted : Punctuation) : (Rule.eatMark wanted).Quiet := eatKind _

@[simp] theorem ofKind (wanted : TokenKind) (context : String) :
    (Rule.ofKind wanted context).Quiet := by
  simp [Rule.ofKind]

@[simp] theorem keyword (wanted : Keyword) (context : String) :
    (Rule.keyword wanted context).Quiet := ofKind _ _

@[simp] theorem symbol (wanted : Punctuation) (context : String) :
    (Rule.symbol wanted context).Quiet := ofKind _ _

@[simp] theorem tooDeep : (Rule.tooDeep : Rule α).Quiet := by simp [Rule.tooDeep]

section

variable {item : Rule α} (quiet : item.Quiet)
include quiet

@[simp] theorem following (separator : TokenKind) : (Rule.following separator item).Quiet :=
  fun _ => quiet

@[simp] theorem separated (separator : TokenKind) : (Rule.separated separator item).Quiet := by
  simp [Rule.separated, quiet]

@[simp] theorem commaSeparated : (Rule.commaSeparated item).Quiet := separated quiet _

end

end Quiet

end Rule

namespace Grammar

@[simp] theorem quiet_identifier (context : String) : (identifier context).Quiet := .accept _ _ _

@[simp] theorem quiet_identifiers (context : String) : (identifiers context).Quiet := by
  simp [identifiers]

@[simp] theorem quiet_markerOr (constant? : TokenKind → Option Term) (what context : String) :
    (markerOr constant? what context).Quiet := by
  refine ⟨trivial, fun ordinal => ?_⟩
  cases ordinal with
  | none => simp
  | some ordinal => simp

@[simp] theorem quiet_scalar (context : String) : (scalar context).Quiet := quiet_markerOr _ _ _

section

variable {value : String → Rule Value} (quiet : ∀ context, (value context).Quiet)
include quiet

theorem quiet_listLiteral : (listLiteral value).Quiet := by simp [listLiteral, quiet]

theorem quiet_mapEntry : (mapEntry value).Quiet := by simp [mapEntry, quiet]

theorem quiet_bracedLiteral : (bracedLiteral value).Quiet := by
  simp [bracedLiteral, quiet, quiet_mapEntry quiet]

theorem quiet_mapLiteral : (mapLiteral value).Quiet := by simp [mapLiteral, quiet_mapEntry quiet]

end

theorem quiet_scalarOr {list braced : Rule Value} (context : String) (first : list.Quiet)
    (second : braced.Quiet) : (scalarOr list braced context).Quiet := by
  refine ⟨.kind, fun kind => ?_⟩
  dsimp only
  split
  · exact first
  · exact second
  · simp

theorem quiet_valueWithin (levels : Nat) (context : String) :
    (valueWithin levels context).Quiet := by
  induction levels generalizing context with
  | zero => exact quiet_scalarOr context .tooDeep .tooDeep
  | succ levels ih => exact quiet_scalarOr context (quiet_listLiteral ih) (quiet_bracedLiteral ih)

@[simp] theorem quiet_value (context : String) : (value context).Quiet :=
  quiet_valueWithin maxNesting context

@[simp] theorem quiet_values (context : String) : (values context).Quiet := by simp [values]

@[simp] theorem quiet_comparison : comparison.Quiet := .accept _ _ _

@[simp] theorem quiet_integerText (context : String) : (integerText context).Quiet := .accept _ _ _

end Grammar

/-! ### Places and reports in order -/

namespace Place

/-- Number of the token at which a place begins. -/
def first : Place → Nat
  | token position => position
  | stretch first _ => first

/-- Number of the token at which a place ends. -/
def last : Place → Nat
  | token position => position
  | stretch _ last => last

/-- The place ends where it begins or behind that, and lies between two tokens. -/
structure Between (low high : Nat) (place : Place) : Prop where
  low_le : low ≤ place.first
  ordered : place.first ≤ place.last
  le_high : place.last ≤ high

theorem Between.mono {low low' high high' : Nat} {place : Place} (h : place.Between low high)
    (lower : low' ≤ low) (higher : high ≤ high') : place.Between low' high' :=
  ⟨Nat.le_trans lower h.low_le, h.ordered, Nat.le_trans h.le_high higher⟩

end Place

/-- The reports are about places between two tokens, and none begins in front of the end of an earlier
one. -/
structure Report.InOrder (low high : Nat) (reports : List Report) : Prop where
  low_le_high : low ≤ high
  between : ∀ report ∈ reports, report.place.Between low high
  sorted : reports.Pairwise fun earlier later => earlier.place.last ≤ later.place.first

namespace Report.InOrder

variable {low mid high : Nat} {reports reports' : List Report}

theorem nil (h : low ≤ high) : InOrder low high [] := ⟨h, by simp, .nil⟩

theorem singleton {report : Report} (h : report.place.Between low high) :
    InOrder low high [report] :=
  ⟨Nat.le_trans h.low_le (Nat.le_trans h.ordered h.le_high), by simpa using h,
    List.pairwise_singleton _ _⟩

theorem mono {low' high' : Nat} (h : InOrder low high reports) (lower : low' ≤ low)
    (higher : high ≤ high') : InOrder low' high' reports where
  low_le_high := Nat.le_trans lower (Nat.le_trans h.low_le_high higher)
  between report mem := (h.between report mem).mono lower higher
  sorted := h.sorted

theorem append (h : InOrder low mid reports) (h' : InOrder mid high reports') :
    InOrder low high (reports ++ reports') where
  low_le_high := Nat.le_trans h.low_le_high h'.low_le_high
  between report mem := by
    rcases List.mem_append.1 mem with mem | mem
    · exact (h.between report mem).mono (Nat.le_refl _) h'.low_le_high
    · exact (h'.between report mem).mono h.low_le_high (Nat.le_refl _)
  sorted := by
    refine List.pairwise_append.2 ⟨h.sorted, h'.sorted, fun earlier mem later mem' => ?_⟩
    exact Nat.le_trans (h.between earlier mem).le_high (h'.between later mem').low_le

/-- From the left to the right, places do not begin earlier. -/
theorem pairwise_first (h : InOrder low high reports) :
    reports.Pairwise fun earlier later => earlier.place.first ≤ later.place.first :=
  h.sorted.imp_of_mem fun mem _ before => Nat.le_trans (h.between _ mem).ordered before

end Report.InOrder

/-! ### Rules in order -/

namespace State

theorem position_advance {state : State} {token : Token} {rest : List Token}
    (ahead : state.stream.ahead = token :: rest) :
    state.advance.stream.position = state.stream.position + 1 := by
  simp [TokenStream.position, passed_advance ahead]

theorem position_advance_of_kind {state : State} (inside : state.kind ≠ .endOfInput) :
    state.advance.stream.position = state.stream.position + 1 := by
  obtain ⟨token, -, taken⟩ := before_advance_of_kind inside
  simp [position_eq, taken]

theorem Takes.position_le {state state' : State} (h : state.Takes state') :
    state.stream.position ≤ state'.stream.position := by
  obtain ⟨taken, -, passed, -⟩ := h
  simp [TokenStream.position, passed]

/-- As many tokens are passed as there are no longer ahead. -/
theorem Takes.position_add_length {state state' : State} (h : state.Takes state') :
    state'.stream.position + state'.stream.ahead.length =
      state.stream.position + state.stream.ahead.length := by
  obtain ⟨taken, ahead, passed, -⟩ := h
  simp only [TokenStream.position, ahead, passed, List.length_append, List.length_reverse]
  omega

theorem position_le_advance (state : State) : state.stream.position ≤ state.advance.stream.position :=
  Takes.position_le (takes_kept.advance state)

end State

/-- Two runs in a row report in order if the first one does, and the second one from where the reports of
the first one end. -/
theorem Run.inOrder_andThen {α β : Type} {run : Run α} {next : α → Run β} {state : State} {low : Nat}
    (first : Report.InOrder low (run state).state.stream.position (run state).reports)
    (second : ∀ a, (run state).result = .ok a → ∃ mid, Report.InOrder low mid (run state).reports ∧
      Report.InOrder mid (next a (run state).state).state.stream.position
        (next a (run state).state).reports) :
    Report.InOrder low (Run.andThen run next state).state.stream.position
      (Run.andThen run next state).reports := by
  unfold Run.andThen
  cases result : (run state).result with
  | error halt =>
    simp only [result]
    exact first
  | ok a =>
    obtain ⟨mid, before, after⟩ := second a result
    simp only [result]
    exact before.append after

namespace Rule

variable {α β : Type} {low mid : Nat} {state : State}

/-- From `state` the rule reports in order, and about no token in front of number `low`. -/
def OrderedAt (low : Nat) (state : State) (rule : Rule α) : Prop :=
  Report.InOrder low (rule.run state).state.stream.position (rule.run state).reports

/-- The rule reports in order, and about no token in front of the one where it starts. -/
def Ordered (rule : Rule α) : Prop := ∀ state, rule.OrderedAt state.stream.position state

namespace OrderedAt

theorem mono {rule : Rule α} (h : rule.OrderedAt mid state) (lower : low ≤ mid) :
    rule.OrderedAt low state :=
  Report.InOrder.mono h lower (Nat.le_refl _)

/-- The second rule may start from any token up to which the reports of the first one are in order. -/
theorem bind_upto {rule : Rule α} {next : α → Rule β} (first : rule.OrderedAt low state)
    (upto : ∀ a, (rule.run state).result = .ok a → Report.InOrder low mid (rule.run state).reports)
    (second : ∀ a, (rule.run state).result = .ok a → (next a).OrderedAt mid (rule.run state).state) :
    (rule >>= next).OrderedAt low state :=
  Run.inOrder_andThen first fun a found => ⟨mid, upto a found, second a found⟩

theorem bind {rule : Rule α} {next : α → Rule β} (first : rule.OrderedAt low state)
    (second : ∀ a, (rule.run state).result = .ok a →
      (next a).OrderedAt (rule.run state).state.stream.position (rule.run state).state) :
    (rule >>= next).OrderedAt low state :=
  first.bind_upto (fun _ _ => first) second

/-- After a quiet rule, places noted before it can still be reported. -/
theorem bind_quiet {rule : Rule α} {next : α → Rule β} (quiet : rule.Quiet)
    (first : rule.OrderedAt low state)
    (second : ∀ a, (rule.run state).result = .ok a → (next a).OrderedAt low (rule.run state).state) :
    (rule >>= next).OrderedAt low state :=
  first.bind_upto (fun _ found => quiet.run found ▸ .nil (Nat.le_refl _)) second

theorem map {rule : Rule α} (f : α → β) (h : rule.OrderedAt low state) :
    (f <$> rule).OrderedAt low state :=
  h.bind fun _ _ => Report.InOrder.nil (Nat.le_refl _)

theorem pure (a : α) (h : low ≤ state.stream.position) : (pure a : Rule α).OrderedAt low state :=
  .nil h

theorem report {problem : Problem} {place : Place} (h : place.Between low state.stream.position) :
    (report problem place).OrderedAt low state :=
  .singleton h

theorem fail {problem : Problem} {place : Place} (h : place.Between low state.stream.position) :
    (fail problem place : Rule α).OrderedAt low state :=
  .singleton h

theorem abort {problem : Problem} {place : Place} (h : place.Between low state.stream.position) :
    (abort problem place : Rule α).OrderedAt low state :=
  .singleton h

theorem kind_bind {next : TokenKind → Rule β} (h : (next state.kind).OrderedAt low state) :
    (Rule.kind >>= next).OrderedAt low state := h

theorem position_bind {next : Nat → Rule β} (h : (next state.stream.position).OrderedAt low state) :
    (Rule.position >>= next).OrderedAt low state := h

theorem here_bind {next : Place → Rule β}
    (h : (next (.token state.stream.position)).OrderedAt low state) :
    (Rule.here >>= next).OrderedAt low state := h

theorem since_bind {first : Nat} {next : Place → Rule β}
    (h : (next (.stretch first (state.stream.position - 1))).OrderedAt low state) :
    (Rule.since first >>= next).OrderedAt low state := h

theorem attempt {rule : Rule α} (h : rule.OrderedAt low state) : (attempt rule).OrderedAt low state := by
  unfold OrderedAt run Run.attempt
  simp only
  split <;> exact h

/-- A list is in order if each item is, from the token that opens it. -/
theorem many {opens : TokenKind → Bool} {goesOn : α → Bool} {item : Lexeme → Rule α}
    (items : ∀ (state : State) (token : Token) rest, state.stream.ahead = token :: rest →
      opens token.kind = true → (item token.toLexeme).OrderedAt state.stream.position state.advance)
    (h : low ≤ state.stream.position) : (many opens goesOn item).OrderedAt low state := by
  refine many_induction (motive := fun state reply => ∀ low ≤ state.stream.position,
    Report.InOrder low reply.state.stream.position reply.reports) (fun _ _ _ => .nil) ?_ ?_ ?_ state low h
  · exact fun ahead opened _ _ => (items _ _ _ ahead opened).mono
  · exact fun ahead opened _ _ _ => (items _ _ _ ahead opened).mono
  · exact fun _ ahead opened _ _ later _ h =>
      Report.InOrder.append ((items _ _ _ ahead opened).mono h) (later _ (Nat.le_refl _))

end OrderedAt

namespace Ordered

theorem at_le {rule : Rule α} (ordered : rule.Ordered) (h : low ≤ state.stream.position) :
    rule.OrderedAt low state :=
  (ordered state).mono h

theorem bind {rule : Rule α} {next : α → Rule β} (first : rule.Ordered)
    (second : ∀ a, (next a).Ordered) : (rule >>= next).Ordered :=
  fun state => (first state).bind fun a _ => second a _

theorem map {rule : Rule α} (f : α → β) (h : rule.Ordered) : (f <$> rule).Ordered :=
  fun state => (h state).map f

theorem pure (a : α) : (pure a : Rule α).Ordered := fun _ => .nil (Nat.le_refl _)

theorem ite {condition : Prop} [Decidable condition] {yes no : Rule α} (first : yes.Ordered)
    (second : no.Ordered) : (if condition then yes else no).Ordered := by
  split
  · exact first
  · exact second

theorem kind : Rule.kind.Ordered := fun _ => .nil (Nat.le_refl _)

theorem nextKind : Rule.nextKind.Ordered := fun _ => .nil (Nat.le_refl _)

theorem position : Rule.position.Ordered := fun _ => .nil (Nat.le_refl _)

theorem advance : Rule.advance.Ordered := fun state => .nil state.position_le_advance

theorem marker : Rule.marker?.Ordered := by
  intro state
  unfold OrderedAt run
  split
  · exact .nil state.position_le_advance
  · exact .nil (Nat.le_refl _)

/-- The place of the current token is between that token and itself. -/
theorem between_here (state : State) :
    (Place.token state.stream.position).Between state.stream.position state.stream.position :=
  ⟨(Nat.le_refl _), (Nat.le_refl _), (Nat.le_refl _)⟩

theorem expected (what context : String) : (expected what context : Rule α).Ordered :=
  fun state => .kind_bind (.here_bind (.fail (between_here state)))

theorem reportExpected (what context : String) : (reportExpected what context).Ordered :=
  fun state => .kind_bind (.here_bind (.report (between_here state)))

theorem tooDeep : (tooDeep : Rule α).Ordered :=
  fun state => .here_bind (.fail (between_here state))

theorem accept (read : Lexeme → Option α) (what context : String) :
    (accept read what context).Ordered := by
  have looked : (accept? read).Ordered := by
    intro state
    have first : (look 0).OrderedAt state.stream.position state := .nil (Nat.le_refl _)
    refine first.bind fun lexeme _ => ?_
    cases read lexeme with
    | some a => exact advance.bind (fun _ => pure _) state
    | none => exact pure _ state
  refine looked.bind fun result => ?_
  cases result with
  | some a => exact pure a
  | none => exact expected what context

theorem eatKind (wanted : TokenKind) : (eatKind wanted).Ordered := by
  refine kind.bind fun current => ite ?_ (pure _)
  exact advance.bind fun _ => pure _

theorem eat (wanted : Keyword) : (eat wanted).Ordered := eatKind _

theorem eatMark (wanted : Punctuation) : (eatMark wanted).Ordered := eatKind _

theorem ofKind (wanted : TokenKind) (context : String) : (ofKind wanted context).Ordered :=
  (eatKind wanted).bind fun _ => ite (expected _ _) (pure _)

theorem keyword (wanted : Keyword) (context : String) : (keyword wanted context).Ordered :=
  ofKind _ _

theorem symbol (wanted : Punctuation) (context : String) : (symbol wanted context).Ordered :=
  ofKind _ _

theorem attempt {rule : Rule α} (h : rule.Ordered) : (attempt rule).Ordered :=
  fun state => (h state).attempt

theorem many {opens : TokenKind → Bool} {goesOn : α → Bool} {item : Lexeme → Rule α}
    (items : ∀ lexeme, (item lexeme).Ordered) : (many opens goesOn item).Ordered :=
  fun _ => .many (fun state _ _ _ _ => (items _).at_le state.position_le_advance) (Nat.le_refl _)

theorem skipUntil (stops : TokenKind → Bool) : (skipUntil stops).Ordered :=
  (many fun _ => pure ()).bind fun _ => pure ()

theorem semicolons : Rule.semicolons.Ordered := (many fun _ => pure ()).bind fun _ => pure ()

section

variable {item : Rule α} (h : item.Ordered)
include h

theorem following (separator : TokenKind) : (following separator item).Ordered := many fun _ => h

theorem separated (separator : TokenKind) : (separated separator item).Ordered :=
  h.bind fun _ => (following h separator).bind fun _ => pure _

theorem commaSeparated : (commaSeparated item).Ordered := separated h _

theorem twoOrMore (context : String) : (twoOrMore context item).Ordered :=
  h.bind fun _ => (symbol _ _).bind fun _ => (commaSeparated h).bind fun _ => pure _

theorem salvagedAfterComma : (salvagedAfterComma item).Ordered :=
  (many fun _ => attempt h).bind fun _ => pure _

theorem salvaged : (salvaged item).Ordered := by
  refine (attempt h).bind fun result => ?_
  cases result with
  | none => exact pure _
  | some first => exact (salvagedAfterComma h).bind fun _ => pure _

theorem part (stops : TokenKind → Bool) : (part stops item).Ordered := by
  refine (attempt h).bind fun result => ?_
  cases result with
  | some a => exact pure _
  | none => exact (skipUntil stops).bind fun _ => pure _

end

theorem closed {list : Rule (Salvage α)} {close : Rule Unit} (h : list.Ordered)
    (ends : close.Ordered) : (closed list close).Ordered :=
  h.bind fun _ => ite ((attempt ends).bind fun _ => pure _) (pure _)

theorem restoring {item : Rule (Salvage α)} (stops : TokenKind → Bool) (h : item.Ordered) :
    (restoring stops item).Ordered := by
  refine (attempt h).bind fun result => ?_
  cases result with
  | none => exact (skipUntil stops).bind fun _ => pure _
  | some items =>
    dsimp only
    split
    · exact (skipUntil stops).bind fun _ => pure _
    · exact pure _

/-- A list that may be broken is a list of parts; what it comes to is found without a token. -/
theorem gather {item : Rule (Option α)} (separator : TokenKind) (stops : TokenKind → Bool)
    (h : item.Ordered) : (gather separator stops item).Ordered := by
  intro state
  unfold OrderedAt
  rw [run_gather]
  have parts := separated (part h fun kind => kind = separator || stops kind) separator state
  refine Run.inOrder_andThen parts fun read _ => ⟨_, parts, ?_⟩
  unfold Run.settle
  split
  · exact .nil (Nat.le_refl _)
  · exact .nil (Nat.le_refl _)

end Ordered

end Rule

end Cql
