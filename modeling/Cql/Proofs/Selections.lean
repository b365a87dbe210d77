/-
SELECT is read as the grammar has it.

`COUNT`, `WRITETIME` and `TTL` are functions in front of a parenthesis and names of columns elsewhere.
So an item must not be followed by an opening parenthesis, and no item of the grammar that is read in
another way begins like a call (`Phrase.NoCall`).

* `Grammar.recognizes_selector`, `Grammar.recognizes_projection` — what is selected;
* `Grammar.recognizes_selection` — the statement after its keyword.
-/
import Cql.Proofs.Values

namespace Cql

namespace Phrase

/-- No stretch of the phrase begins with the keyword in front of an opening parenthesis. -/
def NoCall {α : Type} (name : Keyword) (phrase : Phrase α) (follow : TokenKind → Prop) : Prop :=
  ∀ item rest a next, phrase (item :: rest) a → follow next → item.kind = .keyword name →
    opening rest next ≠ .punctuation .leftParen

namespace NoCall

variable {α β : Type} {name : Keyword} {follow : TokenKind → Prop}

theorem of_ne {kind : TokenKind} {rest : Unit → Phrase β} (other : kind ≠ .keyword name) :
    NoCall name (ofKind kind >>= rest) follow := by
  intro item rest a next spelled _ same
  obtain ⟨item', rest', cons, same', -⟩ := ofKind_bind_iff.1 spelled
  obtain ⟨rfl, rfl⟩ := List.cons.inj cons
  exact absurd (same'.symm.trans same) other

theorem token {read : Numbered → Option α} : NoCall name (token read) (· ≠ .punctuation .leftParen) := by
  rintro item rest a next ⟨item', cons, -⟩ follows -
  obtain ⟨rfl, rfl⟩ := List.cons.inj cons
  exact follows

theorem narrow {phrase : Phrase α} {follow' : TokenKind → Prop} (h : NoCall name phrase follow)
    (fewer : ∀ kind, follow' kind → follow kind) : NoCall name phrase follow' :=
  fun item rest a next spelled follows => h item rest a next spelled (fewer _ follows)

theorem map {phrase : Phrase α} {f : α → β} (h : NoCall name phrase follow) :
    NoCall name (f <$> phrase) follow := by
  intro item rest b next spelled follows same
  obtain ⟨a, spelled', -⟩ := map_iff.1 spelled
  exact h item rest a next spelled' follows same

theorem orElse {phrase other : Phrase α} (first : NoCall name phrase follow)
    (second : NoCall name other follow) : NoCall name (phrase <|> other) follow := by
  rintro item rest a next (spelled | spelled) follows same
  · exact first item rest a next spelled follows same
  · exact second item rest a next spelled follows same

/-- A list of items that are never empty. -/
theorem separated {phrase : Phrase α} {separator : TokenKind}
    (h : NoCall name phrase fun kind => follow kind ∨ kind = separator)
    (nonempty : ∀ a, ¬ phrase [] a) :
    NoCall name (separated (ofKind separator) phrase) follow := by
  rintro item rest as next ⟨front, a, back, cons, spelled, others⟩ follows same
  -- After the first item comes a separator, or what follows the list.
  have ends : follow (opening back next) ∨ opening back next = separator := by
    have items : (many (do ofKind separator; phrase)).Opens follow
        fun kind => follow kind ∨ kind = separator :=
      .many (.andThen (.ofKind (.inr rfl))) fun _ => .inl
    exact (Opens.bind items fun _ => .pure _ fun _ => id) _ _ next others follows
  cases front with
  | nil => exact absurd spelled (nonempty a)
  | cons item' front =>
    rw [List.cons_append] at cons
    obtain ⟨rfl, rfl⟩ := List.cons.inj cons
    rw [opening_append]
    exact h item front a _ spelled ends same

end NoCall

end Phrase

/-- The token after the current one is the second of the stretch, or the one after it. -/
theorem State.Passes.nextKind_eq {state after : State} {item : Numbered} {rest : List Numbered}
    (h : state.Passes (item :: rest) after) :
    (state.lexeme 1).kind = Phrase.opening rest after.kind := by
  obtain ⟨inside, rfl, passes⟩ := State.Passes.cons_iff.1 h
  rw [← State.kind_advance inside, ← passes.kind_eq]
  rfl

namespace Grammar

open Rule Phrase

/-! ### Functions -/

theorem reads_atFunction_bind {name : Keyword} {α : Type} {next : Bool → Rule α}
    {state after : State} {a : α} :
    (atFunction name >>= next).Reads state a after ↔
      (next (state.kind = .keyword name && (state.lexeme 1).kind = .punctuation .leftParen)).Reads
        state a after := by
  refine reads_bind_of fun call mid => ?_
  unfold atFunction
  rw [reads_kind_bind, reads_nextKind_bind, reads_pure]

/-- Whether a function is called decides between two rules. -/
theorem recognizes_ifCall {α : Type} {name : Keyword} {yes no : Rule α} {phrase other : Phrase α}
    {follow : TokenKind → Prop} (first : yes.Recognizes phrase follow)
    (second : no.Recognizes other follow) (opens : phrase.Opens anything (· = .punctuation .leftParen))
    (apart : NoCall name other follow) (nonempty : ∀ a, ¬ other [] a) :
    (atFunction name >>= fun call => if call = true then Rule.advance >>= fun _ => yes
      else no).Recognizes ((do word name; phrase) <|> other) follow where
  sound := by
    intro state a after h
    rw [reads_atFunction_bind] at h
    by_cases call : state.kind = .keyword name ∧ (state.lexeme 1).kind = .punctuation .leftParen
    · rw [if_pos (by simp [call]), reads_advance_bind] at h
      obtain ⟨items, passes, spelled⟩ := first.spelled_after call.1 h
      exact ⟨items, passes, .inl spelled⟩
    · rw [if_neg (by simpa using call)] at h
      obtain ⟨items, passes, spelled⟩ := second.sound _ _ _ h
      exact ⟨items, passes, .inr spelled⟩
  complete := by
    rintro state items a after passes (spelled | spelled) follows
    · obtain ⟨current, rest, passes', spelled'⟩ := (passes_ofKind_bind ⟨by simp, by simp⟩).1
        ⟨items, passes, spelled⟩
      have next := opens _ _ after.kind spelled' trivial
      rw [← passes'.kind_eq, State.kind_advance (by simp [current])] at next
      rw [reads_atFunction_bind, if_pos (by simp [current, next]), reads_advance_bind]
      exact first.complete _ _ _ _ passes' spelled' follows
    · -- A stretch that begins with the keyword goes on with something else than a parenthesis;
      -- if the keyword is all of it, what follows is no parenthesis either.
      have no_call : ¬ (state.kind = .keyword name ∧
          (state.lexeme 1).kind = .punctuation .leftParen) := by
        rintro ⟨current, next⟩
        cases items with
        | nil => exact nonempty a spelled
        | cons item rest =>
          obtain ⟨-, rfl, -⟩ := State.Passes.cons_iff.1 passes
          rw [passes.nextKind_eq] at next
          exact apart _ _ _ _ spelled follows current next
      rw [reads_atFunction_bind, if_neg (by simpa using no_call)]
      exact second.complete _ _ _ _ passes spelled follows

theorem recognizes_functionArgument :
    functionArgument.Recognizes Language.functionArgument anything :=
  (Recognizes.symbol _ rfl).andThen fun _ => (recognizes_identifier _).andThen fun _ =>
    (Recognizes.symbol _ rfl).andThen fun _ => .pure _

theorem opens_functionArgument {α : Type} {f : Identifier → α} :
    (do return f (← Language.functionArgument) : Phrase α).Opens anything
      (· = .punctuation .leftParen) :=
  .andThen (.andThen (.ofKind rfl))

theorem recognizes_selector :
    selector.Recognizes Language.selector (· ≠ .punctuation .leftParen) := by
  have column : (do return .column (← identifier "in selection") : Rule Selector).Recognizes
      (.column <$> Language.identifier) (· ≠ .punctuation .leftParen) :=
    ((recognizes_identifier _).map Selector.column).narrow fun _ _ => trivial
  have names : (.column <$> Language.identifier : Phrase Selector).Opens anything
      (TokenKind.isNameLike · = true) := opens_identifier.map
  have ttl : (do
      word .TTL
      return .ttl (← Language.functionArgument) : Phrase Selector).Opens anything
      (TokenKind.isNameLike · = true) := .andThen (.ofKind rfl)
  -- The names of the other two functions are no calls of this one.
  refine recognizes_ifCall ?_ (recognizes_ifCall ?_ column opens_functionArgument ?_ ?_)
    opens_functionArgument ?_ ?_
  · exact (recognizes_functionArgument.andThen fun _ => .pure _).narrow fun _ _ => trivial
  · exact (recognizes_functionArgument.andThen fun _ => .pure _).narrow fun _ _ => trivial
  · exact .map .token
  · exact names.not_nil (by decide)
  · exact .orElse (.of_ne (by decide)) (.map .token)
  · exact (ttl.orElse names).not_nil (by decide)

theorem opens_selector : Language.selector.Opens anything (TokenKind.isNameLike · = true) :=
  .orElse (.andThen (.ofKind rfl)) (.orElse (.andThen (.ofKind rfl)) opens_identifier.map)

/-- An integer that is read from its text, if it can be. -/
theorem recognizes_integerText {α : Type} {read : String → Option α} {rule : String → Rule α}
    (context : String) (reads : ∀ text state a after,
      (rule text).Reads state a after ↔ read text = some a ∧ after = state) :
    (integerText context >>= rule).Recognizes (token fun item =>
      match item.kind with
      | .integer _ => read item.lexeme.text
      | _ => none) anything := by
  have plain : ∀ {lexeme : Lexeme} {digits}, lexeme.kind = .integer digits → lexeme.kind.IsPlain := by
    intro lexeme digits same
    rw [same]
    exact ⟨by simp, by simp⟩
  constructor
  · intro state a after h
    obtain ⟨text, mid, first, second⟩ := reads_bind.1 h
    obtain ⟨seen, rfl⟩ := reads_accept.1 first
    obtain ⟨found, rfl⟩ := (reads _ _ _ _).1 second
    split at seen
    · rename_i digits same
      obtain rfl := Option.some.inj seen
      refine ⟨_, passes_advance (plain same), _, rfl, ?_⟩
      simp only [Numbered.kind, same]
      exact found
    · exact absurd seen (by simp)
  · rintro state items a after passes ⟨item, rfl, found⟩ -
    obtain ⟨-, rfl, rfl⟩ := State.Passes.one_iff.1 passes
    dsimp only at found
    split at found
    · rename_i digits same
      rw [State.next_of_ne (plain same).1]
      refine reads_bind.2 ⟨(state.lexeme 0).text, state.advance, reads_accept.2 ⟨?_, rfl⟩, ?_⟩
      · rw [show (state.lexeme 0).kind = .integer digits from same]
      · exact (reads _ _ _ _).2 ⟨found, rfl⟩
    · exact absurd found (by simp)

theorem recognizes_countArgument :
    countArgument.Recognizes Language.countArgument anything := by
  have shape : Language.countArgument = ((do mark .star; pure ()) <|> token fun item =>
      match item.kind with
      | .integer _ => if item.lexeme.text = "1" then some () else none
      | _ => none) := by
    rw [bind_pure_unit]
    rfl
  rw [shape]
  refine .ifEat (by decide) (.pure _) (.here fun place => ?_) ?_
  · refine @recognizes_integerText _ (fun text => if text = "1" then some () else none) _ _
      fun text state a after => ?_
    by_cases one : text = "1"
    · rw [if_neg (by simpa using one), if_pos one, reads_pure]
      simp
    · rw [if_pos one, if_neg one]
      simp [not_reads_report]
  · refine .token fun item u found => ?_
    split at found
    · rename_i digits same
      rw [same]
      simp
    · exact absurd found (by simp)

theorem recognizes_projection :
    projection.Recognizes Language.projection (· = .keyword .FROM) := by
  have items : (do return .items (← commaSeparated selector) : Rule Projection).Recognizes
      (.items <$> commaSeparated Language.selector) (· = .keyword .FROM) := by
    refine .map (.commaSeparated (recognizes_selector.narrow ?_) ?_) Projection.items
    · rintro _ (rfl | rfl)
      · decide
      · decide
    · rintro _ rfl
      decide
  have star : (do mark .star; pure .everything : Phrase Projection).Opens anything
      (· ≠ .endOfInput) := .andThen (.ofKind (by decide))
  have names : (.items <$> commaSeparated Language.selector : Phrase Projection).Opens anything
      (TokenKind.isNameLike · = true) := opens_selector.separated.map
  refine recognizes_ifCall ?_ (.ifEat (by decide) (.pure _) items ?_) ?_ ?_ ?_
  · refine .narrow ?_ fun _ _ => trivial
    refine (Recognizes.symbol _ rfl).andThen fun _ => ?_
    refine recognizes_countArgument.andThen fun _ => ?_
    exact (Recognizes.symbol _ rfl).andThen fun _ => .pure _
  · exact names.avoids rfl
  · exact .andThen (.ofKind rfl)
  · have no_count : NoCall .COUNT Language.selector (· ≠ .punctuation .leftParen) :=
      .orElse (.of_ne (by decide)) (.orElse (.of_ne (by decide)) (.map .token))
    refine .orElse (.of_ne (by decide)) (.map (.separated (no_count.narrow ?_) ?_))
    · rintro _ (rfl | rfl)
      · decide
      · decide
    · exact opens_selector.not_nil (by decide)
  · refine (star.orElse (names.avoids rfl)).not_nil (by simp)

/-! ### Optional clauses -/

/-- The tokens that can follow a statement. -/
def endsStatement (kind : TokenKind) : Bool :=
  kind = .punctuation .semicolon || kind = .endOfInput

/-- The tokens that can follow a LIMIT, an ORDER BY, a WHERE clause and the name of a table. -/
def endsLimit (kind : TokenKind) : Bool := kind = .keyword .ALLOW || endsStatement kind

def endsOrder (kind : TokenKind) : Bool := kind = .keyword .LIMIT || endsLimit kind

def endsWhere (kind : TokenKind) : Bool := kind = .keyword .ORDER || endsOrder kind

def endsTable (kind : TokenKind) : Bool := kind = .keyword .WHERE || endsWhere kind

theorem recognizes_direction :
    direction.Recognizes Language.direction
      (fun kind => kind ≠ .keyword .ASC ∧ kind ≠ .keyword .DESC) := by
  refine .ifWord (.pure _) (.optionally (by decide) (.pure _) ?_) ?_
  · exact .pure _ fun _ follows => follows.1
  · refine .bind (.orElse (.ofKind ?_) (.pure _ fun _ => id)) fun _ => .pure _ fun _ follows => follows.2
    decide

theorem recognizes_orderings :
    (commaSeparated ordering).Recognizes (commaSeparated Language.ordering) (endsOrder · = true) := by
  have one : ordering.Recognizes Language.ordering
      (fun kind => kind ≠ .keyword .ASC ∧ kind ≠ .keyword .DESC) :=
    (recognizes_identifier _).andThen fun _ =>
      recognizes_direction.bind (fun _ => .pure _) fun _ => .pure _ fun _ => id
  refine .commaSeparated (one.narrow ?_) fun kind follows => ne_of_test follows rfl
  rintro kind (follows | rfl)
  · exact ⟨ne_of_test follows rfl, ne_of_test follows rfl⟩
  · decide

theorem recognizes_orderClause :
    orderClause.Recognizes Language.orderClause (endsOrder · = true) := by
  refine .clauseAfter ((Recognizes.keyword _ _).andThen fun _ => ?_) fun _ follows =>
    ne_of_test follows rfl
  exact recognizes_orderings.bind (fun _ => .pure _) fun _ => .pure _ fun _ => id

theorem recognizes_limitClause :
    limitClause.Recognizes Language.limitClause (endsLimit · = true) := by
  refine .clauseAfter (.here fun place => ?_) fun _ follows => ne_of_test follows rfl
  -- A limit out of range is reported, so only one in range is read.
  refine .narrow (@recognizes_integerText _ (Integer.bounded? 32) _ _ fun text state limit after => ?_)
    fun _ _ => trivial
  cases Integer.bounded? 32 text with
  | none => simp [not_reads_report_bind]
  | some limit' => simp [reads_pure, eq_comm]

theorem recognizes_filteringClause :
    filteringClause.Recognizes Language.filteringClause (endsStatement · = true) := by
  refine .clauseAfter ?_ fun _ follows => ne_of_test follows rfl
  exact ((Recognizes.keyword _ _).andThen fun _ => .pure _).narrow fun _ _ => trivial

theorem recognizes_whereClause :
    (eat .WHERE >>= fun eaten => if eaten = true then relations else pure []).Recognizes
      Language.whereClause (endsWhere · = true) :=
  .clauseAfter (recognizes_relations.narrow fun _ follows => ne_of_test follows rfl)
    fun _ follows => ne_of_test follows rfl

theorem opens_filteringClause :
    Language.filteringClause.Opens (endsStatement · = true) (endsLimit · = true) :=
  .clause rfl fun kind h => by simp [endsLimit, h]

theorem opens_limitClause : Language.limitClause.Opens (endsLimit · = true) (endsOrder · = true) :=
  .clause rfl fun kind h => by simp [endsOrder, h]

theorem opens_orderClause : Language.orderClause.Opens (endsOrder · = true) (endsWhere · = true) :=
  .clause rfl fun kind h => by simp [endsWhere, h]

theorem opens_whereClause : Language.whereClause.Opens (endsWhere · = true) (endsTable · = true) :=
  .clause rfl fun kind h => by simp [endsTable, h]

theorem recognizes_selection :
    selection.Recognizes Language.selection (endsStatement · = true) := by
  have table : tableName.Recognizes Language.tableName (endsTable · = true) :=
    recognizes_tableName.narrow fun _ follows => ne_of_test follows rfl
  refine recognizes_projection.bind (fun projection => ?_) fun _ => .andThen (.ofKind rfl)
  refine (Recognizes.keyword _ _).andThen fun _ => table.bind (fun table => ?_) fun _ => ?_
  · refine .ifEat_bind recognizes_whereClause (fun relations => ?_) fun _ => ?_
    · refine recognizes_orderClause.bind (fun orderings => ?_) fun _ => ?_
      · refine recognizes_limitClause.bind (fun limit => ?_) fun _ => ?_
        · exact recognizes_filteringClause.bind (fun _ => .pure _) fun _ => .pure _ fun _ => id
        · exact opens_filteringClause.bind fun _ => .pure _ fun _ => id
      · exact opens_limitClause.bind fun _ => opens_filteringClause.bind fun _ => .pure _ fun _ => id
    · exact opens_orderClause.bind fun _ => opens_limitClause.bind fun _ =>
        opens_filteringClause.bind fun _ => .pure _ fun _ => id
  · exact opens_whereClause.bind fun _ => opens_orderClause.bind fun _ =>
      opens_limitClause.bind fun _ => opens_filteringClause.bind fun _ => .pure _ fun _ => id

end Grammar

end Cql
