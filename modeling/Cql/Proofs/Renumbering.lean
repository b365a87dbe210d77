/-
The numbers of bind markers do not matter to what is said.

A phrase puts the number of a bind marker into the value that it stands for, and does nothing else with
it.  Since bind markers are equal whatever their numbers, the same lexemes stand for equal values
wherever their numbers begin.

* `Numbered.SameLexeme` — tokens that differ in their numbers at most;
* `Phrase.Unnumbered` — the phrase stands for equal values whatever the numbers;
* `Language.unnumbered_value`, `Language.unnumbered_relations` and so on — the phrases of INSERT, UPDATE
  and DELETE;
* `Language.modification_of_renumbered` — **a statement of a batch, numbered from elsewhere on**.
-/
import Cql.Proofs.Language
import Cql.Proofs.Reflexivity
import Cql.Proofs.RelatedPhrases

namespace Cql

/-- The same lexeme, whatever the numbers. -/
def Numbered.SameLexeme (item other : Numbered) : Prop := other.lexeme = item.lexeme

theorem sameLexeme_number (ordinal ordinal' : Nat) (lexemes : List Lexeme) :
    List.Forall₂ Numbered.SameLexeme (number ordinal lexemes) (number ordinal' lexemes) := by
  induction lexemes generalizing ordinal ordinal' with
  | nil => exact .nil
  | cons lexeme lexemes ih => exact .cons rfl (ih _ _)

/-! ### Equal values -/

/-- Equal as values are: bind markers are equal whatever their numbers. -/
abbrev Agree {α : Type} [BEq α] (a b : α) : Prop := (a == b) = true

theorem Agree.list {α : Type} [BEq α] {as bs : List α} (h : List.Forall₂ Agree as bs) : Agree as bs := by
  induction h with
  | nil => rfl
  | cons first _ ih => rw [Agree, List.cons_beq_cons, first, ih, Bool.and_self]

theorem Agree.pair {α β : Type} [BEq α] [BEq β] {a a' : α} {b b' : β} (h : Agree a a') (h' : Agree b b') :
    Agree (a, b) (a', b') :=
  Bool.and_eq_true_iff.2 ⟨h, h'⟩

namespace Value

theorem sameItems_of_agree {items items' : List Value} (h : List.Forall₂ Agree items items') :
    sameItems items items' = true := by
  induction h with
  | nil => rfl
  | cons first _ ih => exact Bool.and_eq_true_iff.2 ⟨first, ih⟩

theorem sameEntries_of_agree {entries entries' : List (Value × Value)}
    (h : List.Forall₂ Agree entries entries') : sameEntries entries entries' = true := by
  induction h with
  | nil => rfl
  | cons first _ ih => exact Bool.and_eq_true_iff.2 ⟨first, ih⟩

/-- Equal values are integers together. -/
theorem isInteger_of_agree {value value' : Value} (h : Agree value value') :
    value'.isInteger = value.isInteger := by
  cases value with
  | term term =>
    cases value' with
    | term term' => cases term <;> cases term' <;> first | rfl | cases h
    | _ => cases h
  | _ => cases value' <;> first | rfl | cases h

end Value

namespace Operation

theorem agree_element {key key' value value' : Value} (keys : Agree key key') (values : Agree value value') :
    Agree (element key value) (element key' value') := by
  unfold element
  rw [Value.isInteger_of_agree keys]
  split
  · exact Bool.and_eq_true_iff.2 ⟨keys, values⟩
  · exact Bool.and_eq_true_iff.2 ⟨keys, values⟩

end Operation

/-- Equal terms that are set make equal attributes. -/
theorem Attributes.agree_set {attributes attributes' : Attributes} {term term' : Term}
    (h : Agree attributes attributes') (name : TokenKind) (terms : Agree term term') :
    Agree (attributes.set name term) (attributes'.set name term') := by
  obtain ⟨timestamps, timesToLive⟩ := Bool.and_eq_true_iff.1 h
  unfold set
  split
  · exact Bool.and_eq_true_iff.2 ⟨timestamps, terms⟩
  · exact Bool.and_eq_true_iff.2 ⟨terms, timesToLive⟩

namespace Phrase

instance : KeepsKinds Numbered.SameLexeme where
  keyword same kind := by rwa [Numbered.kind, same]
  mark same kind := by rwa [Numbered.kind, same]

variable {α β : Type}

/-- The phrase stands for the same whatever the numbers. -/
abbrev Numberless (phrase : Phrase α) : Prop := phrase.Relates Numbered.SameLexeme phrase Eq

/-- The phrase stands for equal values whatever the numbers. -/
abbrev Unnumbered [BEq α] (phrase : Phrase α) : Prop := phrase.Relates Numbered.SameLexeme phrase Agree

/-- A token that is read without its number. -/
theorem Numberless.token {read : Lexeme → Option α} :
    (Phrase.token fun item => read item.lexeme).Numberless :=
  Relates.token fun _ _ a same seen => ⟨a, by rwa [same], rfl⟩

theorem Numberless.unnumbered [BEq α] [ReflBEq α] {phrase : Phrase α} (h : phrase.Numberless) :
    phrase.Unnumbered :=
  h.weaken fun _ _ same => same ▸ BEq.rfl

theorem Numberless.list {phrase : Phrase (List α)}
    (h : phrase.Relates Numbered.SameLexeme phrase (List.Forall₂ Eq)) : phrase.Numberless :=
  h.weaken fun as bs same => by rwa [List.forall₂_eq_eq_eq] at same

end Phrase

namespace Language

open Phrase

/-! ### Names and values -/

theorem numberless_identifier : identifier.Numberless := .token

theorem numberless_tableName : tableName.Numberless :=
  .orElse
    (.andThen numberless_identifier fun _ => .andThen .mark fun _ =>
      .andThen numberless_identifier fun _ => .pure rfl)
    (.andThen numberless_identifier fun _ => .pure rfl)

theorem numberless_integer : integer.Numberless := by
  refine Relates.token fun item item' digits same seen => ⟨digits, ?_, rfl⟩
  rwa [Numbered.kind, same]

theorem unnumbered_marker : marker.Unnumbered := by
  refine Relates.token fun item item' term same seen => ⟨.marker item'.ordinal, ?_, ?_⟩
  · rw [Numbered.kind, same]
    split at seen
    · rename_i isMarker
      exact if_pos isMarker
    · cases seen
  · split at seen
    · obtain rfl := Option.some.inj seen
      rfl
    · cases seen

theorem unnumbered_scalar : scalar.Unnumbered := by
  have constant : constant.Numberless := by
    refine Relates.token fun item item' term same seen => ⟨term, ?_, rfl⟩
    rwa [Numbered.kind, same]
  exact .orElse constant.unnumbered unnumbered_marker

theorem unnumbered_integerOrMarker : integerOrMarker.Unnumbered :=
  .orElse (numberless_integer.map fun _ _ same => same ▸ BEq.rfl) unnumbered_marker

section

variable {value : Phrase Value} (h : value.Unnumbered)
include h

theorem unnumbered_items : (commaSeparated value <|> pure [] : Phrase (List Value)).Relates
    Numbered.SameLexeme (commaSeparated value <|> pure []) (List.Forall₂ Agree) :=
  .orElse (.commaSeparated h) (.pure .nil)

theorem unnumbered_listLiteral : (listLiteral value).Unnumbered :=
  .andThen .mark fun _ => (unnumbered_items h).bind fun _ _ items => .andThen .mark fun _ =>
    .pure (Value.sameItems_of_agree items)

theorem unnumbered_mapEntry : (mapEntry value).Unnumbered :=
  h.bind fun _ _ keys => .andThen .mark fun _ => h.bind fun _ _ values => .pure (keys.pair values)

theorem unnumbered_bracedLiteral : (bracedLiteral value).Unnumbered :=
  .orElse (.andThen .mark fun _ => .andThen .mark fun _ => .pure rfl) <|
  .orElse
    (.andThen .mark fun _ => (Relates.commaSeparated h).bind fun _ _ items => .andThen .mark fun _ =>
      .pure (Value.sameItems_of_agree items))
    (.andThen .mark fun _ => (Relates.commaSeparated (unnumbered_mapEntry h)).bind fun _ _ entries =>
      .andThen .mark fun _ => .pure (Value.sameEntries_of_agree entries))

end

theorem unnumbered_value : value.Unnumbered := by
  have term : (Value.term <$> scalar).Unnumbered := unnumbered_scalar.map fun _ _ same => same
  have within : ∀ levels, (valueWithin levels).Unnumbered := by
    intro levels
    induction levels with
    | zero => exact term
    | succ levels ih =>
      exact .orElse term (.orElse (unnumbered_listLiteral ih) (unnumbered_bracedLiteral ih))
  exact within maxNesting

theorem unnumbered_values : (parenthesized value).Relates Numbered.SameLexeme (parenthesized value)
    (List.Forall₂ Agree) :=
  .parenthesized unnumbered_value

/-! ### Relations and USING clauses -/

theorem numberless_comparison : comparison.Numberless := by
  refine Relates.token fun item item' sign same seen => ⟨sign, ?_, rfl⟩
  rwa [Numbered.kind, same]

theorem unnumbered_tokenOperand (columns : Nat) : (tokenOperand columns).Unnumbered := by
  refine .orElse (.andThen .word fun _ => ?_) (unnumbered_value.map fun _ _ same => same)
  refine unnumbered_values.bind fun _ _ arguments => ?_
  exact (Relates.require_of fun long => by rwa [← arguments.length_eq]).andThen fun _ =>
    .pure (Agree.list arguments)

theorem unnumbered_relation : relation.Unnumbered := by
  refine .orElse ?_ (.orElse ?_ ?_)
  · exact .andThen numberless_identifier fun _ => .andThen .word fun _ =>
      unnumbered_values.bind fun _ _ values => .pure (Agree.pair BEq.rfl (Agree.list values))
  · exact .andThen numberless_identifier fun _ => .andThen numberless_comparison fun _ =>
      unnumbered_value.bind fun _ _ values => .pure (Agree.pair BEq.rfl (Agree.pair BEq.rfl values))
  · have columns : (parenthesized identifier).Numberless := .list (.parenthesized numberless_identifier)
    exact .andThen .word fun _ => .andThen columns fun _ => .andThen numberless_comparison fun _ =>
      (unnumbered_tokenOperand _).bind fun _ _ operands =>
        .pure (Agree.pair BEq.rfl (Agree.pair BEq.rfl operands))

theorem unnumbered_relations : relations.Unnumbered :=
  (Relates.separated .word unnumbered_relation).weaken fun _ _ => Agree.list

/-- Equal settings have one name and equal values. -/
theorem unnumbered_objective : objective.Relates Numbered.SameLexeme objective
    fun setting setting' => setting.1 = setting'.1 ∧ Agree setting.2 setting'.2 := by
  have name : (token fun item => if item.kind.isObjective then some item.kind else none :
      Phrase TokenKind).Numberless := by
    refine Relates.token fun item item' name same seen => ⟨name, ?_, rfl⟩
    rwa [Numbered.kind, same]
  exact .andThen name fun _ => unnumbered_integerOrMarker.bind fun _ _ terms => .pure ⟨rfl, terms⟩

theorem unnumbered_objectives : objectives.Unnumbered := by
  refine unnumbered_objective.bind fun first first' same => ?_
  refine (Relates.many (.andThen (.optionally .word) fun _ => unnumbered_objective)).bind
    fun rest rest' others => .pure ?_
  have folded : ∀ {attributes attributes' : Attributes}, Agree attributes attributes' →
      ∀ {settings settings' : List (TokenKind × Term)}, List.Forall₂ (fun setting setting' =>
        setting.1 = setting'.1 ∧ Agree setting.2 setting'.2) settings settings' →
      Agree (settings.foldl (fun attributes setting => attributes.set setting.1 setting.2) attributes)
        (settings'.foldl (fun attributes setting => attributes.set setting.1 setting.2) attributes') := by
    intro attributes attributes' same settings settings' all
    induction all generalizing attributes attributes' with
    | nil => exact same
    | cons setting _ ih =>
      obtain ⟨name, terms⟩ := setting
      rw [List.foldl_cons, List.foldl_cons, ← name]
      exact ih (Attributes.agree_set same _ terms)
  exact folded BEq.rfl (.cons same others)

theorem unnumbered_usingClause : usingClause.Unnumbered :=
  .orElse (.andThen .word fun _ => unnumbered_objectives) (.pure BEq.rfl)

theorem unnumbered_timestampClause : timestampClause.Unnumbered :=
  .orElse
    (.andThen .word fun _ => .andThen .word fun _ => unnumbered_integerOrMarker.bind fun _ _ terms =>
      .pure (Agree.pair terms BEq.rfl))
    (.pure BEq.rfl)

/-! ### INSERT, DELETE and UPDATE -/

theorem unnumbered_insertion : insertion.Unnumbered := by
  have columns : (twoOrMore identifier).Numberless := .list (.twoOrMore numberless_identifier)
  exact .andThen .word fun _ => .andThen numberless_tableName fun _ => .andThen .mark fun _ =>
    .andThen columns fun _ => .andThen .mark fun _ => .andThen .word fun _ => .andThen .mark fun _ =>
    (Relates.twoOrMore unnumbered_value).bind fun _ _ values => .andThen .mark fun _ =>
    unnumbered_usingClause.bind fun _ _ attributes => .pure
      (Agree.pair BEq.rfl (Agree.pair BEq.rfl (Agree.pair (Agree.list values) attributes)))

theorem unnumbered_deletionTarget : deletionTarget.Unnumbered :=
  .orElse
    (.andThen numberless_identifier fun _ => .andThen .mark fun _ =>
      unnumbered_value.bind fun _ _ keys => .andThen .mark fun _ => .pure (Agree.pair BEq.rfl keys))
    (.andThen numberless_identifier fun _ => .pure BEq.rfl)

theorem unnumbered_deletion : deletion.Unnumbered := by
  have targets : (commaSeparated deletionTarget <|> pure [] : Phrase (List DeletionTarget)).Relates
      Numbered.SameLexeme (commaSeparated deletionTarget <|> pure []) (List.Forall₂ Agree) :=
    .orElse (.commaSeparated unnumbered_deletionTarget) (.pure .nil)
  exact targets.bind fun _ _ targets => .andThen .word fun _ => .andThen numberless_tableName fun _ =>
    unnumbered_timestampClause.bind fun _ _ attributes => .andThen .word fun _ =>
    unnumbered_relations.bind fun _ _ relations => .pure
      (Agree.pair BEq.rfl (Agree.pair (Agree.list targets) (Agree.pair attributes relations)))

theorem numberless_itself (column : Identifier) : (itself column).Numberless :=
  .andThen numberless_identifier fun _ => .require

theorem counts_of_agree {term term' : Term} (h : Agree term term') (counts : Counts term) :
    Counts term' := by
  cases counts with
  | integer digits => cases term' <;> first | exact .integer _ | cases h
  | marker ordinal => cases term' <;> first | exact .marker _ | cases h

/-- Equal operands make equal changes. -/
theorem changes_of_agree {sign : Sign} {operand operand' : Value} {operation : Operation}
    (h : Agree operand operand') (changes : Changes sign operand operation) :
    ∃ operation', Changes sign operand' operation' ∧ Agree operation operation' := by
  cases changes with
  | increment counts =>
    cases operand' with
    | term amount => exact ⟨_, .increment (counts_of_agree h counts), h⟩
    | _ => cases h
  | decrement counts =>
    cases operand' with
    | term amount => exact ⟨_, .decrement (counts_of_agree h counts), h⟩
    | _ => cases h
  | append items =>
    cases operand' with
    | list items' => exact ⟨_, .append items', h⟩
    | _ => cases h
  | discard items =>
    cases operand' with
    | list items' => exact ⟨_, .discard items', h⟩
    | _ => cases h
  | add items =>
    cases operand' with
    | set items' => exact ⟨_, .add items', h⟩
    | _ => cases h
  | remove items =>
    cases operand' with
    | set items' => exact ⟨_, .remove items', h⟩
    | _ => cases h
  | addNothing =>
    cases operand' with
    | emptyBraces => exact ⟨_, .addNothing, rfl⟩
    | _ => cases h
  | removeNothing =>
    cases operand' with
    | emptyBraces => exact ⟨_, .removeNothing, rfl⟩
    | _ => cases h
  | putAll entries =>
    cases operand' with
    | map entries' => exact ⟨_, .putAll entries', h⟩
    | _ => cases h

theorem unnumbered_signedChange : signedChange.Unnumbered := by
  have sign : sign.Numberless := by
    refine Relates.token fun item item' sign same seen => ⟨sign, ?_, rfl⟩
    rwa [Numbered.kind, same]
  refine .andThen sign fun _ => unnumbered_value.bind fun _ _ operands => ?_
  rintro items items' operation alike ⟨rfl, changes⟩
  obtain ⟨operation', changes', same⟩ := changes_of_agree operands changes
  exact ⟨operation', ⟨List.forall₂_nil_left_iff.1 alike, changes'⟩, same⟩

theorem unnumbered_unsignedChange : unsignedChange.Unnumbered :=
  .orElse (.andThen numberless_integer fun _ => .andThen .require fun _ => .pure BEq.rfl)
    (unnumbered_marker.map fun _ _ same => same)

theorem unnumbered_change (column : Identifier) : (change column).Unnumbered := by
  refine .orElse ?_ (.orElse ?_ (.orElse ?_ ?_))
  · exact .andThen .mark fun _ => unnumbered_value.bind fun _ _ keys => .andThen .mark fun _ =>
      .andThen .mark fun _ => unnumbered_value.bind fun _ _ values =>
        .pure (Operation.agree_element keys values)
  · exact .andThen .mark fun _ => unnumbered_value.bind fun _ _ values => .pure values
  · exact .andThen .mark fun _ => unnumbered_value.bind fun _ _ items => .andThen .mark fun _ =>
      .andThen (numberless_itself column) fun _ => .pure items
  · exact .andThen .mark fun _ => .andThen (numberless_itself column) fun _ =>
      .orElse unnumbered_signedChange unnumbered_unsignedChange

theorem unnumbered_assignment : assignment.Unnumbered :=
  .andThen numberless_identifier fun _ => (unnumbered_change _).bind fun _ _ operations =>
    .pure (Agree.pair BEq.rfl operations)

theorem unnumbered_update : update.Unnumbered :=
  .andThen numberless_tableName fun _ => unnumbered_usingClause.bind fun _ _ attributes =>
    .andThen .word fun _ => (Relates.commaSeparated unnumbered_assignment).bind fun _ _ operations =>
    .andThen .word fun _ => unnumbered_relations.bind fun _ _ relations => .pure
      (Agree.pair BEq.rfl (Agree.pair attributes (Agree.pair (Agree.list operations) relations)))

theorem unnumbered_modification : modification.Unnumbered :=
  .orElse (.andThen .word fun _ => unnumbered_insertion.bind fun _ _ same => .pure same) <|
  .orElse (.andThen .word fun _ => unnumbered_update.bind fun _ _ same => .pure same)
    (.andThen .word fun _ => unnumbered_deletion.bind fun _ _ same => .pure same)

/-- Wherever their numbers begin, the same lexemes are equal statements. -/
theorem modification_of_renumbered {ordinal : Nat} (ordinal' : Nat) {lexemes : List Lexeme}
    {found : Modification} (spelled : modification (number ordinal lexemes) found) :
    ∃ found', modification (number ordinal' lexemes) found' ∧ (found == found') = true :=
  unnumbered_modification _ _ _ (sameLexeme_number ordinal ordinal' lexemes) spelled

end Language

end Cql
