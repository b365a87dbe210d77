/-
Phrases do not see the case of words.

Where the words of a stretch are written in another case, a phrase still stands for something; and for
most phrases that is the same, since names are folded to lower case and keywords are not kept.

* `Respells` — stretches that differ in the case of words at most;
* `Phrase.Carries` — a stretch of one phrase, respelled, is one of the other, and their values are
  related; `Phrase.Stable` is the case that they are equal;
* `Language.stable_value`, `Language.stable_relations`, `Language.stable_selection` and so on — the
  phrases of queries and of statements that change rows.
-/
import Cql.Proofs.CaseVariants
import Cql.Proofs.Language
import Cql.Proofs.RelatedPhrases

namespace Cql

/-! ### Stretches -/

/-- Numbered tokens that differ in the case of a word at most. -/
structure Numbered.Alike (item other : Numbered) : Prop where
  lexeme : item.lexeme.Alike other.lexeme
  ordinal : other.ordinal = item.ordinal

/-- Stretches that differ in the case of words at most. -/
abbrev Respells (items others : List Numbered) : Prop := List.Forall₂ Numbered.Alike items others

/-- An identifier is no bind marker, so alike lexemes are numbered alike. -/
theorem Respells.number {lexemes others : List Lexeme} (ordinal : Nat)
    (h : List.Forall₂ Lexeme.Alike lexemes others) :
    Respells (number ordinal lexemes) (number ordinal others) := by
  induction h generalizing ordinal with
  | nil => exact .nil
  | cons alike _ ih =>
    refine .cons ⟨alike, rfl⟩ ?_
    cases alike with
    | same => exact ih _
    | keyword => exact ih _
    | identifier => exact ih _

namespace Phrase

variable {α : Type} {phrase other : Phrase α} {R : α → α → Prop}

instance : KeepsKinds Numbered.Alike where
  keyword := by
    rintro ⟨lexeme, ordinal⟩ ⟨lexeme', ordinal'⟩ keyword ⟨alike, -⟩ kind
    cases alike with
    | same | keyword => exact kind
    | identifier => cases kind
  mark := by
    rintro ⟨lexeme, ordinal⟩ ⟨lexeme', ordinal'⟩ punctuation ⟨alike, -⟩ kind
    cases alike with
    | same => exact kind
    | keyword | identifier => cases kind

/-- A stretch of the phrase, respelled, is one of the other, and what they stand for is related. -/
abbrev Carries (phrase other : Phrase α) (R : α → α → Prop) : Prop :=
  phrase.Relates Numbered.Alike other R

/-- The phrase stands for the same in whatever case its words are. -/
abbrev Stable (phrase : Phrase α) : Prop := phrase.Carries phrase Eq

/-- A stretch of the phrase, respelled, is one of the other. -/
abbrev Admits (phrase other : Phrase α) : Prop := phrase.Carries other fun _ _ => True

theorem Carries.admits (h : phrase.Carries other R) : phrase.Admits other :=
  h.weaken fun _ _ _ => trivial

/-! ### Phrases that stand for the same -/

namespace Stable

theorem token {read : Numbered → Option α}
    (keyword : ∀ {keyword text text'} ordinal, SameLetters text.toList text'.toList →
      read ⟨⟨.keyword keyword, text'⟩, ordinal⟩ = read ⟨⟨.keyword keyword, text⟩, ordinal⟩)
    (identifier : ∀ {name name'} ordinal, SameLetters name.toList name'.toList →
      read ⟨⟨.identifier name', name'⟩, ordinal⟩ = read ⟨⟨.identifier name, name⟩, ordinal⟩) :
    (token read).Stable := by
  refine Relates.token fun item other a alike seen => ⟨a, ?_, rfl⟩
  obtain ⟨lexeme, ordinal⟩ := item
  obtain ⟨lexeme', ordinal'⟩ := other
  obtain ⟨alike, rfl⟩ := alike
  rw [← seen]
  cases alike with
  | same => rfl
  | keyword letters => exact keyword _ letters
  | identifier letters => exact identifier _ letters

theorem many (h : phrase.Stable) : (many phrase).Stable :=
  (Relates.many h).weaken fun as bs same => by rwa [List.forall₂_eq_eq_eq] at same

theorem separated {separator : Phrase Unit} (between : separator.Stable) (h : phrase.Stable) :
    (separated separator phrase).Stable :=
  .andThen h fun _ => .andThen (Stable.many (.andThen between fun _ => h)) fun _ => .pure rfl

theorem commaSeparated (h : phrase.Stable) : (commaSeparated phrase).Stable := Stable.separated .mark h

theorem twoOrMore (h : phrase.Stable) : (twoOrMore phrase).Stable :=
  .andThen h fun _ => .andThen .mark fun _ => .andThen (Stable.commaSeparated h) fun _ => .pure rfl

theorem parenthesized (h : phrase.Stable) : (parenthesized phrase).Stable :=
  .andThen .mark fun _ => .andThen (Stable.commaSeparated h) fun _ => .andThen .mark fun _ => .pure rfl

end Stable

end Phrase

namespace Language

open Phrase

/-! ### Names and values -/

/-- A name is folded to lower case, and so is a keyword that stands for one. -/
theorem stable_identifier : identifier.Stable := by
  have folded : ∀ {name name' : String}, SameLetters name.toList name'.toList →
      Identifier.unquoted name' = Identifier.unquoted name := by
    intro name name' letters
    show Identifier.mk (Lowercase.text name') false = Identifier.mk (Lowercase.text name) false
    rw [Lowercase.text_congr letters]
  refine .token (fun _ letters => ?_) (fun _ letters => ?_)
  · simp only [Identifier.ofLexeme?, folded letters]
  · simp only [Identifier.ofLexeme?, folded letters]

theorem stable_tableName : tableName.Stable :=
  .orElse
    (.andThen stable_identifier fun _ => .andThen .mark fun _ =>
      .andThen stable_identifier fun _ => .pure rfl)
    (.andThen stable_identifier fun _ => .pure rfl)

theorem stable_integer : integer.Stable := .token (fun _ _ => rfl) (fun _ _ => rfl)

theorem stable_marker : marker.Stable := .token (fun _ _ => rfl) (fun _ _ => rfl)

theorem stable_scalar : scalar.Stable :=
  .orElse (Stable.token (fun _ _ => rfl) (fun _ _ => rfl)) stable_marker

theorem stable_integerOrMarker : integerOrMarker.Stable :=
  .orElse (.andThen stable_integer fun _ => .pure rfl) stable_marker

theorem stable_listLiteral {value : Phrase Value} (h : value.Stable) : (listLiteral value).Stable :=
  .andThen .mark fun _ => .andThen (.orElse (Stable.commaSeparated h) (.pure rfl)) fun _ =>
    .andThen .mark fun _ => .pure rfl

theorem stable_mapEntry {value : Phrase Value} (h : value.Stable) : (mapEntry value).Stable :=
  .andThen h fun _ => .andThen .mark fun _ => .andThen h fun _ => .pure rfl

theorem stable_bracedLiteral {value : Phrase Value} (h : value.Stable) :
    (bracedLiteral value).Stable :=
  .orElse (.andThen .mark fun _ => .andThen .mark fun _ => .pure rfl) <|
  .orElse
    (.andThen .mark fun _ => .andThen (Stable.commaSeparated h) fun _ =>
      .andThen .mark fun _ => .pure rfl)
    (.andThen .mark fun _ => .andThen (Stable.commaSeparated (stable_mapEntry h)) fun _ =>
      .andThen .mark fun _ => .pure rfl)

theorem stable_valueWithin (levels : Nat) : (valueWithin levels).Stable := by
  have term : (Value.term <$> scalar).Stable := .andThen stable_scalar fun _ => .pure rfl
  induction levels with
  | zero => exact term
  | succ levels ih => exact .orElse term (.orElse (stable_listLiteral ih) (stable_bracedLiteral ih))

theorem stable_value : value.Stable := stable_valueWithin maxNesting

/-! ### Relations and USING clauses -/

theorem stable_comparison : comparison.Stable := .token (fun _ _ => rfl) (fun _ _ => rfl)

theorem stable_tokenOperand (columns : Nat) : (tokenOperand columns).Stable :=
  .orElse
    (.andThen .word fun _ => .andThen (Stable.parenthesized stable_value) fun _ =>
      .andThen .require fun _ => .pure rfl)
    (.andThen stable_value fun _ => .pure rfl)

theorem stable_relation : relation.Stable :=
  .orElse
    (.andThen stable_identifier fun _ => .andThen .word fun _ =>
      .andThen (Stable.parenthesized stable_value) fun _ => .pure rfl) <|
  .orElse
    (.andThen stable_identifier fun _ => .andThen stable_comparison fun _ =>
      .andThen stable_value fun _ => .pure rfl)
    (.andThen .word fun _ => .andThen (Stable.parenthesized stable_identifier) fun _ =>
      .andThen stable_comparison fun _ => .andThen (stable_tokenOperand _) fun _ => .pure rfl)

theorem stable_relations : relations.Stable := Stable.separated .word stable_relation

theorem stable_objective : objective.Stable :=
  .andThen (Stable.token (fun _ _ => rfl) (fun _ _ => rfl)) fun _ =>
    .andThen stable_integerOrMarker fun _ => .pure rfl

theorem stable_objectives : objectives.Stable :=
  .andThen stable_objective fun _ =>
    .andThen (Stable.many (.andThen (.optionally .word) fun _ => stable_objective)) fun _ => .pure rfl

theorem stable_usingClause : usingClause.Stable :=
  .orElse (.andThen .word fun _ => stable_objectives) (.pure rfl)

theorem stable_timestampClause : timestampClause.Stable :=
  .orElse
    (.andThen .word fun _ => .andThen .word fun _ =>
      .andThen stable_integerOrMarker fun _ => .pure rfl)
    (.pure rfl)

/-! ### INSERT, DELETE and UPDATE -/

theorem stable_insertion : insertion.Stable :=
  .andThen .word fun _ => .andThen stable_tableName fun _ =>
    .andThen .mark fun _ => .andThen (Stable.twoOrMore stable_identifier) fun _ =>
    .andThen .mark fun _ => .andThen .word fun _ =>
    .andThen .mark fun _ => .andThen (Stable.twoOrMore stable_value) fun _ => .andThen .mark fun _ =>
    .andThen stable_usingClause fun _ => .pure rfl

theorem stable_deletionTarget : deletionTarget.Stable :=
  .orElse
    (.andThen stable_identifier fun _ => .andThen .mark fun _ => .andThen stable_value fun _ =>
      .andThen .mark fun _ => .pure rfl)
    (.andThen stable_identifier fun _ => .pure rfl)

theorem stable_deletion : deletion.Stable :=
  .andThen (.orElse (Stable.commaSeparated stable_deletionTarget) (.pure rfl)) fun _ =>
    .andThen .word fun _ => .andThen stable_tableName fun _ =>
    .andThen stable_timestampClause fun _ => .andThen .word fun _ =>
    .andThen stable_relations fun _ => .pure rfl

theorem stable_itself (column : Identifier) : (itself column).Stable :=
  .andThen stable_identifier fun _ => Relates.require

theorem stable_sign : sign.Stable := .token (fun _ _ => rfl) (fun _ _ => rfl)

theorem stable_signedChange : signedChange.Stable := by
  refine .andThen stable_sign fun _ => .andThen stable_value fun _ => ?_
  rintro items items' operation respells ⟨rfl, changes⟩
  exact ⟨operation, ⟨List.forall₂_nil_left_iff.1 respells, changes⟩, rfl⟩

theorem stable_unsignedChange : unsignedChange.Stable :=
  .orElse (.andThen stable_integer fun _ => .andThen .require fun _ => .pure rfl)
    (.andThen stable_marker fun _ => .pure rfl)

theorem stable_change (column : Identifier) : (change column).Stable :=
  .orElse
    (.andThen .mark fun _ => .andThen stable_value fun _ => .andThen .mark fun _ =>
      .andThen .mark fun _ => .andThen stable_value fun _ => .pure rfl) <|
  .orElse (.andThen .mark fun _ => .andThen stable_value fun _ => .pure rfl) <|
  .orElse
    (.andThen .mark fun _ => .andThen stable_value fun _ => .andThen .mark fun _ =>
      .andThen (stable_itself column) fun _ => .pure rfl)
    (.andThen .mark fun _ => .andThen (stable_itself column) fun _ =>
      .orElse stable_signedChange stable_unsignedChange)

theorem stable_assignment : assignment.Stable :=
  .andThen stable_identifier fun _ => .andThen (stable_change _) fun _ => .pure rfl

theorem stable_update : update.Stable :=
  .andThen stable_tableName fun _ => .andThen stable_usingClause fun _ => .andThen .word fun _ =>
    .andThen (Stable.commaSeparated stable_assignment) fun _ => .andThen .word fun _ =>
    .andThen stable_relations fun _ => .pure rfl

/-! ### BATCH -/

theorem stable_modification : modification.Stable :=
  .orElse (.andThen .word fun _ => .andThen stable_insertion fun _ => .pure rfl) <|
  .orElse (.andThen .word fun _ => .andThen stable_update fun _ => .pure rfl)
    (.andThen .word fun _ => .andThen stable_deletion fun _ => .pure rfl)

theorem stable_batchMode : batchMode.Stable :=
  .orElse (.andThen .word fun _ => .pure rfl)
    (.orElse (.andThen .word fun _ => .pure rfl) (.pure rfl))

theorem stable_batchItem : batchItem.Stable :=
  .andThen stable_modification fun _ => .andThen (.optionally .mark) fun _ => .pure rfl

theorem stable_batch : batch.Stable :=
  .andThen stable_batchMode fun _ => .andThen .word fun _ => .andThen stable_usingClause fun _ =>
    .andThen stable_batchItem fun _ => .andThen (Stable.many stable_batchItem) fun _ =>
    .andThen .word fun _ => .andThen .word fun _ => .pure rfl

/-! ### SELECT -/

theorem stable_countArgument : countArgument.Stable :=
  .orElse Relates.mark (Stable.token (fun _ _ => rfl) (fun _ _ => rfl))

theorem stable_functionArgument : functionArgument.Stable :=
  .andThen .mark fun _ => .andThen stable_identifier fun _ => .andThen .mark fun _ => .pure rfl

theorem stable_selector : selector.Stable :=
  .orElse (.andThen .word fun _ => .andThen stable_functionArgument fun _ => .pure rfl) <|
  .orElse (.andThen .word fun _ => .andThen stable_functionArgument fun _ => .pure rfl)
    (.andThen stable_identifier fun _ => .pure rfl)

theorem stable_projection : projection.Stable :=
  .orElse
    (.andThen .word fun _ => .andThen .mark fun _ => .andThen stable_countArgument fun _ =>
      .andThen .mark fun _ => .pure rfl) <|
  .orElse (.andThen .mark fun _ => .pure rfl)
    (.andThen (Stable.commaSeparated stable_selector) fun _ => .pure rfl)

theorem stable_direction : direction.Stable :=
  .orElse (.andThen .word fun _ => .pure rfl) (.andThen (.optionally .word) fun _ => .pure rfl)

theorem stable_ordering : ordering.Stable :=
  .andThen stable_identifier fun _ => .andThen stable_direction fun _ => .pure rfl

theorem stable_whereClause : whereClause.Stable :=
  .orElse (.andThen .word fun _ => stable_relations) (.pure rfl)

theorem stable_orderClause : orderClause.Stable :=
  .orElse
    (.andThen .word fun _ => .andThen .word fun _ =>
      .andThen (Stable.commaSeparated stable_ordering) fun _ => .pure rfl)
    (.pure rfl)

theorem stable_limitClause : limitClause.Stable :=
  .orElse (.andThen .word fun _ => Stable.token (fun _ _ => rfl) (fun _ _ => rfl)) (.pure rfl)

theorem stable_filteringClause : filteringClause.Stable :=
  .orElse (.andThen .word fun _ => .andThen .word fun _ => .pure rfl) (.pure rfl)

theorem stable_selection : selection.Stable :=
  .andThen stable_projection fun _ => .andThen .word fun _ => .andThen stable_tableName fun _ =>
    .andThen stable_whereClause fun _ => .andThen stable_orderClause fun _ =>
    .andThen stable_limitClause fun _ => .andThen stable_filteringClause fun _ => .pure rfl

/-! ### Statements -/

theorem stable_modificationStatement : modificationStatement.Stable :=
  .orElse (.andThen .word fun _ => .andThen stable_insertion fun _ => .pure rfl) <|
  .orElse (.andThen .word fun _ => .andThen stable_update fun _ => .pure rfl) <|
  .orElse (.andThen .word fun _ => .andThen stable_deletion fun _ => .pure rfl)
    (.andThen .word fun _ => .andThen stable_batch fun _ => .pure rfl)

theorem stable_selectStatement : selectStatement.Stable :=
  .andThen .word fun _ => .andThen stable_selection fun _ => .pure rfl

end Language

end Cql
