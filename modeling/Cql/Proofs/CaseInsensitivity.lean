/-
The case of keywords and of names without quotes does not matter.

A source is accepted in whatever case its keywords and identifiers are written, and it is the same
statement, but where a statement keeps the name of an index, of a user or of a property as it is written.

* `Statement.foldsCase` — the statements that keep no such name;
* `Language.admits_administrativeStatement`, `Language.admits_tableStatement` — the other statements;
* `Language.carries_statement` — a statement, respelled;
* `Parser.reads_of_alike` — **a list of tokens, respelled**;
* `parse_of_caseVariant` — **a source, respelled**.
-/
import Cql.Proofs.BoundTerms
import Cql.Proofs.Overwritten
import Cql.Proofs.Reflexivity
import Cql.Proofs.RespelledPhrases

namespace Cql

/-- Is it SELECT, INSERT, UPDATE, DELETE, a batch, USE or TRUNCATE?  These keep no text whose case the
grammar does not fold. -/
def Statement.foldsCase : Statement → Bool
  | select _ | insert _ | update _ | delete _ | batch _ | use _ | truncate _ => true
  | _ => false

namespace Phrase

variable {α : Type} {phrase ending : Phrase α}

theorem Stable.manyThen {ending : Phrase (List α)} (h : phrase.Stable) (last : ending.Stable) :
    (manyThen phrase ending).Stable := by
  intro items items' as respells spelled
  refine ⟨as, ?_, rfl⟩
  induction spelled generalizing items' with
  | ends ended =>
    obtain ⟨_, carried, rfl⟩ := last _ _ _ respells ended
    exact .ends carried
  | more first others ih =>
    obtain ⟨front, rest, rfl, respells₁, respells₂⟩ := exists_append_of_forall₂ respells
    obtain ⟨_, carried, rfl⟩ := h _ _ _ respells₁ first
    exact .more carried (ih _ respells₂)

namespace Admits

theorem token {read : Numbered → Option α}
    (keyword : ∀ {keyword text text'} ordinal,
      (read ⟨⟨.keyword keyword, text'⟩, ordinal⟩).isSome =
        (read ⟨⟨.keyword keyword, text⟩, ordinal⟩).isSome)
    (identifier : ∀ {name name'} ordinal,
      (read ⟨⟨.identifier name', name'⟩, ordinal⟩).isSome =
        (read ⟨⟨.identifier name, name⟩, ordinal⟩).isSome) :
    (token read).Admits (token read) := by
  refine Relates.token fun item other a alike seen => ?_
  have read' : (read other).isSome = (read item).isSome := by
    obtain ⟨lexeme, ordinal⟩ := item
    obtain ⟨lexeme', ordinal'⟩ := other
    obtain ⟨alike, rfl⟩ := alike
    cases alike with
    | same => rfl
    | keyword => exact keyword _
    | identifier => exact identifier _
  rw [seen, Option.isSome_some, Option.isSome_iff_exists] at read'
  obtain ⟨b, seen'⟩ := read'
  exact ⟨b, seen', trivial⟩

theorem separated {separator : Phrase Unit} (between : separator.Stable) (h : phrase.Admits phrase) :
    (separated separator phrase).Admits (separated separator phrase) :=
  h.skip fun _ _ => (Relates.many (between.skip fun _ _ => h)).skip fun _ _ => .pure trivial

end Admits

end Phrase

namespace Language

open Phrase

/-! ### Statements about schemas, permissions and whole tables -/

theorem stable_simpleType : simpleType.Stable := .token (fun _ _ => rfl) (fun _ _ => rfl)

theorem stable_inAngles {element : Phrase DataType} (h : element.Stable) : (inAngles element).Stable :=
  .andThen .mark fun _ => .andThen h fun _ => .andThen .mark fun _ => .pure rfl

theorem stable_typeOf {element : Phrase DataType} (h : element.Stable) : (typeOf element).Stable :=
  .orElse
    (.andThen .word fun _ => .andThen .mark fun _ => .andThen h fun _ => .andThen .mark fun _ =>
      .andThen h fun _ => .andThen .mark fun _ => .pure rfl) <|
  .orElse (.andThen .word fun _ => .andThen (stable_inAngles h) fun _ => .pure rfl) <|
  .orElse (.andThen .word fun _ => .andThen (stable_inAngles h) fun _ => .pure rfl) stable_simpleType

theorem stable_typeWithin (levels : Nat) : (typeWithin levels).Stable := by
  induction levels with
  | zero => exact stable_simpleType
  | succ levels ih => exact stable_typeOf ih

theorem stable_dataType : dataType.Stable := stable_typeWithin maxNesting

theorem stable_constantText : constantText.Stable := .token (fun _ _ => rfl) (fun _ _ => rfl)

theorem stable_propertyEntry : propertyEntry.Stable :=
  .andThen stable_constantText fun _ => .andThen .mark fun _ =>
    .andThen stable_constantText fun _ => .pure rfl

theorem stable_propertyMap : propertyMap.Stable :=
  .andThen .mark fun _ => .andThen (.orElse (Stable.commaSeparated stable_propertyEntry) (.pure rfl))
    fun _ => .andThen .mark fun _ => .pure rfl

/-- The value of a property may be a keyword, which is kept as it is written. -/
theorem admits_propertyValue : propertyValue.Admits propertyValue := by
  have word : unreservedWord.Admits unreservedWord := by
    refine .token (fun {keyword _ _} _ => ?_) (fun _ => rfl)
    cases unreserved : keyword.isUnreserved with
    | true => simp [Numbered.kind, TokenKind.isUnreservedKeyword, unreserved]
    | false => simp [Numbered.kind, TokenKind.isUnreservedKeyword, unreserved]
  exact .orElse (stable_constantText.skip fun _ _ => .pure trivial)
    (.orElse (word.skip fun _ _ => .pure trivial) stable_propertyMap.admits)

theorem admits_property : property.Admits property :=
  stable_identifier.skip fun _ _ => Relates.mark.skip fun _ _ =>
    admits_propertyValue.skip fun _ _ => .pure trivial

theorem admits_properties : properties.Admits properties :=
  (Admits.separated .word admits_property).skip fun _ _ => .pure trivial

theorem stable_primaryKey : primaryKey.Stable := by
  have component : keyComponent.Stable :=
    .orElse (Stable.parenthesized stable_identifier) (.andThen stable_identifier fun _ => .pure rfl)
  exact .andThen .word fun _ => .andThen .word fun _ => .andThen .mark fun _ =>
    .andThen component fun _ => .andThen (Stable.many (.andThen .mark fun _ => stable_identifier))
    fun _ => .andThen .mark fun _ => .pure rfl

theorem stable_columnDefinition : columnDefinition.Stable := by
  have marked : keyMark.Stable :=
    .orElse (.andThen .word fun _ => .andThen .word fun _ => .pure rfl) (.pure rfl)
  exact .andThen stable_identifier fun _ => .andThen stable_dataType fun _ =>
    .andThen marked fun _ => .pure rfl

theorem stable_gaplessSlots : gaplessSlots.Stable := by
  have item : tableItem.Stable := .orElse stable_primaryKey stable_columnDefinition
  have last : (trailing (mark .comma) (none : Option TableItem)).Stable :=
    .orElse (.andThen .mark fun _ => .pure rfl) (.pure rfl)
  exact .andThen item fun _ =>
    .andThen (Stable.manyThen (.andThen .mark fun _ => .andThen item fun _ => .pure rfl) last)
      fun _ => .pure rfl

theorem stable_clusteringEntry : clusteringEntry.Stable :=
  .andThen stable_identifier fun _ =>
    .orElse (.andThen .word fun _ => .pure rfl) (.andThen .word fun _ => .pure rfl)

theorem admits_tableOption : tableOption.Admits tableOption :=
  .orElse (Relates.word.skip fun _ _ => Relates.word.skip fun _ _ => .pure trivial) <|
  .orElse
    (Relates.word.skip fun _ _ => Relates.word.skip fun _ _ => Relates.word.skip fun _ _ =>
      (Stable.parenthesized stable_clusteringEntry).skip fun _ _ => .pure trivial)
    (admits_property.skip fun _ _ => .pure trivial)

theorem stable_tableWord : tableWord.Stable := .orElse Relates.word Relates.word

theorem admits_tableStatement : tableStatement.Admits tableStatement := by
  have options : tableOptions.Admits tableOptions :=
    .orElse (Relates.word.skip fun _ _ => Admits.separated .word admits_tableOption) (.pure trivial)
  have text : gaplessText.Admits gaplessText :=
    stable_tableName.skip fun _ _ => Relates.mark.skip fun _ _ => stable_gaplessSlots.skip fun _ _ =>
      Relates.mark.skip fun _ _ => options.skip fun _ _ => .pure trivial
  exact Relates.word.skip fun _ _ => stable_tableWord.skip fun _ _ => text.skip fun _ _ => .pure trivial

theorem admits_keyspaceDefinition : keyspaceDefinition.Admits keyspaceDefinition :=
  stable_identifier.skip fun _ _ => Relates.word.skip fun _ _ =>
    admits_properties.skip fun _ _ => .pure trivial

theorem admits_indexName : indexName.Admits indexName := .token (fun _ => rfl) (fun _ => rfl)

theorem admits_userName : userName.Admits userName := .token (fun _ => rfl) (fun _ => rfl)

theorem admits_creation : creation.Admits creation := by
  have named : ((some <$> indexName) <|> pure none : Phrase (Option String)).Admits
      ((some <$> indexName) <|> pure none) :=
    .orElse (admits_indexName.skip fun _ _ => .pure trivial) (.pure trivial)
  have index : indexDefinition.Admits indexDefinition :=
    named.skip fun _ _ => Relates.word.skip fun _ _ => stable_tableName.skip fun _ _ =>
      Relates.mark.skip fun _ _ => stable_identifier.skip fun _ _ => Relates.mark.skip fun _ _ =>
      .pure trivial
  exact .orElse
    (Relates.word.skip fun _ _ => admits_keyspaceDefinition.skip fun _ _ => .pure trivial)
    (Relates.word.skip fun _ _ => index.skip fun _ _ => .pure trivial)

theorem admits_dropping : dropping.Admits dropping :=
  .orElse (Relates.word.skip fun _ _ => stable_identifier.skip fun _ _ => .pure trivial) <|
  .orElse (stable_tableWord.skip fun _ _ => stable_tableName.skip fun _ _ => .pure trivial)
    (Relates.word.skip fun _ _ => admits_indexName.skip fun _ _ => .pure trivial)

theorem admits_tableChange : tableChange.Admits tableChange := by
  have renamed : columnRenaming.Stable :=
    .andThen stable_identifier fun _ => .andThen .word fun _ =>
      .andThen stable_identifier fun _ => .pure rfl
  exact .orElse
      (Relates.word.skip fun _ _ => stable_identifier.skip fun _ _ => Relates.word.skip fun _ _ =>
        stable_dataType.skip fun _ _ => .pure trivial) <|
    .orElse
      (Relates.word.skip fun _ _ => stable_identifier.skip fun _ _ =>
        stable_dataType.skip fun _ _ => .pure trivial) <|
    .orElse (Relates.word.skip fun _ _ => stable_identifier.skip fun _ _ => .pure trivial) <|
    .orElse (Relates.word.skip fun _ _ => admits_properties.skip fun _ _ => .pure trivial)
      (Relates.word.skip fun _ _ => (Stable.separated .word renamed).skip fun _ _ => .pure trivial)

theorem admits_alteration : alteration.Admits alteration :=
  .orElse (Relates.word.skip fun _ _ => admits_keyspaceDefinition.skip fun _ _ => .pure trivial)
    (stable_tableWord.skip fun _ _ => stable_tableName.skip fun _ _ =>
      admits_tableChange.skip fun _ _ => .pure trivial)

theorem stable_permission : permission.Stable := .token (fun _ _ => rfl) (fun _ _ => rfl)

theorem admits_grant : grant.Admits grant := by
  have withOption : grantOption.Stable :=
    .orElse (.andThen .word fun _ => .andThen .word fun _ => .andThen .word fun _ => .pure rfl)
      (.pure rfl)
  exact stable_permission.skip fun _ _ => Relates.word.skip fun _ _ => stable_tableName.skip fun _ _ =>
    Relates.word.skip fun _ _ => admits_userName.skip fun _ _ => withOption.skip fun _ _ => .pure trivial

theorem admits_revocation : revocation.Admits revocation :=
  stable_permission.skip fun _ _ => Relates.word.skip fun _ _ => stable_tableName.skip fun _ _ =>
    Relates.word.skip fun _ _ => admits_userName.skip fun _ _ => .pure trivial

theorem admits_grantsOfUser : grantsOfUser.Admits grantsOfUser :=
  Relates.word.skip fun _ _ => Relates.word.skip fun _ _ => admits_userName

/-! ### Statements -/

/-- The statements are equal, or neither is one that folds the case of its names. -/
def SameFolded (first second : Statement) : Prop :=
  second.foldsCase = first.foldsCase ∧ (first.foldsCase = true → second = first)

theorem carries_of_stable {phrase : Phrase Statement} (h : phrase.Stable) :
    phrase.Carries phrase SameFolded :=
  h.weaken fun _ _ same => ⟨by rw [same], fun _ => same.symm⟩

theorem carries_of_admits {phrase : Phrase Statement} (h : phrase.Admits phrase)
    (gives : phrase.Gives fun statement => statement.foldsCase = false) :
    phrase.Carries phrase SameFolded := by
  intro items items' first respells spelled
  obtain ⟨second, spelled', -⟩ := h _ _ _ respells spelled
  have kept := gives _ _ spelled
  exact ⟨second, spelled', (gives _ _ spelled').trans kept.symm, by simp [kept]⟩

theorem carries_administrativeStatement :
    administrativeStatement.Carries administrativeStatement SameFolded := by
  refine .orElse (carries_of_stable ?_) <| .orElse (carries_of_stable ?_) <|
    .orElse (carries_of_admits ?_ ?_) <| .orElse (carries_of_admits ?_ ?_) <|
    .orElse (carries_of_admits ?_ ?_) <| .orElse (carries_of_admits ?_ ?_) <|
    .orElse (carries_of_admits ?_ ?_) (carries_of_admits ?_ ?_)
  · exact .andThen .word fun _ => .andThen stable_identifier fun _ => .pure rfl
  · exact .andThen .word fun _ => .andThen stable_tableName fun _ => .pure rfl
  · exact Relates.word.skip fun _ _ => admits_creation
  · exact .bind fun _ => Parser.gives_creation (fun _ => rfl) (fun _ => rfl)
  · exact Relates.word.skip fun _ _ => admits_dropping
  · exact .bind fun _ => Parser.gives_dropping (fun _ => rfl) (fun _ => rfl) (fun _ => rfl)
  · exact Relates.word.skip fun _ _ => admits_alteration
  · exact .bind fun _ => Parser.gives_alteration (fun _ => rfl) (fun _ => rfl)
  · exact Relates.word.skip fun _ _ => admits_grant.skip fun _ _ => .pure trivial
  · exact .bind fun _ => .bind fun _ => .pure rfl
  · exact Relates.word.skip fun _ _ => admits_revocation.skip fun _ _ => .pure trivial
  · exact .bind fun _ => .bind fun _ => .pure rfl
  · exact Relates.word.skip fun _ _ => admits_grantsOfUser.skip fun _ _ => .pure trivial
  · exact .bind fun _ => .bind fun _ => .pure rfl

/-- A statement, respelled, is a statement, and the same if it folds the case of its names. -/
theorem carries_statement : statement.Carries statement SameFolded := by
  have created : tableStatement.Gives fun statement => statement.foldsCase = false :=
    .bind fun _ => .bind fun _ => .bind fun _ => .pure rfl
  exact .orElse (carries_of_stable stable_modificationStatement) <|
    .orElse (carries_of_stable stable_selectStatement) <|
    .orElse carries_administrativeStatement (carries_of_admits admits_tableStatement created)

end Language

/-! ### Lists of tokens -/

theorem Respells.marks_eq {items others : List Numbered} (h : Respells items others) :
    marks others = marks items := by
  induction h with
  | nil => rfl
  | @cons item other items others alike _ ih =>
    have same : (if other.kind = .punctuation .questionMark then some other.ordinal else none) =
        if item.kind = .punctuation .questionMark then some item.ordinal else none := by
      obtain ⟨lexeme, ordinal⟩ := item
      obtain ⟨lexeme', ordinal'⟩ := other
      obtain ⟨alike, rfl⟩ := alike
      cases alike with
      | same => rfl
      | keyword => rfl
      | identifier => rfl
    unfold marks at ih ⊢
    rw [List.filterMap_cons, List.filterMap_cons, same, ih]

/-- Tokens that are alike end in the same place. -/
theorem Respells.sentence {tokens others : List Token} (alike : List.Forall₂ Token.Alike tokens others) :
    Respells (Language.sentence tokens) (Language.sentence others) := by
  refine .number 0 ?_
  induction alike with
  | nil => exact .nil
  | @cons token other tokens others alike _ ih =>
    have ends : (token.kind ≠ .endOfInput) = (other.kind ≠ .endOfInput) := by
      have lexeme := alike.lexeme
      generalize token.toLexeme = first, other.toLexeme = second at lexeme ⊢
      cases lexeme <;> simp
    rw [List.takeWhile_cons, List.takeWhile_cons]
    simp only [ends]
    split
    · exact .cons alike.lexeme ih
    · exact .nil

namespace Parser

open Phrase

theorem position_start (tokens : List Token) : (ofTokens tokens).start.stream.position = 0 := by
  show (TokenStream.ofTokens tokens).position = 0
  simp [TokenStream.position]

/-- A query, respelled, is read to the same end as a statement in the same place. -/
theorem reads_of_alike {tokens others : List Token} {statement : Statement} {place : Place}
    {after : State} (alike : List.Forall₂ Token.Alike tokens others)
    (reads : Grammar.query.Reads (ofTokens tokens).start (statement, place) after) :
    ∃ statement' after', Grammar.query.Reads (ofTokens others).start (statement', place) after' ∧
      Language.SameFolded statement statement' ∧ after'.markers.count = after.markers.count := by
  have respells := Respells.sentence alike
  have marked := marks_of_reads reads
  obtain ⟨atEnd, front, middle, rest, units, units', passes, before, spelled, behind, rfl⟩ :=
    Grammar.reads_query_iff.1 reads
  obtain ⟨last, atEnd', passes'⟩ := State.passes_sentence tokens
  obtain ⟨whole, -⟩ := passes'.unique atEnd' passes atEnd
  rw [← whole] at respells
  have marks := respells.marks_eq
  -- Each part is respelled on its own.
  obtain ⟨front', others', split, respells₁, respells'⟩ := exists_append_of_forall₂ respells
  obtain ⟨middle', rest', rfl, respells₂, respells₃⟩ := exists_append_of_forall₂ respells'
  obtain ⟨_, before', rfl⟩ := Stable.many .mark _ _ _ respells₁ before
  obtain ⟨statement', spelled', same⟩ := Language.carries_statement _ _ _ respells₂ spelled
  obtain ⟨_, behind', rfl⟩ := Stable.many .mark _ _ _ respells₃ behind
  obtain ⟨after', atEnd', passes'⟩ := State.passes_sentence others
  have reads' := Grammar.reads_query_iff.2 ⟨atEnd', front', middle', rest', _, _, split ▸ passes',
    before', spelled', behind', rfl⟩
  refine ⟨statement', after', ?_, same, ?_⟩
  · rw [← respells₁.length_eq, ← respells₂.length_eq, position_start] at reads'
    rwa [position_start]
  · have counted := congrArg List.length (marks_of_reads reads')
    rw [marks, whole, marked, List.length_range, List.length_range] at counted
    exact counted.symm

end Parser

/-! ### Sources -/

/-- Places have the same spans among tokens that are alike. -/
theorem Place.span_of_alike {front front' : List Token} (place : Place) (mark : EndMark)
    (alike : List.Forall₂ Token.Alike front front') :
    place.span ⟨[], front', mark⟩ = place.span ⟨[], front, mark⟩ := by
  have spans : ∀ n, (TokenStream.mk [] front' mark).spanAt n = (TokenStream.mk [] front mark).spanAt n := by
    intro n
    show ((front'[n]?).getD mark.token).span = ((front[n]?).getD mark.token).span
    induction alike generalizing n with
    | nil => rfl
    | cons alike _ ih =>
      cases n with
      | zero => exact alike.span
      | succ n => exact ih n
  cases place with
  | token position => exact spans position
  | stretch first last => exact congrArg₂ Span.cover (spans first) (spans last)

theorem parse_iff {source : String} {parsed : ParsedStatement} :
    parse source = .ok parsed ↔ (tokenize source).diagnostics = [] ∧ ∃ place after,
      Grammar.query.Reads (Parser.ofTokens (tokenize source).tokens).start (parsed.statement, place)
          after ∧
        parsed = ⟨parsed.statement, after.markers.count,
          place.span (.ofTokens (tokenize source).tokens)⟩ := by
  rw [parse_eq_ok_iff]
  refine Parser.succeeds_iff.trans (and_congr_left' ?_)
  show (tokenize source).diagnostics ++ [] = [] ↔ _
  rw [List.append_nil]

/-- Sources with the same tokens, but for the case of words, are accepted alike. -/
theorem parse_of_alike {source source' : String} {front front' : List Token} {mark : EndMark}
    (tokens : (tokenize source).tokens = front ++ [mark.token])
    (tokens' : (tokenize source').tokens = front' ++ [mark.token])
    (alike : List.Forall₂ Token.Alike front front')
    (diagnostics : (tokenize source').diagnostics = (tokenize source).diagnostics)
    {parsed : ParsedStatement} (accepted : parse source = .ok parsed) :
    ∃ parsed', parse source' = .ok parsed' ∧ parsed'.statement.foldsCase = parsed.statement.foldsCase ∧
      (parsed.statement.foldsCase = true → parsed' = parsed) := by
  obtain ⟨silent, place, after, reads, made⟩ := parse_iff.1 accepted
  have whole : List.Forall₂ Token.Alike (tokenize source).tokens (tokenize source').tokens := by
    rw [tokens, tokens']
    exact List.rel_append alike (.cons ⟨rfl, .same _⟩ .nil)
  obtain ⟨statement', after', reads', ⟨folds, same⟩, counted⟩ := Parser.reads_of_alike whole reads
  refine ⟨⟨statement', after'.markers.count, place.span (.ofTokens (tokenize source').tokens)⟩, ?_,
    folds, fun foldsCase => ?_⟩
  · exact parse_iff.2 ⟨diagnostics.trans silent, place, after', reads', rfl⟩
  · rw [made, same foldsCase, counted, tokens, tokens', TokenStream.ofTokens_concat,
      TokenStream.ofTokens_concat, place.span_of_alike mark alike]

/-- The case of letters in keywords and identifiers does not decide whether a source is accepted.  A
SELECT, INSERT, UPDATE, DELETE, BATCH, USE or TRUNCATE is the same statement in whatever case, with as many
bind markers and in the same place. -/
theorem parse_of_caseVariant {source source' : String} (variant : CaseVariant source source') :
    ((∃ parsed, parse source = .ok parsed) ↔ ∃ parsed', parse source' = .ok parsed') ∧
      ∀ parsed parsed', parse source = .ok parsed → parse source' = .ok parsed' →
        (parsed.statement.foldsCase = true ∨ parsed'.statement.foldsCase = true) →
          (parsed.statement == parsed'.statement) = true ∧ parsed'.boundTerms = parsed.boundTerms ∧
            parsed'.span = parsed.span := by
  obtain ⟨front, front', mark, tokens, tokens', alike⟩ := variant.tokens
  -- Only the words of the first source are spoken of, but to have like tokens is symmetric.
  have forth := @parse_of_alike _ _ _ _ _ tokens tokens' alike variant.diagnostics
  have back := @parse_of_alike _ _ _ _ _ tokens' tokens (alike.flip.imp fun _ _ h => h.symm)
    variant.diagnostics.symm
  refine ⟨⟨?_, ?_⟩, ?_⟩
  · rintro ⟨parsed, accepted⟩
    obtain ⟨parsed', accepted', -⟩ := forth accepted
    exact ⟨parsed', accepted'⟩
  · rintro ⟨parsed', accepted'⟩
    obtain ⟨parsed, accepted, -⟩ := back accepted'
    exact ⟨parsed, accepted⟩
  · intro parsed parsed' accepted accepted' folds
    obtain ⟨other, acceptedOther, sameKind, same⟩ := forth accepted
    obtain rfl : parsed' = other := Except.ok.inj (accepted'.symm.trans acceptedOther)
    have foldsCase : parsed.statement.foldsCase = true := folds.elim id fun h => sameKind.symm.trans h
    rw [same foldsCase]
    exact ⟨BEq.rfl, rfl, rfl⟩

/-- Keywords, some of them as names, between constants whose case is kept. -/
theorem parse_of_caseVariant_selection :
    CaseVariant "select Ttl(Key) from T where k = 'Ab' limit 5"
        "SELECT tTL(kEY) FROM t WHERE K = 'Ab' LIMIT 5" ∧
      ∃ parsed parsed', parse "select Ttl(Key) from T where k = 'Ab' limit 5" = .ok parsed ∧
        parse "SELECT tTL(kEY) FROM t WHERE K = 'Ab' LIMIT 5" = .ok parsed' ∧
          parsed.statement.foldsCase = true ∧ (parsed.statement == parsed'.statement) = true := by
  have variant : CaseVariant "select Ttl(Key) from T where k = 'Ab' limit 5"
      "SELECT tTL(kEY) FROM t WHERE K = 'Ab' LIMIT 5" := ⟨by decide +kernel, by decide +kernel⟩
  have folds : (parse "select Ttl(Key) from T where k = 'Ab' limit 5").toOption.map
      (·.statement.foldsCase) = some true := by decide +kernel
  obtain ⟨accepts, same⟩ := parse_of_caseVariant variant
  cases accepted : parse "select Ttl(Key) from T where k = 'Ab' limit 5" with
  | error rejection =>
    rw [accepted] at folds
    exact absurd folds (by simp [Except.toOption])
  | ok parsed =>
    rw [accepted] at folds
    have foldsCase : parsed.statement.foldsCase = true := Option.some.inj folds
    obtain ⟨parsed', accepted'⟩ := accepts.1 ⟨parsed, accepted⟩
    exact ⟨variant, parsed, parsed', rfl, accepted', foldsCase,
      (same parsed parsed' accepted accepted' (.inl foldsCase)).1⟩

end Cql
