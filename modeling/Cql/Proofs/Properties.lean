/-
Types and properties are read as the grammar has them.

The rule for a property map reads any map literal and then looks whether it is made of constants, while
the grammar has entries of constants only.  The two are the same because reading a value as a constant
goes through lists of them (`Phrase.separated_filterMap`).

* `Phrase.filterMap` — what a phrase stands for, as far as it can be read in another way;
* `Grammar.recognizes_dataType` — types, with their bound on nesting;
* `Grammar.recognizes_propertyMap`, `Grammar.recognizes_properties` — properties.
-/
import Cql.Grammar.DataType
import Cql.Grammar.Property
import Cql.Proofs.Administration
import Cql.Proofs.Values

namespace Cql

namespace Phrase

variable {α β : Type}

/-- The phrase that no stretch stands for. -/
def nothing : Phrase α := fun _ _ => False

theorem nothing_bind (next : α → Phrase β) : (nothing >>= next) = nothing := by
  ext items b
  constructor
  · rintro ⟨_, _, _, -, impossible, -⟩
    exact impossible
  · exact fun impossible => impossible.elim

theorem bind_nothing (phrase : Phrase α) : (phrase >>= fun _ => (nothing : Phrase β)) = nothing := by
  ext items b
  constructor
  · rintro ⟨_, _, _, -, -, impossible⟩
    exact impossible
  · exact fun impossible => impossible.elim

theorem nothing_orElse (phrase : Phrase α) : (nothing <|> phrase) = phrase := by
  ext items a
  exact or_iff_right id

/-- What the phrase stands for, as far as `read` can read it. -/
def filterMap (read : α → Option β) (phrase : Phrase α) : Phrase β := fun items b =>
  ∃ a, phrase items a ∧ read a = some b

theorem bind_filterMap {γ : Type} (read : α → Option β) (phrase : Phrase γ) (next : γ → Phrase α) :
    filterMap read (phrase >>= next) = phrase >>= fun c => filterMap read (next c) := by
  ext items b
  constructor
  · rintro ⟨a, ⟨front, c, rest, rfl, first, second⟩, seen⟩
    exact ⟨front, c, rest, rfl, first, a, second, seen⟩
  · rintro ⟨front, c, rest, rfl, first, a, second, seen⟩
    exact ⟨a, ⟨front, c, rest, rfl, first, second⟩, seen⟩

/-- A list is read item by item. -/
theorem mapM_cons_eq_some {read : α → Option β} {a : α} {as : List α} {bs : List β} :
    (a :: as).mapM read = some bs ↔
      ∃ b bs', read a = some b ∧ as.mapM read = some bs' ∧ bs = b :: bs' := by
  rw [List.mapM_cons]
  constructor
  · intro seen
    obtain ⟨b, one, seen⟩ := Option.bind_eq_some_iff.1 seen
    obtain ⟨bs', more, seen⟩ := Option.bind_eq_some_iff.1 seen
    exact ⟨b, bs', one, more, (Option.some.inj seen).symm⟩
  · rintro ⟨b, bs', one, more, rfl⟩
    rw [one, more]
    rfl

theorem many_filterMap (read : α → Option β) (phrase : Phrase α) :
    many (filterMap read phrase) = filterMap (List.mapM read) (many phrase) := by
  ext items bs
  constructor
  · intro h
    induction h with
    | none => exact ⟨[], .none, rfl⟩
    | more first others ih =>
      obtain ⟨a, spelled, seen⟩ := first
      obtain ⟨as, spelled', seen'⟩ := ih
      exact ⟨a :: as, .more spelled spelled', mapM_cons_eq_some.2 ⟨_, _, seen, seen', rfl⟩⟩
  · rintro ⟨as, h, seen⟩
    induction h generalizing bs with
    | none =>
      obtain rfl : [] = bs := by simpa using seen
      exact .none
    | @more front rest a as first others ih =>
      obtain ⟨b, bs', one, more, rfl⟩ := mapM_cons_eq_some.1 seen
      exact .more ⟨a, first, one⟩ (ih bs' more)

theorem separated_filterMap (separator : Phrase Unit) (read : α → Option β) (phrase : Phrase α) :
    separated separator (filterMap read phrase) =
      filterMap (List.mapM read) (separated separator phrase) := by
  have entry : (do separator; filterMap read phrase) = filterMap read (do separator; phrase) :=
    (bind_filterMap read separator fun _ => phrase).symm
  unfold separated
  rw [entry, many_filterMap]
  ext items bs
  constructor
  · rintro ⟨front, b, _, rfl, ⟨a, first, one⟩, middle, bs', _, rfl, ⟨as, others, more⟩, rfl, rfl⟩
    refine ⟨a :: as, ⟨front, a, _, rfl, first, middle, as, [], rfl, others, rfl, rfl⟩, ?_⟩
    exact mapM_cons_eq_some.2 ⟨b, bs', one, more, rfl⟩
  · rintro ⟨_, ⟨front, a, _, rfl, first, middle, as, _, rfl, others, rfl, rfl⟩, seen⟩
    obtain ⟨b, bs', one, more, rfl⟩ := mapM_cons_eq_some.1 seen
    exact ⟨front, b, _, rfl, ⟨a, first, one⟩, middle, bs', [], rfl, ⟨as, others, more⟩, rfl, rfl⟩

end Phrase

namespace Grammar

open Rule Phrase

/-! ### Types -/

/-- A token that is accepted only if it is a keyword, a name or a literal. -/
theorem recognizes_accept {α : Type} {read : Lexeme → Option α} {what context : String}
    (marker : ∀ text, read ⟨.punctuation .questionMark, text⟩ = none)
    (ending : ∀ text, read ⟨.endOfInput, text⟩ = none) :
    (accept read what context).Recognizes (token fun item => read item.lexeme) anything := by
  refine .accept fun lexeme a seen => ⟨?_, ?_⟩
  · intro same
    obtain ⟨kind, text⟩ := lexeme
    subst same
    rw [marker] at seen
    exact absurd seen (by simp)
  · intro same
    obtain ⟨kind, text⟩ := lexeme
    subst same
    rw [ending] at seen
    exact absurd seen (by simp)

/-- The simple type that a token names. -/
def simpleType? (lexeme : Lexeme) : Option DataType :=
  match lexeme.kind with
  | .keyword name => (NativeType.ofKeyword? name).map .native
  | .string name => some (.custom name)
  | _ => none

/-- The rule for types, with its keywords tried one after another. -/
def typeChoice (element : Rule DataType) : Rule DataType := do
  if ← eat .MAP then
    symbol .less "after MAP"
    let key ← element
    symbol .comma "between map key and value types"
    let value ← element
    symbol .greater "to close map type"
    return .map key value
  else if ← eat .LIST then
    symbol .less "after LIST"
    let inner ← element
    symbol .greater "to close list type"
    return .list inner
  else if ← eat .SET then
    symbol .less "after SET"
    let inner ← element
    symbol .greater "to close set type"
    return .set inner
  else
    accept simpleType? "column type" ""

theorem reads_eatKind_bind {α : Type} {wanted : TokenKind} {next : Bool → Rule α}
    {state after : State} {a : α} : (eatKind wanted >>= next).Reads state a after ↔
      if state.kind = wanted then (next true).Reads state.advance a after
      else (next false).Reads state a after := by
  rw [reads_bind]
  by_cases same : state.kind = wanted
  · simp [reads_eatKind, same]
  · simp [reads_eatKind, same]

theorem reads_typeOf {element : Rule DataType} {state after : State} {type : DataType} :
    (typeOf element).Reads state type after ↔ (typeChoice element).Reads state type after := by
  unfold typeOf typeChoice eat
  rw [reads_kind_bind]
  split
  · rename_i current
    simp [reads_eatKind_bind, current]
  · rename_i current
    simp [reads_eatKind_bind, current]
  · rename_i current
    simp [reads_eatKind_bind, current]
  · rename_i name current
    have named : simpleType? (state.lexeme 0) = some (.custom name) := by
      unfold simpleType?
      rw [show (state.lexeme 0).kind = .string name from current]
    simp [reads_eatKind_bind, current, reads_accept, named, reads_pure, eq_comm]
  · rename_i noMap noList noSet noString
    -- What is left is a native type, if a type at all.
    have native : simpleType? (state.lexeme 0) = (nativeType? (state.lexeme 0)).map .native := by
      unfold simpleType? nativeType?
      split
      · rename_i name current
        simp only [current]
      · rename_i name current
        exact absurd current (noString name)
      · rename_i noKeyword _
        split
        · rename_i name current
          exact absurd current (noKeyword name)
        · rfl
    simp only [reads_eatKind_bind, if_neg noMap, if_neg noList, if_neg noSet, Bool.false_eq_true,
      if_false, reads_map, reads_accept, native, Option.map_eq_some_iff]
    constructor
    · rintro ⟨type, ⟨known, same⟩, rfl⟩
      exact ⟨⟨type, known, rfl⟩, same⟩
    · rintro ⟨⟨type, known, rfl⟩, same⟩
      exact ⟨type, ⟨known, same⟩, rfl⟩

theorem opens_simpleType {keyword : Keyword} (other : NativeType.ofKeyword? keyword = none) :
    Language.simpleType.Opens anything (· ≠ .keyword keyword) := by
  refine .token fun item type seen same => ?_
  simp [same, other] at seen

theorem recognizes_typeOf {element : Rule DataType} {phrase : Phrase DataType}
    (one : element.Recognizes phrase anything) :
    (typeOf element).Recognizes (Language.typeOf phrase) anything := by
  have inAngles : ∀ (f : DataType → DataType) (before after : String), (do
      symbol .less before
      let inner ← element
      symbol .greater after
      return f inner : Rule DataType).Recognizes
      (do return f (← Language.inAngles phrase)) anything := by
    intro f before after
    simp only [Language.inAngles, bind_assoc, pure_bind]
    exact (Recognizes.symbol _ rfl).andThen fun _ => one.andThen fun _ =>
      (Recognizes.symbol _ rfl).andThen fun _ => .pure _
  have simple : (accept simpleType? "column type" "").Recognizes Language.simpleType anything :=
    recognizes_accept (fun _ => rfl) fun _ => rfl
  suffices choice : (typeChoice element).Recognizes (Language.typeOf phrase) anything from
    choice.congr (fun _ _ _ => reads_typeOf) fun _ _ => Iff.rfl
  refine .ifWord ?_ (.ifWord (inAngles _ _ _)
    (.ifWord (inAngles _ _ _) simple ?_) ?_) ?_
  · exact (Recognizes.symbol _ rfl).andThen fun _ => one.andThen fun _ =>
      (Recognizes.symbol _ rfl).andThen fun _ => one.andThen fun _ =>
        (Recognizes.symbol _ rfl).andThen fun _ => .pure _
  · exact opens_simpleType rfl
  · exact .orElse (.andThen (.ofKind (by decide))) (opens_simpleType rfl)
  · exact .orElse (.andThen (.ofKind (by decide)))
      (.orElse (.andThen (.ofKind (by decide))) (opens_simpleType rfl))

theorem recognizes_typeWithin (levels : Nat) :
    (typeWithin levels).Recognizes (Language.typeWithin levels) anything := by
  induction levels with
  | zero =>
    -- Where no more collection types may be opened, the phrase has none and the rule reports one.
    have tooDeep : (tooDeep : Rule DataType).Recognizes nothing anything := by
      constructor
      · intro state type after reads
        unfold Rule.tooDeep at reads
        rw [reads_here_bind] at reads
        exact absurd reads not_reads_fail
      · exact fun _ _ _ _ _ spelled => spelled.elim
    have simple : Language.typeOf nothing = Language.simpleType := by
      simp only [Language.typeOf, Language.mapType, Language.inAngles, nothing_bind, bind_nothing,
        nothing_orElse]
    have recognizes := recognizes_typeOf tooDeep
    rwa [simple] at recognizes
  | succ levels ih => exact recognizes_typeOf ih

/-- Types are read as the grammar has them. -/
theorem recognizes_dataType : dataType.Recognizes Language.dataType anything :=
  recognizes_typeWithin maxNesting

/-! ### Maps of constants -/

/-- The texts of an entry, if key and value are constants. -/
def entryTexts? (entry : Value × Value) : Option (String × String) := do
  return (← entry.1.constantText?, ← entry.2.constantText?)

/-- No entry is to blame if and only if all are made of constants. -/
theorem propertyEntries_eq_iff {entries : List (Value × Value)} {texts : List (String × String)} :
    propertyEntries entries = (texts, none) ↔ entries.mapM entryTexts? = some texts := by
  induction entries generalizing texts with
  | nil => simp [propertyEntries, eq_comm]
  | cons entry rest ih =>
    obtain ⟨key, value⟩ := entry
    rw [mapM_cons_eq_some]
    cases isKey : key.constantText? with
    | none => simp [propertyEntries, entryTexts?, isKey]
    | some keyText =>
      cases isValue : value.constantText? with
      | none => simp [propertyEntries, entryTexts?, isKey, isValue]
      | some valueText =>
        have one : entryTexts? (key, value) = some (keyText, valueText) := by
          simp [entryTexts?, isKey, isValue]
        simp only [propertyEntries, isKey, isValue, one, Prod.mk.injEq]
        constructor
        · rintro ⟨rfl, silent⟩
          exact ⟨_, _, rfl, ih.1 (Prod.ext rfl silent), rfl⟩
        · rintro ⟨_, texts', same, more, rfl⟩
          obtain rfl := Option.some.inj same
          rw [ih.2 more]
          exact ⟨rfl, rfl⟩

/-- Values that are terms are scalars. -/
theorem term_of_valueWithin {levels : Nat} {items : List Numbered} {term : Term} :
    Language.valueWithin levels items (.term term) ↔ Language.scalar items term := by
  have scalar : (.term <$> Language.scalar : Phrase Value) items (.term term) ↔
      Language.scalar items term := by
    rw [map_iff]
    constructor
    · rintro ⟨term', spelled, same⟩
      rwa [Value.term.inj same]
    · exact fun spelled => ⟨term, spelled, rfl⟩
  cases levels with
  | zero => exact scalar
  | succ levels =>
    have list : (Language.listLiteral (Language.valueWithin levels)).Gives (·.term? = none) :=
      .bind fun _ => .bind fun _ => .bind fun _ => .pure rfl
    have braced : (Language.bracedLiteral (Language.valueWithin levels)).Gives (·.term? = none) :=
      .orElse (.bind fun _ => .bind fun _ => .pure rfl)
        (.orElse (.bind fun _ => .bind fun _ => .bind fun _ => .pure rfl)
          (.bind fun _ => .bind fun _ => .bind fun _ => .pure rfl))
    constructor
    · rintro (spelled | spelled | spelled)
      · exact scalar.1 spelled
      · exact absurd (list _ _ spelled) (by simp [Value.term?])
      · exact absurd (braced _ _ spelled) (by simp [Value.term?])
    · exact fun spelled => .inl (scalar.2 spelled)

/-- A constant of a property is a value that is a constant. -/
theorem constantText_eq :
    Language.constantText = filterMap Value.constantText? Language.value := by
  ext items text
  constructor
  · rintro ⟨item, rfl, seen⟩
    obtain ⟨term, known, raw⟩ := Option.bind_eq_some_iff.1 seen
    exact ⟨.term term, term_of_valueWithin.2 (.inl ⟨item, rfl, known⟩), raw⟩
  · rintro ⟨value, spelled, seen⟩
    obtain ⟨term, isTerm, raw⟩ := Option.bind_eq_some_iff.1 seen
    obtain rfl : value = .term term := by
      cases value with
      | term => exact congrArg Value.term (Option.some.inj isTerm)
      | list | set | map | emptyBraces => exact absurd isTerm (by simp [Value.term?])
    rcases term_of_valueWithin.1 spelled with ⟨item, rfl, known⟩ | ⟨item, rfl, known⟩
    · exact ⟨item, rfl, by simp [known, raw]⟩
    · -- A bind marker has no text.
      dsimp only at known
      by_cases same : item.kind = .punctuation .questionMark
      · rw [if_pos same] at known
        obtain rfl := Option.some.inj known
        exact absurd raw (by simp [Term.rawText?])
      · simp [same] at known

theorem propertyEntry_eq :
    Language.propertyEntry = filterMap entryTexts? (Language.mapEntry Language.value) := by
  unfold Language.propertyEntry Language.mapEntry
  rw [constantText_eq]
  ext items entry
  constructor
  · rintro ⟨front, keyText, _, rfl, ⟨key, first, isKey⟩, middle, u, _, rfl, colon, rest, valueText, _,
      rfl, ⟨value, second, isValue⟩, rfl, rfl⟩
    refine ⟨(key, value), ⟨front, key, _, rfl, first, middle, u, _, rfl, colon, rest, value, [], rfl,
      second, rfl, rfl⟩, ?_⟩
    simp [entryTexts?, isKey, isValue]
  · rintro ⟨_, ⟨front, key, _, rfl, first, middle, u, _, rfl, colon, rest, value, _, rfl, second, rfl,
      rfl⟩, seen⟩
    obtain ⟨keyText, isKey, seen⟩ := Option.bind_eq_some_iff.1 seen
    obtain ⟨valueText, isValue, seen⟩ := Option.bind_eq_some_iff.1 seen
    obtain rfl := Option.some.inj seen
    exact ⟨front, keyText, _, rfl, ⟨key, first, isKey⟩, middle, u, _, rfl, colon, rest, valueText, [],
      rfl, ⟨value, second, isValue⟩, rfl, rfl⟩

/-- A property map is a map literal that is made of constants. -/
theorem propertyMap_iff {items : List Numbered} {value : PropertyValue} :
    Language.propertyMap items value ↔ ∃ entries texts,
      Language.mapLiteral Language.value items entries ∧ entries.mapM entryTexts? = some texts ∧
        value = .map (.ofList texts) := by
  unfold Language.propertyMap Phrase.commaSeparated
  -- Reading constants one by one is reading values and then looking whether all are constants.
  rw [propertyEntry_eq, separated_filterMap]
  constructor
  · rintro ⟨front, u, _, rfl, opening, middle, texts, _, rfl, spelled, last, u', _, rfl, closing, rfl,
      rfl⟩
    rcases spelled with ⟨entries, spelled, read⟩ | ⟨rfl, rfl⟩
    · refine ⟨entries, texts, ⟨front, u, _, rfl, opening, .inr ?_⟩, read, rfl⟩
      exact ⟨middle, entries, _, rfl, spelled, last, u', [], rfl, closing, rfl, rfl⟩
    · refine ⟨[], [], ⟨front, u, _, rfl, opening, .inl ?_⟩, rfl, rfl⟩
      exact ⟨last, u', [], rfl, closing, rfl, rfl⟩
  · rintro ⟨entries, texts, ⟨front, u, _, rfl, opening, spelled⟩, read, rfl⟩
    rcases spelled with ⟨last, u', _, rfl, closing, rfl, rfl⟩ |
      ⟨middle, _, _, rfl, spelled, last, u', _, rfl, closing, rfl, rfl⟩
    · obtain rfl : [] = texts := by simpa using read
      exact ⟨front, u, _, rfl, opening, [], [], _, rfl, .inr ⟨rfl, rfl⟩, last, u', [], rfl, closing, rfl,
        rfl⟩
    · exact ⟨front, u, _, rfl, opening, middle, texts, _, rfl, .inl ⟨entries, spelled, read⟩, last, u',
        [], rfl, closing, rfl, rfl⟩

theorem reads_propertyMap {state after : State} {value : PropertyValue} :
    propertyMap.Reads state value after ↔ ∃ entries texts,
      (mapLiteral Grammar.value).Reads state entries after ∧ entries.mapM entryTexts? = some texts ∧
        value = .map (.ofList texts) := by
  unfold propertyMap
  rw [reads_position_bind, reads_bind]
  constructor
  · rintro ⟨entries, mid, first, second⟩
    cases split : propertyEntries entries with
    | mk texts problem =>
      cases problem with
      | some problem =>
        simp only [split, reads_since_bind] at second
        exact absurd second not_reads_report_bind
      | none =>
        simp only [split, reads_pure] at second
        obtain ⟨rfl, rfl⟩ := second
        exact ⟨entries, texts, first, propertyEntries_eq_iff.1 split, rfl⟩
  · rintro ⟨entries, texts, first, read, rfl⟩
    refine ⟨entries, after, first, ?_⟩
    simp only [propertyEntries_eq_iff.2 read, reads_pure, and_self]

theorem recognizes_propertyMap : propertyMap.Recognizes Language.propertyMap anything := by
  have recognizes := recognizes_mapLiteral recognizes_value opens_value
  constructor
  · intro state value after reads
    obtain ⟨entries, texts, literal, read, rfl⟩ := reads_propertyMap.1 reads
    obtain ⟨items, passes, spelled⟩ := recognizes.sound _ _ _ literal
    exact ⟨items, passes, propertyMap_iff.2 ⟨entries, texts, spelled, read, rfl⟩⟩
  · intro state items value after passes spelled follows
    obtain ⟨entries, texts, literal, read, rfl⟩ := propertyMap_iff.1 spelled
    exact reads_propertyMap.2
      ⟨entries, texts, recognizes.complete _ _ _ _ passes literal follows, read, rfl⟩

/-! ### Properties -/

/-- What follows `name '='`. -/
def settingOf (name : Identifier) : Rule (Option (String × PropertyValue)) := do
  match ← kind with
  | .punctuation .leftBrace => return some (name.text, ← propertyMap)
  | .punctuation .questionMark =>
    report (.propertyValue (.term (.marker 0)) name.render) (← here)
    advance
    return none
  | _ =>
    let text ← accept PropertyValue.textOf? "property value" ("for property " ++ name.render)
    return some (name.text, .text text)

theorem property_eq : property = (do
    let name ← identifier "for property name"
    symbol .equal "after property name"
    settingOf name) :=
  rfl

/-- A constant is no unreserved keyword, and it has a text. -/
theorem textOf_iff {lexeme : Lexeme} {text : String} :
    PropertyValue.textOf? lexeme = some text ↔
      (Term.ofKind? lexeme.kind).bind Term.rawText? = some text ∨
        lexeme.kind.isUnreservedKeyword = true ∧ lexeme.text = text := by
  unfold PropertyValue.textOf?
  cases known : Term.ofKind? lexeme.kind with
  | none => simp
  | some term =>
    have reserved : lexeme.kind.isUnreservedKeyword = false := by
      unfold Term.ofKind? at known
      split at known <;> simp_all [TokenKind.isUnreservedKeyword, Keyword.isUnreserved,
        Keyword.isNativeType]
    simp [reserved]

theorem recognizes_textOf (what context : String) :
    (accept PropertyValue.textOf? what context).Recognizes
      (Language.constantText <|> Language.unreservedWord) anything := by
  refine (recognizes_accept (fun _ => rfl) fun _ => rfl).congr (fun _ _ _ => Iff.rfl)
    fun items text => ?_
  constructor
  · rintro (⟨item, rfl, seen⟩ | ⟨item, rfl, seen⟩)
    · exact ⟨item, rfl, textOf_iff.2 (.inl seen)⟩
    · dsimp only at seen
      by_cases unreserved : item.kind.isUnreservedKeyword = true
      · rw [if_pos unreserved] at seen
        exact ⟨item, rfl, textOf_iff.2 (.inr ⟨unreserved, Option.some.inj seen⟩)⟩
      · simp [unreserved] at seen
  · rintro ⟨item, rfl, seen⟩
    rcases textOf_iff.1 seen with seen | ⟨unreserved, rfl⟩
    · exact .inl ⟨item, rfl, seen⟩
    · exact .inr ⟨item, rfl, if_pos unreserved⟩

/-- Only tokens that have a text open a constant or a keyword. -/
theorem opens_textOf {kind : TokenKind} (constant : Term.ofKind? kind = none)
    (word : kind.isUnreservedKeyword = false) :
    (Language.constantText <|> Language.unreservedWord).Opens anything (· ≠ kind) := by
  refine .orElse (.token fun item text seen same => ?_) (.token fun item text seen same => ?_)
  · simp [same, constant] at seen
  · simp [same, word] at seen

theorem recognizes_settingOf (name : Identifier) :
    (settingOf name).Recognizes (do return some (name.text, ← Language.propertyValue))
      anything := by
  have result : ∀ value : PropertyValue, (pure (some (name.text, value)) : Rule _).Recognizes
      (pure (some (name.text, value))) anything := fun _ => .pure _
  have text := (recognizes_textOf "property value" ("for property " ++ name.render)).andThen
    fun text => result (.text text)
  have map := recognizes_propertyMap.andThen result
  -- A text or a map, which is what the rule tells apart.
  have shape : (do return some (name.text, ← Language.propertyValue) :
        Phrase (Option (String × PropertyValue))) =
      ((do return some (name.text, .text (← Language.constantText <|> Language.unreservedWord))) <|>
      (do return some (name.text, ← Language.propertyMap))) := by
    simp only [Language.propertyValue, orElse_bind, orElse_assoc, bind_map_left]
  rw [shape]
  unfold settingOf
  constructor
  · intro state setting after reads
    rw [reads_kind_bind] at reads
    split at reads
    · obtain ⟨items, passes, spelled⟩ := map.sound _ _ _ reads
      exact ⟨items, passes, .inr spelled⟩
    · rw [reads_here_bind] at reads
      exact absurd reads not_reads_report_bind
    · obtain ⟨items, passes, spelled⟩ := text.sound _ _ _ reads
      exact ⟨items, passes, .inl spelled⟩
  · rintro state items setting after passes (spelled | spelled) follows
    · -- No text begins with a brace or a bind marker, so the rule takes its last branch.
      have opens : ∀ {kind : TokenKind}, Term.ofKind? kind = none →
          kind.isUnreservedKeyword = false → state.kind ≠ kind := by
        intro kind constant word
        rw [passes.kind_eq]
        exact Opens.andThen (opens_textOf constant word) _ _ _ spelled follows
      rw [reads_kind_bind]
      split
      · rename_i same
        exact absurd same (opens rfl rfl)
      · rename_i same
        exact absurd same (opens rfl rfl)
      · exact text.complete _ _ _ _ passes spelled follows
    · have opens : Language.propertyMap.Opens anything (· = .punctuation .leftBrace) :=
        .andThen (.ofKind rfl)
      rw [reads_kind_bind, passes.kind_eq, Opens.andThen opens _ _ _ spelled follows]
      exact map.complete _ _ _ _ passes spelled follows

theorem recognizes_property : property.Recognizes (some <$> Language.property) anything := by
  rw [property_eq]
  simp only [Language.property, map_bind, map_pure]
  exact (recognizes_identifier _).andThen fun name =>
    (Recognizes.symbol _ rfl).andThen fun _ => recognizes_settingOf name

/-- Properties are read as the grammar has them, unless AND follows.  Whatever is no setting has been
reported. -/
theorem recognizes_properties :
    properties.Recognizes Language.properties (· ≠ .keyword .AND) := by
  have list : (Rule.separated (.keyword .AND) property).Recognizes
      (Phrase.separated (word .AND) (some <$> Language.property)) (· ≠ .keyword .AND) :=
    .separated (by decide) (recognizes_property.narrow fun _ _ => trivial) fun _ other => other
  have kept : Language.properties =
      (do
        let settings ← Phrase.separated (word .AND) (some <$> Language.property)
        return .ofList (settings.filterMap id)) := by
    rw [separated_map, bind_map_left]
    simp only [List.filterMap_map, Function.id_comp, List.filterMap_some, Language.properties]
  rw [kept]
  refine list.bind (fun settings => .pure _) ?_
  rintro _ items b kind ⟨rfl, -⟩ follows
  exact follows

end Grammar

end Cql
