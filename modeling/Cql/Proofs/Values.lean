/-
Names, values and relations are read as the grammar has them.

* `Grammar.recognizes_identifier`, `Grammar.recognizes_tableName` — names;
* `Grammar.recognizes_value` — values, with their bound on nesting;
* `Grammar.recognizes_relations` — WHERE clauses.
-/
import Cql.Proofs.Language
import Cql.Proofs.Recognition

namespace Cql.Grammar

open Rule Phrase

/-! ### Names -/

theorem isPlain_of_identifier {lexeme : Lexeme} {name : Identifier}
    (h : Identifier.ofLexeme? lexeme = some name) : lexeme.kind.IsPlain := by
  unfold Identifier.ofLexeme? at h
  unfold TokenKind.IsPlain
  split at h <;> simp_all

theorem recognizes_identifier (context : String) :
    (identifier context).Recognizes Language.identifier anything :=
  .accept fun _ _ => isPlain_of_identifier

theorem isNameLike_of_identifier {lexeme : Lexeme} {name : Identifier}
    (h : Identifier.ofLexeme? lexeme = some name) : lexeme.kind.isNameLike = true := by
  unfold Identifier.ofLexeme? at h
  split at h <;> simp_all [TokenKind.isNameLike, TokenKind.isUnreservedKeyword]

theorem opens_identifier : Language.identifier.Opens anything (TokenKind.isNameLike · = true) :=
  .token fun _ _ => isNameLike_of_identifier

theorem recognizes_tableName :
    tableName.Recognizes Language.tableName (· ≠ .punctuation .dot) := by
  have choice : ∀ first : Identifier, (eatMark .dot >>= fun eaten =>
      if eaten = true then do return ⟨some first, ← identifier "for table name"⟩
      else pure ⟨none, first⟩ : Rule TableName).Recognizes
      ((do mark .dot; return ⟨some first, ← Language.identifier⟩) <|> pure ⟨none, first⟩)
      (· ≠ .punctuation .dot) := by
    intro first
    refine .ifEat (by decide) ?_ (.pure _) ?_
    · exact ((recognizes_identifier _).andThen fun _ => .pure _).narrow fun _ _ => trivial
    · rintro items a kind ⟨rfl, -⟩ follows
      exact follows
  unfold Language.tableName
  rw [← bind_orElse]
  exact (recognizes_identifier _).andThen choice

/-! ### Values -/

theorem recognizes_markerOr {constant? : TokenKind → Option Term} (what context : String)
    (plain : ∀ kind term, constant? kind = some term → kind.IsPlain) :
    (markerOr constant? what context).Recognizes
      ((token fun item => constant? item.kind) <|> Language.marker) anything where
  sound := by
    intro state term after h
    obtain ⟨ordinal, mid, h₁, h₂⟩ := reads_bind.1 h
    rcases reads_marker.1 h₁ with ⟨isMarker, rfl, rfl⟩ | ⟨-, rfl, rfl⟩
    · -- The marker gets the number of markers passed before it, as the stretch has it.
      obtain ⟨rfl, rfl⟩ := reads_pure.1 h₂
      refine ⟨_, State.Passes.one_iff.2 ⟨by simp [isMarker], rfl, ?_⟩, .inr ⟨_, rfl, if_pos isMarker⟩⟩
      simp [State.next, isMarker, ordinalAfter, BindMarkers.next]
    · obtain ⟨items, passes, item, rfl, spelled⟩ :=
        (Recognizes.accept fun _ _ => plain _ _).sound _ _ _ h₂
      exact ⟨_, passes, .inl ⟨item, rfl, spelled⟩⟩
  complete := by
    rintro state items term after passes (⟨item, rfl, spelled⟩ | ⟨item, rfl, spelled⟩) -
    · obtain ⟨-, rfl, rfl⟩ := State.Passes.one_iff.1 passes
      have isPlain : state.kind.IsPlain := plain _ _ spelled
      refine reads_bind.2 ⟨none, state, reads_marker.2 (.inr ⟨isPlain.1, rfl, rfl⟩), ?_⟩
      exact reads_accept.2 ⟨spelled, State.next_of_ne isPlain.1⟩
    · obtain ⟨-, rfl, rfl⟩ := State.Passes.one_iff.1 passes
      by_cases isMarker : state.kind = .punctuation .questionMark
      · obtain rfl : Term.marker state.markers.count = term := by
          simpa [Numbered.kind, show (state.lexeme 0).kind = _ from isMarker] using spelled
        refine reads_bind.2 ⟨_, _, reads_marker.2 (.inl ⟨isMarker, rfl, rfl⟩), ?_⟩
        refine reads_pure.2 ⟨rfl, ?_⟩
        simp [State.next, isMarker, ordinalAfter, BindMarkers.next]
      · exact absurd spelled (by simp [Numbered.kind, show ¬ (state.lexeme 0).kind = _ from isMarker])

theorem isPlain_of_constant {kind : TokenKind} {term : Term} (h : Term.ofKind? kind = some term) :
    kind.IsPlain := by
  unfold Term.ofKind? at h
  unfold TokenKind.IsPlain
  split at h <;> simp_all

theorem recognizes_scalar (context : String) :
    (scalar context).Recognizes Language.scalar anything :=
  recognizes_markerOr _ _ fun _ _ => isPlain_of_constant

theorem recognizes_integerOrMarker (context : String) :
    (integerOrMarker context).Recognizes Language.integerOrMarker anything := by
  refine (recognizes_markerOr _ _ fun kind term h => ?_).congr (fun _ _ _ => Iff.rfl) ?_
  · unfold TokenKind.IsPlain
    split at h <;> simp_all
  · intro items term
    rw [Language.integerOrMarker, orElse_iff, orElse_iff, map_iff]
    refine or_congr_left ?_
    constructor
    · rintro ⟨digits, ⟨item, rfl, spelled⟩, rfl⟩
      refine ⟨item, rfl, ?_⟩
      dsimp only at spelled ⊢
      split at spelled <;> simp_all
    · rintro ⟨item, rfl, spelled⟩
      dsimp only at spelled
      split at spelled
      · rename_i digits same
        exact ⟨digits, ⟨item, rfl, by simp only [same]⟩, (Option.some.inj spelled).symm⟩
      · exact absurd spelled (by simp)

/-- The kinds of tokens that are scalars. -/
def isScalar (kind : TokenKind) : Bool :=
  (Term.ofKind? kind).isSome || kind = .punctuation .questionMark

/-- The kinds of tokens that a value opens with. -/
def opensValue (kind : TokenKind) : Bool :=
  isScalar kind || kind = .punctuation .leftBracket || kind = .punctuation .leftBrace

theorem opens_scalar : Language.scalar.Opens anything (isScalar · = true) := by
  refine .orElse (.token fun item term spelled => ?_) (.token fun item term spelled => ?_)
  · simp [isScalar, spelled]
  · by_cases same : item.kind = .punctuation .questionMark
    · simp [isScalar, same]
    · simp [same] at spelled

theorem opens_listLiteral {phrase : Phrase Value} :
    (Language.listLiteral phrase).Opens anything (· = .punctuation .leftBracket) :=
  .andThen (.ofKind rfl)

theorem opens_bracedLiteral {phrase : Phrase Value} :
    (Language.bracedLiteral phrase).Opens anything (· = .punctuation .leftBrace) :=
  .orElse (.andThen (.ofKind rfl)) (.orElse (.andThen (.ofKind rfl)) (.andThen (.ofKind rfl)))

theorem opens_valueWithin (levels : Nat) :
    (Language.valueWithin levels).Opens anything (opensValue · = true) := by
  have scalars : (.term <$> Language.scalar : Phrase Value).Opens anything (opensValue · = true) := by
    refine opens_scalar.map.weaken (fun _ => id) fun kind h => ?_
    simp [opensValue, h]
  cases levels with
  | zero => exact scalars
  | succ levels =>
    refine scalars.orElse (opens_listLiteral.weaken (fun _ => id) ?_ |>.orElse
      (opens_bracedLiteral.weaken (fun _ => id) ?_))
    · rintro _ rfl
      decide
    · rintro _ rfl
      decide

theorem opens_value : Language.value.Opens anything (opensValue · = true) :=
  opens_valueWithin maxNesting

theorem recognizes_scalarOr {list braced : Rule Value} {listed inBraces : Phrase Value}
    (context : String) (lists : list.Recognizes listed anything)
    (braces : braced.Recognizes inBraces anything)
    (opensList : listed.Opens anything (· = .punctuation .leftBracket))
    (opensBraces : inBraces.Opens anything (· = .punctuation .leftBrace)) :
    (scalarOr list braced context).Recognizes
      ((.term <$> Language.scalar) <|> listed <|> inBraces) anything where
  sound := by
    intro state value after h
    unfold scalarOr at h
    rw [reads_kind_bind] at h
    split at h
    · obtain ⟨items, passes, spelled⟩ := lists.sound _ _ _ h
      exact ⟨items, passes, .inr (.inl spelled)⟩
    · obtain ⟨items, passes, spelled⟩ := braces.sound _ _ _ h
      exact ⟨items, passes, .inr (.inr spelled)⟩
    · obtain ⟨items, passes, spelled⟩ := ((recognizes_scalar context).map Value.term).sound _ _ _ h
      exact ⟨items, passes, .inl spelled⟩
  complete := by
    rintro state items value after passes (spelled | spelled | spelled) follows
    · unfold scalarOr
      rw [reads_kind_bind]
      have current := opens_scalar.map _ _ after.kind spelled trivial
      rw [← passes.kind_eq] at current
      split
      · rename_i same
        exact absurd current (by rw [same]; decide)
      · rename_i same
        exact absurd current (by rw [same]; decide)
      · exact ((recognizes_scalar context).map Value.term).complete _ _ _ _ passes spelled follows
    · unfold scalarOr
      rw [reads_kind_bind, passes.kind_eq, opensList _ _ _ spelled trivial]
      exact lists.complete _ _ _ _ passes spelled follows
    · unfold scalarOr
      rw [reads_kind_bind, passes.kind_eq, opensBraces _ _ _ spelled trivial]
      exact braces.complete _ _ _ _ passes spelled follows

/-- What is left of a collection after its first item or entry. -/
theorem recognizes_restAndBrace {α : Type} {item : Rule α} {phrase : Phrase α} (context : String)
    (f : List α → Value) (one : item.Recognizes phrase anything) :
    (do
      let rest ← following (.punctuation .comma) item
      symbol .rightBrace context
      return f rest).Recognizes
      (do
        let rest ← many (do mark .comma; phrase)
        mark .rightBrace
        return f rest) anything := by
  refine (Recognizes.following (by decide) (one.narrow fun _ _ => trivial)
    fun kind (closing : kind = .punctuation .rightBrace) => ?_).bind (fun rest => ?_) ?_
  · rw [closing]
    decide
  · exact (Recognizes.symbol _ rfl).andThen fun _ => .pure _
  · exact fun rest => .andThen (.ofKind rfl)

section collections

variable {rule : String → Rule Value} {phrase : Phrase Value}
  (one : ∀ context, (rule context).Recognizes phrase anything)
include one

theorem recognizes_mapEntry : (mapEntry rule).Recognizes (Language.mapEntry phrase) anything :=
  (one _).andThen fun _ => (Recognizes.symbol _ rfl).andThen fun _ =>
    (one _).andThen fun _ => .pure _

variable (opens : phrase.Opens anything (opensValue · = true))
include opens

theorem recognizes_listLiteral :
    (listLiteral rule).Recognizes (Language.listLiteral phrase) anything := by
  have shape : Language.listLiteral phrase = (do
      mark .leftBracket
      (do mark .rightBracket; return .list []) <|>
        (do
          let items ← commaSeparated phrase
          mark .rightBracket
          return .list items)) := by
    unfold Language.listLiteral
    simp only [orElse_bind, pure_bind]
    rw [orElse_comm]
  rw [shape]
  refine (Recognizes.symbol _ rfl).andThen fun _ => ?_
  refine .ifEat (by decide) (.pure _) ?_ ?_
  · refine (Recognizes.commaSeparated_of_anything (one _)).bind (fun items => ?_) ?_
    · exact (Recognizes.symbol _ rfl).andThen fun _ => .pure _
    · exact fun items => .andThen (.ofKind (by decide))
  · exact (Opens.andThen opens.separated).avoids rfl

/-- A colon after the first value makes the braces a map. -/
theorem recognizes_bracedLiteral :
    (bracedLiteral rule).Recognizes (Language.bracedLiteral phrase) anything := by
  -- The three literals of the grammar, with what they have in common in front taken out.
  have shape : Language.bracedLiteral phrase = (do
      mark .leftBrace
      (do mark .rightBrace; return .emptyBraces) <|>
        (do
          let first ← phrase
          (do
            mark .colon
            let firstValue ← phrase
            let rest ← many (do mark .comma; Language.mapEntry phrase)
            mark .rightBrace
            return .map ((first, firstValue) :: rest)) <|>
          (do
            let rest ← many (do mark .comma; phrase)
            mark .rightBrace
            return .set (first :: rest)))) := by
    simp only [Language.bracedLiteral, Language.mapEntry, Phrase.commaSeparated, Phrase.separated,
      bind_orElse, bind_assoc, pure_bind]
    rw [orElse_comm (mark .leftBrace >>= fun _ => phrase >>= _)]
  rw [shape]
  refine (Recognizes.symbol _ rfl).andThen fun _ => ?_
  refine .ifEat (by decide) (.pure _) ?_ ?_
  · refine (one _).andThen fun first => .ifEat (by decide) ?_ ?_ ?_
    · refine (one _).andThen fun firstValue => ?_
      exact recognizes_restAndBrace _ _ (recognizes_mapEntry one)
    · exact recognizes_restAndBrace _ _ (one _)
    · refine .bind (.many (.andThen (.ofKind ?_)) ?_) fun rest => .andThen (.ofKind rfl)
      · decide
      · rintro _ rfl
        decide
  · exact (Opens.andThen opens).avoids rfl

/-- Map literals are read as the grammar has them. -/
theorem recognizes_mapLiteral :
    (mapLiteral rule).Recognizes (Language.mapLiteral phrase) anything := by
  have entry := recognizes_mapEntry one
  refine (Recognizes.symbol _ rfl).andThen fun _ => .ifEat (by decide) (.pure _) ?_ ?_
  · refine (Recognizes.commaSeparated_of_anything entry).bind (fun entries => ?_) fun _ =>
      .andThen (.ofKind (by decide))
    exact (Recognizes.symbol _ rfl).andThen fun _ => .pure _
  · exact (Opens.andThen (Opens.separated opens.andThen)).avoids rfl

end collections

theorem recognizes_valueWithin (levels : Nat) (context : String) :
    (valueWithin levels context).Recognizes (Language.valueWithin levels) anything := by
  induction levels generalizing context with
  | zero =>
    -- Where no more collections may be opened, the phrase has none and the rule reports one.
    have nothing : (tooDeep : Rule Value).Recognizes (fun _ _ => False) anything := by
      constructor
      · intro state value after h
        unfold tooDeep at h
        rw [reads_here_bind] at h
        exact absurd h not_reads_fail
      · exact fun _ _ _ _ _ spelled => spelled.elim
    have scalars := recognizes_scalarOr context nothing nothing (fun _ _ _ h => h.elim)
      fun _ _ _ h => h.elim
    refine scalars.congr (fun _ _ _ => Iff.rfl) fun items value => ⟨.inl, ?_⟩
    rintro (spelled | impossible | impossible)
    · exact spelled
    · exact impossible.elim
    · exact impossible.elim
  | succ levels ih =>
    have opens := opens_valueWithin levels
    exact recognizes_scalarOr context (recognizes_listLiteral ih opens)
      (recognizes_bracedLiteral ih opens) opens_listLiteral opens_bracedLiteral

/-- Values are read as the grammar has them. -/
theorem recognizes_value (context : String) :
    (value context).Recognizes Language.value anything :=
  recognizes_valueWithin maxNesting context

/-! ### Relations -/

theorem recognizes_comparison : comparison.Recognizes Language.comparison anything := by
  refine .accept fun lexeme sign h => ?_
  unfold TokenKind.IsPlain
  split at h
  · rename_i mark same
    rw [same, Comparison.ofMark?_eq_some.1 h]
    cases sign <;> decide
  · exact absurd h (by simp)

theorem opens_comparison : Language.comparison.Opens anything (TokenKind.isComparison · = true) := by
  refine .token fun item sign h => ?_
  split at h
  · rename_i mark same
    rw [same, Comparison.ofMark?_eq_some.1 h]
    cases sign <;> decide
  · exact absurd h (by simp)

theorem recognizes_values (context : String) :
    (values context).Recognizes (commaSeparated Language.value) (· ≠ .punctuation .comma) :=
  .commaSeparated_of_anything (recognizes_value _)

theorem recognizes_identifiers (context : String) :
    (identifiers context).Recognizes (commaSeparated Language.identifier)
      (· ≠ .punctuation .comma) :=
  .commaSeparated_of_anything (recognizes_identifier _)

/-- A list in parentheses, whatever the rule goes on with. -/
theorem recognizes_inParens {α β : Type} {list : Rule (List α)} {next : List α → Rule β}
    {phrase : Phrase α} {rest : List α → Phrase β} {follow : TokenKind → Prop}
    (before after : String)
    (items : list.Recognizes (commaSeparated phrase) (· ≠ .punctuation .comma))
    (goesOn : ∀ as, (next as).Recognizes (rest as) follow) :
    (do
      symbol .leftParen before
      let as ← list
      symbol .rightParen after
      next as).Recognizes (parenthesized phrase >>= rest) follow := by
  simp only [parenthesized, bind_assoc, pure_bind]
  refine (Recognizes.symbol _ rfl).andThen fun _ => items.bind (fun as => ?_) fun as => ?_
  · exact (Recognizes.symbol _ rfl).andThen fun _ => goesOn as
  · exact .andThen (.ofKind (by decide))

theorem recognizes_tokenRelation (first : Nat) :
    (tokenRelation first).Recognizes (do
      let columns ← parenthesized Language.identifier
      let sign ← Language.comparison
      let operand ← Language.tokenOperand columns.length
      return some (.token columns sign operand)) anything := by
  refine recognizes_inParens _ _ (recognizes_identifiers _) fun columns => ?_
  refine recognizes_comparison.andThen fun sign => ?_
  have shape : (do
      let operand ← Language.tokenOperand columns.length
      return some (.token columns sign operand) : Phrase (Option Relation)) =
    ((do
      word .TOKEN
      let arguments ← parenthesized Language.value
      require (arguments.length = columns.length)
      return some (.token columns sign (.call arguments))) <|>
    (do return some (.token columns sign (.value (← Language.value))))) := by
    simp only [Language.tokenOperand, orElse_bind, bind_assoc, pure_bind, bind_map_left]
  rw [shape]
  refine .ifWord ?_ ((recognizes_value _).andThen fun _ => .pure _) ?_
  · refine recognizes_inParens _ _ (recognizes_values _) fun arguments => ?_
    exact .ifHolds (.pure _) fun _ _ _ => not_reads_report_bind
  · exact (Opens.andThen opens_value).avoids rfl

theorem recognizes_relation :
    relation.Recognizes (some <$> Language.relation) anything := by
  -- TOKEN decides first; a column comes before IN or a comparison.
  have shape : some <$> Language.relation =
    ((do
      word .TOKEN
      let columns ← parenthesized Language.identifier
      let sign ← Language.comparison
      let operand ← Language.tokenOperand columns.length
      return some (.token columns sign operand)) <|>
    (do
      let column ← Language.identifier
      (do
        word .IN
        let members ← parenthesized Language.value
        return some (.isIn column members)) <|>
      (do
        let sign ← Language.comparison
        return some (.compare column sign (← Language.value))))) := by
    simp only [Language.relation, map_orElse, bind_orElse, map_bind, map_pure]
    rw [← orElse_assoc, orElse_comm]
  rw [shape]
  refine .position fun first => .ifWord (recognizes_tokenRelation first) ?_ ?_
  · refine (recognizes_identifier _).andThen fun column => .ifWord ?_ ?_ ?_
    · exact recognizes_inParens _ _ (recognizes_values _) fun members => .pure _
    · exact recognizes_comparison.andThen fun sign => (recognizes_value _).andThen fun _ => .pure _
    · exact (Opens.andThen opens_comparison).avoids rfl
  · exact (Opens.andThen opens_identifier).avoids rfl

/-- WHERE clauses are read as the grammar has them, unless AND follows. -/
theorem recognizes_relations :
    relations.Recognizes Language.relations (· ≠ .keyword .AND) :=
  .gather (by decide) (recognizes_relation.narrow fun _ _ => trivial) fun _ other => other

end Cql.Grammar
