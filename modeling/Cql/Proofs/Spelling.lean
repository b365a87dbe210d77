/-
Which bind markers a stretch of tokens holds.

Every phrase of the grammar but the USING clause keeps the markers of the stretch that it stands for:
they are the markers of its value, in the same order.

* `marks` — the ordinals of the bind markers of a stretch;
* `Phrase.Shows` — what the markers of a stretch tell of its value;
* `Language.shows_value`, `Language.shows_relations`, `Language.shows_selection` — the phrases.
-/
import Cql.Proofs.Language
import Cql.Proofs.Markers

namespace Cql

/-- The ordinals of the bind markers of a stretch. -/
def marks (items : List Numbered) : List Nat :=
  items.filterMap fun item =>
    if item.kind = .punctuation .questionMark then some item.ordinal else none

@[simp] theorem marks_append (front rest : List Numbered) :
    marks (front ++ rest) = marks front ++ marks rest :=
  List.filterMap_append ..

theorem marks_plain {item : Numbered} (h : item.kind ≠ .punctuation .questionMark) :
    marks [item] = [] := by
  simp [marks, h]

/-- No USING clause begins among the tokens. -/
def WithoutUsing (items : List Numbered) : Prop := ∀ item ∈ items, item.kind ≠ .keyword .USING

theorem WithoutUsing.append {front rest : List Numbered} (h : WithoutUsing front)
    (h' : WithoutUsing rest) : WithoutUsing (front ++ rest) := by
  intro item mem
  rcases List.mem_append.1 mem with mem | mem
  · exact h item mem
  · exact h' item mem

namespace Phrase

variable {α β : Type} {R : α → List Nat → Prop} {T : β → List Nat → Prop}

/-- A stretch of the phrase holds no USING clause, and its markers are related to its value. -/
def Shows (phrase : Phrase α) (R : α → List Nat → Prop) : Prop :=
  ∀ items a, phrase items a → R a (marks items) ∧ WithoutUsing items

/-- A stretch of the phrase holds no markers. -/
abbrev Bare (phrase : Phrase α) : Prop := phrase.Shows fun _ ordinals => ordinals = []

namespace Shows

theorem pure {a : α} (h : R a []) : (pure a : Phrase α).Shows R := by
  rintro items b ⟨rfl, rfl⟩
  exact ⟨h, by simp [WithoutUsing]⟩

theorem bind {phrase : Phrase α} {next : α → Phrase β} (first : phrase.Shows R)
    (second : ∀ a ordinals, R a ordinals → (next a).Shows fun b more => T b (ordinals ++ more)) :
    (phrase >>= next).Shows T := by
  rintro items b ⟨front, a, rest, rfl, spelled, spelled'⟩
  obtain ⟨related, free⟩ := first front a spelled
  obtain ⟨related', free'⟩ := second a _ related rest b spelled'
  rw [marks_append]
  exact ⟨related', free.append free'⟩

/-- A phrase without markers, and another. -/
theorem skip {phrase : Phrase α} {next : α → Phrase β} (first : phrase.Bare)
    (second : ∀ a, (next a).Shows T) : (phrase >>= next).Shows T := by
  refine first.bind fun a ordinals none => ?_
  subst none
  exact second a

theorem weaken {phrase : Phrase α} {R' : α → List Nat → Prop} (h : phrase.Shows R)
    (weaker : ∀ a ordinals, R a ordinals → R' a ordinals) : phrase.Shows R' := by
  intro items a spelled
  obtain ⟨related, free⟩ := h items a spelled
  exact ⟨weaker _ _ related, free⟩

theorem map {phrase : Phrase α} {f : α → β} (h : phrase.Shows fun a => T (f a)) :
    (f <$> phrase).Shows T := by
  intro items b spelled
  obtain ⟨a, spelled', rfl⟩ := map_iff.1 spelled
  exact h items a spelled'

theorem orElse {phrase other : Phrase α} (first : phrase.Shows R) (second : other.Shows R) :
    (phrase <|> other).Shows R := by
  rintro items a (spelled | spelled)
  · exact first items a spelled
  · exact second items a spelled

theorem token {read : Numbered → Option α} (h : ∀ item a, read item = some a →
    item.kind ≠ .punctuation .questionMark ∧ item.kind ≠ .keyword .USING) : (token read).Bare := by
  rintro items a ⟨item, rfl, seen⟩
  obtain ⟨plain, free⟩ := h item a seen
  exact ⟨marks_plain plain, by simpa [WithoutUsing] using free⟩

theorem ofKind {kind : TokenKind} (plain : kind ≠ .punctuation .questionMark)
    (free : kind ≠ .keyword .USING) : (ofKind kind).Bare := by
  refine token fun item u seen => ?_
  by_cases same : item.kind = kind
  · rw [same]
    exact ⟨plain, free⟩
  · simp [same] at seen

/-- A keyword in front shows nothing, unless it is USING. -/
theorem afterWord {keyword : Keyword} {phrase : Phrase α}
    (other : (keyword == .USING) = false) (h : phrase.Shows R) : (do word keyword; phrase).Shows R :=
  skip (ofKind (by simp) (by simpa using other)) fun _ => h

theorem afterMark {punctuation : Punctuation} {phrase : Phrase α}
    (other : (punctuation == .questionMark) = false) (h : phrase.Shows R) :
    (do mark punctuation; phrase).Shows R :=
  skip (ofKind (by simpa using other) (by simp)) fun _ => h

theorem require {condition : Prop} : (require condition).Bare := by
  rintro items u ⟨rfl, -⟩
  exact ⟨rfl, by simp [WithoutUsing]⟩

theorem many {phrase : Phrase α} {f : α → List Nat}
    (h : phrase.Shows fun a ordinals => ordinals = f a) :
    (many phrase).Shows fun as ordinals => ordinals = as.flatMap f := by
  intro items as spelled
  induction spelled with
  | none => exact ⟨rfl, by simp [WithoutUsing]⟩
  | more first others ih =>
    obtain ⟨same, free⟩ := h _ _ first
    obtain ⟨same', free'⟩ := ih
    refine ⟨?_, free.append free'⟩
    rw [marks_append, same, same']
    rfl

theorem separated {phrase : Phrase α} {separator : Phrase Unit} {f : α → List Nat}
    (bare : separator.Bare) (h : phrase.Shows fun a ordinals => ordinals = f a) :
    (separated separator phrase).Shows fun as ordinals => ordinals = as.flatMap f := by
  refine h.bind fun first ordinals same => (many (bare.skip fun _ => h)).bind fun rest more same' => ?_
  refine pure ?_
  simp [same, same']

theorem commaSeparated {phrase : Phrase α} {f : α → List Nat}
    (h : phrase.Shows fun a ordinals => ordinals = f a) :
    (commaSeparated phrase).Shows fun as ordinals => ordinals = as.flatMap f :=
  separated (ofKind (by decide) (by decide)) h

theorem twoOrMore {phrase : Phrase α} {f : α → List Nat}
    (h : phrase.Shows fun a ordinals => ordinals = f a) :
    (twoOrMore phrase).Shows fun as ordinals => ordinals = as.flatMap f := by
  refine h.bind fun first ordinals same => afterMark rfl ?_
  refine (commaSeparated h).bind fun rest more same' => pure ?_
  simp [same, same']

theorem parenthesized {phrase : Phrase α} {f : α → List Nat}
    (h : phrase.Shows fun a ordinals => ordinals = f a) :
    (parenthesized phrase).Shows fun as ordinals => ordinals = as.flatMap f := by
  refine afterMark rfl ((commaSeparated h).bind fun as ordinals same => ?_)
  refine (ofKind (by decide) (by decide)).bind fun _ more none => pure ?_
  simp [same, none]

/-- A list of phrases without markers has none either. -/
theorem bare_of_flatMap {phrase : Phrase (List α)}
    (h : phrase.Shows fun as ordinals => ordinals = as.flatMap fun _ => []) : phrase.Bare := by
  refine h.weaken fun as ordinals same => ?_
  rw [same, List.flatMap_eq_nil_iff]
  exact fun _ _ => rfl

end Shows

end Phrase

namespace Language

open Phrase

/-- Values and lists of them show their markers. -/
abbrev ShowsValue (phrase : Phrase Value) : Prop :=
  phrase.Shows fun value ordinals => ordinals = value.markers

abbrev ShowsValues (phrase : Phrase (List Value)) : Prop :=
  phrase.Shows fun values ordinals => ordinals = values.flatMap Value.markers

/-! ### Names and values -/

theorem bare_word {keyword : Keyword} (other : (keyword == .USING) = false) :
    (word keyword).Bare :=
  .ofKind (by simp) (by simpa using other)

theorem bare_mark {punctuation : Punctuation} (other : (punctuation == .questionMark) = false) :
    (mark punctuation).Bare :=
  .ofKind (by simpa using other) (by simp)

theorem bare_identifier : identifier.Bare := by
  refine .token fun item name seen => ?_
  obtain ⟨⟨kind, text⟩, ordinal⟩ := item
  -- Neither a bind marker nor USING stands for a name.
  constructor
  · rintro same
    obtain rfl : kind = _ := same
    have none : none = some name := seen
    cases none
  · rintro same
    obtain rfl : kind = _ := same
    have none : none = some name := seen
    cases none

theorem bare_tableName : tableName.Bare :=
  .orElse (bare_identifier.skip fun _ => .afterMark rfl
    (bare_identifier.skip fun _ => .pure rfl)) (bare_identifier.skip fun _ => .pure rfl)

theorem shows_marker : marker.Shows fun term ordinals => ordinals = term.markers := by
  rintro items term ⟨item, rfl, seen⟩
  dsimp only at seen
  by_cases same : item.kind = .punctuation .questionMark
  · rw [if_pos same, Option.some.injEq] at seen
    subst seen
    refine ⟨by simp [marks, same, Term.markers, Term.ordinal?], fun item' mem => ?_⟩
    obtain rfl := List.mem_singleton.1 mem
    rw [same]
    simp
  · simp [same] at seen

theorem shows_scalar : scalar.Shows fun term ordinals => ordinals = term.markers := by
  refine .orElse (fun items term spelled => ?_) shows_marker
  -- A constant shows none, and the term it stands for has none.
  have bare : constant.Bare := by
    refine .token fun item term seen => ⟨?_, ?_⟩
    · intro same
      rw [same] at seen
      exact absurd seen (by simp [Term.ofKind?])
    · intro same
      rw [same] at seen
      exact absurd seen (by simp [Term.ofKind?])
  obtain ⟨none, free⟩ := bare items term spelled
  obtain ⟨item, rfl, seen⟩ := spelled
  exact ⟨by rw [none, Term.markers_of_constant seen], free⟩

theorem bare_integer : integer.Bare := by
  refine .token fun item digits seen => ?_
  split at seen
  · rename_i same
    rw [same]
    exact ⟨by simp, by simp⟩
  · exact absurd seen (by simp)

theorem shows_integerOrMarker :
    integerOrMarker.Shows fun term ordinals => ordinals = term.markers :=
  .orElse (.map (bare_integer.weaken fun _ _ none => none)) shows_marker

theorem shows_listLiteral {phrase : Phrase Value} (h : ShowsValue phrase) :
    ShowsValue (listLiteral phrase) := by
  have items : ShowsValues (commaSeparated phrase <|> pure []) :=
    .orElse (.commaSeparated h) (.pure rfl)
  refine .afterMark rfl (items.bind fun values ordinals same => ?_)
  refine .afterMark rfl (.pure ?_)
  rw [same, List.append_nil, Value.markers, Value.itemMarkers_eq]

theorem shows_mapEntry {phrase : Phrase Value} (h : ShowsValue phrase) :
    (mapEntry phrase).Shows fun entry ordinals =>
      ordinals = entry.1.markers ++ entry.2.markers := by
  refine h.bind fun key ordinals same => .afterMark rfl ?_
  refine h.bind fun value more same' => .pure ?_
  rw [same, same', List.append_nil]

theorem shows_bracedLiteral {phrase : Phrase Value} (h : ShowsValue phrase) :
    ShowsValue (bracedLiteral phrase) := by
  refine .orElse ?_ (.orElse ?_ ?_)
  · exact .afterMark rfl (.afterMark rfl (.pure rfl))
  · refine .afterMark rfl ((Shows.commaSeparated h).bind fun values ordinals same => ?_)
    refine .afterMark rfl (.pure ?_)
    rw [same, List.append_nil, Value.markers, Value.itemMarkers_eq]
  · refine .afterMark rfl ?_
    refine (Shows.commaSeparated (shows_mapEntry h)).bind fun entries ordinals same => ?_
    refine .afterMark rfl (.pure ?_)
    rw [same, List.append_nil, Value.markers, Value.entryMarkers_eq]

theorem shows_valueWithin (levels : Nat) : ShowsValue (valueWithin levels) := by
  have scalars : ShowsValue (.term <$> scalar) := .map shows_scalar
  -- What stands inside a collection is one level closer to the scalars.
  induction levels with
  | zero => exact scalars
  | succ levels ih => exact scalars.orElse ((shows_listLiteral ih).orElse (shows_bracedLiteral ih))

theorem shows_value : ShowsValue value := shows_valueWithin maxNesting

/-! ### Relations -/

theorem bare_comparison : comparison.Bare := by
  refine .token fun item sign seen => ?_
  split at seen
  · rename_i mark same
    rw [same, Comparison.ofMark?_eq_some.1 seen]
    cases sign with
    | equal | less | lessEqual | greater | greaterEqual => exact ⟨by simp [Comparison.mark], by simp⟩
  · exact absurd seen (by simp)

theorem shows_tokenOperand (columns : Nat) :
    (tokenOperand columns).Shows fun operand ordinals => ordinals = operand.markers := by
  refine .orElse ?_ (.map shows_value)
  refine .afterWord rfl ?_
  refine (Shows.parenthesized shows_value).bind fun arguments ordinals same => ?_
  refine Shows.require.skip fun _ => .pure ?_
  rw [same, List.append_nil, TokenOperand.markers]

theorem shows_relation : relation.Shows fun relation ordinals => ordinals = relation.markers := by
  refine .orElse ?_ (.orElse ?_ ?_)
  · refine bare_identifier.skip fun column => .afterWord rfl ?_
    refine (Shows.parenthesized shows_value).bind fun members ordinals same => .pure ?_
    rw [same, List.append_nil, Relation.markers]
  · refine bare_identifier.skip fun column => bare_comparison.skip fun sign => ?_
    refine shows_value.bind fun value ordinals same => .pure ?_
    rw [same, List.append_nil, Relation.markers]
  · refine .afterWord rfl ?_
    have columns : (parenthesized identifier).Bare := .bare_of_flatMap (.parenthesized bare_identifier)
    refine columns.skip fun columns => bare_comparison.skip fun sign => ?_
    refine (shows_tokenOperand _).bind fun operand ordinals same => .pure ?_
    rw [same, List.append_nil, Relation.markers]

theorem shows_relations :
    relations.Shows fun relations ordinals => ordinals = relations.flatMap Relation.markers :=
  .separated (bare_word rfl) shows_relation

/-! ### Targets of DELETE and changes of UPDATE -/

theorem shows_deletionTarget :
    deletionTarget.Shows fun target ordinals => ordinals = target.markers := by
  refine .orElse ?_ (bare_identifier.skip fun _ => .pure rfl)
  refine bare_identifier.skip fun column => .afterMark rfl ?_
  refine shows_value.bind fun key ordinals same => .afterMark rfl (.pure ?_)
  rw [same, List.append_nil]
  simp [DeletionTarget.markers]

theorem bare_itself (column : Identifier) : (itself column).Bare :=
  bare_identifier.skip fun _ => .require

theorem bare_sign : sign.Bare := by
  refine .token fun item sign seen => ?_
  split at seen
  · rename_i same
    rw [same]
    exact ⟨by simp, by simp⟩
  · rename_i same
    rw [same]
    exact ⟨by simp, by simp⟩
  · exact absurd seen (by simp)

theorem shows_signedChange :
    signedChange.Shows fun operation ordinals => ordinals = operation.markers := by
  refine bare_sign.skip fun sign => shows_value.bind fun operand ordinals same => ?_
  rintro items operation ⟨rfl, changes⟩
  refine ⟨?_, by simp [WithoutUsing]⟩
  show ordinals ++ [] = operation.markers
  rw [List.append_nil, same, Operation.markers_of_delta (changes_iff.1 changes)]

theorem shows_unsignedChange :
    unsignedChange.Shows fun operation ordinals => ordinals = operation.markers := by
  refine .orElse (bare_integer.skip fun digits => Shows.require.skip fun _ => .pure rfl) (.map ?_)
  refine shows_marker.weaken fun term ordinals same => ?_
  rw [same]
  simp [Operation.markers, Operation.arguments, Value.markers]

theorem shows_change (column : Identifier) :
    (change column).Shows fun operation ordinals => ordinals = operation.markers := by
  refine .orElse ?_ (.orElse ?_ (.orElse ?_ ?_))
  · refine .afterMark rfl (shows_value.bind fun key ordinals same => ?_)
    refine .afterMark rfl (.afterMark rfl ?_)
    refine shows_value.bind fun value more same' => .pure ?_
    rw [same, same', List.append_nil, Operation.markers_element]
  · refine .afterMark rfl (shows_value.bind fun value ordinals same => .pure ?_)
    rw [same]
    simp [Operation.markers, Operation.arguments]
  · refine .afterMark rfl (shows_value.bind fun value ordinals same => ?_)
    refine .afterMark rfl ((bare_itself column).skip fun _ => .pure ?_)
    rw [same]
    simp [Operation.markers, Operation.arguments]
  · exact .afterMark rfl ((bare_itself column).skip fun _ =>
      shows_signedChange.orElse shows_unsignedChange)

theorem shows_assignment :
    assignment.Shows fun assignment ordinals => ordinals = assignment.2.markers := by
  refine bare_identifier.skip fun column => (shows_change column).bind fun operation ordinals same => ?_
  exact .pure (by rw [same, List.append_nil])

/-! ### SELECT -/

theorem bare_optionally {keyword : Keyword} (other : (keyword == .USING) = false) :
    (optionally (word keyword)).Bare :=
  .orElse (bare_word other) (.pure rfl)

theorem bare_functionArgument : functionArgument.Bare :=
  .afterMark rfl (bare_identifier.skip fun _ =>
    .afterMark rfl (.pure rfl))

theorem bare_selector : selector.Bare :=
  .orElse (.afterWord rfl (bare_functionArgument.skip fun _ => .pure rfl))
    (.orElse (.afterWord rfl (bare_functionArgument.skip fun _ => .pure rfl))
      (.map bare_identifier))

theorem bare_countArgument : countArgument.Bare := by
  refine .orElse (bare_mark rfl) (.token fun item u seen => ?_)
  split at seen
  · rename_i same
    rw [same]
    exact ⟨by simp, by simp⟩
  · exact absurd seen (by simp)

theorem bare_projection : projection.Bare := by
  refine .orElse ?_ (.orElse ?_ (.map (.bare_of_flatMap (.commaSeparated bare_selector))))
  · exact .afterWord rfl (.afterMark rfl
      (bare_countArgument.skip fun _ => .afterMark rfl (.pure rfl)))
  · exact .afterMark rfl (.pure rfl)

theorem bare_ordering : ordering.Bare := by
  have bare : direction.Bare :=
    .orElse (.afterWord rfl (.pure rfl))
      ((bare_optionally rfl).skip fun _ => .pure rfl)
  exact bare_identifier.skip fun _ => bare.skip fun _ => .pure rfl

theorem bare_orderClause : orderClause.Bare := by
  have bare : (commaSeparated ordering).Bare := .bare_of_flatMap (.commaSeparated bare_ordering)
  exact .orElse (.afterWord rfl (.afterWord rfl (bare.skip fun _ => .pure rfl))) (.pure rfl)

theorem bare_limitClause : limitClause.Bare := by
  refine .orElse (.afterWord rfl (.token fun item limit seen => ?_)) (.pure rfl)
  split at seen
  · rename_i same
    rw [same]
    exact ⟨by simp, by simp⟩
  · exact absurd seen (by simp)

theorem bare_filteringClause : filteringClause.Bare :=
  .orElse (.afterWord rfl (.afterWord rfl (.pure rfl)))
    (.pure rfl)

theorem shows_whereClause :
    whereClause.Shows fun relations ordinals => ordinals = relations.flatMap Relation.markers :=
  .orElse (.afterWord rfl shows_relations) (.pure rfl)

theorem shows_selection :
    selection.Shows fun selection ordinals => ordinals = selection.markers := by
  refine bare_projection.skip fun projection => .afterWord rfl ?_
  refine bare_tableName.skip fun table => shows_whereClause.bind fun relations ordinals same => ?_
  refine bare_orderClause.skip fun orderings => bare_limitClause.skip fun limit => ?_
  refine bare_filteringClause.skip fun filtering => .pure ?_
  rw [same, List.append_nil, Selection.markers]

end Language

end Cql
