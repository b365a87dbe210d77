/-
Bind markers that are lost.

A USING clause may set an objective twice, and the later value replaces the earlier one.  If the
earlier one is a bind marker, it was numbered and counts as a bound term, but the statement no longer
holds it.  No other bind marker is lost: an accepted statement holds every other marker of its source.

* `overwritten` — the ordinals of the markers that are lost, told from the tokens alone;
* `Attributes.perm_setAll` — what a clause keeps and what it loses;
* `Phrase.Settles` — a phrase keeps the markers of its stretch, but for those overwritten in it;
* `Language.settles_query` — queries;
* `markers_of_parse` — the markers of an accepted statement.
-/
import Cql.Proofs.BoundTerms

namespace Cql

/-- The kinds of tokens that a USING clause is made of, after its first word. -/
def TokenKind.isUsingPart : TokenKind → Bool
  | keyword .AND | integer _ | punctuation .questionMark => true
  | kind => kind.isObjective

/-- The ordinals of the bind markers of a USING clause that stand after an objective and are
overwritten, since the same objective comes again. -/
def lostIn : List Numbered → List Nat
  | name :: value :: rest =>
    (if name.kind.isObjective && value.kind = .punctuation .questionMark &&
        rest.any (·.kind = name.kind) then [value.ordinal] else []) ++ lostIn (value :: rest)
  | _ => []

/-- The ordinals of the bind markers that are overwritten in the USING clauses among the tokens. -/
def overwritten : List Numbered → List Nat
  | [] => []
  | item :: rest =>
    (if item.kind = .keyword .USING then lostIn (rest.takeWhile (·.kind.isUsingPart)) else []) ++
      overwritten rest

theorem lostIn_cons_cons (name value : Numbered) (rest : List Numbered) :
    lostIn (name :: value :: rest) =
      (if name.kind.isObjective && value.kind = .punctuation .questionMark &&
        rest.any (·.kind = name.kind) then [value.ordinal] else []) ++ lostIn (value :: rest) :=
  rfl

theorem overwritten_cons (item : Numbered) (rest : List Numbered) :
    overwritten (item :: rest) =
      (if item.kind = .keyword .USING then lostIn (rest.takeWhile (·.kind.isUsingPart)) else []) ++
        overwritten rest :=
  rfl

theorem lostIn_cons {item : Numbered} {rest : List Numbered} (h : item.kind.isObjective = false) :
    lostIn (item :: rest) = lostIn rest := by
  cases rest with
  | nil => rfl
  | cons value rest => simp [lostIn_cons_cons, h]

/-- The tokens that cannot go on a USING clause. -/
def endsUsing (kind : TokenKind) : Prop := kind.isUsingPart = false

/-- No clause goes on from one stretch into another that does not open with a part of a clause. -/
theorem overwritten_append {front rest : List Numbered}
    (ends : endsUsing (Phrase.opening rest .endOfInput)) :
    overwritten (front ++ rest) = overwritten front ++ overwritten rest := by
  have stops : rest.takeWhile (·.kind.isUsingPart) = [] := by
    cases rest with
    | nil => rfl
    | cons item rest =>
      have stop : item.kind.isUsingPart = false := ends
      rw [List.takeWhile_cons_of_neg (by simp [stop])]
  -- The rest of a clause is the same, whether or not the second stretch comes after it.
  have clause : ∀ items : List Numbered, (items ++ rest).takeWhile (·.kind.isUsingPart) =
      items.takeWhile (·.kind.isUsingPart) := by
    intro items
    rw [List.takeWhile_append]
    split
    · rename_i whole
      rw [stops, List.append_nil]
      exact ((List.takeWhile_prefix _).eq_of_length whole).symm
    · rfl
  induction front with
  | nil => rfl
  | cons item front ih =>
    rw [List.cons_append, overwritten_cons, overwritten_cons, clause, ih, List.append_assoc]

/-- Where no clause begins, nothing is overwritten. -/
theorem overwritten_of_withoutUsing {items rest : List Numbered} (free : WithoutUsing items) :
    overwritten (items ++ rest) = overwritten rest := by
  induction items with
  | nil => rfl
  | cons item items ih =>
    rw [List.cons_append, overwritten_cons, if_neg (free item (by simp)), List.nil_append]
    exact ih fun other mem => free other (List.mem_cons_of_mem _ mem)

/-- What is overwritten was a bind marker. -/
theorem overwritten_eq_nil {items : List Numbered} (h : marks items = []) :
    overwritten items = [] := by
  have none : ∀ item ∈ items, item.kind ≠ .punctuation .questionMark := by
    intro item mem isMarker
    have : item.ordinal ∈ marks items := List.mem_filterMap.2 ⟨item, mem, if_pos isMarker⟩
    rw [h] at this
    exact absurd this (by simp)
  -- From here on the induction only needs that none of the tokens is a marker.
  clear h
  have lost : ∀ part : List Numbered, (∀ item ∈ part, item.kind ≠ .punctuation .questionMark) →
      lostIn part = [] := by
    intro part plain
    induction part with
    | nil => rfl
    | cons name rest ih =>
      have later := ih fun item mem => plain item (List.mem_cons_of_mem _ mem)
      cases rest with
      | nil => rfl
      | cons value rest => simp [lostIn_cons_cons, plain value (by simp), later]
  induction items with
  | nil => rfl
  | cons item items ih =>
    have inside : ∀ other ∈ items.takeWhile (·.kind.isUsingPart),
        other.kind ≠ .punctuation .questionMark := fun other mem =>
      none other (List.mem_cons_of_mem _ ((List.takeWhile_sublist _).subset mem))
    rw [overwritten_cons, lost _ inside, ih fun other mem => none other (List.mem_cons_of_mem _ mem)]
    simp

/-! ### What a clause keeps and what it loses -/

open Cql.Language (latest?)

/-- The markers of the values that are replaced by later ones. -/
def lostSettings : List (TokenKind × Term) → List Nat
  | [] => []
  | setting :: others =>
    (if others.any (·.1 = setting.1) then setting.2.markers else []) ++ lostSettings others

section

variable {name : TokenKind} {setting : TokenKind × Term} {others : List (TokenKind × Term)}

theorem latest?_nil : latest? name [] = none := rfl

theorem latest?_step : latest? name (setting :: others) =
    (latest? name others).or (if setting.1 = name then some setting.2 else none) := by
  unfold latest?
  by_cases same : setting.1 = name
  · rw [List.filter_cons_of_pos (by simpa using same), List.getLast?_cons, if_pos same]
    cases (others.filter (·.1 = name)).getLast? with
    | none => rfl
    | some last => rfl
  · rw [List.filter_cons_of_neg (by simpa using same), if_neg same, Option.or_none]

theorem lostSettings_cons : lostSettings (setting :: others) =
    (if others.any (·.1 = setting.1) then setting.2.markers else []) ++ lostSettings others :=
  rfl

theorem latest?_eq_none : latest? name others = none ↔ others.any (·.1 = name) = false := by
  induction others with
  | nil => simp [latest?_nil]
  | cons setting others ih =>
    by_cases same : setting.1 = name
    · simp [latest?_step, same]
    · simp [latest?_step, same, ih]

theorem latest?_cons_of_ne (h : setting.1 ≠ name) :
    latest? name (setting :: others) = latest? name others := by
  simp [latest?_step, h]

/-- A value is the latest one if its objective does not come again. -/
theorem latest?_cons (h : others.any (·.1 = setting.1) = false) :
    latest? setting.1 (setting :: others) = some setting.2 := by
  simp [latest?_step, latest?_eq_none.2 h]

/-- A value does not matter if its objective comes again. -/
theorem latest?_cons_of_any (h : others.any (·.1 = setting.1) = true) :
    latest? name (setting :: others) = latest? name others := by
  by_cases same : setting.1 = name
  · subst same
    cases found : latest? setting.1 others with
    | none => exact absurd (latest?_eq_none.1 found) (by simp only [h]; decide)
    | some term => simp [latest?_step, found]
  · exact latest?_cons_of_ne same

end

theorem perm_inOrder (first second : Option Nat) :
    (inOrder first second).Perm (first.toList ++ second.toList) := by
  cases first with
  | none => cases second <;> exact .refl _
  | some first =>
    cases second with
    | none => exact .refl _
    | some second =>
      rcases Nat.le_total first second with less | less
      · simp [inOrder, Nat.min_eq_left less, Nat.max_eq_right less]
      · simpa [inOrder, Nat.min_eq_right less, Nat.max_eq_left less] using List.Perm.swap ..

/-- The markers of a value that may be missing. -/
def termMarkers (term : Option Term) : List Nat := (term.bind Term.ordinal?).toList

theorem termMarkers_some (term : Term) : termMarkers (some term) = term.markers := rfl

/-- Every marker set in a clause is either that of the latest timestamp or that of the latest time to
live, or it is replaced. -/
theorem perm_lostSettings {all : List (TokenKind × Term)}
    (names : ∀ setting ∈ all, setting.1.isObjective = true) :
    (all.flatMap (·.2.markers)).Perm (termMarkers (latest? (.keyword .TIMESTAMP) all) ++
      termMarkers (latest? (.keyword .TTL) all) ++ lostSettings all) := by
  induction all with
  | nil => exact .refl _
  | cons setting others ih =>
    obtain ⟨named, names⟩ := List.forall_mem_cons.1 names
    have later := ih names
    -- Each ordinal is counted on both sides: it counts as kept or as lost, but not as both.
    rw [List.perm_iff_count] at later ⊢
    intro ordinal
    have counted := later ordinal
    simp only [List.flatMap_cons, List.count_append, lostSettings_cons] at counted ⊢
    by_cases again : others.any (·.1 = setting.1) = true
    · rw [latest?_cons_of_any again, latest?_cons_of_any again, if_pos again]
      omega
    · -- The objective has no later value, and this one does not change that of the other.
      rw [if_neg again, List.count_nil]
      have alone : others.any (·.1 = setting.1) = false := Bool.eq_false_iff.2 again
      have none : (termMarkers (latest? setting.1 others)).count ordinal = 0 := by
        rw [latest?_eq_none.2 alone]
        rfl
      have found := latest?_cons alone
      rcases TokenKind.isObjective_iff.1 named with same | same
      · rw [same] at none found
        rw [found, termMarkers_some, latest?_cons_of_ne (by rw [same]; decide)]
        omega
      · rw [same] at none found
        rw [found, termMarkers_some, latest?_cons_of_ne (by rw [same]; decide)]
        omega

/-- Every marker set in a clause is kept, or it is replaced. -/
theorem Attributes.perm_setAll {all : List (TokenKind × Term)}
    (names : ∀ setting ∈ all, setting.1.isObjective = true) :
    (all.flatMap (·.2.markers)).Perm ((none.setAll all).markers ++ lostSettings all) := by
  refine (perm_lostSettings names).trans (List.Perm.append_right _ ?_)
  unfold markers
  rw [Language.timestamp_setAll names, Language.timeToLive_setAll]
  exact (perm_inOrder ..).symm

/-! ### USING clauses -/

/-- A stretch of a clause and what it sets. -/
structure SetBy (items : List Numbered) (all : List (TokenKind × Term)) : Prop where
  lost : lostIn items = lostSettings all
  shown : marks items = all.flatMap (·.2.markers)
  parts : ∀ item ∈ items, item.kind.isUsingPart = true
  names : ∀ setting ∈ all, setting.1.isObjective = true
  named : ∀ name, name.isObjective = true →
    items.any (·.kind = name) = all.any (·.1 = name)

namespace SetBy

variable {items : List Numbered} {all : List (TokenKind × Term)}

theorem nil : SetBy [] [] where
  lost := rfl
  shown := rfl
  parts := by simp
  names := by simp
  named _ _ := rfl

theorem and {item : Numbered} (isAnd : item.kind = .keyword .AND) (h : SetBy items all) :
    SetBy (item :: items) all where
  lost := by rw [lostIn_cons (by rw [isAnd]; rfl), h.lost]
  shown := by
    have none : marks [item] = [] := marks_plain (by rw [isAnd]; decide)
    rw [← List.singleton_append, marks_append, none, List.nil_append, h.shown]
  parts := List.forall_mem_cons.2 ⟨by rw [isAnd]; rfl, h.parts⟩
  names := h.names
  named name objective := by
    have other : item.kind ≠ name := by
      rintro rfl
      rw [isAnd] at objective
      exact absurd objective (by decide)
    rw [List.any_cons, h.named name objective]
    simp [other]

/-- An objective and its value in front of others. -/
theorem cons {name value : Numbered} {term : Term} (isObjective : name.kind.isObjective = true)
    (plain : value.kind.isObjective = false) (part : value.kind.isUsingPart = true)
    (shows : marks [value] = term.markers) (h : SetBy items all) :
    SetBy (name :: value :: items) ((name.kind, term) :: all) where
  lost := by
    rw [lostIn_cons_cons, lostIn_cons plain, lostSettings_cons, h.lost, h.named _ isObjective, ← shows]
    by_cases again : all.any (·.1 = name.kind) = true
    · by_cases isMarker : value.kind = .punctuation .questionMark
      · simp only [isObjective, isMarker, again, marks]
        simp [isMarker]
      · rw [marks_plain isMarker]
        simp [isMarker]
    · rw [if_neg again]
      simp [again]
  shown := by
    have none : marks [name] = [] := marks_plain (Phrase.ne_of_test isObjective rfl)
    rw [← List.singleton_append, marks_append, none, List.nil_append, ← List.singleton_append,
      marks_append, shows, h.shown]
    rfl
  parts := by
    refine List.forall_mem_cons.2 ⟨?_, List.forall_mem_cons.2 ⟨part, h.parts⟩⟩
    rcases TokenKind.isObjective_iff.1 isObjective with same | same
    · rw [same]
      rfl
    · rw [same]
      rfl
  names := List.forall_mem_cons.2 ⟨isObjective, h.names⟩
  named wanted objective := by
    have other : value.kind ≠ wanted := by
      rintro rfl
      rw [objective] at plain
      exact absurd plain (by simp)
    rw [List.any_cons, List.any_cons, List.any_cons, h.named wanted objective]
    simp [other]

end SetBy

namespace Language

open Phrase

theorem objective_iff {items : List Numbered} {setting : TokenKind × Term}
    (h : objective items setting) : ∃ name value, items = [name, value] ∧
      name.kind.isObjective = true ∧ setting.1 = name.kind ∧ value.kind.isObjective = false ∧
        value.kind.isUsingPart = true ∧ marks [value] = setting.2.markers := by
  obtain ⟨name, rest, kind, rfl, seen, spelled⟩ := token_bind_iff.1 h
  by_cases isObjective : name.kind.isObjective = true
  · rw [if_pos isObjective, Option.some.injEq] at seen
    subst seen
    obtain ⟨front, term, _, rfl, spelled, rfl, rfl⟩ := spelled
    rw [List.append_nil]
    have shows := (shows_integerOrMarker _ _ spelled).1
    rcases spelled with spelled | ⟨value, rfl, seen⟩
    · obtain ⟨digits, ⟨value, rfl, seen⟩, rfl⟩ := map_iff.1 spelled
      refine ⟨name, value, rfl, isObjective, rfl, ?_, ?_, shows⟩
      all_goals
        dsimp only at seen
        split at seen
        · rename_i digits same
          rw [same]
          rfl
        · exact absurd seen (by simp)
    · refine ⟨name, value, rfl, isObjective, rfl, ?_, ?_, shows⟩
      all_goals
        by_cases same : value.kind = .punctuation .questionMark
        · rw [same]
          rfl
        · simp [same] at seen
  · simp [isObjective] at seen

theorem setBy_objective {front rest : List Numbered} {setting : TokenKind × Term}
    {others : List (TokenKind × Term)} (h : objective front setting) (h' : SetBy rest others) :
    SetBy (front ++ rest) (setting :: others) := by
  obtain ⟨name, value, rfl, isObjective, same, plain, part, shows⟩ := objective_iff h
  obtain ⟨kind, term⟩ := setting
  obtain rfl : kind = name.kind := same
  exact h'.cons isObjective plain part shows

theorem setBy_of_settings {items : List Numbered} {all : List (TokenKind × Term)}
    (h : Grammar.settings items all) : SetBy items all := by
  obtain ⟨front, first, _, rfl, spelled, rest, others, _, rfl, spelled', rfl, rfl⟩ := h
  rw [List.append_nil]
  refine setBy_objective spelled ?_
  clear spelled
  induction spelled' with
  | none => exact .nil
  | more next _ ih =>
    obtain ⟨separator, _, middle, rfl, isSeparator, spelled⟩ := next
    rw [List.append_assoc]
    rcases isSeparator with isAnd | ⟨rfl, -⟩
    · obtain ⟨item, rfl, same⟩ := ofKind_iff.1 isAnd
      exact (setBy_objective spelled ih).and same
    · rw [List.nil_append]
      exact setBy_objective spelled ih

end Language

/-! ### Phrases that keep their markers -/

namespace Phrase

variable {α β : Type} {R : α → List Nat → Prop} {T : β → List Nat → Prop}

/-- The markers of a stretch of the phrase are those that its value is related to, and those that are
overwritten in the stretch. -/
def Settles (phrase : Phrase α) (R : α → List Nat → Prop) : Prop :=
  ∀ items a, phrase items a → ∃ kept, R a kept ∧ (marks items).Perm (kept ++ overwritten items)

namespace Settles

theorem perm_append {front rest : List Numbered} {kept kept' : List Nat}
    (ends : endsUsing (opening rest .endOfInput))
    (perm : (marks front).Perm (kept ++ overwritten front))
    (perm' : (marks rest).Perm (kept' ++ overwritten rest)) :
    (marks (front ++ rest)).Perm (kept ++ kept' ++ overwritten (front ++ rest)) := by
  rw [overwritten_append ends, marks_append, List.perm_iff_count]
  intro ordinal
  have counted := List.perm_iff_count.1 perm ordinal
  have counted' := List.perm_iff_count.1 perm' ordinal
  simp only [List.count_append] at counted counted' ⊢
  omega

/-- Two phrases in a row, the second of which does not go on a clause of the first. -/
theorem bind {phrase : Phrase α} {next : α → Phrase β} (first : phrase.Settles R)
    (second : ∀ a ordinals, R a ordinals →
      (next a).Settles fun b more => T b (ordinals ++ more))
    (opens : ∀ a, (next a).Opens endsUsing endsUsing) : (phrase >>= next).Settles T := by
  rintro items b ⟨front, a, rest, rfl, spelled, spelled'⟩
  obtain ⟨kept, related, perm⟩ := first front a spelled
  obtain ⟨kept', related', perm'⟩ := second a kept related rest b spelled'
  exact ⟨kept ++ kept', related', perm_append (opens a rest b _ spelled' rfl) perm perm'⟩

/-- A phrase without USING clauses, and another. -/
theorem after {phrase : Phrase α} {next : α → Phrase β} (first : phrase.Shows R)
    (second : ∀ a ordinals, R a ordinals →
      (next a).Settles fun b more => T b (ordinals ++ more)) : (phrase >>= next).Settles T := by
  rintro items b ⟨front, a, rest, rfl, spelled, spelled'⟩
  obtain ⟨related, free⟩ := first front a spelled
  obtain ⟨kept, related', perm⟩ := second a _ related rest b spelled'
  refine ⟨marks front ++ kept, related', ?_⟩
  rw [overwritten_of_withoutUsing free, marks_append, List.append_assoc]
  exact perm.append_left _

/-- A phrase without markers, and another. -/
theorem skip {phrase : Phrase α} {next : α → Phrase β} (first : phrase.Bare)
    (second : ∀ a, (next a).Settles T) : (phrase >>= next).Settles T := by
  refine after first fun a ordinals none => ?_
  subst none
  exact second a

theorem afterWord {keyword : Keyword} {phrase : Phrase β}
    (other : (keyword == .USING) = false) (h : phrase.Settles T) : (do word keyword; phrase).Settles T :=
  skip (Language.bare_word other) fun _ => h

theorem afterMark {punctuation : Punctuation} {phrase : Phrase β}
    (other : (punctuation == .questionMark) = false) (h : phrase.Settles T) :
    (do mark punctuation; phrase).Settles T :=
  skip (Language.bare_mark other) fun _ => h

theorem pure {a : α} (h : R a []) : (pure a : Phrase α).Settles R := by
  rintro items b ⟨rfl, rfl⟩
  exact ⟨[], h, .refl _⟩

theorem orElse {phrase other : Phrase α} (first : phrase.Settles R) (second : other.Settles R) :
    (phrase <|> other).Settles R := by
  rintro items a (spelled | spelled)
  · exact first items a spelled
  · exact second items a spelled

theorem many {phrase : Phrase α} {f : α → List Nat}
    (h : phrase.Settles fun a ordinals => ordinals = f a)
    (opens : phrase.Opens anything endsUsing) :
    (many phrase).Settles fun as ordinals => ordinals = as.flatMap f := by
  intro items as spelled
  induction spelled with
  | none => exact ⟨[], rfl, .refl _⟩
  | @more front rest a as first others ih =>
    obtain ⟨kept, rfl, perm⟩ := h front a first
    obtain ⟨kept', rfl, perm'⟩ := ih
    have ends := Opens.many opens (fun _ => id) rest as .endOfInput others rfl
    exact ⟨_, rfl, perm_append ends perm perm'⟩

end Settles

end Phrase

namespace Language

open Phrase

/-- A statement, or a part of one, keeps the markers of its stretch but for those overwritten. -/
abbrev Keeps {α : Type} (phrase : Phrase α) (f : α → List Nat) : Prop :=
  phrase.Settles fun a ordinals => ordinals = f a

theorem keeps_usingClause : Keeps usingClause Attributes.markers := by
  refine .orElse ?_ (.pure rfl)
  intro items attributes spelled
  obtain ⟨name, rest, rfl, isUsing, spelled'⟩ := ofKind_bind_iff.1 spelled
  rw [Grammar.objectives_eq, map_iff] at spelled'
  obtain ⟨all, spelled', rfl⟩ := spelled'
  have clause := setBy_of_settings spelled'
  -- The clause goes up to the end of the stretch, and no other begins in it.
  have whole : rest.takeWhile (·.kind.isUsingPart) = rest := by
    have parts : (rest ++ []).takeWhile (·.kind.isUsingPart) = rest ++ [] :=
      List.takeWhile_append_of_pos clause.parts
    rwa [List.append_nil] at parts
  have free : WithoutUsing rest := by
    intro item mem isUsing
    have part := clause.parts item mem
    rw [isUsing] at part
    exact absurd part (by decide)
  have none : overwritten rest = [] := by
    have alone : overwritten (rest ++ []) = overwritten [] := overwritten_of_withoutUsing free
    rwa [List.append_nil] at alone
  have plain : marks [name] = [] := marks_plain (by rw [isUsing]; decide)
  refine ⟨_, rfl, ?_⟩
  rw [overwritten_cons, if_pos isUsing, whole, none, List.append_nil, clause.lost,
    ← List.singleton_append, marks_append, plain, List.nil_append, clause.shown]
  exact Attributes.perm_setAll clause.names

/-- A clause that may only set a timestamp is a clause. -/
theorem usingClause_of_timestampClause {items : List Numbered} {attributes : Attributes}
    (h : timestampClause items attributes) : usingClause items attributes := by
  rcases h with spelled | none
  · obtain ⟨isUsing, u, _, rfl, spelled, isTimestamp, _, _, rfl, spelled', front, term, _, rfl,
      spelled'', rfl, rfl⟩ := spelled
    obtain ⟨name, rfl, same⟩ := ofKind_iff.1 spelled'
    have named : objective ([name] ++ front) (.keyword .TIMESTAMP, term) := by
      refine ⟨[name], .keyword .TIMESTAMP, front, rfl, ⟨name, rfl, ?_⟩, front, term, [], by simp,
        spelled'', rfl, rfl⟩
      show (if name.kind.isObjective then some name.kind else none) = _
      rw [same]
      rfl
    refine .inl ⟨isUsing, u, _, rfl, spelled, [name] ++ front, _, [], by simp, named, [], [], [], rfl,
      .none, rfl, rfl⟩
  · exact .inr none

theorem keeps_timestampClause : Keeps timestampClause Attributes.markers :=
  fun items attributes spelled =>
    keeps_usingClause items attributes (usingClause_of_timestampClause spelled)

/-! ### Statements -/

theorem keeps_insertion : Keeps insertion Insertion.markers := by
  refine .afterWord rfl (.skip bare_tableName fun table => ?_)
  refine .afterMark rfl ?_
  refine .skip (.bare_of_flatMap (.twoOrMore bare_identifier)) fun columns => ?_
  refine .afterMark rfl (.afterWord rfl ?_)
  refine .afterMark rfl ?_
  refine .after (Shows.twoOrMore shows_value) fun values ordinals same => ?_
  refine .afterMark rfl ?_
  refine keeps_usingClause.bind (fun attributes more same' => .pure ?_) fun _ => .pure _ fun _ => id
  rw [same, same', List.append_nil]
  rfl

theorem keeps_update : Keeps update Update.markers := by
  refine .skip bare_tableName fun table => ?_
  refine keeps_usingClause.bind (fun attributes ordinals same => ?_) fun _ => .andThen (.ofKind rfl)
  refine .afterWord rfl ?_
  refine .after (Shows.commaSeparated shows_assignment) fun operations more same' => ?_
  refine .afterWord rfl ?_
  refine .after shows_relations fun relations last same'' => .pure ?_
  rw [same, same', same'', List.append_nil]
  rfl

theorem keeps_deletion : Keeps deletion Deletion.markers := by
  have targets : (commaSeparated deletionTarget <|> pure []).Shows fun targets ordinals =>
      ordinals = targets.flatMap DeletionTarget.markers :=
    .orElse (.commaSeparated shows_deletionTarget) (.pure rfl)
  refine .after targets fun targets ordinals same => .afterWord rfl ?_
  refine .skip bare_tableName fun table => ?_
  refine keeps_timestampClause.bind (fun attributes more same' => ?_) fun _ => .andThen (.ofKind rfl)
  refine .afterWord rfl ?_
  refine .after shows_relations fun relations last same'' => .pure ?_
  rw [same, same', same'', List.append_nil]
  rfl

/-- A statement after its first word. -/
theorem keeps_afterWord {α β : Type} {keyword : Keyword} {phrase : Phrase α} {f : α → β}
    {g : β → List Nat} (other : (keyword == .USING) = false) (h : Keeps phrase fun a => g (f a)) :
    Keeps (word keyword >>= fun _ => phrase >>= fun a => pure (f a)) g := by
  refine .afterWord other (h.bind (fun a ordinals same => .pure ?_) fun _ => .pure _ fun _ => id)
  rw [same, List.append_nil]

theorem keeps_modification : Keeps modification Modification.markers :=
  .orElse (keeps_afterWord rfl keeps_insertion)
    (.orElse (keeps_afterWord rfl keeps_update)
      (keeps_afterWord rfl keeps_deletion))

theorem keeps_batchItem : Keeps batchItem Modification.markers := by
  refine keeps_modification.bind (fun modification ordinals same => ?_) fun _ => ?_
  · have bare : (optionally (mark .semicolon)).Bare := .orElse (bare_mark rfl) (.pure rfl)
    refine .skip bare fun _ => .pure ?_
    rw [same, List.append_nil]
  · exact .bind (.orElse (.ofKind rfl) (.pure _ fun _ => id)) fun _ => .pure _ fun _ => id

theorem endsUsing_of_beginsChange {kind : TokenKind} (h : Grammar.beginsChange kind) :
    endsUsing kind := by
  rcases h with rfl | rfl | rfl
  · rfl
  · rfl
  · rfl

theorem keeps_batch : Keeps batch Batch.markers := by
  have opens : batchItem.Opens anything endsUsing :=
    (Opens.andThen Grammar.opens_modification).weaken (fun _ => id)
      fun _ => endsUsing_of_beginsChange
  have mode : batchMode.Bare :=
    .orElse (.afterWord rfl (.pure rfl))
      (.orElse (.afterWord rfl (.pure rfl)) (.pure rfl))
  refine .skip mode fun mode => .afterWord rfl ?_
  refine keeps_usingClause.bind (fun attributes ordinals same => ?_) fun _ => .andThen opens
  refine keeps_batchItem.bind (fun first more same' => ?_) fun _ =>
    .bind (.many opens fun _ => id) fun _ => .andThen (.ofKind rfl)
  refine (Settles.many keeps_batchItem opens).bind (fun rest last same'' => ?_) fun _ =>
    .andThen (.ofKind rfl)
  refine .afterWord rfl (.afterWord rfl (.pure ?_))
  rw [same, same', same'', List.append_nil]
  rfl

theorem keeps_modificationStatement : Keeps modificationStatement Statement.markers :=
  .orElse (keeps_afterWord rfl keeps_insertion)
    (.orElse (keeps_afterWord rfl keeps_update)
      (.orElse (keeps_afterWord rfl keeps_deletion)
        (keeps_afterWord rfl keeps_batch)))

theorem keeps_anyStatement : Keeps anyStatement Statement.markers := by
  refine .orElse keeps_modificationStatement (.orElse ?_ ?_)
  · refine .afterWord rfl (.after shows_selection fun selection ordinals same => ?_)
    exact .pure (by rw [same, List.append_nil]; rfl)
  · rintro items statement ⟨administrative, unmarked⟩
    refine ⟨[], (Statement.markers_of_isAdministrative administrative).symm, ?_⟩
    rw [unmarked, overwritten_eq_nil unmarked]
    exact .refl _

theorem keeps_query : Keeps (query anyStatement) Statement.markers := by
  have semicolons : (many (mark .semicolon)).Bare :=
    .bare_of_flatMap (.many (bare_mark rfl))
  refine .skip semicolons fun _ => keeps_anyStatement.bind (fun statement ordinals same => ?_) fun _ => ?_
  · refine .skip semicolons fun _ => .pure ?_
    rw [same, List.append_nil]
  · exact .bind (.many (.ofKind rfl) fun _ => id) fun _ => .pure _ fun _ => id

end Language

/-! ### Accepted statements -/

theorem parse_eq_ok_iff {source : String} {parsed : ParsedStatement} :
    parse source = .ok parsed ↔
      (parseOutcome source).isSuccess = true ∧ (parseOutcome source).statement = some parsed := by
  unfold parse parseWith Outcome.isSuccess
  cases found : (parseOutcome source).statement with
  | none => simp [found]
  | some statement =>
    by_cases silent : (parseOutcome source).diagnostics.isEmpty = true
    · simp [found, silent]
    · simp [found, silent]

theorem toOption_parse (source : String) : (parse source).toOption =
    if (parseOutcome source).diagnostics.isEmpty then (parseOutcome source).statement else none := by
  unfold parse parseWith
  cases found : (parseOutcome source).statement with
  | none => simp [found, Except.toOption]
  | some statement =>
    by_cases silent : (parseOutcome source).diagnostics.isEmpty = true
    · simp [found, silent, Except.toOption]
    · simp [found, silent, Except.toOption]

/-- The bind markers of an accepted statement and those overwritten in its USING clauses are, each
once, the ordinals below the number of its bound terms.  So no marker is lost if and only if none is
overwritten. -/
theorem markers_of_parse (source : String) (parsed : ParsedStatement)
    (accepted : parse source = .ok parsed) :
    (parsed.statement.markers ++
        overwritten (Language.sentence (tokenize source).tokens)).Perm
          (List.range parsed.boundTerms) ∧
      (parsed.statement.markers.Perm (List.range parsed.boundTerms) ↔
        overwritten (Language.sentence (tokenize source).tokens) = []) := by
  obtain ⟨-, place, after, reads, same⟩ := Parser.succeeds_iff.1 (parse_eq_ok_iff.1 accepted)
  have spelled := Parser.sound_sentence reads
  have counted : parsed.boundTerms = after.markers.count := by rw [same]
  obtain ⟨kept, rfl, perm⟩ := Language.keeps_query _ _ spelled
  rw [Parser.marks_of_reads reads, ← counted] at perm
  refine ⟨perm.symm, fun whole => ?_, fun none => ?_⟩
  · -- If all of them are kept, there is no room for any that is lost.
    have lengths := perm.length_eq
    rw [List.length_append, whole.length_eq] at lengths
    exact List.eq_nil_of_length_eq_zero (by omega)
  · rw [none, List.append_nil] at perm
    exact perm.symm

/-- Two objectives of one clause, each with a bind marker. -/
theorem markers_of_parse_update : ∃ parsed,
    parse "UPDATE t USING TTL ? AND TIMESTAMP ? SET a = ? WHERE b = ?" = .ok parsed ∧
      parsed.boundTerms = 4 ∧ parsed.statement.markers.Perm (List.range 4) := by
  have counted : (parse "UPDATE t USING TTL ? AND TIMESTAMP ? SET a = ? WHERE b = ?").toOption.map
      (·.boundTerms) = some 4 := by
    rw [toOption_parse, parseOutcome, tokenize, String.toList_ofList]
    decide +kernel
  have none : overwritten (Language.sentence
      (tokenize "UPDATE t USING TTL ? AND TIMESTAMP ? SET a = ? WHERE b = ?").tokens) = [] := by
    rw [tokenize, String.toList_ofList]
    decide +kernel
  cases accepted : parse "UPDATE t USING TTL ? AND TIMESTAMP ? SET a = ? WHERE b = ?" with
  | error rejection =>
    rw [accepted] at counted
    exact absurd counted (by simp [Except.toOption])
  | ok parsed =>
    rw [accepted] at counted
    have four : parsed.boundTerms = 4 := Option.some.inj counted
    have whole := (markers_of_parse _ parsed accepted).2.2 none
    rw [four] at whole
    exact ⟨parsed, rfl, four, whole⟩

/-- Not every bind marker of an accepted source is in its statement: here the first time to live is
replaced by the second. -/
theorem not_all_markers_kept : ¬ ∀ source parsed, parse source = .ok parsed →
    parsed.statement.markers.Perm (List.range parsed.boundTerms) := by
  intro claimed
  have counted : (parse "INSERT INTO t (a, b) VALUES (1, 2) USING TTL ? AND TTL ?").toOption.map
      (fun parsed => (parsed.statement.markers, parsed.boundTerms)) = some ([1], 2) := by
    rw [toOption_parse, parseOutcome, tokenize, String.toList_ofList]
    decide +kernel
  cases accepted : parse "INSERT INTO t (a, b) VALUES (1, 2) USING TTL ? AND TTL ?" with
  | error rejection =>
    rw [accepted] at counted
    exact absurd counted (by simp [Except.toOption])
  | ok parsed =>
    rw [accepted] at counted
    obtain ⟨kept, two⟩ := Prod.mk.inj (Option.some.inj counted)
    have lengths := (claimed _ parsed accepted).length_eq
    rw [kept, two] at lengths
    exact absurd lengths (by simp)

end Cql
