/-
Written types are read back.

The written form of a type is cut into the tokens that the grammar has for it, also where it ends in a
row of closing angles.  So a type is read back from its written form if no more collection types stand
inside one another than there may be; and if more do, that is what is reported.

* `DataType.lexemes`, `DataType.writes_render` — the tokens of a written type;
* `DataType.depth` — how many collection types stand inside one another;
* `DataType.spelled_lexemes`, `DataType.overflowsOn_lexemes` — the grammar has them for the type, or the
  rule halts on them;
* `DataType.dataType_of_render` — **written types are read back**, unless they are nested too deeply.
-/
import Cql.Proofs.Nesting
import Cql.Proofs.Properties

namespace Cql

namespace DataType

/-! ### The tokens of a written type -/

/-- The lexemes of the written form of a type. -/
def lexemes : DataType → List Lexeme
  | native type => [⟨.keyword type.keyword, type.name⟩]
  | map key value =>
    ⟨.keyword .MAP, "map"⟩ :: ⟨.punctuation .less, "<"⟩ ::
      (key.lexemes ++ commaLexeme :: (value.lexemes ++ [⟨.punctuation .greater, ">"⟩]))
  | list element =>
    ⟨.keyword .LIST, "list"⟩ :: ⟨.punctuation .less, "<"⟩ ::
      (element.lexemes ++ [⟨.punctuation .greater, ">"⟩])
  | set element =>
    ⟨.keyword .SET, "set"⟩ :: ⟨.punctuation .less, "<"⟩ ::
      (element.lexemes ++ [⟨.punctuation .greater, ">"⟩])
  | custom className => [⟨.string className, Quoted.render '\'' className⟩]

/-- No written type begins with an equal sign, which would go together with an angle. -/
theorem head?_render (type : DataType) (rest : List Char) :
    (type.render.toList ++ rest).head? ≠ some '=' := by
  cases type with
  | native type => cases type <;> simp [render, NativeType.name]
  | _ => simp [render, Quoted.render]

/-- A keyword and what stands in angles behind it. -/
theorem writes_angles {word : String} {keyword : Keyword} {first : DataType} {rest : List Char}
    {others : List Lexeme} (front : Writes word.toList [⟨.keyword keyword, word⟩])
    (inside : Writes (first.render.toList ++ rest) others) :
    Writes (word.toList ++ '<' :: (first.render.toList ++ (rest ++ ['>'])))
      (⟨.keyword keyword, word⟩ :: ⟨.punctuation .less, "<"⟩ ::
        (others ++ [⟨.punctuation .greater, ">"⟩])) := by
  have closing : Writes ['>'] [⟨.punctuation .greater, ">"⟩] := .token (.mark .greater) rfl
  have closed := inside.append closing rfl
  rw [List.append_assoc] at closed
  -- The angle is a mark of its own, as no equal sign comes behind it.
  have opened : Writes ('<' :: (first.render.toList ++ (rest ++ ['>'])))
      (⟨.punctuation .less, "<"⟩ :: (others ++ [⟨.punctuation .greater, ">"⟩])) := by
    refine closed.mark fun more _ => ?_
    rw [List.append_assoc]
    exact if_neg (first.head?_render _)
  exact front.append opened rfl

/-- The written form of a type is cut into its lexemes. -/
theorem writes_render (type : DataType) : Writes type.render.toList type.lexemes := by
  induction type with
  | native type =>
    cases type <;>
      exact .keyword (Lexical.mem_word.2 ⟨_, _, rfl, rfl, List.all_eq_true.1 rfl⟩) (by decide +kernel)
  | map key value first second =>
    have comma : Writes (',' :: ' ' :: value.render.toList) (commaLexeme :: value.lexemes) :=
      second.blank.mark fun _ _ => rfl
    have word : Writes "map".toList [⟨.keyword .MAP, "map"⟩] :=
      .keyword (Lexical.mem_word.2 ⟨_, _, rfl, rfl, List.all_eq_true.1 rfl⟩) (by decide +kernel)
    simpa [render, lexemes] using writes_angles word (first.append comma rfl)
  | list element ih =>
    have word : Writes "list".toList [⟨.keyword .LIST, "list"⟩] :=
      .keyword (Lexical.mem_word.2 ⟨_, _, rfl, rfl, List.all_eq_true.1 rfl⟩) (by decide +kernel)
    have inside : Writes (element.render.toList ++ []) element.lexemes := by rwa [List.append_nil]
    simpa [render, lexemes] using writes_angles word inside
  | set element ih =>
    have word : Writes "set".toList [⟨.keyword .SET, "set"⟩] :=
      .keyword (Lexical.mem_word.2 ⟨_, _, rfl, rfl, List.all_eq_true.1 rfl⟩) (by decide +kernel)
    have inside : Writes (element.render.toList ++ []) element.lexemes := by rwa [List.append_nil]
    simpa [render, lexemes] using writes_angles word inside
  | custom className => exact @Writes.render (.string className) trivial rfl

/-! ### The grammar of a written type -/

/-- How many collection types stand inside one another. -/
def depth : DataType → Nat
  | native _ | custom _ => 0
  | map key value => max key.depth value.depth + 1
  | list element | set element => element.depth + 1

open Grammar (simpleType?)

theorem spelled_inAngles {phrase : Phrase DataType} {lexemes : List Lexeme} {element : DataType}
    (h : phrase.Spelled lexemes (· = element)) : (Language.inAngles phrase).Spelled
      (⟨.punctuation .less, "<"⟩ :: (lexemes ++ [⟨.punctuation .greater, ">"⟩])) (· = element) :=
  .ofKind_bind rfl (h.bind fun _ same => .ofKind_bind rfl (.pure same))

/-- The lexemes of a type stand for it, if no more levels are needed than there are. -/
theorem spelled_lexemes {type : DataType} {levels : Nat} (within : type.depth ≤ levels) :
    (Language.typeWithin levels).Spelled type.lexemes (· = type) := by
  have simple {type : DataType} {lexeme : Lexeme} (levels : Nat) (seen : simpleType? lexeme = some type) :
      (Language.typeWithin levels).Spelled [lexeme] (· = type) := by
    have token : Language.simpleType.Spelled [lexeme] (· = type) := .token fun _ => ⟨type, seen, rfl⟩
    cases levels with
    | zero => exact token
    | succ levels => exact .orElse_right (.orElse_right (.orElse_right token))
  induction type generalizing levels with
  | native type => exact simple levels (by simp [simpleType?, NativeType.ofKeyword?_keyword])
  | custom className => exact simple levels rfl
  | map key value first second =>
    cases levels with
    | zero => exact absurd within (Nat.not_succ_le_zero _)
    | succ levels =>
      obtain ⟨within₁, within₂⟩ := max_le_iff.1 (Nat.le_of_succ_le_succ within)
      refine .orElse_left (.ofKind_bind rfl (.ofKind_bind rfl ((first within₁).bind ?_)))
      rintro _ rfl
      refine .ofKind_bind rfl ((second within₂).bind ?_)
      rintro _ rfl
      exact .ofKind_bind rfl (.pure rfl)
  | list element ih =>
    cases levels with
    | zero => exact absurd within (Nat.not_succ_le_zero _)
    | succ levels =>
      have inside := spelled_inAngles (ih (Nat.le_of_succ_le_succ within))
      exact .orElse_right (.orElse_left (.ofKind_bind rfl (inside.map fun _ => congrArg list)))
  | set element ih =>
    cases levels with
    | zero => exact absurd within (Nat.not_succ_le_zero _)
    | succ levels =>
      have inside := spelled_inAngles (ih (Nat.le_of_succ_le_succ within))
      exact .orElse_right (.orElse_right (.orElse_left (.ofKind_bind rfl (inside.map fun _ =>
        congrArg set))))

/-- A type within the levels is read on its lexemes. -/
theorem reads_lexemes {type : DataType} {levels : Nat} (within : type.depth ≤ levels) {state after : State}
    (covers : state.Covers type.lexemes after) :
    (Grammar.typeWithin levels).Reads state type after := by
  obtain ⟨_, reads, rfl⟩ := (spelled_lexemes within).reads (Grammar.recognizes_typeWithin levels) covers
  exact reads

section

open Rule

variable {element : Rule DataType} {inner : List Lexeme}

/-- A type in angles that overflows, behind its keyword. -/
theorem overflowsOn_angles {next : DataType → Rule DataType} (keyword : Keyword) (word context : String)
    (h : element.OverflowsOn inner) (rest : List Lexeme) :
    (do advance; symbol .less context; let first ← element; next first : Rule DataType).OverflowsOn
      (⟨.keyword keyword, word⟩ :: ⟨.punctuation .less, "<"⟩ :: (inner ++ rest)) :=
  (readsOn_advance (by simp)).bind_overflowsOn fun _ =>
    (readsOn_symbol context rfl (by decide)).bind_overflowsOn fun _ => h.bind

theorem overflowsOn_map_key {key : DataType} (h : element.OverflowsOn key.lexemes) (value : DataType) :
    (Grammar.typeOf element).OverflowsOn (map key value).lexemes :=
  overflowsOn_kind (overflowsOn_angles _ _ _ h _)

theorem overflowsOn_map_value {key value : DataType} (first : element.ReadsOn key.lexemes)
    (h : element.OverflowsOn value.lexemes) :
    (Grammar.typeOf element).OverflowsOn (map key value).lexemes :=
  overflowsOn_kind <| (readsOn_advance (by simp)).bind_overflowsOn fun _ =>
    (readsOn_symbol _ rfl (by decide)).bind_overflowsOn fun _ => first.bind_overflowsOn fun _ =>
      (readsOn_symbol _ rfl (by decide)).bind_overflowsOn fun _ => h.bind

theorem overflowsOn_list {inside : DataType} (h : element.OverflowsOn inside.lexemes) :
    (Grammar.typeOf element).OverflowsOn (list inside).lexemes :=
  overflowsOn_kind (overflowsOn_angles _ _ _ h _)

theorem overflowsOn_set {inside : DataType} (h : element.OverflowsOn inside.lexemes) :
    (Grammar.typeOf element).OverflowsOn (set inside).lexemes :=
  overflowsOn_kind (overflowsOn_angles _ _ _ h _)

/-- A type that is nested too deeply halts the rule on its lexemes. -/
theorem overflowsOn_lexemes {type : DataType} {levels : Nat} (deep : levels < type.depth) :
    (Grammar.typeWithin levels).OverflowsOn type.lexemes := by
  induction levels generalizing type with
  | zero =>
    cases type with
    | native | custom => exact absurd deep (Nat.lt_irrefl 0)
    | map key value => exact overflowsOn_map_key (overflowsOn_tooDeep _) value
    | list element => exact overflowsOn_list (overflowsOn_tooDeep _)
    | set element => exact overflowsOn_set (overflowsOn_tooDeep _)
  | succ levels ih =>
    cases type with
    | native | custom => exact absurd deep (Nat.not_lt_zero _)
    | map key value =>
      -- The key is read first, so it is the one that is reported if both are too deep.
      by_cases within : key.depth ≤ levels
      · have deeper : levels < value.depth :=
          (lt_max_iff.1 (Nat.lt_of_succ_lt_succ deep)).resolve_left (Nat.not_lt.2 within)
        exact overflowsOn_map_value (fun _ _ covers => ⟨key, reads_lexemes within covers⟩) (ih deeper)
      · exact overflowsOn_map_key (ih (Nat.not_le.1 within)) value
    | list element => exact overflowsOn_list (ih (Nat.lt_of_succ_lt_succ deep))
    | set element => exact overflowsOn_set (ih (Nat.lt_of_succ_lt_succ deep))

end

/-! ### Written types are read back -/

/-- **Written types are read back.**  The written form of a type, whatever the name of a class in it, is
cut into tokens without a complaint.  If no more collection types stand inside one another than there may
be, then the rule for types takes all of these tokens, reports nothing, and reads the type; and otherwise
it halts with a single report, that collections are nested too deeply. -/
theorem dataType_of_render (type : DataType) :
    (tokenize type.render).diagnostics = [] ∧
      (type.depth ≤ maxNesting → ∃ after, after.stream.ahead = [] ∧
        Grammar.dataType.run (Parser.ofTokens (tokenize type.render).tokens).start =
          ⟨.ok type, after, []⟩) ∧
      (maxNesting < type.depth → ∃ after report,
        Grammar.dataType.run (Parser.ofTokens (tokenize type.render).tokens).start =
            ⟨.error .recorded, after, [report]⟩ ∧
          report.problem.message = "collection nesting too deep") := by
  obtain ⟨after, covers, done⟩ := type.writes_render.covers
  refine ⟨(tokenize_of_writes type.writes_render).2, fun within => ⟨after, done, ?_⟩, fun deep => ?_⟩
  · exact reads_lexemes within covers
  · obtain ⟨last, place, halts⟩ := overflowsOn_lexemes deep _ _ covers
    exact ⟨last, _, halts, rfl⟩

/-- A map of lists, under the name of a class that has a quote in it. -/
def quotedMap : DataType := .map (.custom "it's") (.list (.native .int))

/-- One list too many. -/
def deepList : DataType := (DataType.list)^[101] (.native .int)

theorem dataType_of_render_quotedMap :
    (quotedMap.depth ≤ maxNesting ∧ ∃ after, after.stream.ahead = [] ∧
        Grammar.dataType.run (Parser.ofTokens (tokenize quotedMap.render).tokens).start =
          ⟨.ok quotedMap, after, []⟩) ∧
      (maxNesting < deepList.depth ∧ ∃ after report,
        Grammar.dataType.run (Parser.ofTokens (tokenize deepList.render).tokens).start =
            ⟨.error .recorded, after, [report]⟩ ∧
          report.problem.message = "collection nesting too deep") := by
  have within : quotedMap.depth ≤ maxNesting := by decide
  have deep : maxNesting < deepList.depth := by decide +kernel
  exact ⟨⟨within, (dataType_of_render quotedMap).2.1 within⟩, deep, (dataType_of_render deepList).2.2 deep⟩

end DataType

end Cql
