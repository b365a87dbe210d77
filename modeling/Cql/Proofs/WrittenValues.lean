/-
The tokens of written values.

The written form of a value is cut into the tokens that the grammar has for it: whatever stands in a
string, and although a number or a word is followed by a comma or a bracket at once.  The grammar has
them for the value, but for the numbers of its bind markers, if no more collections stand inside one
another than there may be; and if more do, the rule for values halts on them.

* `Value.Writable`, `Value.depth` — the values that a text can stand for, and how deep they are;
* `Value.lexemes`, `Value.writes_render` — the tokens of a written value;
* `Value.spelled_lexemes`, `Value.overflowsOn_lexemes` — the grammar has them for the value, or the rule
  halts on them.
-/
import Cql.Proofs.Erasure
import Cql.Proofs.Nesting

namespace Cql

/-! ### Values that can be written -/

namespace Term

/-- The token of the written form of a term. -/
def lexeme : Term → Lexeme
  | string text => ⟨.string text, Quoted.render '\'' text⟩
  | integer digits => ⟨.integer digits, digits⟩
  | float digits => ⟨.float digits, digits⟩
  | boolean true => ⟨.keyword .TRUE, "true"⟩
  | boolean false => ⟨.keyword .FALSE, "false"⟩
  | uuid digits => ⟨.uuid digits, digits⟩
  | hex digits => ⟨.hex digits, digits⟩
  | marker _ => ⟨.punctuation .questionMark, "?"⟩

/-- A number, a UUID or a hexadecimal constant has a text of its class. -/
def WellFormed (term : Term) : Prop := term.lexeme.kind.WellFormed

theorem writes_render {term : Term} (wellFormed : term.WellFormed) :
    Writes term.render.toList [term.lexeme] := by
  cases term with
  | boolean value =>
    cases value <;>
      exact .keyword (Lexical.mem_word.2 ⟨_, _, rfl, rfl, List.all_eq_true.1 rfl⟩) (by decide +kernel)
  | marker ordinal => exact .token (.mark .questionMark) rfl
  | string text => exact @Writes.render (.string text) trivial rfl
  | integer digits => exact @Writes.render (.integer digits) wellFormed rfl
  | float digits => exact @Writes.render (.float digits) wellFormed rfl
  | uuid digits => exact @Writes.render (.uuid digits) wellFormed rfl
  | hex digits =>
    exact @Writes.render (.hex digits) wellFormed (TokenKind.problem?_eq_none wellFormed (by simp))

theorem spelled_lexeme (term : Term) : Language.scalar.Spelled [term.lexeme] (Agree term) := by
  cases term with
  | marker ordinal => exact .orElse_right (.token fun number => ⟨.marker number, rfl, rfl⟩)
  | boolean value =>
    cases value <;> exact .orElse_left (.token fun _ => ⟨_, rfl, BEq.rfl⟩)
  | _ => exact .orElse_left (.token fun _ => ⟨_, rfl, BEq.rfl⟩)

/-- The constant of a token has its kind. -/
theorem kind_lexeme_of_ofKind? {kind : TokenKind} {term : Term} (seen : ofKind? kind = some term) :
    term.lexeme.kind = kind := by
  unfold ofKind? at seen
  split at seen
  all_goals cases seen
  all_goals rfl

theorem isScalar_lexeme (term : Term) : Grammar.isScalar term.lexeme.kind = true := by
  cases term with
  | boolean value => cases value <;> rfl
  | _ => rfl

end Term

namespace Value

/-- Terms are well-formed, and no set or map literal is empty. -/
inductive Writable : Value → Prop
  | term {term : Term} (wellFormed : term.WellFormed) : Writable (.term term)
  | emptyBraces : Writable .emptyBraces
  | list {items : List Value} (all : ∀ item ∈ items, Writable item) : Writable (.list items)
  | set {items : List Value} (nonempty : items ≠ []) (all : ∀ item ∈ items, Writable item) :
      Writable (.set items)
  | map {entries : List (Value × Value)} (nonempty : entries ≠ [])
      (keys : ∀ entry ∈ entries, Writable entry.1) (values : ∀ entry ∈ entries, Writable entry.2) :
      Writable (.map entries)

mutual

/-- How many collections stand inside one another. -/
def depth : Value → Nat
  | term _ => 0
  | list items | set items => depthOfItems items + 1
  | map entries => depthOfEntries entries + 1
  | emptyBraces => 1

def depthOfItems : List Value → Nat
  | [] => 0
  | item :: items => max item.depth (depthOfItems items)

def depthOfEntries : List (Value × Value) → Nat
  | [] => 0
  | (key, value) :: entries => max (max key.depth value.depth) (depthOfEntries entries)

end

theorem depthOfItems_le_iff {items : List Value} {levels : Nat} :
    depthOfItems items ≤ levels ↔ ∀ item ∈ items, item.depth ≤ levels := by
  induction items with
  | nil => simp [depthOfItems]
  | cons item items ih => simp [depthOfItems, ih]

theorem depthOfEntries_le_iff {entries : List (Value × Value)} {levels : Nat} :
    depthOfEntries entries ≤ levels ↔
      ∀ entry ∈ entries, entry.1.depth ≤ levels ∧ entry.2.depth ≤ levels := by
  induction entries with
  | nil => simp [depthOfEntries]
  | cons entry entries ih =>
    obtain ⟨key, value⟩ := entry
    simp [depthOfEntries, ih, and_assoc]

/-! ### The tokens of a written value -/

mutual

/-- The lexemes of the written form of a value. -/
def lexemes : Value → List Lexeme
  | term t => [t.lexeme]
  | list items =>
    ⟨.punctuation .leftBracket, "["⟩ ::
      ([commaLexeme].intercalate (lexemesOfItems items) ++ [⟨.punctuation .rightBracket, "]"⟩])
  | set items =>
    ⟨.punctuation .leftBrace, "\x7b"⟩ ::
      ([commaLexeme].intercalate (lexemesOfItems items) ++ [⟨.punctuation .rightBrace, "\x7d"⟩])
  | map entries =>
    ⟨.punctuation .leftBrace, "\x7b"⟩ ::
      ([commaLexeme].intercalate (lexemesOfEntries entries) ++ [⟨.punctuation .rightBrace, "\x7d"⟩])
  | emptyBraces => [⟨.punctuation .leftBrace, "\x7b"⟩, ⟨.punctuation .rightBrace, "\x7d"⟩]

def lexemesOfItems : List Value → List (List Lexeme)
  | [] => []
  | item :: items => item.lexemes :: lexemesOfItems items

def lexemesOfEntries : List (Value × Value) → List (List Lexeme)
  | [] => []
  | (key, value) :: entries =>
    (key.lexemes ++ ⟨.punctuation .colon, ":"⟩ :: value.lexemes) :: lexemesOfEntries entries

end

/-- The lexemes of an entry of a map. -/
def entryLexemes (entry : Value × Value) : List Lexeme :=
  entry.1.lexemes ++ ⟨.punctuation .colon, ":"⟩ :: entry.2.lexemes

/-- The written form of an entry of a map. -/
def renderEntry (entry : Value × Value) : String := entry.1.render ++ ": " ++ entry.2.render

theorem lexemesOfItems_eq (items : List Value) : lexemesOfItems items = items.map lexemes := by
  induction items with
  | nil => rfl
  | cons item items ih => rw [lexemesOfItems, ih, List.map_cons]

theorem lexemesOfEntries_eq (entries : List (Value × Value)) :
    lexemesOfEntries entries = entries.map entryLexemes := by
  induction entries with
  | nil => rfl
  | cons entry entries ih =>
    obtain ⟨key, value⟩ := entry
    rw [lexemesOfEntries, ih, List.map_cons, entryLexemes]

theorem renderItems_eq (items : List Value) : renderItems items = items.map render := by
  induction items with
  | nil => rfl
  | cons item items ih => rw [renderItems, ih, List.map_cons]

theorem renderEntries_eq (entries : List (Value × Value)) :
    renderEntries entries = entries.map renderEntry := by
  induction entries with
  | nil => rfl
  | cons entry entries ih =>
    obtain ⟨key, value⟩ := entry
    rw [renderEntries, ih, List.map_cons, renderEntry]

/-- Parts are written one by one. -/
theorem forall₂_writes {α : Type} {items : List α} {render : α → String} {lexemes : α → List Lexeme}
    (h : ∀ item ∈ items, Writes (render item).toList (lexemes item)) :
    List.Forall₂ (fun text lexemes => Writes text.toList lexemes) (items.map render)
      (items.map lexemes) := by
  rw [List.forall₂_map_left_iff, List.forall₂_map_right_iff, List.forall₂_same]
  exact h

theorem writes_entry {entry : Value × Value} (key : Writes entry.1.render.toList entry.1.lexemes)
    (value : Writes entry.2.render.toList entry.2.lexemes) :
    Writes (renderEntry entry).toList (entryLexemes entry) := by
  have colon : Writes (':' :: ' ' :: entry.2.render.toList)
      (⟨.punctuation .colon, ":"⟩ :: entry.2.lexemes) := value.blank.mark fun _ _ => rfl
  simpa [renderEntry, entryLexemes] using key.append colon rfl

/-- The written form of a value is cut into its lexemes. -/
theorem writes_render {value : Value} (writable : value.Writable) :
    Writes value.render.toList value.lexemes := by
  have inBrackets {text : String} {lexemes : List Lexeme} (h : Writes text.toList lexemes) :
      Writes ('[' :: (text.toList ++ [']'])) (⟨.punctuation .leftBracket, "["⟩ ::
        (lexemes ++ [⟨.punctuation .rightBracket, "]"⟩])) := by
    have closing : Writes [']'] [⟨.punctuation .rightBracket, "]"⟩] := .token (.mark .rightBracket) rfl
    exact (h.append closing rfl).mark fun _ _ => rfl
  have inBraces {text : String} {lexemes : List Lexeme} (h : Writes text.toList lexemes) :
      Writes ('\x7b' :: (text.toList ++ ['\x7d'])) (⟨.punctuation .leftBrace, "\x7b"⟩ ::
        (lexemes ++ [⟨.punctuation .rightBrace, "\x7d"⟩])) := by
    have closing : Writes ['\x7d'] [⟨.punctuation .rightBrace, "\x7d"⟩] := .token (.mark .rightBrace) rfl
    exact (h.append closing rfl).mark fun _ _ => rfl
  induction writable with
  | term wellFormed => exact Term.writes_render wellFormed
  | emptyBraces =>
    have nothing : Writes "".toList [] := .nil
    exact inBraces nothing
  | @list items all ih =>
    have parts := Writes.intercalate (forall₂_writes ih)
    rw [← renderItems_eq, ← lexemesOfItems_eq] at parts
    simpa [render, lexemes] using inBrackets parts
  | @set items nonempty all ih =>
    have parts := Writes.intercalate (forall₂_writes ih)
    rw [← renderItems_eq, ← lexemesOfItems_eq] at parts
    simpa [render, lexemes] using inBraces parts
  | @map entries nonempty keys values ih ih' =>
    have parts := Writes.intercalate (forall₂_writes fun entry mem =>
      writes_entry (ih entry mem) (ih' entry mem))
    rw [← renderEntries_eq, ← lexemesOfEntries_eq] at parts
    simpa [render, lexemes] using inBraces parts

/-! ### The grammar of a written value -/

theorem forall₂_spelled {α : Type} [BEq α] {phrase : Phrase α} {lexemes : α → List Lexeme} {items : List α}
    (h : ∀ item ∈ items, phrase.Spelled (lexemes item) (Agree item)) :
    List.Forall₂ (fun part item => phrase.Spelled part (Agree item)) (items.map lexemes) items := by
  rw [List.forall₂_map_left_iff, List.forall₂_same]
  exact h

theorem spelled_entry {phrase : Phrase Value} {entry : Value × Value}
    (key : phrase.Spelled entry.1.lexemes (Agree entry.1))
    (value : phrase.Spelled entry.2.lexemes (Agree entry.2)) :
    (Language.mapEntry phrase).Spelled (entryLexemes entry) (Agree entry) :=
  key.bind fun _ keys => .ofKind_bind rfl (value.map fun _ values => keys.pair values)

/-- The lexemes of a value stand for an equal one, if no more levels are needed than there are. -/
theorem spelled_lexemes {value : Value} (writable : value.Writable) {levels : Nat}
    (within : value.depth ≤ levels) :
    (Language.valueWithin levels).Spelled value.lexemes (Agree value) := by
  induction writable generalizing levels with
  | @term term wellFormed =>
    have scalar : (.term <$> Language.scalar : Phrase Value).Spelled [term.lexeme] (Agree (.term term)) :=
      term.spelled_lexeme.map fun _ same => same
    cases levels with
    | zero => exact scalar
    | succ levels => exact .orElse_left scalar
  | emptyBraces =>
    cases levels with
    | zero => exact absurd within (Nat.not_succ_le_zero _)
    | succ levels =>
      exact .orElse_right (.orElse_right (.orElse_left (.ofKind_bind rfl (.ofKind_bind rfl (.pure rfl)))))
  | @list items all ih =>
    cases levels with
    | zero => exact absurd within (Nat.not_succ_le_zero _)
    | succ levels =>
      have within := depthOfItems_le_iff.1 (Nat.le_of_succ_le_succ within)
      have inside : (Phrase.commaSeparated (Language.valueWithin levels) <|> pure [] :
          Phrase (List Value)).Spelled ([commaLexeme].intercalate (lexemesOfItems items))
            (List.Forall₂ Agree items) := by
        rw [lexemesOfItems_eq]
        by_cases none : items = []
        · rw [none]
          exact .orElse_right (.pure .nil)
        · exact .orElse_left (.commaSeparated (by simpa using none)
            (forall₂_spelled fun item mem => ih item mem (within item mem)))
      exact .orElse_right (.orElse_left (.ofKind_bind rfl (inside.bind fun _ related =>
        .ofKind_bind rfl (.pure (sameItems_of_agree related)))))
  | @set items nonempty all ih =>
    cases levels with
    | zero => exact absurd within (Nat.not_succ_le_zero _)
    | succ levels =>
      have within := depthOfItems_le_iff.1 (Nat.le_of_succ_le_succ within)
      have inside : (Phrase.commaSeparated (Language.valueWithin levels)).Spelled
          ([commaLexeme].intercalate (lexemesOfItems items)) (List.Forall₂ Agree items) := by
        rw [lexemesOfItems_eq]
        exact .commaSeparated (by simpa using nonempty)
          (forall₂_spelled fun item mem => ih item mem (within item mem))
      exact .orElse_right (.orElse_right (.orElse_right (.orElse_left (.ofKind_bind rfl (inside.bind
        fun _ related => .ofKind_bind rfl (.pure (sameItems_of_agree related)))))))
  | @map entries nonempty keys values ih ih' =>
    cases levels with
    | zero => exact absurd within (Nat.not_succ_le_zero _)
    | succ levels =>
      have within := depthOfEntries_le_iff.1 (Nat.le_of_succ_le_succ within)
      have inside : (Phrase.commaSeparated (Language.mapEntry (Language.valueWithin levels))).Spelled
          ([commaLexeme].intercalate (lexemesOfEntries entries)) (List.Forall₂ Agree entries) := by
        rw [lexemesOfEntries_eq]
        exact .commaSeparated (by simpa using nonempty) (forall₂_spelled fun entry mem =>
          spelled_entry (ih entry mem (within entry mem).1) (ih' entry mem (within entry mem).2))
      exact .orElse_right (.orElse_right (.orElse_right (.orElse_right (.ofKind_bind rfl (inside.bind
        fun _ related => .ofKind_bind rfl (.pure (sameEntries_of_agree related)))))))

/-- A value within the levels is read on its lexemes, but for the numbers of its bind markers. -/
theorem reads_lexemes {value : Value} (writable : value.Writable) {levels : Nat}
    (within : value.depth ≤ levels) (context : String) {state after : State}
    (covers : state.Covers value.lexemes after) :
    ∃ value', (Grammar.valueWithin levels context).Reads state value' after ∧ Agree value value' :=
  (spelled_lexemes writable within).reads (Grammar.recognizes_valueWithin levels context) covers

/-! ### Values that are nested too deeply -/

/-- A written value begins with a token that opens a value. -/
theorem exists_head_lexemes (value : Value) : ∃ lexeme rest, value.lexemes = lexeme :: rest ∧
    Grammar.opensValue lexeme.kind = true := by
  cases value with
  | term term => exact ⟨_, _, rfl, by simp [Grammar.opensValue, term.isScalar_lexeme]⟩
  | _ => exact ⟨_, _, rfl, rfl⟩

/-- A written value does not begin with a token that opens no value. -/
theorem exists_head_append (value : Value) (rest : List Lexeme) {kind : TokenKind}
    (other : Grammar.opensValue kind = false) :
    ∃ lexeme, (value.lexemes ++ rest).head? = some lexeme ∧ lexeme.kind ≠ kind := by
  obtain ⟨lexeme, more, split, opens⟩ := value.exists_head_lexemes
  exact ⟨lexeme, by rw [split]; rfl, Phrase.ne_of_test opens other⟩

section

open Rule

variable {rule : String → Rule Value} (either : ∀ value : Value, value.Writable → ∀ context,
  (rule context).ReadsOn value.lexemes ∨ (rule context).OverflowsOn value.lexemes)

include either

theorem either_of_mem_map {items : List Value} (all : ∀ item ∈ items, item.Writable) (context : String) :
    ∀ part ∈ items.map lexemes, (rule context).ReadsOn part ∨ (rule context).OverflowsOn part :=
  List.forall_mem_map.2 fun item mem => either item (all item mem) context

/-- The key of an entry is read first, and its value only if the key is read. -/
theorem overflowsOn_mapEntry {entry : Value × Value} (key : entry.1.Writable)
    (deep : (∀ context, (rule context).OverflowsOn entry.1.lexemes) ∨
      ∀ context, (rule context).OverflowsOn entry.2.lexemes) :
    (Grammar.mapEntry rule).OverflowsOn (entryLexemes entry) := by
  rcases either entry.1 key "as map key" with reads | overflows
  · rcases deep with overflows | overflows
    · exact (overflows _).bind
    · exact reads.bind_overflowsOn fun _ => (readsOn_symbol _ rfl (by decide)).bind_overflowsOn fun _ =>
        (overflows _).andThen
  · exact overflows.bind

theorem either_mapEntry {entry : Value × Value} (key : entry.1.Writable) (value : entry.2.Writable) :
    (Grammar.mapEntry rule).ReadsOn (entryLexemes entry) ∨
      (Grammar.mapEntry rule).OverflowsOn (entryLexemes entry) := by
  rcases either entry.1 key "as map key" with reads | overflows
  · rcases either entry.2 value "as map value" with reads' | overflows'
    · refine .inl (reads.bind fun _ => (readsOn_symbol _ rfl (by decide)).bind fun _ => ?_)
      rw [← List.append_nil entry.2.lexemes]
      exact reads'.bind fun _ => readsOn_pure _
    · exact .inr (reads.bind_overflowsOn fun _ => (readsOn_symbol _ rfl (by decide)).bind_overflowsOn
        fun _ => overflows'.andThen)
  · exact .inr overflows.bind

theorem overflowsOn_list {items : List Value} (all : ∀ item ∈ items, item.Writable)
    (deep : ∃ item ∈ items, ∀ context, (rule context).OverflowsOn item.lexemes) :
    (Grammar.listLiteral rule).OverflowsOn (list items).lexemes := by
  obtain ⟨item, mem, overflows⟩ := deep
  obtain ⟨first, rest, rfl⟩ := List.exists_cons_of_ne_nil (List.ne_nil_of_mem mem)
  have inside : (commaSeparated (rule "in list literal")).OverflowsOn
      ([commaLexeme].intercalate (lexemesOfItems (first :: rest))) := by
    rw [lexemesOfItems_eq]
    exact overflowsOn_commaSeparated (either_of_mem_map either all _)
      ⟨_, List.mem_map_of_mem mem, overflows _⟩
  have closing : Grammar.opensValue (.punctuation .rightBracket) = false := rfl
  obtain ⟨lexeme, head, other⟩ := first.exists_head_append
    (((rest.map lexemes).flatMap fun part => commaLexeme :: part) ++ [⟨.punctuation .rightBracket, "]"⟩])
    closing
  rw [← List.append_assoc, ← intercalate_cons, ← List.map_cons, ← lexemesOfItems_eq] at head
  exact (readsOn_symbol _ rfl (by decide)).bind_overflowsOn fun _ =>
    overflowsOn_not_eaten head other inside.bind

/-- Behind an opening brace a value is read first, whichever literal it is. -/
theorem overflowsOn_bracedLiteral {first : Value} (writable : first.Writable) {rest : List Lexeme}
    (later : (∀ context, (rule context).OverflowsOn first.lexemes) ∨
      ∀ read, (do
        if ← eatMark .colon then
          let firstValue ← rule "as map value"
          let rest ← following (.punctuation .comma) (Grammar.mapEntry rule)
          symbol .rightBrace "to close map literal"
          return .map ((read, firstValue) :: rest)
        else
          let rest ← following (.punctuation .comma) (rule "in set literal")
          symbol .rightBrace "to close set literal"
          return .set (read :: rest) : Rule Value).OverflowsOn rest) :
    (Grammar.bracedLiteral rule).OverflowsOn
      (⟨.punctuation .leftBrace, "\x7b"⟩ :: (first.lexemes ++ rest)) := by
  have closing : Grammar.opensValue (.punctuation .rightBrace) = false := rfl
  obtain ⟨lexeme, head, other⟩ := first.exists_head_append rest closing
  refine (readsOn_symbol _ rfl (by decide)).bind_overflowsOn fun _ => overflowsOn_not_eaten head other ?_
  rcases either first writable "in collection literal" with reads | overflows
  · rcases later with overflows | overflows
    · exact (overflows _).bind
    · exact reads.bind_overflowsOn overflows
  · exact overflows.bind

theorem overflowsOn_set {items : List Value} (all : ∀ item ∈ items, item.Writable)
    (deep : ∃ item ∈ items, ∀ context, (rule context).OverflowsOn item.lexemes) :
    (Grammar.bracedLiteral rule).OverflowsOn (set items).lexemes := by
  obtain ⟨item, mem, overflows⟩ := deep
  obtain ⟨first, rest, rfl⟩ := List.exists_cons_of_ne_nil (List.ne_nil_of_mem mem)
  obtain ⟨writable, others⟩ := List.forall_mem_cons.1 all
  rw [lexemes, lexemesOfItems_eq, List.map_cons, intercalate_cons, List.append_assoc]
  refine overflowsOn_bracedLiteral either writable ?_
  rcases List.mem_cons.1 mem with rfl | mem
  · exact .inl overflows
  · -- Another value comes behind the first, so there is a comma in front of it and no colon.
    obtain ⟨next, more, rfl⟩ := List.exists_cons_of_ne_nil (List.ne_nil_of_mem mem)
    refine .inr fun read => overflowsOn_not_eaten rfl (by decide) ?_
    exact (overflowsOn_following (either_of_mem_map either others _)
      ⟨_, List.mem_map_of_mem mem, overflows _⟩).bind

theorem overflowsOn_map {entries : List (Value × Value)} (keys : ∀ entry ∈ entries, entry.1.Writable)
    (values : ∀ entry ∈ entries, entry.2.Writable)
    (deep : ∃ entry ∈ entries, (∀ context, (rule context).OverflowsOn entry.1.lexemes) ∨
      ∀ context, (rule context).OverflowsOn entry.2.lexemes) :
    (Grammar.bracedLiteral rule).OverflowsOn (map entries).lexemes := by
  obtain ⟨entry, mem, overflows⟩ := deep
  obtain ⟨first, rest, rfl⟩ := List.exists_cons_of_ne_nil (List.ne_nil_of_mem mem)
  obtain ⟨key, keys⟩ := List.forall_mem_cons.1 keys
  obtain ⟨value, values⟩ := List.forall_mem_cons.1 values
  rw [lexemes, lexemesOfEntries_eq, List.map_cons, intercalate_cons, entryLexemes, List.append_assoc,
    List.append_assoc, List.cons_append]
  refine overflowsOn_bracedLiteral either key ?_
  -- Behind the first key stand its value and the other entries, and either may be nested too deeply.
  have onward {lexemes : List Lexeme} {next : Value → Rule Value}
      (h : (∀ context, (rule context).OverflowsOn first.2.lexemes) ∨
        ∀ read, (next read).OverflowsOn lexemes) :
      (rule "as map value" >>= next).OverflowsOn (first.2.lexemes ++ lexemes) := by
    rcases either first.2 value "as map value" with reads | overflows
    · rcases h with overflows | overflows
      · exact (overflows _).bind
      · exact reads.bind_overflowsOn overflows
    · exact overflows.bind
  rcases List.mem_cons.1 mem with rfl | mem
  · rcases overflows with overflows | overflows
    · exact .inl overflows
    · exact .inr fun read => overflowsOn_eaten rfl (by decide) (onward (.inl overflows))
  · have later : (following (.punctuation .comma) (Grammar.mapEntry rule)).OverflowsOn
        ((rest.map entryLexemes).flatMap fun part => commaLexeme :: part) :=
      overflowsOn_following
        (List.forall_mem_map.2 fun entry mem => either_mapEntry either (keys entry mem) (values entry mem))
        ⟨_, List.mem_map_of_mem mem, overflowsOn_mapEntry either (keys entry mem) overflows⟩
    exact .inr fun read => overflowsOn_eaten rfl (by decide) (onward (.inr fun _ => later.bind))

end

theorem exists_deep_item {items : List Value} {levels : Nat} (deep : levels < depthOfItems items) :
    ∃ item ∈ items, levels < item.depth := by
  by_contra shallow
  simp only [not_exists, not_and, Nat.not_lt] at shallow
  exact absurd (depthOfItems_le_iff.2 shallow) (Nat.not_le.2 deep)

theorem exists_deep_entry {entries : List (Value × Value)} {levels : Nat}
    (deep : levels < depthOfEntries entries) :
    ∃ entry ∈ entries, levels < entry.1.depth ∨ levels < entry.2.depth := by
  by_contra shallow
  simp only [not_exists, not_and, not_or, Nat.not_lt] at shallow
  exact absurd (depthOfEntries_le_iff.2 shallow) (Nat.not_le.2 deep)

/-- A value that is nested too deeply halts the rule on its lexemes. -/
theorem overflowsOn_lexemes {value : Value} (writable : value.Writable) {levels : Nat}
    (deep : levels < value.depth) (context : String) :
    (Grammar.valueWithin levels context).OverflowsOn value.lexemes := by
  induction levels generalizing value context with
  | zero =>
    -- Any collection is one too many.
    cases writable with
    | term => exact absurd deep (Nat.lt_irrefl 0)
    | emptyBraces | list | set | map => exact Rule.overflowsOn_kind (Rule.overflowsOn_tooDeep _)
  | succ levels ih =>
    -- One level further in, a value is either shallow enough and read, or it halts the rule.
    have either (value : Value) (writable : value.Writable) (context : String) :
        (Grammar.valueWithin levels context).ReadsOn value.lexemes ∨
          (Grammar.valueWithin levels context).OverflowsOn value.lexemes := by
      by_cases within : value.depth ≤ levels
      · refine .inl fun state after covers => ?_
        obtain ⟨value', reads, -⟩ := reads_lexemes writable within context covers
        exact ⟨value', reads⟩
      · exact .inr (ih writable (Nat.not_le.1 within) context)
    cases writable with
    | term => exact absurd deep (Nat.not_lt_zero _)
    | emptyBraces => exact absurd deep (by simp [depth])
    | list all =>
      obtain ⟨item, mem, deeper⟩ := exists_deep_item (Nat.lt_of_succ_lt_succ deep)
      exact Rule.overflowsOn_kind (overflowsOn_list either all ⟨item, mem, ih (all item mem) deeper⟩)
    | set nonempty all =>
      obtain ⟨item, mem, deeper⟩ := exists_deep_item (Nat.lt_of_succ_lt_succ deep)
      exact Rule.overflowsOn_kind (overflowsOn_set either all ⟨item, mem, ih (all item mem) deeper⟩)
    | map nonempty keys values =>
      obtain ⟨entry, mem, deeper⟩ := exists_deep_entry (Nat.lt_of_succ_lt_succ deep)
      exact Rule.overflowsOn_kind (overflowsOn_map either keys values
        ⟨entry, mem, deeper.imp (ih (keys entry mem)) (ih (values entry mem))⟩)

end Value

end Cql
