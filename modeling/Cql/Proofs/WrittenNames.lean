/-
Written names are read back.

A name without quotes is a word, kept in lower case; a quoted name is kept as it is, and its quotes are
doubled when it is written.  So the written form of a name is one token again, a keyword if it was one;
and a dot or a parenthesis behind it does not change that.

* `Identifier.SpelledBy` — the texts of a name; `Identifier.SpelledBy.render` — one is its written form;
* `Phrase.Names`, `Rule.Recognizes.isSpelled` — the names in what is read are those of its tokens;
* `Identifier.SpelledBy.writes_append` — the token of a name, in front of what does not go on with it;
* `Rule.ReadsWhole` — a whole source is read, and nothing is reported;
* `Grammar.names_of_render` — **names, table names and selectors are read back**.
-/
import Cql.Proofs.LetterCase
import Cql.Proofs.Selections
import Cql.Proofs.ValueRoundTrip

namespace Cql

/-! ### Lower-case words -/

namespace Lowercase

/-- Letters of ASCII are lowered one by one. -/
theorem chars_of_ascii {cs : List Char} (ascii : ∀ c ∈ cs, c.toNat < 0x80) (before : List Char) :
    chars before cs = cs.map Char.toLower := by
  induction cs generalizing before with
  | nil => rfl
  | cons c cs ih =>
    obtain ⟨first, rest⟩ := List.forall_mem_cons.1 ascii
    have notSigma : c ≠ 'Σ' := by
      rintro rfl
      exact absurd first (by decide)
    rw [chars, if_neg notSigma, char, if_pos first, ih rest, List.map_cons, List.singleton_append]

end Lowercase

theorem Segment.ascii_of_isWordChar {c : Char} (h : isWordChar c = true) : c.toNat < 0x80 := by
  by_contra above
  have far (d : Char) (low : d.toNat < 0x80) : ¬ c.val ≤ d.val := fun le =>
    above (Nat.lt_of_le_of_lt (UInt32.le_iff_toNat_le.1 le) low)
  have underscore : c ≠ '_' := by
    rintro rfl
    exact above (by decide)
  simp only [isWordChar, Char.isAlphanum, underscore, decide_false, Bool.or_false, Bool.or_eq_true] at h
  rcases h with letter | digit
  · rcases Bool.or_eq_true_iff.1 letter with upper | lower
    · exact far 'Z' (by decide) (of_decide_eq_true upper).2
    · exact far 'z' (by decide) (of_decide_eq_true (Bool.and_eq_true_iff.1 lower).2)
  · exact far '9' (by decide) (of_decide_eq_true (Bool.and_eq_true_iff.1 digit).2)

namespace Lexical

/-- A word in lower case has the same letters. -/
theorem sameLetters_lowercase {text : String} (mem : text.toList ∈ word) :
    SameLetters text.toList (Lowercase.text text).toList := by
  have ascii : ∀ c ∈ text.toList, c.toNat < 0x80 := fun c inside =>
    Segment.ascii_of_isWordChar (isWordChar_of_mem_word mem c inside)
  rw [Lowercase.text, String.toList_ofList, Lowercase.chars_of_ascii ascii, SameLetters, List.map_map]
  exact List.map_congr_left fun c _ => (toLower_toLower c).symm

theorem mem_word_of_sameLetters {text text' : List Char} (same : SameLetters text text')
    (mem : text ∈ word) : text' ∈ word := by
  obtain ⟨c, rest, rfl, letter, all⟩ := mem_word.1 mem
  obtain ⟨d, rest', rfl, first, others⟩ := same.exists_cons
  have isAlpha : CaseBlind Char.isAlpha := by decide
  have allWords : rest.all Segment.isWordChar = rest'.all Segment.isWordChar :=
    others.congr (f := fun cs => cs.all Segment.isWordChar) fun cs => by
      rw [List.all_map]
      exact congrArg cs.all (funext Segment.caseBlind_isWordChar.toLower)
  refine mem_word.2 ⟨d, rest', rfl, by rwa [← isAlpha.eq first], List.all_eq_true.1 ?_⟩
  rw [← allWords]
  exact List.all_eq_true.2 all

end Lexical

/-! ### How names are spelled -/

namespace Identifier

/-- The text spells the name: it is a word and no reserved keyword, or it stands in quotes and is not
empty. -/
inductive SpelledBy : String → Identifier → Prop
  | word {text : String} (mem : text.toList ∈ Lexical.word)
      (free : ∀ keyword, Keyword.ofWord? text = some keyword → keyword.isUnreserved = true) :
      SpelledBy text (unquoted text)
  | quotes {text : String} (nonempty : text ≠ "") : SpelledBy (Quoted.render '"' text) (quoted text)

namespace SpelledBy

variable {name : Identifier} {text : String}

/-- Only such texts are tokens that stand for a name. -/
theorem of_spells {kind : TokenKind} (spells : Lexical.Spells text.toList kind)
    (sound : kind.problem? = none) (seen : ofLexeme? ⟨kind, text⟩ = some name) : SpelledBy text name := by
  generalize same : text.toList = cs at spells
  cases spells with
  | keyword mem upper =>
    rename_i keyword
    rw [← same, String.ofList_toList] at upper
    simp only [ofLexeme?] at seen
    split at seen
    · rename_i unreserved
      obtain rfl := Option.some.inj seen
      refine .word (by rwa [same]) fun other found => ?_
      obtain rfl := Option.some.inj (found.symm.trans (Keyword.ofWord?_eq_some.2 upper))
      exact unreserved
    · cases seen
  | identifier mem other =>
    obtain rfl := Option.some.inj seen
    subst same
    rw [String.ofList_toList] at other ⊢
    exact .word mem fun keyword found => absurd (Keyword.ofWord?_eq_some.1 found) (other keyword)
  | quotedName value =>
    obtain rfl := Option.some.inj seen
    obtain rfl := String.toList_injective same
    refine .quotes fun empty => ?_
    rw [TokenKind.problem?, if_pos empty] at sound
    cases sound
  | integer | float | hex | string | mark => cases seen

/-- The written form of a name spells it again. -/
theorem render (h : SpelledBy text name) : SpelledBy name.render name := by
  cases h with
  | word mem free =>
    have same := Lexical.sameLetters_lowercase mem
    have again : SpelledBy (Lowercase.text text) (unquoted (Lowercase.text text)) :=
      .word (Lexical.mem_word_of_sameLetters same mem) (by rwa [← Keyword.ofWord?_congr same])
    have kept : unquoted (Lowercase.text text) = unquoted text :=
      congrArg (Identifier.mk · false) (Lowercase.text_congr same).symm
    rwa [kept] at again
  | quotes nonempty => exact .quotes nonempty

end SpelledBy

/-- Some text spells the name. -/
def IsSpelled (name : Identifier) : Prop := ∃ text, SpelledBy text name

/-- The name is quoted, or in lower case. -/
def IsFolded (name : Identifier) : Prop := name.isQuoted = false → Lowercase.text name.text = name.text

theorem IsSpelled.folded {name : Identifier} : name.IsSpelled → name.IsFolded := by
  rintro ⟨_, _ | _⟩ plain
  · rename_i mem _
    exact (Lowercase.text_congr (Lexical.sameLetters_lowercase mem)).symm
  · cases plain

theorem isSpelled_iff {name : Identifier} : name.IsSpelled ↔ SpelledBy name.render name :=
  ⟨fun ⟨_, spelled⟩ => spelled.render, fun spelled => ⟨_, spelled⟩⟩

/-- What is read without a complaint and stands for a name spells it. -/
theorem isSpelled_of_segment {text after : List Char} {segment : Segment} {kind : TokenKind}
    (reads : Segment.Reads text after segment) (content : segment.content = .token kind)
    (sound : segment.problem = none) {name : Identifier}
    (seen : ofLexeme? ⟨kind, String.ofList text⟩ = some name) : name.IsSpelled := by
  cases reads with
  | blank | comment | stray => cases content
  | unclosed => cases sound
  | uuid =>
    cases content
    cases seen
  | token spells =>
    cases content
    exact ⟨_, .of_spells (by rwa [String.toList_ofList]) sound seen⟩

/-- A name among the tokens of a source that is cut without a complaint. -/
theorem isSpelled_of_mem_bodyOf {source : String} (silent : (tokenize source).diagnostics = [])
    {token : Token} (mem : token ∈ bodyOf source) {name : Identifier}
    (seen : ofLexeme? token.toLexeme = some name) : name.IsSpelled := by
  obtain ⟨piece, mem, made⟩ := List.mem_filterMap.1 mem
  have sound : piece.segment.problem = none :=
    Option.map_eq_none_iff.1 (List.filterMap_eq_nil_iff.1 silent piece mem)
  obtain ⟨before, after, standing⟩ := at_of_mem_pieces mem
  obtain ⟨content, same⟩ := Piece.token?_eq_some.1 made
  rw [same] at seen
  exact isSpelled_of_segment standing.reads content sound seen

end Identifier

/-- The names in a table name. -/
def TableName.names (name : TableName) : List Identifier := name.keyspace.toList ++ [name.table]

namespace Phrase

variable {α : Type}

/-- The names in what the phrase stands for are names of its tokens. -/
def Names (phrase : Phrase α) (names : α → List Identifier) : Prop :=
  ∀ items a, phrase items a → ∀ name ∈ names a, ∃ item ∈ items,
    Identifier.ofLexeme? item.lexeme = some name

theorem names_identifier : Language.identifier.Names fun name => [name] := by
  rintro items name ⟨item, rfl, seen⟩ other mem
  obtain rfl := List.mem_singleton.1 mem
  exact ⟨item, List.mem_singleton_self item, seen⟩

theorem names_tableName : Language.tableName.Names TableName.names := by
  rintro items table (⟨front, keyspace, rest, rfl, first, behind⟩ | ⟨front, name, rest, rfl, first, rfl, rfl⟩)
    other mem
  · obtain ⟨dot, rest, rfl, -, last, name, nothing, rfl, second, rfl, rfl⟩ := ofKind_bind_iff.1 behind
    rcases List.mem_pair.1 mem with rfl | rfl
    · obtain ⟨item, mem, seen⟩ := names_identifier _ _ first _ List.mem_cons_self
      exact ⟨item, by simp [mem], seen⟩
    · obtain ⟨item, mem, seen⟩ := names_identifier _ _ second _ List.mem_cons_self
      exact ⟨item, by simp [mem], seen⟩
  · obtain ⟨item, mem, seen⟩ := names_identifier _ _ first _ mem
    exact ⟨item, by simp [mem], seen⟩

theorem names_functionArgument : Language.functionArgument.Names fun name => [name] := by
  intro items name spelled other mem
  obtain ⟨opening, rest, rfl, -, front, column, back, rfl, first, behind⟩ := ofKind_bind_iff.1 spelled
  obtain ⟨closing, _, rfl, -, rfl, rfl⟩ := ofKind_bind_iff.1 behind
  obtain ⟨item, mem, seen⟩ := names_identifier _ _ first _ mem
  exact ⟨item, by simp [mem], seen⟩

theorem names_selector : Language.selector.Names fun selector => [selector.target] := by
  have called {keyword : Keyword} {call : Identifier → Selector} (target : ∀ name, (call name).target = name) :
      (do word keyword; return call (← Language.functionArgument) : Phrase Selector).Names
        fun selector => [selector.target] := by
    intro items selector spelled other mem
    obtain ⟨item, rest, rfl, -, front, column, nothing, rfl, argument, rfl, rfl⟩ := ofKind_bind_iff.1 spelled
    simp only [target] at mem
    obtain ⟨item, mem, seen⟩ := names_functionArgument _ _ argument _ mem
    exact ⟨item, by simp [mem], seen⟩
  rintro items selector (spelled | spelled | spelled)
  · exact called (fun _ => rfl) items selector spelled
  · exact called (fun _ => rfl) items selector spelled
  · obtain ⟨column, named, rfl⟩ := map_iff.1 spelled
    exact names_identifier items column named

end Phrase

/-! ### Names that are read -/

namespace Rule

variable {α : Type} {rule : Rule α} {phrase : Phrase α} {follow : TokenKind → Prop}
  {names : α → List Identifier}

/-- The names in what is read among the tokens of a source that is cut without a complaint. -/
theorem Recognizes.isSpelled (recognizes : rule.Recognizes phrase follow) (quiet : rule.Quiet)
    (named : phrase.Names names) {source : String} (silent : (tokenize source).diagnostics = [])
    {state : State} (tokens : state.stream.tokens = (tokenize source).tokens) {a : α}
    (found : (rule.run state).result = .ok a) : ∀ name ∈ names a, name.IsSpelled := by
  intro name mem
  obtain ⟨items, spelled, among⟩ := recognizes.exists_items quiet tokens found
  obtain ⟨item, inside, seen⟩ := named items a spelled name mem
  obtain ⟨token, mem, same⟩ := among item inside
  exact Identifier.isSpelled_of_mem_bodyOf silent mem (by rwa [same])

/-- The rule reads the whole source as this: the source is cut without a complaint, and the rule takes all
its tokens and reports nothing. -/
def ReadsWhole (rule : Rule α) (source : String) (a : α) : Prop :=
  (tokenize source).diagnostics = [] ∧ ∃ after, after.stream.ahead = [] ∧
    rule.run (Parser.ofTokens (tokenize source).tokens).start = ⟨.ok a, after, []⟩

/-- What is recognized up to the end of input is read from its lexemes. -/
theorem Recognizes.readsWhole (recognizes : rule.Recognizes phrase follow) (ends : follow .endOfInput)
    {source : String} {lexemes : List Lexeme} (writes : Writes source.toList lexemes) {a : α}
    (spelled : phrase.Spelled lexemes (· = a)) : rule.ReadsWhole source a := by
  obtain ⟨after, ⟨items, passes, same⟩, done⟩ := writes.covers
  obtain ⟨_, holds, rfl⟩ := spelled items same
  refine ⟨(tokenize_of_writes writes).2, after, done, recognizes.complete _ _ _ _ passes holds ?_⟩
  rwa [State.kind_of_ahead_nil done]

end Rule

/-! ### Names with something behind them -/

namespace Segment

/-- Is it a character that neither a name nor a UUID goes on with? -/
def endsName (s : Char) : Bool := !isWordChar s && s ≠ '"' && s ≠ '-'

theorem endsName_of_breaks {s : Char} (stops : breaks s = true) : endsName s = true := by
  have notQuote : s ≠ '"' := ne_of_breaks stops rfl
  have notHyphen : s ≠ '-' := ne_of_breaks stops rfl
  simp [endsName, isWordChar_of_stopsRuns (stopsRuns_of_breaks stops), notQuote, notHyphen]

theorem endsName_iff {s : Char} : endsName s = true ↔ isWordChar s = false ∧ s ≠ '"' ∧ s ≠ '-' := by
  simp [endsName, and_assoc]

end Segment

/-- A token in front of what does not go on with it. -/
theorem Writes.token_append {text tail rest : List Char} {c : Char} {kind : TokenKind} {lexemes : List Lexeme}
    (h : Writes rest lexemes) (split : text = c :: tail) (sound : kind.problem? = none)
    (first : ∀ more : List Char, (more.head?.all Segment.breaks = true) →
      Segment.first c (tail ++ (rest ++ more)) = ⟨text.length, .token kind, kind.problem?⟩) :
    Writes (text ++ rest) (⟨kind, String.ofList text⟩ :: lexemes) := by
  subst split
  intro start more stops
  obtain ⟨cut, same, tokens, silent⟩ := h (start + Bytes.size (c :: tail)) more stops
  have head := @pieces_append start (c :: tail) (rest ++ more) _ c (tail ++ (rest ++ more)) rfl
    (first more stops) rfl
  refine ⟨⟨start, c :: tail, ⟨(c :: tail).length, .token kind, kind.problem?⟩⟩ :: cut, ?_, ?_, ?_⟩
  · rw [List.append_assoc, head, same, Bytes.size_append, List.cons_append, Nat.add_assoc]
  · exact congrArg (⟨kind, String.ofList (c :: tail)⟩ :: ·) tokens
  · rw [List.filterMap_cons_none (by simp [Piece.diagnostic?, sound]), silent]

namespace Identifier.SpelledBy

variable {name : Identifier} {text : String}

/-- The token of a name, and where the scanner finds it: in front of what goes on neither with a word nor
with a quoted name, unless a UUID begins there. -/
theorem exists_first (h : SpelledBy text name) : ∃ kind c tail, text.toList = c :: tail ∧
    kind.problem? = none ∧ ofLexeme? ⟨kind, text⟩ = some name ∧
    ∀ rest : List Char, (∀ s ∈ rest.head?, Segment.isWordChar s = false ∧ s ≠ '"') →
      ¬ Segment.startsWith Segment.uuidForm (text.toList ++ rest) = true →
      Segment.first c (tail ++ rest) = ⟨text.toList.length, .token kind, kind.problem?⟩ := by
  cases h with
  | word mem free =>
    obtain ⟨c, tail, split, letter, others⟩ := Lexical.mem_word.1 mem
    have all : ∀ d ∈ c :: tail, Segment.isWordChar d = true := by
      rw [← split]
      exact Lexical.isWordChar_of_mem_word mem
    refine ⟨Segment.wordKind text.toList, c, tail, split, Segment.problem?_wordKind _, ?_,
      fun rest stops notUuid => ?_⟩
    · unfold Segment.wordKind
      rw [String.ofList_toList]
      cases found : Keyword.ofWord? text with
      | none => rfl
      | some keyword => simp [ofLexeme?, free keyword found]
    · rw [split, List.cons_append] at notUuid
      have gap : Segment.gap? c (tail ++ rest) = none :=
        Segment.gap?_of_test Char.isAlpha letter (by decide) (tail ++ rest)
      have notMinus : c ≠ '-' := by
        rintro rfl
        exact absurd letter (by decide)
      rw [Segment.first_eq_plain gap notUuid (Segment.not_isDigit_of_isAlpha letter) fun minus =>
          notMinus minus.1, Segment.plain, if_pos letter, Segment.word_eq, ← List.cons_append,
        Segment.takeWhile_append_of_stop all fun s mem => (stops s mem).1, split, Segment.ofKind,
        Segment.problem?_wordKind]
  | @quotes text nonempty =>
    have split : (Quoted.render '"' text).toList = '"' :: (Quoted.encode '"' text.toList ++ ['"']) := by
      simp [Quoted.render]
    refine ⟨.quotedName text, '"', _, split, if_neg nonempty, rfl, fun rest stops notUuid => ?_⟩
    rw [split, List.cons_append] at notUuid
    have alone : rest.head? ≠ some '"' := fun same => (stops '"' same).2 rfl
    rw [Segment.first_of_quote rfl notUuid (.inr rfl) rfl, if_neg (by decide), Segment.nameAfterQuote_eq,
      List.append_assoc, List.singleton_append, Quoted.read_encode _ _ _ alone, split]
    simp [Nat.add_comm]

/-- No UUID begins where a name does, if few hyphens come before something that no UUID goes on with. -/
theorem not_startsWith_uuidForm (h : SpelledBy text name) (front : List Char) {after : List Char}
    (few : front.count '-' < 4) (stops : ∀ s ∈ after.head?, Segment.isWordChar s = false ∧ s ≠ '-') :
    ¬ Segment.startsWith Segment.uuidForm (text.toList ++ (front ++ after)) = true := by
  cases h with
  | word mem =>
    have none : text.toList.count '-' = 0 :=
      @Lexical.count_hyphen_eq_zero Segment.isWordChar rfl _ (Lexical.isWordChar_of_mem_word mem)
    have cut : Segment.startsWith Segment.uuidForm (text.toList ++ (front ++ after)) =
        Segment.startsWith Segment.uuidForm (text.toList ++ front) := by
      cases after with
      | nil => rw [List.append_nil]
      | cons s after =>
        obtain ⟨notWord, notHyphen⟩ := stops s rfl
        rw [← List.append_assoc, Segment.startsWith_uuidForm_append _ notWord notHyphen]
    rw [cut, Lexical.startsWith_uuidForm_iff]
    rintro ⟨uuid, mem, within⟩
    have many := Lexical.count_hyphen_of_uuid mem
    have le := within.sublist.count_le '-'
    rw [List.count_append, none] at le
    omega
  | @quotes text =>
    have split : (Quoted.render '"' text).toList = '"' :: (Quoted.encode '"' text.toList ++ ['"']) := by
      simp [Quoted.render]
    rw [split]
    exact Bool.false_ne_true

/-- A name in front of what goes on neither with a word nor with a quoted name, where no UUID begins. -/
theorem writes_of_stops (h : SpelledBy text name) {rest : List Char} {lexemes : List Lexeme}
    (writes : Writes rest lexemes)
    (stops : ∀ more : List Char, (more.head?.all Segment.breaks = true) →
      (∀ s ∈ (rest ++ more).head?, Segment.isWordChar s = false ∧ s ≠ '"') ∧
      ¬ Segment.startsWith Segment.uuidForm (text.toList ++ (rest ++ more)) = true) :
    ∃ kind, ofLexeme? ⟨kind, text⟩ = some name ∧ Writes (text.toList ++ rest) (⟨kind, text⟩ :: lexemes) := by
  obtain ⟨kind, c, tail, split, sound, seen, first⟩ := h.exists_first
  have written := writes.token_append split sound fun more breaks =>
    first (rest ++ more) (stops more breaks).1 (stops more breaks).2
  rw [String.ofList_toList] at written
  exact ⟨kind, seen, written⟩

/-- A name alone, or a name and what does not go on with it. -/
theorem writes_append (h : SpelledBy text name) {rest : List Char} {lexemes : List Lexeme}
    (writes : Writes rest lexemes) (ends : rest.head?.all Segment.endsName = true) :
    ∃ kind, ofLexeme? ⟨kind, text⟩ = some name ∧ Writes (text.toList ++ rest) (⟨kind, text⟩ :: lexemes) := by
  refine h.writes_of_stops writes fun more breaks => ?_
  have stops : ∀ s ∈ (rest ++ more).head?, Segment.isWordChar s = false ∧ s ≠ '"' ∧ s ≠ '-' := by
    intro s mem
    refine Segment.endsName_iff.1 ?_
    cases rest with
    | nil => exact Segment.endsName_of_breaks ((Option.all_eq_true _ _).1 breaks s mem)
    | cons d rest => exact (Option.all_eq_true _ _).1 ends s mem
  refine ⟨fun s mem => ⟨(stops s mem).1, (stops s mem).2.1⟩, ?_⟩
  exact h.not_startsWith_uuidForm [] (by decide) fun s mem => ⟨(stops s mem).1, (stops s mem).2.2⟩

theorem writes (h : SpelledBy text name) :
    ∃ kind, ofLexeme? ⟨kind, text⟩ = some name ∧ Writes text.toList [⟨kind, text⟩] := by
  obtain ⟨kind, seen, written⟩ := h.writes_append .nil rfl
  rw [List.append_nil] at written
  exact ⟨kind, seen, written⟩

end Identifier.SpelledBy

/-! ### Written names are read back -/

/-- A reply with a value that is written so. -/
theorem Reply.exists_of_render {α : Type} {reply : Reply α} {render : α → String} {text : String}
    (h : reply.result.toOption.map render = some text) : ∃ a, reply.result = .ok a ∧ render a = text := by
  cases found : reply.result with
  | error halt => simp [found, Except.toOption] at h
  | ok a => exact ⟨a, rfl, by simpa [found, Except.toOption] using h⟩

namespace Grammar

open Phrase

variable {name : Identifier} {lexeme : Lexeme}

theorem spelled_identifier (seen : Identifier.ofLexeme? lexeme = some name) :
    Language.identifier.Spelled [lexeme] (· = name) :=
  .token fun _ => ⟨name, seen, rfl⟩

/-- A name, and what comes after it. -/
theorem spelled_identifier_bind {α : Type} {next : Identifier → Phrase α} {rest : List Lexeme} {P : α → Prop}
    (seen : Identifier.ofLexeme? lexeme = some name) (second : (next name).Spelled rest P) :
    (Language.identifier >>= next).Spelled (lexeme :: rest) P := by
  refine (spelled_identifier seen).bind fun _ same => ?_
  rwa [same]

theorem readsWhole_identifier (spelled : name.IsSpelled) (context : String) :
    (identifier context).ReadsWhole name.render name := by
  obtain ⟨kind, seen, writes⟩ := (Identifier.isSpelled_iff.1 spelled).writes
  exact (recognizes_identifier context).readsWhole trivial writes (spelled_identifier seen)

theorem readsWhole_tableName {table : TableName} (spelled : ∀ name ∈ table.names, name.IsSpelled) :
    tableName.ReadsWhole table.render table := by
  obtain ⟨keyspace, name⟩ := table
  obtain ⟨kind, seen, writes⟩ := (Identifier.isSpelled_iff.1 (spelled name (by simp [TableName.names]))).writes
  cases keyspace with
  | none =>
    have words : Language.tableName.Spelled [⟨kind, name.render⟩] (· = ⟨none, name⟩) := by
      refine .orElse_right ?_
      exact (spelled_identifier seen).map fun _ same => congrArg (TableName.mk none) same
    exact recognizes_tableName.readsWhole (by decide) writes words
  | some keyspace =>
    have dotted : Writes ('.' :: name.render.toList) (⟨.punctuation .dot, "."⟩ :: [⟨kind, name.render⟩]) :=
      writes.mark fun _ _ => rfl
    obtain ⟨kind', seen', writes'⟩ :=
      (Identifier.isSpelled_iff.1 (spelled keyspace (by simp [TableName.names]))).writes_append dotted rfl
    have words : Language.tableName.Spelled
        (⟨kind', keyspace.render⟩ :: ⟨.punctuation .dot, "."⟩ :: [⟨kind, name.render⟩])
        (· = ⟨some keyspace, name⟩) := by
      refine .orElse_left ?_
      refine spelled_identifier_bind seen' (.ofKind_bind rfl ?_)
      exact spelled_identifier_bind seen (.pure rfl)
    refine recognizes_tableName.readsWhole (by decide) ?_ words
    simpa [TableName.render] using writes'

/-- A name in parentheses. -/
theorem exists_argument (spelled : name.IsSpelled) :
    ∃ lexemes, Writes ('(' :: (name.render.toList ++ [')'])) lexemes ∧
      Language.functionArgument.Spelled lexemes (· = name) := by
  obtain ⟨kind, seen, writes⟩ := (Identifier.isSpelled_iff.1 spelled).writes
  have closing : Writes [')'] [⟨.punctuation .rightParen, ")"⟩] := Writes.nil.mark fun _ _ => rfl
  refine ⟨_, (writes.append closing rfl).mark fun _ _ => rfl, ?_⟩
  exact .ofKind_bind rfl (spelled_identifier_bind seen (.ofKind_bind rfl (.pure rfl)))

/-- A call of a function of one column. -/
theorem readsWhole_call (keyword : Keyword) (word : String) (mem : word.toList ∈ Lexical.word)
    (same : Keyword.ofWord? word = some keyword) {call : Identifier → Selector} (spelled : name.IsSpelled)
    (words : ∀ lexemes, Language.functionArgument.Spelled lexemes (· = name) →
      Language.selector.Spelled (⟨.keyword keyword, word⟩ :: lexemes) (· = call name)) :
    selector.ReadsWhole (word ++ "(" ++ name.render ++ ")") (call name) := by
  obtain ⟨lexemes, writes, argument⟩ := exists_argument spelled
  refine recognizes_selector.readsWhole (by decide) ?_ (words lexemes argument)
  simpa using (Writes.keyword mem same).append writes rfl

theorem readsWhole_selector {selector : Selector} (spelled : selector.target.IsSpelled) :
    Grammar.selector.ReadsWhole selector.render selector := by
  cases selector with
  | column name =>
    obtain ⟨kind, seen, writes⟩ := (Identifier.isSpelled_iff.1 spelled).writes
    have words : Language.selector.Spelled [⟨kind, name.render⟩] (· = .column name) :=
      .orElse_right (.orElse_right ((spelled_identifier seen).map fun _ same => congrArg Selector.column same))
    exact recognizes_selector.readsWhole (by decide) writes words
  | writeTime name =>
    refine readsWhole_call .WRITETIME "WRITETIME" ?_ (by decide +kernel) spelled
      fun lexemes argument => ?_
    · exact Lexical.mem_word.2 ⟨_, _, rfl, rfl, List.all_eq_true.1 rfl⟩
    · refine .orElse_left (.ofKind_bind rfl ?_)
      exact argument.map fun _ same => congrArg Selector.writeTime same
  | ttl name =>
    refine readsWhole_call .TTL "TTL" ?_ (by decide +kernel) spelled
      fun lexemes argument => ?_
    · exact Lexical.mem_word.2 ⟨_, _, rfl, rfl, List.all_eq_true.1 rfl⟩
    · refine .orElse_right (.orElse_left (.ofKind_bind rfl ?_))
      exact argument.map fun _ same => congrArg Selector.ttl same

theorem quiet_tableName : tableName.Quiet := by simp [tableName]

theorem quiet_selector : selector.Quiet := by
  simp [selector, atFunction, functionArgument]

/-- **Names, table names and selectors are read back.**  Let one of them be read among the tokens of a
source that is cut without a complaint.  Its written form is cut without a complaint too, and the same rule
takes all its tokens, reports nothing and reads the same: each name in it has the same text, and is quoted
if it was.  And names without quotes are in lower case. -/
theorem names_of_render {source : String} (silent : (tokenize source).diagnostics = []) {state : State}
    (tokens : state.stream.tokens = (tokenize source).tokens) :
    (∀ context name, ((identifier context).run state).result = .ok name →
      (∀ context', (identifier context').ReadsWhole name.render name) ∧ name.IsFolded) ∧
    (∀ table, (tableName.run state).result = .ok table →
      tableName.ReadsWhole table.render table ∧ ∀ name ∈ table.names, name.IsFolded) ∧
    ∀ item, (selector.run state).result = .ok item →
      selector.ReadsWhole item.render item ∧ item.target.IsFolded := by
  refine ⟨fun context name found => ?_, fun table found => ?_, fun item found => ?_⟩
  · have spelled := (recognizes_identifier context).isSpelled (quiet_identifier context) names_identifier
      silent tokens found name List.mem_cons_self
    exact ⟨readsWhole_identifier spelled, spelled.folded⟩
  · have spelled := recognizes_tableName.isSpelled quiet_tableName names_tableName silent tokens found
    exact ⟨readsWhole_tableName spelled, fun name mem => (spelled name mem).folded⟩
  · have spelled := recognizes_selector.isSpelled quiet_selector names_selector silent tokens found _
      List.mem_cons_self
    exact ⟨readsWhole_selector spelled, spelled.folded⟩

theorem names_of_render_keywords :
    (∃ name, (identifier "").ReadsWhole "\"a.\"\"B\"" name) ∧
    (∃ table, tableName.ReadsWhole "count.\"ttl\"" table) ∧
    ∃ item, selector.ReadsWhole "WRITETIME(ttl)" item := by
  have silent : ∀ source ∈ ["\"a.\"\"B\"", "Count.\"ttl\"", "WriteTime(TTL)"],
      (tokenize source).diagnostics = [] := by decide +kernel
  refine ⟨?_, ?_, ?_⟩
  · have first : ((identifier "").run (Parser.ofTokens (tokenize "\"a.\"\"B\"").tokens).start
        ).result.toOption.map Identifier.render = some "\"a.\"\"B\"" := by decide +kernel
    obtain ⟨name, found, written⟩ := Reply.exists_of_render first
    refine ⟨name, ?_⟩
    rw [← written]
    exact ((names_of_render (silent _ (by simp)) (tokens_start_tokenize _)).1 "" _ found).1 ""
  · have second : (tableName.run (Parser.ofTokens (tokenize "Count.\"ttl\"").tokens).start
        ).result.toOption.map TableName.render = some "count.\"ttl\"" := by decide +kernel
    obtain ⟨table, found, written⟩ := Reply.exists_of_render second
    refine ⟨table, ?_⟩
    rw [← written]
    exact ((names_of_render (silent _ (by simp)) (tokens_start_tokenize _)).2.1 _ found).1
  · have third : (selector.run (Parser.ofTokens (tokenize "WriteTime(TTL)").tokens).start
        ).result.toOption.map Selector.render = some "WRITETIME(ttl)" := by decide +kernel
    obtain ⟨item, found, written⟩ := Reply.exists_of_render third
    refine ⟨item, ?_⟩
    rw [← written]
    exact ((names_of_render (silent _ (by simp)) (tokens_start_tokenize _)).2.2 _ found).1

end Grammar

end Cql
