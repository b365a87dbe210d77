/-
Written forms, token by token.

The written form of a value or a type is put together from the texts of tokens, with few blanks between
them.  That such a text is cut into those tokens, whatever comes after it, goes from its parts to the
whole, as long as each part ends where the scanner would not go on with what comes next.  The grammar
has the tokens for the value or the type, whatever the numbers of the bind markers among them.

* `Writes` — a text is cut into lexemes, in front of any character that breaks;
* `Writes.token`, `Writes.mark`, `Writes.blank`, `Writes.append` — how written forms are put together;
* `Writes.intercalate` — lists with a comma and a blank between each two of their items;
* `tokenize_of_writes` — **the tokens of a written form**;
* `State.Covers`, `Phrase.Spelled` — the lexemes ahead of a state, and what they stand for.
-/
import Cql.Proofs.BatchParts
import Cql.Proofs.DiagnosticSpans
import Cql.Proofs.Rendering

namespace Cql

open Bytes

/-- The text is cut into these lexemes, and nothing of it is reported, at the end of a source or in front
of a character that breaks. -/
def Writes (text : List Char) (lexemes : List Lexeme) : Prop :=
  ∀ (start : Nat) (more : List Char), (more.head?.all Segment.breaks = true) →
    ∃ cut, pieces start 0 (text ++ more) = cut ++ pieces (start + size text) 0 more ∧
      (cut.filterMap (·.token?)).map (·.toLexeme) = lexemes ∧ cut.filterMap (·.diagnostic?) = []

namespace Writes

variable {text front rest : List Char} {lexemes others : List Lexeme}

theorem nil : Writes [] [] := fun start more _ => ⟨[], by simp [size], rfl, rfl⟩

/-- A part that something follows, which begins with a character that breaks. -/
theorem append (first : Writes front lexemes) (second : Writes rest others)
    (stops : rest.head?.all Segment.breaks = true) : Writes (front ++ rest) (lexemes ++ others) := by
  intro start more stops'
  have next : (rest ++ more).head?.all Segment.breaks = true := by
    cases rest with
    | nil => exact stops'
    | cons s rest => exact stops
  -- What follows the first part is the second part, or what follows that if it is empty.
  obtain ⟨cut, same, tokens, silent⟩ := first start (rest ++ more) next
  obtain ⟨cut', same', tokens', silent'⟩ := second (start + size front) more stops'
  refine ⟨cut ++ cut', ?_, ?_, ?_⟩
  · rw [List.append_assoc, same, same', size_append, List.append_assoc, Nat.add_assoc]
  · rw [List.filterMap_append, List.map_append, tokens, tokens']
  · rw [List.filterMap_append, silent, silent', List.append_nil]

/-- A piece of one character in front, which the scanner reads whatever comes next. -/
theorem piece {c : Char} {segment : Segment} {lexeme? : Option Lexeme} (h : Writes rest lexemes)
    (one : segment.width = 1) (sound : segment.problem = none)
    (first : ∀ more : List Char, (more.head?.all Segment.breaks = true) →
      Segment.first c (rest ++ more) = segment)
    (read : ∀ start, (Piece.mk start [c] segment).token?.map (·.toLexeme) = lexeme?) :
    Writes (c :: rest) (lexeme?.toList ++ lexemes) := by
  intro start more stops
  obtain ⟨cut, same, tokens, silent⟩ := h (start + size [c]) more stops
  have head := @pieces_append start [c] (rest ++ more) _ c (rest ++ more) rfl (first more stops) one
  refine ⟨⟨start, [c], segment⟩ :: cut, ?_, ?_, ?_⟩
  · rw [same, Nat.add_assoc] at head
    exact head
  · rw [List.filterMap_cons, ← read start]
    cases (Piece.mk start [c] segment).token? with
    | none => exact tokens
    | some token => exact congrArg (token.toLexeme :: ·) tokens
  · rw [List.filterMap_cons_none (by simp [Piece.diagnostic?, sound]), silent]

/-- A mark that the scanner reads whatever comes next. -/
theorem mark {c : Char} {mark : Punctuation} (h : Writes rest lexemes)
    (first : ∀ more : List Char, (more.head?.all Segment.breaks = true) →
      Segment.first c (rest ++ more) = Segment.ofMark mark) :
    Writes (c :: rest) (⟨.punctuation mark, String.ofList [c]⟩ :: lexemes) :=
  @piece rest lexemes c (.ofMark mark) (some ⟨.punctuation mark, String.ofList [c]⟩) h rfl rfl first fun _ => rfl

theorem blank (h : Writes rest lexemes) : Writes (' ' :: rest) lexemes :=
  @piece rest lexemes ' ' ⟨1, .blank, none⟩ none h rfl rfl (fun _ _ => rfl) fun _ => rfl

/-- A text that is read as one token if it stands alone. -/
theorem of_first {c : Char} {kind : TokenKind} (split : text = c :: rest) (sound : kind.problem? = none)
    (first : Segment.first c rest = ⟨text.length, .token kind, kind.problem?⟩) :
    Writes text [⟨kind, String.ofList text⟩] := by
  subst split
  have alone (start : Nat) : pieces start 0 (c :: rest) =
      [⟨start, c :: rest, ⟨(c :: rest).length, .token kind, kind.problem?⟩⟩] := by
    have cut := @pieces_append start (c :: rest) [] _ c rest (List.append_nil _) first rfl
    rwa [List.append_nil, pieces_nil] at cut
  intro start more stops
  refine ⟨pieces start 0 (c :: rest), ?_, ?_, ?_⟩
  · cases more with
    | nil => rw [List.append_nil, pieces_nil, List.append_nil]
    | cons s more =>
      -- The text alone is a single piece, and a sound token is not gone on with by what breaks.
      refine pieces_append_break stops (fun piece mem => ?_) more
      rw [alone, List.mem_singleton] at mem
      rw [mem]
      exact ⟨by simp [Segment.Closed, sound], fun comment => by cases comment⟩
  · rw [alone]
    rfl
  · rw [alone]
    simp [Piece.diagnostic?, sound]

/-- A text that spells a token. -/
theorem token {kind : TokenKind} (spells : Lexical.Spells text kind) (sound : kind.problem? = none) :
    Writes text [⟨kind, String.ofList text⟩] := by
  obtain ⟨c, rest, split, first⟩ := Segment.first_of_spells spells
  exact of_first split sound first

/-- The written form of a token. -/
theorem render {kind : TokenKind} (wellFormed : kind.WellFormed) (sound : kind.problem? = none) :
    Writes kind.render.toList [⟨kind, kind.render⟩] := by
  obtain ⟨c, rest, split, first⟩ := Segment.first_of_render wellFormed
  have writes := of_first split sound first
  rwa [String.ofList_toList] at writes

/-- A word that names a keyword. -/
theorem keyword {text : String} {keyword : Keyword} (word : text.toList ∈ Lexical.word)
    (same : Keyword.ofWord? text = some keyword) : Writes text.toList [⟨.keyword keyword, text⟩] := by
  have writes := Writes.token (.keyword word (by
    rw [String.ofList_toList]
    exact Keyword.ofWord?_eq_some.1 same)) rfl
  rwa [String.ofList_toList] at writes

end Writes

/-- The lexeme of a comma. -/
def commaLexeme : Lexeme := ⟨.punctuation .comma, ","⟩

/-- A list with a comma between each two items. -/
theorem intercalate_cons (part : List Lexeme) (parts : List (List Lexeme)) :
    [commaLexeme].intercalate (part :: parts) =
      part ++ parts.flatMap fun part => commaLexeme :: part := by
  induction parts generalizing part with
  | nil => simp [List.intercalate]
  | cons next parts ih =>
    have step : [commaLexeme].intercalate (part :: next :: parts) =
        part ++ commaLexeme :: [commaLexeme].intercalate (next :: parts) := by
      simp [List.intercalate]
    rw [step, ih, List.flatMap_cons, List.cons_append]

/-- Items with a comma and a blank between each two. -/
theorem Writes.intercalate {texts : List String} {parts : List (List Lexeme)}
    (h : List.Forall₂ (fun text lexemes => Writes text.toList lexemes) texts parts) :
    Writes (", ".intercalate texts).toList ([commaLexeme].intercalate parts) := by
  induction h with
  | nil => exact .nil
  | @cons text lexemes texts parts first others ih =>
    cases others with
    | nil => simpa [String.toList_intercalate, List.intercalate] using first
    | @cons next lexemes' texts parts second others =>
      have spelled : (", ".intercalate (text :: next :: texts)).toList =
          text.toList ++ ',' :: ' ' :: (", ".intercalate (next :: texts)).toList := by
        simp [String.toList_intercalate, List.intercalate]
      have written : [commaLexeme].intercalate (lexemes :: lexemes' :: parts) =
          lexemes ++ commaLexeme :: [commaLexeme].intercalate (lexemes' :: parts) := by
        simp [List.intercalate]
      rw [spelled, written]
      have comma : Writes (',' :: ' ' :: (", ".intercalate (next :: texts)).toList)
          (commaLexeme :: [commaLexeme].intercalate (lexemes' :: parts)) := ih.blank.mark fun _ _ => rfl
      exact first.append comma rfl

/-- **The tokens of a written form.**  A source that is a written form is cut into its lexemes, and
nothing is reported. -/
theorem tokenize_of_writes {text : String} {lexemes : List Lexeme} (h : Writes text.toList lexemes) :
    (bodyOf text).map (·.toLexeme) = lexemes ∧ (tokenize text).diagnostics = [] := by
  obtain ⟨cut, same, tokens, silent⟩ := h 0 [] rfl
  rw [List.append_nil, pieces_nil, List.append_nil] at same
  constructor
  · rw [bodyOf, same]
    exact tokens
  · rw [tokenize, same]
    exact silent

/-! ### Reading a written form -/

/-- The second state comes from the first by passing tokens with these lexemes. -/
def State.Covers (state : State) (lexemes : List Lexeme) (after : State) : Prop :=
  ∃ items, state.Passes items after ∧ items.map (·.lexeme) = lexemes

namespace State.Covers

variable {state after : State} {front rest : List Lexeme} {lexeme : Lexeme}

theorem split (h : state.Covers (front ++ rest) after) :
    ∃ mid, state.Covers front mid ∧ mid.Covers rest after := by
  obtain ⟨items, passes, same⟩ := h
  obtain ⟨items₁, items₂, rfl, rfl, rfl⟩ := List.map_eq_append_iff.1 same
  obtain ⟨mid, first, second⟩ := passes.split
  exact ⟨mid, ⟨items₁, first, rfl⟩, ⟨items₂, second, rfl⟩⟩

theorem cons (h : state.Covers (lexeme :: rest) after) :
    state.kind ≠ .endOfInput ∧ state.lexeme 0 = lexeme ∧ state.next.Covers rest after := by
  obtain ⟨items, passes, same⟩ := h
  obtain ⟨item, items, rfl, rfl, rfl⟩ := List.map_eq_cons_iff.1 same
  obtain ⟨inside, rfl, others⟩ := State.Passes.cons_iff.1 passes
  exact ⟨inside, rfl, items, others, rfl⟩

theorem kind_eq (h : state.Covers (lexeme :: rest) after) : state.kind = lexeme.kind := by
  obtain ⟨-, same, -⟩ := h.cons
  rw [State.kind, same]

/-- A token that is no bind marker is passed by taking it. -/
theorem advance (h : state.Covers (lexeme :: rest) after) (plain : lexeme.kind ≠ .punctuation .questionMark) :
    state.advance.Covers rest after := by
  rw [← State.next_of_ne (by rwa [h.kind_eq])]
  exact h.cons.2.2

end State.Covers

/-- The lexemes of a written form are all that is ahead of a parser of its tokens. -/
theorem Writes.covers {text : String} {lexemes : List Lexeme} (h : Writes text.toList lexemes) :
    ∃ after, (Parser.ofTokens (tokenize text).tokens).start.Covers lexemes after ∧
      after.stream.ahead = [] := by
  have ahead : (Parser.ofTokens (tokenize text).tokens).start.stream.ahead = bodyOf text ++ [] := by
    rw [List.append_nil]
    exact congrArg TokenStream.ahead (ofTokens_tokenize text)
  obtain ⟨after, passes, done⟩ := State.passes_of_ahead ahead (lossless_body text).kinds
  exact ⟨after, ⟨_, passes, by rw [map_lexeme_number, (tokenize_of_writes h).1]⟩, done⟩

namespace Phrase

variable {α β : Type} {phrase other : Phrase α} {front rest : List Lexeme} {P : α → Prop} {Q : β → Prop}

/-- The lexemes stand for a value with the property, whatever their numbers. -/
def Spelled (phrase : Phrase α) (lexemes : List Lexeme) (P : α → Prop) : Prop :=
  ∀ items : List Numbered, items.map (·.lexeme) = lexemes → ∃ a, phrase items a ∧ P a

namespace Spelled

theorem pure {a : α} (h : P a) : (pure a : Phrase α).Spelled [] P :=
  fun _ none => ⟨a, ⟨List.map_eq_nil_iff.1 none, rfl⟩, h⟩

theorem bind {next : α → Phrase β} (first : phrase.Spelled front P)
    (second : ∀ a, P a → (next a).Spelled rest Q) : (phrase >>= next).Spelled (front ++ rest) Q := by
  intro items same
  obtain ⟨items₁, items₂, rfl, same₁, same₂⟩ := List.map_eq_append_iff.1 same
  obtain ⟨a, spelled, holds⟩ := first items₁ same₁
  obtain ⟨b, spelled', holds'⟩ := second a holds items₂ same₂
  exact ⟨b, ⟨items₁, a, items₂, rfl, spelled, spelled'⟩, holds'⟩

theorem map {f : α → β} (h : phrase.Spelled front P) (values : ∀ a, P a → Q (f a)) :
    (f <$> phrase).Spelled front Q := by
  intro items same
  obtain ⟨a, spelled, holds⟩ := h items same
  exact ⟨f a, map_iff.2 ⟨a, spelled, rfl⟩, values a holds⟩

theorem token {read : Numbered → Option α} {lexeme : Lexeme}
    (seen : ∀ ordinal, ∃ a, read ⟨lexeme, ordinal⟩ = some a ∧ P a) :
    (token read).Spelled [lexeme] P := by
  intro items same
  obtain ⟨⟨_, ordinal⟩, rfl, rfl⟩ := List.map_eq_singleton_iff.1 same
  obtain ⟨a, reads, holds⟩ := seen ordinal
  exact ⟨a, ⟨_, rfl, reads⟩, holds⟩

/-- A token of a kind, and what comes after it. -/
theorem ofKind_bind {kind : TokenKind} {lexeme : Lexeme} {next : Unit → Phrase β}
    (same : lexeme.kind = kind) (second : (next ()).Spelled rest Q) :
    (ofKind kind >>= next).Spelled (lexeme :: rest) Q := by
  have first : (ofKind kind).Spelled [lexeme] (· = ()) := token fun _ => ⟨(), if_pos same, rfl⟩
  exact first.bind fun _ _ => second

theorem orElse_left (h : phrase.Spelled front P) : (phrase <|> other).Spelled front P := by
  intro items same
  obtain ⟨a, spelled, holds⟩ := h items same
  exact ⟨a, .inl spelled, holds⟩

theorem orElse_right (h : other.Spelled front P) : (phrase <|> other).Spelled front P := by
  intro items same
  obtain ⟨a, spelled, holds⟩ := h items same
  exact ⟨a, .inr spelled, holds⟩

/-- Items in a row, each after a comma. -/
theorem many {parts : List (List Lexeme)} {as : List α} {R : α → α → Prop}
    (h : List.Forall₂ (fun part a => phrase.Spelled part (R a)) parts as) :
    (Phrase.many (do mark .comma; phrase)).Spelled (parts.flatMap fun part => commaLexeme :: part)
      (List.Forall₂ R as) := by
  induction h with
  | nil => exact fun items none => ⟨[], List.map_eq_nil_iff.1 none ▸ .none, .nil⟩
  | @cons part a parts as first others ih =>
    have entry : (do mark .comma; phrase : Phrase α).Spelled (commaLexeme :: part) (R a) :=
      ofKind_bind rfl first
    intro items same
    rw [List.flatMap_cons] at same
    obtain ⟨items₁, items₂, rfl, same₁, same₂⟩ := List.map_eq_append_iff.1 same
    obtain ⟨a, spelled, related⟩ := entry items₁ same₁
    obtain ⟨as, spelled', related'⟩ := ih items₂ same₂
    exact ⟨a :: as, .more spelled spelled', .cons related related'⟩

/-- A list of items with a comma between each two. -/
theorem commaSeparated {parts : List (List Lexeme)} {as : List α} {R : α → α → Prop} (some : parts ≠ [])
    (h : List.Forall₂ (fun part a => phrase.Spelled part (R a)) parts as) :
    (commaSeparated phrase).Spelled ([commaLexeme].intercalate parts) (List.Forall₂ R as) := by
  cases h with
  | nil => exact absurd rfl some
  | @cons part a parts as first others =>
    have spelled : (Phrase.commaSeparated phrase).Spelled
        (part ++ ((parts.flatMap fun part => commaLexeme :: part) ++ [])) (List.Forall₂ R (a :: as)) :=
      first.bind fun _ related => (many others).bind fun _ related' => .pure (.cons related related')
    rwa [List.append_nil, ← intercalate_cons] at spelled

/-- What a rule recognizes is read on its lexemes. -/
theorem reads {rule : Rule α} (h : phrase.Spelled front P) (recognizes : rule.Recognizes phrase anything)
    {state after : State} (covers : state.Covers front after) : ∃ a, rule.Reads state a after ∧ P a := by
  obtain ⟨items, passes, same⟩ := covers
  obtain ⟨a, spelled, holds⟩ := h items same
  exact ⟨a, recognizes.complete _ _ _ _ passes spelled trivial, holds⟩

end Spelled

end Phrase

end Cql
