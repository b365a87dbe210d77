/-
The span of an accepted statement.

The span of a statement goes from its first token to its last one.  In front of it and behind it there
are only blanks, comments and semicolons; and the slice of the source that it covers, taken for a source,
is cut into the same pieces and read as the same statement, although every look-ahead meets the end of
the input there.

* `Lexical.Padding` — blanks, comments and semicolons;
* `exists_statement_tokens` — the tokens of an accepted source, and the statement among them;
* `parse_of_statement_tokens` — a source without any padding is accepted;
* `exists_pieces_around` — the pieces from the first token of a statement to the last one;
* `parse_slice_of_span` — **the slice at the span of a statement is accepted as that statement**.
-/
import Cql.Proofs.CaseInsensitivity
import Cql.Proofs.DiagnosticSpans
import Cql.Proofs.LineBreaks
import Cql.Proofs.Truncation

namespace Cql

open Bytes

/-! ### Numbers of bind markers -/

/-- Behind some lexemes the numbers go on with as many markers as there are among these. -/
theorem number_append_marks (ordinal : Nat) (front rest : List Lexeme) :
    number ordinal (front ++ rest) =
      number ordinal front ++ number (ordinal + (marks (number ordinal front)).length) rest := by
  induction front generalizing ordinal with
  | nil => rfl
  | cons lexeme front ih =>
    rw [List.cons_append, number, number, ih, List.cons_append]
    by_cases isMarker : lexeme.kind = .punctuation .questionMark
    · have counted : marks (⟨lexeme, ordinal⟩ :: number (ordinal + 1) front) =
          ordinal :: marks (number (ordinal + 1) front) := by
        simp [marks, Numbered.kind, isMarker]
      simp only [ordinalAfter, if_pos isMarker, counted, List.length_cons, Nat.add_assoc,
        Nat.add_comm 1]
    · have hidden : marks (⟨lexeme, ordinal⟩ :: number ordinal front) = marks (number ordinal front) := by
        simp [marks, Numbered.kind, isMarker]
      simp only [ordinalAfter, if_neg isMarker, hidden]

/-- Each part of a numbered list is a numbered part of the list. -/
theorem exists_of_number_eq_append {ordinal : Nat} {lexemes : List Lexeme} {front rest : List Numbered}
    (split : number ordinal lexemes = front ++ rest) : ∃ before behind, lexemes = before ++ behind ∧
      front = number ordinal before ∧ rest = number (ordinal + (marks front).length) behind := by
  have parts := number_append_marks ordinal (lexemes.take front.length) (lexemes.drop front.length)
  have long : front.length ≤ lexemes.length := by
    rw [← length_number ordinal, split, List.length_append]
    exact Nat.le_add_right _ _
  rw [List.take_append_drop, split] at parts
  obtain ⟨same, same'⟩ := List.append_inj parts (by simp [Nat.min_eq_left long])
  rw [← same] at same'
  exact ⟨_, _, (List.take_append_drop front.length lexemes).symm, same, same'⟩

theorem marks_of_semicolons {items : List Numbered}
    (h : ∀ item ∈ items, item.kind = .punctuation .semicolon) : marks items = [] := by
  refine List.filterMap_eq_nil_iff.2 fun item mem => ?_
  simp [h item mem]

/-! ### The tokens of a statement -/

theorem sentence_tokenize (source : String) : Language.sentence (tokenize source).tokens =
    number 0 ((bodyOf source).map (·.toLexeme)) := by
  have kinds := (lossless_body source).kinds
  have whole : (tokenize source).tokens.takeWhile (fun token => token.kind ≠ .endOfInput) =
      bodyOf source := by
    show (bodyOf source ++ [EndMark.token ⟨"", .point source.utf8ByteSize⟩]).takeWhile _ = _
    rw [List.takeWhile_append_of_pos fun token mem => by simpa using kinds token mem]
    simp [EndMark.token]
  rw [Language.sentence, whole]

theorem Language.ne_nil_of_statement {items : List Numbered} {statement : Statement}
    (spelled : Language.statement items statement) : items ≠ [] := by
  rintro rfl
  have opens := Grammar.opens_statement _ _ .endOfInput spelled trivial
  exact absurd opens (by decide)

/-- In an accepted source the statement stands between semicolons, and its place goes from its first
token to its last one. -/
theorem exists_statement_tokens {source : String} {statement : Statement} {place : Place} {after : State}
    (reads : Grammar.query.Reads (Parser.ofTokens (tokenize source).tokens).start (statement, place)
      after) :
    ∃ front middle back, bodyOf source = front ++ (middle ++ back) ∧
      (∀ token ∈ front, token.kind = .punctuation .semicolon) ∧
      (∀ token ∈ back, token.kind = .punctuation .semicolon) ∧
      Language.statement (number 0 (middle.map (·.toLexeme))) statement ∧
      place = .stretch front.length (front.length + middle.length - 1) ∧
      after.markers.count = (marks (number 0 (middle.map (·.toLexeme)))).length := by
  have counted := Parser.marks_of_reads reads
  obtain ⟨atEnd, before, items, behind, units, units', passes, semicolons, spelled, semicolons', rfl⟩ :=
    Grammar.reads_query_iff.1 reads
  obtain ⟨last, atEnd', passes'⟩ := State.passes_sentence (tokenize source).tokens
  obtain ⟨whole, -⟩ := passes'.unique atEnd' passes atEnd
  have none := marks_of_semicolons (Grammar.kind_of_many_semicolons semicolons)
  have none' := marks_of_semicolons (Grammar.kind_of_many_semicolons semicolons')
  rw [← whole, marks_append, marks_append, none, none', List.nil_append, List.append_nil] at counted
  -- The semicolons hold no bind markers, so the statement is numbered as if it stood alone.
  rw [sentence_tokenize] at whole
  obtain ⟨lexemes₁, others, split, rfl, numbered⟩ := exists_of_number_eq_append whole.symm
  rw [none, List.length_nil, Nat.add_zero] at numbered
  obtain ⟨lexemes₂, lexemes₃, rfl, rfl, rfl⟩ := exists_of_number_eq_append numbered.symm
  obtain ⟨front, others, body, rfl, split'⟩ := List.map_eq_append_iff.1 split
  obtain ⟨middle, back, rfl, rfl, rfl⟩ := List.map_eq_append_iff.1 split'
  have kinds : ∀ (ordinal : Nat) (tokens : List Token),
      (∀ item ∈ number ordinal (tokens.map (·.toLexeme)), item.kind = .punctuation .semicolon) →
        ∀ token ∈ tokens, token.kind = .punctuation .semicolon := by
    intro ordinal tokens all token mem
    have among := List.mem_map_of_mem (f := Token.toLexeme) mem
    rw [← map_lexeme_number ordinal (tokens.map (·.toLexeme))] at among
    obtain ⟨item, mem, same⟩ := List.mem_map.1 among
    have kind := all item mem
    rwa [Numbered.kind, same] at kind
  refine ⟨front, middle, back, body, kinds _ _ (Grammar.kind_of_many_semicolons semicolons),
    kinds _ _ (Grammar.kind_of_many_semicolons semicolons'), spelled, ?_, ?_⟩
  · simp [Parser.position_start]
  · rw [counted, List.length_range]

/-- A source whose tokens are those of a statement is accepted. -/
theorem parse_of_statement_tokens {source : String} {statement : Statement}
    (silent : (tokenize source).diagnostics = [])
    (spelled : Language.statement (number 0 ((bodyOf source).map (·.toLexeme))) statement) :
    parse source = .ok ⟨statement, (marks (number 0 ((bodyOf source).map (·.toLexeme)))).length,
      (Place.stretch 0 ((bodyOf source).length - 1)).span (.ofTokens (tokenize source).tokens)⟩ := by
  obtain ⟨after, atEnd, passes⟩ := State.passes_sentence (tokenize source).tokens
  rw [sentence_tokenize] at passes
  have reads := Grammar.reads_query_iff.2 ⟨atEnd, [], _, [], [], [], by simpa using passes, .none, spelled,
    .none, rfl⟩
  have marked := Parser.marks_of_reads reads
  rw [sentence_tokenize] at marked
  refine parse_iff.2 ⟨silent, _, after, reads, ?_⟩
  rw [marked, List.length_range, Parser.position_start]
  simp

/-! ### The pieces of a statement -/

/-- The pieces from one token on to another. -/
structure Piece.Tight (inside : List Piece) : Prop where
  opens : ∃ first more token, inside = first :: more ∧ first.token? = some token
  closes : ∃ more last token, inside = more ++ [last] ∧ last.token? = some token

theorem Piece.Tight.of_shift {inside : List Piece} {offset : Nat}
    (tight : Tight (inside.map (·.shift offset))) : Tight inside := by
  have moved : ∀ {piece : Piece} {token : Token}, (piece.shift offset).token? = some token →
      ∃ token', piece.token? = some token' := by
    intro piece token isToken
    rw [piece.token?_shift offset, Option.map_eq_some_iff] at isToken
    exact ⟨isToken.choose, isToken.choose_spec.1⟩
  obtain ⟨⟨first, more, token, opens, isFirst⟩, more', last, token', closes, isLast⟩ := tight
  obtain ⟨first, more, rfl, rfl, -⟩ := List.map_eq_cons_iff.1 opens
  obtain ⟨more', last, same, -, ending⟩ := List.map_eq_append_iff.1 closes
  obtain ⟨last, rfl, rfl⟩ := List.map_eq_singleton_iff.1 ending
  obtain ⟨token, isFirst⟩ := moved isFirst
  obtain ⟨token', isLast⟩ := moved isLast
  exact ⟨⟨first, more, token, rfl, isFirst⟩, more', last, token', same, isLast⟩

/-- Around the pieces of some tokens, from the first one to the last one, stand those of the others. -/
theorem exists_pieces_around {cut : List Piece} {front middle back : List Token}
    (tokens : cut.filterMap (·.token?) = front ++ (middle ++ back)) (nonempty : middle ≠ []) :
    ∃ before inside behind, cut = before ++ (inside ++ behind) ∧
      before.filterMap (·.token?) = front ∧ inside.filterMap (·.token?) = middle ∧
      behind.filterMap (·.token?) = back ∧ Piece.Tight inside := by
  obtain ⟨before, others, rfl, rfl, others_eq⟩ := List.filterMap_eq_append_iff.1 tokens
  obtain ⟨inside, behind, rfl, inner, rfl⟩ := List.filterMap_eq_append_iff.1 others_eq
  obtain ⟨first, more, rfl⟩ := List.exists_cons_of_ne_nil nonempty
  -- What is no token belongs to the pieces around.
  obtain ⟨gap, piece, rest, rfl, none, isFirst, -⟩ := List.filterMap_eq_cons_iff.1 inner
  have silent : gap.filterMap (·.token?) = [] := List.filterMap_eq_nil_iff.2 none
  rw [List.filterMap_append, silent, List.nil_append] at inner
  have ends : first :: more = (first :: more).dropLast ++ [(first :: more).getLast (by simp)] :=
    (List.dropLast_append_getLast _).symm
  rw [ends] at inner
  obtain ⟨inside, others, split, inner', ending⟩ := List.filterMap_eq_append_iff.1 inner
  obtain ⟨gap', piece', rest', rfl, none', isLast, silent'⟩ := List.filterMap_eq_cons_iff.1 ending
  have silent'' : gap'.filterMap (·.token?) = [] := List.filterMap_eq_nil_iff.2 none'
  refine ⟨before ++ gap, inside ++ (gap' ++ [piece']), rest' ++ behind, ?_, ?_, ?_, ?_, ?_, ?_⟩
  · rw [split]
    simp
  · rw [List.filterMap_append, silent, List.append_nil]
  · rw [List.filterMap_append, List.filterMap_append, silent'', inner', List.nil_append, ends]
    simp [isLast]
  · rw [List.filterMap_append, silent', List.nil_append]
  · obtain ⟨other, more', same⟩ := List.exists_cons_of_ne_nil
      (show inside ++ (gap' ++ [piece']) ≠ [] by simp)
    have starts : inside ++ (gap' ++ piece' :: rest') = other :: (more' ++ rest') := by
      rw [← List.cons_append, ← same]
      simp
    rw [starts] at split
    obtain ⟨rfl, -⟩ := List.cons.inj split
    exact ⟨piece, more', first, same, isFirst⟩
  · exact ⟨inside ++ gap', piece', _, by simp, isLast⟩

theorem TokenStream.spanAt_of_getElem? {source : String} {position : Nat} {token : Token}
    (stands : (bodyOf source)[position]? = some token) :
    (TokenStream.ofTokens (tokenize source).tokens).spanAt position = token.span := by
  rw [ofTokens_tokenize]
  show (((bodyOf source)[position]?).getD _).span = token.span
  rw [stands, Option.getD_some]

/-- From the first of some tokens to the last is from the start of their pieces to the end. -/
theorem span_stretch {source : String} {before inside behind : List Piece}
    (cut : pieces 0 0 source.toList = before ++ (inside ++ behind)) (tight : Piece.Tight inside) :
    (Place.stretch (before.filterMap (·.token?)).length ((before.filterMap (·.token?)).length +
      (inside.filterMap (·.token?)).length - 1)).span (.ofTokens (tokenize source).tokens) =
      ⟨size (Piece.texts before), size (Piece.texts before) + size (Piece.texts inside)⟩ := by
  obtain ⟨⟨first, more, token, opens, isFirst⟩, more', last, token', closes, isLast⟩ := tight
  have body : bodyOf source = before.filterMap (·.token?) ++
      (inside.filterMap (·.token?) ++ behind.filterMap (·.token?)) := by
    rw [bodyOf, cut, List.filterMap_append, List.filterMap_append]
  have atFirst : (bodyOf source)[(before.filterMap (·.token?)).length]? = some token := by
    rw [body, opens, List.filterMap_cons_some isFirst]
    simp
  have atLast : (bodyOf source)[(before.filterMap (·.token?)).length +
      (inside.filterMap (·.token?)).length - 1]? = some token' := by
    rw [body, closes, List.filterMap_append, List.filterMap_cons_some isLast, List.filterMap_nil,
      List.append_assoc, ← List.append_assoc, List.length_append, List.length_singleton,
      ← Nat.add_assoc, Nat.add_sub_cancel, ← List.length_append]
    simp
  have start : pieces 0 0 source.toList = before ++ first :: (more ++ behind) := by
    rw [cut, opens, List.cons_append]
  have stop : pieces 0 0 source.toList = (before ++ more') ++ last :: behind := by
    rw [cut, closes]
    simp
  obtain ⟨-, isFirst⟩ := Piece.token?_eq_some.1 isFirst
  obtain ⟨-, isLast⟩ := Piece.token?_eq_some.1 isLast
  show Span.cover (TokenStream.spanAt _ _) (TokenStream.spanAt _ _) = _
  rw [TokenStream.spanAt_of_getElem? atFirst, TokenStream.spanAt_of_getElem? atLast, isFirst, isLast]
  simp only [Span.cover, Piece.span, start_of_pieces start, start_of_pieces stop, Span.mk.injEq]
  rw [closes]
  simp [Piece.texts]
  omega

namespace Lexical

/-- Blanks, comments and semicolons, in front of what comes after them. -/
inductive Padding : List Char → List Char → Prop
  | nothing {after : List Char} : Padding [] after
  | blank {c : Char} {others after : List Char} (blank : Segment.isBlank c = true)
      (rest : Padding others after) : Padding (c :: others) after
  | comment {text others after : List Char} (comment : Comment text (others ++ after) none)
      (rest : Padding others after) : Padding (text ++ others) after
  | semicolon {others after : List Char} (rest : Padding others after) :
      Padding (';' :: others) after

end Lexical

/-- A semicolon is written as one. -/
theorem Piece.text_of_semicolon {piece : Piece} {after : List Char}
    (reads : Segment.Reads piece.text after piece.segment) (sound : piece.segment.problem = none)
    (content : piece.segment.content = .token (.punctuation .semicolon)) : piece.text = [';'] := by
  obtain ⟨start, text, segment⟩ := piece
  dsimp only at reads sound content ⊢
  cases reads with
  | blank | comment | stray => cases content
  | uuid mem => cases content
  | token spells =>
    obtain rfl := SegmentContent.token.inj content
    cases spells
    rfl
  | unclosed => cases sound

/-- What holds no token and is sound is a blank or a comment. -/
theorem Segment.Reads.blank_or_comment {text after : List Char} {segment : Segment}
    (reads : Segment.Reads text after segment) (sound : segment.problem = none)
    (silent : ∀ kind, segment.content ≠ .token kind) :
    (∃ c, text = [c] ∧ Segment.isBlank c = true) ∨ Lexical.Comment text after none := by
  cases reads with
  | blank blank => exact .inl ⟨_, rfl, blank⟩
  | comment comment =>
    obtain rfl : _ = none := sound
    exact .inr comment
  | uuid | token | unclosed => exact absurd rfl (silent _)
  | stray => cases sound

/-- Sound pieces without a token but semicolons are padding. -/
theorem padding_of_pieces {start : Nat} {cs : List Char} {front back : List Piece}
    (cut : pieces start 0 cs = front ++ back) (sound : ∀ piece ∈ front, piece.segment.problem = none)
    (semicolons : ∀ token ∈ front.filterMap (·.token?), token.kind = .punctuation .semicolon) :
    Lexical.Padding (Piece.texts front) (Piece.texts back) := by
  induction front generalizing start cs with
  | nil => exact .nothing
  | cons piece front ih =>
    cases cs with
    | nil => cases cut
    | cons c rest =>
      obtain ⟨text, after, split, reads⟩ := Segment.reads_first c rest
      rw [split, pieces_append split.symm rfl reads.width_eq, List.cons_append] at cut
      obtain ⟨same, behind⟩ := List.cons.inj cut
      have others := ih behind (fun piece mem => sound piece (List.mem_cons_of_mem _ mem))
        fun token mem => semicolons token (by
          rw [List.filterMap_cons]
          split
          · exact mem
          · exact List.mem_cons_of_mem _ mem)
      have after_eq : after = Piece.texts front ++ Piece.texts back := by
        rw [← Piece.texts_append, ← behind, texts_pieces]
      have reads' : Segment.Reads piece.text (Piece.texts front ++ Piece.texts back) piece.segment := by
        rw [← same, ← after_eq]
        exact reads
      have fine := sound piece List.mem_cons_self
      show Lexical.Padding (piece.text ++ Piece.texts front) _
      by_cases isToken : ∃ kind, piece.segment.content = .token kind
      · obtain ⟨kind, content⟩ := isToken
        have isToken : piece.token? = some ⟨⟨kind, String.ofList piece.text⟩, piece.span⟩ :=
          Piece.token?_eq_some.2 ⟨content, rfl⟩
        obtain rfl : kind = .punctuation .semicolon :=
          semicolons _ (List.mem_filterMap.2 ⟨piece, List.mem_cons_self, isToken⟩)
        rw [Piece.text_of_semicolon reads' fine content]
        exact .semicolon others
      · rcases reads'.blank_or_comment fine (not_exists.1 isToken) with ⟨c, isText, blank⟩ | comment
        · rw [isText]
          exact .blank blank others
        · exact .comment comment others

/-! ### Slices -/

theorem sound_of_mem_pieces {source : String} (silent : (tokenize source).diagnostics = [])
    {piece : Piece} (mem : piece ∈ pieces 0 0 source.toList) : piece.segment.problem = none := by
  have none := List.filterMap_eq_nil_iff.1 (show (pieces 0 0 source.toList).filterMap _ = [] from silent)
    piece mem
  exact Option.map_eq_none_iff.1 none

/-- Sound pieces inside a source are, moved to the front, the pieces of their own text. -/
theorem pieces_of_slice {source : String} {before inside behind : List Piece}
    (cut : pieces 0 0 source.toList = before ++ (inside ++ behind))
    (sound : ∀ piece ∈ inside, piece.segment.problem = none) :
    (pieces 0 0 (Piece.texts inside)).map (·.shift (size (Piece.texts before))) = inside := by
  obtain ⟨rest, -, others⟩ := pieces_split cut
  have own := pieces_of_isPrefix others.symm sound
  rwa [pieces_shift] at own

/-- The slice at sound pieces is cut without complaint, and into tokens of the same kinds and texts. -/
theorem tokenize_slice {source : String} {before inside behind : List Piece}
    (cut : pieces 0 0 source.toList = before ++ (inside ++ behind))
    (sound : ∀ piece ∈ inside, piece.segment.problem = none) :
    (tokenize (String.ofList (Piece.texts inside))).diagnostics = [] ∧
      (bodyOf (String.ofList (Piece.texts inside))).map (·.toLexeme) =
        (inside.filterMap (·.token?)).map (·.toLexeme) := by
  have own := pieces_of_slice cut sound
  constructor
  · have silent : inside.filterMap (·.diagnostic?) = [] :=
      List.filterMap_eq_nil_iff.2 fun piece mem => Option.map_eq_none_iff.2 (sound piece mem)
    rw [← own, diagnostics_shift, List.map_eq_nil_iff] at silent
    rw [tokenize, String.toList_ofList]
    exact silent
  · have tokens := congrArg (List.filterMap (·.token?)) own
    rw [tokens_shift] at tokens
    rw [← tokens, List.map_map, bodyOf, String.toList_ofList]
    rfl

/-- **The span of a statement.**  An accepted statement has a span of whole characters of its source, with
nothing but blanks, comments and semicolons in front of it and behind it.  And the slice there, taken for
a source, is accepted with an equal statement, as many bound terms, and all of it as the span. -/
theorem parse_slice_of_span {source : String} {parsed : ParsedStatement}
    (accepted : parse source = .ok parsed) : parsed.span.FitsIn source ∧
      ∃ before text after, source.toList = before ++ (text ++ after) ∧
        size before = parsed.span.start ∧
        slice? parsed.span.start parsed.span.stop source.toList = some text ∧
        Lexical.Padding before (text ++ after) ∧ Lexical.Padding after [] ∧
        ∃ again, parse (String.ofList text) = .ok again ∧
          (again.statement == parsed.statement) = true ∧ again.boundTerms = parsed.boundTerms ∧
          again.span = ⟨0, parsed.span.stop - parsed.span.start⟩ := by
  obtain ⟨silent, place, after, reads, made⟩ := parse_iff.1 accepted
  obtain ⟨front, middle, back, body, semicolons, semicolons', spelled, rfl, counted⟩ :=
    exists_statement_tokens reads
  have nonempty : middle ≠ [] := by
    rintro rfl
    exact Language.ne_nil_of_statement spelled rfl
  obtain ⟨before, inside, behind, cut, rfl, rfl, rfl, tight⟩ := exists_pieces_around body nonempty
  have sound : ∀ piece ∈ before ++ (inside ++ behind), piece.segment.problem = none := by
    rw [← cut]
    exact fun piece mem => sound_of_mem_pieces silent mem
  have spells : source.toList = Piece.texts before ++ (Piece.texts inside ++ Piece.texts behind) := by
    rw [← Piece.texts_append, ← Piece.texts_append, ← cut, texts_pieces]
  have span : parsed.span =
      ⟨size (Piece.texts before), size (Piece.texts before) + size (Piece.texts inside)⟩ := by
    rw [made]
    exact span_stretch cut tight
  -- What is around the statement is padding: in front of it, and behind it in front of nothing.
  have padded := padding_of_pieces cut (fun piece mem => sound piece (by simp [mem])) semicolons
  rw [Piece.texts_append] at padded
  obtain ⟨rest, -, others⟩ := pieces_split (cut.trans (List.append_assoc _ _ _).symm)
  have padded' : Lexical.Padding (Piece.texts behind) [] :=
    padding_of_pieces (others.symm.trans (List.append_nil behind).symm)
      (fun piece mem => sound piece (by simp [mem])) semicolons'
  -- The slice is cut as it was, and its tokens are those of the statement.
  have sound' : ∀ piece ∈ inside, piece.segment.problem = none :=
    fun piece mem => sound piece (by simp [mem])
  obtain ⟨quiet, lexemes⟩ := tokenize_slice cut sound'
  have tight' : Piece.Tight (pieces 0 0 (Piece.texts inside)) :=
    .of_shift (by rw [pieces_of_slice cut sound']; exact tight)
  have own : pieces 0 0 (String.ofList (Piece.texts inside)).toList =
      [] ++ (pieces 0 0 (Piece.texts inside) ++ []) := by
    rw [String.toList_ofList, List.append_nil, List.nil_append]
  have whole := span_stretch own tight'
  rw [texts_pieces] at whole
  refine ⟨?_, _, _, _, spells, by rw [span], ?_, padded, padded', _,
    parse_of_statement_tokens quiet (by rw [lexemes]; exact spelled), BEq.rfl, ?_, ?_⟩
  · rw [span]
    exact .of_boundaries (Nat.le_add_right _ _) ⟨_, _, spells, rfl⟩
      ⟨Piece.texts before ++ Piece.texts inside, Piece.texts behind, by rw [spells, List.append_assoc],
        size_append _ _⟩
  · rw [span]
    exact slice?_eq_some.2 ⟨_, _, spells, rfl, rfl⟩
  · rw [made, counted, lexemes]
  · rw [span, Nat.add_sub_cancel_left, bodyOf, String.toList_ofList]
    simpa [Piece.texts, size] using whole

/-- Padding around a query, and characters of more than one byte in both. -/
def paddedQuery : String := ";/*é*/SELECT a FROM t WHERE k = ? AND l = 'ü' ; -- x"

theorem parse_slice_of_paddedQuery : ∃ parsed again, parse paddedQuery = .ok parsed ∧
    parsed.span = ⟨7, 47⟩ ∧ parse "SELECT a FROM t WHERE k = ? AND l = 'ü'" = .ok again ∧
      (again.statement == parsed.statement) = true ∧ again.boundTerms = parsed.boundTerms ∧
      again.span = ⟨0, 40⟩ := by
  have found : (parse paddedQuery).toOption.map (·.span) = some ⟨7, 47⟩ := by decide +kernel
  have slice : slice? 7 47 paddedQuery.toList =
      some "SELECT a FROM t WHERE k = ? AND l = 'ü'".toList := by decide +kernel
  cases accepted : parse paddedQuery with
  | error rejection =>
    rw [accepted] at found
    exact absurd found (by simp [Except.toOption])
  | ok parsed =>
    rw [accepted] at found
    have span : parsed.span = ⟨7, 47⟩ := Option.some.inj found
    obtain ⟨-, before, text, after, -, -, isSlice, -, -, again, accepted', same, count, span'⟩ :=
      parse_slice_of_span accepted
    rw [span] at isSlice span'
    obtain rfl := Option.some.inj (isSlice.symm.trans slice)
    rw [String.ofList_toList] at accepted'
    exact ⟨parsed, again, rfl, span, accepted', same, count, span'⟩

end Cql
