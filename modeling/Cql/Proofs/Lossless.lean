/-
The tokens of a source.

Nothing of a source is lost: its bytes belong to tokens, to blanks, to comments, or to invalid
characters that are reported.  And the tokens are those of the lexical grammar.

* `Skipped` — a stretch of the source that is in no token;
* `Lossless` — tokens that stand in order, each with its own slice of the source, and nothing but
  skipped stretches around them;
* `lossless_tokenize` — **the tokens of every source are lossless**, and no slice of it that is taken
  on the way lies outside the source or inside a character;
* `selects_of_mem_tokens` — **every token is the one that the grammar selects** at its place.
-/
import Cql.Proofs.Boundaries
import Cql.Proofs.TokenSelection

namespace Cql

open Bytes

/-! ### Diagnostics and their places -/

theorem LexicalProblem.primarySpan?_diagnostic (problem : LexicalProblem) (start : Nat)
    (text : List Char) :
    (problem.diagnostic start text).primarySpan?
      = some ⟨start, start + size (if problem.ofWholeToken then text else text.take 1)⟩ := rfl

/-- The diagnostics shown at a given span. -/
def Diagnostic.shownAt (diagnostics : List Diagnostic) (span : Span) : List Diagnostic :=
  diagnostics.filter fun diagnostic => diagnostic.primarySpan? = some span

theorem Piece.start_of_shown {piece : Piece} {diagnostic : Diagnostic} {span : Span}
    (reported : piece.diagnostic? = some diagnostic) (shown : diagnostic.primarySpan? = some span) :
    span.start = piece.start := by
  obtain ⟨problem, -, rfl⟩ := Option.map_eq_some_iff.1 reported
  rw [LexicalProblem.primarySpan?_diagnostic] at shown
  rw [← Option.some.inj shown]

theorem shownAt_eq_nil {cut : List Piece} {span : Span}
    (elsewhere : ∀ piece ∈ cut, piece.start ≠ span.start) :
    Diagnostic.shownAt (cut.filterMap (·.diagnostic?)) span = [] := by
  rw [Diagnostic.shownAt, List.filter_eq_nil_iff]
  intro diagnostic mem shown
  obtain ⟨piece, mem, reported⟩ := List.mem_filterMap.1 mem
  exact elsewhere piece mem (Piece.start_of_shown reported (by simpa using shown)).symm

theorem shownAt_singleton {diagnostic : Diagnostic} {span : Span}
    (shown : diagnostic.primarySpan? = some span) :
    Diagnostic.shownAt [diagnostic] span = [diagnostic] :=
  List.filter_cons_of_pos (decide_eq_true shown)

/-- What is shown at a span that begins where a piece does comes from that piece. -/
theorem shownAt_of_mem {start : Nat} {cs : List Char} {piece : Piece} {span : Span}
    (mem : piece ∈ pieces start 0 cs) (starts : span.start = piece.start) :
    Diagnostic.shownAt ((pieces start 0 cs).filterMap (·.diagnostic?)) span
      = Diagnostic.shownAt piece.diagnostic?.toList span := by
  have nonempty : ∀ other ∈ pieces start 0 cs, other.start < other.span.stop := by
    intro other mem
    obtain ⟨before, after, standing⟩ := at_of_mem_pieces mem
    exact standing.start_lt_stop
  have ordered := pairwise_pieces start cs
  obtain ⟨front, back, split⟩ := List.append_of_mem mem
  rw [split] at nonempty ordered ⊢
  obtain ⟨-, behind, across⟩ := List.pairwise_append.1 ordered
  -- No two pieces begin at the same byte, so the others show nothing here.
  have frontElsewhere : ∀ other ∈ front, other.start ≠ span.start := by
    intro other memOther
    have first := nonempty other (by simp [memOther])
    have second : other.span.stop ≤ piece.start := across other memOther piece (by simp)
    omega
  have backElsewhere : ∀ other ∈ back, other.start ≠ span.start := by
    intro other memOther
    have first := nonempty piece (by simp)
    have second : piece.span.stop ≤ other.start := List.rel_of_pairwise_cons behind memOther
    omega
  have none := shownAt_eq_nil frontElsewhere
  have none' := shownAt_eq_nil backElsewhere
  rw [Diagnostic.shownAt] at none none' ⊢
  rw [List.filterMap_append, List.filter_append, none, List.nil_append, List.filterMap_cons]
  cases piece.diagnostic? with
  | none => exact none'
  | some diagnostic =>
    show List.filter _ (diagnostic :: _) = List.filter _ [diagnostic]
    rw [List.filter_cons, none', List.filter_cons, List.filter_nil]

/-! ### Nothing is lost -/

/-- A stretch of the source that is in no token: a blank, a comment, or a character that begins no
token, and of which just one diagnostic tells. -/
inductive Skipped (diagnostics : List Diagnostic) (span : Span) : List Char → List Char → Prop
  | blank {c : Char} {after : List Char} (blank : Segment.isBlank c = true) :
      Skipped diagnostics span [c] after
  | comment {text after : List Char} {problem : Option LexicalProblem}
      (comment : Lexical.Comment text after problem) : Skipped diagnostics span text after
  | invalid {c : Char} {after : List Char} {diagnostic : Diagnostic}
      (begins : ∀ text kind, ¬ Lexical.InFront (c :: after) text kind)
      (reported : Diagnostic.shownAt diagnostics span = [diagnostic])
      (code : diagnostic.code = some "L001")
      (message : diagnostic.message = "invalid character '" ++ c.toString ++ "'") :
      Skipped diagnostics span [c] after

/-- The tokens of a source in order, and nothing but skipped stretches around them. -/
structure Lossless (source : String) (tokens : List Token) (diagnostics : List Diagnostic) : Prop where
  kinds : ∀ token ∈ tokens, token.kind ≠ .endOfInput
  nonempty : ∀ token ∈ tokens, token.span.start < token.span.stop
  inside : ∀ token ∈ tokens, token.span.stop ≤ source.utf8ByteSize
  slices : ∀ token ∈ tokens,
    slice? token.span.start token.span.stop source.toList = some token.text.toList
  ordered : tokens.Pairwise fun first second => first.span.stop ≤ second.span.start
  outside : ∀ byte < source.utf8ByteSize,
    (∃ token ∈ tokens, token.span.start ≤ byte ∧ byte < token.span.stop) ∨
      ∃ before text after, source.toList = before ++ (text ++ after) ∧
        size before ≤ byte ∧ byte < size before + size text ∧
        (∀ token ∈ tokens,
          token.span.stop ≤ size before ∨ size before + size text ≤ token.span.start) ∧
        Skipped diagnostics ⟨size before, size before + size text⟩ text after

theorem Piece.token?_eq_some {piece : Piece} {token : Token} :
    piece.token? = some token ↔ piece.segment.content = .token token.kind ∧
      token = ⟨⟨token.kind, String.ofList piece.text⟩, piece.span⟩ := by
  unfold token?
  constructor
  · intro same
    split at same
    · rename_i kind content
      obtain rfl := Option.some.inj same
      exact ⟨content, rfl⟩
    · exact absurd same (by simp)
  · rintro ⟨content, same⟩
    rw [content, same]

theorem endOfInput_not_spelled {text after : List Char} {segment : Segment}
    (reads : Segment.Reads text after segment) : segment.content ≠ .token .endOfInput := by
  cases reads with
  | blank | comment | uuid | stray => simp [Segment.ofKind]
  | token spells =>
    cases spells with
    | keyword | identifier | integer | float | hex | string | quotedName | mark => simp
  | unclosed unclosed =>
    cases unclosed with
    | string | quotedName => simp

section Source

variable {source : String} {piece : Piece}

theorem Piece.At.slice?_eq {cs before after : List Char} (standing : piece.At 0 cs before after) :
    slice? piece.span.start piece.span.stop cs = some piece.text := by
  have start_eq := standing.start_eq
  rw [Nat.zero_add] at start_eq
  exact slice?_eq_some.2 ⟨before, after, standing.split, start_eq.symm, rfl⟩

/-- A piece that is no token is a skipped stretch. -/
theorem Piece.At.skipped {before after : List Char} (mem : piece ∈ pieces 0 0 source.toList)
    (standing : piece.At 0 source.toList before after) (noToken : piece.token? = none) :
    Skipped (tokenize source).diagnostics piece.span piece.text after := by
  obtain ⟨c, rest, split, first⟩ := standing.first
  obtain ⟨start, text, segment⟩ := piece
  have reads := standing.reads
  dsimp only at first reads split
  generalize kept : segment = segment' at reads
  cases reads with
  | blank blank => exact .blank blank
  | comment comment => exact .comment comment
  | uuid | token | unclosed =>
    subst kept
    exact absurd noToken (by simp [Piece.token?, Segment.ofKind])
  | @stray d after =>
    obtain ⟨rfl, rfl⟩ := List.cons.inj split
    subst kept
    have begins := Segment.not_inFront_of_stray (by rw [← first]) (by rw [← first])
    have reported : Diagnostic.shownAt (tokenize source).diagnostics ⟨start, start + size [d]⟩
        = [(LexicalProblem.invalidCharacter d).diagnostic start [d]] :=
      (shownAt_of_mem mem rfl).trans (shownAt_singleton rfl)
    exact .invalid begins reported rfl rfl

/-- Every token is a piece of the source. -/
theorem exists_of_mem_tokens {token : Token}
    (mem : token ∈ (pieces 0 0 source.toList).filterMap (·.token?)) :
    ∃ piece ∈ pieces 0 0 source.toList, piece.token? = some token ∧ token.span = piece.span ∧
      token.text.toList = piece.text ∧ ∃ before after, piece.At 0 source.toList before after := by
  obtain ⟨piece, memPiece, read⟩ := List.mem_filterMap.1 mem
  refine ⟨piece, memPiece, read, ?_, ?_, at_of_mem_pieces memPiece⟩
  · rw [(Piece.token?_eq_some.1 read).2]
  · rw [(Piece.token?_eq_some.1 read).2, String.toList_ofList]

theorem lossless_body (source : String) :
    Lossless source ((pieces 0 0 source.toList).filterMap (·.token?)) (tokenize source).diagnostics where
  kinds := by
    intro token mem same
    obtain ⟨piece, -, read, -, -, before, after, standing⟩ := exists_of_mem_tokens mem
    have content := (Piece.token?_eq_some.1 read).1
    rw [same] at content
    exact endOfInput_not_spelled standing.reads content
  nonempty := by
    intro token mem
    obtain ⟨piece, -, -, span, -, before, after, standing⟩ := exists_of_mem_tokens mem
    rw [span]
    exact standing.start_lt_stop
  inside := by
    intro token mem
    obtain ⟨piece, -, -, span, -, before, after, standing⟩ := exists_of_mem_tokens mem
    have inside := standing.stop_le
    rwa [Nat.zero_add, size_toList, ← span] at inside
  slices := by
    intro token mem
    obtain ⟨piece, -, -, span, text, before, after, standing⟩ := exists_of_mem_tokens mem
    rw [span, text]
    exact standing.slice?_eq
  ordered := by
    rw [List.pairwise_filterMap]
    refine (pairwise_pieces 0 source.toList).imp fun ordered token read token' read' => ?_
    rw [(Piece.token?_eq_some.1 read).2, (Piece.token?_eq_some.1 read').2]
    exact ordered
  outside := by
    intro byte below
    rw [← size_toList, ← Nat.zero_add (size _)] at below
    -- The byte is in a piece, and the piece is a token or a skipped stretch.
    obtain ⟨piece, mem, covers⟩ := exists_piece (Nat.zero_le byte) below
    cases read : piece.token? with
    | some token =>
      refine .inl ⟨token, List.mem_filterMap.2 ⟨piece, mem, read⟩, ?_⟩
      rw [(Piece.token?_eq_some.1 read).2]
      exact covers
    | none =>
      obtain ⟨before, after, standing⟩ := at_of_mem_pieces mem
      have start_eq : piece.start = size before := by
        rw [standing.start_eq, Nat.zero_add]
      have span : piece.span = ⟨size before, size before + size piece.text⟩ := by
        rw [Piece.span, start_eq]
      have skipped := standing.skipped mem read
      rw [span] at covers skipped
      refine .inr ⟨before, piece.text, after, standing.split, covers.1, covers.2, ?_, skipped⟩
      intro token memToken
      obtain ⟨other, memOther, readOther, spanOther, -⟩ := exists_of_mem_tokens memToken
      have distinct : other ≠ piece := by
        rintro rfl
        rw [read] at readOther
        cases readOther
      have apart := span_disjoint memOther mem distinct
      rwa [span, ← spanOther] at apart

/-- **Nothing is lost.**  The tokens of every source end with the end of input, and the others are
lossless.  Cutting the source by byte offsets gives the same tokens, and no slice that it takes on the
way lies outside the source or begins or ends inside a character. -/
theorem lossless_tokenize (source : String) :
    (∃ body, (tokenize source).tokens
        = body ++ [⟨⟨.endOfInput, ""⟩, ⟨source.utf8ByteSize, source.utf8ByteSize⟩⟩] ∧
      Lossless source body (tokenize source).diagnostics) ∧
    Offsets.tokenize? source = some (tokenize source) :=
  ⟨⟨_, rfl, lossless_body source⟩, Offsets.tokenize?_eq_some source⟩

/-! ### What is selected -/

/-- A hexadecimal constant with another character in it is reported, and nothing else is shown where
a hexadecimal constant stands. -/
theorem shownAt_of_hex {digits : String} {before after : List Char}
    (mem : piece ∈ pieces 0 0 source.toList) (standing : piece.At 0 source.toList before after)
    (content : piece.segment.content = .token (.hex digits)) :
    (Diagnostic.shownAt (tokenize source).diagnostics piece.span).map (·.code)
      = if (digits.toList.drop 2).all Segment.isHexDigit then [] else [some "L002"] := by
  have problem : piece.segment.problem = (TokenKind.hex digits).problem? := by
    have reads := standing.reads
    generalize piece.segment = segment at content reads
    generalize piece.text = text at reads
    cases reads with
    | blank | comment | uuid | stray => cases content
    | token spells =>
      cases content
      rfl
    | unclosed unclosed => cases unclosed <;> cases content
  rw [tokenize, shownAt_of_mem mem rfl, Piece.diagnostic?, problem, TokenKind.problem?]
  split
  · rfl
  · have shown : ((LexicalProblem.malformedHex digits).diagnostic piece.start piece.text).primarySpan?
        = some piece.span := rfl
    exact congrArg (List.map _) (shownAt_singleton shown)

/-- **Longest match.**  Every token is the one that the grammar selects where it stands: a UUID if
there is one, and else the longest text that spells a token, or all that there is if it opens a quote
that nothing closes. -/
theorem selects_of_mem_tokens {token : Token} (mem : token ∈ (tokenize source).tokens)
    (notEnd : token.kind ≠ .endOfInput) :
    ∃ before cs, source.toList = before ++ cs ∧
      token.span = ⟨size before, size before + size token.text.toList⟩ ∧
      Lexical.Selects Lexical.InFrontOrUnclosed cs token.text.toList token.kind ∧
      ∀ digits, token.kind = .hex digits →
        (Diagnostic.shownAt (tokenize source).diagnostics token.span).map (·.code)
          = if (digits.toList.drop 2).all Segment.isHexDigit then [] else [some "L002"] := by
  have memBody : token ∈ (pieces 0 0 source.toList).filterMap (·.token?) := by
    rcases List.mem_append.1 mem with memBody | memEnd
    · exact memBody
    · rw [List.mem_singleton.1 memEnd] at notEnd
      exact absurd rfl notEnd
  obtain ⟨piece, memPiece, read, span, text, before, after, standing⟩ := exists_of_mem_tokens memBody
  have content := (Piece.token?_eq_some.1 read).1
  obtain ⟨c, rest, split, first⟩ := standing.first
  have reads := standing.reads
  have selects := Segment.selects_of_token split (by rw [← first, content]) (by rwa [← first])
  refine ⟨before, piece.text ++ after, standing.split, ?_, ?_, ?_⟩
  · rw [span, text, Piece.span, standing.start_eq, Nat.zero_add]
  · rw [text, split]
    exact selects
  · rintro digits same
    rw [same] at content
    rw [span]
    exact shownAt_of_hex memPiece standing content

theorem selects_of_malformedHex :
    let token : Token := ⟨⟨.hex "0xz", "0xz"⟩, ⟨5, 8⟩⟩
    token ∈ (tokenize "1 >= 0xz").tokens ∧ token.kind ≠ .endOfInput ∧
      ∃ before cs, "1 >= 0xz".toList = before ++ cs ∧
        token.span = ⟨size before, size before + size token.text.toList⟩ ∧
        Lexical.Selects Lexical.InFrontOrUnclosed cs token.text.toList token.kind ∧
        ∀ digits, token.kind = .hex digits →
          (Diagnostic.shownAt (tokenize "1 >= 0xz").diagnostics token.span).map (·.code)
            = if (digits.toList.drop 2).all Segment.isHexDigit then [] else [some "L002"] := by
  have mem : (⟨⟨.hex "0xz", "0xz"⟩, ⟨5, 8⟩⟩ : Token) ∈ (tokenize "1 >= 0xz").tokens := by
    decide
  exact ⟨mem, by decide, selects_of_mem_tokens mem (by decide)⟩

/-- A quote that nothing closes is no text of the grammar, but there is a token for it. -/
theorem not_selects_closed :
    ¬ ∀ (source : String) (token : Token), token ∈ (tokenize source).tokens →
      token.kind ≠ .endOfInput → ∃ before cs, source.toList = before ++ cs ∧
        token.span = ⟨size before, size before + size token.text.toList⟩ ∧
        Lexical.Selects Lexical.InFront cs token.text.toList token.kind := by
  intro claim
  obtain ⟨before, cs, -, -, uuid | ⟨-, ⟨-, spells⟩, -⟩⟩ :=
    claim "'a" ⟨⟨.string "a", "'a"⟩, ⟨0, 2⟩⟩ (by decide) (by decide)
  · exact absurd uuid.2.2 (by simp)
  · generalize text : ("'a" : String).toList = cs' at spells
    cases spells with
    | string value => exact absurd text (by decide)

end Source

end Cql
