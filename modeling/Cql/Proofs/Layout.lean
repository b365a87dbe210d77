/-
What a text means does not depend on its layout.

A rule sees the kinds and the texts of tokens, and names places by the numbers of tokens.  So taking the
spans off all tokens and then running a rule comes to the same as running it and taking the spans off
what is left.  Two texts that differ only in blanks and comments have the same tokens but for their
spans.

* `Token.unplaced`, `Diagnostic.unplaced`, `Outcome.unplaced` — everything but the spans;
* `Rule.run_blind` — **no rule looks at a span**;
* `Parser.outcome_unplaced` — what is found out about tokens without spans;
* `outcome_of_layout` — **the same tokens, or the same text but for blanks and comments, have the same
  outcome** but for spans.
-/
import Mathlib.Data.List.Basic
import Cql.Parse

namespace Cql

/-! ### Without spans -/

/-- The token at no particular place. -/
def Token.unplaced (token : Token) : Token := { token with span := .point 0 }

def EndMark.unplaced (mark : EndMark) : EndMark := { mark with span := .point 0 }

def TokenStream.unplaced (stream : TokenStream) : TokenStream :=
  ⟨stream.passed.map Token.unplaced, stream.ahead.map Token.unplaced, stream.final.unplaced⟩

def State.unplaced (state : State) : State := { state with stream := state.stream.unplaced }

def Reply.unplaced {α : Type} (reply : Reply α) : Reply α :=
  { reply with state := reply.state.unplaced }

def Label.unplaced (label : Label) : Label := { label with span := .point 0 }

/-- The diagnostic but for the spans of its labels. -/
def Diagnostic.unplaced (diagnostic : Diagnostic) : Diagnostic :=
  { diagnostic with labels := diagnostic.labels.map Label.unplaced }

def ParsedStatement.unplaced (parsed : ParsedStatement) : ParsedStatement :=
  { parsed with span := .point 0 }

/-- The outcome but for the spans of its statement and of its diagnostics. -/
def Outcome.unplaced (outcome : Outcome) : Outcome where
  statement := outcome.statement.map ParsedStatement.unplaced
  diagnostics := outcome.diagnostics.map Diagnostic.unplaced
  aborted := outcome.aborted

theorem Token.map_unplaced_eq_iff {tokens tokens' : List Token} :
    tokens.map Token.unplaced = tokens'.map Token.unplaced ↔
      tokens.map Token.toLexeme = tokens'.map Token.toLexeme := by
  have unplaced : Token.unplaced = (fun lexeme => ⟨lexeme, .point 0⟩) ∘ Token.toLexeme := rfl
  rw [unplaced, ← List.map_map, ← List.map_map]
  refine (List.map_injective_iff.2 fun lexeme lexeme' same => ?_).eq_iff
  exact congrArg Token.toLexeme same

namespace TokenStream

theorem peek_unplaced (stream : TokenStream) (n : Nat) :
    stream.unplaced.peek n = (stream.peek n).unplaced := by
  unfold peek unplaced
  rw [List.getElem?_map]
  cases stream.ahead[n]? <;> rfl

theorem advance_unplaced (stream : TokenStream) :
    stream.unplaced.advance = stream.advance.unplaced := by
  unfold advance
  cases ahead : stream.ahead <;> simp [unplaced, ahead]

theorem position_unplaced (stream : TokenStream) : stream.unplaced.position = stream.position := by
  simp [position, unplaced]

theorem ofTokens_unplaced (tokens : List Token) :
    ofTokens (tokens.map Token.unplaced) = (ofTokens tokens).unplaced := by
  unfold ofTokens
  rw [List.getLast?_map]
  cases tokens.getLast? with
  | none => rfl
  | some last =>
    by_cases ends : last.kind = .endOfInput
    · simp [ends, Token.unplaced, unplaced, EndMark.unplaced]
    · simp [ends, Token.unplaced, unplaced, EndMark.unplaced, Span.point]

end TokenStream

/-! ### Runs -/

namespace State

theorem advance_unplaced (state : State) : state.unplaced.advance = state.advance.unplaced := by
  simp [advance, unplaced, TokenStream.advance_unplaced]

theorem lexeme_unplaced (state : State) (n : Nat) : state.unplaced.lexeme n = state.lexeme n := by
  show (state.stream.unplaced.peek n).toLexeme = _
  rw [TokenStream.peek_unplaced]
  rfl

end State

namespace Run

variable {α β : Type}

/-- Does the run come to the same whatever the spans of the tokens? -/
def Blind (run : Run α) : Prop := ∀ state, run state.unplaced = (run state).unplaced

namespace Blind

theorem done (a : α) : Blind (Run.done a) := fun _ => rfl

theorem halt (h : Halt) : Blind (Run.halt h : Run α) := fun _ => rfl

theorem andThen {run : Run α} {next : α → Run β} (first : Blind run)
    (second : ∀ a, Blind (next a)) : Blind (Run.andThen run next) := by
  intro state
  unfold Run.andThen
  rw [first state]
  cases result : (run state).result with
  | ok a => simp [Reply.unplaced, result, second a _]
  | error halt => simp [Reply.unplaced, result]

theorem attempt {run : Run α} (first : Blind run) : Blind (Run.attempt run) := by
  intro state
  unfold Run.attempt
  rw [first state]
  cases result : (run state).result with
  | ok a => simp [Reply.unplaced, result]
  | error halt => cases halt <;> simp [Reply.unplaced, result]

theorem manyUpTo {opens : TokenKind → Bool} {goesOn : α → Bool} {item : Lexeme → Run α}
    (items : ∀ lexeme, Blind (item lexeme)) (bound : Nat) :
    Blind (Run.manyUpTo opens goesOn item bound) := by
  induction bound with
  | zero => exact done []
  | succ bound ih =>
    intro state
    unfold Run.manyUpTo
    have aheadOf : state.unplaced.stream.ahead = state.stream.ahead.map Token.unplaced := rfl
    rw [aheadOf]
    cases state.stream.ahead with
    | nil => rfl
    | cons token rest =>
      -- The kind of the token and what its item is read from are the same without its span.
      have kind : token.unplaced.kind = token.kind := rfl
      have first : item token.unplaced.toLexeme state.unplaced.advance =
          (item token.toLexeme state.advance).unplaced := by
        rw [State.advance_unplaced, items]
        rfl
      simp only [List.map_cons, kind, first]
      split
      · cases result : (item token.toLexeme state.advance).result with
        | error halt => simp [Reply.unplaced, result]
        | ok a =>
          by_cases continues : goesOn a = true
          · simp [Reply.unplaced, result, continues, ih _]
          · simp [Reply.unplaced, result, continues]
      · rfl

theorem many {opens : TokenKind → Bool} {goesOn : α → Bool} {item : Lexeme → Run α}
    (items : ∀ lexeme, Blind (item lexeme)) : Blind (Run.many opens goesOn item) := by
  intro state
  have same : state.unplaced.stream.ahead.length = state.stream.ahead.length := List.length_map _
  unfold Run.many
  rw [same, manyUpTo items]

theorem skipUntil (stops : TokenKind → Bool) : Blind (Run.skipUntil stops) :=
  andThen (many fun _ => done ()) fun _ => done ()

theorem part {resync : Run Unit} {item : Run α} (skips : Blind resync) (reads : Blind item) :
    Blind (Run.part resync item) := by
  refine andThen (attempt reads) fun result => ?_
  match result with
  | some a => exact done (some a)
  | none => exact andThen skips fun _ => done none

theorem settle (parts : List (Option (Option α))) : Blind (Run.settle parts) := by
  unfold Run.settle
  dsimp only
  split
  · exact halt _
  · exact done _

theorem gather {separator : TokenKind} {stops : TokenKind → Bool} {item : Run (Option α)}
    (reads : Blind item) : Blind (Run.gather separator stops item) := by
  have next := part (skipUntil fun kind => kind = separator || stops kind) reads
  exact andThen next fun _ => andThen (many fun _ => next) fun _ => settle _

end Blind

end Run

/-- No rule looks at the span of a token. -/
theorem Rule.run_blind {α : Type} (rule : Rule α) : Run.Blind rule.run := by
  induction rule with
  | done a => exact Run.Blind.done a
  | andThen rule next first second => exact Run.Blind.andThen first second
  | look n =>
    intro state
    simp only [Rule.run, State.lexeme_unplaced]
    rfl
  | take =>
    intro state
    simp only [Rule.run, State.lexeme_unplaced, State.advance_unplaced]
    rfl
  | marker? =>
    intro state
    simp only [Rule.run, State.lexeme_unplaced, State.advance_unplaced]
    split <;> rfl
  | position =>
    intro state
    have same : state.unplaced.stream.position = state.stream.position :=
      state.stream.position_unplaced
    simp only [Rule.run, same]
    rfl
  | report problem place => exact fun _ => rfl
  | fail problem place => exact fun _ => rfl
  | abort problem place => exact fun _ => rfl
  | attempt rule ih => exact Run.Blind.attempt ih
  | many opens goesOn item ih => exact Run.Blind.many ih
  | gather separator stops item ih => exact Run.Blind.gather ih

/-! ### Outcomes -/

/-- The diagnostic of a report says the same on every stream, but for the place. -/
theorem Report.diagnostic_unplaced (stream stream' : TokenStream) (report : Report) :
    (report.diagnostic stream).unplaced = (report.diagnostic stream').unplaced := rfl

namespace Parser

/-- Parsers with the same tokens and the same diagnostics to start from, but for spans, find out the
same, but for spans. -/
theorem outcome_unplaced {parser parser' : Parser}
    (stream : parser.stream.unplaced = parser'.stream.unplaced)
    (earlier : parser.earlier.map Diagnostic.unplaced = parser'.earlier.map Diagnostic.unplaced) :
    parser.outcome.unplaced = parser'.outcome.unplaced := by
  have replies : parser.reply.unplaced = parser'.reply.unplaced := by
    unfold reply
    rw [← Grammar.query.run_blind, ← Grammar.query.run_blind]
    exact congrArg _ (congrArg (State.mk · .none) stream)
  have result : parser.reply.result = parser'.reply.result := congrArg (·.result) replies
  have reports : parser.reply.reports = parser'.reply.reports := congrArg (·.reports) replies
  have markers : parser.reply.state.markers = parser'.reply.state.markers :=
    congrArg (·.state.markers) replies
  have statements : (parser.statement? parser.reply).map ParsedStatement.unplaced =
      (parser'.statement? parser'.reply).map ParsedStatement.unplaced := by
    unfold statement?
    rw [result, markers]
    cases parser'.reply.result <;> rfl
  have found : (parser.statement? parser.reply).isNone = (parser'.statement? parser'.reply).isNone := by
    rw [← Option.isNone_map, statements, Option.isNone_map]
  have all : (parser.earlier ++ parser.reply.reports.map (·.diagnostic parser.stream)).map
        Diagnostic.unplaced =
      (parser'.earlier ++ parser'.reply.reports.map (·.diagnostic parser'.stream)).map
        Diagnostic.unplaced := by
    rw [List.map_append, List.map_append, List.map_map, List.map_map, earlier, reports]
    exact congrArg _ (List.map_congr_left fun report _ => report.diagnostic_unplaced _ _)
  have empty := congrArg List.isEmpty all
  rw [List.isEmpty_map, List.isEmpty_map] at empty
  have diagnostics : (parser.diagnostics parser.reply).map Diagnostic.unplaced =
      (parser'.diagnostics parser'.reply).map Diagnostic.unplaced := by
    unfold diagnostics
    dsimp only
    rw [found, empty]
    split
    · rfl
    · exact all
  unfold outcome Outcome.unplaced
  dsimp only
  rw [statements, diagnostics, Reply.halt?, Reply.halt?, result]

theorem outcome_of_lexemes {tokens tokens' : List Token}
    (same : tokens.map Token.toLexeme = tokens'.map Token.toLexeme) :
    (ofTokens tokens).outcome.unplaced = (ofTokens tokens').outcome.unplaced := by
  refine outcome_unplaced ?_ rfl
  show (TokenStream.ofTokens tokens).unplaced = (TokenStream.ofTokens tokens').unplaced
  rw [← TokenStream.ofTokens_unplaced, ← TokenStream.ofTokens_unplaced,
    Token.map_unplaced_eq_iff.2 same]

end Parser

/-! ### Blanks and comments -/

/-- Is the piece a blank, or a comment that is closed? -/
def Piece.isLayout (piece : Piece) : Bool :=
  match piece.segment.content with
  | .blank | .comment => piece.segment.problem.isNone
  | _ => false

/-- What a source consists of besides blanks and comments: the text of each piece, and what it is. -/
def substance (source : String) : List (List Char × Segment) :=
  ((pieces 0 0 source.toList).filter (!·.isLayout)).map fun piece => (piece.text, piece.segment)

/-- What a piece means, be it where it may. -/
def Piece.unplaced (piece : Piece) : Piece := { piece with start := 0 }

theorem Piece.token?_unplaced (piece : Piece) :
    piece.token?.map Token.toLexeme = piece.unplaced.token?.map Token.toLexeme := by
  unfold token? unplaced
  cases piece.segment.content <;> rfl

theorem Piece.diagnostic?_unplaced (piece : Piece) :
    piece.diagnostic?.map Diagnostic.unplaced = piece.unplaced.diagnostic?.map Diagnostic.unplaced := by
  unfold diagnostic? unplaced
  cases piece.segment.problem <;> rfl

/-- Layout is neither a token nor reported. -/
theorem Piece.nothing_of_isLayout {piece : Piece} (layout : piece.isLayout = true) :
    piece.token? = none ∧ piece.diagnostic? = none := by
  unfold isLayout at layout
  unfold token? diagnostic?
  split at layout
  · rename_i content
    simp [content, Option.isNone_iff_eq_none.1 layout]
  · rename_i content
    simp [content, Option.isNone_iff_eq_none.1 layout]
  · exact absurd layout (by simp)

/-- What is made of the pieces of a source can be made of its substance, if layout makes nothing and
the place of a piece does not matter. -/
theorem filterMap_pieces {β : Type} {f : Piece → Option β}
    (skips : ∀ piece : Piece, piece.isLayout = true → f piece = none)
    (blind : ∀ piece : Piece, f piece = f piece.unplaced) (source : String) :
    (pieces 0 0 source.toList).filterMap f =
      (substance source).filterMap fun part => f ⟨0, part.1, part.2⟩ := by
  unfold substance
  rw [List.filterMap_map, List.filterMap_filter]
  refine List.filterMap_congr fun piece _ => ?_
  cases layout : piece.isLayout with
  | true => simpa [layout] using skips piece layout
  | false =>
    simp only [Bool.not_false, if_true]
    exact blind piece

theorem lexemes_tokenize (source : String) : (tokenize source).tokens.map Token.toLexeme =
    (substance source).filterMap (fun part =>
      (Piece.token? ⟨0, part.1, part.2⟩).map Token.toLexeme) ++ [⟨.endOfInput, ""⟩] := by
  unfold tokenize
  dsimp only
  rw [List.map_append, List.map_filterMap,
    filterMap_pieces (f := fun piece => piece.token?.map Token.toLexeme) _ Piece.token?_unplaced]
  · rfl
  · intro piece layout
    rw [(Piece.nothing_of_isLayout layout).1, Option.map_none]

theorem diagnostics_tokenize (source : String) :
    (tokenize source).diagnostics.map Diagnostic.unplaced = (substance source).filterMap fun part =>
      (Piece.diagnostic? ⟨0, part.1, part.2⟩).map Diagnostic.unplaced := by
  unfold tokenize
  dsimp only
  rw [List.map_filterMap, filterMap_pieces (f := fun piece => piece.diagnostic?.map
    Diagnostic.unplaced) _ Piece.diagnostic?_unplaced]
  intro piece layout
  rw [(Piece.nothing_of_isLayout layout).2, Option.map_none]

/-- **The layout does not matter.**  Two lists of tokens that agree in kinds and texts have the same
outcome: the same statement with the same ordinals, the same number of bound terms, the same flag, and
diagnostics that agree in all but their spans.  So do two sources that are the same but for blanks and
comments. -/
theorem outcome_of_layout :
    (∀ tokens tokens' : List Token, tokens.map Token.toLexeme = tokens'.map Token.toLexeme →
      (Parser.ofTokens tokens).outcome.unplaced = (Parser.ofTokens tokens').outcome.unplaced) ∧
    ∀ source source' : String, substance source = substance source' →
      (parseOutcome source).unplaced = (parseOutcome source').unplaced := by
  refine ⟨fun _ _ same => Parser.outcome_of_lexemes same, fun source source' same => ?_⟩
  refine Parser.outcome_unplaced ?_ ?_
  · show (TokenStream.ofTokens _).unplaced = (TokenStream.ofTokens _).unplaced
    rw [← TokenStream.ofTokens_unplaced, ← TokenStream.ofTokens_unplaced]
    refine congrArg _ (Token.map_unplaced_eq_iff.2 ?_)
    rw [lexemes_tokenize, lexemes_tokenize, same]
  · show ((tokenize source).diagnostics ++ []).map _ = ((tokenize source').diagnostics ++ []).map _
    rw [List.append_nil, List.append_nil, diagnostics_tokenize, diagnostics_tokenize, same]

/-- A broken WHERE clause with a stray character, once with a comment and once with a line break. -/
theorem outcome_of_layout_comment :
    ((tokenize "DELETE FROM t/**/WHERE k=? AND$").tokens.map Token.toLexeme =
        (tokenize "DELETE FROM t WHERE\n k = ? AND  $ ").tokens.map Token.toLexeme ∧
      (Parser.ofTokens (tokenize "DELETE FROM t/**/WHERE k=? AND$").tokens).outcome.unplaced =
        (Parser.ofTokens (tokenize "DELETE FROM t WHERE\n k = ? AND  $ ").tokens).outcome.unplaced) ∧
    substance "DELETE FROM t/**/WHERE k=? AND$" = substance "DELETE FROM t WHERE\n k = ? AND  $ " ∧
      (parseOutcome "DELETE FROM t/**/WHERE k=? AND$").unplaced =
        (parseOutcome "DELETE FROM t WHERE\n k = ? AND  $ ").unplaced := by
  have same : substance "DELETE FROM t/**/WHERE k=? AND$" =
      substance "DELETE FROM t WHERE\n k = ? AND  $ " := by
    rw [substance, substance, String.toList_ofList, String.toList_ofList]
    decide +kernel
  have lexemes : (tokenize "DELETE FROM t/**/WHERE k=? AND$").tokens.map Token.toLexeme =
      (tokenize "DELETE FROM t WHERE\n k = ? AND  $ ").tokens.map Token.toLexeme := by
    rw [lexemes_tokenize, lexemes_tokenize, same]
  exact ⟨⟨lexemes, outcome_of_layout.1 _ _ lexemes⟩, same, outcome_of_layout.2 _ _ same⟩

end Cql
