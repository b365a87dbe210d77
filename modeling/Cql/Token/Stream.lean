/-
A list of tokens with a cursor.

The last token is always an end of input.  It is held apart, so that the cursor may come to rest on
it but never passes it; an end of input further in front is an ordinary token.  The tokens before
the cursor are kept in reverse, the nearest first.

* `TokenStream.ofTokens` — a stream at its first token, completed by an end of input if need be;
* `TokenStream.current`, `peek`, `advance`, `moveTo` — reading and moving;
* `TokenStream.tokens` — all tokens in order; moving the cursor never changes them
  (`tokens_advance`, `tokens_moveTo`).
-/
import Cql.Token.Basic

namespace Cql

/-- The end of the input: its text, which is most often empty, and its place. -/
structure EndMark where
  text : String
  span : Span
  deriving DecidableEq

def EndMark.token (mark : EndMark) : Token := ⟨⟨.endOfInput, mark.text⟩, mark.span⟩

/-- Tokens before the cursor, the nearest first; tokens from the cursor on; the end mark. -/
structure TokenStream where
  passed : List Token
  ahead : List Token
  final : EndMark
  deriving DecidableEq

namespace TokenStream

/-- A stream at its first token.  A list that does not end in an end of input gets one, right after
its last token. -/
def ofTokens (tokens : List Token) : TokenStream :=
  match tokens.getLast? with
  | none => ⟨[], [], "", .point 0⟩
  | some last =>
    if last.kind = .endOfInput then ⟨[], tokens.dropLast, last.text, last.span⟩
    else ⟨[], tokens, "", .point last.span.stop⟩

/-- The token `n` places ahead, or the end mark. -/
def peek (stream : TokenStream) (n : Nat) : Token := (stream.ahead[n]?).getD stream.final.token

/-- The token under the cursor. -/
def current (stream : TokenStream) : Token := stream.peek 0

/-- Moves past the current token, unless it is the end mark. -/
def advance (stream : TokenStream) : TokenStream :=
  match stream.ahead with
  | [] => stream
  | token :: rest => { stream with passed := token :: stream.passed, ahead := rest }

def check (stream : TokenStream) (kind : TokenKind) : Bool := stream.current.kind = kind

def checkAhead (stream : TokenStream) (n : Nat) (kind : TokenKind) : Bool :=
  (stream.peek n).kind = kind

/-- Moves past the current token if it has the given kind, and says whether it had. -/
def consume (stream : TokenStream) (kind : TokenKind) : Bool × TokenStream :=
  if stream.check kind then (true, stream.advance) else (false, stream)

/-- Is the current token an end of input, the last one or one further in front? -/
def atEnd (stream : TokenStream) : Bool := stream.check .endOfInput

/-- Number of tokens before the cursor. -/
def position (stream : TokenStream) : Nat := stream.passed.length

/-- All tokens but the end mark. -/
def body (stream : TokenStream) : List Token := stream.passed.reverse ++ stream.ahead

/-- All tokens, the end mark included. -/
def tokens (stream : TokenStream) : List Token := stream.body ++ [stream.final.token]

def length (stream : TokenStream) : Nat := stream.passed.length + stream.ahead.length + 1

/-- Puts the cursor before the token with a given number, or on the end mark if there is none. -/
def moveTo (stream : TokenStream) (position : Nat) : TokenStream :=
  { stream with
    passed := (stream.body.take position).reverse
    ahead := stream.body.drop position }

/-- Span of the token before the cursor, or of the current one at the very start. -/
def previousSpan (stream : TokenStream) : Span :=
  match stream.passed with
  | [] => stream.current.span
  | token :: _ => token.span

/-- Span of the token with a given number, or of the end mark. -/
def spanAt (stream : TokenStream) (position : Nat) : Span :=
  ((stream.body[position]?).getD stream.final.token).span

@[simp] theorem passed_ofTokens (tokens : List Token) : (ofTokens tokens).passed = [] := by
  unfold ofTokens
  split
  · rfl
  · split <;> rfl

/-- Only the end mark is taken off, if there is one. -/
theorem ahead_ofTokens_prefix (tokens : List Token) : (ofTokens tokens).ahead <+: tokens := by
  unfold ofTokens
  cases tokens.getLast? with
  | none => exact List.nil_prefix
  | some last =>
    dsimp only
    split
    · exact List.dropLast_prefix tokens
    · exact List.prefix_rfl

theorem ofTokens_concat (front : List Token) (mark : EndMark) :
    ofTokens (front ++ [mark.token]) = ⟨[], front, mark⟩ := by
  simp [ofTokens, EndMark.token]

@[simp] theorem final_advance (stream : TokenStream) : stream.advance.final = stream.final := by
  unfold advance
  split <;> rfl

@[simp] theorem body_advance (stream : TokenStream) : stream.advance.body = stream.body := by
  unfold advance
  split <;> simp_all [body]

@[simp] theorem tokens_advance (stream : TokenStream) : stream.advance.tokens = stream.tokens := by
  simp [tokens]

@[simp] theorem body_moveTo (stream : TokenStream) (position : Nat) :
    (stream.moveTo position).body = stream.body := by
  simp [body, moveTo]

@[simp] theorem tokens_moveTo (stream : TokenStream) (position : Nat) :
    (stream.moveTo position).tokens = stream.tokens := by
  simp [tokens, moveTo, body]

theorem length_tokens (stream : TokenStream) : stream.tokens.length = stream.length := by
  simp [tokens, body, length, Nat.add_assoc]

end TokenStream

end Cql
