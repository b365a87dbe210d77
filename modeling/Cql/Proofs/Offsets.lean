/-
A scanner by byte offsets.

It holds nothing but a byte offset into the UTF-8 form of the source.  It looks at the source through
slices only, and a slice that begins or ends inside a character, or behind the end, makes it fail.

* `Bytes.slice?` — the characters between two offsets, if both are the boundaries of characters;
* `Offsets.step?` — one step: a blank, a comment, a token or a stray character;
* `Offsets.tokenize?` — the whole scan.
-/
import Cql.Proofs.Pieces

namespace Cql

namespace Bytes

/-- The characters from one offset up to another.  There are none if the offsets are in the wrong
order, or if one of them lies inside a character or behind the end. -/
def slice? (start stop : Nat) (cs : List Char) : Option (List Char) :=
  if start ≤ stop then
    (before? start cs).bind fun front => before? (stop - start) (cs.drop front.length)
  else none

theorem slice?_eq_some {start stop : Nat} {cs text : List Char} :
    slice? start stop cs = some text ↔
      ∃ before after, cs = before ++ (text ++ after) ∧ size before = start ∧
        start + size text = stop := by
  constructor
  · intro h
    by_cases ordered : start ≤ stop
    · rw [slice?, if_pos ordered, Option.bind_eq_some_iff] at h
      obtain ⟨before, front, back⟩ := h
      obtain ⟨sized, rest, rfl⟩ := before?_eq_some.1 front
      rw [List.drop_left] at back
      obtain ⟨sized', after, rfl⟩ := before?_eq_some.1 back
      exact ⟨before, after, rfl, sized, by omega⟩
    · rw [slice?, if_neg ordered] at h
      exact absurd h (by simp)
  · rintro ⟨before, after, rfl, rfl, rfl⟩
    rw [slice?, if_pos (Nat.le_add_right _ _), before?_eq_some.2 ⟨rfl, _, rfl⟩, Option.bind_some,
      List.drop_left, Nat.add_sub_cancel_left, before?_eq_some.2 ⟨rfl, _, rfl⟩]

end Bytes

namespace Offsets

open Bytes
open Segment (isBlank isHexDigit isWordChar isSign)

/-! ### The scanner -/

section Scanner

variable (source : List Char)

/-- The characters from an offset to the end. -/
def rest? (offset : Nat) : Option (List Char) := slice? offset (size source) source

/-- The character at an offset; NUL stands for the end. -/
def peek? (offset : Nat) : Option Char := (rest? source offset).map (·.headD '\x00')

/-- The character behind the one at an offset; NUL stands for the end. -/
def peekNext? (offset : Nat) : Option Char := (rest? source offset).map (·.tail.headD '\x00')

/-- Steps over the character at an offset, but not over the end. -/
def advance? (offset : Nat) : Option Nat := do
  let c ← peek? source offset
  if c ≠ '\x00' ∨ offset < size source then some (offset + c.utf8Size) else some offset

/-- Steps over characters as long as they pass a test. -/
def skipWhile? (test : Char → Bool) (offset : Nat) : Option Nat := do
  let c ← peek? source offset
  if test c ∧ offset < size source then skipWhile? test (offset + c.utf8Size) else some offset
termination_by size source - offset
decreasing_by
  have := c.utf8Size_pos
  omega

/-- What is found at an offset: where it ends, what it is, and what is wrong with it. -/
structure Find where
  stop : Nat
  content : SegmentContent
  problem : Option LexicalProblem

/-- The closing mark of a block comment: where it ends, and whether there is one. -/
def closeComment? (offset : Nat) : Option (Nat × Bool) :=
  if offset < size source then do
    let c ← peek? source offset
    let next ← peekNext? source offset
    if c = '*' ∧ next = '/' then some (offset + c.utf8Size + next.utf8Size, true)
    else closeComment? (offset + c.utf8Size)
  else some (offset, false)
termination_by size source - offset
decreasing_by
  have := c.utf8Size_pos
  omega

/-- The UUID at an offset, if there is one.  Here a slice may fail: then there is none. -/
def uuid? (start : Nat) : Option (List Char) :=
  (slice? start (start + 36) source).filter (Segment.startsWith Segment.uuidForm)

/-- The end of the fraction at an offset. -/
def fractionEnd? (offset : Nat) : Option Nat := do
  let c ← peek? source offset
  if c = '.' then
    let digits ← advance? source offset
    skipWhile? source Char.isDigit digits
  else some offset

/-- Is the exponent mark at an offset followed by a digit, with or without a sign between? -/
def exponentFollows? (offset : Nat) : Option Bool := do
  let behind ← rest? source (offset + 1)
  let digits := if behind.head?.any isSign then behind.tail else behind
  some (digits.head?.any Char.isDigit)

/-- The end of the sign at an offset. -/
def signEnd? (offset : Nat) : Option Nat := do
  let c ← peek? source offset
  if isSign c then advance? source offset else some offset

/-- The end of the exponent at an offset. -/
def exponentEnd? (offset : Nat) : Option Nat := do
  let c ← peek? source offset
  if c = 'e' ∨ c = 'E' then
    let complete ← exponentFollows? source offset
    if complete then
      let sign ← advance? source offset
      let digits ← signEnd? source sign
      skipWhile? source Char.isDigit digits
    else some offset
  else some offset

/-- The number that begins at `start` and has its first digits at or behind `offset`. -/
def number? (start offset : Nat) : Option Find := do
  let whole ← skipWhile? source Char.isDigit offset
  let fraction ← fractionEnd? source whole
  let stop ← exponentEnd? source fraction
  let text ← slice? start stop source
  let digits := String.ofList text
  some ⟨stop, .token (if stop = whole then .integer digits else .float digits), none⟩

/-- The keyword or identifier that begins at `start`. -/
def word? (start offset : Nat) : Option Find := do
  let stop ← skipWhile? source isWordChar offset
  let text ← slice? start stop source
  some ⟨stop, .token (Segment.wordKind text), none⟩

/-- The hexadecimal constant that begins at `start` and has its `x` at `offset`. -/
def hexConstant? (start offset : Nat) : Option Find := do
  let digits ← advance? source offset
  let run ← skipWhile? source isHexDigit digits
  let stop ← skipWhile? source isWordChar run
  let text ← slice? start stop source
  let constant := String.ofList text
  some ⟨stop, .token (.hex constant), if stop = run then none else some (.malformedHex constant)⟩

/-- A body up to its closing quote: its value, where it ends, and whether there is such a quote. -/
def readQuoted? (quote : Char) (offset : Nat) : Option (List Char × Nat × Bool) :=
  if offset < size source then do
    let c ← peek? source offset
    if c = quote then
      let next ← peek? source (offset + c.utf8Size)
      if next = quote then
        let (value, stop, closed) ← readQuoted? quote (offset + c.utf8Size + next.utf8Size)
        some (quote :: value, stop, closed)
      else some ([], offset + c.utf8Size, true)
    else
      let (value, stop, closed) ← readQuoted? quote (offset + c.utf8Size)
      some (c :: value, stop, closed)
  else some ([], offset, false)
termination_by size source - offset
decreasing_by
  · have := c.utf8Size_pos
    omega
  · have := c.utf8Size_pos
    omega

/-- Two quotes in a row become one. -/
def undouble (quote : Char) : List Char → List Char
  | c :: d :: rest =>
    if c = quote ∧ d = quote then quote :: undouble quote rest else c :: undouble quote (d :: rest)
  | cs => cs

/-- The string or quoted name that begins at `start`, with its body at `offset`.  If nothing closes it,
its value is read off the rest of the source. -/
def quoted? (quote : Char) (kind : String → TokenKind) (problem : LexicalProblem)
    (start offset : Nat) : Option Find := do
  let (value, stop, closed) ← readQuoted? source quote offset
  if closed then
    let token := kind (String.ofList value)
    some ⟨stop, .token token, token.problem?⟩
  else
    let rest ← rest? source (start + 1)
    some ⟨stop, .token (kind (String.ofList (undouble quote rest))), some problem⟩

/-- The mark of one character that ends at an offset, or a stray character. -/
def markOrStray (offset : Nat) (c : Char) : Find :=
  match Punctuation.ofSpelling? c.toString with
  | some mark => ⟨offset, .token (.punctuation mark), none⟩
  | none => ⟨offset, .stray, some (.invalidCharacter c)⟩

/-- The word, string, quoted name, mark or stray character that begins with `c` at `start`. -/
def plain? (start offset : Nat) (c : Char) : Option Find := do
  let next ← peek? source offset
  if c.isAlpha then word? source start offset
  else if c = '\'' then quoted? source '\'' .string .unclosedString start offset
  else if c = '"' then quoted? source '"' .quotedName .unclosedName start offset
  else if (c = '<' ∨ c = '>') ∧ next = '=' then
    let stop ← advance? source offset
    some ⟨stop, .token (.punctuation (if c = '<' then .lessEqual else .greaterEqual)), none⟩
  else some (markOrStray offset c)

/-- What begins with `c` at `start`, if it is no blank and no comment. -/
def token? (start : Nat) (c : Char) : Option Find :=
  match if isHexDigit c then uuid? source start else none with
  | some text => some ⟨start + 36, .token (.uuid (String.ofList text)), none⟩
  | none => do
    let offset ← advance? source start
    let next ← peek? source offset
    if c = '0' ∧ (next = 'x' ∨ next = 'X') then hexConstant? source start offset
    else if c.isDigit then number? source start offset
    else if c = '-' ∧ next.isDigit then number? source start offset
    else plain? source start offset c

/-- One step of the scan. -/
def step? (start : Nat) : Option Find := do
  let c ← peek? source start
  let next ← peekNext? source start
  if isBlank c then
    let stop ← advance? source start
    some ⟨stop, .blank, none⟩
  else if (c = '-' ∧ next = '-') ∨ (c = '/' ∧ next = '/') then
    let stop ← skipWhile? source (· ≠ '\n') start
    some ⟨stop, .comment, none⟩
  else if c = '/' ∧ next = '*' then
    let star ← advance? source start
    let body ← advance? source star
    let (stop, closed) ← closeComment? source body
    some ⟨stop, .comment, if closed then none else some .unclosedComment⟩
  else token? source start c

/-- The token of what was found, with its text cut out of the source. -/
def tokenAt? (start : Nat) (find : Find) : Option (List Token) :=
  match find.content with
  | .token kind => do
    let text ← slice? start find.stop source
    some [⟨⟨kind, String.ofList text⟩, ⟨start, find.stop⟩⟩]
  | _ => some []

/-- The diagnostic for a problem.  Only the first character is shown, unless a whole token is. -/
def diagnosticAt? (start : Nat) (find : Find) : Option (List Diagnostic) :=
  match find.problem with
  | some problem => do
    let rest ← rest? source start
    let stop := if problem.ofWholeToken then find.stop else start + size (rest.take 1)
    some [⟨.error, problem.message, [⟨.primary, ⟨start, stop⟩, "here"⟩], none, some problem.code⟩]
  | none => some []

/-- The tokens and diagnostics from an offset to the end.  A step that does not move on fails too. -/
def scan? (offset : Nat) : Option (List Token × List Diagnostic) :=
  if offset < size source then do
    let find ← step? source offset
    let token ← tokenAt? source offset find
    let diagnostic ← diagnosticAt? source offset find
    if offset < find.stop then
      let (tokens, diagnostics) ← scan? find.stop
      some (token ++ tokens, diagnostic ++ diagnostics)
    else none
  else some ([], [])
termination_by size source - offset
decreasing_by omega

end Scanner

/-- The tokens and diagnostics of a source, if no slice fails. -/
def tokenize? (source : String) : Option Lexing := do
  let (tokens, diagnostics) ← scan? source.toList 0
  some ⟨tokens ++ [⟨⟨.endOfInput, ""⟩, ⟨source.utf8ByteSize, source.utf8ByteSize⟩⟩], diagnostics⟩

end Offsets

end Cql
