/-
The first segment of a text: a blank, a comment, a token, or a stray character.

The classes of tokens overlap.  A UUID is looked for before anything else, since it may begin like a
number or like a word; a minus sign in front of a digit belongs to the number; two minus signs begin
a comment; `0x` begins a hexadecimal constant.  Everything else is told apart by its first character
and taken as long as possible.

* `Segment` — how many characters, what they are, and what is wrong with them;
* `Segment.first` — the segment at the front of a text; it takes at least one character
  (`Segment.first_width_pos`).
-/
import Cql.Diagnostic.Lexical
import Cql.Token.Basic

namespace Cql

/-- What a segment is. -/
inductive SegmentContent
  | blank
  | comment
  | token (kind : TokenKind)
  | stray
  deriving DecidableEq

structure Segment where
  /-- Number of characters. -/
  width : Nat
  content : SegmentContent
  problem : Option LexicalProblem
  deriving DecidableEq

namespace Segment

def isBlank (c : Char) : Bool := c = ' ' || c = '\t' || c = '\r' || c = '\n'

def isHexDigit (c : Char) : Bool :=
  c.isDigit || ('a' ≤ c && c ≤ 'f') || ('A' ≤ c && c ≤ 'F')

/-- Can the character stand inside a word? -/
def isWordChar (c : Char) : Bool := c.isAlphanum || c = '_'

/-- A token without a problem. -/
def ofKind (width : Nat) (kind : TokenKind) : Segment := ⟨width, .token kind, none⟩

def ofMark (mark : Punctuation) : Segment := ofKind 1 (.punctuation mark)

/-- The form of a UUID: 8, 4, 4, 4 and 12 hexadecimal digits with hyphens between. -/
def uuidForm : List (Char → Bool) :=
  let digits (n : Nat) := List.replicate n isHexDigit
  let hyphen : List (Char → Bool) := [(· = '-')]
  digits 8 ++ hyphen ++ digits 4 ++ hyphen ++ digits 4 ++ hyphen ++ digits 4 ++ hyphen ++ digits 12

/-- Do the characters begin with ones of the given forms? -/
def startsWith : List (Char → Bool) → List Char → Bool
  | [], _ => true
  | _ :: _, [] => false
  | form :: forms, c :: cs => form c && startsWith forms cs

/-- Number of digits in front. -/
def digitRun (cs : List Char) : Nat := (cs.takeWhile Char.isDigit).length

/-- Width of the fraction in front: a point and any number of digits. -/
def fractionWidth : List Char → Nat
  | '.' :: cs => 1 + digitRun cs
  | _ => 0

def isSign (c : Char) : Bool := c = '+' || c = '-'

/-- Width of the exponent in front.  Without a digit in it there is none. -/
def exponentWidth : List Char → Nat
  | [] => 0
  | mark :: cs =>
    let signWidth := (cs.take 1).countP isSign
    let digits := digitRun (cs.drop signWidth)
    if (mark = 'e' ∨ mark = 'E') ∧ digits ≠ 0 then 1 + signWidth + digits else 0

/-- The number at the front of `cs`, whose first `signWidth` characters are its sign. -/
def number (signWidth : Nat) (cs : List Char) : Segment :=
  let whole := signWidth + digitRun (cs.drop signWidth)
  let fraction := fractionWidth (cs.drop whole)
  let exponent := exponentWidth (cs.drop (whole + fraction))
  let width := whole + fraction + exponent
  let text := String.ofList (cs.take width)
  ofKind width (if fraction + exponent = 0 then .integer text else .float text)

/-- The keyword or identifier at the front of `cs`. -/
def word (cs : List Char) : Segment :=
  let letters := cs.takeWhile isWordChar
  let text := String.ofList letters
  ofKind letters.length
    (match Keyword.ofWord? text with
     | some keyword => .keyword keyword
     | none => .identifier text)

/-- The hexadecimal constant at the front of `cs`.  It takes every word character in its way, and
all after the `0x` should be hexadecimal digits. -/
def hexConstant (cs : List Char) : Segment :=
  let letters := cs.takeWhile isWordChar
  let text := String.ofList letters
  ⟨letters.length, .token (.hex text),
    if (letters.drop 2).all isHexDigit then none else some (.malformedHex text)⟩

/-- A string after its opening quote. -/
def stringAfterQuote (rest : List Char) : Segment :=
  let body := Quoted.read '\'' rest
  ⟨1 + body.width, .token (.string (String.ofList body.value)),
    if body.closed then none else some .unclosedString⟩

/-- A quoted name after its opening quote. -/
def nameAfterQuote (rest : List Char) : Segment :=
  let body := Quoted.read '"' rest
  ⟨1 + body.width, .token (.quotedName (String.ofList body.value)),
    if !body.closed then some .unclosedName
    else if body.value.isEmpty then some .emptyName
    else none⟩

/-- Width of the rest of a block comment with its closing mark, if it is closed. -/
def closingWidth? : List Char → Option Nat
  | [] => none
  | [_] => none
  | c :: d :: cs =>
    if c = '*' ∧ d = '/' then some 2 else (closingWidth? (d :: cs)).map (· + 1)

/-- A comment that ends before the next line feed, after its two opening characters. -/
def lineComment (rest : List Char) : Segment :=
  ⟨2 + (rest.takeWhile (· ≠ '\n')).length, .comment, none⟩

/-- A block comment after its two opening characters. -/
def blockComment (rest : List Char) : Segment :=
  match closingWidth? rest with
  | some width => ⟨2 + width, .comment, none⟩
  | none => ⟨2 + rest.length, .comment, some .unclosedComment⟩

/-- A comparison sign, with the equal sign after it if there is one. -/
def comparison (alone withEqual : Punctuation) (rest : List Char) : Segment :=
  if rest.head? = some '=' then ofKind 2 (.punctuation withEqual) else ofMark alone

/-- A mark of one character, or a stray character. -/
def markOrStray (c : Char) : Segment :=
  match Punctuation.ofSpelling? c.toString with
  | some mark => ofMark mark
  | none => ⟨1, .stray, some (.invalidCharacter c)⟩

/-- A blank or a comment. -/
def gap? (c : Char) (rest : List Char) : Option Segment :=
  if isBlank c then some ⟨1, .blank, none⟩
  else if (c = '-' ∧ rest.head? = some '-') ∨ (c = '/' ∧ rest.head? = some '/') then
    some (lineComment (rest.drop 1))
  else if c = '/' ∧ rest.head? = some '*' then some (blockComment (rest.drop 1))
  else none

/-- A UUID, a hexadecimal constant or a number. -/
def constant? (c : Char) (rest : List Char) : Option Segment :=
  if startsWith uuidForm (c :: rest) then
    some (ofKind uuidForm.length (.uuid (String.ofList ((c :: rest).take uuidForm.length))))
  else if c = '0' ∧ (rest.head? = some 'x' ∨ rest.head? = some 'X') then some (hexConstant (c :: rest))
  else if c.isDigit then some (number 0 (c :: rest))
  else if c = '-' ∧ rest.head?.any Char.isDigit then some (number 1 (c :: rest))
  else none

/-- A word, a string, a quoted name, a mark or a stray character. -/
def plain (c : Char) (rest : List Char) : Segment :=
  if c.isAlpha then word (c :: rest)
  else if c = '\'' then stringAfterQuote rest
  else if c = '"' then nameAfterQuote rest
  else if c = '<' then comparison .less .lessEqual rest
  else if c = '>' then comparison .greater .greaterEqual rest
  else markOrStray c

/-- The segment at the front of `c :: rest`. -/
def first (c : Char) (rest : List Char) : Segment :=
  match gap? c rest, constant? c rest with
  | some segment, _ => segment
  | none, some segment => segment
  | none, none => plain c rest

theorem width_ofKind (width : Nat) (kind : TokenKind) : (ofKind width kind).width = width := rfl

theorem number_width_pos (signWidth : Nat) {c : Char} {cs : List Char}
    (h : (cs.drop signWidth).head? = some c) (digit : c.isDigit = true) :
    0 < (number signWidth cs).width := by
  match hcs : cs.drop signWidth, h with
  | d :: rest, h =>
    simp only [List.head?_cons, Option.some.injEq] at h
    simp only [number, width_ofKind, hcs, digitRun, List.takeWhile_cons, h, digit, if_true,
      List.length_cons]
    omega

theorem word_width_pos {c : Char} (letter : isWordChar c = true) (rest : List Char) :
    0 < (word (c :: rest)).width := by
  simp [word, width_ofKind, letter]

theorem hexConstant_width_pos {c : Char} (letter : isWordChar c = true) (rest : List Char) :
    0 < (hexConstant (c :: rest)).width := by
  simp [hexConstant, letter]

theorem blockComment_width_pos (rest : List Char) : 0 < (blockComment rest).width := by
  unfold blockComment
  split <;> simp only <;> omega

theorem comparison_width_pos (alone withEqual : Punctuation) (rest : List Char) :
    0 < (comparison alone withEqual rest).width := by
  unfold comparison
  split <;> simp [ofMark, width_ofKind]

theorem markOrStray_width (c : Char) : (markOrStray c).width = 1 := by
  unfold markOrStray
  split <;> rfl

theorem gap?_width_pos {c : Char} {rest : List Char} {segment : Segment}
    (h : gap? c rest = some segment) : 0 < segment.width := by
  unfold gap? at h
  split at h
  · cases h
    exact Nat.one_pos
  split at h
  · cases h
    simp only [lineComment]
    omega
  split at h
  · cases h
    exact blockComment_width_pos _
  · cases h

theorem constant?_width_pos {c : Char} {rest : List Char} {segment : Segment}
    (h : constant? c rest = some segment) : 0 < segment.width := by
  unfold constant? at h
  split at h
  · cases h
    simp only [width_ofKind]
    decide
  split at h
  · rename_i zero
    cases h
    exact hexConstant_width_pos (by simp [zero.1, isWordChar]) rest
  split at h
  · rename_i digit
    cases h
    exact number_width_pos 0 rfl digit
  split at h
  · rename_i sign
    cases h
    obtain ⟨d, next, digit⟩ := (Option.any_eq_true _ _).1 sign.2
    exact number_width_pos 1 next digit
  · cases h

theorem plain_width_pos (c : Char) (rest : List Char) : 0 < (plain c rest).width := by
  unfold plain
  split
  · rename_i letter
    exact word_width_pos (by simp [isWordChar, Char.isAlphanum, letter]) rest
  split
  · simp only [stringAfterQuote]
    omega
  split
  · simp only [nameAfterQuote]
    omega
  split
  · exact comparison_width_pos _ _ _
  split
  · exact comparison_width_pos _ _ _
  · simp [markOrStray_width]

/-- No segment is empty. -/
theorem first_width_pos (c : Char) (rest : List Char) : 0 < (first c rest).width := by
  unfold first
  split
  · rename_i h
    exact gap?_width_pos h
  · rename_i h
    exact constant?_width_pos h
  · exact plain_width_pos c rest

end Segment

end Cql
