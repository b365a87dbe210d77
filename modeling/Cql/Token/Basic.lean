/-
Tokens of CQL: what they are, how they are written, and where they stand.

* `TokenKind` — the kind of a token, with the value of a name or literal;
* `TokenKind.render` — its written form, as messages show it;
* `Lexeme` — a kind together with the raw text, all that a grammar rule may look at;
* `Token` — a lexeme with its span.
-/
import Cql.Span
import Cql.Text.Quoted
import Cql.Token.Keyword

namespace Cql

inductive Punctuation
  | questionMark
  | equal | less | greater | lessEqual | greaterEqual
  | plus | minus | star
  | leftParen | rightParen | leftBracket | rightBracket | leftBrace | rightBrace
  | comma | semicolon | dot | colon
  deriving DecidableEq, Hashable

namespace Punctuation

def spelling : Punctuation → String
  | questionMark => "?"
  | equal => "=" | less => "<" | greater => ">" | lessEqual => "<=" | greaterEqual => ">="
  | plus => "+" | minus => "-" | star => "*"
  | leftParen => "(" | rightParen => ")" | leftBracket => "[" | rightBracket => "]"
  | leftBrace => "\x7b" | rightBrace => "\x7d"
  | comma => "," | semicolon => ";" | dot => "." | colon => ":"

/-- Every mark once. -/
def all : List Punctuation :=
  [questionMark, equal, less, greater, lessEqual, greaterEqual, plus, minus, star,
   leftParen, rightParen, leftBracket, rightBracket, leftBrace, rightBrace,
   comma, semicolon, dot, colon]

/-- The mark with a given spelling. -/
def ofSpelling? (text : String) : Option Punctuation := all.find? (·.spelling = text)

theorem ofSpelling?_spelling (mark : Punctuation) : ofSpelling? mark.spelling = some mark := by
  cases mark <;> decide

end Punctuation

/-- The kind of a token.  Names and strings carry their text with the quotes taken off; numbers,
UUIDs and hexadecimal constants carry theirs as written. -/
inductive TokenKind
  | keyword (keyword : Keyword)
  | identifier (name : String)
  | quotedName (name : String)
  | string (text : String)
  | integer (digits : String)
  | float (digits : String)
  | uuid (digits : String)
  | hex (digits : String)
  | punctuation (mark : Punctuation)
  | endOfInput
  deriving DecidableEq, Hashable

namespace TokenKind

def isKeyword : TokenKind → Bool
  | keyword _ => true
  | _ => false

def isUnreservedKeyword : TokenKind → Bool
  | keyword k => k.isUnreserved
  | _ => false

def isNativeType : TokenKind → Bool
  | keyword k => k.isNativeType
  | _ => false

/-- Can the token stand where a name is expected? -/
def isNameLike : TokenKind → Bool
  | identifier _ | quotedName _ => true
  | kind => kind.isUnreservedKeyword

/-- Is the token a constant? -/
def isLiteral : TokenKind → Bool
  | string _ | integer _ | float _ | uuid _ | hex _ => true
  | keyword .TRUE | keyword .FALSE => true
  | _ => false

def isComparison : TokenKind → Bool
  | punctuation .equal | punctuation .less | punctuation .greater
  | punctuation .lessEqual | punctuation .greaterEqual => true
  | _ => false

/-- The written form of a token of this kind. -/
def render : TokenKind → String
  | keyword k => k.spelling
  | identifier name => name
  | quotedName name => Quoted.render '"' name
  | string text => Quoted.render '\'' text
  | integer digits | float digits | uuid digits | hex digits => digits
  | punctuation mark => mark.spelling
  | endOfInput => "<EOF>"

end TokenKind

/-- What a grammar rule sees of a token: its kind and its text as it stands in the source. -/
structure Lexeme where
  kind : TokenKind
  text : String
  deriving DecidableEq

structure Token extends Lexeme where
  span : Span
  deriving DecidableEq

end Cql
