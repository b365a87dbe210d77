/-
Lower-casing of a text, after the Unicode rules that need no language.

Each character has its own lower-case form, with two exceptions: a capital I with dot becomes two
characters, and a capital sigma at the end of a word takes the final form.  The end of a word is
read off the neighbours, skipping the characters that casing ignores.

* `Lowercase.text` — the lower-case form of a text.
-/
import Cql.Text.CaseTable

namespace Cql.Lowercase

open CaseTable

/-- Is the code point in one of the ranges? -/
def inRanges (ranges : List (Nat × Nat)) (c : Char) : Bool :=
  ranges.any fun range => range.1 ≤ c.toNat && c.toNat ≤ range.2

/-- The lower-case form of a character on its own. -/
def char (c : Char) : List Char :=
  if c.toNat < 0x80 then [c.toLower]
  else if c = '\u0130' then ['i', '\u0307']
  else
    match lowercaseRanges.findSome? (·.lower? c.toNat) with
    | some code => [Char.ofNat code]
    | none => [c]

/-- Is the first character that casing does not ignore a letter with a case? -/
def meetsLetter (cs : List Char) : Bool :=
  match cs.dropWhile (inRanges caseIgnorableRanges) with
  | [] => false
  | c :: _ => inRanges casedRanges c

/-- Lower-cases the characters of `cs`; `before` holds those in front of them, the nearest first.  A
capital sigma is final when a letter comes before it and none after it. -/
def chars (before : List Char) : List Char → List Char
  | [] => []
  | c :: cs =>
    (if c = 'Σ' then
      if meetsLetter before && !meetsLetter cs then ['ς'] else ['σ']
    else
      char c) ++ chars (c :: before) cs

/-- The lower-case form of a text. -/
def text (s : String) : String := String.ofList (chars [] s.toList)

end Cql.Lowercase
