/-
Quoted text: the quote character is written twice inside the quotes.

* `Quoted.encode` — the body of a text between quotes, `Quoted.render` the whole;
* `Quoted.read` — reads a body up to its closing quote, or to the end of the input when there is
  none;
* `Quoted.read_encode` — reading gives back what was written.
-/
namespace Cql.Quoted

/-- Writes every quote twice. -/
def encode (quote : Char) : List Char → List Char
  | [] => []
  | c :: rest => if c = quote then c :: c :: encode quote rest else c :: encode quote rest

/-- The text between two quotes, with the quotes inside it doubled. -/
def render (quote : Char) (text : String) : String :=
  String.ofList (quote :: (encode quote text.toList ++ [quote]))

/-- What stands between an opening quote and its closing one.  `width` counts the characters of the
body and of the closing quote, if there is one. -/
structure Body where
  value : List Char
  width : Nat
  closed : Bool
  deriving DecidableEq

/-- Puts a character that took `width` places in front of a body. -/
def Body.push (c : Char) (width : Nat) (body : Body) : Body :=
  ⟨c :: body.value, width + body.width, body.closed⟩

/-- Reads after the opening quote.  Two quotes in a row stand for one; a quote that stands alone
closes the text. -/
def read (quote : Char) : List Char → Body
  | [] => ⟨[], 0, false⟩
  | [c] => if c = quote then ⟨[], 1, true⟩ else ⟨[c], 1, false⟩
  | c :: d :: rest =>
    if c = quote then
      if d = quote then (read quote rest).push quote 2 else ⟨[], 1, true⟩
    else
      (read quote (d :: rest)).push c 1

/-- A character other than the quote stands for itself. -/
theorem read_cons {quote c : Char} (h : c ≠ quote) (rest : List Char) :
    read quote (c :: rest) = (read quote rest).push c 1 := by
  cases rest <;> simp [read, h, Body.push]

/-- A written body followed by a quote that nothing doubles is read back whole. -/
theorem read_encode (quote : Char) (text rest : List Char) (h : rest.head? ≠ some quote) :
    read quote (encode quote text ++ quote :: rest)
      = ⟨text, (encode quote text).length + 1, true⟩ := by
  induction text with
  | nil => cases rest <;> simp_all [encode, read]
  | cons c text ih =>
    by_cases hc : c = quote
    · subst hc
      simp [encode, read, ih, Body.push]
      omega
    · simp [encode, hc, read_cons hc, ih, Body.push]
      omega

end Cql.Quoted
