/-
The lexical grammar of CQL, as regular languages.

A text is cut into tokens by longest match: at each place the longest text counts that spells a token.
UUIDs come before all others.

* `Lexical.word`, `Lexical.integer`, `Lexical.float`, `Lexical.hexConstant`, `Lexical.uuid` — the
  classes of texts;
* `Lexical.Spells` — which kind of token a text spells;
* `Lexical.Unclosed` — a string or a quoted name that nothing closes;
* `Lexical.Comment` — a comment, in front of what comes after it;
* `Lexical.Selects` — the token that the grammar selects at the front of a text.
-/
import Mathlib.Computability.Language
import Cql.Token.Segment

open scoped Computability

namespace Cql

theorem toList_toUpper (word : String) : word.toUpper.toList = word.toList.map Char.toUpper := by
  rw [← String.toList_map]
  rfl

namespace Lexical

open Segment (isBlank isHexDigit isWordChar isSign)

/-! ### Classes of texts -/

/-- The texts of one character that passes a test. -/
def one (test : Char → Bool) : Language Char := {text | ∃ c, test c = true ∧ text = [c]}

/-- `[A-Za-z][A-Za-z0-9_]*` -/
def word : Language Char := one Char.isAlpha * (one isWordChar)∗

/-- `[0-9]+` -/
def digits : Language Char := one Char.isDigit * (one Char.isDigit)∗

/-- `-?[0-9]+` -/
def integer : Language Char := (1 + one (· = '-')) * digits

/-- `.[0-9]*` -/
def fraction : Language Char := one (· = '.') * (one Char.isDigit)∗

/-- `[eE][+-]?[0-9]+` -/
def exponent : Language Char :=
  one (fun c => c = 'e' || c = 'E') * (1 + one isSign) * digits

/-- `-?[0-9]+` with a fraction, an exponent, or both. -/
def float : Language Char := integer * (fraction + exponent + fraction * exponent)

/-- `0[xX]`, then any number of characters that pass a test. -/
def hexConstant (test : Char → Bool) : Language Char :=
  one (· = '0') * one (fun c => c = 'x' || c = 'X') * (one test)∗

/-- Hexadecimal digits in groups of 8, 4, 4, 4 and 12, with hyphens between. -/
def uuid : Language Char :=
  let group (n : Nat) : Language Char := one isHexDigit ^ n
  let hyphen : Language Char := one (· = '-')
  group 8 * hyphen * group 4 * hyphen * group 4 * hyphen * group 4 * hyphen * group 12

/-! ### Tokens and comments -/

/-- The text spells a token of the kind. -/
inductive Spells : List Char → TokenKind → Prop
  | keyword {text : List Char} {keyword : Keyword} (mem : text ∈ word)
      (same : (String.ofList text).toUpper = keyword.spelling) : Spells text (.keyword keyword)
  | identifier {text : List Char} (mem : text ∈ word)
      (other : ∀ keyword : Keyword, (String.ofList text).toUpper ≠ keyword.spelling) :
      Spells text (.identifier (String.ofList text))
  | integer {text : List Char} (mem : text ∈ integer) : Spells text (.integer (String.ofList text))
  | float {text : List Char} (mem : text ∈ float) : Spells text (.float (String.ofList text))
  | hex {text : List Char} (mem : text ∈ hexConstant isWordChar) :
      Spells text (.hex (String.ofList text))
  | string (value : String) : Spells (Quoted.render '\'' value).toList (.string value)
  | quotedName (value : String) : Spells (Quoted.render '"' value).toList (.quotedName value)
  | mark (mark : Punctuation) : Spells mark.spelling.toList (.punctuation mark)

/-- The text opens a string or a quoted name and ends before it is closed. -/
inductive Unclosed : List Char → TokenKind → LexicalProblem → Prop
  | string (value : List Char) :
      Unclosed ('\'' :: Quoted.encode '\'' value) (.string (String.ofList value)) .unclosedString
  | quotedName (value : List Char) :
      Unclosed ('"' :: Quoted.encode '"' value) (.quotedName (String.ofList value)) .unclosedName

/-- The text is a comment, in front of `after`.  A line comment stops before the line feed, a block
comment after the first closing mark.  Without a closing mark it takes all there is. -/
inductive Comment : List Char → List Char → Option LexicalProblem → Prop
  | line {mark : Char} {body after : List Char} (opens : mark = '-' ∨ mark = '/')
      (within : '\n' ∉ body) (stops : after = [] ∨ after.head? = some '\n') :
      Comment (mark :: mark :: body) after none
  | block {body after : List Char} (within : ¬ ['*', '/'] <:+: body) :
      Comment ('/' :: '*' :: (body ++ ['*', '/'])) after none
  | unclosed {body : List Char} (within : ¬ ['*', '/'] <:+: body) :
      Comment ('/' :: '*' :: body) [] (some .unclosedComment)

/-! ### Longest match -/

/-- The longest of the candidates: every other one is shorter. -/
def Longest (candidates : List Char → TokenKind → Prop) (text : List Char) (kind : TokenKind) : Prop :=
  candidates text kind ∧ ∀ text' kind', candidates text' kind' →
    text'.length < text.length ∨ text' = text ∧ kind' = kind

/-- The token at the front of `cs`: a UUID if there is one, and else the longest candidate. -/
def Selects (candidates : List Char → List Char → TokenKind → Prop) (cs text : List Char)
    (kind : TokenKind) : Prop :=
  (text ∈ uuid ∧ text <+: cs ∧ kind = .uuid (String.ofList text)) ∨
    (∀ front ∈ uuid, ¬ front <+: cs) ∧ Longest (candidates cs) text kind

/-- A text in front that spells a token. -/
def InFront (cs text : List Char) (kind : TokenKind) : Prop := text <+: cs ∧ Spells text kind

/-- A text in front that spells a token, or all that there is if it opens a quote and never closes
it. -/
def InFrontOrUnclosed (cs text : List Char) (kind : TokenKind) : Prop :=
  InFront cs text kind ∨ text = cs ∧ ∃ problem, Unclosed cs kind problem

/-! ### What is in the classes -/

@[simp] theorem mem_one {test : Char → Bool} {text : List Char} :
    text ∈ one test ↔ ∃ c, test c = true ∧ text = [c] := Iff.rfl

theorem mem_one_mul {test : Char → Bool} {language : Language Char} {text : List Char} :
    text ∈ one test * language ↔ ∃ c rest, text = c :: rest ∧ test c = true ∧ rest ∈ language := by
  rw [Language.mem_mul]
  constructor
  · rintro ⟨_, ⟨c, passes, rfl⟩, rest, mem, rfl⟩
    exact ⟨c, rest, rfl, passes, mem⟩
  · rintro ⟨c, rest, rfl, passes, mem⟩
    exact ⟨[c], ⟨c, passes, rfl⟩, rest, mem, rfl⟩

theorem mem_one_kstar {test : Char → Bool} {text : List Char} :
    text ∈ (one test)∗ ↔ ∀ c ∈ text, test c = true := by
  rw [Language.mem_kstar]
  constructor
  · rintro ⟨parts, rfl, singles⟩ c mem
    obtain ⟨part, memPart, memChar⟩ := List.mem_flatten.1 mem
    obtain ⟨d, passes, rfl⟩ := singles part memPart
    rwa [List.mem_singleton.1 memChar]
  · intro passes
    refine ⟨text.map fun c => [c], by simp [List.flatten_eq_flatMap, List.flatMap_map], ?_⟩
    intro part memPart
    obtain ⟨c, mem, rfl⟩ := List.mem_map.1 memPart
    exact ⟨c, passes c mem, rfl⟩

theorem mem_word {text : List Char} :
    text ∈ word ↔ ∃ c rest, text = c :: rest ∧ c.isAlpha = true ∧ ∀ d ∈ rest, isWordChar d = true := by
  simp only [word, mem_one_mul, mem_one_kstar]

theorem mem_digits {text : List Char} :
    text ∈ digits ↔ text ≠ [] ∧ ∀ c ∈ text, c.isDigit = true := by
  simp only [digits, mem_one_mul, mem_one_kstar]
  constructor
  · rintro ⟨c, rest, rfl, digit, rest'⟩
    simpa [digit] using rest'
  · rintro ⟨nonempty, all⟩
    match text, nonempty, all with
    | c :: rest, _, all => exact ⟨c, rest, rfl, all c (by simp), fun d mem => all d (by simp [mem])⟩

/-- What begins with a character that may be missing. -/
theorem mem_optional_mul {test : Char → Bool} {language : Language Char} {text : List Char} :
    text ∈ (1 + one test) * language ↔
      text ∈ language ∨ ∃ c rest, text = c :: rest ∧ test c = true ∧ rest ∈ language := by
  rw [add_mul, one_mul, Language.mem_add, mem_one_mul]

theorem mem_integer {text : List Char} :
    text ∈ integer ↔ text ∈ digits ∨ ∃ ds ∈ digits, text = '-' :: ds := by
  rw [integer, mem_optional_mul]
  constructor
  · rintro (mem | ⟨c, rest, rfl, minus, mem⟩)
    · exact .inl mem
    · exact .inr ⟨rest, mem, by rw [of_decide_eq_true minus]⟩
  · rintro (mem | ⟨rest, mem, rfl⟩)
    · exact .inl mem
    · exact .inr ⟨'-', rest, rfl, rfl, mem⟩

theorem mem_fraction {text : List Char} :
    text ∈ fraction ↔ ∃ ds, text = '.' :: ds ∧ ∀ c ∈ ds, c.isDigit = true := by
  simp only [fraction, mem_one_mul, mem_one_kstar]
  constructor
  · rintro ⟨c, ds, rfl, point, all⟩
    exact ⟨ds, by rw [of_decide_eq_true point], all⟩
  · rintro ⟨ds, rfl, all⟩
    exact ⟨'.', ds, rfl, rfl, all⟩

theorem mem_exponent {text : List Char} :
    text ∈ exponent ↔ ∃ mark sign, ∃ ds ∈ digits, text = mark :: (sign ++ ds) ∧
      (mark = 'e' ∨ mark = 'E') ∧ (sign = [] ∨ ∃ c, sign = [c] ∧ isSign c = true) := by
  simp only [exponent, mul_assoc, mem_one_mul, mem_optional_mul, Bool.or_eq_true, decide_eq_true_eq]
  constructor
  · rintro ⟨mark, rest, rfl, marked, mem | ⟨c, ds, rfl, signed, mem⟩⟩
    · exact ⟨mark, [], rest, mem, rfl, marked, .inl rfl⟩
    · exact ⟨mark, [c], ds, mem, rfl, marked, .inr ⟨c, rfl, signed⟩⟩
  · rintro ⟨mark, sign, ds, mem, rfl, marked, rfl | ⟨c, rfl, signed⟩⟩
    · exact ⟨mark, ds, rfl, marked, .inl mem⟩
    · exact ⟨mark, c :: ds, rfl, marked, .inr ⟨c, ds, rfl, signed, mem⟩⟩

/-- What comes after the digits of a float: a fraction, an exponent, or both. -/
def IsTail (front back : List Char) : Prop :=
  front ∈ fraction ∧ back = [] ∨ front = [] ∧ back ∈ exponent ∨ front ∈ fraction ∧ back ∈ exponent

theorem isTail_iff {front back : List Char} :
    IsTail front back ↔ (front = [] ∨ front ∈ fraction) ∧ (back = [] ∨ back ∈ exponent) ∧
      front ++ back ≠ [] := by
  constructor
  · rintro (⟨mem, rfl⟩ | ⟨rfl, mem⟩ | ⟨memFront, memBack⟩)
    · obtain ⟨ds, rfl, -⟩ := mem_fraction.1 mem
      exact ⟨.inr mem, .inl rfl, by simp⟩
    · obtain ⟨mark, sign, ds, -, rfl, -⟩ := mem_exponent.1 mem
      exact ⟨.inl rfl, .inr mem, by simp⟩
    · obtain ⟨ds, rfl, -⟩ := mem_fraction.1 memFront
      exact ⟨.inr memFront, .inr memBack, by simp⟩
  · rintro ⟨rfl | memFront, rfl | memBack, nonempty⟩
    · exact absurd rfl nonempty
    · exact .inr (.inl ⟨rfl, memBack⟩)
    · exact .inl ⟨memFront, rfl⟩
    · exact .inr (.inr ⟨memFront, memBack⟩)

/-- A float is an integer with something after it. -/
theorem mem_float {text : List Char} :
    text ∈ float ↔ ∃ whole ∈ integer, ∃ front back, text = whole ++ (front ++ back) ∧
      IsTail front back := by
  simp only [float, @Language.mem_mul _ integer, Language.mem_add]
  constructor
  · rintro ⟨whole, memWhole, _, (mem | mem) | mem, rfl⟩
    · exact ⟨whole, memWhole, _, [], by simp, .inl ⟨mem, rfl⟩⟩
    · exact ⟨whole, memWhole, [], _, by simp, .inr (.inl ⟨rfl, mem⟩)⟩
    · obtain ⟨front, memFront, back, memBack, rfl⟩ := Language.mem_mul.1 mem
      exact ⟨whole, memWhole, front, back, rfl, .inr (.inr ⟨memFront, memBack⟩)⟩
  · rintro ⟨whole, memWhole, front, back, rfl, ⟨mem, rfl⟩ | ⟨rfl, mem⟩ | ⟨memFront, memBack⟩⟩
    · exact ⟨whole, memWhole, front, .inl (.inl mem), by simp⟩
    · exact ⟨whole, memWhole, back, .inl (.inr mem), by simp⟩
    · exact ⟨whole, memWhole, _, .inr (Language.append_mem_mul memFront memBack), rfl⟩

theorem mem_hexConstant {test : Char → Bool} {text : List Char} :
    text ∈ hexConstant test ↔ ∃ mark run, text = '0' :: mark :: run ∧
      (mark = 'x' ∨ mark = 'X') ∧ ∀ c ∈ run, test c = true := by
  simp only [hexConstant, mul_assoc, mem_one_mul, mem_one_kstar, Bool.or_eq_true, decide_eq_true_eq]
  constructor
  · rintro ⟨zero, _, rfl, rfl, mark, run, rfl, marked, all⟩
    exact ⟨mark, run, rfl, marked, all⟩
  · rintro ⟨mark, run, rfl, marked, all⟩
    exact ⟨'0', mark :: run, rfl, rfl, mark, run, rfl, marked, all⟩

theorem isWordChar_of_mem_word {text : List Char} (mem : text ∈ word) :
    ∀ c ∈ text, isWordChar c = true := by
  obtain ⟨c, rest, rfl, letter, all⟩ := mem_word.1 mem
  intro d mem
  rcases List.mem_cons.1 mem with rfl | mem
  · simp [isWordChar, Char.isAlphanum, letter]
  · exact all d mem

/-- The mark of a hexadecimal constant may stand in a word too. -/
theorem isWordChar_of_hexMark {mark : Char} (marked : mark = 'x' ∨ mark = 'X') :
    isWordChar mark = true := by
  rcases marked with rfl | rfl
  · rfl
  · rfl

theorem isWordChar_of_mem_hexConstant {text : List Char} (mem : text ∈ hexConstant isWordChar) :
    ∀ c ∈ text, isWordChar c = true := by
  obtain ⟨mark, run, rfl, marked, all⟩ := mem_hexConstant.1 mem
  intro d mem
  rcases List.mem_cons.1 mem with rfl | mem
  · rfl
  rcases List.mem_cons.1 mem with rfl | mem
  · exact isWordChar_of_hexMark marked
  · exact all d mem

/-! ### UUIDs -/

/-- The texts whose characters pass the tests one by one. -/
def ofForms : List (Char → Bool) → Language Char
  | [] => 1
  | form :: forms => one form * ofForms forms

theorem uuid_eq : uuid = ofForms Segment.uuidForm := by
  simp [uuid, ofForms, Segment.uuidForm, List.replicate, pow_succ, mul_assoc]

theorem startsWith_iff {forms : List (Char → Bool)} {cs : List Char} :
    Segment.startsWith forms cs = true ↔ ∃ text ∈ ofForms forms, text <+: cs := by
  induction forms generalizing cs with
  | nil => simp [Segment.startsWith, ofForms]
  | cons form forms ih =>
    cases cs with
    | nil =>
      simp only [Segment.startsWith, ofForms, Bool.false_eq_true, List.prefix_nil, false_iff]
      rintro ⟨text, mem, rfl⟩
      obtain ⟨c, rest, nil, -⟩ := mem_one_mul.1 mem
      exact absurd nil (by simp)
    | cons c cs =>
      simp only [Segment.startsWith, Bool.and_eq_true, ih, ofForms, mem_one_mul]
      constructor
      · rintro ⟨passes, rest, mem, front⟩
        exact ⟨c :: rest, ⟨c, rest, rfl, passes, mem⟩, by simpa using front⟩
      · rintro ⟨_, ⟨d, rest, rfl, passes, mem⟩, front⟩
        obtain ⟨same, front'⟩ := List.cons_prefix_cons.1 front
        subst same
        exact ⟨passes, rest, mem, front'⟩

theorem length_of_mem_ofForms {forms : List (Char → Bool)} {text : List Char}
    (mem : text ∈ ofForms forms) : text.length = forms.length := by
  induction forms generalizing text with
  | nil => simp [(Language.mem_one text).1 mem]
  | cons form forms ih =>
    obtain ⟨c, rest, rfl, -, mem⟩ := mem_one_mul.1 mem
    simp [ih mem]

/-- A UUID is in front exactly if the lexer sees its form. -/
theorem startsWith_uuidForm_iff {cs : List Char} :
    Segment.startsWith Segment.uuidForm cs = true ↔ ∃ text ∈ uuid, text <+: cs := by
  rw [uuid_eq, startsWith_iff]

theorem length_of_mem_uuid {text : List Char} (mem : text ∈ uuid) :
    text.length = Segment.uuidForm.length := by
  rw [uuid_eq] at mem
  exact length_of_mem_ofForms mem

end Lexical

end Cql
