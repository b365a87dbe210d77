/-
What the segments of a text are.

Each scanner takes a text of its class from the front, and as much of it as there is.

* `Segment.number_eq`, `Segment.read_cases` — numbers, and the bodies of quoted texts;
* `Segment.Reads` — the forms of segments;
* `Segment.reads_first` — the segment at the front of a text has one of them.
-/
import Cql.Proofs.LexicalGrammar

namespace Cql

/-- What is wrong with a token that was read to its end. -/
def TokenKind.problem? : TokenKind → Option LexicalProblem
  | quotedName name => if name = "" then some .emptyName else none
  | hex digits =>
    if (digits.toList.drop 2).all Segment.isHexDigit then none else some (.malformedHex digits)
  | _ => none

namespace Segment

open Lexical

/-! ### Runs -/

theorem of_mem_takeWhile {p : Char → Bool} {cs : List Char} {c : Char}
    (mem : c ∈ cs.takeWhile p) : p c = true :=
  List.all_eq_true.1 List.all_takeWhile c mem

/-! ### Numbers -/

theorem exists_digits (cs : List Char) :
    ∃ ds rest, cs = ds ++ rest ∧ digitRun cs = ds.length ∧ ∀ c ∈ ds, c.isDigit = true :=
  ⟨cs.takeWhile Char.isDigit, cs.dropWhile Char.isDigit, List.takeWhile_append_dropWhile.symm, rfl,
    fun _ => of_mem_takeWhile⟩

theorem exists_fraction (cs : List Char) :
    ∃ text rest, cs = text ++ rest ∧ fractionWidth cs = text.length ∧
      (text = [] ∨ text ∈ fraction) := by
  unfold fractionWidth
  split
  · rename_i cs
    obtain ⟨ds, rest, rfl, run, all⟩ := exists_digits cs
    refine ⟨'.' :: ds, rest, rfl, ?_, .inr (mem_fraction.2 ⟨ds, rfl, all⟩)⟩
    rw [run, List.length_cons, Nat.add_comm]
  · exact ⟨[], cs, rfl, rfl, .inl rfl⟩

theorem fractionWidth_of_ne {cs : List Char} (other : cs.head? ≠ some '.') : fractionWidth cs = 0 := by
  unfold fractionWidth
  split
  · exact absurd rfl other
  · rfl

/-- A sign, or none and something else in front of `cs`. -/
def IsSignOf (sign cs : List Char) : Prop :=
  sign = [] ∧ cs.head?.any isSign = false ∨ ∃ c, sign = [c] ∧ isSign c = true

/-- The sign of an exponent. -/
theorem exists_sign (cs : List Char) :
    ∃ sign rest, cs = sign ++ rest ∧ (cs.take 1).countP isSign = sign.length ∧ IsSignOf sign cs := by
  cases cs with
  | nil => exact ⟨[], [], rfl, rfl, .inl ⟨rfl, rfl⟩⟩
  | cons c rest =>
    cases signed : isSign c with
    | true => exact ⟨[c], rest, rfl, by simp [signed], .inr ⟨c, rfl, signed⟩⟩
    | false => exact ⟨[], c :: rest, rfl, by simp [signed], .inl ⟨rfl, by simp [signed]⟩⟩

theorem exists_exponent (cs : List Char) :
    ∃ text rest, cs = text ++ rest ∧ exponentWidth cs = text.length ∧
      (text = [] ∨ text ∈ exponent) := by
  cases cs with
  | nil => exact ⟨[], [], rfl, rfl, .inl rfl⟩
  | cons mark cs =>
    obtain ⟨sign, rest, rfl, width, signed⟩ := exists_sign cs
    obtain ⟨ds, rest, rfl, run, all⟩ := exists_digits rest
    simp only [exponentWidth, width, List.drop_left, run]
    split
    · rename_i complete
      refine ⟨mark :: (sign ++ ds), rest, by simp, by simp; omega, .inr ?_⟩
      have mem : ds ∈ digits := mem_digits.2 ⟨List.ne_nil_of_length_pos (by omega), all⟩
      exact mem_exponent.2 ⟨mark, sign, ds, mem, rfl, complete.1, signed.imp_left And.left⟩
    · exact ⟨[], _, rfl, rfl, .inl rfl⟩

/-- Width of the fraction and the exponent in front. -/
def tailWidth (cs : List Char) : Nat := fractionWidth cs + exponentWidth (cs.drop (fractionWidth cs))

theorem number_eq (sign : List Char) {ds rest : List Char} (run : digitRun (ds ++ rest) = ds.length) :
    number sign.length (sign ++ (ds ++ rest)) =
      ofKind (sign.length + ds.length + tailWidth rest)
        (let text := String.ofList (sign ++ (ds ++ rest.take (tailWidth rest)))
         if tailWidth rest = 0 then .integer text else .float text) := by
  have whole (n : Nat) :
      (sign ++ (ds ++ rest)).drop (sign.length + ds.length + n) = rest.drop n := by
    rw [Nat.add_assoc, List.drop_length_add_append, List.drop_length_add_append]
  have taken (n : Nat) :
      (sign ++ (ds ++ rest)).take (sign.length + ds.length + n) = sign ++ (ds ++ rest.take n) := by
    rw [Nat.add_assoc, List.take_length_add_append, List.take_length_add_append]
  simp only [number, List.drop_left, run]
  rw [← Nat.add_zero (sign.length + ds.length), whole 0, List.drop_zero, Nat.add_zero, whole,
    Nat.add_assoc (sign.length + ds.length), taken]
  rfl

theorem exists_tail (cs : List Char) :
    ∃ front back rest, cs = (front ++ back) ++ rest ∧ tailWidth cs = (front ++ back).length ∧
      (front = [] ∨ front ∈ fraction) ∧ (back = [] ∨ back ∈ exponent) := by
  obtain ⟨front, rest, rfl, frontWidth, memFront⟩ := exists_fraction cs
  obtain ⟨back, rest, rfl, backWidth, memBack⟩ := exists_exponent rest
  refine ⟨front, back, rest, by rw [List.append_assoc], ?_, memFront, memBack⟩
  rw [tailWidth, frontWidth, List.drop_left, backWidth, List.length_append]

/-- The scanner reads a number. -/
theorem spells_number {sign body : List Char} (signed : sign = [] ∨ sign = ['-']) {c : Char}
    (head : body.head? = some c) (digit : c.isDigit = true) :
    ∃ text rest kind, sign ++ body = text ++ rest ∧
      number sign.length (sign ++ body) = ofKind text.length kind ∧ Spells text kind ∧
      kind.problem? = none := by
  obtain ⟨ds, rest, rfl, run, all⟩ := exists_digits body
  obtain ⟨front, back, rest, rfl, width, memFront, memBack⟩ := exists_tail rest
  have nonempty : ds ≠ [] := by
    rintro rfl
    rw [List.nil_append] at head run
    match (front ++ back) ++ rest, head, run with
    | d :: cs, head, run =>
      obtain rfl : d = c := by simpa using head
      simp [digitRun, digit] at run
  have memDigits : ds ∈ digits := mem_digits.2 ⟨nonempty, all⟩
  have whole : sign ++ ds ∈ integer := by
    rcases signed with rfl | rfl
    · exact mem_integer.2 (.inl memDigits)
    · exact mem_integer.2 (.inr ⟨ds, memDigits, rfl⟩)
  rw [number_eq sign run, width, List.take_left]
  have length : sign.length + ds.length + (front ++ back).length
      = (sign ++ (ds ++ (front ++ back))).length := by
    simp only [List.length_append]
    omega
  refine ⟨sign ++ (ds ++ (front ++ back)), rest, _, by simp only [List.append_assoc], by rw [length],
    ?_, ?_⟩
  · by_cases bare : front ++ back = []
    · rw [bare, List.append_nil]
      exact .integer whole
    · rw [if_neg (by simpa using bare)]
      have tail := isTail_iff.2 ⟨memFront, memBack, bare⟩
      exact .float (mem_float.2 ⟨sign ++ ds, whole, front, back, by simp, tail⟩)
  · dsimp only
    split
    · rfl
    · rfl

/-! ### Words and hexadecimal constants -/

/-- The kind of a word. -/
def wordKind (text : List Char) : TokenKind :=
  match Keyword.ofWord? (String.ofList text) with
  | some keyword => .keyword keyword
  | none => .identifier (String.ofList text)

theorem word_eq (cs : List Char) :
    word cs = ofKind (cs.takeWhile isWordChar).length (wordKind (cs.takeWhile isWordChar)) := rfl

theorem isWordChar_of_isHexDigit {c : Char} (hexDigit : isHexDigit c = true) :
    isWordChar c = true := by
  simp only [isHexDigit, Bool.or_eq_true, Bool.and_eq_true, decide_eq_true_eq, Char.le_def] at hexDigit
  have letterOrDigit : ((c.isUpper || c.isLower) || c.isDigit) = true := by
    rcases hexDigit with (digit | lower) | upper
    · rw [digit, Bool.or_true]
    · have below : c.val ≤ 'z'.val := UInt32.le_trans lower.2 (by decide)
      have isLower : c.isLower = true :=
        Bool.and_eq_true_iff.2 ⟨decide_eq_true lower.1, decide_eq_true below⟩
      rw [isLower, Bool.or_true, Bool.true_or]
    · have below : c.val ≤ 'Z'.val := UInt32.le_trans upper.2 (by decide)
      have isUpper : c.isUpper = true := decide_eq_true ⟨upper.1, below⟩
      rw [isUpper, Bool.true_or, Bool.true_or]
  exact Bool.or_eq_true_iff.2 (.inl letterOrDigit)

theorem wordKind_of_keyword {text : List Char} {keyword : Keyword}
    (same : (String.ofList text).toUpper = keyword.spelling) : wordKind text = .keyword keyword := by
  rw [wordKind, Keyword.ofWord?_eq_some.2 same]

theorem wordKind_of_identifier {text : List Char}
    (other : ∀ keyword : Keyword, (String.ofList text).toUpper ≠ keyword.spelling) :
    wordKind text = .identifier (String.ofList text) := by
  have none : Keyword.ofWord? (String.ofList text) = none := by
    cases found : Keyword.ofWord? (String.ofList text) with
    | none => rfl
    | some keyword => exact absurd (Keyword.ofWord?_eq_some.1 found) (other keyword)
  rw [wordKind, none]

theorem spells_wordKind {text : List Char} (mem : text ∈ Lexical.word) :
    Spells text (wordKind text) := by
  by_cases isKeyword : ∃ keyword : Keyword, (String.ofList text).toUpper = keyword.spelling
  · obtain ⟨keyword, same⟩ := isKeyword
    rw [wordKind_of_keyword same]
    exact .keyword mem same
  · have other := not_exists.1 isKeyword
    rw [wordKind_of_identifier other]
    exact .identifier mem other

theorem problem?_wordKind (text : List Char) : (wordKind text).problem? = none := by
  unfold wordKind
  split
  · rfl
  · rfl

theorem spells_word {c : Char} (letter : c.isAlpha = true) (rest : List Char) :
    ∃ text after kind, c :: rest = text ++ after ∧ word (c :: rest) = ofKind text.length kind ∧
      Spells text kind ∧ kind.problem? = none := by
  have wordChar : isWordChar c = true := by simp [isWordChar, Char.isAlphanum, letter]
  have mem : (c :: rest).takeWhile isWordChar ∈ Lexical.word := by
    rw [List.takeWhile_cons_of_pos wordChar]
    exact mem_word.2 ⟨c, _, rfl, letter, fun _ => of_mem_takeWhile⟩
  exact ⟨(c :: rest).takeWhile isWordChar, (c :: rest).dropWhile isWordChar, _,
    List.takeWhile_append_dropWhile.symm, word_eq _, spells_wordKind mem, problem?_wordKind _⟩

theorem spells_hexConstant {mark : Char} (marked : mark = 'x' ∨ mark = 'X') (rest : List Char) :
    ∃ text after kind, '0' :: mark :: rest = text ++ after ∧
      hexConstant ('0' :: mark :: rest) = ⟨text.length, .token kind, kind.problem?⟩ ∧
      Spells text kind := by
  refine ⟨('0' :: mark :: rest).takeWhile isWordChar, ('0' :: mark :: rest).dropWhile isWordChar,
    .hex _, List.takeWhile_append_dropWhile.symm, ?_, .hex ?_⟩
  · simp only [hexConstant, TokenKind.problem?, String.toList_ofList]
  · rw [List.takeWhile_cons_of_pos rfl, List.takeWhile_cons_of_pos (isWordChar_of_hexMark marked)]
    exact mem_hexConstant.2 ⟨mark, _, rfl, marked, fun _ => of_mem_takeWhile⟩

/-! ### Quoted texts -/

/-- Reading after a quote finds the closing quote, or runs to the end of a text in which every quote
is doubled. -/
theorem read_cases (quote : Char) (cs : List Char) :
    (∃ value after, cs = Quoted.encode quote value ++ quote :: after ∧ after.head? ≠ some quote ∧
      Quoted.read quote cs = ⟨value, (Quoted.encode quote value).length + 1, true⟩) ∨
    ∃ value, cs = Quoted.encode quote value ∧ Quoted.read quote cs = ⟨value, cs.length, false⟩ := by
  fun_induction Quoted.read quote cs with
  | case1 => exact .inr ⟨[], rfl, rfl⟩
  | case2 => exact .inl ⟨[], [], rfl, by simp, rfl⟩
  | case3 c other => exact .inr ⟨[c], by simp [Quoted.encode, other], rfl⟩
  | case4 rest ih =>
    rcases ih with ⟨value, after, rfl, alone, read⟩ | ⟨value, rfl, read⟩
    · refine .inl ⟨quote :: value, after, by simp [Quoted.encode], alone, ?_⟩
      simp only [read, Quoted.Body.push, Quoted.encode, if_pos, List.length_cons]
      congr 1
      omega
    · refine .inr ⟨quote :: value, by simp [Quoted.encode], ?_⟩
      simp only [read, Quoted.Body.push, List.length_cons]
      congr 1
      omega
  | case5 d rest other => exact .inl ⟨[], d :: rest, rfl, by simpa using other, rfl⟩
  | case6 c d rest other ih =>
    rcases ih with ⟨value, after, split, alone, read⟩ | ⟨value, split, read⟩
    · refine .inl ⟨c :: value, after, by simp [Quoted.encode, other, split], alone, ?_⟩
      simp only [read, Quoted.Body.push, Quoted.encode, if_neg other, List.length_cons]
      congr 1
      omega
    · refine .inr ⟨c :: value, by simp [Quoted.encode, other, ← split], ?_⟩
      simp only [read, Quoted.Body.push, List.length_cons]
      congr 1
      omega

theorem stringAfterQuote_eq (rest : List Char) :
    stringAfterQuote rest =
      let kind := TokenKind.string (String.ofList (Quoted.read '\'' rest).value)
      ⟨1 + (Quoted.read '\'' rest).width, .token kind,
        if (Quoted.read '\'' rest).closed then kind.problem? else some .unclosedString⟩ := rfl

/-- A quoted name is read as a string is, but it should not be empty. -/
theorem nameAfterQuote_eq (rest : List Char) :
    nameAfterQuote rest =
      let kind := TokenKind.quotedName (String.ofList (Quoted.read '"' rest).value)
      ⟨1 + (Quoted.read '"' rest).width, .token kind,
        if (Quoted.read '"' rest).closed then kind.problem? else some .unclosedName⟩ := by
  simp only [nameAfterQuote, TokenKind.problem?]
  cases (Quoted.read '"' rest).closed with
  | false => rfl
  | true => cases (Quoted.read '"' rest).value <;> simp

/-! ### Comments -/

theorem closingWidth?_cases (cs : List Char) :
    (∃ body after, cs = (body ++ ['*', '/']) ++ after ∧ closingWidth? cs = some (body.length + 2) ∧
      ¬ ['*', '/'] <:+: body) ∨
    closingWidth? cs = none ∧ ¬ ['*', '/'] <:+: cs := by
  fun_induction closingWidth? cs with
  | case1 => exact .inr ⟨rfl, by simp⟩
  | case2 c => exact .inr ⟨rfl, by simp [List.infix_cons_iff]⟩
  | case3 c d cs closes =>
    obtain ⟨rfl, rfl⟩ := closes
    exact .inl ⟨[], cs, rfl, rfl, by simp⟩
  | case4 c d cs goesOn ih =>
    rcases ih with ⟨body, after, split, width, within⟩ | ⟨none, within⟩
    · refine .inl ⟨c :: body, after, by simp [split], by simp [width], ?_⟩
      rw [List.infix_cons_iff, not_or]
      refine ⟨fun front => goesOn ?_, within⟩
      obtain ⟨star, front'⟩ := List.cons_prefix_cons.1 front
      match body, split, front' with
      | e :: body, split, front' =>
        obtain ⟨slash, -⟩ := List.cons_prefix_cons.1 front'
        exact ⟨star.symm, (List.cons.inj split).1.trans slash.symm⟩
    · refine .inr ⟨by simp [none], ?_⟩
      rw [List.infix_cons_iff, not_or]
      refine ⟨fun front => goesOn ?_, within⟩
      simpa [List.cons_prefix_cons, eq_comm] using front

/-! ### Segments -/

/-- What a segment with the characters `text`, in front of `after`, is. -/
inductive Reads : List Char → List Char → Segment → Prop
  | blank {c : Char} {after : List Char} (blank : isBlank c = true) :
      Reads [c] after ⟨1, .blank, none⟩
  | comment {text after : List Char} {problem : Option LexicalProblem}
      (comment : Comment text after problem) : Reads text after ⟨text.length, .comment, problem⟩
  | uuid {text after : List Char} (mem : text ∈ uuid) :
      Reads text after (ofKind text.length (.uuid (String.ofList text)))
  | token {text after : List Char} {kind : TokenKind} (spells : Spells text kind) :
      Reads text after ⟨text.length, .token kind, kind.problem?⟩
  | unclosed {text : List Char} {kind : TokenKind} {problem : LexicalProblem}
      (unclosed : Unclosed text kind problem) : Reads text [] ⟨text.length, .token kind, some problem⟩
  | stray {c : Char} {after : List Char} : Reads [c] after ⟨1, .stray, some (.invalidCharacter c)⟩

theorem Reads.width_eq {text after : List Char} {segment : Segment}
    (reads : Reads text after segment) : segment.width = text.length := by
  cases reads with
  | blank | comment | uuid | token | unclosed | stray => rfl

/-- The segment is one of those in front of `cs`. -/
abbrev ReadsFront (cs : List Char) (segment : Segment) : Prop :=
  ∃ text after, cs = text ++ after ∧ Reads text after segment

theorem readsFront_of_spells {cs text after : List Char} {kind : TokenKind} {segment : Segment}
    (split : cs = text ++ after) (same : segment = ⟨text.length, .token kind, kind.problem?⟩)
    (spells : Spells text kind) : ReadsFront cs segment := by
  subst same
  exact ⟨text, after, split, .token spells⟩

/-- A line comment opens with the same character twice. -/
theorem exists_of_lineComment {c : Char} {rest : List Char}
    (opens : (c = '-' ∧ rest.head? = some '-') ∨ (c = '/' ∧ rest.head? = some '/')) :
    (c = '-' ∨ c = '/') ∧ ∃ more, rest = c :: more := by
  rcases opens with ⟨rfl, head⟩ | ⟨rfl, head⟩
  · exact ⟨.inl rfl, List.head?_eq_some_iff.1 head⟩
  · exact ⟨.inr rfl, List.head?_eq_some_iff.1 head⟩

theorem exists_of_hexConstant {rest : List Char}
    (opens : rest.head? = some 'x' ∨ rest.head? = some 'X') :
    ∃ mark more, rest = mark :: more ∧ (mark = 'x' ∨ mark = 'X') := by
  rcases opens with head | head
  · obtain ⟨more, rfl⟩ := List.head?_eq_some_iff.1 head
    exact ⟨_, more, rfl, .inl rfl⟩
  · obtain ⟨more, rfl⟩ := List.head?_eq_some_iff.1 head
    exact ⟨_, more, rfl, .inr rfl⟩

theorem readsFront_gap? {c : Char} {rest : List Char} {segment : Segment}
    (h : gap? c rest = some segment) : ReadsFront (c :: rest) segment := by
  unfold gap? at h
  split at h
  · rename_i blank
    cases h
    exact ⟨[c], rest, rfl, .blank blank⟩
  split at h
  · rename_i opens
    cases h
    obtain ⟨marked, rest, rfl⟩ := exists_of_lineComment opens
    let body := rest.takeWhile (· ≠ '\n')
    have within : '\n' ∉ body := fun mem => by simpa using of_mem_takeWhile mem
    have stops : rest.dropWhile (· ≠ '\n') = [] ∨ (rest.dropWhile (· ≠ '\n')).head? = some '\n' := by
      have head := List.head?_dropWhile_not (· ≠ '\n') rest
      cases after : (rest.dropWhile (· ≠ '\n')).head? with
      | none => exact .inl (List.head?_eq_none_iff.1 after)
      | some d =>
        rw [after] at head
        exact .inr (by simpa using head)
    have width : (lineComment rest) = ⟨(c :: c :: body).length, .comment, none⟩ := by
      simp only [lineComment, body, List.length_cons]
      congr 1
      omega
    refine ⟨c :: c :: body, rest.dropWhile (· ≠ '\n'), ?_, ?_⟩
    · simp only [body, List.cons_append, List.takeWhile_append_dropWhile]
    · rw [List.drop_one, List.tail_cons, width]
      exact .comment (.line marked within stops)
  split at h
  · rename_i opens
    cases h
    obtain ⟨rfl, head⟩ := opens
    obtain ⟨rest, rfl⟩ := List.head?_eq_some_iff.1 head
    rw [List.drop_one, List.tail_cons, blockComment]
    rcases closingWidth?_cases rest with ⟨body, after, rfl, width, within⟩ | ⟨width, within⟩
    · refine ⟨'/' :: '*' :: (body ++ ['*', '/']), after, by simp, ?_⟩
      rw [width]
      have length : 2 + (body.length + 2) = ('/' :: '*' :: (body ++ ['*', '/'])).length := by
        simp
        omega
      simp only [length]
      exact .comment (.block within)
    · refine ⟨'/' :: '*' :: rest, [], by simp, ?_⟩
      rw [width]
      have length : 2 + rest.length = ('/' :: '*' :: rest).length := by
        simp
        omega
      simp only [length]
      exact .comment (.unclosed within)
  · cases h

theorem readsFront_constant? {c : Char} {rest : List Char} {segment : Segment}
    (h : constant? c rest = some segment) : ReadsFront (c :: rest) segment := by
  unfold constant? at h
  split at h
  · rename_i front
    cases h
    obtain ⟨text, mem, after, split⟩ := startsWith_uuidForm_iff.1 front
    rw [← length_of_mem_uuid mem, ← split, List.take_left]
    exact ⟨text, after, rfl, .uuid mem⟩
  split at h
  · rename_i opens
    cases h
    obtain ⟨rfl, head⟩ := opens
    obtain ⟨mark, more, rfl, marked⟩ := exists_of_hexConstant head
    obtain ⟨text, after, kind, split, same, spells⟩ := spells_hexConstant marked more
    exact readsFront_of_spells split same spells
  split at h
  · rename_i digit
    cases h
    obtain ⟨text, after, kind, split, same, spells, fine⟩ :=
      @spells_number [] (c :: rest) (.inl rfl) c rfl digit
    exact readsFront_of_spells split (by rw [fine]; exact same) spells
  split at h
  · rename_i sign
    cases h
    obtain ⟨rfl, next⟩ := sign
    obtain ⟨d, head, digit⟩ := (Option.any_eq_true _ _).1 next
    obtain ⟨text, after, kind, split, same, spells, fine⟩ := spells_number (.inr rfl) head digit
    exact readsFront_of_spells split (by rw [fine]; exact same) spells
  · cases h

theorem readsFront_quoted {quote : Char} {rest : List Char} {kind : String → TokenKind}
    {problem : LexicalProblem} {segment : Segment}
    (same : segment = ⟨1 + (Quoted.read quote rest).width,
      .token (kind (String.ofList (Quoted.read quote rest).value)),
      if (Quoted.read quote rest).closed then
        (kind (String.ofList (Quoted.read quote rest).value)).problem?
      else some problem⟩)
    (spells : ∀ value, Spells (Quoted.render quote value).toList (kind value))
    (unclosed : ∀ value, Unclosed (quote :: Quoted.encode quote value) (kind (String.ofList value))
      problem) :
    ReadsFront (quote :: rest) segment := by
  subst same
  rcases read_cases quote rest with ⟨value, after, rfl, -, read⟩ | ⟨value, split, read⟩
  · have text : (Quoted.render quote (String.ofList value)).toList
        = quote :: (Quoted.encode quote value ++ [quote]) := by
      simp [Quoted.render]
    have split : quote :: (Quoted.encode quote value ++ quote :: after)
        = (Quoted.render quote (String.ofList value)).toList ++ after := by
      simp [text]
    refine readsFront_of_spells split ?_ (spells _)
    simp only [read, text, List.length_cons, List.length_append, if_pos]
    congr 1
    simp
    omega
  · refine ⟨quote :: rest, [], by simp, ?_⟩
    simp only [read, Bool.false_eq_true, if_false, Nat.add_comm 1, ← List.length_cons]
    subst split
    exact .unclosed (unclosed value)

theorem readsFront_comparison {c : Char} {alone withEqual : Punctuation} {rest : List Char}
    (one : alone.spelling.toList = [c]) (two : withEqual.spelling.toList = [c, '=']) :
    ReadsFront (c :: rest) (comparison alone withEqual rest) := by
  unfold comparison
  split
  · rename_i head
    obtain ⟨more, rfl⟩ := List.head?_eq_some_iff.1 head
    have split : c :: '=' :: more = withEqual.spelling.toList ++ more := by
      rw [two]
      rfl
    exact readsFront_of_spells split (by rw [two]; rfl) (.mark withEqual)
  · have split : c :: rest = alone.spelling.toList ++ rest := by
      rw [one]
      rfl
    exact readsFront_of_spells split (by rw [one]; rfl) (.mark alone)

theorem readsFront_plain (c : Char) (rest : List Char) : ReadsFront (c :: rest) (plain c rest) := by
  unfold plain
  split
  · rename_i letter
    obtain ⟨text, after, kind, split, same, spells, fine⟩ := spells_word letter rest
    exact readsFront_of_spells split (by rw [fine]; exact same) spells
  split
  · rename_i quote
    subst quote
    exact readsFront_quoted (stringAfterQuote_eq rest) .string .string
  split
  · rename_i quote
    subst quote
    exact readsFront_quoted (nameAfterQuote_eq rest) .quotedName .quotedName
  split
  · rename_i less
    subst less
    exact readsFront_comparison (by decide) (by decide)
  split
  · rename_i greater
    subst greater
    exact readsFront_comparison (by decide) (by decide)
  · unfold markOrStray
    split
    · rename_i mark found
      have spelling : mark.spelling.toList = [c] := by
        have same := List.find?_some found
        rw [of_decide_eq_true same]
        simp
      have split : c :: rest = mark.spelling.toList ++ rest := by
        rw [spelling]
        rfl
      exact readsFront_of_spells split (by rw [spelling]; rfl) (.mark mark)
    · exact ⟨[c], rest, rfl, .stray⟩

/-- Every segment has one of the forms. -/
theorem reads_first (c : Char) (rest : List Char) : ReadsFront (c :: rest) (first c rest) := by
  unfold first
  split
  · rename_i h
    exact readsFront_gap? h
  · rename_i h
    exact readsFront_constant? h
  · exact readsFront_plain c rest

end Segment

end Cql
