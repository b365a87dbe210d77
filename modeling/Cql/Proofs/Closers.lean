/-
Texts that end too early, and their closers.

A string, a quoted name or a block comment that nothing closes goes on to the end of the text, so it is
the last piece of it, and what it comes to is what it would come to if its closing sign stood there.  All
pieces in front of it stay as they are: a scanner looks behind the end of a piece, but never behind a
quote or a slash, since no word and no number goes on there.

* `LexicalProblem.closer?` — the sign that is missing;
* `Segment.first_append_congr` — **a segment does not depend on what stands behind the sign in front of
  which it ends**, if no word and no number goes on with that sign;
* `pieces_append_congr` — pieces in front of such a sign;
* `Segment.first_append_closer` — an open piece with its closer;
* `tokenize_append_closer` — **closing what is open** changes no token, and takes away the diagnostic
  about it; a name without a character in it is then reported as such.
-/
import Cql.Proofs.Blanks
import Cql.Proofs.Rendering
import Cql.Proofs.Truncation

namespace Cql

namespace LexicalProblem

/-- The sign that is missing at the end of the text. -/
def closer? : LexicalProblem → Option String
  | unclosedString => some "'"
  | unclosedName => some "\""
  | unclosedComment => some "*/"
  | _ => none

/-- No other problem is worded like that of a piece without its closer. -/
theorem eq_of_message {problem other : LexicalProblem} (closes : problem.closer? ≠ none)
    (same : other.message = problem.message) : other = problem := by
  have letter := congrArg (·.toList.head?) same
  unfold message at same letter
  cases problem with
  | invalidCharacter | emptyName | malformedHex => exact absurd rfl closes
  | unclosedString | unclosedName | unclosedComment =>
    cases other with
    | unclosedString | unclosedName | unclosedComment | emptyName =>
      first | rfl | (dsimp only at same; simp at same)
    | invalidCharacter | malformedHex => simp at letter

/-- Whatever is wrong with a whole token, it is no missing closer. -/
theorem closer?_of_problem? {kind : TokenKind} {problem : LexicalProblem}
    (wrong : kind.problem? = some problem) : problem.closer? = none := by
  unfold TokenKind.problem? at wrong
  split at wrong
  · split at wrong
    · obtain rfl := Option.some.inj wrong
      rfl
    · cases wrong
  · split at wrong
    · cases wrong
    · obtain rfl := Option.some.inj wrong
      rfl
  · cases wrong

/-- What is wrong with the last token before the end of input, once its closer is there. -/
def onClosing (problem : LexicalProblem) (last? : Option Token) : List Diagnostic :=
  match problem, last? with
  | unclosedName, some ⟨⟨.quotedName "", _⟩, span⟩ => [emptyName.diagnostic span.start ['"', '"']]
  | _, _ => []

end LexicalProblem

namespace Segment

open Lexical

/-! ### What stands behind a sign -/

section

variable {s c : Char} {front more : List Char} (more' : List Char)

theorem head?_append_congr : (front ++ s :: more').head? = (front ++ s :: more).head? := by
  cases front <;> rfl

theorem takeWhile_append_congr {p : Char → Bool}
    (short : ((front ++ s :: more).takeWhile p).length ≤ front.length) :
    (front ++ s :: more').takeWhile p = (front ++ s :: more).takeWhile p := by
  rw [List.takeWhile_append] at short ⊢
  rw [List.takeWhile_append]
  split
  · rename_i whole
    rw [if_pos whole, List.length_append] at short
    -- The run is no longer than what stands in front of the sign, so the sign ends it.
    have stop : p s = false := by
      by_contra passes
      rw [List.takeWhile_cons_of_pos (by simpa using passes), List.length_cons] at short
      omega
    rw [List.takeWhile_cons_of_neg (by simp [stop]), List.takeWhile_cons_of_neg (by simp [stop])]
  · rfl

/-- A quoted text that is closed in front of a sign is read without what stands behind it. -/
theorem read_append_congr {quote : Char}
    (short : (Quoted.read quote (front ++ s :: more)).width ≤ front.length) :
    Quoted.read quote (front ++ s :: more') = Quoted.read quote (front ++ s :: more) := by
  rcases read_cases quote (front ++ s :: more) with ⟨value, after, split, alone, read⟩ | ⟨value, -, read⟩
  · rw [read] at short ⊢
    have within : Quoted.encode quote value ++ [quote] <+: front := by
      refine List.prefix_of_prefix_length_le ⟨after, ?_⟩ (List.prefix_append front (s :: more)) ?_
      · rw [split, List.append_assoc, List.singleton_append]
      · simpa using short
    obtain ⟨between, rfl⟩ := within
    have left : after = between ++ s :: more := by simpa using split.symm
    rw [left, ← head?_append_congr more'] at alone
    rw [List.append_assoc, List.append_assoc, List.singleton_append]
    exact Quoted.read_encode quote value _ alone
  · simp only [read, List.length_append, List.length_cons] at short
    omega

theorem gap?_append_congr
    (short : ∀ segment, gap? c (front ++ s :: more) = some segment → segment.width ≤ front.length + 1) :
    gap? c (front ++ s :: more') = gap? c (front ++ s :: more) := by
  unfold gap? at short ⊢
  rw [head?_append_congr more']
  by_cases blank : isBlank c = true
  · rw [if_pos blank, if_pos blank]
  rw [if_neg blank] at short ⊢
  rw [if_neg blank]
  -- Both kinds of comments begin with two signs, so there is one in front of the sign.
  have inside : ∀ {n : Nat}, 2 + n ≤ front.length + 1 → ∃ d front', front = d :: front' := by
    intro n wide
    exact List.exists_cons_of_length_pos (by omega)
  by_cases line : (c = '-' ∧ (front ++ s :: more).head? = some '-') ∨
      (c = '/' ∧ (front ++ s :: more).head? = some '/')
  · rw [if_pos line] at short
    rw [if_pos line, if_pos line]
    have wide : 2 + (((front ++ s :: more).drop 1).takeWhile (· ≠ '\n')).length ≤ front.length + 1 :=
      short _ rfl
    obtain ⟨d, front, rfl⟩ := inside wide
    simp only [List.cons_append, List.drop_one, List.tail_cons, List.length_cons] at wide ⊢
    have run : ((front ++ s :: more).takeWhile (· ≠ '\n')).length ≤ front.length := by omega
    rw [lineComment, lineComment, takeWhile_append_congr more' run]
  rw [if_neg line] at short ⊢
  rw [if_neg line]
  by_cases block : c = '/' ∧ (front ++ s :: more).head? = some '*'
  · rw [if_pos block] at short
    rw [if_pos block, if_pos block]
    have wide := short _ rfl
    unfold blockComment at wide ⊢
    cases closes : closingWidth? ((front ++ s :: more).drop 1) with
    | none =>
      -- A comment that nothing closes goes on behind the sign.
      simp only [closes, List.length_drop, List.length_append, List.length_cons] at wide
      omega
    | some width =>
      simp only [closes] at wide
      obtain ⟨d, front, rfl⟩ := inside wide
      simp only [List.cons_append, List.drop_one, List.tail_cons, List.length_cons] at closes wide ⊢
      have closed := closingWidth?_of_isPrefix (List.prefix_append front (s :: more)) closes (by omega)
      rw [closingWidth?_append _ closed]
  · rw [if_neg block, if_neg block]

theorem plain_append_congr (stops : stopsRuns s = true)
    (short : (plain c (front ++ s :: more)).width ≤ front.length + 1) :
    plain c (front ++ s :: more') = plain c (front ++ s :: more) := by
  unfold plain at short ⊢
  simp only [← List.cons_append, word_append_stop _ stops]
  by_cases letter : c.isAlpha = true
  · rw [if_pos letter, if_pos letter]
  rw [if_neg letter] at short ⊢
  rw [if_neg letter]
  by_cases single : c = '\''
  · rw [if_pos single] at short ⊢
    have whole : 1 + (Quoted.read '\'' (front ++ s :: more)).width ≤ front.length + 1 := short
    have body : (Quoted.read '\'' (front ++ s :: more)).width ≤ front.length := by omega
    rw [if_pos single, stringAfterQuote, read_append_congr more' body, stringAfterQuote]
  rw [if_neg single] at short ⊢
  rw [if_neg single]
  by_cases double : c = '"'
  · rw [if_pos double] at short ⊢
    have whole : 1 + (Quoted.read '"' (front ++ s :: more)).width ≤ front.length + 1 := short
    have body : (Quoted.read '"' (front ++ s :: more)).width ≤ front.length := by omega
    rw [if_pos double, nameAfterQuote, read_append_congr more' body, nameAfterQuote]
  · rw [if_neg double, if_neg double]
    have next : (front ++ s :: more').head? = (front ++ s :: more).head? := head?_append_congr more'
    simp only [comparison, next]

/-- **A segment does not depend on what stands behind the sign in front of which it ends**, if no word
and no number goes on with that sign. -/
theorem first_append_congr (stops : stopsRuns s = true)
    (short : (first c (front ++ s :: more)).width ≤ front.length + 1) :
    first c (front ++ s :: more') = first c (front ++ s :: more) := by
  have gap : gap? c (front ++ s :: more') = gap? c (front ++ s :: more) := by
    refine gap?_append_congr more' fun segment found => ?_
    unfold first at short
    rwa [found] at short
  unfold first at short ⊢
  rw [gap, constant?_append_stop _ stops, constant?_append_stop _ stops]
  cases found : gap? c (front ++ s :: more) with
  | some segment => rfl
  | none =>
    rw [found, constant?_append_stop _ stops] at short
    cases found' : constant? c front with
    | some segment => rfl
    | none =>
      rw [found'] at short
      exact plain_append_congr more' stops short

end

end Segment

open Bytes

/-- Pieces in front of a sign stay what they are, whatever stands behind it. -/
theorem pieces_append_congr {s : Char} (stops : Segment.stopsRuns s = true) {start : Nat}
    {more : List Char} (more' : List Char) {front back : List Piece}
    (cut : pieces start 0 (Piece.texts front ++ s :: more) = front ++ back) :
    pieces start 0 (Piece.texts front ++ s :: more') =
      front ++ pieces (start + size (Piece.texts front)) 0 (s :: more') := by
  induction front generalizing start with
  | nil => rfl
  | cons piece front ih =>
    have texts : Piece.texts (piece :: front) = piece.text ++ Piece.texts front := rfl
    obtain ⟨c, rest, split⟩ : ∃ c rest, Piece.texts (piece :: front) ++ s :: more = c :: rest :=
      List.exists_cons_of_ne_nil (by simp)
    obtain ⟨text, after, split', reads⟩ := Segment.reads_first c rest
    rw [split, split', pieces_append split'.symm rfl reads.width_eq, List.cons_append] at cut
    obtain ⟨rfl, others⟩ := List.cons.inj cut
    -- The first piece ends in front of the sign.
    obtain rfl : after = Piece.texts front ++ s :: more := by
      rw [split', texts, List.append_assoc] at split
      exact (List.append_cancel_left split).symm
    obtain ⟨tail, rfl⟩ : ∃ tail, text = c :: tail := by
      cases text with
      | nil =>
        have positive := Segment.first_width_pos c rest
        rw [reads.width_eq] at positive
        exact absurd positive (Nat.lt_irrefl 0)
      | cons d tail => exact ⟨tail, by rw [(List.cons.inj split').1]⟩
    obtain rfl : rest = tail ++ Piece.texts front ++ s :: more := by
      rw [List.append_assoc]
      exact (List.cons.inj split').2
    have same : Segment.first c (tail ++ Piece.texts front ++ s :: more') = _ :=
      Segment.first_append_congr more' stops (by rw [reads.width_eq]; simp)
    rw [texts, List.append_assoc, pieces_append (by simp) same reads.width_eq, ih others,
      size_append, List.cons_append, Nat.add_assoc]

/-! ### With the closer -/

namespace Segment

open Lexical

theorem closingWidth?_append_closer {cs : List Char} (open_ : closingWidth? cs = none) :
    closingWidth? (cs ++ ['*', '/']) = some (cs.length + 2) := by
  fun_induction closingWidth? cs with
  | case1 => rfl
  | case2 c => simp [closingWidth?]
  | case3 c d cs closed => cases open_
  | case4 c d cs goesOn ih =>
    have none := Option.map_eq_none_iff.1 open_
    have closed := ih none
    rw [List.cons_append] at closed
    rw [List.cons_append, List.cons_append, closingWidth?, if_neg goesOn, closed]
    rfl

/-- A text between two quotes is a whole token. -/
theorem first_quoted {quote : Char} {kind : String → TokenKind} (value : List Char)
    (spells : ∀ value, Spells (Quoted.render quote value).toList (kind value)) :
    first quote (Quoted.encode quote value ++ [quote]) =
      ⟨(quote :: Quoted.encode quote value ++ [quote]).length, .token (kind (String.ofList value)),
        (kind (String.ofList value)).problem?⟩ := by
  obtain ⟨c, rest, split, same⟩ := first_of_spells (spells (String.ofList value))
  have text : (Quoted.render quote (String.ofList value)).toList =
      quote :: (Quoted.encode quote value ++ [quote]) := by simp [Quoted.render]
  rw [text] at split same
  obtain ⟨rfl, rfl⟩ := List.cons.inj split
  exact same

/-- What is wrong with a piece once its closer is there, by what was wrong with it, what it spelled and
what it was: only a name can be without a character. -/
inductive Gains : LexicalProblem → List Char → SegmentContent → Option LexicalProblem → Prop
  | nothing {problem : LexicalProblem} {text : List Char} {content : SegmentContent}
      (other : problem ≠ .unclosedName) : Gains problem text content none
  | emptyName : Gains .unclosedName ['"'] (.token (.quotedName "")) (some .emptyName)
  | name {text : List Char} {name : String} (nonempty : name ≠ "") :
      Gains .unclosedName text (.token (.quotedName name)) none

/-- An open piece goes on to the end of the text, and with its closer it is the same. -/
theorem first_append_closer {problem : LexicalProblem} {closer : String}
    (closes : problem.closer? = some closer) {c : Char} {rest : List Char}
    (isOpen : (first c rest).problem = some problem) :
    stopsRuns c = true ∧ (first c rest).width = (c :: rest).length ∧ ∃ gained?,
      first c (rest ++ closer.toList) =
        ⟨(c :: rest ++ closer.toList).length, (first c rest).content, gained?⟩ ∧
      Gains problem (c :: rest) (first c rest).content gained? := by
  obtain ⟨text, after, split, reads⟩ := reads_first c rest
  generalize first c rest = segment at isOpen reads ⊢
  cases reads with
  | blank | uuid => cases isOpen
  | stray =>
    obtain rfl := Option.some.inj isOpen
    cases closes
  | token spells =>
    rw [LexicalProblem.closer?_of_problem? isOpen] at closes
    cases closes
  | comment comment =>
    cases comment with
    | line | block => cases isOpen
    | @unclosed body within =>
      obtain rfl := Option.some.inj isOpen
      obtain rfl := Option.some.inj closes
      obtain ⟨rfl, rfl⟩ : c = '/' ∧ rest = '*' :: body := by simpa using split
      have noCloser : closingWidth? body = none := by
        rcases closingWidth?_cases body with ⟨before, after, rfl, -⟩ | ⟨none, -⟩
        · exact absurd (List.infix_append before _ after) within
        · exact none
      refine ⟨rfl, rfl, none, ?_, .nothing (by simp)⟩
      show blockComment (body ++ ['*', '/']) = _
      rw [blockComment, closingWidth?_append_closer noCloser]
      simp only [List.length_append, List.length_cons]
      congr 1
      simp
      omega
  | unclosed unclosed =>
    rw [List.append_nil] at split
    subst split
    cases unclosed with
    | string value =>
      obtain rfl := Option.some.inj isOpen
      obtain rfl := Option.some.inj closes
      exact ⟨rfl, rfl, none, first_quoted value .string, .nothing (by simp)⟩
    | quotedName value =>
      obtain rfl := Option.some.inj isOpen
      obtain rfl := Option.some.inj closes
      refine ⟨rfl, rfl, _, first_quoted value .quotedName, ?_⟩
      cases value with
      | nil => exact .emptyName
      | cons d value =>
        have nonempty : String.ofList (d :: value) ≠ "" := by simp
        rw [TokenKind.problem?, if_neg nonempty]
        exact .name nonempty

end Segment

/-- An open piece is the last one.  With its closer it is as wide as both, and is what it was. -/
theorem pieces_append_closer {problem : LexicalProblem} {closer : String}
    (closes : problem.closer? = some closer) {start : Nat} {cs : List Char} {front back : List Piece}
    {piece : Piece} (cut : pieces start 0 cs = front ++ piece :: back)
    (isOpen : piece.segment.problem = some problem) :
    back = [] ∧ ∃ width gained?, pieces start 0 (cs ++ closer.toList) =
        front ++ [⟨piece.start, piece.text ++ closer.toList, ⟨width, piece.segment.content, gained?⟩⟩] ∧
      Segment.Gains problem piece.text piece.segment.content gained? := by
  obtain ⟨rest, rfl, same⟩ := pieces_split cut
  cases rest with
  | nil => cases same
  | cons c rest =>
    rw [pieces_cons] at same
    obtain ⟨rfl, rfl⟩ := List.cons.inj same
    obtain ⟨stops, width, gained?, closed, gains⟩ := Segment.first_append_closer closes isOpen
    dsimp only
    rw [width, List.take_length, List.drop_length, pieces_nil]
    refine ⟨rfl, (c :: rest ++ closer.toList).length, gained?, ?_, gains⟩
    have whole := @pieces_append (start + size (Piece.texts front)) (c :: rest ++ closer.toList) [] _ c
      (rest ++ closer.toList) (by simp) closed rfl
    rw [List.append_nil, pieces_nil] at whole
    rw [List.append_assoc, List.cons_append, pieces_append_congr stops _ cut, ← List.cons_append, whole]

/-- The kinds of tokens are those of their pieces. -/
theorem map_kind_tokenize (source : String) : (tokenize source).tokens.map (·.kind) =
    (pieces 0 0 source.toList).filterMap (fun piece =>
      match piece.segment.content with
      | .token kind => some kind
      | _ => none) ++ [.endOfInput] := by
  have same : ∀ piece : Piece, piece.token?.map (·.kind) =
      match piece.segment.content with
      | .token kind => some kind
      | _ => none := by
    intro piece
    unfold Piece.token?
    cases piece.segment.content <;> rfl
  simp only [tokenize, List.map_append, List.map_filterMap, same]
  rfl

theorem LexicalProblem.onClosing_of_ne {problem : LexicalProblem} (other : problem ≠ .unclosedName)
    (last? : Option Token) : problem.onClosing last? = [] := by
  unfold onClosing
  split
  · exact absurd rfl other
  · rfl

/-- **Closing what is open** at the end of a text.  If the text is reported to end in front of a closer,
then it is the last thing reported; with the closer the tokens are of the same kinds with the same values,
and the report is gone.  A name without a character in it is then reported as such. -/
theorem tokenize_append_closer {source closer : String} {problem : LexicalProblem} {d : Diagnostic}
    (closes : problem.closer? = some closer) (mem : d ∈ (tokenize source).diagnostics)
    (worded : d.message = problem.message) :
    (tokenize (source ++ closer)).tokens.map (·.kind) = (tokenize source).tokens.map (·.kind) ∧
      ∃ before, (tokenize source).diagnostics = before ++ [d] ∧
        (tokenize (source ++ closer)).diagnostics =
          before ++ problem.onClosing (tokenize source).tokens.dropLast.getLast? := by
  obtain ⟨⟨start, text, ⟨width, content, problem?⟩⟩, isPiece, reported⟩ := List.mem_filterMap.1 mem
  obtain ⟨other, wrong, rfl⟩ := Option.map_eq_some_iff.1 reported
  obtain rfl := LexicalProblem.eq_of_message (by simp [closes]) worded
  obtain ⟨front, back, cut⟩ := List.append_of_mem isPiece
  obtain ⟨rfl, width', gained?, cut', gains⟩ := pieces_append_closer closes cut wrong
  rw [← String.toList_append] at cut'
  dsimp only at cut' gains
  -- Both texts have the pieces in front in common, and the last ones are of one kind.
  refine ⟨?_, front.filterMap (·.diagnostic?), ?_, ?_⟩
  · rw [map_kind_tokenize, map_kind_tokenize, cut, cut', List.filterMap_append, List.filterMap_append]
    rfl
  · simp only [tokenize, cut, List.filterMap_append, List.filterMap_cons, reported, List.filterMap_nil]
  · have tokens : (tokenize source).tokens.dropLast = front.filterMap (·.token?) ++
        [(⟨start, text, ⟨width, content, problem?⟩⟩ : Piece)].filterMap (·.token?) := by
      simp only [tokenize, cut, List.filterMap_append, List.dropLast_concat]
    have diagnostics : (tokenize (source ++ closer)).diagnostics = front.filterMap (·.diagnostic?) ++
        (gained?.map (·.diagnostic start (text ++ closer.toList))).toList := by
      simp only [tokenize, cut', List.filterMap_append]
      cases gained? <;> rfl
    rw [tokens, diagnostics]
    congr 1
    cases gains with
    | nothing different =>
      rw [LexicalProblem.onClosing_of_ne different]
      rfl
    | emptyName =>
      obtain rfl := Option.some.inj closes
      show _ = LexicalProblem.onClosing _ (_ ++ [_]).getLast?
      rw [List.getLast?_concat]
      rfl
    | @name _ name nonempty =>
      show _ = LexicalProblem.onClosing _ (_ ++ [_]).getLast?
      rw [List.getLast?_concat]
      unfold LexicalProblem.onClosing
      split
      · rename_i same
        simp only [Option.some.injEq, Token.mk.injEq, Lexeme.mk.injEq, TokenKind.quotedName.injEq] at same
        exact absurd same.1.1 nonempty
      · rfl

/-- A text that ends right behind the quote that opens a name. -/
theorem tokenize_append_closer_of_quote :
    (tokenize ("SELECT \"" ++ "\"")).tokens.map (·.kind) = [.keyword .SELECT, .quotedName "", .endOfInput] ∧
      (tokenize ("SELECT \"" ++ "\"")).diagnostics =
        [LexicalProblem.emptyName.diagnostic 7 ['"', '"']] := by
  have found : (tokenize "SELECT \"").diagnostics = [LexicalProblem.unclosedName.diagnostic 7 ['"']] := by
    decide +kernel
  have kinds : (tokenize "SELECT \"").tokens.map (·.kind) =
      [.keyword .SELECT, .quotedName "", .endOfInput] := by decide +kernel
  have last : (tokenize "SELECT \"").tokens.dropLast.getLast? =
      some ⟨⟨.quotedName "", "\""⟩, 7, 8⟩ := by decide +kernel
  have closes : LexicalProblem.unclosedName.closer? = some "\"" := rfl
  have mem : LexicalProblem.unclosedName.diagnostic 7 ['"'] ∈ (tokenize "SELECT \"").diagnostics := by
    rw [found]
    exact List.mem_singleton_self _
  obtain ⟨same, before, cut, gains⟩ := tokenize_append_closer closes mem rfl
  rw [found] at cut
  obtain rfl : before = [] := by
    have length := congrArg List.length cut
    simp at length
    exact length
  rw [last] at gains
  exact ⟨same.trans kinds, gains⟩

end Cql
