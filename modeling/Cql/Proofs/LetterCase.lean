/-
The scanner and the case of letters.

Two texts may differ in the case of ASCII letters only.  Then the same tests hold of their characters,
so that the first segment is as wide in one as it is in the other.  What a segment is depends on its own
characters; and a word, in whatever case, is the same keyword or an identifier with the same name.

* `CaseBlind` — a test of characters that sees the case of none of the 26 letters, and so of nothing;
* `Lowercase.text_congr`, `Keyword.ofWord?_congr` — names and keywords;
* `Quoted.read_congr` — quoted texts;
* `Segment.Alike` — segments that differ in the case of letters only;
* `Segment.first_alike` — **the first segments of two texts that differ in case only**.
-/
import Mathlib.Data.List.Basic
import Cql.Proofs.Segments
import Cql.Syntax.Identifier

namespace Cql

/-! ### Characters -/

/-- Does the function take the same value at each of the 26 letters and its lower-case form? -/
def CaseBlind {β : Type} (f : Char → β) : Prop :=
  ∀ n < 26, f (Char.ofNat (65 + n)).toLower = f (Char.ofNat (65 + n))

instance {β : Type} {f : Char → β} [∀ c d, Decidable (f c = f d)] : Decidable (CaseBlind f) :=
  inferInstanceAs (Decidable (∀ n < 26, _))

theorem CaseBlind.toLower {β : Type} {f : Char → β} (blind : CaseBlind f) (c : Char) :
    f c.toLower = f c := by
  by_cases upper : 65 ≤ c.toNat ∧ c.toNat ≤ 90
  · have same : Char.ofNat (65 + (c.toNat - 65)) = c := by
      rw [Nat.add_sub_cancel' upper.1, Char.ofNat_toNat]
    have letter := blind (c.toNat - 65) (by omega)
    rwa [same] at letter
  · have same : c.toLower = c := by
      unfold Char.toLower
      exact dif_neg upper
    rw [same]

theorem CaseBlind.eq {β : Type} {f : Char → β} (blind : CaseBlind f) {c d : Char}
    (same : c.toLower = d.toLower) : f c = f d := by
  rw [← blind.toLower c, same, blind.toLower d]

theorem toLower_toLower (c : Char) : c.toLower.toLower = c.toLower :=
  CaseBlind.toLower (by decide) c

/-- Do the texts differ in the case of ASCII letters only? -/
def SameLetters (cs ds : List Char) : Prop := cs.map Char.toLower = ds.map Char.toLower

namespace SameLetters

variable {cs ds : List Char} {c d : Char} {β : Type}

theorem symm (h : SameLetters cs ds) : SameLetters ds cs := Eq.symm h

theorem cons_iff : SameLetters (c :: cs) (d :: ds) ↔ c.toLower = d.toLower ∧ SameLetters cs ds := by
  simp [SameLetters]

/-- Texts with the same letters are alike to a function that takes a text for its lower-case form. -/
theorem congr {f : List Char → β} (blind : ∀ es, f (es.map Char.toLower) = f es)
    (h : SameLetters cs ds) : f cs = f ds := by
  rw [← blind cs, h, blind ds]

theorem length_eq (h : SameLetters cs ds) : cs.length = ds.length :=
  h.congr fun _ => List.length_map _

theorem exists_cons (h : SameLetters (c :: cs) ds) :
    ∃ d ds', ds = d :: ds' ∧ c.toLower = d.toLower ∧ SameLetters cs ds' := by
  cases ds with
  | nil => simp [SameLetters] at h
  | cons d ds => exact ⟨d, ds, rfl, cons_iff.1 h⟩

theorem take (h : SameLetters cs ds) (n : Nat) : SameLetters (cs.take n) (ds.take n) := by
  simpa [SameLetters] using congrArg (List.take n) h

theorem drop (h : SameLetters cs ds) (n : Nat) : SameLetters (cs.drop n) (ds.drop n) := by
  simpa [SameLetters] using congrArg (List.drop n) h

/-- The first characters pass the same tests. -/
theorem head?_any {p : Char → Bool} (blind : CaseBlind p) (h : SameLetters cs ds) :
    cs.head?.any p = ds.head?.any p := by
  refine h.congr (f := fun es => es.head?.any p) fun es => ?_
  cases es with
  | nil => rfl
  | cons e es => exact blind.toLower e

/-- A character that is no letter stands first in both or in neither. -/
theorem head?_eq_iff {e : Char} (other : CaseBlind (· = e)) (h : SameLetters cs ds) :
    cs.head? = some e ↔ ds.head? = some e := by
  refine Eq.to_iff (h.congr (f := fun es => es.head? = some e) fun es => ?_)
  cases es with
  | nil => rfl
  | cons e' es => simpa using other.toLower e'

theorem takeWhile {p : Char → Bool} (blind : CaseBlind p) (h : SameLetters cs ds) :
    SameLetters (cs.takeWhile p) (ds.takeWhile p) := by
  have seen : p ∘ Char.toLower = p := funext blind.toLower
  refine h.congr (f := fun es => (es.takeWhile p).map Char.toLower) fun es => ?_
  rw [List.takeWhile_map, seen, List.map_map]
  exact List.map_congr_left fun c _ => toLower_toLower c

end SameLetters

/-! ### Names and keywords -/

theorem Keyword.ofWord?_congr {text text' : String} (same : SameLetters text.toList text'.toList) :
    ofWord? text = ofWord? text' := by
  have upper : Char.toUpper ∘ Char.toLower = Char.toUpper :=
    funext (CaseBlind.toLower (by decide))
  have toUpper_eq : ∀ word : String, word.toUpper = String.ofList (word.toList.map Char.toUpper) := by
    intro word
    rw [← toList_toUpper, String.ofList_toList]
  unfold ofWord?
  rw [toUpper_eq text, toUpper_eq text', same.congr (f := List.map Char.toUpper) fun es => by
    rw [List.map_map, upper]]

namespace Lowercase

/-- Ranges that hold no letter of ASCII do not see its case. -/
theorem caseBlind_inRanges {ranges : List (Nat × Nat)}
    (apart : ∀ range ∈ ranges, range.2 < 65 ∨ 90 < range.1 ∧ range.2 < 97 ∨ 122 < range.1) :
    CaseBlind (inRanges ranges) := by
  have outside : ∀ c : Char, 65 ≤ c.toNat ∧ c.toNat ≤ 90 ∨ 97 ≤ c.toNat ∧ c.toNat ≤ 122 →
      inRanges ranges c = false := by
    intro c letter
    refine List.any_eq_false.2 fun range mem => ?_
    have := apart range mem
    simp only [Bool.and_eq_true, decide_eq_true_eq]
    omega
  have letters : ∀ n < 26, (65 ≤ (Char.ofNat (65 + n)).toNat ∧ (Char.ofNat (65 + n)).toNat ≤ 90) ∧
      97 ≤ (Char.ofNat (65 + n)).toLower.toNat ∧ (Char.ofNat (65 + n)).toLower.toNat ≤ 122 := by
    decide
  intro n below
  rw [outside _ (.inl (letters n below).1), outside _ (.inr (letters n below).2)]

theorem meetsLetter_congr {cs ds : List Char} (same : SameLetters cs ds) :
    meetsLetter cs = meetsLetter ds := by
  have ignorable : inRanges CaseTable.caseIgnorableRanges ∘ Char.toLower =
      inRanges CaseTable.caseIgnorableRanges :=
    funext (caseBlind_inRanges (by decide +kernel)).toLower
  have cased : CaseBlind (inRanges CaseTable.casedRanges) := by decide +kernel
  refine same.congr fun es => ?_
  unfold meetsLetter
  rw [List.dropWhile_map, ignorable]
  cases es.dropWhile (inRanges CaseTable.caseIgnorableRanges) with
  | nil => rfl
  | cons c rest => exact cased.toLower c

theorem chars_congr {before before' cs ds : List Char} (front : SameLetters before before')
    (same : SameLetters cs ds) : chars before cs = chars before' ds := by
  have sigma : CaseBlind (· = 'Σ') := by decide
  have each : CaseBlind char := by decide +kernel
  -- A capital sigma looks back, so what stands in front grows with the induction.
  induction cs generalizing before before' ds with
  | nil =>
    obtain rfl : ds = [] := List.length_eq_zero_iff.1 same.length_eq.symm
    rfl
  | cons c cs ih =>
    obtain ⟨d, ds, rfl, first, rest⟩ := same.exists_cons
    have isSigma : (c = 'Σ') = (d = 'Σ') := sigma.eq first
    rw [chars, chars, ih (SameLetters.cons_iff.2 ⟨first, front⟩) rest, each.eq first,
      meetsLetter_congr front, meetsLetter_congr rest]
    simp only [isSigma]

/-- The lower-case form of a name does not depend on the case of its ASCII letters. -/
theorem text_congr {name name' : String} (same : SameLetters name.toList name'.toList) :
    text name = text name' := by
  unfold text
  rw [chars_congr rfl same]

end Lowercase

/-! ### Quoted texts -/

namespace Quoted

variable {quote : Char} {cs ds : List Char}

/-- The quotes in a text stand where those of its lower-case form do. -/
theorem read_width_congr (other : CaseBlind (· = quote)) (same : SameLetters cs ds) :
    (read quote cs).width = (read quote ds).width := by
  have isQuote : ∀ c : Char, (c.toLower = quote) = (c = quote) := other.toLower
  refine same.congr (f := fun es => (read quote es).width) fun es => ?_
  fun_induction read quote es with
  | case1 => rfl
  | case2 => simp [read, isQuote]
  | case3 c alone => simp [read, isQuote, alone]
  | case4 rest ih => simpa [read, isQuote, Body.push] using ih
  | case5 d rest alone => simp [read, isQuote, alone]
  | case6 c d rest plain ih => simpa [read, isQuote, plain, Body.push] using ih

/-- A body is read from its own characters. -/
theorem read_take (quote : Char) (cs : List Char) :
    read quote (cs.take (read quote cs).width) = read quote cs := by
  rcases Segment.read_cases quote cs with ⟨value, after, rfl, -, seen⟩ | ⟨value, -, seen⟩
  · have front : (encode quote value ++ quote :: after).take ((encode quote value).length + 1) =
        encode quote value ++ [quote] := by
      rw [List.take_length_add_append, List.take_succ_cons, List.take_zero]
    rw [seen, front, read_encode quote value [] (by simp)]
  · rw [seen, List.take_length, seen]

/-- With the same characters, the bodies are the same. -/
theorem read_congr (other : CaseBlind (· = quote)) (same : SameLetters cs ds)
    (front : ds.take (read quote cs).width = cs.take (read quote cs).width) :
    read quote ds = read quote cs := by
  rw [← read_take quote ds, ← read_width_congr other same, front, read_take]

end Quoted

/-! ### Segments -/

/-- A token whose case does not matter: a keyword or an identifier. -/
def TokenKind.isWord : TokenKind → Bool
  | keyword _ | identifier _ => true
  | _ => false

namespace Segment

/-- Segments in front of two texts that differ in case only: they are equally wide, and with the same
characters they are the same; and if one is a word, the other is, too. -/
structure Alike (cs ds : List Char) (segment other : Segment) : Prop where
  width : other.width = segment.width
  same : ds.take segment.width = cs.take segment.width → other = segment
  word : ∀ kind, segment.content = .token kind → kind.isWord = true →
    segment = Segment.word cs ∧ other = Segment.word ds

variable {cs ds : List Char} {c d : Char}

theorem Alike.rfl {segment : Segment}
    (noWord : ∀ kind, segment.content = .token kind → kind.isWord = false) :
    Alike cs ds segment segment where
  width := Eq.refl _
  same := fun _ => Eq.refl _
  word := fun kind content word => absurd word (by simp [noWord kind content])

/-! ### Numbers -/

theorem caseBlind_isDigit : CaseBlind Char.isDigit := by decide

theorem digitRun_congr (same : SameLetters cs ds) : digitRun cs = digitRun ds :=
  (same.takeWhile caseBlind_isDigit).length_eq

theorem fractionWidth_congr (same : SameLetters cs ds) : fractionWidth cs = fractionWidth ds := by
  have point : CaseBlind (· = '.') := by decide
  have first := same.head?_eq_iff point
  by_cases pointed : cs.head? = some '.'
  · obtain ⟨cs, rfl⟩ := List.head?_eq_some_iff.1 pointed
    obtain ⟨ds, rfl⟩ := List.head?_eq_some_iff.1 (first.1 pointed)
    rw [fractionWidth, fractionWidth, digitRun_congr (SameLetters.cons_iff.1 same).2]
  · rw [fractionWidth_of_ne pointed, fractionWidth_of_ne (mt first.2 pointed)]

theorem exponentWidth_congr (same : SameLetters cs ds) : exponentWidth cs = exponentWidth ds := by
  have mark : CaseBlind fun c => c = 'e' ∨ c = 'E' := by decide
  have sign : CaseBlind isSign := by decide
  have seen : isSign ∘ Char.toLower = isSign := funext sign.toLower
  cases cs with
  | nil =>
    obtain rfl : ds = [] := List.length_eq_zero_iff.1 same.length_eq.symm
    rfl
  | cons c cs =>
    obtain ⟨d, ds, rfl, first, rest⟩ := same.exists_cons
    have isMark : (c = 'e' ∨ c = 'E') = (d = 'e' ∨ d = 'E') := mark.eq first
    have width : (cs.take 1).countP isSign = (ds.take 1).countP isSign :=
      (rest.take 1).congr fun es => by rw [List.countP_map, seen]
    unfold exponentWidth
    simp only [isMark, width, digitRun_congr (rest.drop _)]

theorem number_alike (signWidth : Nat) (same : SameLetters cs ds) :
    Alike cs ds (number signWidth cs) (number signWidth ds) := by
  have whole := digitRun_congr (same.drop signWidth)
  have fraction := fractionWidth_congr (same.drop (signWidth + digitRun (ds.drop signWidth)))
  have exponent := exponentWidth_congr (same.drop (signWidth + digitRun (ds.drop signWidth) +
    fractionWidth (ds.drop (signWidth + digitRun (ds.drop signWidth)))))
  unfold number
  simp only [whole, fraction, exponent]
  refine ⟨rfl, fun front => ?_, fun kind content => ?_⟩
  · simp only [width_ofKind] at front
    rw [front]
  · obtain rfl := (SegmentContent.token.inj content).symm
    split <;> simp [TokenKind.isWord]

/-! ### Words and hexadecimal constants -/

theorem caseBlind_isWordChar : CaseBlind isWordChar := by decide

theorem take_letters (cs : List Char) :
    cs.take (cs.takeWhile isWordChar).length = cs.takeWhile isWordChar :=
  (List.prefix_iff_eq_take.1 (List.takeWhile_prefix _)).symm

/-- The words in front are equally long, and with the same characters they are the same. -/
theorem letters_congr (same : SameLetters cs ds) :
    (ds.takeWhile isWordChar).length = (cs.takeWhile isWordChar).length ∧
      (ds.take (cs.takeWhile isWordChar).length = cs.take (cs.takeWhile isWordChar).length →
        ds.takeWhile isWordChar = cs.takeWhile isWordChar) := by
  have length := (same.takeWhile caseBlind_isWordChar).length_eq
  refine ⟨length.symm, fun front => ?_⟩
  rw [← take_letters ds, ← take_letters cs, ← length]
  exact front

/-- A word is read from its own characters. -/
theorem word_eq_take (cs : List Char) :
    word cs = ofKind (cs.take (word cs).width).length (wordKind (cs.take (word cs).width)) := by
  have front : cs.take (word cs).width = cs.takeWhile isWordChar := take_letters cs
  rw [front, word_eq]

theorem word_alike (same : SameLetters cs ds) : Alike cs ds (word cs) (word ds) where
  width := (letters_congr same).1
  same := fun front => by rw [word_eq, word_eq, (letters_congr same).2 front]
  word := fun _ _ _ => ⟨rfl, rfl⟩

theorem hexConstant_alike (same : SameLetters cs ds) :
    Alike cs ds (hexConstant cs) (hexConstant ds) where
  width := (letters_congr same).1
  same := fun front => by rw [hexConstant, hexConstant, (letters_congr same).2 front]
  word := fun kind content => by
    obtain rfl := (SegmentContent.token.inj content).symm
    simp [TokenKind.isWord]

/-! ### Blanks and comments -/

theorem closingWidth?_congr (same : SameLetters cs ds) : closingWidth? cs = closingWidth? ds := by
  have star : CaseBlind (· = '*') := by decide
  have slash : CaseBlind (· = '/') := by decide
  refine same.congr fun es => ?_
  fun_induction closingWidth? es with
  | case1 => rfl
  | case2 c => rfl
  | case3 c d rest closes => simp [closingWidth?, closes]
  | case4 c d rest goesOn ih =>
    have goesOn' : ¬ (c.toLower = '*' ∧ d.toLower = '/') := by
      rwa [star.toLower, slash.toLower]
    rw [List.map_cons] at ih
    rw [List.map_cons, List.map_cons, closingWidth?, if_neg goesOn', ih]

theorem lineComment_congr (same : SameLetters cs ds) : lineComment cs = lineComment ds := by
  have inLine : CaseBlind fun c => decide (c ≠ '\n') := by decide
  unfold lineComment
  rw [(same.takeWhile inLine).length_eq]

theorem blockComment_congr (same : SameLetters cs ds) : blockComment cs = blockComment ds := by
  unfold blockComment
  rw [closingWidth?_congr same, same.length_eq]

theorem gap?_congr (first : c.toLower = d.toLower) (same : SameLetters cs ds) :
    gap? c cs = gap? d ds := by
  have blank : CaseBlind isBlank := by decide
  have minus : CaseBlind (· = '-') := by decide
  have slash : CaseBlind (· = '/') := by decide
  have star : CaseBlind (· = '*') := by decide
  have isMinus : (c = '-') = (d = '-') := minus.eq first
  have isSlash : (c = '/') = (d = '/') := slash.eq first
  unfold gap?
  simp only [blank.eq first, isMinus, isSlash, same.head?_eq_iff minus, same.head?_eq_iff slash,
    same.head?_eq_iff star, lineComment_congr (same.drop 1), blockComment_congr (same.drop 1)]

/-- Neither a blank nor a comment is a token. -/
theorem gap?_noToken {segment : Segment} (gap : gap? c cs = some segment) (kind : TokenKind) :
    segment.content ≠ .token kind := by
  unfold gap? at gap
  split at gap
  · cases gap
    simp
  split at gap
  · cases gap
    simp [lineComment]
  split at gap
  · cases gap
    unfold blockComment
    split <;> simp
  · cases gap

/-! ### Constants -/

theorem startsWith_congr {forms : List (Char → Bool)} (blind : ∀ form ∈ forms, CaseBlind form)
    (same : SameLetters cs ds) : startsWith forms cs = startsWith forms ds := by
  refine same.congr fun es => ?_
  induction forms generalizing es with
  | nil => rfl
  | cons form forms ih =>
    rw [List.forall_mem_cons] at blind
    cases es with
    | nil => rfl
    | cons e es => rw [List.map_cons, startsWith, startsWith, blind.1.toLower, ih blind.2]

theorem caseBlind_uuidForm : ∀ form ∈ uuidForm, CaseBlind form := by
  have hexDigit : CaseBlind isHexDigit := by decide
  have hyphen : CaseBlind fun c => decide (c = '-') := by decide
  simp [uuidForm, hexDigit, hyphen]

theorem constant?_alike (first : c.toLower = d.toLower) (same : SameLetters cs ds) :
    Option.Rel (Alike (c :: cs) (d :: ds)) (constant? c cs) (constant? d ds) := by
  have whole : SameLetters (c :: cs) (d :: ds) := SameLetters.cons_iff.2 ⟨first, same⟩
  have zero : CaseBlind (· = '0') := by decide
  have minus : CaseBlind (· = '-') := by decide
  have isZero : (c = '0') = (d = '0') := zero.eq first
  have isMinus : (c = '-') = (d = '-') := minus.eq first
  have isHex : (cs.head? = some 'x' ∨ cs.head? = some 'X') =
      (ds.head? = some 'x' ∨ ds.head? = some 'X') := by
    have hexMark : CaseBlind fun c => c = 'x' ∨ c = 'X' := by decide
    refine same.congr (f := fun es => es.head? = some 'x' ∨ es.head? = some 'X') fun es => ?_
    cases es with
    | nil => rfl
    | cons e es => simpa using hexMark.toLower e
  unfold constant?
  rw [startsWith_congr caseBlind_uuidForm whole, caseBlind_isDigit.eq first,
    same.head?_any caseBlind_isDigit]
  simp only [isZero, isMinus, isHex]
  split
  · refine .some ⟨rfl, fun front => ?_, fun kind content => ?_⟩
    · rw [width_ofKind] at front
      rw [front]
    · obtain rfl := (SegmentContent.token.inj content).symm
      simp [TokenKind.isWord]
  split
  · exact .some (hexConstant_alike whole)
  split
  · exact .some (number_alike 0 whole)
  split
  · exact .some (number_alike 1 whole)
  · exact .none

/-! ### Everything else -/

/-- A quoted text is read from its opening quote and its body. -/
theorem quoted_alike {quote : Char} {after : List Char → Segment} (other : CaseBlind (· = quote))
    (width : ∀ es, (after es).width = 1 + (Quoted.read quote es).width)
    (body : ∀ es es', Quoted.read quote es = Quoted.read quote es' → after es = after es')
    (noWord : ∀ es kind, (after es).content = .token kind → kind.isWord = false)
    (same : SameLetters cs ds) : Alike (quote :: cs) (quote :: ds) (after cs) (after ds) where
  width := by rw [width, width, Quoted.read_width_congr other same]
  same := fun front => by
    rw [width, Nat.add_comm, List.take_succ_cons, List.take_succ_cons] at front
    exact body _ _ (Quoted.read_congr other same (List.cons.inj front).2)
  word := fun kind content word => absurd word (by simp [noWord _ _ content])

theorem stringAfterQuote_alike (same : SameLetters cs ds) :
    Alike ('\'' :: cs) ('\'' :: ds) (stringAfterQuote cs) (stringAfterQuote ds) := by
  refine quoted_alike (by decide) (fun _ => rfl) (fun es es' body => ?_)
    (fun es kind content => ?_) same
  · rw [stringAfterQuote, stringAfterQuote, body]
  · obtain rfl := (SegmentContent.token.inj content).symm
    rfl

theorem nameAfterQuote_alike (same : SameLetters cs ds) :
    Alike ('"' :: cs) ('"' :: ds) (nameAfterQuote cs) (nameAfterQuote ds) := by
  refine quoted_alike (by decide) (fun _ => rfl) (fun es es' body => ?_)
    (fun es kind content => ?_) same
  · rw [nameAfterQuote, nameAfterQuote, body]
  · obtain rfl := (SegmentContent.token.inj content).symm
    rfl

theorem comparison_congr (alone withEqual : Punctuation) (same : SameLetters cs ds) :
    comparison alone withEqual cs = comparison alone withEqual ds := by
  have equal : CaseBlind (· = '=') := by decide
  unfold comparison
  simp only [same.head?_eq_iff equal]

theorem comparison_noWord {alone withEqual : Punctuation} {kind : TokenKind}
    (content : (comparison alone withEqual cs).content = .token kind) : kind.isWord = false := by
  unfold comparison at content
  split at content
  all_goals
    obtain rfl := (SegmentContent.token.inj content).symm
    rfl

theorem markOrStray_noWord {kind : TokenKind} (content : (markOrStray c).content = .token kind) :
    kind.isWord = false := by
  unfold markOrStray at content
  split at content
  · obtain rfl := (SegmentContent.token.inj content).symm
    rfl
  · cases content

/-- What is no letter has no case. -/
theorem toLower_of_not_isAlpha (other : c.isAlpha = false) : c.toLower = c := by
  have parts : c.isAlpha = (c.isUpper || c.isLower) := rfl
  unfold Char.toLower
  refine dif_neg fun upper => ?_
  have isUpper : c.isUpper = true := decide_eq_true upper
  rw [parts, isUpper, Bool.true_or] at other
  cases other

theorem plain_alike (first : c.toLower = d.toLower) (same : SameLetters cs ds) :
    Alike (c :: cs) (d :: ds) (plain c cs) (plain d ds) := by
  have letter : CaseBlind Char.isAlpha := by decide
  cases isLetter : c.isAlpha with
  | true =>
    have isLetter' := (letter.eq first).symm.trans isLetter
    rw [plain, plain, if_pos isLetter, if_pos isLetter']
    exact word_alike (SameLetters.cons_iff.2 ⟨first, same⟩)
  | false =>
    have isLetter' := (letter.eq first).symm.trans isLetter
    rw [toLower_of_not_isAlpha isLetter, toLower_of_not_isAlpha isLetter'] at first
    subst first
    simp only [plain, isLetter, Bool.false_eq_true, if_false]
    split
    · rename_i quote
      subst quote
      exact stringAfterQuote_alike same
    split
    · rename_i quote
      subst quote
      exact nameAfterQuote_alike same
    split
    · rw [comparison_congr _ _ same]
      exact .rfl fun _ => comparison_noWord
    split
    · rw [comparison_congr _ _ same]
      exact .rfl fun _ => comparison_noWord
    · exact .rfl fun _ => markOrStray_noWord

/-- The first segments of two texts that differ in case only. -/
theorem first_alike (first : c.toLower = d.toLower) (same : SameLetters cs ds) :
    Alike (c :: cs) (d :: ds) (Segment.first c cs) (Segment.first d ds) := by
  have constant := constant?_alike first same
  unfold Segment.first
  rw [← gap?_congr first same]
  cases gap : gap? c cs with
  | some segment => exact .rfl fun kind content => absurd content (gap?_noToken gap kind)
  | none =>
    generalize constant? c cs = found, constant? d ds = found' at constant
    cases constant with
    | some alike => exact alike
    | none => exact plain_alike first same

end Segment

end Cql
