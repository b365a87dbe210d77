/-
Written values are read back.

What a text can stand for is what can be read from one: a value with well-formed constants, and no empty
set or map literal.  Such a value is read back from its written form, but for the numbers of its bind
markers.  Since they do not count when values are compared, values are equal if and only if they are
written alike.

* `wellFormed_of_mem_bodyOf` — the tokens of a source without a lexical fault are well-formed;
* `Value.writable_of_reads` — what is read from such a source can be written;
* `Value.agree_iff_render` — values are equal if and only if they are written alike;
* `Value.value_of_render` — **written values are read back**, unless they are nested too deeply.
-/
import Cql.Proofs.ReportOrder
import Cql.Proofs.WrittenValues

namespace Cql

/-! ### Tokens that are read -/

/-- What is read without a complaint has a well-formed kind. -/
theorem Segment.Reads.wellFormed {text after : List Char} {segment : Segment} {kind : TokenKind}
    (reads : Reads text after segment) (token : segment.content = .token kind)
    (sound : segment.problem = none) : kind.WellFormed := by
  cases reads with
  | blank | comment | stray => cases token
  | unclosed => cases sound
  | uuid mem =>
    cases token
    show (String.ofList text).toList ∈ _
    rwa [String.toList_ofList]
  | token spells =>
    cases token
    cases spells with
    | keyword | string | quotedName | mark => trivial
    | identifier mem other =>
      refine ⟨by rwa [String.toList_ofList], ?_⟩
      cases found : Keyword.ofWord? (String.ofList text) with
      | none => rfl
      | some keyword => exact absurd (Keyword.ofWord?_eq_some.1 found) (other keyword)
    | integer mem | float mem =>
      show (String.ofList text).toList ∈ _
      rwa [String.toList_ofList]
    | hex mem =>
      obtain ⟨mark, run, rfl, marked, -⟩ := Lexical.mem_hexConstant.1 mem
      have all : run.all isHexDigit = true := by
        simpa [TokenKind.problem?] using sound
      show (String.ofList _).toList ∈ _
      rw [String.toList_ofList]
      exact Lexical.mem_hexConstant.2 ⟨mark, run, rfl, marked, List.all_eq_true.1 all⟩

/-- The tokens of a source that is cut without a complaint are well-formed. -/
theorem wellFormed_of_mem_bodyOf {source : String} (silent : (tokenize source).diagnostics = [])
    {token : Token} (mem : token ∈ bodyOf source) : token.kind.WellFormed := by
  obtain ⟨piece, mem, made⟩ := List.mem_filterMap.1 mem
  have sound : piece.segment.problem = none :=
    Option.map_eq_none_iff.1 (List.filterMap_eq_nil_iff.1 silent piece mem)
  obtain ⟨before, after, standing⟩ := at_of_mem_pieces mem
  unfold Piece.token? at made
  split at made
  · rename_i kind content
    obtain rfl := Option.some.inj made
    exact standing.reads.wellFormed content sound
  · cases made

/-- A parser of the tokens of a source has these tokens. -/
theorem tokens_start_tokenize (source : String) :
    (Parser.ofTokens (tokenize source).tokens).start.stream.tokens = (tokenize source).tokens := by
  show (TokenStream.ofTokens (tokenize source).tokens).tokens = _
  rw [ofTokens_tokenize]
  rfl

/-- What a quiet rule reads among the tokens of a source stands for tokens of that source. -/
theorem Rule.Recognizes.exists_items {α : Type} {rule : Rule α} {phrase : Phrase α}
    {follow : TokenKind → Prop} (recognizes : rule.Recognizes phrase follow) (quiet : rule.Quiet)
    {source : String} {state : State} (tokens : state.stream.tokens = (tokenize source).tokens) {a : α}
    (found : (rule.run state).result = .ok a) :
    ∃ items, phrase items a ∧ ∀ item ∈ items, ∃ token ∈ bodyOf source, token.toLexeme = item.lexeme := by
  have reads : rule.Reads state a (rule.run state).state := reads_iff.2 ⟨found, rfl, quiet.run found⟩
  obtain ⟨items, passes, spelled⟩ := recognizes.sound _ _ _ reads
  obtain ⟨taken, ahead, rfl⟩ := passes.exists_taken
  have body : state.stream.body = bodyOf source := (List.append_inj' tokens rfl).1
  refine ⟨_, spelled, fun item mem => ?_⟩
  have lexeme : item.lexeme ∈ taken.map (·.toLexeme) := by
    rw [← map_lexeme_number state.markers.count (taken.map (·.toLexeme))]
    exact List.mem_map_of_mem mem
  obtain ⟨token, mem, same⟩ := List.mem_map.1 lexeme
  refine ⟨token, ?_, same⟩
  rw [← body, TokenStream.body, ahead]
  simp [mem]

namespace Phrase

variable {α β : Type} {phrase other : Phrase α} {Q : TokenKind → Prop} {P : α → Prop} {R : β → Prop}

/-- From tokens of such kinds the phrase has only values with the property. -/
def GivesFrom (phrase : Phrase α) (Q : TokenKind → Prop) (P : α → Prop) : Prop :=
  ∀ items a, (∀ item ∈ items, Q item.kind) → phrase items a → P a

namespace GivesFrom

theorem pure {a : α} (h : P a) : (pure a : Phrase α).GivesFrom Q P := by
  rintro items b - ⟨-, rfl⟩
  exact h

theorem bind {next : α → Phrase β} (first : phrase.GivesFrom Q P)
    (second : ∀ a, P a → (next a).GivesFrom Q R) : (phrase >>= next).GivesFrom Q R := by
  rintro items b kinds ⟨front, a, rest, rfl, spelled, spelled'⟩
  obtain ⟨kinds, kinds'⟩ := List.forall_mem_append.1 kinds
  exact second a (first front a kinds spelled) rest b kinds' spelled'

theorem map {f : α → β} (h : phrase.GivesFrom Q P) (values : ∀ a, P a → R (f a)) :
    (f <$> phrase).GivesFrom Q R :=
  h.bind fun a holds => .pure (values a holds)

/-- A phrase that says nothing. -/
theorem skip {next : α → Phrase β} (second : ∀ a, (next a).GivesFrom Q R) :
    (phrase >>= next).GivesFrom Q R := by
  have anything : phrase.GivesFrom Q fun _ => True := fun _ _ _ _ => trivial
  exact anything.bind fun a _ => second a

theorem orElse (first : phrase.GivesFrom Q P) (second : other.GivesFrom Q P) :
    (phrase <|> other).GivesFrom Q P := by
  rintro items a kinds (spelled | spelled)
  · exact first items a kinds spelled
  · exact second items a kinds spelled

theorem token {read : Numbered → Option α} (h : ∀ item a, Q item.kind → read item = some a → P a) :
    (token read).GivesFrom Q P := by
  rintro items a kinds ⟨item, rfl, seen⟩
  exact h item a (kinds item List.mem_cons_self) seen

theorem many (h : phrase.GivesFrom Q P) : (Phrase.many phrase).GivesFrom Q fun as => ∀ a ∈ as, P a := by
  intro items as kinds spelled
  induction spelled with
  | none => simp
  | more first others ih =>
    obtain ⟨kinds, kinds'⟩ := List.forall_mem_append.1 kinds
    exact List.forall_mem_cons.2 ⟨h _ _ kinds first, ih kinds'⟩

theorem commaSeparated (h : phrase.GivesFrom Q P) :
    (commaSeparated phrase).GivesFrom Q fun as => as ≠ [] ∧ ∀ a ∈ as, P a :=
  h.bind fun _ first => (many (skip fun _ => h)).bind fun _ rest =>
    .pure ⟨by simp, List.forall_mem_cons.2 ⟨first, rest⟩⟩

end GivesFrom

end Phrase

namespace Value

open Phrase (GivesFrom)

theorem givesFrom_scalar : Language.scalar.GivesFrom TokenKind.WellFormed Term.WellFormed := by
  refine .orElse (.token fun item term wellFormed seen => ?_) (.token fun item term wellFormed seen => ?_)
  · rw [Term.WellFormed, Term.kind_lexeme_of_ofKind? seen]
    exact wellFormed
  · split at seen
    · cases seen
      trivial
    · cases seen

/-- From well-formed tokens, the grammar has only values that can be written, and that keep to the
bound. -/
theorem givesFrom_valueWithin (levels : Nat) :
    (Language.valueWithin levels).GivesFrom TokenKind.WellFormed fun value =>
      value.Writable ∧ value.depth ≤ levels := by
  have terms (levels : Nat) : (.term <$> Language.scalar : Phrase Value).GivesFrom TokenKind.WellFormed
      fun value => value.Writable ∧ value.depth ≤ levels :=
    givesFrom_scalar.map fun _ wellFormed => ⟨.term wellFormed, Nat.zero_le _⟩
  induction levels with
  | zero => exact terms 0
  | succ levels ih =>
    refine .orElse (terms _) (.orElse ?_ (.orElse ?_ (.orElse ?_ ?_)))
    · have items : (Phrase.commaSeparated (Language.valueWithin levels) <|> pure [] :
          Phrase (List Value)).GivesFrom TokenKind.WellFormed
            fun items => ∀ item ∈ items, item.Writable ∧ item.depth ≤ levels :=
        .orElse (fun items as kinds spelled => (ih.commaSeparated items as kinds spelled).2) (.pure (by simp))
      exact .skip fun _ => items.bind fun _ all => .skip fun _ => .pure
        ⟨.list fun item mem => (all item mem).1,
          Nat.succ_le_succ (depthOfItems_le_iff.2 fun item mem => (all item mem).2)⟩
    · exact .skip fun _ => .skip fun _ => .pure ⟨.emptyBraces, Nat.succ_le_succ (Nat.zero_le _)⟩
    · exact .skip fun _ => ih.commaSeparated.bind fun _ ⟨nonempty, all⟩ => .skip fun _ => .pure
        ⟨.set nonempty fun item mem => (all item mem).1,
          Nat.succ_le_succ (depthOfItems_le_iff.2 fun item mem => (all item mem).2)⟩
    · have entry : (Language.mapEntry (Language.valueWithin levels)).GivesFrom TokenKind.WellFormed
          fun entry => (entry.1.Writable ∧ entry.1.depth ≤ levels) ∧
            entry.2.Writable ∧ entry.2.depth ≤ levels :=
        ih.bind fun _ key => .skip fun _ => ih.map fun _ value => ⟨key, value⟩
      exact .skip fun _ => entry.commaSeparated.bind fun _ ⟨nonempty, all⟩ => .skip fun _ => .pure
        ⟨.map nonempty (fun entry mem => (all entry mem).1.1) fun entry mem => (all entry mem).2.1,
          Nat.succ_le_succ (depthOfEntries_le_iff.2 fun entry mem => ⟨(all entry mem).1.2, (all entry mem).2.2⟩)⟩

/-- Whatever value is read among the tokens of a source that is cut without a complaint can be written,
and keeps to the bound. -/
theorem writable_of_reads {source : String} (silent : (tokenize source).diagnostics = []) {state : State}
    (tokens : state.stream.tokens = (tokenize source).tokens) {context : String} {value : Value}
    (found : ((Grammar.value context).run state).result = .ok value) :
    value.Writable ∧ value.depth ≤ maxNesting := by
  obtain ⟨items, spelled, among⟩ :=
    (Grammar.recognizes_value context).exists_items (Grammar.quiet_value context) tokens found
  refine givesFrom_valueWithin maxNesting _ _ (fun item mem => ?_) spelled
  obtain ⟨token, mem, same⟩ := among item mem
  rw [Numbered.kind, ← same]
  exact wellFormed_of_mem_bodyOf silent mem

/-! ### Written values are read back -/

/-- From the tokens of its written form, a value is read under any bound that it keeps to. -/
theorem exists_reads_render {value : Value} (writable : value.Writable) {levels : Nat}
    (within : value.depth ≤ levels) (context : String) : ∃ value' after, after.stream.ahead = [] ∧
      (Grammar.valueWithin levels context).Reads
        (Parser.ofTokens (tokenize value.render).tokens).start value' after ∧ Agree value value' := by
  obtain ⟨after, covers, done⟩ := (writes_render writable).covers
  obtain ⟨value', reads, same⟩ := reads_lexemes writable within context covers
  exact ⟨value', after, done, reads, same⟩

/-- **Values are equal if and only if they are written alike.** -/
theorem agree_iff_render {value other : Value} (writable : value.Writable) (writable' : other.Writable) :
    Agree value other ↔ value.render = other.render := by
  refine ⟨render_of_agree, fun alike => ?_⟩
  -- One text is read as one value, and both are equal to it.
  obtain ⟨found, after, -, reads, same⟩ :=
    exists_reads_render writable (Nat.le_max_left value.depth other.depth) ""
  obtain ⟨found', after', -, reads', same'⟩ :=
    exists_reads_render writable' (Nat.le_max_right value.depth other.depth) ""
  rw [← alike] at reads'
  have replies := reads.symm.trans reads'
  simp only [Reply.mk.injEq, Except.ok.injEq] at replies
  rw [← replies.1] at same'
  exact agree_iff.2 ((agree_iff.1 same).trans (agree_iff.1 same').symm)

/-- **Written values are read back.**  Let the numbers, UUIDs and hexadecimal constants in a value be
well-formed, and none of its set and map literals empty; every value is such that is read among the tokens
of a source without a lexical fault.  Then its written form is cut into tokens without a complaint.  If no
more collections stand inside one another than there may be, then the rule for values takes all of these
tokens, reports nothing, and reads an equal value with the same written form; and otherwise it halts with
a single report, that collections are nested too deeply.  And two such values are equal if and only if
their written forms are. -/
theorem value_of_render :
    (∀ value : Value, value.Writable →
      (tokenize value.render).diagnostics = [] ∧
      (value.depth ≤ maxNesting → ∀ context, ∃ value' after, after.stream.ahead = [] ∧
        (Grammar.value context).run (Parser.ofTokens (tokenize value.render).tokens).start =
          ⟨.ok value', after, []⟩ ∧
        (value == value') = true ∧ value'.render = value.render) ∧
      (maxNesting < value.depth → ∀ context, ∃ after report,
        (Grammar.value context).run (Parser.ofTokens (tokenize value.render).tokens).start =
            ⟨.error .recorded, after, [report]⟩ ∧
          report.problem.message = "collection nesting too deep") ∧
      ∀ other : Value, other.Writable → ((value == other) = true ↔ value.render = other.render)) ∧
    ∀ source, (tokenize source).diagnostics = [] → ∀ (state : State) (context : String) (value : Value),
      state.stream.tokens = (tokenize source).tokens →
      ((Grammar.value context).run state).result = .ok value →
        value.Writable ∧ value.depth ≤ maxNesting := by
  refine ⟨fun value writable => ⟨(tokenize_of_writes (writes_render writable)).2, ?_, ?_,
    fun other => agree_iff_render writable⟩, fun source silent state context value tokens found =>
      writable_of_reads silent tokens found⟩
  · intro within context
    obtain ⟨value', after, done, reads, same⟩ := exists_reads_render writable within context
    exact ⟨value', after, done, reads, same, (render_of_agree same).symm⟩
  · intro deep context
    obtain ⟨after, covers, -⟩ := (writes_render writable).covers
    obtain ⟨last, place, halts⟩ := overflowsOn_lexemes writable deep context _ _ covers
    exact ⟨last, _, halts, rfl⟩

/-- A map whose texts hold delimiters, with a bind marker in it. -/
def delimiterMap : Value :=
  .map [(.term (.string "it's ]"), .list [.term (.integer "-5"), .term (.marker 3)]),
    (.term (.hex "0x0F"), .emptyBraces)]

/-- Lists inside one another. -/
def listTower (levels : Nat) : Value := (fun value => .list [value])^[levels] (.term (.boolean true))

theorem writable_delimiterMap : delimiterMap.Writable := by
  have number : (Term.integer "-5").WellFormed :=
    Lexical.mem_integer.2 (.inr ⟨['5'], Lexical.mem_digits.2 ⟨by simp, List.all_eq_true.1 rfl⟩, rfl⟩)
  have constant : (Term.hex "0x0F").WellFormed :=
    Lexical.mem_hexConstant.2 ⟨'x', ['0', 'F'], rfl, .inl rfl, List.all_eq_true.1 rfl⟩
  have items : (Value.list [.term (.integer "-5"), .term (.marker 3)]).Writable := by
    refine .list ?_
    simp only [List.forall_mem_cons]
    exact ⟨.term number, .term trivial, by simp⟩
  refine .map (by simp) ?_ ?_
  · simp only [List.forall_mem_cons]
    exact ⟨.term trivial, .term constant, by simp⟩
  · simp only [List.forall_mem_cons]
    exact ⟨items, .emptyBraces, by simp⟩

theorem writable_listTower (levels : Nat) : (listTower levels).Writable := by
  induction levels with
  | zero => exact .term trivial
  | succ levels ih =>
    rw [listTower, Function.iterate_succ_apply']
    exact .list fun item mem => by rwa [List.mem_singleton.1 mem]

theorem value_of_render_delimiterMap :
    (delimiterMap.Writable ∧ delimiterMap.depth ≤ maxNesting ∧ ∃ value' after, after.stream.ahead = [] ∧
      (Grammar.value "").run (Parser.ofTokens (tokenize delimiterMap.render).tokens).start =
        ⟨.ok value', after, []⟩ ∧
      (delimiterMap == value') = true ∧ value'.render = delimiterMap.render) ∧
    ((listTower 101).Writable ∧ maxNesting < (listTower 101).depth ∧ ∃ after report,
      (Grammar.value "").run (Parser.ofTokens (tokenize (listTower 101).render).tokens).start =
          ⟨.error .recorded, after, [report]⟩ ∧
        report.problem.message = "collection nesting too deep") ∧
    ∃ value, ((Grammar.value "").run (Parser.ofTokens (tokenize "[0xa, ?]").tokens).start).result = .ok value ∧
      value.Writable := by
  have within : delimiterMap.depth ≤ maxNesting := by decide
  have deep : maxNesting < (listTower 101).depth := by decide +kernel
  refine ⟨⟨writable_delimiterMap, within,
    (value_of_render.1 delimiterMap writable_delimiterMap).2.1 within ""⟩, ⟨writable_listTower 101, deep,
    (value_of_render.1 (listTower 101) (writable_listTower 101)).2.2.1 deep ""⟩, ?_⟩
  have silent : (tokenize "[0xa, ?]").diagnostics = [] := by decide +kernel
  have comes : ((Grammar.value "").run (Parser.ofTokens (tokenize "[0xa, ?]").tokens).start).halt? = none := by
    decide +kernel
  cases found : ((Grammar.value "").run (Parser.ofTokens (tokenize "[0xa, ?]").tokens).start).result with
  | error halt => simp [Reply.halt?, found] at comes
  | ok value =>
    exact ⟨value, rfl, (value_of_render.2 _ silent _ "" value (tokens_start_tokenize _) found).1⟩

end Value

end Cql
