/-
Ranges of integer literals.

A literal has any number of digits, zeros in front among them, and perhaps a minus sign; what it stands for
is an integer without bounds.  As a term it has this value if a word of 64 bits holds it, and otherwise
none.  As the limit of a SELECT it sets this limit if a word of 32 bits holds it; otherwise it is reported
where it is written, it counts as no limit, and the statement is read on behind it.

* `Integer.ofLiteral` — what a literal stands for in decimal notation;
* `Integer.exists_token_iff` — the literals that the scanner cuts out;
* `Grammar.run_selection_of_limit` — a SELECT with a limit, whatever is in front of it and behind it;
* `Language.LimitedBy` — the tokens of a SELECT whose limit is a literal;
* `Parser.ranges_of_literal` — **both ranges are exact**.
-/
import Mathlib.Data.Nat.Digits.Defs
import Cql.Proofs.CounterChanges
import Cql.Proofs.DiagnosticSpans
import Cql.Proofs.Renumbering
import Cql.Proofs.StatementSpan
import Cql.Proofs.Stretches

namespace Cql

/-! ### The value of a literal -/

namespace Integer

/-- What a digit stands for. -/
def digit (c : Char) : Nat := c.toNat - '0'.toNat

/-- What digits stand for in decimal notation. -/
def ofDigits (cs : List Char) : Nat := Nat.ofDigits 10 (cs.reverse.map digit)

/-- What a literal stands for. -/
def ofLiteral (text : String) : Int :=
  match text.toList with
  | '-' :: cs => -(ofDigits cs : Int)
  | cs => ofDigits cs

/-- Digits are read, the first one first, as what they stand for. -/
theorem digits_eq (cs : List Char) : digits cs = ofDigits cs := by
  induction cs using List.reverseRecOn with
  | nil => rfl
  | append_singleton cs c ih =>
    have more : digits (cs ++ [c]) = 10 * digits cs + digit c := List.foldl_concat ..
    rw [more, ih, ofDigits, ofDigits, List.reverse_concat, List.map_cons, Nat.ofDigits_cons, Nat.add_comm]

variable {text : String}

/-- Every literal is read as what it stands for. -/
theorem value?_of_mem (mem : text.toList ∈ Lexical.integer) : value? text = some (ofLiteral text) := by
  rcases Lexical.mem_integer.1 mem with mem | ⟨ds, mem, split⟩
  · have unsigned : ofLiteral text = ofDigits text.toList := by
      unfold ofLiteral
      split
      · rename_i split
        rw [split] at mem
        exact absurd ((Lexical.mem_digits.1 mem).2 '-' List.mem_cons_self) (by decide)
      · rfl
    rw [value?_of_digits mem, digits_eq, unsigned]
  · rw [value?_of_negative split mem, digits_eq, ofLiteral, split]
    rfl

theorem fits_iff {value : Int} (bits : Nat) :
    Fits (bits + 1) value ↔ -2 ^ bits ≤ value ∧ value < 2 ^ bits := by
  simp [Fits, half]

/-- A word holds a literal exactly if what it stands for is in range. -/
theorem bounded?_of_mem (mem : text.toList ∈ Lexical.integer) (bits : Nat) : bounded? (bits + 1) text =
    if -2 ^ bits ≤ ofLiteral text ∧ ofLiteral text < 2 ^ bits then some (ofLiteral text) else none := by
  rw [bounded?, value?_of_mem mem, Option.filter_some]
  simp only [decide_eq_true_eq, fits_iff]

/-! ### The literals of a source -/

theorem mem_of_segment {cs after : List Char} {segment : Segment} {n : String}
    (reads : Segment.Reads cs after segment) (content : segment.content = .token (.integer n)) :
    cs ∈ Lexical.integer ∧ n = String.ofList cs := by
  cases reads with
  | blank | comment | stray => cases content
  | uuid => cases content
  | unclosed unclosed =>
    cases content
    cases unclosed
  | token spells =>
    cases content
    cases spells with
    | integer mem => exact ⟨mem, rfl⟩

/-- A literal of a source is the text of its token. -/
theorem mem_of_mem_tokenize {source : String} {token : Token} {n : String}
    (mem : token ∈ (tokenize source).tokens) (kind : token.kind = .integer n) :
    n.toList ∈ Lexical.integer ∧ token.toLexeme = ⟨.integer n, n⟩ := by
  have inBody : token ∈ bodyOf source := by
    rcases List.mem_append.1 mem with mem | last
    · exact mem
    · rw [List.mem_singleton.1 last] at kind
      cases kind
  obtain ⟨piece, inside, made⟩ := List.mem_filterMap.1 inBody
  obtain ⟨before, after, standing⟩ := at_of_mem_pieces inside
  obtain ⟨content, same⟩ := Piece.token?_eq_some.1 made
  obtain ⟨integer, text⟩ := mem_of_segment standing.reads (content.trans (congrArg _ kind))
  refine ⟨by rwa [text, String.toList_ofList], ?_⟩
  rw [same, kind, text]

/-- The scanner cuts out every literal: digits, with or without a minus sign. -/
theorem exists_token_iff {n : String} :
    (∃ source, ∃ token ∈ (tokenize source).tokens, token.kind = .integer n) ↔
      n.toList ∈ Lexical.integer := by
  constructor
  · rintro ⟨source, token, mem, kind⟩
    exact (mem_of_mem_tokenize mem kind).1
  · intro mem
    have written := (tokenize_of_writes (Grammar.writes_integer mem)).1
    obtain ⟨token, alone, same⟩ := List.map_eq_singleton_iff.1 written
    have inBody : token ∈ bodyOf n := by
      rw [alone]
      exact List.mem_singleton_self token
    exact ⟨n, token, List.mem_append_left _ inBody, congrArg Lexeme.kind same⟩

end Integer

/-! ### Limits -/

/-- To pass one token that is no bind marker is to take it. -/
theorem State.Passes.eq_advance {state after : State} {item : Numbered} (h : state.Passes [item] after)
    (other : item.kind ≠ .punctuation .questionMark) :
    state.lexeme 0 = item.lexeme ∧ after = state.advance := by
  obtain ⟨-, rfl, rfl⟩ := State.Passes.one_iff.1 h
  exact ⟨rfl, State.next_of_ne other⟩

/-- The reply, behind what was reported before. -/
def Reply.behind {α : Type} (reply : Reply α) (earlier : List Report) : Reply α :=
  { reply with reports := earlier ++ reply.reports }

/-- After a rule that has reported something, the next one runs from where it ended. -/
theorem Rule.run_bind_behind {α β : Type} {rule : Rule α} {next : α → Rule β} {state mid : State}
    {a : α} {reports : List Report} (first : rule.run state = ⟨.ok a, mid, reports⟩) :
    (rule >>= next).run state = ((next a).run mid).behind reports := by
  rw [run_bind_of_ok (congrArg Reply.result first), first]
  rfl

namespace Grammar

open Rule Phrase

/-- The numbers that can be limits. -/
abbrev IsLimit (value : Int) : Prop := -2 ^ 31 ≤ value ∧ value < 2 ^ 31

/-- The limit that a literal sets. -/
def limitOf (n : String) : Int :=
  if IsLimit (Integer.ofLiteral n) then Integer.ofLiteral n else Selection.defaultLimit

/-- What there is to report about a literal as a limit. -/
def limitReports (n : String) (position : Nat) : List Report :=
  if IsLimit (Integer.ofLiteral n) then [] else [⟨.limitOutOfRange n, .token position⟩]

/-- A SELECT up to its limit: what it comes to without one. -/
def selectionBeforeLimit : Rule Selection := do
  let projection ← projection
  keyword .FROM "after selection"
  let table ← tableName
  let relations ← if ← eat .WHERE then relations else pure []
  let orderings ← orderClause
  return ⟨table, projection, relations, orderings, Selection.defaultLimit, false⟩

/-- A SELECT from its limit on. -/
def selectionFromLimit (selection : Selection) : Rule Selection := do
  let limit ← limitClause
  (fun allowFiltering => { selection with limit, allowFiltering }) <$> filteringClause

theorem run_selection : selection.run = (selectionBeforeLimit >>= selectionFromLimit).run := by
  refine .trans (run_bind_congr fun projection => ?_) (run_bind_assoc _ _ _).symm
  refine .trans (run_bind_congr fun _ => ?_) (run_bind_assoc _ _ _).symm
  refine .trans (run_bind_congr fun table => ?_) (run_bind_assoc _ _ _).symm
  refine .trans (run_bind_congr fun eaten => ?_) (run_bind_assoc _ _ _).symm
  cases eaten
  all_goals
    refine .trans (run_bind_congr fun relations => ?_) (run_bind_assoc _ _ _).symm
    dsimp only
    rw [run_bind_assoc]
    exact run_bind_congr fun _ => rfl

variable {state mid after : State} {limit literal : Numbered} {n : String}

/-- At a limit, a literal is taken whatever it stands for. -/
theorem run_limitClause (passes : state.Passes [limit, literal] after)
    (isLimit : limit.kind = .keyword .LIMIT) (isLiteral : literal.lexeme = ⟨.integer n, n⟩)
    (mem : n.toList ∈ Lexical.integer) :
    limitClause.run state = ⟨.ok (limitOf n), after, limitReports n (state.stream.position + 1)⟩ := by
  have parts : state.Passes ([limit] ++ [literal]) after := passes
  obtain ⟨_, first, second⟩ := parts.split
  have position := first.position_eq
  obtain ⟨atLimit, rfl⟩ := first.eq_advance (by rw [isLimit]; decide)
  obtain ⟨atLiteral, rfl⟩ := second.eq_advance (by rw [Numbered.kind, isLiteral]; simp)
  rw [isLiteral] at atLiteral
  have eaten : (eat .LIMIT).Reads state true state.advance :=
    reads_eatKind.2 (.inl ⟨(congrArg Lexeme.kind atLimit).trans isLimit, rfl, rfl⟩)
  have place : here.Reads state.advance (.token state.advance.stream.position) state.advance := rfl
  have text : (integerText "after LIMIT").Reads state.advance n state.advance.advance :=
    reads_accept.2 ⟨by rw [atLiteral], rfl⟩
  have bounded : Integer.bounded? 32 n = _ := Integer.bounded?_of_mem mem 31
  rw [limitClause, eaten.run_bind, if_pos rfl, place.run_bind, text.run_bind, bounded, position, limitOf,
    limitReports]
  by_cases fits : IsLimit (Integer.ofLiteral n)
  · rw [if_pos fits, if_pos fits, if_pos fits]
    rfl
  · rw [if_neg fits, if_neg fits, if_neg fits]
    rfl

/-- A SELECT with a limit, whatever is wrong in front of it or behind it: at the literal there is a report
exactly if it is out of range, and what is behind it is read as ever. -/
theorem run_selection_of_limit {found : Selection} {reports : List Report}
    (before : selectionBeforeLimit.run state = ⟨.ok found, mid, reports⟩)
    (passes : mid.Passes [limit, literal] after) (isLimit : limit.kind = .keyword .LIMIT)
    (isLiteral : literal.lexeme = ⟨.integer n, n⟩) (mem : n.toList ∈ Lexical.integer) :
    selection.run state = (((fun allowFiltering => { found with limit := limitOf n, allowFiltering }) <$>
      filteringClause).run after).behind (reports ++ limitReports n (mid.stream.position + 1)) := by
  have clause := run_limitClause passes isLimit isLiteral mem
  rw [run_selection, run_bind_behind before, selectionFromLimit, run_bind_behind clause, Reply.behind,
    Reply.behind, Reply.behind, List.append_assoc]

end Grammar

/-! ### Texts with a limit -/

namespace Language

open Phrase

/-- A SELECT up to its limit. -/
def selectionBeforeLimit : Phrase Selection := do
  let projection ← projection
  word .FROM
  let table ← tableName
  let relations ← whereClause
  let orderings ← orderClause
  return ⟨table, projection, relations, orderings, Selection.defaultLimit, false⟩

/-- What may be in front of a limit: semicolons, and a SELECT up to it. -/
def beforeLimit : Phrase Selection := do
  let _ ← many (mark .semicolon)
  word .SELECT
  selectionBeforeLimit

/-- What may be behind a limit: the rest of the SELECT, and semicolons. -/
def afterLimit : Phrase Bool := do
  let allowFiltering ← filteringClause
  let _ ← many (mark .semicolon)
  return allowFiltering

/-- The tokens are those of a SELECT that has the literal as its limit; without the limit it would be this
selection. -/
inductive LimitedBy (literal : Token) : List Token → Selection → Prop
  | intro {front rest : List Token} {limit : Token} {selection : Selection} {allowFiltering : Bool}
      {ordinal : Nat} (before : beforeLimit (number 0 (front.map (·.toLexeme))) selection)
      (isLimit : limit.kind = .keyword .LIMIT)
      (behind : afterLimit (number ordinal (rest.map (·.toLexeme))) allowFiltering) :
      LimitedBy literal (front ++ limit :: literal :: rest) { selection with allowFiltering }

/-- There are no bind markers behind a limit. -/
theorem numberless_afterLimit : afterLimit.Numberless := by
  have filtering : filteringClause.Numberless :=
    .orElse (.andThen .word fun _ => .andThen .word fun _ => .pure rfl) (.pure rfl)
  exact .andThen filtering fun _ => .skip (.many .mark) fun _ _ => .pure rfl

end Language

namespace Grammar

open Rule Phrase

theorem recognizes_selectionBeforeLimit :
    selectionBeforeLimit.Recognizes Language.selectionBeforeLimit (endsOrder · = true) := by
  have table : tableName.Recognizes Language.tableName (endsTable · = true) :=
    recognizes_tableName.narrow fun _ follows => ne_of_test follows rfl
  refine recognizes_projection.bind (fun projection => ?_) fun _ => .andThen (.ofKind rfl)
  refine (Recognizes.keyword _ _).andThen fun _ => table.bind (fun table => ?_) fun _ => ?_
  · refine .ifEat_bind recognizes_whereClause (fun relations => ?_) fun _ => ?_
    · exact recognizes_orderClause.bind (fun _ => .pure _) fun _ => .pure _ fun _ => id
    · exact opens_orderClause.bind fun _ => .pure _ fun _ => id
  · exact opens_whereClause.bind fun _ => opens_orderClause.bind fun _ => .pure _ fun _ => id

variable {state mid behind after : State} {limit literal : Numbered} {n : String} {found : Selection}
  {allowFiltering : Bool}

/-- What a statement reports is all that there is to report if only semicolons are around it. -/
theorem exists_run_query_of_run {start last : State} {found : Statement} {reports : List Report}
    (first : semicolons.Reads state () start) (inner : statement.run start = ⟨.ok found, last, reports⟩)
    (second : semicolons.Reads last () after) (atEnd : after.kind = .endOfInput) :
    ∃ place, query.run state = ⟨.ok (found, place), after, reports⟩ := by
  have begins : position.Reads start start.stream.position start := rfl
  rw [query, first.run_bind, begins.run_bind]
  refine ⟨.stretch start.stream.position (last.stream.position - 1), ?_⟩
  refine run_bind_of_reads inner (reads_since_bind.2 (reads_bind.2 ⟨(), after, second, ?_⟩))
  rw [reads_kind_bind, if_neg (by simp [atEnd])]
  exact reads_pure.2 ⟨rfl, rfl⟩

section

variable (isLimit : limit.kind = .keyword .LIMIT) (isLiteral : literal.lexeme = ⟨.integer n, n⟩)
  (mem : n.toList ∈ Lexical.integer)

include isLimit isLiteral mem

theorem run_statement_of_limit (isSelect : state.kind = .keyword .SELECT)
    (before : selectionBeforeLimit.Reads state.advance found mid) (passes : mid.Passes [limit, literal] behind)
    (filtering : filteringClause.Reads behind allowFiltering after) : statement.run state =
      ⟨.ok (.select { found with limit := limitOf n, allowFiltering }), after,
        limitReports n (mid.stream.position + 1)⟩ := by
  have rest : Reads ((fun allowFiltering => { found with limit := limitOf n, allowFiltering }) <$> filteringClause)
      behind { found with limit := limitOf n, allowFiltering } after := reads_map.2 ⟨_, filtering, rfl⟩
  have clauses := run_selection_of_limit before passes isLimit isLiteral mem
  rw [rest, Reply.behind, List.nil_append, List.append_nil] at clauses
  have looked : kind.Reads state state.kind state := rfl
  have taken : advance.Reads state () state.advance := rfl
  rw [statement, looked.run_bind, isSelect]
  exact taken.run_bind.trans (run_bind_of_reads clauses (reads_pure.2 ⟨rfl, rfl⟩))

/-- A query with a limit whose other parts are those of the grammar. -/
theorem run_query_of_limit {front rest : List Numbered}
    (passes : state.Passes (front ++ limit :: literal :: rest) after) (atEnd : after.kind = .endOfInput)
    (before : Language.beforeLimit front found) (rear : Language.afterLimit rest allowFiltering) :
    ∃ place, query.run state =
      ⟨.ok (.select { found with limit := limitOf n, allowFiltering }, place), after,
        limitReports n (state.stream.position + front.length + 1)⟩ := by
  obtain ⟨padding, units, items, rfl, pads, select⟩ := before
  obtain ⟨clause, _, others, rfl, filtering, padding', units', _, rfl, pads', rfl, rfl⟩ := rear
  rw [List.append_nil] at passes
  obtain ⟨mid, passes₁, passes'⟩ := passes.split
  obtain ⟨start, passes₁, passes₂⟩ := passes₁.split
  have parts : mid.Passes ([limit, literal] ++ (clause ++ padding')) after := passes'
  obtain ⟨behind, passes₃, passes₄⟩ := parts.split
  obtain ⟨last, passes₄, passes₅⟩ := passes₄.split
  -- Each part ends where the next one begins, and none can go on into it.
  obtain ⟨isSelect, before⟩ := recognizes_selectionBeforeLimit.reads_after passes₂ select (by
    rw [passes₃.kind_eq, opening, isLimit]
    rfl)
  have first : semicolons.Reads state () start :=
    recognizes_semicolons.complete _ _ _ _ passes₁ (many_semicolons_iff.2 ⟨units, pads⟩) (by
      rw [isSelect]
      decide)
  have filtering : filteringClause.Reads behind allowFiltering last :=
    recognizes_filteringClause.complete _ _ _ _ passes₄ filtering (by
      rw [passes₅.kind_eq]
      exact opens_semicolons _ _ _ pads' atEnd)
  have second : semicolons.Reads last () after :=
    recognizes_semicolons.complete _ _ _ _ passes₅ (many_semicolons_iff.2 ⟨units', pads'⟩) (by
      rw [atEnd]
      decide)
  have length : mid.stream.position = state.stream.position + (padding ++ items).length := by
    rw [passes₂.position_eq, passes₁.position_eq, List.length_append, Nat.add_assoc]
  rw [← length]
  exact exists_run_query_of_run first
    (run_statement_of_limit isLimit isLiteral mem isSelect before passes₃ filtering) second atEnd

end

end Grammar

namespace Parser

open Phrase

variable {source : String} {literal : Token} {n : String} {found : Selection}

theorem mem_tokenize_of_limitedBy (limited : Language.LimitedBy literal (bodyOf source) found) :
    literal ∈ (tokenize source).tokens := by
  refine List.mem_append_left _ (?_ : literal ∈ bodyOf source)
  generalize bodyOf source = tokens at limited ⊢
  cases limited
  simp

/-- A source with a limit is read as the grammar has it, except that the limit may be reported. -/
theorem exists_reply_of_limit (isLiteral : literal.kind = .integer n)
    (limited : Language.LimitedBy literal (bodyOf source) found) : ∃ place after position,
      (ofTokens (tokenize source).tokens).reply =
        ⟨.ok (.select { found with limit := Grammar.limitOf n }, place), after,
          Grammar.limitReports n position⟩ ∧ (bodyOf source)[position]? = some literal := by
  have inside := mem_tokenize_of_limitedBy limited
  generalize body : bodyOf source = tokens at limited
  cases limited with
  | @intro front rest limit _ _ ordinal before isLimit behind =>
    obtain ⟨mem, lexeme⟩ := Integer.mem_of_mem_tokenize inside isLiteral
    obtain ⟨after, atEnd, passes⟩ := State.passes_sentence (tokenize source).tokens
    obtain ⟨next, split⟩ := number_append 0 (front.map (·.toLexeme))
      (limit.toLexeme :: literal.toLexeme :: rest.map (·.toLexeme))
    rw [sentence_tokenize, body, List.map_append, List.map_cons, List.map_cons, split] at passes
    obtain ⟨_, rear, rfl⟩ := Language.numberless_afterLimit _ _ _ (sameLexeme_number ordinal _ _) behind
    have atLimit : Numbered.kind ⟨limit.toLexeme, next⟩ = .keyword .LIMIT := isLimit
    obtain ⟨place, run⟩ := Grammar.run_query_of_limit atLimit lexeme mem passes atEnd before rear
    refine ⟨place, after, _, run, ?_⟩
    simp [position_start]

/-- **Ranges of integers are exact.**  Let a token of a source be an integer literal.  As a term it has its
value in 64 bits exactly if the value is from `-2 ^ 63` up to but not including `2 ^ 63`.  As the limit of a
SELECT it sets this limit, and is not reported, exactly if the value is from `-2 ^ 31` up to but not including
`2 ^ 31`; otherwise the limit is what it is without one, and there is one report, at the literal.  Whatever
is wrong in front of the limit or behind it, the SELECT is read on right behind the literal; and if all its
other parts are those of the grammar, the whole of it is found, and all other diagnostics are those of the
scanner. -/
theorem ranges_of_literal {value : Int} (inside : literal ∈ (tokenize source).tokens)
    (isLiteral : literal.kind = .integer n) (stands : Integer.ofLiteral n = value) :
    (Term.integer n).int64? = (if -2 ^ 63 ≤ value ∧ value < 2 ^ 63 then some value else none) ∧
    (∀ (state mid after : State) (found : Selection) (reports : List Report) (limit : Numbered)
      (ordinal : Nat), Grammar.selectionBeforeLimit.run state = ⟨.ok found, mid, reports⟩ →
      mid.Passes [limit, ⟨literal.toLexeme, ordinal⟩] after → limit.kind = .keyword .LIMIT →
        Grammar.selection.run state = (((fun allowFiltering => { found with
            limit := if -2 ^ 31 ≤ value ∧ value < 2 ^ 31 then value else Selection.defaultLimit
            allowFiltering }) <$> Grammar.filteringClause).run after).behind
          (reports ++ if -2 ^ 31 ≤ value ∧ value < 2 ^ 31 then [] else
            [⟨.limitOutOfRange n, .token (mid.stream.position + 1)⟩])) ∧
    (∀ found, Language.LimitedBy literal (bodyOf source) found →
      ∃ parsed, (parseOutcome source).statement = some parsed ∧
        parsed.statement = .select { found with
          limit := if -2 ^ 31 ≤ value ∧ value < 2 ^ 31 then value else Selection.defaultLimit } ∧
        (parseOutcome source).diagnostics = (tokenize source).diagnostics ++
          if -2 ^ 31 ≤ value ∧ value < 2 ^ 31 then [] else
            [⟨.error, "Invalid LIMIT value: " ++ n, [⟨.primary, literal.span, ""⟩], none, some "P001"⟩]) := by
  subst stands
  obtain ⟨mem, lexeme⟩ := Integer.mem_of_mem_tokenize inside isLiteral
  refine ⟨Integer.bounded?_of_mem mem 63, fun _ _ _ _ _ _ _ before passes isLimit =>
    Grammar.run_selection_of_limit before passes isLimit lexeme mem, fun found limited => ?_⟩
  obtain ⟨place, after, position, reply, stands⟩ := exists_reply_of_limit isLiteral limited
  refine ⟨⟨_, after.markers.count, place.span (.ofTokens (tokenize source).tokens)⟩, ?_, rfl, ?_⟩
  · show statement? _ (ofTokens (tokenize source).tokens).reply = _
    rw [reply]
    rfl
  · rw [diagnostics_parseOutcome, reply]
    refine congrArg (_ ++ ·) ?_
    unfold Grammar.limitReports
    split
    · rfl
    · rw [← TokenStream.spanAt_of_getElem? stands]
      rfl

/-- `SELECT * FROM t` at the front of a source. -/
def selectEverything : List Token :=
  [⟨⟨.keyword .SELECT, "SELECT"⟩, ⟨0, 6⟩⟩, ⟨⟨.punctuation .star, "*"⟩, ⟨7, 8⟩⟩,
    ⟨⟨.keyword .FROM, "FROM"⟩, ⟨9, 13⟩⟩, ⟨⟨.identifier "t", "t"⟩, ⟨14, 15⟩⟩]

/-- `LIMIT` behind it. -/
def limitBehind : Token := ⟨⟨.keyword .LIMIT, "LIMIT"⟩, ⟨16, 21⟩⟩

/-- `-02147483648` behind that. -/
def leastLimit : Token := ⟨⟨.integer "-02147483648", "-02147483648"⟩, ⟨22, 34⟩⟩

/-- `2147483648` in its place. -/
def oversizedLimit : Token := ⟨⟨.integer "2147483648", "2147483648"⟩, ⟨22, 32⟩⟩

/-- `ALLOW FILTERING` behind this. -/
def filteringBehind : List Token :=
  [⟨⟨.keyword .ALLOW, "ALLOW"⟩, ⟨33, 38⟩⟩, ⟨⟨.keyword .FILTERING, "FILTERING"⟩, ⟨39, 48⟩⟩]

/-- The least limit, with a zero in front, and the least number that is too large for one. -/
theorem ranges_of_literal_bounds :
    (∃ parsed, (parseOutcome "SELECT * FROM t LIMIT -02147483648").statement = some parsed ∧
      parsed.statement = .select ⟨⟨none, .unquoted "t"⟩, .everything, [], .empty, -2147483648, false⟩ ∧
      (parseOutcome "SELECT * FROM t LIMIT -02147483648").diagnostics = []) ∧
    (Term.integer "2147483648").int64? = some 2147483648 ∧
    (∃ parsed, (parseOutcome "SELECT * FROM t LIMIT 2147483648 ALLOW FILTERING").statement = some parsed ∧
      parsed.statement = .select ⟨⟨none, .unquoted "t"⟩, .everything, [], .empty, 10000, true⟩ ∧
      (parseOutcome "SELECT * FROM t LIMIT 2147483648 ALLOW FILTERING").diagnostics =
        [⟨.error, "Invalid LIMIT value: 2147483648", [⟨.primary, ⟨22, 32⟩, ""⟩], none, some "P001"⟩]) := by
  have before : Language.beforeLimit (number 0 (selectEverything.map (·.toLexeme)))
      ⟨⟨none, .unquoted "t"⟩, .everything, [], .empty, Selection.defaultLimit, false⟩ := by
    have table : Language.tableName [⟨⟨.identifier "t", "t"⟩, 0⟩] ⟨none, .unquoted "t"⟩ :=
      .inr ⟨_, _, [], rfl, ⟨_, rfl, rfl⟩, rfl, rfl⟩
    refine ⟨[], [], _, rfl, .none, ofKind_bind_iff.2 ⟨_, _, rfl, rfl, ?_⟩⟩
    refine ⟨[_], .everything, _, rfl, .inr (.inl (ofKind_bind_iff.2 ⟨_, [], rfl, rfl, rfl, rfl⟩)), ?_⟩
    refine ofKind_bind_iff.2 ⟨_, _, rfl, rfl, [_], _, [], rfl, table, ?_⟩
    exact ⟨[], [], [], rfl, .inr ⟨rfl, rfl⟩, [], _, [], rfl, .inr ⟨rfl, rfl⟩, rfl, rfl⟩
  have filtering : Language.afterLimit (number 0 (filteringBehind.map (·.toLexeme))) true :=
    ⟨[_, _], true, [], rfl, .inl (ofKind_bind_iff.2 ⟨_, _, rfl, rfl, ofKind_bind_iff.2
      ⟨_, _, rfl, rfl, rfl, rfl⟩⟩), [], [], [], rfl, .none, rfl, rfl⟩
  have nothing : Language.afterLimit (number 0 (([] : List Token).map (·.toLexeme))) false :=
    ⟨[], false, [], rfl, .inr ⟨rfl, rfl⟩, [], [], [], rfl, .none, rfl, rfl⟩
  have least : bodyOf "SELECT * FROM t LIMIT -02147483648" =
      selectEverything ++ limitBehind :: leastLimit :: [] := by
    rw [bodyOf, String.toList_ofList]
    decide +kernel
  have oversized : bodyOf "SELECT * FROM t LIMIT 2147483648 ALLOW FILTERING" =
      selectEverything ++ limitBehind :: oversizedLimit :: filteringBehind := by
    rw [bodyOf, String.toList_ofList]
    decide +kernel
  have isLimit : limitBehind.kind = .keyword .LIMIT := rfl
  constructor
  · have limited : Language.LimitedBy leastLimit _ _ := .intro before isLimit nothing
    rw [← least] at limited
    have stands : Integer.ofLiteral "-02147483648" = -2147483648 := by decide +kernel
    obtain ⟨-, -, select⟩ := ranges_of_literal (mem_tokenize_of_limitedBy limited) rfl stands
    obtain ⟨parsed, found, same, diagnostics⟩ := select _ limited
    refine ⟨parsed, found, same, diagnostics.trans ?_⟩
    rw [tokenize, String.toList_ofList]
    decide +kernel
  · have limited : Language.LimitedBy oversizedLimit _ _ := .intro before isLimit filtering
    rw [← oversized] at limited
    have stands : Integer.ofLiteral "2147483648" = 2147483648 := by decide +kernel
    obtain ⟨wide, -, select⟩ := ranges_of_literal (mem_tokenize_of_limitedBy limited) rfl stands
    obtain ⟨parsed, found, same, diagnostics⟩ := select _ limited
    refine ⟨wide, parsed, found, same, diagnostics.trans ?_⟩
    rw [tokenize, String.toList_ofList]
    decide +kernel

end Parser

end Cql
