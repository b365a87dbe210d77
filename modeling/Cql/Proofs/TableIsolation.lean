/-
Broken columns of a table leave their neighbours alone.

What stands in the parentheses of CREATE TABLE is cut at its commas into columns and keys.  Each is either
taken whole or broken, and what is left of a broken one is skipped; a key keeps what could be read of it,
but nothing broken defines a column.  So the table has the columns of the others, in their order, whatever
comes behind the parentheses.

* `TableElement.column?`, `TableDefinition.columns_ofElements` — the columns of a table;
* `Rule.Makes.exists_run_restoring` — what is salvaged of a stretch;
* `Grammar.exists_run_tableElements` — the columns of what stands in the parentheses;
* `Grammar.exists_run_tableOptions` — what comes behind them never ends the statement;
* `TableTokens.outcome_keeps_columns` — **the outcome**;
* `TableTokens.not_outcome_keeps_columns` — an item that runs on takes its neighbour with it.
-/
import Cql.Proofs.BatchIsolation
import Cql.Proofs.BestEffort
import Cql.Proofs.Commands
import Cql.Proofs.MildRules
import Cql.Proofs.Stretches

namespace Cql

/-! ### The columns of a table -/

/-- The column that an element defines. -/
def TableElement.column? : TableElement → Option (Identifier × DataType)
  | column name type => some (name, type)
  | _ => none

namespace TableDefinition

theorem columns_add (definition : TableDefinition) (element : TableElement) :
    (definition.add element).columns = definition.columns ++ element.column?.toList := by
  cases element <;> simp [add, TableElement.column?]

theorem table_ofElements (table : TableName) (elements : List TableElement) :
    (ofElements table elements).table = table := by
  have kept (definition : TableDefinition) : (elements.foldl add definition).table = definition.table := by
    induction elements generalizing definition with
    | nil => rfl
    | cons element elements ih =>
      rw [List.foldl_cons, ih]
      cases element <;> rfl
  exact kept (bare table)

theorem columns_ofElements (table : TableName) (elements : List TableElement) :
    (ofElements table elements).columns = elements.filterMap TableElement.column? := by
  have all (definition : TableDefinition) : (elements.foldl add definition).columns =
      definition.columns ++ elements.filterMap TableElement.column? := by
    induction elements generalizing definition with
    | nil => simp
    | cons element elements ih =>
      rw [List.foldl_cons, ih, columns_add, List.append_assoc]
      cases column : element.column? <;> simp [column]
  exact all (bare table)

end TableDefinition

/-- What was read, if it is all that was to be read. -/
def Salvage.whole? {α : Type} (salvage : Salvage α) : Option (List α) :=
  if salvage.complete then some salvage.kept else none

namespace Rule

variable {α : Type} {state after : State}

/-! ### Rules that salvage -/

/-- A rule that salvages comes over a stretch to its end.  What it keeps is the result of the stretch, or
what may be left of a broken one. -/
theorem Makes.exists_run_restoring {item : Rule (Salvage α)} {inside stops : TokenKind → Bool}
    {stretch : Stretch (List α)} (Left : List α → Prop)
    (makes : item.Makes Salvage.whole? inside state stretch after) (confined : item.ConfinedTo state after)
    (skipped : ∀ token : Token, inside token.kind = true → skips stops token = true)
    (stop : stops after.kind = true ∨ after.kind = .endOfInput)
    (salvages : item.Yields fun salvage => salvage.complete = false → Left salvage.kept) (nothing : Left []) :
    ∃ kept, (restoring stops item).run state = ⟨.ok kept, after, stretch.reports⟩ ∧
      (stretch.result? = some kept ∨ stretch.result? = none ∧ Left kept) := by
  unfold restoring
  cases makes with
  | @whole _ salvage kept _ _ run good ahead =>
    have whole : salvage.complete = true ∧ salvage.kept = kept := by simpa [Salvage.whole?] using good
    have tried := run_attempt_of_ok (congrArg Reply.result run)
    rw [run] at tried
    refine ⟨kept, run_bind_of_reads tried ?_, .inl rfl⟩
    simp [whole, reads_pure]
  | broken fails takes ahead markers all =>
    have skip (kept : List α) := confined.reads_skipUntil takes ahead markers all skipped stop kept
    rcases fails with halts | ⟨salvage, found, bad⟩
    · exact ⟨[], run_bind_of_reads (run_attempt_of_recorded halts) (skip []), .inr ⟨rfl, nothing⟩⟩
    · have incomplete : salvage.complete = false := by simpa [Salvage.whole?] using bad
      refine ⟨salvage.kept, run_bind_of_reads (run_attempt_of_ok found) ?_,
        .inr ⟨rfl, salvages _ _ found incomplete⟩⟩
      simp only [incomplete]
      exact skip salvage.kept

/-! ### Rules that always come to a value -/

theorem succeedsAt_skipUntil (stops : TokenKind → Bool) (state : State) :
    (skipUntil stops).SucceedsAt state := by
  obtain ⟨after, reads, -⟩ := exists_reads_skipUntil_dropWhile stops state
  exact ⟨(), (reads_iff.1 reads).1⟩

theorem succeedsAt_attempt {item : Rule α} (mild : item.Mild) (state : State) :
    (attempt item).SucceedsAt state := by
  cases result : (item.run state).result with
  | ok a => exact ⟨some a, by rw [run_attempt_of_ok result]⟩
  | error halt =>
    cases halt with
    | recorded => exact ⟨none, by rw [run_attempt_of_recorded result]⟩
    | fatal => exact absurd result (mild.run state).goesOn

/-- A rule that salvages comes to a value, if nothing in it ends the parse. -/
theorem succeedsAt_restoring {item : Rule (Salvage α)} (mild : item.Mild) (stops : TokenKind → Bool)
    (state : State) : (restoring stops item).SucceedsAt state := by
  obtain ⟨salvage?, tried⟩ := succeedsAt_attempt mild state
  refine succeedsAt_bind.2 ⟨salvage?, tried, ?_⟩
  obtain ⟨_, skipped⟩ := succeedsAt_skipUntil stops ((attempt item).run state).state
  cases salvage? with
  | none => exact succeedsAt_bind.2 ⟨_, skipped, succeedsAt_pure _⟩
  | some salvage =>
    cases complete : salvage.complete with
    | true => simpa [complete] using succeedsAt_pure salvage.kept
    | false => simpa [complete] using succeedsAt_bind.2 ⟨_, skipped, succeedsAt_pure salvage.kept⟩

theorem succeedsAt_many {opens : TokenKind → Bool} {item : Lexeme → Rule α}
    (items : ∀ lexeme state, (item lexeme).SucceedsAt state) (state : State) :
    (many opens (fun _ => true) item).SucceedsAt state := by
  refine many_induction (motive := fun _ reply => ∃ as, reply.result = .ok as)
    (fun _ _ => ⟨[], rfl⟩) ?_ ?_ ?_ state
  · intro state token rest halt _ _ halts
    obtain ⟨a, found⟩ := items token.toLexeme state.advance
    cases halts.symm.trans found
  · exact fun _ _ _ _ => ⟨[_], rfl⟩
  · rintro state token rest a others _ _ _ _ ⟨as, result⟩
    exact ⟨a :: as, by rw [result]; rfl⟩

theorem succeedsAt_separated {separator : TokenKind} {item : Rule α}
    (items : ∀ state, item.SucceedsAt state) (state : State) :
    (separated separator item).SucceedsAt state := by
  obtain ⟨a, found⟩ := items state
  have list : (following separator item).SucceedsAt (item.run state).state :=
    succeedsAt_many (fun _ => items) _
  obtain ⟨as, others⟩ := list
  exact succeedsAt_bind.2 ⟨a, found, succeedsAt_bind.2 ⟨as, others, succeedsAt_pure _⟩⟩

end Rule

/-- The beginning of CREATE TABLE up to the name of the table, `';'* CREATE (TABLE | COLUMNFAMILY) table`. -/
def Language.tableHeader : Phrase TableName := do
  let _ ← Phrase.many (Phrase.mark .semicolon)
  Phrase.word .CREATE
  tableWord
  tableName

namespace Grammar

open Rule Rule.Yields

variable {state after : State} {stretch : Stretch (List TableElement)}

/-! ### Columns and keys -/

/-- A token inside a broken column or key. -/
def isInElement (kind : TokenKind) : Bool := !endsTableElement kind && kind ≠ .endOfInput

/-- What is made of the tokens of a column or a key, of which there is one at least.  If it is broken, the
rule has to halt in front of the comma or the parenthesis behind it. -/
def MakesElement (state : State) (stretch : Stretch (List TableElement)) (after : State) : Prop :=
  stretch.tokens ≠ [] ∧ keyOrColumn.Makes Salvage.whole? isInElement state stretch after ∧
    (stretch.result? = none → keyOrColumn.ConfinedTo state after)

/-- The columns that a stretch defines, if it is not broken. -/
def columnsOf (stretch : Stretch (List TableElement)) : List (Identifier × DataType) :=
  (stretch.result?.getD []).filterMap TableElement.column?

/-- What is left of a broken key defines no column, and of a broken column nothing is left. -/
theorem yields_keyOrColumn : keyOrColumn.Yields fun salvage =>
    salvage.complete = false → salvage.kept.filterMap TableElement.column? = [] := by
  refine after fun _ => ite ?_ ?_
  · exact after fun _ => after fun _ => after fun component => after fun columns => pure fun _ => by
      simp [TableElement.column?]
  · exact after fun column => after fun type => after fun _ =>
      ite (after fun _ => pure (by simp)) (pure (by simp))

namespace MakesElement

variable (makes : MakesElement state stretch after)
include makes

theorem exists_run (stop : after.kind = .punctuation .comma ∨ after.kind = .punctuation .rightParen) :
    ∃ kept, tableElement.run state = ⟨.ok kept, after, stretch.reports⟩ ∧
      columnsOf stretch = kept.filterMap TableElement.column? := by
  obtain ⟨-, makes, confined⟩ := makes
  have confined' : keyOrColumn.ConfinedTo state after := by
    by_cases broken : stretch.result? = none
    · exact confined broken
    · exact makes.confinedTo broken
  have ends : endsTableElement after.kind = true := by
    rcases stop with comma | paren
    · rw [comma]
      rfl
    · rw [paren]
      rfl
  obtain ⟨kept, run, result | ⟨broken, left⟩⟩ := makes.exists_run_restoring
    (List.filterMap TableElement.column? · = []) confined' (fun token inside => inside) (.inl ends)
    yields_keyOrColumn rfl
  · exact ⟨kept, run, by rw [columnsOf, result, Option.getD_some]⟩
  · exact ⟨kept, run, by rw [columnsOf, broken, left]; rfl⟩

/-- A column or a key does not begin with a closing parenthesis. -/
theorem kind_ne : state.kind ≠ .punctuation .rightParen := by
  obtain ⟨some, makes, -⟩ := makes
  intro closes
  cases makes with
  | @whole _ salvage _ _ _ run =>
    have other : (eat .PRIMARY).Reads state false state :=
      reads_eatKind.2 (.inr ⟨by rw [closes]; decide, rfl, rfl⟩)
    have found : (columnDefinition.run state).result = .ok salvage := by
      rw [keyOrColumn, other.run_bind] at run
      exact congrArg Reply.result run
    obtain ⟨name, named, -⟩ := bind_eq_ok found
    have nameLike : state.kind.isNameLike = true := isNameLike_of_ofLexeme? (accept_eq_ok named).1
    rw [closes] at nameLike
    cases nameLike
  | broken _ _ ahead _ all =>
    obtain ⟨token, tokens, rfl⟩ := List.exists_cons_of_ne_nil some
    have inside := all token List.mem_cons_self
    rw [← State.kind_of_ahead ahead, closes] at inside
    cases inside

end MakesElement

theorem columns_flatten {stretches : List (Stretch (List TableElement))} {lists : List (List TableElement)}
    (h : List.Forall₂ (fun stretch kept => columnsOf stretch = kept.filterMap TableElement.column?)
      stretches lists) : lists.flatten.filterMap TableElement.column? = stretches.flatMap columnsOf := by
  induction h with
  | nil => rfl
  | cons same _ ih => rw [List.flatten_cons, List.filterMap_append, List.flatMap_cons, ih, same]

/-- What stands in the parentheses has the columns of its stretches. -/
theorem exists_run_tableElements {stretches : List (Stretch (List TableElement))}
    (h : Joined MakesElement (.punctuation .comma) (· = .punctuation .rightParen) state stretches after) :
    ∃ elements, tableElements.run state = ⟨.ok elements, after, stretches.flatMap (·.reports)⟩ ∧
      elements.filterMap TableElement.column? = stretches.flatMap columnsOf := by
  have next : ∀ state stretch after, MakesElement state stretch after →
      after.kind = .punctuation .comma ∨ after.kind = .punctuation .rightParen →
        ∃ kept, (itemUnless (.punctuation .rightParen) [] tableElement).run state =
          ⟨.ok kept, after, stretch.reports⟩ ∧ columnsOf stretch = kept.filterMap TableElement.column? := by
    intro state stretch after makes stop
    obtain ⟨kept, run, columns⟩ := makes.exists_run stop
    refine ⟨kept, ?_, columns⟩
    have current : Rule.kind.Reads state state.kind state := rfl
    rw [itemUnless, current.run_bind, if_neg makes.kind_ne, run]
  obtain ⟨first, rest, mid, reports, reports', run, run', reported, columns⟩ :=
    h.exists_run_list (by decide) (by rintro _ rfl; decide) next
      fun state stretch after makes stop => makes.exists_run stop
  refine ⟨(first :: rest).flatten, ?_, columns_flatten columns⟩
  rw [← reported]
  exact run_bind_of_run run (run_bind_of_reads run' (reads_pure.2 ⟨rfl, rfl⟩))

/-! ### The statement -/

/-- What follows the parentheses never ends the statement, and defines no column. -/
theorem exists_run_tableOptions (state : State) : ∃ options after reports,
    tableOptions.run state = ⟨.ok options, after, reports⟩ ∧
      options.filterMap TableElement.column? = [] := by
  have list (state : State) : (separated (.keyword .AND) tableOptionOrSkip).SucceedsAt state :=
    succeedsAt_separated (succeedsAt_restoring mild_tableOption _) state
  have succeeds : tableOptions.SucceedsAt state := by
    obtain ⟨eaten, mid, reads⟩ : ∃ eaten mid, (eat .WITH).Reads state eaten mid := by
      by_cases current : state.kind = .keyword .WITH
      · exact ⟨true, _, reads_eatKind.2 (.inl ⟨current, rfl, rfl⟩)⟩
      · exact ⟨false, _, reads_eatKind.2 (.inr ⟨current, rfl, rfl⟩)⟩
    refine (succeedsAt_bind_of_reads reads).2 ?_
    cases eaten with
    | true =>
      obtain ⟨lists, found⟩ := list mid
      exact succeedsAt_bind.2 ⟨lists, found, succeedsAt_pure _⟩
    | false => exact succeedsAt_pure _
  obtain ⟨options, found⟩ := succeeds
  have noColumn : tableOptions.Yields fun options => ∀ option ∈ options, option.column? = none :=
    yields_tableOptions (fun _ _ => rfl) rfl fun _ _ => rfl
  exact ⟨options, _, _, by rw [← found], List.filterMap_eq_nil_iff.2 (noColumn state options found)⟩

/-- The part of the rules in front of the parentheses. -/
def tableHeader : Rule TableName := do
  semicolons
  keyword .CREATE ""
  if ← eatTable then tableName else expected "TABLE" "after CREATE"

theorem run_create {mid : State} (word : eatTable.Reads state true mid) :
    create.run state = (Statement.createTable <$> tableDefinition).run mid := by
  have notKeyspace : state.kind ≠ .keyword .KEYSPACE := by
    intro isKeyspace
    have other : eatTable.Reads state false state :=
      reads_bind.2 ⟨false, state, reads_eatKind.2 (.inr ⟨by rw [isKeyspace]; decide, rfl, rfl⟩),
        reads_eatKind.2 (.inr ⟨by rw [isKeyspace]; decide, rfl, rfl⟩)⟩
    have same := (reads_iff.1 word).1.symm.trans (reads_iff.1 other).1
    cases same
  have keyspace : (eat .KEYSPACE).Reads state false state := reads_eatKind.2 (.inr ⟨notKeyspace, rfl, rfl⟩)
  exact keyspace.run_bind.trans word.run_bind

/-- What comes behind a statement can only be reported. -/
theorem exists_run_behind (first : Nat) (found : Statement) (state : State) : ∃ place last reports, (do
      let place ← since first
      semicolons
      if (← Rule.kind) ≠ .endOfInput then
        report (.trailing (← Rule.kind)) (← here)
      return (found, place) : Rule (Statement × Place)).run state = ⟨.ok (found, place), last, reports⟩ := by
  obtain ⟨last, reads⟩ := exists_reads_semicolons state
  have place : (since first).Reads state (.stretch first (state.stream.position - 1)) state := rfl
  have current : Rule.kind.Reads last last.kind last := rfl
  simp only [place.run_bind, reads.run_bind, current.run_bind]
  split
  · exact ⟨_, _, _, rfl⟩
  · exact ⟨_, _, _, rfl⟩

/-- CREATE TABLE comes to a table with the columns of what stands in the parentheses, whatever comes behind
them. -/
theorem exists_run_query {mid : State} {table : TableName} {elements : List TableElement}
    {reports : List Report} (header : tableHeader.Reads state table mid)
    (opens : mid.kind = .punctuation .leftParen)
    (inside : tableElements.run mid.advance = ⟨.ok elements, after, reports⟩)
    (closes : after.kind = .punctuation .rightParen) :
    ∃ definition place last more, query.run state =
        ⟨.ok (.createTable definition, place), last, reports ++ more⟩ ∧
      definition.table = table ∧ definition.columns = elements.filterMap TableElement.column? := by
  obtain ⟨_, start, semis, header⟩ := reads_bind.1 header
  obtain ⟨_, _, creates, header⟩ := reads_bind.1 header
  obtain ⟨isCreate, rfl⟩ := reads_ofKind.1 creates
  obtain ⟨eaten, named, word, header⟩ := reads_bind.1 header
  cases eaten with
  | false => exact absurd header not_reads_expected
  | true =>
    obtain ⟨options, behind, more, run, noColumn⟩ := exists_run_tableOptions after.advance
    have opening : (symbol .leftParen "to open column definitions").Reads mid () mid.advance :=
      reads_ofKind.2 ⟨opens, rfl⟩
    have closing : (symbol .rightParen "to close column definitions").Reads after () after.advance :=
      reads_ofKind.2 ⟨closes, rfl⟩
    have defined : tableDefinition.run named =
        ⟨.ok (.ofElements table (elements ++ options)), behind, reports ++ more⟩ := by
      refine Reads.run_bind header |>.trans (opening.run_bind.trans (run_bind_of_run inside ?_))
      exact closing.run_bind.trans (run_bind_of_reads run (reads_pure.2 ⟨rfl, rfl⟩))
    have created : create.run start.advance =
        ⟨.ok (.createTable (.ofElements table (elements ++ options))), behind, reports ++ more⟩ :=
      (run_create word).trans (run_bind_of_reads defined (reads_pure.2 ⟨rfl, rfl⟩))
    have stated : statement.run start = create.run start.advance := by
      have seen : Rule.kind.Reads start start.kind start := rfl
      have taken : Rule.advance.Reads start () start.advance := rfl
      rw [statement, seen.run_bind, isCreate]
      exact taken.run_bind
    have position : Rule.position.Reads start start.stream.position start := rfl
    obtain ⟨place, last, reports', rest⟩ := exists_run_behind start.stream.position
      (.createTable (.ofElements table (elements ++ options))) behind
    refine ⟨.ofElements table (elements ++ options), place, last, more ++ reports', ?_, ?_, ?_⟩
    · rw [← List.append_assoc]
      exact semis.run_bind.trans (position.run_bind.trans (run_bind_of_run (stated.trans created) rest))
    · exact TableDefinition.table_ofElements _ _
    · rw [TableDefinition.columns_ofElements, List.filterMap_append, noColumn, List.append_nil]

theorem recognizes_tableHeader :
    tableHeader.Recognizes Language.tableHeader (· ≠ .punctuation .dot) := by
  have named : (eatTable >>= fun eaten => if eaten = true then tableName else expected "TABLE" "after CREATE"
      : Rule TableName).Recognizes ((do Language.tableWord; Language.tableName) <|> Phrase.nothing)
      (· ≠ .punctuation .dot) := .ifTable recognizes_tableName .expected .nothing
  rw [Phrase.orElse_nothing] at named
  have shape : Language.tableHeader = (do
      (do let _ ← Phrase.many (Phrase.mark .semicolon); return ())
      Phrase.word .CREATE
      Language.tableWord
      Language.tableName) := by
    simp only [Language.tableHeader, bind_assoc, pure_bind]
  rw [shape]
  refine recognizes_semicolons.bind (fun _ => ?_) fun _ => opens_word (by decide)
  exact (Recognizes.keyword _ _).andThen fun _ => named

end Grammar

/-! ### The outcome -/

/-- The tokens of CREATE TABLE, `';'* CREATE (TABLE | COLUMNFAMILY) table '('`, and whatever comes after
them. -/
structure TableTokens where
  header : List Token
  table : TableName
  opening : Token
  rest : List Token
  header_inside : ∀ token ∈ header, token.kind ≠ .endOfInput
  begins : Language.tableHeader (number 0 (header.map (·.toLexeme))) table
  opens : opening.kind = .punctuation .leftParen

namespace TableTokens

variable (text : TableTokens)

def tokens : List Token := text.header ++ text.opening :: text.rest

def parser : Parser := .ofTokens text.tokens

/-- The state behind the opening parenthesis. -/
def start : State := (Grammar.tableHeader.run text.parser.start).state.advance

theorem exists_reads_header : ∃ mid, Grammar.tableHeader.Reads text.parser.start text.table mid ∧
    mid.kind = .punctuation .leftParen ∧ text.start = mid.advance := by
  have inside : text.opening.kind ≠ .endOfInput := by
    rw [text.opens]
    decide
  obtain ⟨rest, ahead⟩ := TokenStream.exists_ahead_ofTokens inside text.header text.rest
  have ahead : text.parser.start.stream.ahead = text.header ++ text.opening :: rest := ahead
  obtain ⟨mid, passes, atOpening⟩ := State.passes_of_ahead ahead text.header_inside
  have opens : mid.kind = .punctuation .leftParen := (State.kind_of_ahead atOpening).trans text.opens
  have reads : Grammar.tableHeader.Reads text.parser.start text.table mid :=
    Grammar.recognizes_tableHeader.complete _ _ _ _ passes text.begins (by rw [opens]; decide)
  exact ⟨mid, reads, opens, congrArg State.advance (Rule.reads_iff.1 reads).2.1⟩

/-- **Broken columns leave the others alone.**  Let what stands in the parentheses be cut at its commas
into columns and keys that are taken whole, or broken without the rule getting past them.  Then the parse
comes to a table with the columns of those that are whole, in their order; and something is reported of
each broken one. -/
theorem outcome_keeps_columns (stretches : List (Stretch (List TableElement))) (after : State)
    (cut : Joined Grammar.MakesElement (.punctuation .comma) (· = .punctuation .rightParen) text.start
      stretches after) :
    ∃ parsed definition more, text.parser.outcome.statement = some parsed ∧
      parsed.statement = .createTable definition ∧ definition.table = text.table ∧
      definition.columns = stretches.flatMap Grammar.columnsOf ∧
      text.parser.outcome.diagnostics =
        (stretches.flatMap (·.reports) ++ more).map (·.diagnostic text.parser.stream) ∧
      ∀ stretch ∈ stretches, stretch.result? = none → stretch.reports ≠ [] := by
  obtain ⟨mid, header, opens, start⟩ := text.exists_reads_header
  obtain ⟨elements, inside, columns⟩ := Grammar.exists_run_tableElements cut
  have closes : after.kind = .punctuation .rightParen := cut.end_kind
  rw [start] at inside
  obtain ⟨definition, place, last, more, run, named, defines⟩ :=
    Grammar.exists_run_query header opens inside closes
  have reply : text.parser.reply = _ := run
  refine ⟨⟨.createTable definition, last.markers.count, place.span text.parser.stream⟩, definition, more,
    ?_, rfl, named, defines.trans columns, ?_, ?_⟩
  · rw [Parser.outcome, Parser.statement?, reply]
  · have earlier : text.parser.earlier = [] := rfl
    simp [Parser.outcome, Parser.diagnostics, Parser.statement?, reply, earlier]
  · exact cut.forall_mem fun _ _ _ makes broken => makes.2.1.reports_ne_nil
      (fun salvage last reads => by
        have complete := Grammar.recognizes_keyOrColumn.complete_of_reads last salvage reads
        simp [Salvage.whole?, complete]) broken

/-! ### A table with a broken column -/

open BatchText (tokenAt)

/-- The tokens `CREATE TABLE t`, the opening parenthesis and whatever comes behind it. -/
def ofBody (rest : List Token) : TableTokens where
  header := [tokenAt (.keyword .CREATE) "CREATE" 0, tokenAt (.keyword .TABLE) "TABLE" 7,
    tokenAt (.identifier "t") "t" 13]
  table := ⟨none, .unquoted "t"⟩
  opening := tokenAt (.punctuation .leftParen) "(" 15
  rest := rest
  header_inside := by decide
  begins := by
    refine ⟨[], [], _, rfl, .none, Phrase.ofKind_bind_iff.2 ⟨_, _, rfl, rfl, ?_⟩⟩
    refine ⟨[_], (), _, rfl, .inl (Phrase.ofKind_iff.2 ⟨_, rfl, rfl⟩), ?_⟩
    exact .inr ⟨[_], _, [], rfl, ⟨_, rfl, rfl⟩, rfl, rfl⟩
  opens := rfl

/-- `CREATE TABLE t (v string, w text)`. -/
def withUnknownType : TableTokens :=
  ofBody [tokenAt (.identifier "v") "v" 16, tokenAt (.identifier "string") "string" 18,
    tokenAt (.punctuation .comma) "," 24, tokenAt (.identifier "w") "w" 26,
    tokenAt (.keyword .TEXT) "text" 28, tokenAt (.punctuation .rightParen) ")" 32, tokenAt .endOfInput "" 33]

theorem outcome_of_unknownType :
    withUnknownType.tokens = (tokenize "CREATE TABLE t (v string, w text)").tokens ∧
    ∃ parsed definition, withUnknownType.parser.outcome.statement = some parsed ∧
      parsed.statement = .createTable definition ∧ definition.columns = [(.unquoted "w", .native .text)] ∧
      withUnknownType.parser.outcome.diagnostics ≠ [] := by
  have broken : Grammar.MakesElement withUnknownType.start
      ⟨[tokenAt (.identifier "v") "v" 16, tokenAt (.identifier "string") "string" 18], none,
        (Grammar.keyOrColumn.run withUnknownType.start).reports⟩ (State.advance^[2] withUnknownType.start) :=
    ⟨by simp, .broken (.inl rfl) (State.takes_iterate _ _) rfl rfl (by decide),
      fun _ => not_not.2 (by decide +kernel)⟩
  have whole : Grammar.MakesElement (State.advance^[3] withUnknownType.start)
      ⟨[tokenAt (.identifier "w") "w" 26, tokenAt (.keyword .TEXT) "text" 28],
        some [.column (.unquoted "w") (.native .text)], []⟩
      (State.advance^[5] withUnknownType.start) :=
    ⟨by simp, .whole rfl rfl rfl, by simp⟩
  obtain ⟨parsed, definition, more, found, same, -, columns, diagnostics, explained⟩ :=
    outcome_keeps_columns withUnknownType _ _ (.more broken rfl (.last whole rfl))
  refine ⟨by decide +kernel, parsed, definition, found, same, columns, ?_⟩
  obtain ⟨report, others, reported⟩ := List.exists_cons_of_ne_nil (explained _ List.mem_cons_self rfl)
  rw [diagnostics, List.flatMap_cons, reported]
  exact List.cons_ne_nil _ _

/-- `CREATE TABLE t (a map<int, b int)`. -/
def withOpenMap : TableTokens :=
  ofBody [tokenAt (.identifier "a") "a" 16, tokenAt (.keyword .MAP) "map" 18,
    tokenAt (.punctuation .less) "<" 21, tokenAt (.keyword .INT) "int" 22,
    tokenAt (.punctuation .comma) "," 25, tokenAt (.identifier "b") "b" 27, tokenAt (.keyword .INT) "int" 29,
    tokenAt (.punctuation .rightParen) ")" 32, tokenAt .endOfInput "" 33]

/-- Not every whole column is kept: the comma in front of it can be taken as one of a type that is not
closed. -/
theorem not_outcome_keeps_columns : ¬ ∀ (text : TableTokens) (stretches : List (Stretch (List TableElement)))
    (after : State), Joined (fun state stretch after => stretch.tokens ≠ [] ∧
        Grammar.keyOrColumn.Makes Salvage.whole? Grammar.isInElement state stretch after)
      (.punctuation .comma) (· = .punctuation .rightParen) text.start stretches after →
    ∃ parsed definition, text.parser.outcome.statement = some parsed ∧
      parsed.statement = .createTable definition ∧
      definition.columns = stretches.flatMap Grammar.columnsOf := by
  intro keeps
  have broken : Grammar.keyOrColumn.Makes Salvage.whole? Grammar.isInElement withOpenMap.start
      ⟨[tokenAt (.identifier "a") "a" 16, tokenAt (.keyword .MAP) "map" 18,
        tokenAt (.punctuation .less) "<" 21, tokenAt (.keyword .INT) "int" 22], none,
        (Grammar.keyOrColumn.run withOpenMap.start).reports⟩
      (State.advance^[4] withOpenMap.start) :=
    .broken (.inl rfl) (State.takes_iterate _ _) rfl rfl (by decide)
  have whole : Grammar.keyOrColumn.Makes Salvage.whole? Grammar.isInElement
      (State.advance^[5] withOpenMap.start)
      ⟨[tokenAt (.identifier "b") "b" 27, tokenAt (.keyword .INT) "int" 29],
        some [.column (.unquoted "b") (.native .int)], []⟩ (State.advance^[7] withOpenMap.start) :=
    .whole rfl rfl rfl
  obtain ⟨parsed, definition, found, same, columns⟩ :=
    keeps withOpenMap _ _ (.more ⟨by simp, broken⟩ rfl (.last ⟨by simp, whole⟩ rfl))
  -- The table has no column at all.
  obtain ⟨parsed', definition', found', same', lost⟩ : ∃ parsed definition,
      withOpenMap.parser.outcome.statement = some parsed ∧ parsed.statement = .createTable definition ∧
        definition.columns = [] := ⟨_, _, rfl, rfl, rfl⟩
  obtain rfl := Option.some.inj (found.symm.trans found')
  obtain rfl := Statement.createTable.inj (same.symm.trans same')
  exact absurd (lost.symm.trans columns) (by simp [Grammar.columnsOf, TableElement.column?])

end TableTokens

end Cql
