/-
What is nested too deeply is reported as that, and as nothing else.

A value or a type in which more collections stand inside one another than there may be is read up to the
collection that is one too many.  There the rule halts with a single report, and so does every rule that
has read something without a report before it came there.

* `Rule.OverflowsOn` — a rule halts on these lexemes because they are nested too deeply;
* `Rule.OverflowsOn.bind`, `Rule.ReadsOn.bind_overflowsOn` — rules in a row;
* `Rule.overflowsOn_commaSeparated` — lists, one item of which is nested too deeply.
-/
import Cql.Proofs.WrittenForms
import Cql.Proofs.Yields

namespace Cql

namespace Rule

variable {α β : Type}

/-- Whatever comes behind these lexemes, the rule reads something in front of it. -/
def ReadsOn (rule : Rule α) (lexemes : List Lexeme) : Prop :=
  ∀ state after, state.Covers lexemes after → ∃ a, rule.Reads state a after

/-- On these lexemes the rule halts, and reports nothing but that they are nested too deeply. -/
def OverflowsOn (rule : Rule α) (lexemes : List Lexeme) : Prop :=
  ∀ state after, state.Covers lexemes after → ∃ last place,
    rule.run state = ⟨.error .recorded, last, [⟨.nestedTooDeeply, place⟩]⟩

theorem overflowsOn_tooDeep (lexemes : List Lexeme) : (tooDeep : Rule α).OverflowsOn lexemes :=
  fun state _ _ => ⟨state, .token state.stream.position, rfl⟩

section

variable {rule : Rule α} {next : α → Rule β} {front rest : List Lexeme} {lexeme : Lexeme}

theorem OverflowsOn.bind (first : rule.OverflowsOn front) : (rule >>= next).OverflowsOn (front ++ rest) := by
  intro state after covers
  obtain ⟨mid, covers', -⟩ := covers.split
  obtain ⟨last, place, halts⟩ := first state mid covers'
  refine ⟨last, place, ?_⟩
  rw [run_bind_of_error (congrArg Reply.result halts), halts]

theorem OverflowsOn.andThen (first : rule.OverflowsOn front) : (rule >>= next).OverflowsOn front := by
  rw [← List.append_nil front]
  exact first.bind

theorem ReadsOn.bind (first : rule.ReadsOn front) (second : ∀ a, (next a).ReadsOn rest) :
    (rule >>= next).ReadsOn (front ++ rest) := by
  intro state after covers
  obtain ⟨mid, covers', covers''⟩ := covers.split
  obtain ⟨a, reads⟩ := first state mid covers'
  obtain ⟨b, reads'⟩ := second a mid after covers''
  exact ⟨b, reads_bind.2 ⟨a, mid, reads, reads'⟩⟩

theorem readsOn_pure (b : β) : (pure b : Rule β).ReadsOn [] := by
  rintro state after ⟨items, passes, same⟩
  obtain rfl := List.map_eq_nil_iff.1 same
  exact ⟨b, reads_pure.2 ⟨rfl, State.Passes.nil_iff.1 passes⟩⟩

/-- What is nested too deeply comes behind what is read. -/
theorem ReadsOn.bind_overflowsOn (first : rule.ReadsOn front) (second : ∀ a, (next a).OverflowsOn rest) :
    (rule >>= next).OverflowsOn (front ++ rest) := by
  intro state after covers
  obtain ⟨mid, covers', covers''⟩ := covers.split
  obtain ⟨a, reads⟩ := first state mid covers'
  rw [reads.run_bind]
  exact second a mid after covers''

theorem overflowsOn_kind {next : TokenKind → Rule β} (h : (next lexeme.kind).OverflowsOn (lexeme :: rest)) :
    (kind >>= next).OverflowsOn (lexeme :: rest) := by
  intro state after covers
  have seen : Rule.kind.Reads state lexeme.kind state := by
    rw [← covers.kind_eq]
    rfl
  rw [seen.run_bind]
  exact h state after covers

theorem readsOn_advance (plain : lexeme.kind ≠ .punctuation .questionMark) : advance.ReadsOn [lexeme] := by
  intro state after covers
  obtain ⟨items, passes, same⟩ := covers.advance plain
  obtain rfl := List.map_eq_nil_iff.1 same
  exact ⟨(), by rw [State.Passes.nil_iff.1 passes]; rfl⟩

theorem readsOn_symbol {mark : Punctuation} (context : String) (kind : lexeme.kind = .punctuation mark)
    (plain : mark ≠ .questionMark) : (symbol mark context).ReadsOn [lexeme] := by
  intro state after covers
  have current : state.kind = .punctuation mark := by rw [covers.kind_eq, kind]
  obtain ⟨items, passes, same⟩ := covers.advance (by rw [kind]; simpa using plain)
  obtain rfl := List.map_eq_nil_iff.1 same
  exact ⟨(), reads_ofKind.2 ⟨current, State.Passes.nil_iff.1 passes⟩⟩

/-- A token that is asked for and that is there. -/
theorem overflowsOn_eaten {wanted : TokenKind} {yes no : Rule β} (kind : lexeme.kind = wanted)
    (plain : wanted ≠ .punctuation .questionMark) (h : yes.OverflowsOn rest) :
    (eatKind wanted >>= fun eaten => if eaten = true then yes else no).OverflowsOn (lexeme :: rest) := by
  intro state after covers
  have eaten : (eatKind wanted).Reads state true state.advance :=
    reads_eatKind.2 (.inl ⟨by rw [covers.kind_eq, kind], rfl, rfl⟩)
  rw [eaten.run_bind, if_pos rfl]
  exact h _ after (covers.advance (by rwa [kind]))

/-- A token that is asked for and that is not there. -/
theorem overflowsOn_not_eaten {wanted : TokenKind} {yes no : Rule β} {lexemes : List Lexeme}
    (head : lexemes.head? = some lexeme) (other : lexeme.kind ≠ wanted) (h : no.OverflowsOn lexemes) :
    (eatKind wanted >>= fun eaten => if eaten = true then yes else no).OverflowsOn lexemes := by
  obtain ⟨rest, rfl⟩ := List.head?_eq_some_iff.1 head
  intro state after covers
  have spared : (eatKind wanted).Reads state false state :=
    reads_eatKind.2 (.inr ⟨by rwa [covers.kind_eq], rfl, rfl⟩)
  rw [spared.run_bind, if_neg (by simp)]
  exact h state after covers

end

/-! ### Lists -/

section

variable {item : Rule α} {part : List Lexeme} {parts : List (List Lexeme)}

/-- A comma opens an item. -/
theorem exists_comma {rest : List Lexeme} {state after : State}
    (covers : state.Covers (commaLexeme :: rest) after) : ∃ token tokens,
      state.stream.ahead = token :: tokens ∧ decide (token.kind = .punctuation .comma) = true := by
  obtain ⟨token, tokens, ahead, -⟩ := State.ahead_of_inside covers.cons.1
  refine ⟨token, tokens, ahead, ?_⟩
  rw [← State.kind_of_ahead ahead, covers.kind_eq]
  rfl

theorem overflowsOn_following_first (rest : List Lexeme) (first : item.OverflowsOn part) :
    (following (.punctuation .comma) item).OverflowsOn (commaLexeme :: (part ++ rest)) := by
  intro state after covers
  obtain ⟨token, tokens, ahead, opened⟩ := exists_comma covers
  obtain ⟨mid, covers', -⟩ := (covers.advance (by decide)).split
  obtain ⟨last, place, halts⟩ := first _ mid covers'
  refine ⟨last, place, ?_⟩
  rw [following, run_many_of_error ahead opened (congrArg Reply.result halts), halts]

theorem overflowsOn_following_next {rest : List Lexeme} (first : item.ReadsOn part)
    (others : (following (.punctuation .comma) item).OverflowsOn rest) :
    (following (.punctuation .comma) item).OverflowsOn (commaLexeme :: (part ++ rest)) := by
  intro state after covers
  obtain ⟨token, tokens, ahead, opened⟩ := exists_comma covers
  obtain ⟨mid, covers', covers''⟩ := (covers.advance (by decide)).split
  obtain ⟨a, reads⟩ := first _ mid covers'
  obtain ⟨found, rfl, silent⟩ := reads_iff.1 reads
  obtain ⟨last, place, halts⟩ := others _ after covers''
  refine ⟨last, place, ?_⟩
  rw [following] at halts ⊢
  rw [run_many_of_ok ahead opened found rfl]
  simp only [halts, silent, List.nil_append, Except.map]

/-- One of the items after the first is nested too deeply, and the others up to it are read. -/
theorem overflowsOn_following (all : ∀ part ∈ parts, item.ReadsOn part ∨ item.OverflowsOn part)
    (some : ∃ part ∈ parts, item.OverflowsOn part) :
    (following (.punctuation .comma) item).OverflowsOn (parts.flatMap fun part => commaLexeme :: part) := by
  induction parts with
  | nil => simp at some
  | cons part parts ih =>
    rw [List.flatMap_cons, List.cons_append]
    -- The first item that overflows halts the list; the items in front of it are read.
    by_cases overflows : item.OverflowsOn part
    · exact overflowsOn_following_first _ overflows
    · have reads := (all part List.mem_cons_self).resolve_right overflows
      have later : ∃ part ∈ parts, item.OverflowsOn part :=
        ((List.exists_mem_cons_iff _ _ _).1 some).resolve_left overflows
      exact overflowsOn_following_next reads
        (ih (fun part mem => all part (List.mem_cons_of_mem _ mem)) later)

end

/-- **A list overflows** if one of its items does, and all of them are read or overflow. -/
theorem overflowsOn_commaSeparated {item : Rule α} {parts : List (List Lexeme)}
    (all : ∀ part ∈ parts, item.ReadsOn part ∨ item.OverflowsOn part)
    (some : ∃ part ∈ parts, item.OverflowsOn part) :
    (commaSeparated item).OverflowsOn ([commaLexeme].intercalate parts) := by
  cases parts with
  | nil => simp at some
  | cons part parts =>
    rw [intercalate_cons]
    by_cases overflows : item.OverflowsOn part
    · exact overflows.bind
    · have reads := (all part List.mem_cons_self).resolve_right overflows
      have later : ∃ part ∈ parts, item.OverflowsOn part :=
        ((List.exists_mem_cons_iff _ _ _).1 some).resolve_left overflows
      have others := overflowsOn_following (fun part mem => all part (List.mem_cons_of_mem _ mem)) later
      exact reads.bind_overflowsOn fun _ => others.andThen

end Rule

end Cql
