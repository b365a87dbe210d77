/-
Every rejection is explained.

A rule that halts has reported why, also where the halt comes from a list whose items were skipped.  So a
parse that comes to no statement has diagnostics of its own, and never falls back on saying that there is
no statement.  Whether it would have to was the only question that the diagnostics to start from could
have had a part in; so they only stand in front of the others.

* `Rule.reports_ne_nil` — a rule that halts has reported something;
* `Problem.message_ne_unexplained` — what is reported of it says more than that there is no statement;
* `Parser.outcome_foldl_withDiagnostics` — **diagnostics to start from change nothing**, and a parse
  without a statement has others.
-/
import Cql.Proofs.MissingSigns

namespace Cql

/-- A rule that halts has reported something. -/
theorem Rule.reports_ne_nil {α : Type} {rule : Rule α} {state : State} {halt : Halt}
    (h : (rule.run state).result = .error halt) : (rule.run state).reports ≠ [] := by
  intro silent
  obtain ⟨a, result, -⟩ := rule.run_candid state silent
  rw [h] at result
  exact absurd result (by simp)

/-- Texts that begin with different characters are different. -/
theorem ne_of_append_of_head {front text : String} (back : String)
    (some : front.toList.head?.isSome = true) (other : front.toList.head? ≠ text.toList.head?) :
    front ++ back ≠ text := by
  intro same
  obtain ⟨c, head⟩ := Option.isSome_iff_exists.1 some
  rw [← same, String.toList_append, List.head?_append, head] at other
  exact other rfl

/-- The wording of a cause is never that there is no statement. -/
theorem Problem.message_ne_unexplained {problem : Problem} (h : problem ≠ .unexplained) :
    problem.message ≠ "could not parse statement" := by
  -- A wording that depends on the source begins with a letter of its own.
  have wording : ∀ front back : String, front.toList.head?.isSome = true →
      front.toList.head? ≠ some 'c' → front ++ back ≠ "could not parse statement" :=
    fun _ back some other => ne_of_append_of_head back some other
  cases problem with
  | unexplained => exact absurd rfl h
  | expected what context found =>
    have first := wording "expected "
      (what ++ ((if context = "" then "" else " " ++ context) ++ (", found " ++ found.render)))
      (by decide) (by decide)
    simp only [← String.append_assoc] at first
    exact first
  | trailing found =>
    have first := wording "unexpected " (found.render ++ " after statement") (by decide) (by decide)
    simp only [← String.append_assoc] at first
    exact first
  | nestedTooDeeply => decide
  | limitOutOfRange text => exact wording _ _ (by decide) (by decide)
  | countArgument text =>
    have first := wording "Only COUNT(1) is supported, got COUNT(" (text ++ ")") (by decide) (by decide)
    simp only [← String.append_assoc] at first
    exact first
  | tokenArity => decide
  | prependsToOther => decide
  | startsFromOther => decide
  | delta fault => cases fault <;> decide
  | missingMinus amount =>
    have first := wording "missing '-' before " (amount ++ " in counter update") (by decide) (by decide)
    simp only [← String.append_assoc] at first
    exact first
  | propertyKey key =>
    have first := wording "Invalid property name: " (key.render ++ markerRemark key) (by decide)
      (by decide)
    simp only [← String.append_assoc] at first
    exact first
  | propertyValue value name =>
    have first := wording "Invalid property value: "
      (value.render ++ (" for property: " ++ (name ++ markerRemark value))) (by decide) (by decide)
    simp only [← String.append_assoc] at first
    exact first

namespace Parser

variable {tokens : List Token}

theorem foldl_withDiagnostics (parser : Parser) (groups : List (List Diagnostic)) :
    groups.foldl withDiagnostics parser = ⟨parser.stream, groups.reverse.flatten ++ parser.earlier⟩ := by
  induction groups generalizing parser with
  | nil => rfl
  | cons group groups ih =>
    rw [List.foldl_cons, ih]
    simp [withDiagnostics]

/-- What is reported in a parse is a cause. -/
theorem ne_unexplained_of_mem_reports {parser : Parser} {report : Report}
    (h : report ∈ parser.reply.reports) : report.problem ≠ .unexplained := by
  have orderly : parser.reply.Orderly := Grammar.orderly_query
  rcases orderly with mild | ⟨-, digits, earlier, reports, mild, -⟩
  · intro same
    simpa [same, Problem.isMild] using mild.reports report h
  · rw [reports, List.mem_append, List.mem_singleton] at h
    rcases h with h | rfl
    · intro same
      simpa [same, Problem.isMild] using mild report h
    · simp

/-- **Every rejection is explained, and diagnostics to start from do not interfere.**  With groups of
diagnostics put in front one after another, a parse comes to the same statement and the same flag, and
its diagnostics are those groups, the last one first, and then the diagnostics of the parse without them.
Of these there is at least one if there is no statement, and none of them just says that there is no
statement; for every rule that halts and can be recovered from has reported something itself. -/
theorem outcome_foldl_withDiagnostics (tokens : List Token) (groups : List (List Diagnostic)) :
    (groups.foldl withDiagnostics (ofTokens tokens)).outcome.statement =
      (ofTokens tokens).outcome.statement ∧
    (groups.foldl withDiagnostics (ofTokens tokens)).outcome.aborted =
      (ofTokens tokens).outcome.aborted ∧
    (groups.foldl withDiagnostics (ofTokens tokens)).outcome.diagnostics =
      groups.reverse.flatten ++ (ofTokens tokens).outcome.diagnostics ∧
    ((ofTokens tokens).outcome.statement = none → (ofTokens tokens).outcome.diagnostics ≠ []) ∧
    (∀ diagnostic ∈ (ofTokens tokens).outcome.diagnostics,
      diagnostic.message ≠ "could not parse statement") ∧
    ∀ (α : Type) (rule : Rule α) (state : State),
      (rule.run state).result = .error .recorded → (rule.run state).reports ≠ [] := by
  have seeded : groups.foldl withDiagnostics (ofTokens tokens) =
      ⟨.ofTokens tokens, groups.reverse.flatten⟩ := by
    rw [foldl_withDiagnostics]
    simp [ofTokens]
  have diagnostics : (ofTokens tokens).outcome.diagnostics =
      (ofTokens tokens).reply.reports.map (·.diagnostic (TokenStream.ofTokens tokens)) :=
    (ofTokens tokens).diagnostics_reply
  rw [seeded]
  refine ⟨rfl, rfl, ?_, fun none => ?_, ?_, fun α rule state halts => rule.reports_ne_nil halts⟩
  · rw [diagnostics]
    exact diagnostics_reply ⟨.ofTokens tokens, groups.reverse.flatten⟩
  · -- Without a statement the query halted.
    rw [diagnostics]
    cases result : (ofTokens tokens).reply.result with
    | ok read => simp [outcome, statement?, result] at none
    | error halt =>
      have reported : (ofTokens tokens).reply.reports ≠ [] := Rule.reports_ne_nil result
      simpa using reported
  · rw [diagnostics]
    intro diagnostic mem
    obtain ⟨report, reported, rfl⟩ := List.mem_map.1 mem
    exact Problem.message_ne_unexplained (ne_unexplained_of_mem_reports reported)

/-- Tokens of a WHERE clause that holds no whole relation, and no others. -/
def brokenDeletion : List Token := (tokenize "DELETE FROM t WHERE token(a) = token(1, 2) AND k").tokens

theorem outcome_of_brokenDeletion :
    (ofTokens brokenDeletion).outcome.statement = none ∧
      (ofTokens brokenDeletion).outcome.diagnostics ≠ [] ∧
      (Grammar.relations.run ⟨.ofTokens (brokenDeletion.drop 4), .none⟩).reports ≠ [] := by
  have none : (ofTokens brokenDeletion).outcome.statement = none := by
    rw [brokenDeletion, tokenize, String.toList_ofList]
    decide +kernel
  have halts : (Grammar.relations.run ⟨.ofTokens (brokenDeletion.drop 4), .none⟩).result =
      .error .recorded := by
    rw [brokenDeletion, tokenize, String.toList_ofList]
    exact (Reply.halt?_eq_some_iff _).1 (by decide +kernel)
  obtain ⟨-, -, -, explained, -, recorded⟩ := outcome_foldl_withDiagnostics brokenDeletion []
  exact ⟨none, explained none, recorded _ _ _ halts⟩

end Parser

end Cql
