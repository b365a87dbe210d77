/-
Which sources are accepted, and what a rejection keeps of the diagnostics.

The options of a parse are about its report alone.  A source is accepted if its outcome has a statement and
no diagnostics, whatever the options, and a rejection keeps as many of the last diagnostics as the options
let it, but at least one.  As the last diagnostic stands for all of them, nobody sees from it what the
options were.

* `parseWith_eq_error_iff` — a source is rejected as the rejection of its outcome;
* `Rejection.getLast?_reports` — a rejection is shown as the last of its diagnostics is;
* `sourceCode_of_rejected` — the text that it is rendered with;
* `parseWith_policy` — **the options decide only how many of the last diagnostics are kept**.
-/
import Cql.Parse

namespace Cql

/-! ### What the options leave to keep -/

/-- How many diagnostics the options let a rejection keep of `total`, if that is any at all. -/
def ReportOptions.cap (options : ReportOptions) (total : Nat) : Nat :=
  if options.keepAll then options.limit.getD total else 1

theorem ReportOptions.retained_eq (options : ReportOptions) {total : Nat} (some : 0 < total) :
    options.retained total = max 1 (min (options.cap total) total) := by
  unfold retained
  change min (max (options.cap total) 1) total = _
  omega

namespace Rejection

variable {outcome : Outcome} {source : Source} {options : ReportOptions}

theorem diagnostics_ofOutcome (reported : outcome.diagnostics ≠ []) :
    (ofOutcome outcome source options).diagnostics = outcome.diagnostics.drop
      (outcome.diagnostics.length - options.retained outcome.diagnostics.length) := by
  have notEmpty : outcome.diagnostics.isEmpty = false := by simpa using reported
  simp only [ofOutcome, notEmpty, Bool.false_eq_true, if_false]

/-- What is kept are the last diagnostics of the outcome. -/
theorem suffix_ofOutcome (reported : outcome.diagnostics ≠ []) :
    (ofOutcome outcome source options).diagnostics <:+ outcome.diagnostics := by
  rw [diagnostics_ofOutcome reported]
  exact List.drop_suffix _ _

theorem length_ofOutcome (reported : outcome.diagnostics ≠ []) :
    (ofOutcome outcome source options).diagnostics.length =
      max 1 (min (options.cap outcome.diagnostics.length) outcome.diagnostics.length) := by
  have positive := List.length_pos_iff.2 reported
  rw [diagnostics_ofOutcome reported, List.length_drop, options.retained_eq positive]
  omega

/-- A list has the last item of any suffix of it that is not empty. -/
theorem getLast?_of_suffix {α : Type} {kept all : List α} (suffix : kept <:+ all) (some : kept ≠ []) :
    kept.getLast? = all.getLast? := by
  obtain ⟨dropped, rfl⟩ := suffix
  rw [List.getLast?_append, Option.or_of_isSome (List.getLast?_isSome.2 some)]

/-- The last diagnostic is always kept. -/
theorem representative?_ofOutcome (reported : outcome.diagnostics ≠ []) :
    (ofOutcome outcome source options).representative? = outcome.diagnostics.getLast? := by
  refine getLast?_of_suffix (suffix_ofOutcome reported) fun none => ?_
  have length : (ofOutcome outcome source options).diagnostics.length = _ := length_ofOutcome reported
  rw [none, List.length_nil] at length
  omega

/-- A rejection has the view of its representative. -/
theorem view_of_representative? {rejection : Rejection} {diagnostic : Diagnostic}
    (last : rejection.representative? = some diagnostic) :
    rejection.view = diagnostic.view rejection.source := by
  simp only [view, message, code, severity, help, labels, last]
  rfl

/-- **A rejection is shown as the last of its diagnostics is.** -/
theorem getLast?_reports {rejection : Rejection} (kept : rejection.diagnostics ≠ []) :
    rejection.reports.getLast? = some rejection.view := by
  obtain ⟨diagnostic, last⟩ := Option.isSome_iff_exists.1 (List.getLast?_isSome.2 kept)
  rw [reports, List.getLast?_map, last, view_of_representative? last]
  rfl

end Rejection

/-! ### The policy -/

section Policy

variable {source : String} {options : ReportOptions}

/-- Where there is no statement, something was reported. -/
theorem Parser.diagnostics_outcome_ne_nil {parser : Parser} (none : parser.outcome.statement = none) :
    parser.outcome.diagnostics ≠ [] := by
  have missing : (parser.statement? parser.reply).isNone = true := by
    rw [Option.isNone_iff_eq_none]
    exact none
  show parser.diagnostics parser.reply ≠ []
  unfold diagnostics
  cases silent : (parser.earlier ++ parser.reply.reports.map (·.diagnostic parser.stream)).isEmpty with
  | true => simp [missing, silent]
  | false =>
    simp only [missing, silent]
    simpa using silent

/-- An outcome that is no success has diagnostics. -/
theorem diagnostics_ne_nil_of_not_isSuccess (fails : (parseOutcome source).isSuccess = false) :
    (parseOutcome source).diagnostics ≠ [] := by
  intro silent
  have missing : (parseOutcome source).statement = none := by
    simpa [Outcome.isSuccess, silent] using fails
  exact Parser.diagnostics_outcome_ne_nil missing silent

/-- An outcome without diagnostics is answered by its statement, and any other by a rejection. -/
theorem parseWith_eq : parseWith source options =
    match (parseOutcome source).statement, (parseOutcome source).diagnostics with
    | some parsed, [] => .ok parsed
    | _, _ => .error (.ofOutcome (parseOutcome source) ⟨source, options.sourceName⟩ options) := by
  unfold parseWith
  generalize parseOutcome source = outcome
  obtain ⟨statement, diagnostics, aborted⟩ := outcome
  cases statement <;> cases diagnostics <;> rfl

theorem parseWith_eq_ok_iff {parsed : ParsedStatement} :
    parseWith source options = .ok parsed ↔
      (parseOutcome source).statement = some parsed ∧ (parseOutcome source).diagnostics = [] := by
  rw [parseWith_eq]
  cases (parseOutcome source).statement <;> cases (parseOutcome source).diagnostics <;> simp

/-- What is not accepted is rejected as its outcome has it. -/
theorem parseWith_eq_error_iff {rejection : Rejection} :
    parseWith source options = .error rejection ↔ (parseOutcome source).isSuccess = false ∧
      rejection = .ofOutcome (parseOutcome source) ⟨source, options.sourceName⟩ options := by
  rw [parseWith_eq, Outcome.isSuccess]
  generalize Rejection.ofOutcome _ _ _ = made
  cases (parseOutcome source).statement <;> cases (parseOutcome source).diagnostics <;>
    simp [eq_comm]

/-- A rejection and its reports are rendered with one text, but the rejection without the name that the
options may give to it. -/
theorem sourceCode_of_rejected {rejection : Rejection}
    (rejected : parseWith source options = .error rejection) :
    rejection.sourceCode.content = source ∧ rejection.source = ⟨source, options.sourceName⟩ ∧
      (rejection.sourceCode = rejection.source ↔ options.sourceName = none) := by
  obtain ⟨-, rfl⟩ := parseWith_eq_error_iff.1 rejected
  refine ⟨rfl, rfl, fun same => (congrArg Source.name same).symm, fun unnamed => ?_⟩
  show (⟨source, none⟩ : Source) = ⟨source, options.sourceName⟩
  rw [unnamed]

/-- The diagnostic that stands for a rejection is the last one of the outcome. -/
theorem representative?_of_rejected {rejection : Rejection}
    (rejected : parseWith source options = .error rejection) :
    rejection.representative? = (parseOutcome source).diagnostics.getLast? := by
  obtain ⟨fails, rfl⟩ := parseWith_eq_error_iff.1 rejected
  exact Rejection.representative?_ofOutcome (diagnostics_ne_nil_of_not_isSuccess fails)

/-- **The options decide only how many of the last diagnostics are kept.**  Under any options, a source is
accepted if and only if its outcome has a statement and no diagnostics, and then that statement is the
answer.  Otherwise it is rejected with the last diagnostics of the outcome, of which there are as many as
the options let it keep, but at least one.  So the diagnostic that stands for the rejection, its wording and
its code, and whether the parse was ended by a fatal problem, do not depend on the options; and the
rejection is shown as the last of its diagnostics is. -/
theorem parseWith_policy (source : String) :
    (∀ options parsed, parseWith source options = .ok parsed ↔
      (parseOutcome source).statement = some parsed ∧ (parseOutcome source).diagnostics = []) ∧
    ∀ options rejection, parseWith source options = .error rejection →
      rejection.diagnostics <:+ (parseOutcome source).diagnostics ∧
      rejection.diagnostics.length =
        max 1 (min (options.cap (parseOutcome source).diagnostics.length)
          (parseOutcome source).diagnostics.length) ∧
      rejection.reports.getLast? = some rejection.view ∧
      rejection.aborted = (parseOutcome source).aborted ∧
      rejection.representative? = (parseOutcome source).diagnostics.getLast? ∧
      ∀ options' rejection', parseWith source options' = .error rejection' →
        rejection'.representative? = rejection.representative? ∧
        rejection'.message = rejection.message ∧
        rejection'.code = rejection.code ∧
        rejection'.aborted = rejection.aborted := by
  refine ⟨fun options parsed => parseWith_eq_ok_iff, fun options rejection rejected => ?_⟩
  obtain ⟨fails, made⟩ := parseWith_eq_error_iff.1 rejected
  have reported : (parseOutcome source).diagnostics ≠ [] := diagnostics_ne_nil_of_not_isSuccess fails
  have length : rejection.diagnostics.length = _ := made ▸ Rejection.length_ofOutcome reported
  have kept : rejection.diagnostics ≠ [] := List.length_pos_iff.1 (by omega)
  refine ⟨made ▸ Rejection.suffix_ofOutcome reported, length, Rejection.getLast?_reports kept,
    made ▸ rfl, representative?_of_rejected rejected, fun options' rejection' rejected' => ?_⟩
  -- Both are represented by the last diagnostic of the outcome.
  have last : rejection'.representative? = rejection.representative? :=
    (representative?_of_rejected rejected').trans (representative?_of_rejected rejected).symm
  obtain ⟨-, made'⟩ := parseWith_eq_error_iff.1 rejected'
  refine ⟨last, ?_, ?_, ?_⟩
  · rw [Rejection.message, Rejection.message, last]
  · rw [Rejection.code, Rejection.code, last]
  · rw [made', made]
    rfl

/-- A stray character, a count of something else than rows, and a limit that is out of range. -/
def threeFaults : String := "SELECT COUNT(2) FROM ! t LIMIT 2147483648"

/-- Two of three diagnostics are kept, or one where the bound is zero. -/
theorem parseWith_threeFaults : ∃ rejection rejection',
    parseWith threeFaults ⟨none, true, some 2⟩ = .error rejection ∧
    parseWith threeFaults ⟨some "faults.cql", true, some 0⟩ = .error rejection' ∧
    rejection.diagnostics.length = 2 ∧ rejection'.diagnostics.length = 1 ∧
    rejection'.code = rejection.code ∧ rejection.reports.getLast? = some rejection.view := by
  have total : (parseOutcome threeFaults).diagnostics.length = 3 := by decide +kernel
  have rejected : ∀ options, ∃ rejection, parseWith threeFaults options = .error rejection := by
    refine fun options => ⟨_, parseWith_eq_error_iff.2 ⟨?_, rfl⟩⟩
    have reported : (parseOutcome threeFaults).diagnostics ≠ [] := List.length_pos_iff.1 (by omega)
    simp [Outcome.isSuccess, reported]
  obtain ⟨rejection, rejects⟩ := rejected ⟨none, true, some 2⟩
  obtain ⟨rejection', rejects'⟩ := rejected ⟨some "faults.cql", true, some 0⟩
  obtain ⟨-, policy⟩ := parseWith_policy threeFaults
  obtain ⟨-, length, shown, -, -, same⟩ := policy _ _ rejects
  obtain ⟨-, length', -⟩ := policy _ _ rejects'
  rw [total] at length length'
  exact ⟨rejection, rejection', rejects, rejects', length, length', (same _ _ rejects').2.2.1, shown⟩

end Policy

end Cql
