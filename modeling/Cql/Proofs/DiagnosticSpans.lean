/-
Where the diagnostics of a source stand.

The diagnostics of the lexer come from pieces, which follow one another; those of the parser come from
reports, which are about tokens in order.  So both go through the source from the left to the right, and
each of them stands at whole characters of it.

* `Span.FitsIn` — a span of whole characters;
* `TokenStream.spanAt_start_le` — the tokens of a source begin in order;
* `diagnostics_parseOutcome` — what the lexer and the parser each contribute;
* `diagnostics_in_source_order` — **diagnostics come in source order**, and so the one that stands for
  all is the rightmost of its kind;
* `diagnostic_spans_fit` — **labels stand at whole characters** of the source, and whatever the span of a
  label is, what is shown of it lies inside the source.
-/
import Cql.Proofs.Lossless
import Cql.Proofs.OrderedRules
import Cql.Proofs.Rejections

namespace Cql

open Bytes

/-! ### Spans of whole characters -/

/-- No character of the text stands across the offset, which is not behind the end. -/
def Bytes.IsBoundary (offset : Nat) (cs : List Char) : Prop :=
  ∃ before after, cs = before ++ after ∧ size before = offset

/-- The span begins and ends between characters of the source, and does not end before it begins. -/
structure Span.FitsIn (source : String) (span : Span) : Prop where
  ordered : span.start ≤ span.stop
  inside : span.stop ≤ source.utf8ByteSize
  start_boundary : IsBoundary span.start source.toList
  stop_boundary : IsBoundary span.stop source.toList

theorem Bytes.IsBoundary.le_size {offset : Nat} {source : String}
    (h : IsBoundary offset source.toList) : offset ≤ source.utf8ByteSize := by
  obtain ⟨before, after, split, rfl⟩ := h
  rw [← size_toList, split, size_append]
  exact Nat.le_add_right _ _

theorem Bytes.isBoundary_end (source : String) : IsBoundary source.utf8ByteSize source.toList :=
  ⟨source.toList, [], by simp, size_toList source⟩

namespace Span.FitsIn

variable {source : String} {span span' : Span}

theorem of_boundaries (ordered : span.start ≤ span.stop)
    (first : IsBoundary span.start source.toList) (last : IsBoundary span.stop source.toList) :
    span.FitsIn source :=
  ⟨ordered, last.le_size, first, last⟩

/-- Between two boundaries stand whole characters. -/
theorem exists_slice (h : span.FitsIn source) :
    ∃ text, slice? span.start span.stop source.toList = some text := by
  obtain ⟨before, after, split, start⟩ := h.start_boundary
  obtain ⟨before', after', split', stop⟩ := h.stop_boundary
  have ordered := h.ordered
  rcases List.append_eq_append_iff.1 (split.symm.trans split') with ⟨more, front, back⟩ | ⟨more, front, back⟩
  · refine ⟨more, slice?_eq_some.2 ⟨before, after', by rw [split, back], start, ?_⟩⟩
    rw [front, size_append] at stop
    omega
  · -- Then both are the same place.
    rw [front, size_append] at start
    have none : more = [] := size_eq_zero.1 (by omega)
    subst none
    refine ⟨[], slice?_eq_some.2 ⟨before, after, split, ?_, ?_⟩⟩
    · rw [front, size_append]
      exact start
    · simp only [size]
      simp only [size] at start
      omega

theorem point_end (source : String) : (Span.point source.utf8ByteSize).FitsIn source :=
  .of_boundaries (Nat.le_refl _) (isBoundary_end source) (isBoundary_end source)

theorem cover (h : span.FitsIn source) (h' : span'.FitsIn source) :
    (Span.cover span span').FitsIn source := by
  refine .of_boundaries (Nat.le_max_right _ _) h.start_boundary ?_
  show IsBoundary (max span'.stop span.start) source.toList
  rcases Nat.le_total span'.stop span.start with le | le
  · rw [Nat.max_eq_right le]
    exact h.start_boundary
  · rw [Nat.max_eq_left le]
    exact h'.stop_boundary

end Span.FitsIn

/-! ### The tokens of a source -/

/-- The tokens of a source but for the end of input. -/
def bodyOf (source : String) : List Token := (pieces 0 0 source.toList).filterMap (·.token?)

theorem ofTokens_tokenize (source : String) : TokenStream.ofTokens (tokenize source).tokens =
    ⟨[], bodyOf source, ⟨"", .point source.utf8ByteSize⟩⟩ :=
  TokenStream.ofTokens_concat _ _

theorem fitsIn_of_mem_bodyOf {source : String} {token : Token} (mem : token ∈ bodyOf source) :
    token.span.FitsIn source := by
  have lossless := lossless_body source
  obtain ⟨before, after, split, start, stop⟩ := slice?_eq_some.1 (lossless.slices token mem)
  refine .of_boundaries (Nat.le_of_lt (lossless.nonempty token mem)) ⟨before, _, split, start⟩ ?_
  exact ⟨before ++ token.text.toList, after, by rw [split, List.append_assoc],
    by rw [size_append, start, stop]⟩

section

variable (source : String)

theorem fitsIn_spanAt (number : Nat) :
    ((TokenStream.ofTokens (tokenize source).tokens).spanAt number).FitsIn source := by
  rw [ofTokens_tokenize]
  show (((bodyOf source)[number]?).getD _).span.FitsIn source
  cases found : (bodyOf source)[number]? with
  | none => exact .point_end source
  | some token => exact fitsIn_of_mem_bodyOf (List.mem_of_getElem? found)

theorem fitsIn_place (place : Place) :
    (place.span (.ofTokens (tokenize source).tokens)).FitsIn source := by
  cases place with
  | token position => exact fitsIn_spanAt source position
  | stretch first last => exact (fitsIn_spanAt source first).cover (fitsIn_spanAt source last)

/-- The tokens of a source begin in order, and the end of input behind them all. -/
theorem TokenStream.spanAt_start_le {first last : Nat} (h : first ≤ last) :
    ((TokenStream.ofTokens (tokenize source).tokens).spanAt first).start ≤
      ((TokenStream.ofTokens (tokenize source).tokens).spanAt last).start := by
  have lossless := lossless_body source
  rw [ofTokens_tokenize]
  show (((bodyOf source)[first]?).getD _).span.start ≤ (((bodyOf source)[last]?).getD _).span.start
  rcases Nat.eq_or_lt_of_le h with rfl | before
  · exact Nat.le_refl _
  cases found : (bodyOf source)[first]? with
  | none =>
    have none : (bodyOf source)[last]? = none := by
      rw [List.getElem?_eq_none_iff] at found ⊢
      omega
    rw [none]
  | some token =>
    have nonempty := lossless.nonempty token (List.mem_of_getElem? found)
    cases found' : (bodyOf source)[last]? with
    | none =>
      have inside := lossless.inside token (List.mem_of_getElem? found)
      exact Nat.le_trans (Nat.le_of_lt nonempty) inside
    | some token' =>
      obtain ⟨_, isToken⟩ := List.getElem?_eq_some_iff.1 found
      obtain ⟨_, isToken'⟩ := List.getElem?_eq_some_iff.1 found'
      have ordered := List.pairwise_iff_getElem.1 lossless.ordered first last ‹_› ‹_› before
      have starts : token.span.stop ≤ token'.span.start := by
        rw [← isToken, ← isToken']
        exact ordered
      exact Nat.le_trans (Nat.le_of_lt nonempty) starts

end

theorem Place.start_span (stream : TokenStream) (place : Place) :
    (place.span stream).start = (stream.spanAt place.first).start := by
  cases place <;> rfl

/-! ### Diagnostics -/

namespace Diagnostic

/-- The labels at the places that the diagnostic is about. -/
def primaryLabels (diagnostic : Diagnostic) : List Label :=
  diagnostic.labels.filter (·.role = .primary)

/-- What the first diagnostic is about begins in front of what the second one is about. -/
def StartsBefore (first second : Diagnostic) : Prop :=
  ∀ label ∈ first.primaryLabels, ∀ label' ∈ second.primaryLabels, label.span.start < label'.span.start

/-- What the first diagnostic is about does not begin behind what the second one is about. -/
def StartsNoLater (first second : Diagnostic) : Prop :=
  ∀ label ∈ first.primaryLabels, ∀ label' ∈ second.primaryLabels, label.span.start ≤ label'.span.start

/-- The first letter of the code, which tells who made the diagnostic: `L` the lexer, `P` the
parser. -/
def stage? (diagnostic : Diagnostic) : Option Char := diagnostic.code.bind (·.toList.head?)

theorem StartsBefore.startsNoLater {first second : Diagnostic} (h : first.StartsBefore second) :
    first.StartsNoLater second :=
  fun label mem label' mem' => Nat.le_of_lt (h label mem label' mem')

theorem StartsNoLater.refl {diagnostic : Diagnostic} {label : Label}
    (one : diagnostic.primaryLabels = [label]) : diagnostic.StartsNoLater diagnostic := by
  intro label mem label' mem'
  rw [one, List.mem_singleton] at mem mem'
  rw [mem, mem']

/-- Of diagnostics in order, the last is the rightmost. -/
theorem startsNoLater_getLast {diagnostics : List Diagnostic} {last : Diagnostic}
    (sorted : diagnostics.Pairwise StartsNoLater)
    (one : ∀ diagnostic ∈ diagnostics, ∃ label, diagnostic.primaryLabels = [label])
    (isLast : diagnostics.getLast? = some last) :
    ∀ diagnostic ∈ diagnostics, diagnostic.StartsNoLater last := by
  intro diagnostic mem
  obtain ⟨front, rfl⟩ := List.getLast?_eq_some_iff.1 isLast
  rcases List.mem_append.1 mem with inFront | here
  · exact (List.pairwise_append.1 sorted).2.2 diagnostic inFront last (by simp)
  · rw [List.mem_singleton.1 here]
    obtain ⟨label, same⟩ := one last (by simp)
    exact .refl same

end Diagnostic

/-- The diagnostics of a source are those of its pieces and then those of what the grammar reports. -/
theorem diagnostics_parseOutcome (source : String) : (parseOutcome source).diagnostics =
    (tokenize source).diagnostics ++
      (Parser.ofTokens (tokenize source).tokens).reply.reports.map
        (·.diagnostic (.ofTokens (tokenize source).tokens)) := by
  refine (Parser.diagnostics_reply
    ((Parser.ofTokens (tokenize source).tokens).withDiagnostics (tokenize source).diagnostics)).trans ?_
  exact congrArg (· ++ _) (List.append_nil (tokenize source).diagnostics)

/-! ### What the lexer finds -/

theorem LexicalProblem.stage?_diagnostic (problem : LexicalProblem) (start : Nat) (text : List Char) :
    (problem.diagnostic start text).stage? = some 'L' := by
  show problem.code.toList.head? = some 'L'
  unfold code
  split
  · rfl
  · rfl

/-- The diagnostic of a piece is about the piece, from its start on. -/
theorem Piece.exists_of_diagnostic? {piece : Piece} {diagnostic : Diagnostic}
    (reported : piece.diagnostic? = some diagnostic) : ∃ (shown : List Char) (label : Label),
      shown <+: piece.text ∧ diagnostic.labels = [label] ∧ label.role = .primary ∧
      label.span = ⟨piece.start, piece.start + size shown⟩ ∧ diagnostic.stage? = some 'L' := by
  obtain ⟨problem, -, rfl⟩ := Option.map_eq_some_iff.1 reported
  refine ⟨if problem.ofWholeToken then piece.text else piece.text.take 1, _, ?_, rfl, rfl, rfl,
    problem.stage?_diagnostic _ _⟩
  split
  · exact List.prefix_rfl
  · exact List.take_prefix 1 piece.text

theorem primaryLabels_of_singleton {diagnostic : Diagnostic} {label : Label}
    (labels : diagnostic.labels = [label]) (primary : label.role = .primary) :
    diagnostic.primaryLabels = [label] := by
  simp [Diagnostic.primaryLabels, labels, primary]

theorem exists_label_of_mem_tokenize {source : String} {diagnostic : Diagnostic}
    (mem : diagnostic ∈ (tokenize source).diagnostics) :
    ∃ label, diagnostic.labels = [label] ∧ label.role = .primary ∧ label.span.FitsIn source ∧
      diagnostic.stage? = some 'L' := by
  obtain ⟨piece, mem, reported⟩ := List.mem_filterMap.1 mem
  obtain ⟨before, after, standing⟩ := at_of_mem_pieces mem
  obtain ⟨shown, label, ⟨others, text⟩, labels, primary, span, stage⟩ :=
    piece.exists_of_diagnostic? reported
  have start_eq := standing.start_eq
  refine ⟨label, labels, primary, ?_, stage⟩
  rw [span]
  refine .of_boundaries (Nat.le_add_right _ _) ⟨before, _, standing.split, by simp [start_eq]⟩ ?_
  exact ⟨before ++ shown, others ++ after, by simp [standing.split, ← text], by simp [start_eq]⟩

/-- Pieces are not empty, so that no two diagnostics of the lexer begin at the same byte. -/
theorem pairwise_startsBefore_tokenize (source : String) :
    (tokenize source).diagnostics.Pairwise Diagnostic.StartsBefore := by
  show ((pieces 0 0 source.toList).filterMap (·.diagnostic?)).Pairwise _
  rw [List.pairwise_filterMap]
  refine (pairwise_pieces 0 source.toList).imp_of_mem fun {first second} mem _ ordered => ?_
  intro diagnostic reported diagnostic' reported'
  obtain ⟨before, after, standing⟩ := at_of_mem_pieces mem
  have nonempty := standing.start_lt_stop
  obtain ⟨_, label, -, labels, primary, span, -⟩ := first.exists_of_diagnostic? reported
  obtain ⟨_, label', -, labels', primary', span', -⟩ := second.exists_of_diagnostic? reported'
  intro found isFound found' isFound'
  rw [primaryLabels_of_singleton labels primary, List.mem_singleton] at isFound
  rw [primaryLabels_of_singleton labels' primary', List.mem_singleton] at isFound'
  rw [isFound, isFound', span, span']
  exact Nat.lt_of_lt_of_le nonempty ordered

/-! ### What the parser finds -/

theorem Problem.stage?_code (problem : Problem) : problem.code.toList.head? = some 'P' := by
  have codes : problem.code ∈ ["P001", "P002", "P003", "P010", "P011", "P020"] := by
    cases problem <;> simp [code]
  have all : ∀ code ∈ ["P001", "P002", "P003", "P010", "P011", "P020"],
      code.toList.head? = some 'P' := by decide
  exact all _ codes

theorem Report.stage?_diagnostic (stream : TokenStream) (report : Report) :
    (report.diagnostic stream).stage? = some 'P' :=
  report.problem.stage?_code

theorem Report.primaryLabels_diagnostic (stream : TokenStream) (report : Report) :
    (report.diagnostic stream).primaryLabels =
      [⟨.primary, report.place.span stream, report.problem.labelText⟩] := rfl

/-- Reports in order have diagnostics in order. -/
theorem pairwise_startsNoLater_reply (source : String) :
    ((Parser.ofTokens (tokenize source).tokens).reply.reports.map
      (·.diagnostic (.ofTokens (tokenize source).tokens))).Pairwise Diagnostic.StartsNoLater := by
  have ordered := (Grammar.ordered_query ⟨.ofTokens (tokenize source).tokens, .none⟩).pairwise_first
  refine List.pairwise_map.2 (ordered.imp fun {first second} before => ?_)
  intro label mem label' mem'
  rw [Report.primaryLabels_diagnostic, List.mem_singleton] at mem mem'
  rw [mem, mem']
  show (first.place.span _).start ≤ (second.place.span _).start
  rw [Place.start_span, Place.start_span]
  exact TokenStream.spanAt_start_le source before

/-! ### All diagnostics of a source -/

theorem exists_label_of_mem_parseOutcome {source : String} {diagnostic : Diagnostic}
    (mem : diagnostic ∈ (parseOutcome source).diagnostics) :
    ∃ label, diagnostic.labels = [label] ∧ label.role = .primary ∧ label.span.FitsIn source := by
  rw [diagnostics_parseOutcome] at mem
  rcases List.mem_append.1 mem with lexical | syntactic
  · obtain ⟨label, labels, primary, fits, -⟩ := exists_label_of_mem_tokenize lexical
    exact ⟨label, labels, primary, fits⟩
  · obtain ⟨report, -, rfl⟩ := List.mem_map.1 syntactic
    exact ⟨_, rfl, rfl, fitsIn_place source report.place⟩

/-- A source is rejected for a reason, and the last reason stands for all. -/
theorem getLast?_diagnostics_of_rejected {source : String} {options : ReportOptions}
    {rejection : Rejection} (rejected : parseWith source options = .error rejection) :
    (parseOutcome source).diagnostics.getLast? = some rejection.representative := by
  obtain ⟨fails, -⟩ := parseWith_eq_error_iff.1 rejected
  have last := List.getLast?_isSome.2 (diagnostics_ne_nil_of_not_isSuccess fails)
  rw [Rejection.representative, representative?_of_rejected rejected]
  exact Option.eq_some_of_isSome last ▸ rfl

/-- **Diagnostics come in source order.**  Those of the lexer, whose codes begin with `L`, stand in front
of those of the parser, whose codes begin with `P`.  Each has exactly one primary label.  The labels of
the lexer begin at ever later bytes, and no label of the parser begins in front of the one before it.  So
the diagnostic that stands for a rejection, the last one, is the rightmost of its block. -/
theorem diagnostics_in_source_order (source : String) :
    ∃ lexical syntactic, (parseOutcome source).diagnostics = lexical ++ syntactic ∧
      (∀ diagnostic ∈ lexical, diagnostic.stage? = some 'L') ∧
      (∀ diagnostic ∈ syntactic, diagnostic.stage? = some 'P') ∧
      (∀ diagnostic ∈ lexical ++ syntactic, ∃ label, diagnostic.primaryLabels = [label]) ∧
      lexical.Pairwise Diagnostic.StartsBefore ∧
      syntactic.Pairwise Diagnostic.StartsNoLater ∧
      ∀ options rejection, parseWith source options = .error rejection →
        (parseOutcome source).diagnostics.getLast? = some rejection.representative ∧
        ∀ diagnostic ∈ lexical ++ syntactic, diagnostic.stage? = rejection.representative.stage? →
          diagnostic.StartsNoLater rejection.representative := by
  have whole := diagnostics_parseOutcome source
  generalize shown : (Parser.ofTokens (tokenize source).tokens).reply.reports.map
    (·.diagnostic (.ofTokens (tokenize source).tokens)) = syntactic at whole
  have sorted := pairwise_startsBefore_tokenize source
  have sorted' : syntactic.Pairwise Diagnostic.StartsNoLater := shown ▸ pairwise_startsNoLater_reply source
  have lexer : ∀ diagnostic ∈ (tokenize source).diagnostics, diagnostic.stage? = some 'L' := by
    intro diagnostic mem
    obtain ⟨label, -, -, -, stage⟩ := exists_label_of_mem_tokenize mem
    exact stage
  have parser : ∀ diagnostic ∈ syntactic, diagnostic.stage? = some 'P' := by
    intro diagnostic mem
    rw [← shown] at mem
    obtain ⟨report, -, rfl⟩ := List.mem_map.1 mem
    exact report.stage?_diagnostic _
  have one : ∀ diagnostic ∈ (tokenize source).diagnostics ++ syntactic,
      ∃ label, diagnostic.primaryLabels = [label] := by
    intro diagnostic mem
    rw [← whole] at mem
    obtain ⟨label, labels, primary, -⟩ := exists_label_of_mem_parseOutcome mem
    exact ⟨label, primaryLabels_of_singleton labels primary⟩
  refine ⟨_, syntactic, whole, lexer, parser, one, sorted, sorted', fun options rejection rejected => ?_⟩
  have last := getLast?_diagnostics_of_rejected rejected
  refine ⟨last, fun diagnostic mem stage => ?_⟩
  rw [whole] at last
  -- The last diagnostic is the last one of the parser or, if there is none of those, of the lexer.
  cases syntactic with
  | nil =>
    rw [List.append_nil] at last mem one
    exact Diagnostic.startsNoLater_getLast (sorted.imp (·.startsNoLater)) one last diagnostic mem
  | cons first rest =>
    rw [List.getLast?_append_of_ne_nil _ (List.cons_ne_nil _ _)] at last
    have stage' := parser _ (List.mem_of_getLast? last)
    rcases List.mem_append.1 mem with lexical | syntactic
    · rw [stage', lexer diagnostic lexical] at stage
      exact absurd stage (by decide)
    · exact Diagnostic.startsNoLater_getLast sorted' (fun diagnostic mem => one diagnostic (by simp [mem]))
        last diagnostic syntactic

/-- Two stray characters, and a relation that is missing. -/
def strayCharacters : String := "SELECT ! a FROM # t WHERE"

theorem diagnostics_of_strayCharacters : (parseOutcome strayCharacters).diagnostics.length = 3 ∧
    ∃ rejection, parseWith strayCharacters .default = .error rejection ∧
      ∀ diagnostic ∈ (parseOutcome strayCharacters).diagnostics,
        diagnostic.stage? = rejection.representative.stage? →
          diagnostic.StartsNoLater rejection.representative := by
  have length : (parseOutcome strayCharacters).diagnostics.length = 3 := by decide +kernel
  have fails : (parseWith strayCharacters .default).isOk = false := by decide +kernel
  obtain ⟨lexical, syntactic, whole, -, -, -, -, -, rightmost⟩ :=
    diagnostics_in_source_order strayCharacters
  cases found : parseWith strayCharacters .default with
  | ok parsed => simp [found, Except.isOk, Except.toBool] at fails
  | error rejection =>
    exact ⟨length, rejection, rfl, fun diagnostic mem =>
      (rightmost _ rejection found).2 diagnostic (whole ▸ mem)⟩

/-- **Labels stand at whole characters of the source.**  No label of a diagnostic of a source is
inverted, reaches behind the end, or begins or ends inside a character; so clamping leaves its span alone,
and what is shown of it is the same slice.  And of any label whatsoever, what is shown is ordered and
inside the source, clamping again changes nothing, and the length is that from one end to the other. -/
theorem diagnostic_spans_fit (source : String) :
    (∀ diagnostic ∈ (parseOutcome source).diagnostics, ∀ label ∈ diagnostic.labels,
      label.span.FitsIn source ∧ ∀ name : Option String,
        Source.clamp ⟨source, name⟩ label.span = label.span ∧
        ∃ text, slice? label.span.start label.span.stop source.toList = some text ∧
          slice? (label.view ⟨source, name⟩).offset
            ((label.view ⟨source, name⟩).offset + (label.view ⟨source, name⟩).length) source.toList =
            some text) ∧
    ∀ (diagnostic : Diagnostic) (shown : Source), ∀ label ∈ diagnostic.labels,
      label.view shown ∈ (diagnostic.view shown).labels ∧
      (shown.clamp label.span).start ≤ (shown.clamp label.span).stop ∧
      (shown.clamp label.span).stop ≤ shown.size ∧
      shown.clamp (shown.clamp label.span) = shown.clamp label.span ∧
      (label.view shown).offset = (shown.clamp label.span).start ∧
      (label.view shown).offset + (label.view shown).length = (shown.clamp label.span).stop := by
  constructor
  · intro diagnostic mem label isLabel
    obtain ⟨label', labels, -, fits⟩ := exists_label_of_mem_parseOutcome mem
    rw [labels, List.mem_singleton] at isLabel
    subst isLabel
    refine ⟨fits, fun name => ?_⟩
    have clamped : Source.clamp ⟨source, name⟩ label.span = label.span :=
      Span.clamp_of_valid fits.ordered fits.inside
    obtain ⟨text, slice⟩ := fits.exists_slice
    refine ⟨clamped, text, slice, ?_⟩
    have stop : label.span.start + label.span.length = label.span.stop := by
      have := fits.ordered
      unfold Span.length
      omega
    simp only [Label.view, clamped, stop, slice]
  · intro diagnostic shown label mem
    have ordered := label.span.clamp_ordered shown.size
    refine ⟨List.mem_map_of_mem mem, ordered, label.span.clamp_stop_le _, label.span.clamp_clamp _, rfl, ?_⟩
    show (label.span.clamp shown.size).start + (label.span.clamp shown.size).length = _
    unfold Span.length Source.clamp
    omega

end Cql
