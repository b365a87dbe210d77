/-
How a batch recovers from a broken part.

A part is read no further than its semicolon.  If that goes wrong, or if tokens of the part are left
over, something is reported at one of its tokens, and what follows is skipped up to the next part that
begins like a statement.  So each part comes out as at most one statement, and one that is accepted
alone is always kept.

* `BatchPart.Keeps`, `BatchPart.IsBroken`, `BatchPart.IsReported` — what becomes of a part;
* `BatchPart.Recovered` — what becomes of parts in a row;
* `BatchPart.exists_reads_skip` — where skipping ends;
* `BatchPart.ensures_part` — what is read of one part;
* `BatchPart.ensures_batchItems` — **the parts of a batch are read up to its end**, each for itself.
-/
import Cql.Proofs.BatchParts
import Cql.Proofs.Explanations
import Cql.Proofs.Guarantees
import Cql.Proofs.OrderedRules

namespace Cql

/-! ### Tokens that are skipped -/

theorem TokenKind.isBatchBoundary_iff {kind : TokenKind} :
    kind.isBatchBoundary = true ↔ Grammar.beginsChange kind ∨ kind = .keyword .APPLY := by
  unfold isBatchBoundary Grammar.beginsChange
  split
  all_goals simp_all

theorem Grammar.isSome_modificationAfter?_iff {kind : TokenKind} :
    (modificationAfter? kind).isSome = true ↔ beginsChange kind := by
  unfold modificationAfter? beginsChange
  split
  all_goals simp_all

/-- A token that is skipped where a batch recovers. -/
def Token.IsSkipped (token : Token) : Prop :=
  token.kind.isBatchBoundary = false ∧ token.kind ≠ .endOfInput

namespace Token.IsSkipped

variable {token : Token}

theorem of_semicolon (h : token.kind = .punctuation .semicolon) : token.IsSkipped := by
  rw [IsSkipped, h]
  decide

/-- A token that is skipped begins no statement. -/
theorem modificationAfter? (h : token.IsSkipped) : Grammar.modificationAfter? token.kind = none := by
  refine Option.not_isSome_iff_eq_none.1 fun begins => ?_
  have boundary : token.kind.isBatchBoundary = true :=
    TokenKind.isBatchBoundary_iff.2 (.inl (Grammar.isSome_modificationAfter?_iff.1 begins))
  exact absurd (h.1.symm.trans boundary) (by decide)

end Token.IsSkipped

namespace Grammar

/-- Any token but those at which a batch recovers. -/
def isPassedOver (kind : TokenKind) : Bool := !kind.isBatchBoundary

theorem takes_skipToBoundary : (Rule.skipUntil TokenKind.isBatchBoundary).TakesOnly isPassedOver :=
  .skipUntil fun kind goesOn _ => by rw [isPassedOver, goesOn]; rfl

/-- What is left of a broken statement is skipped in front of the next one. -/
theorem takes_skipModification : skipModification.TakesOnly isPassedOver := by
  intro state
  unfold skipModification
  rw [Rule.takesOnlyAt_kind_bind]
  cases boundary : state.kind.isBatchBoundary with
  | true => exact takes_skipToBoundary state
  | false => exact Rule.takesOnlyAt_advance_bind (by rw [isPassedOver, boundary]; rfl) takes_skipToBoundary

theorem takes_stray (opening : TokenKind) (unknown : modificationAfter? opening = none) :
    (batchItem opening).TakesOnly isPassedOver := by
  unfold batchItem
  rw [unknown]
  exact .bind (fun state => .refl state) fun _ => (Rule.TakesOnly.report _ _).bind fun _ =>
    takes_skipToBoundary.bind fun _ => .pure _

/-- Any token but the keyword that ends a batch. -/
def isBeforeApply (kind : TokenKind) : Bool := kind ≠ .keyword .APPLY

theorem isBeforeApply_of_isInPart {kind : TokenKind} (h : kind.isInPart = true) :
    isBeforeApply kind = true :=
  decide_eq_true (TokenKind.isInPart_iff.1 h).2.1

theorem isBeforeApply_of_isPassedOver {kind : TokenKind} (h : isPassedOver kind = true) :
    isBeforeApply kind = true := by
  refine decide_eq_true ?_
  rintro rfl
  cases h

theorem takes_batchItem (opening : TokenKind) : (batchItem opening).TakesOnly isBeforeApply := by
  cases known : modificationAfter? opening with
  | none => exact (takes_stray opening known).mono fun _ => isBeforeApply_of_isPassedOver
  | some rule =>
    have inPart := (takes_modificationAfter known).mono fun _ => isBeforeApply_of_isInPart
    unfold batchItem
    rw [known]
    refine (Rule.TakesOnly.attempt inPart).bind fun result => ?_
    cases result with
    | some modification => exact (Rule.TakesOnly.eatKind rfl).bind fun _ => .pure _
    | none =>
      exact (takes_skipModification.mono fun _ => isBeforeApply_of_isPassedOver).bind fun _ => .pure _

end Grammar

/-- The statements of a batch and what is between them. -/
def Grammar.batchItems : Rule (List (Option Modification)) :=
  .many opensItem (fun _ => true) fun opening => batchItem opening.kind

theorem Grammar.opensItem_of_isInPart {kind : TokenKind} (inside : kind.isInPart = true) :
    opensItem kind = true := by
  obtain ⟨-, notApply, notEnd⟩ := TokenKind.isInPart_iff.1 inside
  simp [opensItem, notApply, notEnd]

namespace BatchPart

variable {part : BatchPart} {parts : List BatchPart}

/-- Inside a part, a token is skipped unless it begins a statement. -/
theorem isSkipped_of_inside {token : Token} (inside : token.kind.isInPart = true)
    (later : ¬ Grammar.beginsChange token.kind) : token.IsSkipped := by
  obtain ⟨-, notApply, notEnd⟩ := TokenKind.isInPart_iff.1 inside
  refine ⟨Bool.eq_false_iff.2 fun boundary => ?_, notEnd⟩
  rcases TokenKind.isBatchBoundary_iff.1 boundary with begins | applies
  · exact later begins
  · exact notApply applies

theorem isSkipped_of_mem_more {token : Token} (mem : token ∈ part.more) : token.IsSkipped :=
  isSkipped_of_inside (part.more_inside token mem).1 (part.more_inside token mem).2

/-- Where tokens of a part are skipped, its semicolon is as well. -/
theorem isSkipped_of_mem_concat {front : List Token} (skipped : ∀ token ∈ front, token.IsSkipped) :
    ∀ token ∈ front ++ [part.semicolon], token.IsSkipped := by
  intro token mem
  rcases List.mem_append.1 mem with mem | mem
  · exact skipped token mem
  · obtain rfl := List.mem_singleton.1 mem
    exact .of_semicolon part.ends

/-- What is left over of a part is skipped. -/
theorem isSkipped_of_leftOver {left : List Token} (inMore : ∀ token ∈ left, token ∈ part.more) :
    ∀ token ∈ left ++ [part.semicolon], token.IsSkipped :=
  isSkipped_of_mem_concat fun token mem => isSkipped_of_mem_more (inMore token mem)

/-- A part that does not begin like a statement is skipped. -/
theorem isSkipped_of_mem_tokens (h : part.changes = false) :
    ∀ token ∈ part.tokens, token.IsSkipped := by
  refine isSkipped_of_mem_concat fun token mem => ?_
  rcases List.mem_cons.1 mem with rfl | mem
  · exact isSkipped_of_inside part.first_inside (of_decide_eq_false h)
  · exact isSkipped_of_mem_more mem

@[simp] theorem text_cons : text (part :: parts) = part.tokens ++ text parts := rfl

@[simp] theorem text_append (parts' : List BatchPart) :
    text (parts ++ parts') = text parts ++ text parts' :=
  List.flatMap_append

/-! ### What becomes of a part -/

/-- If the part is accepted alone, an equal statement is kept of it. -/
def Keeps (part : BatchPart) (result : Option Modification) : Prop :=
  ∀ alone, part.IsAlone alone → ∃ kept, result = some kept ∧ (kept == alone) = true

/-- The part begins like a statement, but is none. -/
def IsBroken (part : BatchPart) : Prop := part.changes = true ∧ ∀ alone, ¬ part.IsAlone alone

/-- Something is reported at a token of the part, which begins with the token number `start`, or at its
semicolon. -/
def IsReported (part : BatchPart) (reports : List Report) (start : Nat) : Prop :=
  ∃ report ∈ reports, report.place.Between start (start + part.body.length)

theorem IsReported.mono {reports reports' : List Report} {start : Nat}
    (h : part.IsReported reports start) (more : ∀ report ∈ reports, report ∈ reports') :
    part.IsReported reports' start := by
  obtain ⟨report, mem, between⟩ := h
  exact ⟨report, more report mem, between⟩

/-- Of a part that does not begin like a statement nothing needs to be kept. -/
theorem keeps_of_not_changes (h : part.changes = false) (result : Option Modification) :
    part.Keeps result :=
  fun _ alone => absurd (h.symm.trans alone.changes) (by decide)

theorem not_isBroken_of_not_changes (h : part.changes = false) : ¬ part.IsBroken :=
  fun broken => absurd (h.symm.trans broken.1) (by decide)

/-- What becomes of parts, of which the first one begins with the token number `start`. -/
inductive Recovered (reports : List Report) : Nat → List BatchPart → List (Option Modification) → Prop
  | nil {start : Nat} : Recovered reports start [] []
  | cons {start : Nat} {part : BatchPart} {parts : List BatchPart} {result : Option Modification}
      {results : List (Option Modification)} (kept : part.Keeps result)
      (reported : part.IsBroken → part.IsReported reports start)
      (others : Recovered reports (start + part.tokens.length) parts results) :
      Recovered reports start (part :: parts) (result :: results)

namespace Recovered

variable {reports reports' : List Report} {start : Nat} {results : List (Option Modification)}

theorem mono (h : Recovered reports start parts results) (more : ∀ report ∈ reports, report ∈ reports') :
    Recovered reports' start parts results := by
  induction h with
  | nil => exact .nil
  | cons kept reported others ih => exact .cons kept (fun broken => (reported broken).mono more) ih

/-- Parts that do not begin like statements can be lost. -/
theorem skip {skipped : List BatchPart} (none : ∀ part ∈ skipped, part.changes = false)
    (h : Recovered reports (start + (text skipped).length) parts results) :
    ∃ results', Recovered reports start (skipped ++ parts) results' ∧
      results'.filterMap id = results.filterMap id := by
  induction skipped generalizing start with
  | nil => exact ⟨results, h, rfl⟩
  | cons part skipped ih =>
    have lost : part.changes = false := none part List.mem_cons_self
    rw [text_cons, List.length_append, ← Nat.add_assoc] at h
    obtain ⟨results', others, same⟩ := ih (fun part mem => none part (List.mem_cons_of_mem _ mem)) h
    refine ⟨.none :: results', .cons (keeps_of_not_changes lost _) (fun broken => ?_) others, same⟩
    exact absurd broken (not_isBroken_of_not_changes lost)

theorem forall₂_keeps (h : Recovered reports start parts results) :
    List.Forall₂ Keeps parts results := by
  induction h with
  | nil => exact .nil
  | cons kept reported others ih => exact .cons kept ih

theorem isReported (h : Recovered reports start parts results) {before after : List BatchPart}
    (cut : parts = before ++ part :: after) (broken : part.IsBroken) :
    part.IsReported reports (start + (text before).length) := by
  induction before generalizing start parts results with
  | nil =>
    subst cut
    cases h with
    | cons kept reported others => exact reported broken
  | cons first before ih =>
    subst cut
    cases h with
    | cons kept reported others =>
      have found := ih others rfl
      rwa [Nat.add_assoc, ← List.length_append, ← text_cons] at found

end Recovered

/-- What is guaranteed of the items read of a batch: they are what becomes of the parts, and `rest` is
left.  Items and parts do not match one by one.  What is left over of a part is an item of its own, and a
part that is skipped is none; but neither gives a statement. -/
def ReadsTo (rest : List Token) (start : Nat) (parts : List BatchPart)
    (items : List (Option Modification)) (after : State) (reports : List Report) : Prop :=
  after.stream.ahead = rest ∧
    ∃ results, Recovered reports start parts results ∧ results.filterMap id = items.filterMap id

theorem ReadsTo.cons {start : Nat} {rest : List Token} {item : Option Modification}
    {items : List (Option Modification)} {after : State} {reports reports' : List Report}
    (h : ReadsTo rest (start + part.tokens.length) parts items after reports') (keeps : part.Keeps item)
    (reported : part.IsBroken → part.IsReported (reports ++ reports') start) :
    ReadsTo rest start (part :: parts) (item :: items) after (reports ++ reports') := by
  obtain ⟨atEnd, results, recovered, same⟩ := h
  have recovered' := recovered.mono fun report mem => List.mem_append_right reports mem
  refine ⟨atEnd, item :: results, .cons keeps reported recovered', ?_⟩
  cases item with
  | none => exact same
  | some kept => exact congrArg (kept :: ·) same

/-! ### One part -/

/-- The state is in front of some of the parts, up to the end of the batch; those in front of it do not
begin like statements. -/
def IsAhead (parts : List BatchPart) (rest : List Token) (state : State) : Prop :=
  ∃ skipped others, parts = skipped ++ others ∧ (∀ part ∈ skipped, part.changes = false) ∧
    state.stream.ahead = text others ++ rest

section

variable {state : State} {rule : Rule Modification} {left rest : List Token}
  (ahead : state.stream.ahead = part.tokens ++ rest)
  (known : Grammar.modificationAfter? part.first.kind = some rule)
include ahead known

/-- Whatever is made of what is read of a part, nothing is lost if it is accepted alone. -/
theorem keeps_of_result {result : Option Modification}
    (h : ∀ found, (rule.run state.advance).result = .ok found → result = some found) :
    part.Keeps result := by
  intro alone isAlone
  obtain ⟨rule', kept, after, known', reads, -, same⟩ := isAlone.reads ahead
  obtain rfl := Option.some.inj (known.symm.trans known')
  exact ⟨kept, h kept (Rule.reads_iff.1 reads).1, same⟩

/-- Without a report a part that is read to its end would be accepted alone. -/
theorem reports_ne_nil_of_isBroken (broken : part.IsBroken) {found : Modification}
    (result : (rule.run state.advance).result = .ok found)
    (atEnd : (rule.run state.advance).state.stream.ahead = part.semicolon :: rest) :
    (rule.run state.advance).reports ≠ [] := by
  intro silent
  have reads := Rule.reads_iff.2 ⟨result, rfl, silent⟩
  obtain ⟨alone, isAlone, -⟩ := isAlone_of_reads ahead known reads atEnd
  exact broken.2 alone isAlone

/-- What is reported while a part is read is reported in the part. -/
theorem isReported_of_reports
    (atLeft : (rule.run state.advance).state.stream.ahead = left ++ [part.semicolon] ++ rest)
    (some : (rule.run state.advance).reports ≠ []) :
    part.IsReported (rule.run state.advance).reports state.stream.position := by
  obtain ⟨report, mem⟩ := List.exists_mem_of_ne_nil _ some
  refine ⟨report, mem, ?_⟩
  have between := (Grammar.ordered_modificationAfter known state.advance).between report mem
  refine between.mono (State.position_le_advance state) ?_
  have moved := (State.takes_kept.advance state).position_add_length
  have moved' := (rule.run_takes state.advance).position_add_length
  rw [moved, ahead, atLeft] at moved'
  simp only [tokens, List.length_append, List.length_singleton] at moved'
  omega

end

section

variable {state : State} {apply : Token} {rest : List Token} (ends : apply.kind = .keyword .APPLY)
include ends

/-- Skipping from inside a part leads to a part that begins like a statement, or to the end of the
batch. -/
theorem exists_reads_skip {front : List Token} (skipped : ∀ token ∈ front, token.IsSkipped)
    (ahead : state.stream.ahead = front ++ (text parts ++ apply :: rest)) :
    ∃ after, (Rule.skipUntil TokenKind.isBatchBoundary).Reads state () after ∧
      IsAhead parts (apply :: rest) after := by
  -- A part that does not begin like a statement is skipped as well, so what is skipped grows with it.
  induction parts generalizing front with
  | nil =>
    have stop : apply.kind.isBatchBoundary = true := TokenKind.isBatchBoundary_iff.2 (.inr ends)
    obtain ⟨after, reads, atEnd⟩ := Rule.exists_reads_skipUntil ahead skipped stop
    exact ⟨after, reads, [], [], rfl, by simp, atEnd⟩
  | cons part parts ih =>
    cases changes : part.changes with
    | true =>
      have begins : part.first.kind.isBatchBoundary = true :=
        TokenKind.isBatchBoundary_iff.2 (.inl (of_decide_eq_true changes))
      obtain ⟨after, reads, atPart⟩ := Rule.exists_reads_skipUntil ahead skipped begins
      exact ⟨after, reads, [], part :: parts, rfl, by simp, atPart⟩
    | false =>
      rw [text_cons, List.append_assoc, ← List.append_assoc] at ahead
      obtain ⟨after, reads, before, others, rfl, none, atPart⟩ := ih (fun token mem => by
        rcases List.mem_append.1 mem with mem | mem
        · exact skipped token mem
        · exact isSkipped_of_mem_tokens changes token mem) ahead
      refine ⟨after, reads, part :: before, others, rfl, ?_, atPart⟩
      rintro other (_ | ⟨_, mem⟩)
      · exact changes
      · exact none other mem

/-- What cannot stand in a batch is reported and skipped. -/
theorem ensures_stray {token : Token} {front : List Token}
    (skipped : ∀ other ∈ token :: front, other.IsSkipped)
    (ahead : state.stream.ahead = token :: (front ++ (text parts ++ apply :: rest))) :
    (Grammar.batchItem token.kind).Ensures state.advance fun item after reports =>
      item = none ∧ IsAhead parts (apply :: rest) after ∧
        ∃ report ∈ reports, report.place = .token state.stream.position := by
  obtain ⟨after, reads, atPart⟩ := exists_reads_skip ends
    (fun other mem => skipped other (List.mem_cons_of_mem _ mem)) (State.ahead_advance ahead)
  unfold Grammar.batchItem
  rw [(skipped token List.mem_cons_self).modificationAfter?]
  refine .position_bind (.bind (.report ?_))
  refine .bind_reads reads (.pure ⟨rfl, atPart, _, List.mem_singleton_self _, ?_⟩)
  rw [State.position_advance ahead, Nat.add_sub_cancel]

/-- What is left of a broken statement is skipped, its semicolon at least. -/
theorem exists_reads_skipModification {front : List Token} (nonempty : front ≠ [])
    (skipped : ∀ token ∈ front, token.IsSkipped)
    (ahead : state.stream.ahead = front ++ (text parts ++ apply :: rest)) :
    ∃ after, Grammar.skipModification.Reads state () after ∧ IsAhead parts (apply :: rest) after := by
  obtain ⟨token, front, rfl⟩ := List.exists_cons_of_ne_nil nonempty
  obtain ⟨after, reads, atPart⟩ := exists_reads_skip ends
    (fun other mem => skipped other (List.mem_cons_of_mem _ mem)) (State.ahead_advance ahead)
  refine ⟨after, ?_, atPart⟩
  have current : state.kind.isBatchBoundary = false := by
    rw [State.kind_of_ahead ahead]
    exact (skipped token List.mem_cons_self).1
  unfold Grammar.skipModification
  rw [Rule.reads_kind_bind, if_pos (by rw [current]; rfl)]
  exact Rule.reads_advance_bind.2 reads

/-- A part either is left behind, with a report if it is broken, or some tokens of it are left over in
front of its semicolon. -/
theorem ensures_part (ahead : state.stream.ahead = part.tokens ++ (text parts ++ apply :: rest)) :
    (Grammar.batchItem part.first.kind).Ensures state.advance fun item after reports =>
      part.Keeps item ∧ (IsAhead parts (apply :: rest) after ∧
          (part.IsBroken → part.IsReported reports state.stream.position) ∨
        ∃ token left, (∀ other ∈ token :: left, other ∈ part.more) ∧ after.stream.ahead =
          token :: (left ++ [part.semicolon] ++ (text parts ++ apply :: rest))) := by
  cases changes : part.changes with
  | false =>
    have ahead' : state.stream.ahead =
        part.first :: (part.more ++ [part.semicolon] ++ (text parts ++ apply :: rest)) := ahead
    refine (ensures_stray ends (isSkipped_of_mem_tokens changes) ahead').mono ?_
    rintro item after reports ⟨-, atPart, -⟩
    refine ⟨keeps_of_not_changes changes item, .inl ⟨atPart, fun broken => ?_⟩⟩
    exact absurd broken (not_isBroken_of_not_changes changes)
  | true =>
    obtain ⟨rule, known⟩ := Option.isSome_iff_exists.1
      (Grammar.isSome_modificationAfter?_iff.2 (of_decide_eq_true changes))
    obtain ⟨taken, left, cut, atLeft⟩ := exists_rest ahead known
    rw [← List.singleton_append, ← List.append_assoc] at atLeft
    have inMore : ∀ token ∈ left, token ∈ part.more := fun token mem => by
      rw [cut]
      exact List.mem_append_right _ mem
    have reported := isReported_of_reports ahead known atLeft
    unfold Grammar.batchItem
    rw [known]
    refine .bind (.attempt (fun found result => ?_) fun result => ?_)
    · -- A statement was read, to the semicolon or with tokens left over.
      have keeps : part.Keeps (some found) := keeps_of_result ahead known fun other result' =>
        congrArg some (Except.ok.inj (result.symm.trans result'))
      cases left with
      | nil =>
        have current := (State.kind_of_ahead atLeft).trans part.ends
        have eats := Rule.reads_eatKind.2 (.inl ⟨current, rfl, rfl⟩)
        refine .bind_reads eats (.pure ⟨keeps, .inl ⟨?_, fun broken => ?_⟩⟩)
        · exact ⟨[], parts, rfl, by simp, State.ahead_advance atLeft⟩
        · rw [List.append_nil]
          exact reported (reports_ne_nil_of_isBroken ahead known broken result atLeft)
      | cons token left =>
        have other : (rule.run state.advance).state.kind ≠ .punctuation .semicolon := by
          rw [State.kind_of_ahead atLeft]
          exact (TokenKind.isInPart_iff.1 (part.more_inside _ (inMore token List.mem_cons_self)).1).1
        have eats := Rule.reads_eatKind.2 (.inr ⟨other, rfl, rfl⟩)
        exact .bind_reads eats (.pure ⟨keeps, .inr ⟨token, left, inMore, atLeft⟩⟩)
    · -- The statement broke off, which was reported, and the rest of the part is skipped.
      have keeps : part.Keeps none := keeps_of_result ahead known fun other result' =>
        absurd (result.symm.trans result') (by simp)
      have skipped := isSkipped_of_leftOver inMore
      obtain ⟨after, reads, atPart⟩ := exists_reads_skipModification ends (by simp) skipped atLeft
      refine .bind_reads reads (.pure ⟨keeps, .inl ⟨atPart, fun _ => ?_⟩⟩)
      rw [List.append_nil]
      exact reported (Rule.reports_ne_nil result)

/-! ### All parts -/

/-- The parts of a batch are read up to the keyword that ends it. -/
theorem ensures_batchItems {start : Nat} (atParts : IsAhead parts (apply :: rest) state)
    (placed : state.stream.position + state.stream.ahead.length =
      start + (text parts ++ apply :: rest).length) :
    Grammar.batchItems.Ensures state (ReadsTo (apply :: rest) start parts) := by
  -- An item takes the first of the parts at least, so the induction is on how many there are.
  generalize bound : parts.length = n
  induction n using Nat.strongRecOn generalizing state start parts with
  | ind n ih =>
    obtain ⟨skipped, others, rfl, none, ahead⟩ := atParts
    rw [ahead, text_append] at placed
    have position : state.stream.position = start + (text skipped).length := by
      simp only [List.length_append] at placed
      omega
    suffices found : Grammar.batchItems.Ensures state
        (ReadsTo (apply :: rest) (start + (text skipped).length) others) by
      refine found.mono fun items after reports ⟨atEnd, results, recovered, same⟩ => ?_
      obtain ⟨results', recovered', same'⟩ := recovered.skip none
      exact ⟨atEnd, results', recovered', same'.trans same⟩
    cases others with
    | nil => exact .many_nil ahead (by rw [ends]; decide) ⟨ahead, [], .nil, rfl⟩
    | cons part others =>
      rw [← position]
      rw [text_cons, List.append_assoc] at ahead
      have shorter : others.length < n := by
        simp only [List.length_append, List.length_cons] at bound
        omega
      -- The tokens ahead tell the number of the current one, whatever has been read or skipped.
      have total : ∀ {mid : State}, state.advance.Takes mid →
          mid.stream.position + mid.stream.ahead.length =
            state.stream.position + part.tokens.length + (text others ++ apply :: rest).length := by
        intro mid takes
        rw [takes.position_add_length, (State.takes_kept.advance state).position_add_length, ahead]
        simp [Nat.add_assoc]
      have opened := Grammar.opensItem_of_isInPart part.first_inside
      refine .many_cons ahead opened ((ensures_part ends ahead).with_takes.mono ?_)
      rintro item mid reports ⟨takes, keeps, ⟨atPart, reported⟩ | ⟨token, left, inMore, atLeft⟩⟩
      · refine (ih _ shorter atPart (total takes) rfl).mono fun items after reports' reads => ?_
        exact reads.cons keeps fun broken =>
          (reported broken).mono fun report mem => List.mem_append_left _ mem
      · -- What is left over is reported at its first token, and skipped.
        have skipped := isSkipped_of_leftOver inMore
        have inside := (part.more_inside token (inMore token List.mem_cons_self)).1
        have opened' := Grammar.opensItem_of_isInPart inside
        refine .many_cons atLeft opened' ((ensures_stray ends skipped atLeft).with_takes.mono ?_)
        rintro _ mid' reports' ⟨takes', rfl, atPart, report, mem, place⟩
        have takes'' := State.takes_kept.trans (State.takes_kept.advance mid) takes'
        have placed' := total (State.takes_kept.trans takes takes'')
        refine (ih _ shorter atPart placed' rfl).mono fun items after reports'' reads => ?_
        obtain ⟨atEnd, results, recovered, same⟩ := reads
        have recovered' := recovered.mono fun report mem => List.mem_append_right reports' mem
        refine ReadsTo.cons ⟨atEnd, results, recovered', same⟩ keeps fun _ => ⟨report, ?_, ?_⟩
        · exact List.mem_append_right _ (List.mem_append_left _ mem)
        · have behind := (State.takes_kept.trans (State.takes_kept.advance state) takes).position_le
          have before := total takes
          rw [atLeft] at before
          simp only [tokens, List.length_append, List.length_cons, List.length_nil] at before
          have inFront : mid.stream.position ≤ state.stream.position + part.body.length := by omega
          rw [place]
          exact ⟨behind, Nat.le_refl _, inFront⟩

end

end BatchPart

end Cql
