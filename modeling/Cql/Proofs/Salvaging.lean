/-
Lists of which a part may be salvaged, and lists that may end with a separator.

A rule that salvages what it read before a fault has reported the fault.  So where nothing is reported
it has read the whole list, like a rule that salvages nothing.

* `Phrase.manyThen` — stretches in a row that may end in a way of their own;
* `Rule.Recognizes.salvaged`, `Rule.Recognizes.closed`, `Rule.Recognizes.restoring` — rules that
  salvage;
* `Rule.Recognizes.followingUnless` — lists that may end with a separator.
-/
import Cql.Proofs.Recognition

namespace Cql

/-- All of it could be read. -/
def Salvage.whole {α : Type} (as : List α) : Salvage α := ⟨as, true⟩

namespace Phrase

variable {α β : Type}

/-- Any number of stretches in a row, and how they may end. -/
inductive manyThen (phrase : Phrase α) (ending : Phrase (List α)) : Phrase (List α)
  | ends {items : List Numbered} {as : List α} (last : ending items as) :
      manyThen phrase ending items as
  | more {front rest : List Numbered} {a : α} {as : List α} (first : phrase front a)
      (others : manyThen phrase ending rest as) : manyThen phrase ending (front ++ rest) (a :: as)

/-- An optional separator behind the last item, with nothing after it. -/
def trailing (separator : Phrase Unit) (missing : α) : Phrase (List α) :=
  (do
    separator
    return [missing]) <|>
  pure []

theorem Opens.manyThen {phrase : Phrase α} {ending : Phrase (List α)}
    {follow good : TokenKind → Prop} (first : phrase.Opens anything good)
    (last : ending.Opens follow good) : (manyThen phrase ending).Opens follow good := by
  intro items as next spelled follows
  cases spelled with
  | ends ended => exact last items as next ended follows
  | @more front rest a as spelled others =>
    rw [opening_append]
    exact first front a _ spelled trivial

theorem manyThen_map (phrase : Phrase α) (ending : Phrase (List α)) (f : α → β) :
    manyThen (f <$> phrase) (List.map f <$> ending) = List.map f <$> manyThen phrase ending := by
  ext items bs
  rw [map_iff]
  constructor
  · intro h
    induction h with
    | ends last =>
      obtain ⟨as, spelled, rfl⟩ := map_iff.1 last
      exact ⟨as, .ends spelled, rfl⟩
    | more first others ih =>
      obtain ⟨a, spelled, rfl⟩ := map_iff.1 first
      obtain ⟨as, spelled', rfl⟩ := ih
      exact ⟨a :: as, .more spelled spelled', rfl⟩
  · rintro ⟨as, h, rfl⟩
    induction h with
    | ends last => exact .ends (map_iff.2 ⟨_, last, rfl⟩)
    | more first others ih => exact .more (map_iff.2 ⟨_, first, rfl⟩) ih

theorem trailing_map (separator : Phrase Unit) (missing : α) (f : α → β) :
    List.map f <$> trailing separator missing = trailing separator (f missing) := by
  simp only [trailing, map_orElse, map_bind, map_pure, List.map_cons, List.map_nil]

/-- What is there may be missing behind. -/
theorem isSome_dropLast_cons {a : α} {slots : List (Option α)} :
    (∀ slot ∈ (some a :: slots).dropLast, slot.isSome) ↔ ∀ slot ∈ slots.dropLast, slot.isSome := by
  cases slots with
  | nil => simp
  | cons next slots =>
    rw [List.dropLast_cons_cons, List.forall_mem_cons]
    exact and_iff_right rfl

/-- After each separator something may be missing.  Where nothing is missing but behind the last
separator, something stands behind each but perhaps the last. -/
theorem many_optional_iff {separator : Phrase Unit} {phrase : Phrase α} {items : List Numbered}
    {slots : List (Option α)} :
    (many (do separator; (some <$> phrase) <|> pure none) items slots ∧
      ∀ slot ∈ slots.dropLast, slot.isSome) ↔
      manyThen (do separator; some <$> phrase) (trailing separator none) items slots := by
  constructor
  · rintro ⟨listed, gapless⟩
    induction listed with
    | none => exact .ends (.inr ⟨rfl, rfl⟩)
    | @more front rest slot slots first others ih =>
      obtain ⟨separates, u, middle, rfl, first, stands | ⟨rfl, rfl⟩⟩ := first
      · have entry : (do separator; some <$> phrase) (separates ++ middle) slot :=
          ⟨separates, u, middle, rfl, first, stands⟩
        obtain ⟨a, -, rfl⟩ := map_iff.1 stands
        exact .more entry (ih (isSome_dropLast_cons.1 gapless))
      · -- What is missing is the last.
        cases others with
        | none => exact .ends (.inl ⟨separates, u, [], by simp, first, rfl, rfl⟩)
        | more next others' => exact absurd (gapless none (List.mem_cons_self ..)) (by simp)
  · intro h
    induction h with
    | ends last =>
      rcases last with ⟨separates, u, _, rfl, first, rfl, rfl⟩ | ⟨rfl, rfl⟩
      · have entry : (do separator; (some <$> phrase) <|> pure none) separates none :=
          ⟨separates, u, [], by simp, first, .inr ⟨rfl, rfl⟩⟩
        have listed := many.more entry .none
        rw [List.append_nil] at listed ⊢
        exact ⟨listed, by simp⟩
      · exact ⟨.none, by simp⟩
    | @more front rest slot slots first others ih =>
      obtain ⟨separates, u, middle, rfl, first, stands⟩ := first
      obtain ⟨listed, gapless⟩ := ih
      refine ⟨.more ⟨separates, u, middle, rfl, first, .inl stands⟩ listed, ?_⟩
      obtain ⟨a, -, rfl⟩ := map_iff.1 stands
      exact isSome_dropLast_cons.2 gapless

end Phrase

namespace Rule

open Phrase

variable {α β : Type} {state after : State}

/-! ### Salvaging

What breaks off has reported why, so where nothing is reported the whole has been read. -/

theorem readsMany_attempt {opens : TokenKind → Bool} {item : Rule α} {results : List (Option α)} :
    ReadsMany opens Option.isSome (fun _ => attempt item) state results after ↔
      ∃ as, results = as.map some ∧
        ReadsMany opens (fun _ => true) (fun _ => item) state as after :=
  readsMany_some reads_attempt fun _ => rfl

theorem reads_salvagedAfterComma {item : Rule α} {result : Salvage α} :
    (salvagedAfterComma item).Reads state result after ↔
      ∃ as, (following (.punctuation .comma) item).Reads state as after ∧
        result = Salvage.whole as := by
  unfold salvagedAfterComma following
  simp only [reads_bind, reads_many, reads_pure, readsMany_attempt]
  constructor
  · rintro ⟨_, mid, ⟨as, rfl, others⟩, rfl, rfl⟩
    exact ⟨as, others, by simp [Salvage.whole]⟩
  · rintro ⟨as, others, rfl⟩
    exact ⟨as.map some, after, ⟨as, rfl, others⟩, by simp [Salvage.whole], rfl⟩

theorem reads_salvaged {item : Rule α} {result : Salvage α} :
    (salvaged item).Reads state result after ↔
      ∃ as, (commaSeparated item).Reads state as after ∧ result = Salvage.whole as := by
  unfold salvaged commaSeparated separated
  simp only [reads_bind, reads_pure]
  constructor
  · rintro ⟨_, mid, first, second⟩
    obtain ⟨a, rfl, reads⟩ := reads_attempt.1 first
    obtain ⟨rest, mid', others, last⟩ := reads_bind.1 second
    obtain ⟨rfl, rfl⟩ := reads_pure.1 last
    obtain ⟨as, listed, rfl⟩ := reads_salvagedAfterComma.1 others
    exact ⟨a :: as, ⟨a, mid, reads, as, _, listed, rfl, rfl⟩, rfl⟩
  · rintro ⟨_, ⟨a, mid, reads, as, mid', others, rfl, same⟩, rfl⟩
    subst same
    refine ⟨some a, mid, reads_attempt.2 ⟨a, rfl, reads⟩, ?_⟩
    exact reads_bind.2 ⟨.whole as, _, reads_salvagedAfterComma.2 ⟨as, others, rfl⟩,
      reads_pure.2 ⟨rfl, rfl⟩⟩

/-- A list that is salvaged whole is closed by a token that must be there. -/
theorem reads_closed {list : Rule (Salvage α)} {close : Rule Unit} {result : Salvage α}
    (whole : ∀ mid items, list.Reads state items mid → items.complete = true) :
    (closed list close).Reads state result after ↔
      ∃ mid, list.Reads state result mid ∧ close.Reads mid () after := by
  unfold closed
  rw [reads_bind]
  constructor
  · rintro ⟨items, mid, first, second⟩
    have complete : items.complete = true := whole mid items first
    rw [if_pos complete] at second
    obtain ⟨_, mid', closes, last⟩ := reads_bind.1 second
    obtain ⟨u, rfl, closed⟩ := reads_attempt.1 closes
    obtain ⟨rfl, rfl⟩ := reads_pure.1 last
    have same : items = ⟨items.kept, true⟩ := by rw [← complete]
    rw [same] at first
    exact ⟨mid, first, closed⟩
  · rintro ⟨mid, first, closes⟩
    have complete : result.complete = true := whole mid result first
    refine ⟨result, mid, first, ?_⟩
    rw [if_pos complete]
    refine reads_bind.2 ⟨some (), after, reads_attempt.2 ⟨(), rfl, closes⟩, reads_pure.2 ⟨?_, rfl⟩⟩
    show result = ⟨result.kept, true⟩
    rw [← complete]

/-- What is read whole needs no restoring. -/
theorem reads_restoring {stops : TokenKind → Bool} {item : Rule (Salvage α)} {as : List α}
    (whole : ∀ mid items, item.Reads state items mid → items.complete = true) :
    (restoring stops item).Reads state as after ↔ item.Reads state (Salvage.whole as) after := by
  unfold restoring
  rw [reads_bind]
  constructor
  · rintro ⟨_, mid, first, second⟩
    obtain ⟨items, rfl, reads⟩ := reads_attempt.1 first
    have complete : items.complete = true := whole mid items reads
    have kept : as = items.kept ∧ after = mid := by
      simpa [complete, reads_pure] using second
    obtain ⟨rfl, rfl⟩ := kept
    have same : items = Salvage.whole items.kept := by rw [Salvage.whole, ← complete]
    rwa [← same]
  · intro reads
    refine ⟨some (Salvage.whole as), after, reads_attempt.2 ⟨_, rfl, reads⟩, ?_⟩
    simp [Salvage.whole, reads_pure]

namespace Recognizes

variable {follow follow' : TokenKind → Prop}

theorem salvagedAfterComma {item : Rule α} {phrase : Phrase α}
    (one : item.Recognizes phrase anything) :
    (salvagedAfterComma item).Recognizes
      (Salvage.whole <$> Phrase.many do mark .comma; phrase) (· ≠ .punctuation .comma) := by
  have list : (Rule.following (.punctuation .comma) item).Recognizes
      (Phrase.many do mark .comma; phrase) (· ≠ .punctuation .comma) :=
    .following (by decide) (one.narrow fun _ _ => trivial) fun _ other => other
  refine (list.map Salvage.whole).congr (fun state result after => ?_) fun _ _ => Iff.rfl
  rw [reads_salvagedAfterComma, reads_map]

theorem salvaged {item : Rule α} {phrase : Phrase α} (one : item.Recognizes phrase anything) :
    (salvaged item).Recognizes (Salvage.whole <$> Phrase.commaSeparated phrase)
      (· ≠ .punctuation .comma) := by
  refine ((commaSeparated_of_anything one).map Salvage.whole).congr (fun state result after => ?_)
    fun _ _ => Iff.rfl
  rw [reads_salvaged, reads_map]

/-- Where a rule recognizes whole lists, it reads nothing else. -/
theorem complete_of_reads {list : Rule (Salvage α)} {phrase : Phrase (List α)}
    (all : list.Recognizes (Salvage.whole <$> phrase) follow) (mid : State) (items : Salvage α)
    (reads : list.Reads state items mid) : items.complete = true := by
  obtain ⟨stretch, -, spelled⟩ := all.sound _ _ _ reads
  obtain ⟨as, -, rfl⟩ := map_iff.1 spelled
  rfl

/-- What was salvaged, and a closing token. -/
theorem closed {list : Rule (Salvage α)} {close : Rule Unit} {phrase : Phrase (List α)}
    {closing : Phrase Unit} (all : list.Recognizes (Salvage.whole <$> phrase) follow)
    (closes : close.Recognizes closing follow') (fits : closing.Opens follow' follow) :
    (closed list close).Recognizes (Salvage.whole <$> do
      let as ← phrase
      closing
      return as) follow' where
  sound := by
    intro state result after reads
    obtain ⟨mid, first, second⟩ := (reads_closed all.complete_of_reads).1 reads
    obtain ⟨front, passes, spelled⟩ := all.sound _ _ _ first
    obtain ⟨back, passes', spelled'⟩ := closes.sound _ _ _ second
    obtain ⟨as, listed, rfl⟩ := map_iff.1 spelled
    refine ⟨front ++ back, passes.trans passes', map_iff.2 ⟨as, ?_, rfl⟩⟩
    exact ⟨front, as, back, rfl, listed, back, (), [], by rw [List.append_nil], spelled', rfl, rfl⟩
  complete := by
    intro state items result after passes spelled follows
    obtain ⟨as, ⟨front, _, _, rfl, first, back, u, _, rfl, second, rfl, rfl⟩, rfl⟩ :=
      map_iff.1 spelled
    rw [List.append_nil] at passes
    obtain ⟨mid, passes, passes'⟩ := passes.split
    refine (reads_closed all.complete_of_reads).2 ⟨mid, ?_, ?_⟩
    · refine all.complete _ _ _ _ passes (map_iff.2 ⟨as, first, rfl⟩) ?_
      rw [passes'.kind_eq]
      exact fits back u _ second follows
    · exact closes.complete _ _ _ _ passes' second follows

theorem restoring {stops : TokenKind → Bool} {item : Rule (Salvage α)} {phrase : Phrase (List α)}
    (one : item.Recognizes (Salvage.whole <$> phrase) follow) :
    (restoring stops item).Recognizes phrase follow where
  sound := by
    intro state as after reads
    have reads' := (reads_restoring one.complete_of_reads).1 reads
    obtain ⟨items, passes, spelled⟩ := one.sound _ _ _ reads'
    obtain ⟨as', spelled', same⟩ := map_iff.1 spelled
    obtain rfl : as = as' := congrArg Salvage.kept same
    exact ⟨items, passes, spelled'⟩
  complete := by
    intro state items as after passes spelled follows
    refine (reads_restoring one.complete_of_reads).2 ?_
    exact one.complete _ _ _ _ passes (map_iff.2 ⟨as, spelled, rfl⟩) follows

end Recognizes

/-! ### Lists that may end with a separator -/

/-- An item, or what stands for it in front of the closing token. -/
def itemUnless (close : TokenKind) (missing : α) (item : Rule α) : Rule α := do
  if (← Rule.kind) = close then return missing else item

variable {separator close : TokenKind} {item : Rule α} {phrase : Phrase α} {missing : α}

theorem reads_itemUnless_of_close (atClose : state.kind = close) {a : α} :
    (itemUnless close missing item).Reads state a after ↔ a = missing ∧ after = state := by
  rw [itemUnless, reads_kind_bind, if_pos atClose, reads_pure]

theorem reads_itemUnless_of_ne (notYet : state.kind ≠ close) {a : α} :
    (itemUnless close missing item).Reads state a after ↔ item.Reads state a after := by
  rw [itemUnless, reads_kind_bind, if_neg notYet]

/-- Items each behind a separator, of which the last may be missing. -/
abbrev endingWithSeparator (separator : TokenKind) (missing : α) (phrase : Phrase α) :
    Phrase (List α) :=
  manyThen (do Phrase.ofKind separator; phrase) (trailing (Phrase.ofKind separator) missing)

theorem sound_followingUnless (plain : separator.IsPlain) (apart : separator ≠ close)
    (one : item.Sound phrase) : (Rule.following separator (itemUnless close missing item)).Sound
      (endingWithSeparator separator missing phrase) := by
  intro state as after reads
  unfold Rule.following at reads
  rw [reads_many] at reads
  induction reads with
  | stop closed => exact ⟨[], .nothing _, .ends (.inr ⟨rfl, rfl⟩)⟩
  | last ahead opened first ends => exact absurd ends (by simp)
  | @more state mid after token rest a as ahead opened first continues others ih =>
    have current : state.kind = separator := by
      rw [State.kind_of_ahead ahead]
      simpa using opened
    have separates := passes_advance (by rwa [current] : state.kind.IsPlain)
    by_cases atClose : state.advance.kind = close
    · -- No separator follows, so this one is the last.
      obtain ⟨rfl, rfl⟩ := (reads_itemUnless_of_close atClose).1 first
      have closed : decide (state.advance.kind = separator) = false := by
        rw [atClose, decide_eq_false_iff_not]
        exact apart.symm
      obtain ⟨rfl, rfl⟩ := (ReadsMany.nil_iff closed).1 others
      exact ⟨_, separates, .ends (.inl (ofKind_bind_iff.2 ⟨_, [], rfl, current, rfl, rfl⟩))⟩
    · obtain ⟨items, passes, spelled⟩ := one _ _ _ ((reads_itemUnless_of_ne atClose).1 first)
      obtain ⟨items', passes', listed⟩ := ih
      have entry : (do Phrase.ofKind separator; phrase)
          (⟨state.lexeme 0, state.markers.count⟩ :: items) a :=
        ofKind_bind_iff.2 ⟨_, items, rfl, current, spelled⟩
      exact ⟨_, (separates.trans passes).trans passes', .more entry listed⟩

/-- What comes after an item is a separator, or the closing token. -/
theorem opens_endingWithSeparator : (endingWithSeparator separator missing phrase).Opens (· = close)
    fun kind => kind = close ∨ kind = separator :=
  .manyThen (.andThen (.ofKind (.inr rfl)))
    (.orElse (.andThen (.ofKind (.inr rfl))) (.pure _ fun _ => .inl))

theorem complete_followingUnless (plain : separator.IsPlain) (apart : separator ≠ close)
    (one : item.Recognizes phrase fun kind => kind = close ∨ kind = separator)
    (opens : phrase.Opens anything (· ≠ close)) {items : List Numbered} {as : List α}
    (passes : state.Passes items after) (spelled : endingWithSeparator separator missing phrase items as)
    (follows : after.kind = close) :
    (Rule.following separator (itemUnless close missing item)).Reads state as after := by
  unfold Rule.following
  rw [reads_many]
  have closed : decide (after.kind = separator) = false := by
    rw [decide_eq_false_iff_not, follows]
    exact apart.symm
  induction spelled generalizing state with
  | ends last =>
    rcases last with ended | ⟨rfl, rfl⟩
    · obtain ⟨item, _, rfl, same, rfl, rfl⟩ := ofKind_bind_iff.1 ended
      obtain ⟨inside, rfl, rfl⟩ := State.Passes.one_iff.1 passes
      have current : state.kind = separator := same
      have taken : state.next = state.advance :=
        State.next_of_ne (by rw [current]; exact plain.1)
      rw [taken] at follows closed ⊢
      exact .cons inside (by simpa using current)
        ((reads_itemUnless_of_close follows).2 ⟨rfl, rfl⟩) rfl (.nil closed)
    · obtain rfl := State.Passes.nil_iff.1 passes
      exact .nil closed
  | @more entry rest a as first others ih =>
    obtain ⟨item, stretch, rfl, same, spelled⟩ := ofKind_bind_iff.1 first
    obtain ⟨inside, rfl, passes'⟩ := State.Passes.cons_iff.1 passes
    have current : state.kind = separator := same
    rw [State.next_of_ne (by rw [current]; exact plain.1)] at passes'
    obtain ⟨mid, passes₁, passes₂⟩ := passes'.split
    have goesOn : mid.kind = close ∨ mid.kind = separator := by
      rw [passes₂.kind_eq]
      exact opens_endingWithSeparator rest as _ others follows
    have notYet : state.advance.kind ≠ close := by
      rw [passes₁.kind_eq]
      exact opens stretch a _ spelled trivial
    have taken := one.complete _ _ _ _ passes₁ spelled goesOn
    exact .cons inside (by simpa using current) ((reads_itemUnless_of_ne notYet).2 taken) rfl
      (ih passes₂)

/-- After each separator stands an item or, if it is the last separator, the closing token. -/
theorem Recognizes.followingUnless (plain : separator.IsPlain) (apart : separator ≠ close)
    (one : item.Recognizes phrase fun kind => kind = close ∨ kind = separator)
    (opens : phrase.Opens anything (· ≠ close)) :
    (Rule.following separator (itemUnless close missing item)).Recognizes
      (endingWithSeparator separator missing phrase) (· = close) where
  sound := sound_followingUnless plain apart one.sound
  complete := fun _ _ _ _ passes spelled follows =>
    complete_followingUnless plain apart one opens passes spelled follows

end Rule

end Cql
