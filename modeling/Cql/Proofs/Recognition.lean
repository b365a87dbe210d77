/-
Rules that recognize phrases.

A rule recognizes a phrase if it reads exactly what the phrase stands for: what it reads without a
report is a stretch of tokens that the phrase has for the value, and each such stretch is read, as long
as the token after it can follow the phrase.  Sequences of rules recognize sequences of phrases, so that
a rule of the grammar is compared with its phrase part by part.

* `State.Passes` — one state comes from another by passing a stretch of tokens;
* `Rule.Recognizes` — a rule reads exactly what a phrase stands for;
* `Rule.Recognizes.bind`, `Rule.Recognizes.ifEat`, `Rule.Recognizes.separated` — how recognition is
  put together.
-/
import Cql.Proofs.Phrase
import Cql.Proofs.Reading

namespace Cql

/-! ### Passing tokens -/

namespace State

/-- The state after the current token, which is numbered if it is a bind marker. -/
def next (state : State) : State :=
  { state.advance with markers := ⟨ordinalAfter state.kind state.markers.count⟩ }

/-- The second state comes from the first by passing tokens, none of them an end of input. -/
inductive Passes : State → List Numbered → State → Prop
  | nothing (state : State) : Passes state [] state
  | one {state after : State} {items : List Numbered} (inside : state.kind ≠ .endOfInput)
      (others : Passes state.next items after) :
      Passes state (⟨state.lexeme 0, state.markers.count⟩ :: items) after

variable {state mid after : State} {items front rest : List Numbered} {item : Numbered}

theorem next_of_ne (h : state.kind ≠ .punctuation .questionMark) : state.next = state.advance := by
  simp [next, ordinalAfter, h, advance]

/-- A token that is not an end of input is the first one ahead. -/
theorem ahead_of_inside (inside : state.kind ≠ .endOfInput) :
    ∃ token rest, state.stream.ahead = token :: rest ∧ state.lexeme 0 = token.toLexeme := by
  cases ahead : state.stream.ahead with
  | nil => exact absurd (by simp [kind, lexeme, TokenStream.peek, ahead, EndMark.token]) inside
  | cons token rest => exact ⟨token, rest, rfl, by simp [lexeme, TokenStream.peek, ahead]⟩

theorem kind_of_ahead {token : Token} {tokens : List Token}
    (ahead : state.stream.ahead = token :: tokens) : state.kind = token.kind := by
  simp [kind, lexeme, TokenStream.peek, ahead]

/-- Taking a token brings up the one after it. -/
theorem kind_advance (inside : state.kind ≠ .endOfInput) :
    state.advance.kind = (state.lexeme 1).kind := by
  obtain ⟨token, rest, ahead, -⟩ := ahead_of_inside inside
  simp [kind, lexeme, TokenStream.peek, ahead, advance, TokenStream.advance]

namespace Passes

theorem trans (first : Passes state front mid) (second : Passes mid rest after) :
    Passes state (front ++ rest) after := by
  induction first with
  | nothing state => exact second
  | one inside others ih => exact .one inside (ih second)

/-- The cursor moves over as many tokens as are passed. -/
theorem position_eq (h : Passes state items after) :
    after.stream.position = state.stream.position + items.length := by
  induction h with
  | nothing state => rfl
  | @one state after items inside others ih =>
    obtain ⟨token, rest, ahead, -⟩ := ahead_of_inside inside
    have moved : state.next.stream.position = state.stream.position + 1 := by
      simp [next, advance, TokenStream.advance, TokenStream.position, ahead]
    rw [ih, moved, List.length_cons, Nat.add_right_comm, Nat.add_assoc]

/-- A stretch is passed part by part. -/
theorem split (h : Passes state (front ++ rest) after) :
    ∃ mid, Passes state front mid ∧ Passes mid rest after := by
  induction front generalizing state with
  | nil => exact ⟨state, .nothing state, h⟩
  | cons item front ih =>
    cases h with
    | one inside others =>
      obtain ⟨mid, first, second⟩ := ih others
      exact ⟨mid, .one inside first, second⟩

theorem nil_iff : Passes state [] after ↔ after = state := by
  constructor
  · intro h
    cases h
    rfl
  · rintro rfl
    exact .nothing after

theorem cons_iff : Passes state (item :: rest) after ↔ state.kind ≠ .endOfInput ∧
    item = ⟨state.lexeme 0, state.markers.count⟩ ∧ Passes state.next rest after := by
  constructor
  · intro h
    cases h with
    | one inside others => exact ⟨inside, rfl, others⟩
  · rintro ⟨inside, rfl, others⟩
    exact .one inside others

theorem one_iff : Passes state [item] after ↔ state.kind ≠ .endOfInput ∧
    item = ⟨state.lexeme 0, state.markers.count⟩ ∧ after = state.next := by
  rw [cons_iff, nil_iff]

/-- The current token is the first of the stretch, or of what comes after it. -/
theorem kind_eq (h : Passes state items after) :
    state.kind = Phrase.opening items after.kind := by
  cases h with
  | nothing => rfl
  | one => rfl

end Passes

end State

/-! ### Recognition -/

/-- A token that is neither a bind marker nor an end of input. -/
def TokenKind.IsPlain (kind : TokenKind) : Prop :=
  kind ≠ .punctuation .questionMark ∧ kind ≠ .endOfInput

instance (kind : TokenKind) : Decidable kind.IsPlain := inferInstanceAs (Decidable (_ ∧ _))

namespace Rule

open Phrase

variable {α β : Type}

/-- Whatever the rule reads is a stretch of tokens that the phrase has for the value. -/
def Sound (rule : Rule α) (phrase : Phrase α) : Prop :=
  ∀ state a after, rule.Reads state a after → ∃ items, state.Passes items after ∧ phrase items a

/-- The rule reads exactly what the phrase stands for, where the phrase ends in front of a token that
can follow it. -/
structure Recognizes (rule : Rule α) (phrase : Phrase α) (follow : TokenKind → Prop) : Prop where
  sound : rule.Sound phrase
  complete : ∀ state items a after, state.Passes items after → phrase items a → follow after.kind →
    rule.Reads state a after

namespace Sound

theorem pure (a : α) : (pure a : Rule α).Sound (Pure.pure a) := by
  intro state b after h
  obtain ⟨rfl, rfl⟩ := reads_pure.1 h
  exact ⟨[], .nothing _, rfl, rfl⟩

theorem bind {rule : Rule α} {next : α → Rule β} {phrase : Phrase α} {rest : α → Phrase β}
    (first : rule.Sound phrase) (second : ∀ a, (next a).Sound (rest a)) :
    (rule >>= next).Sound (phrase >>= rest) := by
  intro state b after h
  obtain ⟨a, mid, h₁, h₂⟩ := reads_bind.1 h
  obtain ⟨items, passes, spelled⟩ := first _ _ _ h₁
  obtain ⟨items', passes', spelled'⟩ := second a _ _ _ h₂
  exact ⟨items ++ items', passes.trans passes', items, a, items', rfl, spelled, spelled'⟩

end Sound

/-- Passing one plain token is taking it. -/
theorem passes_advance {state : State} (plain : state.kind.IsPlain) :
    state.Passes [⟨state.lexeme 0, state.markers.count⟩] state.advance :=
  State.Passes.one_iff.2 ⟨plain.2, rfl, (State.next_of_ne plain.1).symm⟩

/-- Passing a token of a given kind, and then a stretch. -/
theorem passes_ofKind_bind {wanted : TokenKind} (plain : wanted.IsPlain) {phrase : Phrase α}
    {state after : State} {a : α} :
    (∃ items, state.Passes items after ∧ (Phrase.ofKind wanted >>= fun _ => phrase) items a) ↔
      state.kind = wanted ∧ ∃ items, state.advance.Passes items after ∧ phrase items a := by
  constructor
  · rintro ⟨items, passes, spelled⟩
    obtain ⟨item, rest, rfl, same, spelled'⟩ := ofKind_bind_iff.1 spelled
    obtain ⟨-, rfl, passes'⟩ := State.Passes.cons_iff.1 passes
    have current : state.kind = wanted := same
    rw [State.next_of_ne (by rw [current]; exact plain.1)] at passes'
    exact ⟨current, rest, passes', spelled'⟩
  · rintro ⟨current, items, passes, spelled⟩
    refine ⟨_, (passes_advance (by rwa [current])).trans passes, ?_⟩
    exact ofKind_bind_iff.2 ⟨_, items, rfl, current, spelled⟩

namespace Recognizes

theorem pure (a : α) {follow : TokenKind → Prop} :
    (pure a : Rule α).Recognizes (Pure.pure a) follow where
  sound := .pure a
  complete := by
    rintro state items b after passes ⟨rfl, rfl⟩ -
    exact reads_pure.2 ⟨rfl, State.Passes.nil_iff.1 passes⟩

theorem bind {rule : Rule α} {next : α → Rule β} {phrase : Phrase α} {rest : α → Phrase β}
    {follow follow' : TokenKind → Prop} (first : rule.Recognizes phrase follow)
    (second : ∀ a, (next a).Recognizes (rest a) follow')
    (fits : ∀ a, (rest a).Opens follow' follow) :
    (rule >>= next).Recognizes (phrase >>= rest) follow' where
  sound := first.sound.bind fun a => (second a).sound
  complete := by
    rintro state items b after passes ⟨front, a, back, rfl, spelled, spelled'⟩ follows
    obtain ⟨mid, passes, passes'⟩ := passes.split
    refine reads_bind.2 ⟨a, mid, first.complete _ _ _ _ passes spelled ?_,
      (second a).complete _ _ _ _ passes' spelled' follows⟩
    rw [passes'.kind_eq]
    exact fits a back b _ spelled' follows

/-- A rule that anything can follow, then another. -/
theorem andThen {rule : Rule α} {next : α → Rule β} {phrase : Phrase α} {rest : α → Phrase β}
    {follow : TokenKind → Prop} (first : rule.Recognizes phrase anything)
    (second : ∀ a, (next a).Recognizes (rest a) follow) :
    (rule >>= next).Recognizes (phrase >>= rest) follow :=
  first.bind second fun _ _ _ _ _ _ => trivial

theorem map {rule : Rule α} {phrase : Phrase α} {follow : TokenKind → Prop}
    (h : rule.Recognizes phrase follow) (f : α → β) :
    (f <$> rule).Recognizes (f <$> phrase) follow where
  sound := by
    intro state b after reads
    obtain ⟨a, reads', rfl⟩ := reads_map.1 reads
    obtain ⟨items, passes, spelled⟩ := h.sound _ _ _ reads'
    exact ⟨items, passes, map_iff.2 ⟨a, spelled, rfl⟩⟩
  complete := by
    intro state items b after passes spelled follows
    obtain ⟨a, spelled', rfl⟩ := map_iff.1 spelled
    exact reads_map.2 ⟨a, h.complete _ _ _ _ passes spelled' follows, rfl⟩

/-- Fewer tokens follow. -/
theorem narrow {rule : Rule α} {phrase : Phrase α} {follow follow' : TokenKind → Prop}
    (h : rule.Recognizes phrase follow) (fewer : ∀ kind, follow' kind → follow kind) :
    rule.Recognizes phrase follow' where
  sound := h.sound
  complete := fun _ _ _ _ passes spelled follows =>
    h.complete _ _ _ _ passes spelled (fewer _ follows)

/-- Two rules that read the same recognize the same, and two phrases that stand for the same are
recognized by the same rules. -/
theorem congr {rule rule' : Rule α} {phrase phrase' : Phrase α} {follow : TokenKind → Prop}
    (h : rule.Recognizes phrase follow)
    (reads : ∀ state a after, rule'.Reads state a after ↔ rule.Reads state a after)
    (spells : ∀ items a, phrase' items a ↔ phrase items a) : rule'.Recognizes phrase' follow where
  sound := by
    intro state a after h'
    obtain ⟨items, passes, spelled⟩ := h.sound _ _ _ ((reads _ _ _).1 h')
    exact ⟨items, passes, (spells _ _).2 spelled⟩
  complete := fun _ _ _ _ passes spelled follows =>
    (reads _ _ _).2 (h.complete _ _ _ _ passes ((spells _ _).1 spelled) follows)

/-! ### Single tokens -/

theorem accept {read : Lexeme → Option α} {what context : String}
    (plain : ∀ lexeme a, read lexeme = some a → lexeme.kind.IsPlain) :
    (accept read what context).Recognizes (token fun item => read item.lexeme) anything where
  sound := by
    intro state a after h
    obtain ⟨seen, rfl⟩ := reads_accept.1 h
    exact ⟨_, passes_advance (plain _ _ seen), _, rfl, seen⟩
  complete := by
    rintro state items a after passes ⟨item, rfl, seen⟩ -
    obtain ⟨-, rfl, rfl⟩ := State.Passes.one_iff.1 passes
    exact reads_accept.2 ⟨seen, State.next_of_ne (plain _ _ seen).1⟩

theorem ofKind {wanted : TokenKind} (context : String) (plain : wanted.IsPlain) :
    (ofKind wanted context).Recognizes (Phrase.ofKind wanted) anything where
  sound := by
    intro state u after h
    obtain ⟨same, rfl⟩ := reads_ofKind.1 h
    exact ⟨_, passes_advance (by rwa [same]), ofKind_iff.2 ⟨_, rfl, same⟩⟩
  complete := by
    intro state items u after passes spelled _
    obtain ⟨item, rfl, same⟩ := ofKind_iff.1 spelled
    obtain ⟨-, rfl, rfl⟩ := State.Passes.one_iff.1 passes
    have current : state.kind = wanted := same
    exact reads_ofKind.2 ⟨current, State.next_of_ne (by rw [current]; exact plain.1)⟩

theorem keyword (wanted : Keyword) (context : String) :
    (Rule.keyword wanted context).Recognizes (word wanted) anything :=
  ofKind context ⟨by simp, by simp⟩

theorem symbol {wanted : Punctuation} (context : String)
    (other : (wanted == .questionMark) = false) :
    (Rule.symbol wanted context).Recognizes (mark wanted) anything :=
  ofKind context ⟨by simpa using other, by simp⟩

/-! ### After a keyword -/

section

variable {keyword : Keyword} {rule : Rule α} {phrase : Phrase α} {follow : TokenKind → Prop}
  {state after : State} {a : α}

theorem spelled_after (recognizes : rule.Recognizes phrase follow)
    (current : state.kind = .keyword keyword) (reads : rule.Reads state.advance a after) :
    ∃ items, state.Passes items after ∧ (word keyword >>= fun _ => phrase) items a :=
  (passes_ofKind_bind ⟨by simp, by simp⟩).2 ⟨current, recognizes.sound _ _ _ reads⟩

theorem reads_after (recognizes : rule.Recognizes phrase follow) {items : List Numbered}
    (passes : state.Passes items after) (spelled : (word keyword >>= fun _ => phrase) items a)
    (follows : follow after.kind) :
    state.kind = .keyword keyword ∧ rule.Reads state.advance a after := by
  obtain ⟨current, rest, passes', spelled'⟩ :=
    (passes_ofKind_bind ⟨by simp, by simp⟩).1 ⟨items, passes, spelled⟩
  exact ⟨current, recognizes.complete _ _ _ _ passes' spelled' follows⟩

end

/-! ### Looking around -/

theorem position {next : Nat → Rule α} {phrase : Phrase α} {follow : TokenKind → Prop}
    (h : ∀ n, (next n).Recognizes phrase follow) :
    (Rule.position >>= next).Recognizes phrase follow where
  sound := fun state a after reads => (h _).sound state a after (reads_position_bind.1 reads)
  complete := fun state items a after passes spelled follows =>
    reads_position_bind.2 ((h _).complete state items a after passes spelled follows)

theorem here {next : Place → Rule α} {phrase : Phrase α} {follow : TokenKind → Prop}
    (h : ∀ place, (next place).Recognizes phrase follow) :
    (Rule.here >>= next).Recognizes phrase follow where
  sound := fun state a after reads => (h _).sound state a after (reads_here_bind.1 reads)
  complete := fun state items a after passes spelled follows =>
    reads_here_bind.2 ((h _).complete state items a after passes spelled follows)

/-! ### Choices -/

/-- Whether a token comes next decides between two rules.  The second one must not begin with it. -/
theorem ifEat {wanted : TokenKind} {yes no : Rule α} {phrase other : Phrase α}
    {follow : TokenKind → Prop} (plain : wanted.IsPlain) (first : yes.Recognizes phrase follow)
    (second : no.Recognizes other follow)
    (apart : other.Opens follow (· ≠ wanted)) :
    (eatKind wanted >>= fun eaten => if eaten = true then yes else no).Recognizes
      ((do Phrase.ofKind wanted; phrase) <|> other) follow where
  sound := by
    intro state a after h
    obtain ⟨eaten, mid, h₁, h₂⟩ := reads_bind.1 h
    rcases reads_eatKind.1 h₁ with ⟨same, rfl, rfl⟩ | ⟨-, rfl, rfl⟩
    · rw [if_pos rfl] at h₂
      obtain ⟨items, passes, spelled⟩ := (passes_ofKind_bind plain).2 ⟨same, first.sound _ _ _ h₂⟩
      exact ⟨items, passes, .inl spelled⟩
    · rw [if_neg (by simp)] at h₂
      obtain ⟨items, passes, spelled⟩ := second.sound _ _ _ h₂
      exact ⟨items, passes, .inr spelled⟩
  complete := by
    rintro state items a after passes (spelled | spelled) follows
    · obtain ⟨current, rest, passes', spelled'⟩ := (passes_ofKind_bind plain).1 ⟨items, passes, spelled⟩
      refine reads_bind.2 ⟨true, state.advance, reads_eatKind.2 (.inl ⟨current, rfl, rfl⟩), ?_⟩
      exact first.complete _ _ _ _ passes' spelled' follows
    · -- The token that decides is not the first of this stretch, nor what follows it.
      have other : state.kind ≠ wanted := by
        rw [passes.kind_eq]
        exact apart items a _ spelled follows
      refine reads_bind.2 ⟨false, state, reads_eatKind.2 (.inr ⟨other, rfl, rfl⟩), ?_⟩
      exact second.complete _ _ _ _ passes spelled follows

/-- A keyword is never a bind marker or an end of input. -/
theorem ifWord {wanted : Keyword} {yes no : Rule α} {phrase other : Phrase α}
    {follow : TokenKind → Prop} (first : yes.Recognizes phrase follow)
    (second : no.Recognizes other follow) (apart : other.Opens follow (· ≠ .keyword wanted)) :
    (eatKind (.keyword wanted) >>= fun eaten => if eaten = true then yes else no).Recognizes
      ((do word wanted; phrase) <|> other) follow :=
  ifEat ⟨by simp, by simp⟩ first second apart

/-- A token that may be missing. -/
theorem optionally {wanted : TokenKind} {next : Rule α} {phrase : Phrase α}
    {follow : TokenKind → Prop} (plain : wanted.IsPlain) (h : next.Recognizes phrase follow)
    (apart : phrase.Opens follow (· ≠ wanted)) :
    (eatKind wanted >>= fun _ => next).Recognizes
      (Phrase.optionally (Phrase.ofKind wanted) >>= fun _ => phrase) follow := by
  unfold Phrase.optionally
  rw [orElse_bind, pure_bind]
  -- Both alternatives go on with the same phrase, so the choice between them is none.
  refine (ifEat plain h h apart).congr (fun state a after => ?_) fun _ _ => Iff.rfl
  simp only [ite_self]

/-- A clause that may be missing. -/
theorem clause {wanted : TokenKind} {rule : Rule α} {phrase : Phrase α} {a : α}
    {follow : TokenKind → Prop} (plain : wanted.IsPlain) (h : rule.Recognizes phrase follow)
    (apart : ∀ kind, follow kind → kind ≠ wanted) :
    (eatKind wanted >>= fun eaten => if eaten = true then rule else Pure.pure a).Recognizes
      ((do Phrase.ofKind wanted; phrase) <|> Pure.pure a) follow :=
  ifEat plain h (.pure a) (.pure a apart)

theorem clauseAfter {wanted : Keyword} {rule : Rule α} {phrase : Phrase α} {a : α}
    {follow : TokenKind → Prop} (h : rule.Recognizes phrase follow)
    (apart : ∀ kind, follow kind → kind ≠ .keyword wanted) :
    (eatKind (.keyword wanted) >>= fun eaten => if eaten = true then rule else Pure.pure a).Recognizes
      ((do word wanted; phrase) <|> Pure.pure a) follow :=
  clause ⟨by simp, by simp⟩ h apart

/-- A condition without which there is a report. -/
theorem ifHolds {condition : Prop} [Decidable condition] {rule other : Rule α} {phrase : Phrase α}
    {follow : TokenKind → Prop} (h : rule.Recognizes phrase follow)
    (reported : ∀ state a after, ¬ other.Reads state a after) :
    (if condition then rule else other).Recognizes (require condition >>= fun _ => phrase)
      follow := by
  constructor
  · intro state a after reads
    by_cases holds : condition
    · rw [if_pos holds] at reads
      obtain ⟨items, passes, spelled⟩ := h.sound _ _ _ reads
      exact ⟨items, passes, [], (), items, rfl, ⟨rfl, holds⟩, spelled⟩
    · rw [if_neg holds] at reads
      exact absurd reads (reported _ _ _)
  · rintro state items a after passes ⟨_, u, rest, rfl, ⟨rfl, holds⟩, spelled⟩ follows
    rw [if_pos holds]
    exact h.complete _ _ _ _ passes spelled follows

/-- A condition under which there is a report. -/
theorem ifFails {condition : Prop} [Decidable condition] {rule other : Rule α} {phrase : Phrase α}
    {follow : TokenKind → Prop} (h : rule.Recognizes phrase follow)
    (reported : ∀ state a after, ¬ other.Reads state a after) :
    (if condition then other else rule).Recognizes (require (¬ condition) >>= fun _ => phrase)
      follow := by
  rw [← ite_not]
  exact ifHolds h reported

/-- The current token, which stays where it is, decides between two rules. -/
theorem ifAt {good : TokenKind → Prop} [DecidablePred good] {yes no : Rule α}
    {phrase other : Phrase α} {follow : TokenKind → Prop} (first : yes.Recognizes phrase follow)
    (second : no.Recognizes other follow) (opens : phrase.Opens follow good)
    (apart : other.Opens follow fun kind => ¬ good kind) :
    (Rule.kind >>= fun kind => if good kind then yes else no).Recognizes (phrase <|> other)
      follow where
  sound := by
    intro state a after h
    rw [reads_kind_bind] at h
    by_cases decides : good state.kind
    · rw [if_pos decides] at h
      obtain ⟨items, passes, spelled⟩ := first.sound _ _ _ h
      exact ⟨items, passes, .inl spelled⟩
    · rw [if_neg decides] at h
      obtain ⟨items, passes, spelled⟩ := second.sound _ _ _ h
      exact ⟨items, passes, .inr spelled⟩
  complete := by
    rintro state items a after passes (spelled | spelled) follows
    · have decides := opens items a _ spelled follows
      rw [← passes.kind_eq] at decides
      rw [reads_kind_bind, if_pos decides]
      exact first.complete _ _ _ _ passes spelled follows
    · have decides := apart items a _ spelled follows
      rw [← passes.kind_eq] at decides
      rw [reads_kind_bind, if_neg decides]
      exact second.complete _ _ _ _ passes spelled follows

/-- A choice that goes on in one way whatever was chosen. -/
theorem ifEat_bind {wanted : TokenKind} {yes no : Rule α} {next : α → Rule β} {phrase : Phrase α}
    {rest : α → Phrase β} {follow follow' : TokenKind → Prop}
    (first : (eatKind wanted >>= fun eaten => if eaten = true then yes else no).Recognizes
      phrase follow)
    (second : ∀ a, (next a).Recognizes (rest a) follow')
    (fits : ∀ a, (rest a).Opens follow' follow) :
    (eatKind wanted >>= fun eaten => if eaten = true then yes >>= next else no >>= next).Recognizes
      (phrase >>= rest) follow' := by
  refine (first.bind second fits).congr (fun state b after => ?_) fun _ _ => Iff.rfl
  -- Either way the rest is read after the choice; only where it stands in the rule differs.
  simp only [reads_bind]
  constructor
  · rintro ⟨eaten, mid, eats, h⟩
    cases eaten with
    | false =>
      obtain ⟨a, mid', h₁, h₂⟩ := reads_bind.1 h
      exact ⟨a, mid', ⟨false, mid, eats, h₁⟩, h₂⟩
    | true =>
      obtain ⟨a, mid', h₁, h₂⟩ := reads_bind.1 h
      exact ⟨a, mid', ⟨true, mid, eats, h₁⟩, h₂⟩
  · rintro ⟨a, mid', ⟨eaten, mid, eats, h₁⟩, h₂⟩
    refine ⟨eaten, mid, eats, ?_⟩
    cases eaten with
    | false => exact reads_bind.2 ⟨a, mid', h₁, h₂⟩
    | true => exact reads_bind.2 ⟨a, mid', h₁, h₂⟩

end Recognizes

/-! ### Lists -/

/-- A token that opens an item, and the item after it. -/
def opened (opens : TokenKind → Bool) (item : Lexeme → Rule α) : Rule α := do
  let lexeme ← accept (fun lexeme => if opens lexeme.kind then some lexeme else none) "" ""
  item lexeme

theorem reads_opened {opens : TokenKind → Bool} {item : Lexeme → Rule α} {state after : State}
    {a : α} :
    (opened opens item).Reads state a after ↔
      opens state.kind = true ∧ (item (state.lexeme 0)).Reads state.advance a after := by
  unfold opened
  simp only [reads_bind, reads_accept]
  constructor
  · rintro ⟨lexeme, mid, ⟨seen, rfl⟩, h⟩
    obtain ⟨opened, same⟩ : opens state.kind = true ∧ state.lexeme 0 = lexeme := by
      simpa [State.kind] using seen
    exact ⟨opened, same ▸ h⟩
  · rintro ⟨opened, h⟩
    exact ⟨_, _, ⟨if_pos opened, rfl⟩, h⟩

namespace ReadsMany

variable {opens goesOn : _} {item : Lexeme → Rule α} {state mid after : State} {a : α} {as : List α}

theorem nil (closed : opens state.kind = false) : ReadsMany opens goesOn item state [] state := by
  refine .stop fun token first => ?_
  obtain ⟨rest, ahead⟩ := List.head?_eq_some_iff.1 first
  rw [← State.kind_of_ahead ahead]
  exact closed

theorem cons (inside : state.kind ≠ .endOfInput) (isOpen : opens state.kind = true)
    (first : (item (state.lexeme 0)).Reads state.advance a mid) (continues : goesOn a = true)
    (others : ReadsMany opens goesOn item mid as after) :
    ReadsMany opens goesOn item state (a :: as) after := by
  obtain ⟨token, rest, ahead, current⟩ := State.ahead_of_inside inside
  rw [current] at first
  rw [State.kind_of_ahead ahead] at isOpen
  exact .more ahead isOpen first continues others

/-- A list that is not empty begins where a token opens its first item. -/
theorem opens_of_ne_nil (h : ReadsMany opens goesOn item state as after) (some : as ≠ []) :
    opens state.kind = true := by
  cases h with
  | stop closed => exact absurd rfl some
  | last ahead isOpen =>
    rw [State.kind_of_ahead ahead]
    exact isOpen
  | more ahead isOpen =>
    rw [State.kind_of_ahead ahead]
    exact isOpen

/-- Where no token opens an item, the list is empty. -/
theorem nil_iff (closed : opens state.kind = false) :
    ReadsMany opens goesOn item state as after ↔ as = [] ∧ after = state := by
  constructor
  · intro h
    by_cases empty : as = []
    · subst empty
      cases h with
      | stop => exact ⟨rfl, rfl⟩
    · rw [h.opens_of_ne_nil empty] at closed
      exact absurd closed (by simp)
  · rintro ⟨rfl, rfl⟩
    exact nil closed

end ReadsMany

theorem Sound.many {opens goesOn : _} {item : Lexeme → Rule α} {phrase : Phrase α}
    (one : (opened opens item).Sound phrase) :
    (many opens goesOn item).Sound (Phrase.many phrase) := by
  intro state as after h
  have step : ∀ {state after : State} {token : Token} {rest : List Token} {a : α},
      state.stream.ahead = token :: rest → opens token.kind = true →
      (item token.toLexeme).Reads state.advance a after →
      ∃ items, state.Passes items after ∧ phrase items a := by
    intro state after token rest a ahead isOpen reads
    -- A list takes the token itself, and its items see the lexeme of it.
    have current : state.lexeme 0 = token.toLexeme := by
      simp [State.lexeme, TokenStream.peek, ahead]
    refine one _ _ _ (reads_opened.2 ⟨?_, by rwa [current]⟩)
    rw [State.kind_of_ahead ahead]
    exact isOpen
  induction reads_many.1 h with
  | stop closed => exact ⟨[], .nothing _, .none⟩
  | last ahead isOpen first ends =>
    obtain ⟨items, passes, spelled⟩ := step ahead isOpen first
    exact ⟨items ++ [], passes.trans (.nothing _), .more spelled .none⟩
  | more ahead isOpen first continues others ih =>
    obtain ⟨items, passes, spelled⟩ := step ahead isOpen first
    obtain ⟨items', passes', spelled'⟩ := ih (reads_many.2 others)
    exact ⟨items ++ items', passes.trans passes', .more spelled spelled'⟩

namespace Recognizes

/-- Items each of which a token opens, up to a token that opens none. -/
theorem many {opens : TokenKind → Bool} {item : Lexeme → Rule α} {phrase : Phrase α}
    {follow begins : TokenKind → Prop} (inside : opens .endOfInput = false)
    (first : phrase.Opens anything begins)
    (one : (opened opens item).Recognizes phrase fun kind => follow kind ∨ begins kind)
    (ends : ∀ kind, follow kind → opens kind = false) :
    (Rule.many opens (fun _ => true) item).Recognizes (Phrase.many phrase) follow where
  sound := one.sound.many
  complete := by
    intro state items as after passes spelled follows
    induction spelled generalizing state with
    | none =>
      rw [State.Passes.nil_iff.1 passes] at follows ⊢
      exact reads_many.2 (.nil (ends _ follows))
    | @more front rest a as spelled others ih =>
      obtain ⟨mid, passes₁, passes₂⟩ := passes.split
      -- What follows this item is the token that begins the next one, or the end of the list.
      have continues : follow mid.kind ∨ begins mid.kind := by
        have next : phrase.Opens anything fun kind => follow kind ∨ begins kind :=
          first.weaken (fun _ => id) fun _ => .inr
        rw [passes₂.kind_eq]
        exact next.many (fun _ => .inl) _ _ _ others follows
      obtain ⟨isOpen, reads⟩ := reads_opened.1 (one.complete _ _ _ _ passes₁ spelled continues)
      refine reads_many.2 (.cons ?_ isOpen reads rfl (reads_many.1 (ih mid passes₂)))
      intro same
      rw [same, inside] at isOpen
      exact absurd isOpen (by simp)

variable {separator : TokenKind} {follow : TokenKind → Prop}

theorem following {item : Rule α} {phrase : Phrase α} (plain : separator.IsPlain)
    (one : item.Recognizes phrase fun kind => follow kind ∨ kind = separator)
    (ends : ∀ kind, follow kind → kind ≠ separator) :
    (Rule.following separator item).Recognizes
      (Phrase.many do Phrase.ofKind separator; phrase) follow := by
  have first : (do Phrase.ofKind separator; phrase).Opens anything (· = separator) :=
    .andThen (.ofKind rfl)
  refine many ?_ first ?_ fun kind follows => by simpa using ends kind follows
  · simpa using plain.2.symm
  · have entry := (ofKind "" plain).andThen fun _ => one
    refine entry.congr (fun state a after => ?_) fun _ _ => Iff.rfl
    rw [reads_opened, reads_bind]
    constructor
    · rintro ⟨isOpen, reads⟩
      exact ⟨(), _, reads_ofKind.2 ⟨by simpa using isOpen, rfl⟩, reads⟩
    · rintro ⟨u, mid, first, reads⟩
      obtain ⟨same, rfl⟩ := reads_ofKind.1 first
      exact ⟨by simpa using same, reads⟩

theorem separated {item : Rule α} {phrase : Phrase α} (plain : separator.IsPlain)
    (one : item.Recognizes phrase fun kind => follow kind ∨ kind = separator)
    (ends : ∀ kind, follow kind → kind ≠ separator) :
    (Rule.separated separator item).Recognizes
      (Phrase.separated (Phrase.ofKind separator) phrase) follow := by
  refine one.bind (fun first => (following plain one ends).bind (fun rest => pure _) ?_) ?_
  · rintro _ items b kind ⟨rfl, -⟩ follows
    exact follows
  · rintro _ items b kind ⟨front, rest, back, rfl, spelled, rfl, -⟩ follows
    cases spelled with
    | none => exact .inl follows
    | more first others =>
      obtain ⟨item, tail, rfl, same, -⟩ := ofKind_bind_iff.1 first
      exact .inr same

theorem commaSeparated {item : Rule α} {phrase : Phrase α}
    (one : item.Recognizes phrase fun kind => follow kind ∨ kind = .punctuation .comma)
    (ends : ∀ kind, follow kind → kind ≠ .punctuation .comma) :
    (Rule.commaSeparated item).Recognizes (Phrase.commaSeparated phrase) follow :=
  separated (by decide) one ends

/-- A list in front of which and after each item of which anything may follow. -/
theorem commaSeparated_of_anything {item : Rule α} {phrase : Phrase α}
    (one : item.Recognizes phrase anything) :
    (Rule.commaSeparated item).Recognizes (Phrase.commaSeparated phrase)
      (· ≠ .punctuation .comma) :=
  commaSeparated (one.narrow fun _ _ => trivial) fun _ other => other

theorem twoOrMore {item : Rule α} {phrase : Phrase α} (context : String)
    (one : item.Recognizes phrase anything) :
    (Rule.twoOrMore context item).Recognizes (Phrase.twoOrMore phrase)
      (· ≠ .punctuation .comma) := by
  refine one.andThen fun first => (symbol context rfl).andThen fun _ => ?_
  refine (commaSeparated_of_anything one).bind (fun rest => pure _) ?_
  rintro _ items b kind ⟨rfl, -⟩ follows
  exact follows

/-- A list that may be broken, none of whose items comes out empty. -/
theorem gather {stops : TokenKind → Bool} {item : Rule (Option α)} {phrase : Phrase α}
    (plain : separator.IsPlain)
    (one : item.Recognizes (some <$> phrase) fun kind => follow kind ∨ kind = separator)
    (ends : ∀ kind, follow kind → kind ≠ separator) :
    (Rule.gather separator stops item).Recognizes
      (Phrase.separated (Phrase.ofKind separator) phrase) follow := by
  have whole := separated plain one ends
  have shape : (do Phrase.ofKind separator; some <$> phrase) =
      some <$> (do Phrase.ofKind separator; phrase) := by
    rw [map_bind]
  constructor
  · intro state as after h
    -- Without a report no part was broken or came out empty, so the list is a plain one.
    obtain ⟨parts, rfl, reads⟩ := reads_gather.1 h
    obtain ⟨items, passes, front, first, back, rfl, h₁, h₂⟩ := whole.sound _ _ _ reads
    obtain ⟨middle, rest, last, rfl, h₃, rfl, rfl⟩ := h₂
    obtain ⟨a, head, rfl⟩ := map_iff.1 h₁
    rw [shape, many_map] at h₃
    obtain ⟨as, others, rfl⟩ := map_iff.1 h₃
    refine ⟨_, passes, front, a, _, rfl, head, middle, as, [], rfl, others, rfl, ?_⟩
    simp
  · rintro state items as after passes ⟨front, a, back, rfl, h₁, h₂⟩ follows
    obtain ⟨middle, rest, last, rfl, h₃, rfl, rfl⟩ := h₂
    refine reads_gather.2 ⟨(a :: rest).map some, by simp, whole.complete _ _ _ _ passes ?_ follows⟩
    refine ⟨front, some a, _, rfl, map_iff.2 ⟨a, h₁, rfl⟩, middle, rest.map some, [], rfl, ?_, rfl, rfl⟩
    rw [shape, many_map]
    exact map_iff.2 ⟨rest, h₃, rfl⟩

end Recognizes

end Rule

end Cql
