/-
Phrases on two stretches that are alike.

Two stretches of tokens can be alike, token by token, in one way or another: in the letters of their
words, or in all but the numbers of their bind markers.  Where a phrase has a value for one stretch, it
is asked whether it has one for the other as well, and how the two values are related.

* `Phrase.Relates` — a stretch of one phrase is, in its likeness, a stretch of the other;
* `Phrase.KeepsKinds` — likenesses that keep the keywords and the marks;
* `Phrase.Relates.bind`, `Phrase.Relates.orElse`, `Phrase.Relates.many` and so on — how this goes from
  the parts of a phrase to the whole.
-/
import Mathlib.Data.List.Forall2
import Cql.Proofs.Phrase

namespace Cql

/-- What is like two lists in a row is two lists in a row, each like one of them. -/
theorem exists_append_of_forall₂ {α β : Type} {E : α → β → Prop} {front rest : List α}
    {others : List β} (h : List.Forall₂ E (front ++ rest) others) :
    ∃ front' rest', others = front' ++ rest' ∧ List.Forall₂ E front front' ∧
      List.Forall₂ E rest rest' := by
  refine ⟨others.take front.length, others.drop front.length, (List.take_append_drop _ _).symm, ?_, ?_⟩
  · simpa using List.forall₂_take front.length h
  · simpa using List.forall₂_drop front.length h

namespace Phrase

variable {α β : Type} {E : Numbered → Numbered → Prop} {phrase phrase' other other' : Phrase α}
  {R : α → α → Prop} {S : β → β → Prop}

/-- In the likeness of a stretch of the phrase, there is one of the other, and what they stand for is
related. -/
def Relates (E : Numbered → Numbered → Prop) (phrase other : Phrase α) (R : α → α → Prop) : Prop :=
  ∀ items items' a, List.Forall₂ E items items' → phrase items a → ∃ b, other items' b ∧ R a b

/-- Of two tokens that are alike, the second is the same keyword or the same mark as the first. -/
class KeepsKinds (E : Numbered → Numbered → Prop) : Prop where
  keyword {item item' : Numbered} {keyword : Keyword} (alike : E item item')
    (kind : item.kind = .keyword keyword) : item'.kind = .keyword keyword
  mark {item item' : Numbered} {punctuation : Punctuation} (alike : E item item')
    (kind : item.kind = .punctuation punctuation) : item'.kind = .punctuation punctuation

namespace Relates

theorem weaken {R' : α → α → Prop} (h : phrase.Relates E other R) (weaker : ∀ a b, R a b → R' a b) :
    phrase.Relates E other R' := by
  intro items items' a alike spelled
  obtain ⟨b, spelled', related⟩ := h items items' a alike spelled
  exact ⟨b, spelled', weaker a b related⟩

theorem pure {a b : α} (h : R a b) : (pure a : Phrase α).Relates E (pure b) R := by
  rintro items items' _ alike ⟨rfl, rfl⟩
  exact ⟨b, ⟨List.forall₂_nil_left_iff.1 alike, rfl⟩, h⟩

theorem bind {next next' : α → Phrase β} (first : phrase.Relates E other R)
    (second : ∀ a b, R a b → (next a).Relates E (next' b) S) :
    (phrase >>= next).Relates E (other >>= next') S := by
  rintro items items' b alike ⟨front, a, rest, rfl, spelled, spelled'⟩
  obtain ⟨front', rest', rfl, alike₁, alike₂⟩ := exists_append_of_forall₂ alike
  obtain ⟨a', carried, related⟩ := first _ _ _ alike₁ spelled
  obtain ⟨b', carried', related'⟩ := second _ _ related _ _ _ alike₂ spelled'
  exact ⟨b', ⟨front', a', rest', rfl, carried, carried'⟩, related'⟩

/-- What comes second does not depend on what came first. -/
theorem skip {next next' : α → Phrase β} (first : phrase.Relates E other R)
    (second : ∀ a b, (next a).Relates E (next' b) S) :
    (phrase >>= next).Relates E (other >>= next') S :=
  first.bind fun a b _ => second a b

/-- What comes second is the same in both. -/
theorem andThen {next next' : α → Phrase β} (first : phrase.Relates E other Eq)
    (second : ∀ a, (next a).Relates E (next' a) S) :
    (phrase >>= next).Relates E (other >>= next') S :=
  first.bind fun a _ same => same ▸ second a

theorem map {f g : α → β} (h : phrase.Relates E other R) (values : ∀ a b, R a b → S (f a) (g b)) :
    (f <$> phrase).Relates E (g <$> other) S :=
  h.bind fun a b related => .pure (values a b related)

theorem orElse (first : phrase.Relates E other R) (second : phrase'.Relates E other' R) :
    (phrase <|> phrase').Relates E (other <|> other') R := by
  rintro items items' a alike (spelled | spelled)
  · obtain ⟨b, carried, related⟩ := first _ _ _ alike spelled
    exact ⟨b, .inl carried, related⟩
  · obtain ⟨b, carried, related⟩ := second _ _ _ alike spelled
    exact ⟨b, .inr carried, related⟩

theorem token {read read' : Numbered → Option α}
    (h : ∀ item item' a, E item item' → read item = some a → ∃ b, read' item' = some b ∧ R a b) :
    (token read).Relates E (token read') R := by
  rintro items items' a alike ⟨item, rfl, seen⟩
  obtain ⟨item', rest, same, none, rfl⟩ := List.forall₂_cons_left_iff.1 alike
  obtain ⟨b, seen', related⟩ := h item item' a same seen
  exact ⟨b, ⟨item', by rw [List.forall₂_nil_left_iff.1 none], seen'⟩, related⟩

theorem ofKind {kind : TokenKind}
    (h : ∀ item item', E item item' → item.kind = kind → item'.kind = kind) :
    (ofKind kind).Relates E (ofKind kind) Eq := by
  intro items items' u alike spelled
  obtain ⟨item, rfl, same⟩ := ofKind_iff.1 spelled
  obtain ⟨item', rest, likeness, none, rfl⟩ := List.forall₂_cons_left_iff.1 alike
  have kind := h item item' likeness same
  exact ⟨u, ofKind_iff.2 ⟨item', by rw [List.forall₂_nil_left_iff.1 none], kind⟩, rfl⟩

theorem require_of {condition condition' : Prop} (h : condition → condition') :
    (require condition).Relates E (require condition') Eq := by
  rintro items items' u alike ⟨rfl, holds⟩
  exact ⟨u, ⟨List.forall₂_nil_left_iff.1 alike, h holds⟩, rfl⟩

theorem require {condition : Prop} : (require condition).Relates E (require condition) Eq :=
  .require_of id

theorem optionally {phrase : Phrase Unit} (h : phrase.Relates E phrase Eq) :
    (optionally phrase).Relates E (optionally phrase) Eq :=
  .orElse h (.pure rfl)

theorem many (h : phrase.Relates E other R) :
    (many phrase).Relates E (many other) (List.Forall₂ R) := by
  intro items items' as alike spelled
  induction spelled generalizing items' with
  | none => exact ⟨[], List.forall₂_nil_left_iff.1 alike ▸ .none, .nil⟩
  | more first others ih =>
    obtain ⟨front', rest', rfl, alike₁, alike₂⟩ := exists_append_of_forall₂ alike
    obtain ⟨b, carried, related⟩ := h _ _ _ alike₁ first
    obtain ⟨bs, carried', related'⟩ := ih _ alike₂
    exact ⟨b :: bs, .more carried carried', .cons related related'⟩

theorem separated {separator : Phrase Unit} (between : separator.Relates E separator Eq)
    (h : phrase.Relates E other R) :
    (separated separator phrase).Relates E (separated separator other) (List.Forall₂ R) :=
  h.bind fun _ _ first => (many (between.andThen fun _ => h)).bind fun _ _ rest =>
    .pure (.cons first rest)

section

variable [KeepsKinds E]

theorem word {keyword : Keyword} : (word keyword).Relates E (word keyword) Eq :=
  .ofKind fun _ _ => KeepsKinds.keyword

theorem mark {punctuation : Punctuation} : (mark punctuation).Relates E (mark punctuation) Eq :=
  .ofKind fun _ _ => KeepsKinds.mark

theorem commaSeparated (h : phrase.Relates E other R) :
    (commaSeparated phrase).Relates E (commaSeparated other) (List.Forall₂ R) :=
  separated .mark h

theorem twoOrMore (h : phrase.Relates E other R) :
    (twoOrMore phrase).Relates E (twoOrMore other) (List.Forall₂ R) :=
  h.bind fun _ _ first => mark.andThen fun _ => (commaSeparated h).bind fun _ _ rest =>
    .pure (.cons first rest)

theorem parenthesized (h : phrase.Relates E other R) :
    (parenthesized phrase).Relates E (parenthesized other) (List.Forall₂ R) :=
  mark.andThen fun _ => (commaSeparated h).bind fun _ _ related => mark.andThen fun _ => .pure related

end

end Relates

end Phrase

end Cql
