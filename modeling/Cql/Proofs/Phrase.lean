/-
Phrases: what the parts of a grammar stand for.

A phrase says which stretches of tokens stand for which values.  It is a relation, so that it tells
nothing of how a stretch is found, what is looked at, or what happens to a text that has none.  Since a
bind marker stands for its ordinal, each token comes with the number of bind markers before it.

* `number` — the tokens of a text with their ordinals;
* `Phrase` — a part of a grammar; `Phrase.token`, `Phrase.many`, `Phrase.separated`, sequences in
  `do` blocks and alternatives with `<|>`;
* `Phrase.Gives` — what holds of all that a phrase stands for;
* `Phrase.Opens` — which tokens a phrase opens with.
-/
import Cql.Token.Basic

namespace Cql

/-- A lexeme and the number of bind markers in front of it. -/
structure Numbered where
  lexeme : Lexeme
  ordinal : Nat

def Numbered.kind (item : Numbered) : TokenKind := item.lexeme.kind

/-- The ordinal after a token of the given kind. -/
def ordinalAfter (kind : TokenKind) (ordinal : Nat) : Nat :=
  if kind = .punctuation .questionMark then ordinal + 1 else ordinal

/-- Lexemes with their ordinals, the first of which is given. -/
def number : Nat → List Lexeme → List Numbered
  | _, [] => []
  | ordinal, lexeme :: rest => ⟨lexeme, ordinal⟩ :: number (ordinalAfter lexeme.kind ordinal) rest

/-- Numbering leaves the lexemes as they are. -/
theorem map_lexeme_number (ordinal : Nat) (lexemes : List Lexeme) :
    (number ordinal lexemes).map (·.lexeme) = lexemes := by
  induction lexemes generalizing ordinal with
  | nil => rfl
  | cons lexeme lexemes ih => rw [number, List.map_cons, ih]

@[simp] theorem length_number (ordinal : Nat) (lexemes : List Lexeme) :
    (number ordinal lexemes).length = lexemes.length := by
  have same := congrArg List.length (map_lexeme_number ordinal lexemes)
  rwa [List.length_map] at same

/-- The numbers go on behind the lexemes in front. -/
theorem number_append (ordinal : Nat) (front rest : List Lexeme) :
    ∃ next, number ordinal (front ++ rest) = number ordinal front ++ number next rest := by
  induction front generalizing ordinal with
  | nil => exact ⟨ordinal, rfl⟩
  | cons lexeme front ih =>
    obtain ⟨next, same⟩ := ih (ordinalAfter lexeme.kind ordinal)
    refine ⟨next, ?_⟩
    rw [List.cons_append, number, same]
    rfl

/-- A part of a grammar: which stretches of tokens stand for which values. -/
def Phrase (α : Type) : Type := List Numbered → α → Prop

namespace Phrase

variable {α β : Type}

/-- Nothing stands for `a`; a phrase and then another stand for what the latter does. -/
instance : Monad Phrase where
  pure a := fun items b => items = [] ∧ b = a
  bind phrase next := fun items b =>
    ∃ front a rest, items = front ++ rest ∧ phrase front a ∧ next a rest b

/-- One phrase or the other. -/
instance : OrElse (Phrase α) where
  orElse phrase other := fun items a => phrase items a ∨ other () items a

/-- A single token. -/
def token (read : Numbered → Option α) : Phrase α := fun items a =>
  ∃ item, items = [item] ∧ read item = some a

def ofKind (kind : TokenKind) : Phrase Unit := token fun item =>
  if item.kind = kind then some () else none

/-- A keyword. -/
def word (keyword : Keyword) : Phrase Unit := ofKind (.keyword keyword)

def mark (punctuation : Punctuation) : Phrase Unit := ofKind (.punctuation punctuation)

/-- No token, under a condition. -/
def require (condition : Prop) : Phrase Unit := fun items _ => items = [] ∧ condition

def optionally (phrase : Phrase Unit) : Phrase Unit := phrase <|> pure ()

/-- Any number of stretches in a row. -/
inductive many (phrase : Phrase α) : Phrase (List α)
  | none : many phrase [] []
  | more {front rest : List Numbered} {a : α} {as : List α} (first : phrase front a)
      (others : many phrase rest as) : many phrase (front ++ rest) (a :: as)

/-- One or more stretches with separators between them. -/
def separated (separator : Phrase Unit) (phrase : Phrase α) : Phrase (List α) := do
  let first ← phrase
  let rest ← many (do separator; phrase)
  return first :: rest

def commaSeparated (phrase : Phrase α) : Phrase (List α) := separated (mark .comma) phrase

/-- Two or more stretches with commas between them. -/
def twoOrMore (phrase : Phrase α) : Phrase (List α) := do
  let first ← phrase
  mark .comma
  let rest ← commaSeparated phrase
  return first :: rest

/-- One or more stretches with commas between them, in parentheses. -/
def parenthesized (phrase : Phrase α) : Phrase (List α) := do
  mark .leftParen
  let items ← commaSeparated phrase
  mark .rightParen
  return items

/-- Kind of the first token of a stretch, or of the token after it if it is empty. -/
def opening (items : List Numbered) (next : TokenKind) : TokenKind :=
  match items with
  | [] => next
  | item :: _ => item.kind

theorem bind_iff {phrase : Phrase α} {next : α → Phrase β} {items : List Numbered} {b : β} :
    (phrase >>= next) items b ↔
      ∃ front a rest, items = front ++ rest ∧ phrase front a ∧ next a rest b := Iff.rfl

theorem orElse_iff {phrase other : Phrase α} {items : List Numbered} {a : α} :
    (phrase <|> other) items a ↔ phrase items a ∨ other items a := Iff.rfl

theorem map_iff {phrase : Phrase α} {f : α → β} {items : List Numbered} {b : β} :
    (f <$> phrase) items b ↔ ∃ a, phrase items a ∧ b = f a := by
  constructor
  · rintro ⟨front, a, rest, rfl, h, rfl, rfl⟩
    exact ⟨a, by rwa [List.append_nil], rfl⟩
  · rintro ⟨a, h, rfl⟩
    exact ⟨items, a, [], (List.append_nil items).symm, h, rfl, rfl⟩

theorem token_bind_iff {read : Numbered → Option α} {next : α → Phrase β} {items : List Numbered}
    {b : β} : (token read >>= next) items b ↔
      ∃ item rest a, items = item :: rest ∧ read item = some a ∧ next a rest b := by
  rw [bind_iff]
  constructor
  · rintro ⟨_, a, rest, rfl, ⟨item, rfl, seen⟩, h⟩
    exact ⟨item, rest, a, rfl, seen, h⟩
  · rintro ⟨item, rest, a, rfl, seen, h⟩
    exact ⟨[item], a, rest, rfl, ⟨item, rfl, seen⟩, h⟩

theorem ofKind_iff {kind : TokenKind} {items : List Numbered} {u : Unit} :
    ofKind kind items u ↔ ∃ item, items = [item] ∧ item.kind = kind := by
  simp [ofKind, token]

theorem ofKind_bind_iff {kind : TokenKind} {next : Unit → Phrase β} {items : List Numbered}
    {b : β} :
    (ofKind kind >>= next) items b ↔
      ∃ item rest, items = item :: rest ∧ item.kind = kind ∧ next () rest b := by
  rw [bind_iff]
  constructor
  · rintro ⟨front, u, rest, rfl, first, second⟩
    obtain ⟨item, rfl, same⟩ := ofKind_iff.1 first
    exact ⟨item, rest, rfl, same, second⟩
  · rintro ⟨item, rest, rfl, same, second⟩
    exact ⟨[item], (), rest, rfl, ofKind_iff.2 ⟨item, rfl, same⟩, second⟩

@[ext] theorem ext {phrase other : Phrase α} (h : ∀ items a, phrase items a ↔ other items a) :
    phrase = other :=
  funext fun items => funext fun a => propext (h items a)

theorem pure_append {a : α} {next : α → Phrase β} : (pure a >>= next : Phrase β) = next a := by
  ext items b
  constructor
  · rintro ⟨front, _, rest, rfl, ⟨rfl, rfl⟩, h⟩
    exact h
  · exact fun h => ⟨[], a, items, rfl, ⟨rfl, rfl⟩, h⟩

/-- It does not matter how three phrases in a row are grouped. -/
theorem append_assoc {γ : Type} (phrase : Phrase α) (next : α → Phrase β) (last : β → Phrase γ) :
    (phrase >>= next >>= last) = phrase >>= fun a => next a >>= last := by
  ext items c
  constructor
  · rintro ⟨_, b, rest, rfl, ⟨front, a, middle, rfl, first, second⟩, third⟩
    exact ⟨front, a, middle ++ rest, List.append_assoc .., first, middle, b, rest, rfl, second,
      third⟩
  · rintro ⟨front, a, _, rfl, first, middle, b, rest, rfl, second, third⟩
    exact ⟨front ++ middle, b, rest, (List.append_assoc ..).symm,
      ⟨front, a, middle, rfl, first, second⟩, third⟩

theorem id_map (phrase : Phrase α) : id <$> phrase = phrase := by
  ext items a
  simp [map_iff]

instance : LawfulMonad Phrase :=
  LawfulMonad.mk' Phrase id_map (fun _ _ => pure_append) append_assoc

theorem orElse_comm (phrase other : Phrase α) : (phrase <|> other) = (other <|> phrase) := by
  ext items a
  exact or_comm

theorem orElse_assoc (first second third : Phrase α) :
    ((first <|> second) <|> third) = (first <|> second <|> third) := by
  ext items a
  exact or_assoc

theorem orElse_reverse (first second third : Phrase α) :
    (first <|> second <|> third) = (third <|> second <|> first) := by
  rw [← orElse_assoc, orElse_comm, orElse_comm first]

/-- What follows two alternatives. -/
theorem orElse_bind (phrase other : Phrase α) (next : α → Phrase β) :
    ((phrase <|> other) >>= next) = ((phrase >>= next) <|> (other >>= next)) := by
  ext items b
  constructor
  · rintro ⟨front, a, rest, rfl, h | h, h'⟩
    · exact .inl ⟨front, a, rest, rfl, h, h'⟩
    · exact .inr ⟨front, a, rest, rfl, h, h'⟩
  · rintro (⟨front, a, rest, rfl, h, h'⟩ | ⟨front, a, rest, rfl, h, h'⟩)
    · exact ⟨front, a, rest, rfl, .inl h, h'⟩
    · exact ⟨front, a, rest, rfl, .inr h, h'⟩

/-- What two alternatives have in common in front. -/
theorem bind_orElse (phrase : Phrase α) (next other : α → Phrase β) :
    (phrase >>= fun a => next a <|> other a) = ((phrase >>= next) <|> (phrase >>= other)) := by
  ext items b
  constructor
  · rintro ⟨front, a, rest, rfl, h, h' | h'⟩
    · exact .inl ⟨front, a, rest, rfl, h, h'⟩
    · exact .inr ⟨front, a, rest, rfl, h, h'⟩
  · rintro (⟨front, a, rest, rfl, h, h'⟩ | ⟨front, a, rest, rfl, h, h'⟩)
    · exact ⟨front, a, rest, rfl, h, .inl h'⟩
    · exact ⟨front, a, rest, rfl, h, .inr h'⟩

theorem map_orElse (phrase other : Phrase α) (f : α → β) :
    (f <$> (phrase <|> other)) = ((f <$> phrase) <|> (f <$> other)) :=
  orElse_bind phrase other fun a => pure (f a)

theorem many_map (phrase : Phrase α) (f : α → β) : many (f <$> phrase) = List.map f <$> many phrase := by
  ext items bs
  rw [map_iff]
  constructor
  · intro h
    induction h with
    | none => exact ⟨[], .none, rfl⟩
    | more first others ih =>
      obtain ⟨a, spelled, rfl⟩ := map_iff.1 first
      obtain ⟨as, spelled', rfl⟩ := ih
      exact ⟨a :: as, .more spelled spelled', rfl⟩
  · rintro ⟨as, h, rfl⟩
    induction h with
    | none => exact .none
    | more first others ih => exact .more (map_iff.2 ⟨_, first, rfl⟩) ih

theorem separated_map (separator : Phrase Unit) (phrase : Phrase α) (f : α → β) :
    separated separator (f <$> phrase) = List.map f <$> separated separator phrase := by
  have entry : (do separator; f <$> phrase) = f <$> (do separator; phrase) := by
    rw [map_bind]
  unfold separated
  rw [entry, many_map]
  simp only [map_eq_pure_bind, bind_assoc, pure_bind, List.map_cons]

/-- One or more stretches in a row are any number of them, but not none. -/
theorem many_ne_nil (phrase : Phrase α) (next : List α → Phrase β) :
    (do
      let first ← phrase
      let rest ← many phrase
      next (first :: rest)) = (do
      let all ← many phrase
      require (all ≠ [])
      next all) := by
  ext items b
  constructor
  · rintro ⟨front, a, _, rfl, first, middle, as, rest, rfl, others, h⟩
    refine ⟨front ++ middle, a :: as, rest, (List.append_assoc ..).symm, .more first others, [], (),
      rest, rfl, ⟨rfl, by simp⟩, h⟩
  · rintro ⟨front, all, _, rfl, spelled, _, u, rest, rfl, ⟨rfl, some⟩, h⟩
    cases spelled with
    | none => exact absurd rfl some
    | @more front middle a as first others =>
      exact ⟨front, a, middle ++ rest, List.append_assoc .., first, middle, as, rest, rfl, others, h⟩

/-! ### What phrases stand for -/

/-- Whatever the phrase stands for has the property. -/
def Gives (phrase : Phrase α) (P : α → Prop) : Prop := ∀ items a, phrase items a → P a

namespace Gives

variable {P : α → Prop}

theorem pure {a : α} (h : P a) : (pure a : Phrase α).Gives P := by
  rintro items b ⟨-, rfl⟩
  exact h

theorem bind {phrase : Phrase β} {next : β → Phrase α} (h : ∀ b, (next b).Gives P) :
    (phrase >>= next).Gives P := by
  rintro items a ⟨front, b, rest, -, -, spelled⟩
  exact h b rest a spelled

theorem orElse {phrase other : Phrase α} (first : phrase.Gives P) (second : other.Gives P) :
    (phrase <|> other).Gives P := by
  rintro items a (spelled | spelled)
  · exact first items a spelled
  · exact second items a spelled

theorem andThen {Q : β → Prop} {phrase : Phrase β} {next : β → Phrase α} (first : phrase.Gives Q)
    (second : ∀ b, Q b → (next b).Gives P) : (phrase >>= next).Gives P := by
  rintro items a ⟨front, b, rest, -, spelled, spelled'⟩
  exact second b (first front b spelled) rest a spelled'

theorem map {phrase : Phrase β} {f : β → α} (h : phrase.Gives fun b => P (f b)) :
    (f <$> phrase).Gives P := by
  intro items a spelled
  obtain ⟨b, spelled', rfl⟩ := map_iff.1 spelled
  exact h items b spelled'

theorem many {phrase : Phrase α} (h : phrase.Gives P) : (many phrase).Gives fun as => ∀ a ∈ as, P a := by
  intro items as spelled
  induction spelled with
  | none => exact fun a mem => absurd mem (List.not_mem_nil)
  | more first others ih => exact List.forall_mem_cons.2 ⟨h _ _ first, ih⟩

theorem separated {separator : Phrase Unit} {phrase : Phrase α} (h : phrase.Gives P) :
    (separated separator phrase).Gives fun as => ∀ a ∈ as, P a := by
  refine h.andThen fun a holds => ?_
  have others : (Phrase.many do separator; phrase).Gives fun as => ∀ a ∈ as, P a :=
    many (.bind fun _ => h)
  exact others.andThen fun as all => .pure (List.forall_mem_cons.2 ⟨holds, all⟩)

end Gives

/-! ### What phrases open with -/

/-- Any token. -/
def anything : TokenKind → Prop := fun _ => True

theorem ne_of_test {test : TokenKind → Bool} {kind wanted : TokenKind} (h : test kind = true)
    (other : test wanted = false) : kind ≠ wanted := by
  rintro rfl
  rw [other] at h
  exact absurd h (by simp)

/-- Where one of the tokens `follow` comes after it, the phrase and what comes after it open with one
of the tokens `good`. -/
def Opens (phrase : Phrase α) (follow good : TokenKind → Prop) : Prop :=
  ∀ items a next, phrase items a → follow next → good (opening items next)

theorem opening_append (front rest : List Numbered) (next : TokenKind) :
    opening (front ++ rest) next = opening front (opening rest next) := by
  cases front <;> rfl

namespace Opens

variable {follow mid good : TokenKind → Prop}

theorem pure (a : α) (h : ∀ kind, follow kind → good kind) :
    (pure a : Phrase α).Opens follow good := by
  rintro items b next ⟨rfl, -⟩ follows
  exact h next follows

theorem require {condition : Prop} (h : ∀ kind, follow kind → good kind) :
    (require condition).Opens follow good := by
  rintro items u next ⟨rfl, -⟩ follows
  exact h next follows

theorem token {read : Numbered → Option α}
    (h : ∀ item a, read item = some a → good item.kind) : (token read).Opens follow good := by
  rintro items a next ⟨item, rfl, seen⟩ -
  exact h item a seen

theorem ofKind {kind : TokenKind} (h : good kind) : (ofKind kind).Opens follow good := by
  intro items u next spelled _
  obtain ⟨item, rfl, same⟩ := ofKind_iff.1 spelled
  rw [← same] at h
  exact h

theorem bind {phrase : Phrase α} {rest : α → Phrase β} (first : phrase.Opens mid good)
    (second : ∀ a, (rest a).Opens follow mid) : (phrase >>= rest).Opens follow good := by
  rintro items b next ⟨front, a, back, rfl, spelled, spelled'⟩ follows
  rw [opening_append]
  exact first front a _ spelled (second a back b next spelled' follows)

/-- A phrase that is never empty, and whatever comes after it. -/
theorem andThen {phrase : Phrase α} {rest : α → Phrase β} (first : phrase.Opens anything good) :
    (phrase >>= rest).Opens follow good :=
  first.bind fun _ _ _ _ _ _ => trivial

theorem map {phrase : Phrase α} {f : α → β} (h : phrase.Opens follow good) :
    (f <$> phrase).Opens follow good := by
  intro items b next spelled follows
  obtain ⟨a, spelled', -⟩ := map_iff.1 spelled
  exact h items a next spelled' follows

theorem orElse {phrase other : Phrase α} (first : phrase.Opens follow good)
    (second : other.Opens follow good) : (phrase <|> other).Opens follow good := by
  rintro items a next (spelled | spelled) follows
  · exact first items a next spelled follows
  · exact second items a next spelled follows

/-- A clause that may be missing. -/
theorem clause {kind : TokenKind} {phrase : Phrase α} {a : α} (h : good kind)
    (more : ∀ kind, follow kind → good kind) :
    ((do Phrase.ofKind kind; phrase) <|> Pure.pure a).Opens follow good :=
  .orElse (.andThen (.ofKind h)) (.pure a more)

theorem weaken {phrase : Phrase α} {follow' good' : TokenKind → Prop}
    (h : phrase.Opens follow good) (fewer : ∀ kind, follow' kind → follow kind)
    (more : ∀ kind, good kind → good' kind) : phrase.Opens follow' good' :=
  fun items a next spelled follows => more _ (h items a next spelled (fewer next follows))

theorem avoids {phrase : Phrase α} {test : TokenKind → Bool} {kind : TokenKind}
    (h : phrase.Opens anything (test · = true)) (other : test kind = false) :
    phrase.Opens follow (· ≠ kind) :=
  h.weaken (fun _ _ => trivial) fun _ passed => ne_of_test passed other

/-- What never opens with an end of input is never empty. -/
theorem not_nil {phrase : Phrase α} (h : phrase.Opens anything good) (never : ¬ good .endOfInput)
    (a : α) : ¬ phrase [] a :=
  fun spelled => never (h [] a .endOfInput spelled trivial)

theorem many {phrase : Phrase α} (first : phrase.Opens anything good)
    (ends : ∀ kind, follow kind → good kind) : (many phrase).Opens follow good := by
  intro items as next spelled follows
  cases spelled with
  | none => exact ends next follows
  | @more front rest a as h others =>
    rw [opening_append]
    exact first front a _ h trivial

theorem separated {separator : Phrase Unit} {phrase : Phrase α}
    (first : phrase.Opens anything good) : (separated separator phrase).Opens follow good :=
  first.andThen

end Opens

end Phrase

end Cql
