/-
Properties, whatever their values.

A property whose value is a bind marker, or a map that is not made of constants, is reported, and the list
goes on behind it as if nothing had been wrong.  Of a map, the entries in front of the first bad one are
kept; of a bind marker, nothing is.  A bind marker that is refused is not numbered, so the markers behind
it have other numbers than those that a text gives them.  But no number is written, and neither what is
kept nor what is reported tells of one.

* `Language.RawProperty`, `Language.rawProperties` — properties as they are written, good and bad;
* `Language.RawProperty.recorded?`, `Language.RawProperty.complaint?` — what is kept of one, and what is
  said about it;
* `Language.RawProperty.isSome_complaint?_iff` — which are complained about;
* `Language.related_rawProperty` — the numbers of bind markers make no difference to either;
* `Grammar.run_property_of_spelled` — one property;
* `Grammar.run_properties_of_spelled` — **a list of properties** is read to its end, with one report for
  each that is bad, and of each name what is recorded last.
-/
import Cql.Proofs.Erasure
import Cql.Proofs.LastWins
import Cql.Proofs.Properties
import Cql.Proofs.Stretches

namespace Cql

open Grammar

/-! ### Properties as they are written -/

namespace Language

open Phrase

/-- What can stand behind the equal sign of a property, acceptable or not. -/
inductive RawValue
  | text (text : String)
  | marker
  | map (entries : List (Value × Value))

structure RawProperty where
  name : Identifier
  value : RawValue

/-- A constant or an unreserved keyword, a bind marker, or a map literal of any values. -/
def rawValue : Phrase RawValue :=
  (.text <$> (constantText <|> unreservedWord)) <|>
  (do
    mark .questionMark
    return .marker) <|>
  (.map <$> mapLiteral value)

/-- A property, `name '=' value`. -/
def rawProperty : Phrase RawProperty := do
  let name ← identifier
  mark .equal
  return ⟨name, ← rawValue⟩

/-- A list of properties, `property (AND property)*`. -/
def rawProperties : Phrase (List RawProperty) := separated (word .AND) rawProperty

/-- The texts of the entries in front of the first one that is not made of constants. -/
def constantEntries (entries : List (Value × Value)) : List (String × String) :=
  (entries.takeWhile fun entry => (entryTexts? entry).isSome).filterMap entryTexts?

/-- What is wrong with an entry that is not made of constants. -/
def entryProblem (entry : Value × Value) : Problem :=
  match entry.1.constantText? with
  | none => .propertyKey entry.1
  | some _ => .propertyValue entry.2 entry.1.render

/-- What is wrong with the first entry that is not made of constants. -/
def entriesProblem? (entries : List (Value × Value)) : Option Problem :=
  (entries.find? fun entry => (entryTexts? entry).isNone).map entryProblem

theorem entryTexts?_eq_none_iff {entry : Value × Value} :
    entryTexts? entry = none ↔ entry.1.constantText? = none ∨ entry.2.constantText? = none := by
  unfold entryTexts?
  cases entry.1.constantText? with
  | none => simp
  | some keyText =>
    cases entry.2.constantText? with
    | none => simp
    | some valueText => simp

namespace RawProperty

/-- What is kept of a property: a text as it is, a map as far as it is made of constants. -/
def recorded? (property : RawProperty) : Option (String × PropertyValue) :=
  match property.value with
  | .text text => some (property.name.text, .text text)
  | .marker => none
  | .map entries => some (property.name.text, .map (.ofList (constantEntries entries)))

/-- What is wrong with a property. -/
def problem? (property : RawProperty) : Option Problem :=
  match property.value with
  | .text _ => none
  | .marker => some (.propertyValue (.term (.marker 0)) property.name.render)
  | .map entries => entriesProblem? entries

/-- What is said about a property, if anything. -/
def complaint? (property : RawProperty) : Option String := property.problem?.map Problem.message

/-- Only maps are kept as maps. -/
theorem value_of_recorded?_map {property : RawProperty} {name : String} {map : TextMap String}
    (recorded : property.recorded? = some (name, .map map)) :
    ∃ entries, property.value = .map entries ∧ map = .ofList (constantEntries entries) := by
  obtain ⟨_, value⟩ := property
  cases value with
  | text | marker => cases recorded
  | map entries =>
    cases recorded
    exact ⟨entries, rfl, rfl⟩

/-- Bind markers are complained about, and maps that are not made of constants, and nothing else. -/
theorem isSome_complaint?_iff (property : RawProperty) : property.complaint?.isSome ↔
    property.value = .marker ∨ ∃ entries, property.value = .map entries ∧
      ∃ entry ∈ entries, entry.1.constantText? = none ∨ entry.2.constantText? = none := by
  obtain ⟨_, value⟩ := property
  cases value with
  | text => simp [complaint?, problem?]
  | marker => simp [complaint?, problem?]
  | map entries => simp [complaint?, problem?, entriesProblem?, entryTexts?_eq_none_iff]

end RawProperty

/-! ### Numbers make no difference -/

theorem constantText?_of_agree {value value' : Value} (h : Agree value value') :
    value'.constantText? = value.constantText? := by
  cases value with
  | term term =>
    cases value' with
    | term term' =>
      have same : term.erase = term'.erase := Term.agree_iff.1 h
      cases term <;> cases term' <;> first | rfl | (cases same; rfl) | cases same
    | _ => cases h
  | _ => cases value' <;> first | rfl | cases h

theorem isMarker_of_agree {value value' : Value} (h : Agree value value') :
    value'.isMarker = value.isMarker := by
  cases value with
  | term term =>
    cases value' with
    | term term' => cases term <;> cases term' <;> first | rfl | cases h
    | _ => cases h
  | _ => cases value' <;> first | rfl | cases h

theorem markerRemark_of_agree {value value' : Value} (h : Agree value value') :
    Problem.markerRemark value' = Problem.markerRemark value := by
  rw [Problem.markerRemark, isMarker_of_agree h, Problem.markerRemark]

theorem message_propertyKey_of_agree {key key' : Value} (h : Agree key key') :
    (Problem.propertyKey key').message = (Problem.propertyKey key).message := by
  show _ ++ key'.render ++ Problem.markerRemark key' = _
  rw [← Value.render_of_agree h, markerRemark_of_agree h]
  rfl

theorem message_propertyValue_of_agree {value value' : Value} (h : Agree value value') {name : String} :
    (Problem.propertyValue value' name).message = (Problem.propertyValue value name).message := by
  show _ ++ value'.render ++ _ ++ name ++ Problem.markerRemark value' = _
  rw [← Value.render_of_agree h, markerRemark_of_agree h]
  rfl

variable {entry entry' : Value × Value} {entries entries' : List (Value × Value)}

theorem entryTexts?_of_agree (h : Agree entry entry') : entryTexts? entry' = entryTexts? entry := by
  obtain ⟨keys, values⟩ := Bool.and_eq_true_iff.1 h
  rw [entryTexts?, constantText?_of_agree keys, constantText?_of_agree values, entryTexts?]

theorem message_entryProblem_of_agree (h : Agree entry entry') :
    (entryProblem entry').message = (entryProblem entry).message := by
  obtain ⟨keys, values⟩ := Bool.and_eq_true_iff.1 h
  unfold entryProblem
  rw [constantText?_of_agree keys, Value.render_of_agree keys]
  cases entry.1.constantText? with
  | none => exact message_propertyKey_of_agree keys
  | some text => exact message_propertyValue_of_agree values

theorem constantEntries_of_agree (h : List.Forall₂ Agree entries entries') :
    constantEntries entries' = constantEntries entries := by
  unfold constantEntries
  induction h with
  | nil => rfl
  | cons first _ ih =>
    rw [List.takeWhile_cons, List.takeWhile_cons, entryTexts?_of_agree first]
    split
    · rw [List.filterMap_cons, List.filterMap_cons, entryTexts?_of_agree first, ih]
    · rfl

theorem message_entriesProblem?_of_agree (h : List.Forall₂ Agree entries entries') :
    (entriesProblem? entries').map Problem.message = (entriesProblem? entries).map Problem.message := by
  unfold entriesProblem?
  induction h with
  | nil => rfl
  | cons first _ ih =>
    rw [List.find?_cons, List.find?_cons, entryTexts?_of_agree first]
    split
    · exact congrArg some (message_entryProblem_of_agree first)
    · exact ih

/-- The same value, but for the numbers of bind markers. -/
inductive RawValue.Alike : RawValue → RawValue → Prop
  | text {text : String} : Alike (.text text) (.text text)
  | marker : Alike .marker .marker
  | map {entries entries' : List (Value × Value)} (same : List.Forall₂ Agree entries entries') :
      Alike (.map entries) (.map entries')

/-- The same property, but for the numbers of bind markers. -/
def RawProperty.Alike (property other : RawProperty) : Prop :=
  property.name = other.name ∧ property.value.Alike other.value

theorem RawProperty.Alike.recorded?_eq {property other : RawProperty} (alike : property.Alike other) :
    other.recorded? = property.recorded? := by
  obtain ⟨name, value⟩ := property
  obtain ⟨_, value'⟩ := other
  obtain ⟨rfl, values⟩ := alike
  cases values with
  | text | marker => rfl
  | map same => simp only [recorded?, constantEntries_of_agree same]

theorem RawProperty.Alike.complaint?_eq {property other : RawProperty} (alike : property.Alike other) :
    other.complaint? = property.complaint? := by
  obtain ⟨name, value⟩ := property
  obtain ⟨_, value'⟩ := other
  obtain ⟨rfl, values⟩ := alike
  cases values with
  | text | marker => rfl
  | map same => exact message_entriesProblem?_of_agree same

/-- The numbers of bind markers make no difference to a property. -/
theorem related_rawProperty :
    rawProperty.Relates Numbered.SameLexeme rawProperty RawProperty.Alike := by
  have constant : constantText.Numberless := by
    refine Relates.token fun item item' text same seen => ⟨text, ?_, rfl⟩
    rwa [Numbered.kind, same]
  have word : unreservedWord.Numberless := by
    refine Relates.token fun item item' text same seen => ⟨text, ?_, rfl⟩
    rwa [Numbered.kind, same]
  have entries : (mapLiteral value).Relates Numbered.SameLexeme (mapLiteral value) (List.Forall₂ Agree) :=
    .andThen .mark fun _ => .orElse (.andThen .mark fun _ => .pure .nil)
      ((Relates.commaSeparated (unnumbered_mapEntry unnumbered_value)).bind fun _ _ same =>
        .andThen .mark fun _ => .pure same)
  have values : rawValue.Relates Numbered.SameLexeme rawValue RawValue.Alike :=
    .orElse ((Relates.orElse constant word).map fun _ _ same => same ▸ .text) <|
    .orElse (.andThen .mark fun _ => .pure .marker) (entries.map fun _ _ same => .map same)
  exact .andThen numberless_identifier fun _ => .andThen .mark fun _ =>
    values.bind fun _ _ same => .pure ⟨rfl, same⟩

end Language

/-! ### The same tokens from elsewhere on -/

namespace State

variable {state other after : State} {items : List Numbered}

/-- What comes next is a matter of the stream. -/
theorem lexeme_of_stream (same : other.stream = state.stream) (n : Nat) :
    other.lexeme n = state.lexeme n := by
  unfold lexeme
  rw [same]

/-- A state with another count of bind markers passes the same lexemes, with other numbers. -/
theorem Passes.renumber (passes : state.Passes items after) (same : other.stream = state.stream) :
    ∃ items' after', other.Passes items' after' ∧ after'.stream = after.stream ∧
      List.Forall₂ Numbered.SameLexeme items items' := by
  induction passes generalizing other with
  | nothing state => exact ⟨[], other, .nothing other, same, .nil⟩
  | @one state after items inside others ih =>
    have lexeme := lexeme_of_stream same 0
    have moved : other.next.stream = state.next.stream := congrArg TokenStream.advance same
    obtain ⟨items', after', passes', atEnd, alike⟩ := ih moved
    have inside' : other.kind ≠ .endOfInput := by rwa [kind, lexeme]
    exact ⟨_, after', .one inside' passes', atEnd, .cons lexeme alike⟩

end State

/-! ### One property -/

/-- The code and the message of a report. -/
def Report.wording (report : Report) : String × String := (report.problem.code, report.problem.message)

namespace Rule

variable {α β : Type} {state mid : State} {stream : TokenStream} {said : List (String × String)}

/-- The rule comes to `a` in front of the rest of the stream, and no more is reported than what is said. -/
def ComesTo (rule : Rule α) (state : State) (a : α) (stream : TokenStream) (said : List (String × String)) :
    Prop :=
  ∃ final reports, rule.run state = ⟨.ok a, final, reports⟩ ∧ final.stream = stream ∧
    reports.map Report.wording = said

theorem Reads.comesTo {rule : Rule α} {a : α} {after : State} (reads : rule.Reads state a after) :
    rule.ComesTo state a after.stream [] :=
  ⟨after, [], reads, rfl, rfl⟩

/-- What is read first is not heard of. -/
theorem Reads.comesTo_bind {rule : Rule α} {next : α → Rule β} {a : α} {b : β}
    (reads : rule.Reads state a mid) (second : (next a).ComesTo mid b stream said) :
    (rule >>= next).ComesTo state b stream said := by
  unfold ComesTo
  rwa [reads.run_bind]

end Rule

namespace Grammar

open Phrase Cql.Language

variable {state other after : State} {items : List Numbered}

/-- A map of constants ends at the first entry that is not made of them. -/
theorem propertyEntries_eq (entries : List (Value × Value)) :
    propertyEntries entries = (constantEntries entries, entriesProblem? entries) := by
  induction entries with
  | nil => rfl
  | cons entry rest ih =>
    obtain ⟨key, value⟩ := entry
    cases isKey : key.constantText? with
    | none => simp [propertyEntries, constantEntries, entriesProblem?, entryTexts?, entryProblem, isKey]
    | some keyText =>
      cases isValue : value.constantText? with
      | none =>
        simp [propertyEntries, constantEntries, entriesProblem?, entryTexts?, entryProblem, isKey, isValue]
      | some valueText =>
        have whole : entryTexts? (key, value) = some (keyText, valueText) := by
          simp [entryTexts?, isKey, isValue]
        simp [propertyEntries, ih, constantEntries, entriesProblem?, whole, isKey, isValue]

/-- A map is kept as far as it is made of constants, whether or not it is reported. -/
theorem run_propertyMap {entries : List (Value × Value)}
    (reads : (mapLiteral Grammar.value).Reads state entries after) :
    propertyMap.run state = ⟨.ok (.map (.ofList (constantEntries entries))), after,
      (entriesProblem? entries).toList.map fun problem =>
        ⟨problem, .stretch state.stream.position (after.stream.position - 1)⟩⟩ := by
  unfold propertyMap
  rw [(Rule.reads_position.2 ⟨rfl, rfl⟩).run_bind, reads.run_bind, propertyEntries_eq]
  cases entriesProblem? entries with
  | none => rfl
  | some problem => rfl

/-- A bind marker is reported and taken, but not numbered. -/
theorem run_settingOf_of_marker (name : Identifier) (marker : state.kind = .punctuation .questionMark) :
    (settingOf name).run state = ⟨.ok none, state.advance,
      [⟨.propertyValue (.term (.marker 0)) name.render, .token state.stream.position⟩]⟩ := by
  unfold settingOf
  have looked : Rule.kind.Reads state state.kind state := rfl
  rw [looked.run_bind, marker]
  rfl

/-- A map is recorded as far as it is kept. -/
theorem run_settingOf_of_map (name : Identifier) {entries : List (Value × Value)}
    (brace : state.kind = .punctuation .leftBrace)
    (reads : (mapLiteral Grammar.value).Reads state entries after) :
    (settingOf name).run state = ⟨.ok (some (name.text, .map (.ofList (constantEntries entries)))), after,
      (entriesProblem? entries).toList.map fun problem =>
        ⟨problem, .stretch state.stream.position (after.stream.position - 1)⟩⟩ := by
  unfold settingOf
  have looked : Rule.kind.Reads state state.kind state := rfl
  rw [looked.run_bind, brace]
  exact Rule.run_bind_of_reads (run_propertyMap reads) (Rule.reads_pure.2 ⟨rfl, rfl⟩)

theorem code_of_entriesProblem? {entries : List (Value × Value)} {problem : Problem}
    (h : entriesProblem? entries = some problem) : problem.code = "P011" := by
  obtain ⟨entry, -, rfl⟩ := Option.map_eq_some_iff.1 h
  unfold entryProblem
  split
  · rfl
  · rfl

theorem code_of_problem? {property : RawProperty} {problem : Problem}
    (h : property.problem? = some problem) : problem.code = "P011" := by
  unfold RawProperty.problem? at h
  split at h
  · cases h
  · cases h
    rfl
  · exact code_of_entriesProblem? h

theorem wording_of_problem? (property : RawProperty) (place : Place) :
    (property.problem?.toList.map fun problem => (⟨problem, place⟩ : Report)).map Report.wording =
      property.complaint?.toList.map ("P011", ·) := by
  unfold RawProperty.complaint?
  cases found : property.problem? with
  | none => rfl
  | some problem =>
    show [(problem.code, problem.message)] = [("P011", problem.message)]
    rw [code_of_problem? found]

/-- What stands behind the equal sign is taken as it is, good or bad. -/
theorem comesTo_settingOf {name : Identifier} {value : RawValue} (passes : state.Passes items after)
    (spelled : rawValue items value) :
    (settingOf name).ComesTo state (RawProperty.recorded? ⟨name, value⟩) after.stream
      ((RawProperty.complaint? ⟨name, value⟩).toList.map ("P011", ·)) := by
  rcases spelled with spelled | spelled | spelled
  · obtain ⟨text, spelledText, rfl⟩ := map_iff.1 spelled
    have good : propertyValue items (.text text) := by
      rcases spelledText with constant | word
      · exact .inl (map_iff.2 ⟨text, constant, rfl⟩)
      · exact .inr (.inl (map_iff.2 ⟨text, word, rfl⟩))
    exact ((recognizes_settingOf name).complete _ _ _ _ passes (map_iff.2 ⟨_, good, rfl⟩) trivial).comesTo
  · -- The marker is not numbered, so only the stream ends up where the stretch does.
    obtain ⟨item, rest, rfl, marker, rfl, rfl⟩ := ofKind_bind_iff.1 spelled
    obtain ⟨-, rfl, rfl⟩ := State.Passes.one_iff.1 passes
    exact ⟨state.advance, _, run_settingOf_of_marker name marker, rfl, rfl⟩
  · obtain ⟨entries, literal, rfl⟩ := map_iff.1 spelled
    have reads := (recognizes_mapLiteral recognizes_value opens_value).complete _ _ _ _ passes literal trivial
    have brace : state.kind = .punctuation .leftBrace := by
      obtain ⟨item, rest, rfl, opens, -⟩ := ofKind_bind_iff.1 literal
      rw [passes.kind_eq]
      exact opens
    exact ⟨after, _, run_settingOf_of_map name brace reads, rfl, wording_of_problem? ⟨name, .map entries⟩ _⟩

/-- One property, where the tokens have the numbers that they really get. -/
theorem comesTo_property {property : RawProperty} (passes : state.Passes items after)
    (spelled : rawProperty items property) :
    Grammar.property.ComesTo state property.recorded? after.stream
      (property.complaint?.toList.map ("P011", ·)) := by
  obtain ⟨front, name, _, rfl, spelledName, middle, u, _, rfl, equal, _, value, _, rfl, spelledValue, rfl,
    rfl⟩ := spelled
  obtain ⟨behindName, passesName, passes⟩ := passes.split
  obtain ⟨behindSign, passesSign, passes⟩ := passes.split
  rw [List.append_nil] at passes
  rw [property_eq]
  exact ((recognizes_identifier _).complete _ _ _ _ passesName spelledName trivial).comesTo_bind <|
    ((Rule.Recognizes.symbol _ rfl).complete _ _ _ _ passesSign equal trivial).comesTo_bind <|
    comesTo_settingOf passes spelledValue

/-- **One property** is taken as it is, good or bad.  The numbers of its bind markers make no difference. -/
theorem run_property_of_spelled {property : RawProperty} (passes : state.Passes items after)
    (same : other.stream = state.stream) (spelled : rawProperty items property) :
    Grammar.property.ComesTo other property.recorded? after.stream
      (property.complaint?.toList.map ("P011", ·)) := by
  obtain ⟨items', after', passes', atEnd, alike⟩ := passes.renumber same
  obtain ⟨property', spelled', related⟩ := related_rawProperty _ _ _ alike spelled
  rw [← related.recorded?_eq, ← related.complaint?_eq, ← atEnd]
  exact comesTo_property passes' spelled'

/-! ### Lists of properties -/

theorem complaints_cons (property : RawProperty) (others : List RawProperty) :
    property.complaint?.toList.map ("P011", ·) ++ (others.filterMap (·.complaint?)).map ("P011", ·) =
      ((property :: others).filterMap (·.complaint?)).map ("P011", ·) := by
  rw [List.filterMap_cons]
  cases property.complaint? with
  | none => rfl
  | some message => rfl

/-- Behind a property, the list goes on as far as there are more. -/
theorem comesTo_following {written : List RawProperty} (passes : state.Passes items after)
    (same : other.stream = state.stream)
    (spelled : many (do word .AND; rawProperty) items written) (ends : after.kind ≠ .keyword .AND) :
    (Rule.following (.keyword .AND) Grammar.property).ComesTo other (written.map (·.recorded?)) after.stream
      ((written.filterMap (·.complaint?)).map ("P011", ·)) := by
  induction spelled generalizing state other with
  | none =>
    obtain rfl := State.Passes.nil_iff.1 passes
    have ends' : other.kind ≠ .keyword .AND := by rwa [State.kind, State.lexeme_of_stream same]
    exact ⟨other, [], Rule.run_following_of_ne ends', same, rfl⟩
  | @more front rest property written first others ih =>
    obtain ⟨mid, passesFirst, passesOthers⟩ := passes.split
    obtain ⟨item, back, rfl, separates, spelled⟩ := ofKind_bind_iff.1 first
    obtain ⟨-, rfl, passesOne⟩ := State.Passes.cons_iff.1 passesFirst
    have separates' : other.kind = .keyword .AND := by
      rw [State.kind, State.lexeme_of_stream same]
      exact separates
    have moved : other.advance.stream = state.next.stream := congrArg TokenStream.advance same
    obtain ⟨final, reports, run, atMid, said⟩ := run_property_of_spelled passesOne moved spelled
    obtain ⟨final', reports', run', atEnd, said'⟩ := ih passesOthers atMid
    refine ⟨final', reports ++ reports', ?_, atEnd, ?_⟩
    · exact Rule.run_following_of_run separates' (by decide) run run'
    · rw [List.map_append, said, said', complaints_cons]

theorem comesTo_separated {written : List RawProperty} (passes : state.Passes items after)
    (spelled : rawProperties items written) (ends : after.kind ≠ .keyword .AND) :
    (Rule.separated (.keyword .AND) Grammar.property).ComesTo state (written.map (·.recorded?)) after.stream
      ((written.filterMap (·.complaint?)).map ("P011", ·)) := by
  obtain ⟨front, first, _, rfl, spelledFirst, middle, others, _, rfl, spelledOthers, rfl, rfl⟩ := spelled
  obtain ⟨mid, passesFirst, passesOthers⟩ := passes.split
  rw [List.append_nil] at passesOthers
  obtain ⟨last, reports, run, atMid, said⟩ := run_property_of_spelled passesFirst rfl spelledFirst
  obtain ⟨last', reports', run', atEnd, said'⟩ := comesTo_following passesOthers atMid spelledOthers ends
  refine ⟨last', reports ++ reports', ?_, atEnd, ?_⟩
  · exact Rule.run_bind_of_run run (Rule.run_bind_of_reads run' (Rule.reads_pure.2 ⟨rfl, rfl⟩))
  · rw [List.map_append, said, said', complaints_cons]

/-- **A list of properties**, good and bad, is read to its end.  Each bad one is reported in its turn, and
nothing else is.  Of each name what is recorded last is found, and of each key of a map the last text. -/
theorem run_properties_of_spelled {written : List RawProperty} (passes : state.Passes items after)
    (spelled : rawProperties items written) (ends : after.kind ≠ .keyword .AND) :
    ∃ bag final reports, Grammar.properties.run state = ⟨.ok bag, final, reports⟩ ∧
      final.stream = after.stream ∧
      reports.map Report.wording = (written.filterMap (·.complaint?)).map ("P011", ·) ∧
      (∀ name value, (name, value) ∈ bag.toList ↔
        ((written.filterMap (·.recorded?)).filter (Lowercase.text ·.1 = name)).getLast?.map (·.2) =
          some value) ∧
      ∀ name map, (name, .map map) ∈ bag.toList →
        ∃ entries, (∃ property ∈ written, property.value = .map entries) ∧ ∀ key text,
          (key, text) ∈ map.entries ↔
            ((constantEntries entries).filter (·.1 = key)).getLast?.map (·.2) = some text := by
  obtain ⟨final, reports, run, atEnd, said⟩ := comesTo_separated passes spelled ends
  have kept : (written.map (·.recorded?)).filterMap id = written.filterMap (·.recorded?) := by
    rw [List.filterMap_map]
    rfl
  refine ⟨.ofList (written.filterMap (·.recorded?)), final, reports, ?_, atEnd, said,
    fun name value => Properties.mem_toList_ofList _ name value, fun name map found => ?_⟩
  · rw [← kept]
    exact Rule.run_bind_of_reads run (Rule.reads_pure.2 ⟨rfl, rfl⟩)
  · -- The map was recorded for some property, and of its entries for each key the last.
    rw [Properties.mem_toList_ofList, Option.map_eq_some_iff] at found
    obtain ⟨⟨_, _⟩, last, rfl⟩ := found
    have recorded := List.mem_of_mem_filter (List.mem_of_getLast? last)
    obtain ⟨property, mem, recorded⟩ := List.mem_filterMap.1 recorded
    obtain ⟨entries, value, rfl⟩ := RawProperty.value_of_recorded?_map recorded
    exact ⟨entries, ⟨property, mem, value⟩, TextMap.mem_entries_ofList _⟩

/-- The tokens of `comment = ? AND Comment = {'k': 1, 'k': TRUE, ?: 3}`, whose places do not matter. -/
def bagTokens : List Token :=
  ([⟨.identifier "comment", "comment"⟩, ⟨.punctuation .equal, "="⟩, ⟨.punctuation .questionMark, "?"⟩,
    ⟨.keyword .AND, "AND"⟩, ⟨.identifier "Comment", "Comment"⟩, ⟨.punctuation .equal, "="⟩,
    ⟨.punctuation .leftBrace, "\x7b"⟩, ⟨.string "k", "'k'"⟩, ⟨.punctuation .colon, ":"⟩,
    ⟨.integer "1", "1"⟩, ⟨.punctuation .comma, ","⟩, ⟨.string "k", "'k'"⟩, ⟨.punctuation .colon, ":"⟩,
    ⟨.keyword .TRUE, "TRUE"⟩, ⟨.punctuation .comma, ","⟩, ⟨.punctuation .questionMark, "?"⟩,
    ⟨.punctuation .colon, ":"⟩, ⟨.integer "3", "3"⟩, ⟨.punctuation .rightBrace, "\x7d"⟩] : List Lexeme).map
    (⟨·, .point 0⟩)

/-- Behind the first tokens, as many as are given, with as many bind markers numbered as are given. -/
def insideBag (passed markers : Nat) : State :=
  ⟨(⟨[], bagTokens, "", .point 0⟩ : TokenStream).moveTo passed, ⟨markers⟩⟩

/-- A name and an equal sign that are read make a property with whatever value stands behind them. -/
theorem exists_rawProperty (named : State) {signed : State} {name : Identifier} {value : RawValue}
    (reads : (identifier "").Reads state name named) (sign : (Rule.symbol .equal "").Reads named () signed)
    (passes : signed.Passes items after) (spelled : rawValue items value) :
    ∃ items, state.Passes items after ∧ rawProperty items ⟨name, value⟩ := by
  obtain ⟨front, passesName, spelledName⟩ := (recognizes_identifier "").sound _ _ _ reads
  obtain ⟨equal, passesSign, spelledSign⟩ := (Rule.Recognizes.symbol "" rfl).sound _ _ _ sign
  refine ⟨front ++ (equal ++ (items ++ [])), ?_, ?_⟩
  · rw [List.append_nil]
    exact passesName.trans (passesSign.trans passes)
  · exact ⟨front, name, _, rfl, spelledName, equal, (), _, rfl, spelledSign, items, value, [], rfl, spelled,
      rfl, rfl⟩

/-- Both properties are bad, and of the second one an entry is kept. -/
theorem run_properties_of_markers : ∃ bag final reports,
    Grammar.properties.run (insideBag 0 0) = ⟨.ok bag, final, reports⟩ ∧
      final.stream = (insideBag 19 0).stream ∧
      reports.map Report.wording =
        [("P011", "Invalid property value: ? for property: comment" ++
            " (bind variables are not supported in DDL queries)"),
          ("P011", "Invalid property name: ? (bind variables are not supported in DDL queries)")] ∧
      ∀ name value, (name, value) ∈ bag.toList ↔ name = "comment" ∧ value = .map ⟨[("k", "true")]⟩ := by
  have marker : (insideBag 2 0).Passes [⟨⟨.punctuation .questionMark, "?"⟩, 0⟩] (insideBag 3 1) :=
    State.Passes.one_iff.2 ⟨by decide, rfl, rfl⟩
  obtain ⟨first, passesFirst, spelledFirst⟩ : ∃ items, (insideBag 0 0).Passes items (insideBag 3 1) ∧
      rawProperty items ⟨.unquoted "comment", .marker⟩ :=
    exists_rawProperty (insideBag 1 0) rfl rfl marker
      (.inr (.inl (ofKind_bind_iff.2 ⟨_, [], rfl, rfl, rfl, rfl⟩)))
  have word : (Rule.keyword .AND "").Reads (insideBag 3 1) () (insideBag 4 1) := rfl
  obtain ⟨separator, passesWord, spelledWord⟩ := (Rule.Recognizes.keyword .AND "").sound _ _ _ word
  have literal : (mapLiteral Grammar.value).Reads (insideBag 6 1)
      [(.term (.string "k"), .term (.integer "1")), (.term (.string "k"), .term (.boolean true)),
        (.term (.marker 1), .term (.integer "3"))] (insideBag 19 2) := rfl
  obtain ⟨map, passesMap, spelledMap⟩ :=
    (recognizes_mapLiteral recognizes_value opens_value).sound _ _ _ literal
  obtain ⟨second, passesSecond, spelledSecond⟩ : ∃ items, (insideBag 4 1).Passes items (insideBag 19 2) ∧
      rawProperty items ⟨.unquoted "Comment", .map _⟩ :=
    exists_rawProperty (insideBag 5 1) rfl rfl passesMap (.inr (.inr (map_iff.2 ⟨_, spelledMap, rfl⟩)))
  have passes : (insideBag 0 0).Passes (first ++ (separator ++ second ++ [] ++ [])) (insideBag 19 2) := by
    simpa using passesFirst.trans (passesWord.trans passesSecond)
  obtain ⟨bag, final, reports, run, atEnd, said, kept, -⟩ := run_properties_of_spelled passes
    ⟨first, _, _, rfl, spelledFirst, _, _, [], rfl,
      .more ⟨separator, (), second, rfl, spelledWord, spelledSecond⟩ .none, rfl, rfl⟩ (by decide)
  refine ⟨bag, final, reports, run, atEnd, ?_, fun name value => ?_⟩
  · rw [said]
    decide
  · rw [kept]
    show (([("comment", .map ⟨[("k", "true")]⟩)] : List (String × PropertyValue)).filter
      (Lowercase.text ·.1 = name)).getLast?.map (·.2) = some value ↔ _
    have folded : Lowercase.text "comment" = "comment" := by decide
    by_cases same : "comment" = name
    · subst same
      simp [folded, eq_comm]
    · simp [folded, same, Ne.symm same]

end Grammar

end Cql
