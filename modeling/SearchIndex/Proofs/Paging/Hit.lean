import Mathlib.Data.List.Induction
import Mathlib.Data.List.Nodup
import SearchIndex.Paging.Hit

/-!
# Stored entities are found again

A hit has its fields set one after the other, and what counts of a field is the last value that
it was given, without the blank characters around it. `reference?_withFields` says that a hit
which shows the components of an entity is mapped to that entity, whatever else it shows and in
whatever way it came to that. `reference?_eq_none_iff` says which hits are nothing.
-/

namespace SearchIndex

/-- The five fields that tell which entity a hit is. -/
def FieldNames.identifying (names : FieldNames) : List String :=
  [names.partition, names.space, names.name, names.language, names.filename]

namespace DocumentRef

/-- The components of a document. -/
def components (d : DocumentRef) : List String :=
  [d.partition, d.space, d.name] ++ d.language.toList

/-- The fields under which a document is stored. -/
def stored (names : FieldNames) (d : DocumentRef) : List (String × String) :=
  [(names.partition, d.partition), (names.space, d.space), (names.name, d.name),
    (names.language, d.languageOrDefault)]

end DocumentRef

namespace EntityRef

/-- The components of an entity. -/
def components : EntityRef → List String
  | .partition name => [name]
  | .document d => d.components
  | .attachment a => a.document.components ++ [a.filename]

/-- The fields under which an entity is stored. -/
def stored (names : FieldNames) : EntityRef → List (String × String)
  | .partition name => [(names.partition, name)]
  | .document d => d.stored names
  | .attachment a => a.document.stored names ++ [(names.filename, a.filename)]

/-- The file name of an attachment. -/
def filename? : EntityRef → Option String
  | .attachment a => some a.filename
  | _ => none

/-- No component of an entity is blank or has blank characters around it, and no language is
named as if there were none. -/
structure IsPlain (e : EntityRef) : Prop where
  filled : ∀ text ∈ e.components, Text.isBlankText text = false
  trimmed : ∀ text ∈ e.components, Text.trimmed text = text
  language : ∀ d ∈ e.document?, d.language ≠ some DocumentRef.defaultLanguage

theorem components_subset {d : DocumentRef} (e : EntityRef) (h : e.document? = some d) :
    d.components ⊆ e.components := by
  cases e with
  | partition name => cases h
  | document d' =>
      cases h
      exact fun _ => id
  | attachment a =>
      cases h
      exact List.subset_append_left _ _

theorem partitionName_eq {d : DocumentRef} (e : EntityRef) (h : e.document? = some d) :
    e.partitionName = d.partition := by
  cases e <;> cases h <;> rfl

theorem IsPlain.ne_empty {e : EntityRef} (h : e.IsPlain) (text : String)
    (component : text ∈ e.components) : text ≠ "" := by
  rintro rfl
  exact absurd (h.filled "" component) (by decide)

end EntityRef

namespace Text

/-- A value is a text with any blank characters around it. -/
def IsPadded (text value : String) : Prop :=
  ∃ before after, (∀ c ∈ before, isBlank c = true) ∧ (∀ c ∈ after, isBlank c = true) ∧
    value.toList = before ++ text.toList ++ after

/-- Blank characters around a text are trimmed off. -/
theorem trim_append_append {before after : List Char} (text : List Char)
    (blank : ∀ c ∈ before, isBlank c = true) (blank' : ∀ c ∈ after, isBlank c = true) :
    trim (before ++ text ++ after) = trim text := by
  have front : trimStart (before ++ text ++ after) = trimStart (text ++ after) := by
    rw [List.append_assoc]
    exact List.dropWhile_append_of_pos blank
  have back : ∀ kept, trimEnd (kept ++ after) = trimEnd kept := by
    intro kept
    have dropped : trimStart (after.reverse ++ kept.reverse) = trimStart kept.reverse :=
      List.dropWhile_append_of_pos fun c hc => blank' c (List.mem_reverse.mp hc)
    rw [trimEnd, List.reverse_append, dropped, trimEnd]
  rw [trim, front, trim, trimStart, List.dropWhile_append]
  split
  · next nothing =>
    have gone : after.dropWhile isBlank = [] := trimStart_eq_nil_iff.mpr blank'
    rw [gone, trimStart, List.isEmpty_iff.mp nothing]
  · exact back _

theorem IsPadded.trimmed_eq {text value : String} (h : IsPadded text value)
    (own : trimmed text = text) : trimmed value = text := by
  obtain ⟨before, after, blank, blank', written⟩ := h
  rw [trimmed, written, trim_append_append _ blank blank']
  exact own

theorem trimmed_eq_empty_iff {text : String} : trimmed text = "" ↔ isBlankText text = true := by
  rw [isBlankText_iff, trimmed, String.ofList_eq_empty_iff]

end Text

namespace EngineHit

variable {hit : EngineHit} {names : FieldNames} {e : EntityRef}

/-- What a field shows: the value without the blank characters around it, or nothing if the
field is missing. -/
def shown (hit : EngineHit) (name : String) : String :=
  Text.trimmed ((hit.fields.lookup name).getD "")

theorem shown_eq_empty_iff {name : String} :
    hit.shown name = "" ↔ ∀ value ∈ hit.fields.lookup name, Text.isBlankText value = true := by
  rw [shown, Text.trimmed_eq_empty_iff]
  cases hit.fields.lookup name with
  | none => simp [Text.isBlankText]
  | some value => simp

/-- The value under a name is that of the first entry with that name. -/
theorem lookup_eq_find? (fields : List (String × String)) (name : String) :
    fields.lookup name = (fields.find? (·.1 == name)).map (·.2) := by
  induction fields with
  | nil => rfl
  | cons entry entries ih =>
      rw [List.lookup_cons, List.find?_cons, Bool.beq_comm]
      cases entry.1 == name with
      | true => rfl
      | false => exact ih

theorem lookup_cons_of_ne {name : String} {entry : String × String} (h : name ≠ entry.1)
    (entries : List (String × String)) : (entry :: entries).lookup name = entries.lookup name := by
  have other : (name == entry.1) = false := by simpa using h
  rw [List.lookup_cons, other]

/-- A field is read as what it shows, unless it shows nothing. -/
theorem field?_eq (hit : EngineHit) (name : String) :
    hit.field? name = if hit.shown name = "" then none else some (hit.shown name) := by
  rw [shown, lookup_eq_find?, field?]
  cases hit.fields.find? (·.1 == name) with
  | none => rfl
  | some entry => simp [Text.trimmed_eq_empty_iff]

/-- A field that is set has its new value, and the other fields keep theirs. -/
theorem lookup_withField (hit : EngineHit) (name value other : String) :
    (hit.withField name value).fields.lookup other =
      if other = name then some value else hit.fields.lookup other := by
  rw [withField, List.lookup_append]
  by_cases same : other = name
  case pos =>
    subst same
    have dropped : (hit.fields.filter (·.1 != other)).lookup other = none := by
      rw [List.lookup_eq_none_iff]
      intro entry kept
      simpa [bne_comm] using (List.mem_filter.mp kept).2
    simp [dropped]
  case neg =>
    have kept : (hit.fields.filter (·.1 != name)).lookup other = hit.fields.lookup other := by
      rw [lookup_eq_find?, lookup_eq_find?, List.find?_filter]
      congr 2
      funext entry
      by_cases this : entry.1 = other
      · simp [this, same]
      · simp [this]
    simp [kept, same]

/-- The hit with some fields set, one after the other. -/
def withFields (hit : EngineHit) (calls : List (String × String)) : EngineHit :=
  calls.foldl (fun hit call => hit.withField call.1 call.2) hit

theorem withFields_concat (hit : EngineHit) (calls : List (String × String))
    (call : String × String) :
    hit.withFields (calls ++ [call]) = (hit.withFields calls).withField call.1 call.2 := by
  rw [withFields, List.foldl_append]
  rfl

/-- A field has the last value that it was given, and else the one that it had. -/
theorem lookup_withFields (hit : EngineHit) (calls : List (String × String)) (name : String) :
    (hit.withFields calls).fields.lookup name =
      (calls.reverse.lookup name).or (hit.fields.lookup name) := by
  induction calls using List.reverseRecOn with
  | nil => rfl
  | append_singleton calls call ih =>
      rw [withFields_concat, lookup_withField, List.reverse_concat]
      by_cases same : name = call.1
      case pos => rw [if_pos same, same, List.lookup_cons_self, Option.some_or]
      case neg => rw [if_neg same, ih, lookup_cons_of_ne same]

/-- A hit shows an entity: each of the five fields shows what the entity is stored with under
that name, and nothing if the entity has nothing there. -/
def Shows (hit : EngineHit) (names : FieldNames) (e : EntityRef) : Prop :=
  ∀ name ∈ names.identifying, hit.shown name = ((e.stored names).lookup name).getD ""

/-- What the five fields show, one after the other. -/
theorem Shows.fields (h : hit.Shows names e) (distinct : names.identifying.Nodup) :
    hit.shown names.partition = e.partitionName ∧
    hit.shown names.space = (e.document?.map (·.space)).getD "" ∧
    hit.shown names.name = (e.document?.map (·.name)).getD "" ∧
    hit.shown names.language = (e.document?.map (·.languageOrDefault)).getD "" ∧
    hit.shown names.filename = e.filename?.getD "" := by
  have apart : [names.filename, names.language, names.name, names.space, names.partition].Nodup :=
    List.nodup_reverse.mpr distinct
  simp only [List.nodup_cons, List.mem_cons, List.not_mem_nil, or_false, not_or] at apart
  refine ⟨?_, ?_, ?_, ?_, ?_⟩
  all_goals
    rw [h _ (by simp [FieldNames.identifying])]
    -- A name is looked up behind the names before it, and it is none of them.
    cases e <;> simp [EntityRef.stored, DocumentRef.stored, EntityRef.partitionName,
      EntityRef.document?, EntityRef.filename?, lookup_cons_of_ne, apart]

/-- The word for no language is read as none, and another language as itself. -/
theorem language?_eq {d : DocumentRef} (h : hit.shown names.language = d.languageOrDefault)
    (filled : ∀ language ∈ d.language, language ≠ "")
    (named : d.language ≠ some DocumentRef.defaultLanguage) : hit.language? names = d.language := by
  rw [language?, field?_eq, h, DocumentRef.languageOrDefault]
  cases language : d.language with
  | none => rfl
  | some text =>
      have filled : text ≠ "" := filled text language
      have named : text ≠ DocumentRef.defaultLanguage := by simpa [language] using named
      simp [filled, named]

/-- A hit that shows a document, or an attachment of it, has the fields of the document. -/
theorem Shows.document (h : hit.Shows names e) (distinct : names.identifying.Nodup)
    (plain : e.IsPlain) {d : DocumentRef} (found : e.document? = some d) :
    hit.field? names.partition = some d.partition ∧ hit.field? names.space = some d.space ∧
      hit.field? names.name = some d.name ∧ hit.language? names = d.language := by
  have filled : ∀ text ∈ d.components, text ≠ "" :=
    fun text component => plain.ne_empty text (e.components_subset found component)
  obtain ⟨partition, space, name, language, -⟩ := h.fields distinct
  rw [e.partitionName_eq found] at partition
  rw [found] at space name language
  refine ⟨?_, ?_, ?_, language?_eq language (fun text spoken => ?_) (plain.language d found)⟩
  · rw [field?_eq, partition, if_neg (filled _ (by simp [DocumentRef.components]))]
  · rw [field?_eq, space]
    exact if_neg (filled _ (by simp [DocumentRef.components]))
  · rw [field?_eq, name]
    exact if_neg (filled _ (by simp [DocumentRef.components]))
  · apply filled
    simp [DocumentRef.components, Option.mem_def.mp spoken]

/-- A hit that shows an entity is mapped to it. -/
theorem Shows.reference? (h : hit.Shows names e) (distinct : names.identifying.Nodup)
    (plain : e.IsPlain) : hit.reference? names = some e := by
  obtain ⟨partition, space, -, -, filename⟩ := h.fields distinct
  cases e with
  | partition p =>
      have stored : hit.field? names.partition = some p := by
        rw [field?_eq, partition]
        exact if_neg (plain.ne_empty p (List.mem_singleton_self p))
      have missing : hit.field? names.space = none := by
        rw [field?_eq, space]
        rfl
      simp [EngineHit.reference?, stored, missing]
  | document d =>
      obtain ⟨partition, space, name, language⟩ := h.document distinct plain rfl
      have missing : hit.field? names.filename = none := by
        rw [field?_eq, filename]
        rfl
      simp [EngineHit.reference?, partition, space, name, language, missing]
  | attachment a =>
      obtain ⟨partition, space, name, language⟩ := h.document distinct plain rfl
      have stored : hit.field? names.filename = some a.filename := by
        rw [field?_eq, filename]
        exact if_neg (plain.ne_empty a.filename (by simp [EntityRef.components]))
      simp [EngineHit.reference?, partition, space, name, language, stored]

/-- A hit is nothing if and only if its partition is missing or blank. -/
theorem reference?_eq_none_iff :
    hit.reference? names = none ↔
      ∀ value ∈ hit.fields.lookup names.partition, Text.isBlankText value = true := by
  rw [← shown_eq_empty_iff, EngineHit.reference?, field?_eq]
  by_cases missing : hit.shown names.partition = ""
  case pos => simp [missing]
  case neg =>
    simp only [missing, Option.bind_eq_bind, iff_false]
    cases hit.field? names.space <;> cases hit.field? names.name <;>
      cases hit.field? names.filename <;> nofun

end EngineHit

namespace EntityRef

/-- An entity is stored by some settings of fields: the last value of each field of the entity is
what the entity has there, with any blank characters around it, and what the last value of any
other one of the five fields is, if there is one, is blank. -/
structure IsStoredBy (e : EntityRef) (names : FieldNames) (calls : List (String × String)) :
    Prop where
  padded : ∀ entry ∈ e.stored names,
    ∃ value ∈ calls.reverse.lookup entry.1, Text.IsPadded entry.2 value
  blank : ∀ name ∈ names.identifying, name ∉ (e.stored names).map (·.1) →
    ∀ value ∈ calls.reverse.lookup name, Text.isBlankText value = true

/-- What a plain entity is stored with has no blank characters around it. -/
theorem IsPlain.trimmed_of_mem_stored {e : EntityRef} (h : e.IsPlain) (names : FieldNames) :
    ∀ entry ∈ e.stored names, Text.trimmed entry.2 = entry.2 := by
  have document : ∀ d : DocumentRef, d.components ⊆ e.components →
      ∀ entry ∈ d.stored names, Text.trimmed entry.2 = entry.2 := by
    intro d part
    have own : ∀ text ∈ d.components, Text.trimmed text = text :=
      fun text component => h.trimmed text (part component)
    have language : Text.trimmed d.languageOrDefault = d.languageOrDefault := by
      rw [DocumentRef.languageOrDefault]
      cases spoken : d.language with
      | none => decide
      | some text => exact own text (by simp [DocumentRef.components, spoken])
    simp only [DocumentRef.components, List.cons_append, List.forall_mem_cons] at own
    obtain ⟨partition, space, name, -⟩ := own
    simp [DocumentRef.stored, partition, space, name, language]
  cases e with
  | partition name => simpa [stored, components] using h.trimmed
  | document d => exact document d fun _ => id
  | attachment a =>
      intro entry member
      rcases List.mem_append.mp member with member | member
      · exact document a.document (List.subset_append_left _ _) entry member
      · rw [List.mem_singleton.mp member]
        exact h.trimmed a.filename (by simp [components])

end EntityRef

namespace EngineHit

/-- A new hit shows an entity once it stores the entity. -/
theorem shows_withFields {calls : List (String × String)} (score : UInt32) (plain : e.IsPlain)
    (stored : e.IsStoredBy names calls) :
    (({ score } : EngineHit).withFields calls).Shows names e := by
  intro name identifying
  have last : (({ score } : EngineHit).withFields calls).fields.lookup name =
      calls.reverse.lookup name := by
    rw [lookup_withFields, List.lookup_nil, Option.or_none]
  cases found : (e.stored names).lookup name with
  | none =>
      have other : name ∉ (e.stored names).map (·.1) := by
        intro member
        obtain ⟨entry, kept, same⟩ := List.mem_map.mp member
        simpa [same] using List.lookup_eq_none_iff.mp found entry kept
      rw [Option.getD_none, shown_eq_empty_iff, last]
      exact stored.blank name identifying other
  | some text =>
      have entry : (name, text) ∈ e.stored names := by
        obtain ⟨front, back, written, -⟩ := List.lookup_eq_some_iff.mp found
        simp [written]
      obtain ⟨value, given, padded⟩ := stored.padded (name, text) entry
      rw [Option.getD_some, shown, last, Option.mem_def.mp given, Option.getD_some]
      exact padded.trimmed_eq (plain.trimmed_of_mem_stored names (name, text) entry)

/-- A hit that stores an entity is mapped to that entity, and so to its identity. A hit is mapped
to nothing if and only if its partition is missing or blank. -/
theorem reference?_withFields (names : FieldNames) (e : EntityRef) (score : UInt32)
    (calls : List (String × String)) (distinct : names.identifying.Nodup) (plain : e.IsPlain)
    (stored : e.IsStoredBy names calls) :
    ((({ score } : EngineHit).withFields calls).reference? names = some e ∧
      ((({ score } : EngineHit).withFields calls).reference? names).map (·.identity) =
        some e.identity) ∧
    ∀ hit : EngineHit, hit.reference? names = none ↔
      ∀ value ∈ hit.fields.lookup names.partition, Text.isBlankText value = true := by
  have mapped := (shows_withFields score plain stored).reference? distinct plain
  refine ⟨⟨mapped, ?_⟩, fun hit => reference?_eq_none_iff⟩
  rw [mapped, Option.map_some]

theorem reference?_withFields_overwritten :
    let names : FieldNames := { language := "locale" }
    let logo : EntityRef := .attachment
      { document := { partition := "main", space := "a", name := "b", language := some "en" }
        filename := "logo.png" }
    let calls := [("filename", "old.png"), ("locale", " en"), ("lang", "fr"), ("name", "b"),
      ("web", "\ta "), ("filename", "logo.png "), ("wiki", "main")]
    names.identifying.Nodup ∧ logo.IsPlain ∧ logo.IsStoredBy names calls ∧
      (({ score := 1 } : EngineHit).withFields calls).reference? names = some logo ∧
      (EngineHit.mk 1 [("wiki", " "), ("web", "a"), ("name", "b")]).reference? names = none := by
  intro names logo calls
  have distinct : names.identifying.Nodup := by decide
  have plain : logo.IsPlain := ⟨by decide, by decide, by decide⟩
  have tab : ∀ c ∈ ['\t'], Text.isBlank c = true := List.all_eq_true.mp (by decide)
  have space : ∀ c ∈ [' '], Text.isBlank c = true := List.all_eq_true.mp (by decide)
  have stored : logo.IsStoredBy names calls := by
    constructor
    · simp only [logo, EntityRef.stored, DocumentRef.stored, List.cons_append, List.nil_append,
        List.forall_mem_cons]
      exact ⟨⟨"main", by decide, [], [], nofun, nofun, by decide⟩,
        ⟨"\ta ", by decide, ['\t'], [' '], tab, space, by decide⟩,
        ⟨"b", by decide, [], [], nofun, nofun, by decide⟩,
        ⟨" en", by decide, [' '], [], space, nofun, by decide⟩,
        ⟨"logo.png ", by decide, [], [' '], nofun, space, by decide⟩, nofun⟩
    · decide
  obtain ⟨⟨mapped, -⟩, nothing⟩ := reference?_withFields names logo 1 calls distinct plain stored
  refine ⟨distinct, plain, stored, mapped, ?_⟩
  rw [nothing]
  decide

end EngineHit

end SearchIndex
