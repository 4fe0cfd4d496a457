import Mathlib.Data.Finset.Insert
import SearchIndex.Proofs.Wire.Faithful

/-!
# Settings are read with their defaults

Settings are kept in files that people edit. What is left out of such a file stands for the
default, whether it is a whole section or one setting of a section; the members of each object
may stand in any order, and there may be members that mean nothing to the settings.
`Settings.IsAbridged` says what may have been done to the text of some settings, and
`Settings.read_abridged` that the settings are read from it as long as nothing has been left out
but defaults. In particular, settings read back from their own text.
-/

namespace SearchIndex

open Json (Record Retains Value)
open Wire (encode decode? Faithful)

namespace Wire

/-- A field that has its default wherever it is left out is read as its value. -/
theorem defaulted_retained {α : Type} [Wire α] {record standard : List (String × Value)}
    {leftOut : String → Bool} (nodup : (record.map (·.1)).Nodup)
    (nodup' : (standard.map (·.1)).Nodup)
    (agree : ∀ m ∈ record, leftOut m.1 = true → m ∈ standard) {name : String} {a default : α}
    (faithful : Faithful a) (faithful' : Faithful default) (given : (name, encode a) ∈ record)
    (usual : (name, encode default) ∈ standard) :
    (Record.retained record leftOut).defaulted name default decode? = some a := by
  refine Record.defaulted_retained nodup given faithful.decode fun out => ?_
  have own := Json.filter_key_eq nodup' (agree _ given out)
  rw [Json.filter_key_eq nodup' usual] at own
  have same : encode a = encode default := by simpa using own.symm
  exact faithful.encode_inj faithful' same

end Wire

namespace FieldNames

/-- The names of fields as they are written, each with its default. -/
def entries (f : FieldNames) : List (String × String × String) :=
  let standard : FieldNames := {}
  [("partition", f.partition, standard.partition), ("doc_type", f.docType, standard.docType),
    ("space", f.space, standard.space), ("name", f.name, standard.name),
    ("fullname", f.fullName, standard.fullName), ("language", f.language, standard.language),
    ("filename", f.filename, standard.filename), ("date", f.date, standard.date),
    ("creation_date", f.creationDate, standard.creationDate)]

theorem nodup_names (f : FieldNames) : ((encode f).members.map (·.1)).Nodup := by
  have names : (encode f).members.map (·.1) = f.entries.map (·.1) := rfl
  rw [names]
  simp [entries]

/-- The names of fields are read from an object that retains all but defaults. -/
theorem decode?_retained {f : FieldNames} {leftOut : String → Bool}
    {members : List (String × Value)} (retains : Retains (encode f).members leftOut members)
    (agree : ∀ m ∈ (encode f).members, leftOut m.1 = true →
      m ∈ (encode ({} : FieldNames)).members) :
    decode? (Value.record members) = some f := by
  -- All names are texts, so one statement about the entries covers them.
  have own : (encode f).members = f.entries.map fun e => (e.1, encode e.2.1) := rfl
  have usual : (encode ({} : FieldNames)).members =
      f.entries.map fun e => (e.1, encode e.2.2) := rfl
  have fields : ∀ e ∈ f.entries,
      (Record.retained (encode f).members leftOut).defaulted e.1 e.2.2 decode? = some e.2.1 :=
    fun e he => Wire.defaulted_retained f.nodup_names (nodup_names {}) agree
      (Wire.faithful_string _) (Wire.faithful_string _)
      (own ▸ List.mem_map_of_mem he) (usual ▸ List.mem_map_of_mem he)
  simp only [entries, List.forall_mem_cons] at fields
  unfold instWireFieldNames
  refine Option.bind_eq_some_iff.mpr ⟨_, retains.ofValue?_eq (by simp [encode]) (by decide), ?_⟩
  simp [fields]

theorem faithful (f : FieldNames) : Faithful f where
  decode := decode?_retained (Retains.whole _) nofun
  sound := Json.isSound_record (by simp [(Wire.faithful_string _).sound])

end FieldNames

namespace QueueSettings

/-- The capacity fits into the 64 bits that a count has. -/
def IsSized (q : QueueSettings) : Prop :=
  q.clusterCapacity < Wire.countBound

instance (q : QueueSettings) : Decidable q.IsSized :=
  inferInstanceAs (Decidable (_ < _))

theorem isSized_standard : ({} : QueueSettings).IsSized := by
  decide

theorem nodup_names (q : QueueSettings) : ((encode q).members.map (·.1)).Nodup := by
  simp [encode]

/-- How changes are queued is read from an object that retains all but defaults. -/
theorem decode?_retained {q : QueueSettings} (sized : q.IsSized) {leftOut : String → Bool}
    {members : List (String × Value)} (retains : Retains (encode q).members leftOut members)
    (agree : ∀ m ∈ (encode q).members, leftOut m.1 = true →
      m ∈ (encode ({} : QueueSettings)).members) :
    decode? (Value.record members) = some q := by
  have field {α : Type} [Wire α] {name : String} {a standard : α} (faithful : Faithful a)
      (faithful' : Faithful standard) (given : (name, encode a) ∈ (encode q).members)
      (usual : (name, encode standard) ∈ (encode ({} : QueueSettings)).members) :=
    Wire.defaulted_retained q.nodup_names (nodup_names {}) agree faithful faithful' given usual
  unfold instWireQueueSettings
  refine Option.bind_eq_some_iff.mpr ⟨_, retains.ofValue?_eq (by simp [encode]) (by decide), ?_⟩
  refine Option.bind_eq_some_iff.mpr ⟨q.defaultPriority, field (Wire.faithful_priority _)
    (Wire.faithful_priority _) (by simp [encode]) (by simp [encode]), ?_⟩
  refine Option.bind_eq_some_iff.mpr ⟨q.attachmentPriority, field (Wire.faithful_priority _)
    (Wire.faithful_priority _) (by simp [encode]) (by simp [encode]), ?_⟩
  refine Option.bind_eq_some_iff.mpr ⟨q.clusterCapacity, field (Wire.faithful_nat sized)
    (Wire.faithful_nat isSized_standard) (by simp [encode]) (by simp [encode]), ?_⟩
  refine Option.bind_eq_some_iff.mpr ⟨q.contentChannel, field (Wire.faithful_string _)
    (Wire.faithful_string _) (by simp [encode]) (by simp [encode]), ?_⟩
  exact Option.bind_eq_some_iff.mpr ⟨q.indexChannel, field (Wire.faithful_string _)
    (Wire.faithful_string _) (by simp [encode]) (by simp [encode]), rfl⟩

theorem faithful {q : QueueSettings} (sized : q.IsSized) : Faithful q where
  decode := decode?_retained sized (Retains.whole _) nofun
  sound := Json.isSound_record (by
    simp [(Wire.faithful_priority _).sound, (Wire.faithful_nat sized).sound,
      (Wire.faithful_string _).sound])

end QueueSettings

namespace Settings

/-- A member of the text of settings: a whole section, or a single setting of a section. -/
inductive Place where
  | whole (part : String)
  | single (part name : String)
  deriving DecidableEq

/-- The value that settings have at a place. -/
def valueAt? (s : Settings) : Place → Option Value
  | .whole part => (encode s).member? part
  | .single part name => ((encode s).member? part).bind (·.member? name)

/-- The settings have the default at a place. -/
def IsStandardAt (s : Settings) (p : Place) : Prop :=
  s.valueAt? p = ({} : Settings).valueAt? p

/-- What may become of the value of settings when some places are left out of it: each object
retains all its other members, in any order and among any members it does not know. -/
inductive IsAbridged (s : Settings) (leftOut : Finset Place) : Value → Prop
  | intro {fields queue members : List (String × Value)}
      (keptFields : Retains (encode s.fields).members
        (fun name => Place.single "fields" name ∈ leftOut) fields)
      (keptQueue : Retains (encode s.queue).members
        (fun name => Place.single "queue" name ∈ leftOut) queue)
      (kept : Retains [("fields", .record fields), ("queue", .record queue)]
        (fun name => Place.whole name ∈ leftOut) members) :
      IsAbridged s leftOut (.record members)

variable {s : Settings} {leftOut : Finset Place}

/-- Nothing is left out of the value itself. -/
theorem isAbridged_encode (s : Settings) : s.IsAbridged ∅ (encode s) :=
  .intro (Retains.refl fun _ _ => rfl) (Retains.refl fun _ _ => rfl) (Retains.refl fun _ _ => rfl)

theorem valueAt?_whole_fields (s : Settings) :
    s.valueAt? (.whole "fields") = some (encode s.fields) := by
  simp [valueAt?, encode, Value.record, Value.member?]

theorem valueAt?_whole_queue (s : Settings) :
    s.valueAt? (.whole "queue") = some (encode s.queue) := by
  simp [valueAt?, encode, Value.record, Value.member?]

theorem valueAt?_single (s : Settings) (part name : String) :
    s.valueAt? (.single part name) = (s.valueAt? (.whole part)).bind (·.member? name) := rfl

/-- A section that is left out is the default. -/
theorem eq_of_whole {α : Type} [Wire α] {a standard : α} {part : String} (faithful : Faithful a)
    (faithful' : Faithful standard) (own : s.valueAt? (.whole part) = some (encode a))
    (usual : valueAt? {} (.whole part) = some (encode standard))
    (standardAt : ∀ p ∈ leftOut, s.IsStandardAt p)
    (out : decide (Place.whole part ∈ leftOut) = true) : a = standard := by
  have same := standardAt _ (of_decide_eq_true out)
  rw [IsStandardAt, own, usual] at same
  exact faithful.encode_inj faithful' (Option.some.inj same)

/-- A member of a section that is left out is one of the default. -/
theorem mem_of_single {record standard : List (String × Value)} {part : String}
    (nodup : (record.map (·.1)).Nodup)
    (own : s.valueAt? (.whole part) = some (.record record))
    (usual : valueAt? {} (.whole part) = some (.record standard))
    (standardAt : ∀ p ∈ leftOut, s.IsStandardAt p) :
    ∀ m ∈ record, decide (Place.single part m.1 ∈ leftOut) = true → m ∈ standard := by
  intro m hm out
  have same := standardAt _ (of_decide_eq_true out)
  rw [IsStandardAt, valueAt?_single, valueAt?_single, own, usual, Option.bind_some,
    Option.bind_some, Value.member?_record nodup hm] at same
  exact Value.mem_of_member?_record same.symm

/-- What is left of the value of settings is read as the settings, provided that nothing is
missing but defaults. -/
theorem decode?_abridged (sized : s.queue.IsSized) (standardAt : ∀ p ∈ leftOut, s.IsStandardAt p)
    {value : Value} (h : s.IsAbridged leftOut value) : decode? value = some s := by
  cases h with
  | @intro fields queue members keptFields keptQueue kept =>
    have readFields : decode? (Value.record fields) = some s.fields :=
      FieldNames.decode?_retained keptFields (mem_of_single s.fields.nodup_names
        s.valueAt?_whole_fields (valueAt?_whole_fields {}) standardAt)
    have readQueue : decode? (Value.record queue) = some s.queue :=
      QueueSettings.decode?_retained sized keptQueue (mem_of_single s.queue.nodup_names
        s.valueAt?_whole_queue (valueAt?_whole_queue {}) standardAt)
    have nodup : ([("fields", Value.record fields), ("queue", .record queue)].map (·.1)).Nodup := by
      simp
    have standardFields := eq_of_whole s.fields.faithful (FieldNames.faithful {})
      s.valueAt?_whole_fields (valueAt?_whole_fields {}) standardAt
    have standardQueue := eq_of_whole (QueueSettings.faithful sized)
      (QueueSettings.faithful QueueSettings.isSized_standard) s.valueAt?_whole_queue
      (valueAt?_whole_queue {}) standardAt
    unfold instWireSettings
    refine Option.bind_eq_some_iff.mpr ⟨_, kept.ofValue?_eq rfl nodup, ?_⟩
    refine Option.bind_eq_some_iff.mpr ⟨s.fields,
      Record.defaulted_retained nodup (by simp) readFields standardFields, ?_⟩
    exact Option.bind_eq_some_iff.mpr ⟨s.queue,
      Record.defaulted_retained nodup (by simp) readQueue standardQueue, rfl⟩

/-- Settings of the right size are faithful. -/
theorem faithful (sized : s.queue.IsSized) : Faithful s where
  decode := decode?_abridged sized (fun p hp => absurd hp (Finset.notMem_empty p))
    s.isAbridged_encode
  sound := Json.isSound_record (by
    simp [s.fields.faithful.sound, (QueueSettings.faithful sized).sound])

/-- A choice that is made when settings are put together. -/
inductive Choice where
  | fields (names : FieldNames)
  | partitionField (name : String)
  | docTypeField (name : String)
  | defaultPriority (priority : Priority)
  | attachmentPriority (priority : Priority)
  | clusterCapacity (capacity : Nat)

/-- A capacity is chosen as a count of 64 bits. -/
def Choice.IsSized : Choice → Prop
  | .clusterCapacity capacity => capacity < Wire.countBound
  | _ => True

/-- The settings after a choice. -/
def choose (s : Settings) : Choice → Settings
  | .fields names => { s with fields := names }
  | .partitionField name => s.withPartitionField name
  | .docTypeField name => s.withDocTypeField name
  | .defaultPriority priority => s.withDefaultPriority priority
  | .attachmentPriority priority => s.withAttachmentPriority priority
  | .clusterCapacity capacity => s.withClusterCapacity capacity

/-- The settings that are put together by choices, one after another. -/
def chosen (choices : List Choice) : Settings :=
  choices.foldl choose {}

theorem isSized_choose (sized : s.queue.IsSized) {c : Choice} (hc : c.IsSized) :
    (s.choose c).queue.IsSized := by
  cases c with
  | clusterCapacity capacity => exact max_lt hc (by decide)
  | _ => exact sized

theorem isSized_foldl {choices : List Choice} (sized : s.queue.IsSized)
    (h : ∀ c ∈ choices, c.IsSized) : (choices.foldl choose s).queue.IsSized := by
  induction choices generalizing s with
  | nil => exact sized
  | cons c choices ih =>
      rw [List.forall_mem_cons] at h
      exact ih (isSized_choose sized h.1) h.2

/-- A text that says what is left of the value of settings is read as the settings, provided that
nothing is missing but defaults: the text that is written for such a value, and any other, however
it is laid out. In particular, what has been put together by choices reads back from its own
text. -/
theorem read_abridged :
    (∀ (s : Settings) (leftOut : Finset Place) (value : Value), s.queue.IsSized →
      (∀ p ∈ leftOut, s.IsStandardAt p) → s.IsAbridged leftOut value →
      (∀ text : String, Value.parse? text.toList = some value → Wire.read text = .ok s) ∧
      (value.IsSound → Wire.read value.toText = .ok s)) ∧
    ∀ choices : List Choice, (∀ c ∈ choices, c.IsSized) →
      (chosen choices).IsAbridged ∅ (encode (chosen choices)) ∧
      Wire.read (Wire.write (chosen choices)) = .ok (chosen choices) := by
  constructor
  · intro s leftOut value sized standardAt abridged
    have h : decode? value = some s := decode?_abridged sized standardAt abridged
    refine ⟨fun text written => Wire.read_of_parse? written h, fun sound => ?_⟩
    refine Wire.read_of_parse? ?_ h
    rw [Value.toText, String.toList_ofList, Value.parse?_write sound]
  · intro choices h
    have sized : (chosen choices).queue.IsSized :=
      isSized_foldl QueueSettings.isSized_standard h
    refine ⟨isAbridged_encode _, ?_⟩
    rw [Wire.read, (faithful sized).read?_write]

/-- Settings that keep as many messages as can be counted. -/
def roomy : Settings where
  queue := { defaultPriority := .high, clusterCapacity := 18446744073709551615 }

/-- What is usual about them: the names of fields, and three settings of the queue. -/
def usualInRoomy : Finset Place :=
  {.whole "fields", .single "queue" "attachment_priority", .single "queue" "content_channel",
    .single "queue" "index_channel"}

/-- A member with a number that nothing reads. -/
def unknownVersion : String × Value :=
  ("version", .array [.real ['1', 'e', '4', '0', '0']])

/-- A member with a string that stands for no text. -/
def unknownNote : String × Value :=
  ("note", .string none)

/-- What is left of `roomy`, in another order and among unknown members. -/
def abridgedRoomy : Value :=
  .record
    [unknownVersion, ("queue", .record
      [("cluster_capacity", encode roomy.queue.clusterCapacity),
        ("default_priority", encode roomy.queue.defaultPriority), unknownNote])]

theorem isSound_abridgedRoomy : abridgedRoomy.IsSound := by
  have version : unknownVersion.2.IsSound :=
    Json.isSound_array (by simp [Value.IsSound, Value.tokens, Json.Token.IsSound]; decide)
  have note : unknownNote.2.IsSound := by
    simp [unknownNote, Value.IsSound, Value.tokens, Json.Token.IsSound]
  have capacity : (encode roomy.queue.clusterCapacity).IsSound :=
    (Wire.faithful_nat (by decide)).sound
  have queue : (Value.record [("cluster_capacity", encode roomy.queue.clusterCapacity),
      ("default_priority", encode roomy.queue.defaultPriority), unknownNote]).IsSound :=
    Json.isSound_record (by simp [capacity, (Wire.faithful_priority _).sound, note])
  exact Json.isSound_record (by simp [version, queue])

theorem read_abridged_roomy :
    Wire.read ("\x7b\"version\":[1e400],\"queue\":\x7b\"cluster_capacity\":18446744073709551615," ++
      "\"default_priority\":\"High\",\"note\":\"\\ud800\"\x7d\x7d") = .ok roomy ∧
    Wire.read (Wire.write (chosen [.clusterCapacity 18446744073709551615, .defaultPriority .high]))
      = .ok roomy := by
  have standardAt : ∀ p ∈ usualInRoomy, roomy.IsStandardAt p := by
    simp only [usualInRoomy, Finset.forall_mem_insert, Finset.mem_singleton, forall_eq]
    exact ⟨rfl, rfl, rfl, rfl⟩
  have abridged : roomy.IsAbridged usualInRoomy abridgedRoomy :=
    .intro (Retains.refl fun _ _ => rfl)
      ⟨[unknownNote], by decide, List.Perm.swap _ _ [unknownNote]⟩
      ⟨[unknownVersion], by decide, List.Perm.swap _ _ []⟩
  have read := (read_abridged.1 _ _ _ (by decide) standardAt abridged).2 isSound_abridgedRoomy
  constructor
  · rw [← read]
    refine congrArg Wire.read ?_
    decide +kernel
  · exact (read_abridged.2 _ (by simp [Choice.IsSized, Wire.countBound])).2

end Settings

end SearchIndex
