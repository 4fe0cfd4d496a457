import SearchIndex.Proofs.Indexing.Batch

/-!
# What a batch takes for the same

A batch merges two tasks exactly if their kinds and the identities of their targets agree.
An identity is a text with separators in it that nothing protects, so two entities may
share one: `a.b:c` and `a:b.c` in a document's space and name, a partition with a colon and
a document, a document and an attachment. `EntityRef.IsClear` says that the separators
stand where they separate and nowhere else. Entities of that kind have the same identity
only if they are the same, apart from a missing language and the word for it.
-/

namespace SearchIndex

/-- What stands before the first separator, and what behind it, can be told from the whole. -/
theorem eq_of_append_cons_eq {α : Type} [DecidableEq α] {sep : α} {first first' rest rest' : List α}
    (h : sep ∉ first) (h' : sep ∉ first') (eq : first ++ sep :: rest = first' ++ sep :: rest') :
    first = first' ∧ rest = rest' := by
  have parts := congrArg (List.splitOn sep) eq
  rw [List.splitOn_append_cons_self_of_not_mem h,
    List.splitOn_append_cons_self_of_not_mem h'] at parts
  obtain rfl := (List.cons.inj parts).1
  exact ⟨rfl, (List.cons.inj (List.append_cancel_left eq)).2⟩

namespace DocumentRef

/-- The document with its language in words. -/
def explicit (d : DocumentRef) : DocumentRef :=
  { d with language := some d.languageOrDefault }

/-- The parts of the space between its dots, the name and the language. -/
def segments (d : DocumentRef) : List (List Char) :=
  d.space.toList.splitOn '.' ++ [d.name.toList, d.languageOrDefault.toList]

/-- The separators of a document's identity stand only where they separate. The word for
files may be one of the first three segments, which every document has. -/
structure IsClear (d : DocumentRef) : Prop where
  partition : ':' ∉ d.partition.toList
  name : '.' ∉ d.name.toList
  language : '.' ∉ d.languageOrDefault.toList
  segments : "file".toList ∉ d.segments.drop 3

instance (d : DocumentRef) : Decidable d.IsClear :=
  decidable_of_iff (':' ∉ d.partition.toList ∧ '.' ∉ d.name.toList ∧
      '.' ∉ d.languageOrDefault.toList ∧ "file".toList ∉ d.segments.drop 3)
    ⟨fun ⟨p, n, l, s⟩ => ⟨p, n, l, s⟩, fun ⟨p, n, l, s⟩ => ⟨p, n, l, s⟩⟩

/-- The part of an identity behind the partition. -/
def path (d : DocumentRef) : List Char :=
  d.space.toList ++ '.' :: (d.name.toList ++ '.' :: d.languageOrDefault.toList)

theorem toList_identity (d : DocumentRef) :
    d.identity.toList = d.partition.toList ++ ':' :: d.path := by
  simp [identity, fullName, path]

theorem splitOn_path {d : DocumentRef} (h : d.IsClear) : d.path.splitOn '.' = d.segments := by
  rw [path, List.splitOn_append_cons_self, List.splitOn_append_cons_self,
    List.splitOn_eq_singleton h.name, List.splitOn_eq_singleton h.language]
  rfl

theorem three_le_length_segments (d : DocumentRef) : 3 ≤ d.segments.length := by
  have := List.length_pos_of_ne_nil (List.splitOn_ne_nil '.' d.space.toList)
  simp only [segments, List.length_append, List.length_cons, List.length_nil]
  omega

theorem explicit_eq_of_segments_eq {d d' : DocumentRef} (partition : d.partition = d'.partition)
    (h : d.segments = d'.segments) : d.explicit = d'.explicit := by
  obtain ⟨space, rest⟩ := List.append_inj' h rfl
  have space := congrArg (['.'].intercalate ·) space
  simp only [List.intercalate_splitOn, String.toList_inj] at space
  simp only [List.cons.injEq, and_true, String.toList_inj] at rest
  rw [explicit, explicit, partition, space, rest.1, rest.2]

end DocumentRef

namespace EntityRef

/-- The entity with the language of its document in words. -/
def explicit : EntityRef → EntityRef
  | .partition name => .partition name
  | .document d => .document d.explicit
  | .attachment a => .attachment { a with document := a.document.explicit }

/-- The separators of an entity's identity stand only where they separate. A file name
may be any text. -/
def IsClear : EntityRef → Prop
  | .partition name => ':' ∉ name.toList
  | .document d => d.IsClear
  | .attachment a => a.document.IsClear

/-- The segments behind the partition in the identity of an entity. -/
def segments : EntityRef → List (List Char)
  | .partition _ => []
  | .document d => d.segments
  | .attachment a => a.document.segments ++ "file".toList :: a.filename.toList.splitOn '.'

/-- The identity of an entity that is no partition begins with its partition and a colon. -/
theorem exists_toList_identity {e : EntityRef} (clear : e.IsClear) (d : DocumentRef)
    (he : e.document? = some d) : ':' ∉ d.partition.toList ∧
      ∃ path, e.identity.toList = d.partition.toList ++ ':' :: path ∧
        path.splitOn '.' = e.segments := by
  cases e with
  | partition name => cases he
  | document d' =>
      obtain rfl := Option.some.inj he
      exact ⟨clear.partition, d'.path, d'.toList_identity, DocumentRef.splitOn_path clear⟩
  | attachment a =>
      obtain rfl := Option.some.inj he
      have text : a.identity.toList = a.document.partition.toList ++
          ':' :: (a.document.path ++ '.' :: ("file".toList ++ '.' :: a.filename.toList)) := by
        rw [AttachmentRef.identity, String.toList_append, String.toList_append,
          DocumentRef.toList_identity]
        simp
      refine ⟨clear.partition, _, text, ?_⟩
      rw [List.splitOn_append_cons_self, DocumentRef.splitOn_path clear,
        List.splitOn_append_cons_self_of_not_mem (by decide)]
      rfl

/-- The identity tells the partition and the segments. -/
theorem eq_of_identity_eq {e e' : EntityRef} (clear : e.IsClear) (clear' : e'.IsClear)
    {d d' : DocumentRef} (he : e.document? = some d) (he' : e'.document? = some d')
    (h : e.identity = e'.identity) : d.partition = d'.partition ∧ e.segments = e'.segments := by
  obtain ⟨colon, path, text, parts⟩ := exists_toList_identity clear d he
  obtain ⟨colon', path', text', parts'⟩ := exists_toList_identity clear' d' he'
  rw [h, text'] at text
  obtain ⟨partition, rest⟩ := eq_of_append_cons_eq colon' colon text
  exact ⟨String.toList_inj.mp partition.symm, by rw [← parts, ← parts', rest]⟩

/-- A document has no file: what its segments have from the fourth on is not the word for it. -/
theorem segments_ne_of_isClear {d d' : DocumentRef} (clear : d.IsClear)
    (files : List (List Char)) : d.segments ≠ d'.segments ++ "file".toList :: files := by
  intro h
  apply clear.segments
  rw [h, List.drop_append_of_le_length d'.three_le_length_segments]
  exact List.mem_append_right _ List.mem_cons_self

/-- The word for files separates the segments of a document from those of a file name. -/
theorem segments_eq_of_append_eq {d d' : DocumentRef} (clear : d.IsClear) (clear' : d'.IsClear)
    {files files' : List (List Char)}
    (h : d.segments ++ "file".toList :: files = d'.segments ++ "file".toList :: files') :
    d.segments = d'.segments ∧ files = files' := by
  have later := congrArg (List.drop 3) h
  rw [List.drop_append_of_le_length d.three_le_length_segments,
    List.drop_append_of_le_length d'.three_le_length_segments] at later
  obtain ⟨-, rfl⟩ := eq_of_append_cons_eq clear.segments clear'.segments later
  exact ⟨List.append_cancel_right h, rfl⟩

/-- Only the identity of a partition may do without a colon. -/
theorem name_ne_identity {name : String} (plain : ':' ∉ name.toList) {e : EntityRef}
    (clear : e.IsClear) {d : DocumentRef} (he : e.document? = some d) : name ≠ e.identity := by
  intro h
  obtain ⟨-, path, text, -⟩ := exists_toList_identity clear d he
  apply plain
  rw [h, text]
  exact List.mem_append_right _ List.mem_cons_self

/-- Entities whose identities are clear have the same identity only if they are the same. -/
theorem explicit_eq_of_identity_eq {e e' : EntityRef} (clear : e.IsClear) (clear' : e'.IsClear)
    (h : e.identity = e'.identity) : e.explicit = e'.explicit := by
  cases e with
  | partition name =>
      cases e' with
      | partition name' => exact congrArg partition h
      | document d => exact absurd h (name_ne_identity clear clear' rfl)
      | attachment a => exact absurd h (name_ne_identity clear clear' rfl)
  | document d =>
      cases e' with
      | partition name' => exact absurd h.symm (name_ne_identity clear' clear rfl)
      | document d' =>
          obtain ⟨partition, segments⟩ := eq_of_identity_eq clear clear' rfl rfl h
          exact congrArg document (DocumentRef.explicit_eq_of_segments_eq partition segments)
      | attachment a =>
          exact absurd (eq_of_identity_eq clear clear' rfl rfl h).2 (segments_ne_of_isClear clear _)
  | attachment a =>
      cases e' with
      | partition name' => exact absurd h.symm (name_ne_identity clear' clear rfl)
      | document d =>
          exact absurd (eq_of_identity_eq clear' clear rfl rfl h.symm).2
            (segments_ne_of_isClear clear' _)
      | attachment a' =>
          obtain ⟨partition, segments⟩ := eq_of_identity_eq clear clear' rfl rfl h
          obtain ⟨document, files⟩ := segments_eq_of_append_eq clear clear' segments
          have filename := congrArg (['.'].intercalate ·) files
          simp only [List.intercalate_splitOn, String.toList_inj] at filename
          rw [explicit, explicit, filename,
            DocumentRef.explicit_eq_of_segments_eq partition document]

theorem identity_explicit (e : EntityRef) : e.explicit.identity = e.identity := by
  cases e <;> rfl

theorem identity_eq_iff {e e' : EntityRef} (clear : e.IsClear) (clear' : e'.IsClear) :
    e.identity = e'.identity ↔ e.explicit = e'.explicit := by
  constructor
  · exact explicit_eq_of_identity_eq clear clear'
  · intro h
    rw [← identity_explicit e, h, identity_explicit e']

end EntityRef

namespace TaskBatch

theorem head?_ofKey (tasks : List IndexTask) (key : String × TaskKind) :
    (ofKey tasks key).head? = tasks.find? fun t => t.key = key :=
  List.head?_filter

/-- Every pushed task is carried out by exactly one task of its kind and identity. That
is at least as urgent and about the target of the first push of the two, which is the
target of the pushed task if both are clear. -/
theorem exists_carrying_mem_ordered (tasks : List IndexTask) :
    (∀ t ∈ tasks, ∃ u ∈ (({} : TaskBatch).pushAll tasks).ordered,
      u.kind = t.kind ∧ u.identity = t.identity ∧ t.priority ≤ u.priority ∧
      (∀ v ∈ (({} : TaskBatch).pushAll tasks).ordered, v.key = t.key → v = u) ∧
      (tasks.find? fun s => s.key = t.key).map (·.target) = some u.target ∧
      (t.target.IsClear → u.target.IsClear → u.target.explicit = t.target.explicit)) ∧
    ∀ e e' : EntityRef, e.IsClear → e'.IsClear →
      (e.identity = e'.identity ↔ e.explicit = e'.explicit) := by
  refine ⟨?_, fun e e' clear clear' => EntityRef.identity_eq_iff clear clear'⟩
  intro t ht
  obtain ⟨u, hu, same⟩ := exists_mem_combinedTasks ht
  have combines := combines_of_mem hu
  obtain ⟨first, head, target, -⟩ := combines.first
  rw [same] at combines head
  obtain ⟨identity, kind⟩ := Prod.mk.inj same
  refine ⟨u, mem_ordered_pushAll.mpr hu, kind, identity, ?_, ?_, ?_, ?_⟩
  · exact combines.le_priority t (List.mem_filter.mpr ⟨ht, decide_eq_true rfl⟩)
  · exact fun v hv eq => eq_of_key_eq (mem_ordered_pushAll.mp hv) hu (eq.trans same.symm)
  · rw [← head?_ofKey, head, target]
    rfl
  · intro clear clear'
    exact EntityRef.explicit_eq_of_identity_eq clear' clear identity

/-- A change to a document that is made again in a hurry, and one to a file of it. -/
def repeatedPushes : List IndexTask :=
  [⟨.document ⟨"main", "a.b", "c", none⟩, .index, .low, true, .epoch⟩,
    ⟨.attachment ⟨⟨"main", "a.b", "c", none⟩, "d.txt"⟩, .index, .low, true, .epoch⟩,
    ⟨.document ⟨"main", "a.b", "c", some "default"⟩, .index, .high, true, .epoch⟩]

theorem exists_carrying_mem_ordered_repeatedPushes :
    ∃ u ∈ (({} : TaskBatch).pushAll repeatedPushes).ordered, .high ≤ u.priority ∧
      u.target.explicit = .document ⟨"main", "a.b", "c", some "default"⟩ := by
  have pushed : (⟨.document ⟨"main", "a.b", "c", some "default"⟩, .index, .high, true, .epoch⟩ :
      IndexTask) ∈ repeatedPushes := by decide
  obtain ⟨carried, -⟩ := exists_carrying_mem_ordered repeatedPushes
  obtain ⟨u, hu, -, -, urgent, -, first, same⟩ := carried _ pushed
  have target : EntityRef.document ⟨"main", "a.b", "c", none⟩ = u.target :=
    Option.some.inj ((by decide : _ = _).trans first)
  have clear : DocumentRef.IsClear ⟨"main", "a.b", "c", none⟩ := by decide
  have clear' : DocumentRef.IsClear ⟨"main", "a.b", "c", some "default"⟩ := by decide
  exact ⟨u, hu, urgent, same clear' (target ▸ clear)⟩

/-- Some tasks about different entities of which a batch keeps only the first: two documents,
a partition and a document, and a document and an attachment. -/
def sharedIdentities : List (IndexTask × IndexTask) :=
  [(⟨.document ⟨"main", "a.b", "c", none⟩, .index, .low, true, .epoch⟩,
      ⟨.document ⟨"main", "a", "b.c", none⟩, .index, .low, true, .epoch⟩),
    (⟨.partition "main:a.b.default", .delete, .low, true, .epoch⟩,
      ⟨.document ⟨"main", "a", "b", none⟩, .delete, .low, true, .epoch⟩),
    (⟨.document ⟨"main", "a.b.c", "file", some "d"⟩, .index, .low, true, .epoch⟩,
      ⟨.attachment ⟨⟨"main", "a", "b", some "c"⟩, "d"⟩, .index, .low, true, .epoch⟩)]

/-- The second task of each such pair is swallowed by the first. -/
theorem not_exists_target_eq_sharedIdentities :
    ¬∃ pair ∈ sharedIdentities, ∃ u ∈ (({} : TaskBatch).pushAll [pair.1, pair.2]).ordered,
      u.target.explicit = pair.2.target.explicit := by
  have only : ∀ pair ∈ sharedIdentities, pair.1.target.explicit ≠ pair.2.target.explicit ∧
      (({} : TaskBatch).pushAll [pair.1, pair.2]).tasks = [pair.1] := by decide
  rintro ⟨pair, hpair, u, hu, same⟩
  obtain ⟨ne, tasks⟩ := only pair hpair
  rw [(ordered_perm _).mem_iff, tasks] at hu
  exact ne (List.mem_singleton.mp hu ▸ same)

end TaskBatch

end SearchIndex
