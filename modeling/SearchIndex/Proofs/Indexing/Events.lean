import SearchIndex.Proofs.Indexing.Requests

/-!
# From content events to tasks

A content event calls for tasks about what has changed. `Planner.due` says which tasks these
are and in which order they are carried out, in words of the store, the context and the
settings alone. Nothing is merged or sorted there: a file whose name is stored several times
counts once, and a document stands before its files unless they are more urgent.

That the planner collects these tasks rests on two facts. The parts of one document have
different identities, so that a batch merges no two of them. And all files of a document are
equally urgent, so that sorting a batch can only move the document behind them.
-/

namespace SearchIndex

open Calendar (Instant)
open IndexTask

namespace DocumentRef

/-- A part of a document: the document itself, or a file of it. -/
def part (d : DocumentRef) : Option String → EntityRef
  | none => .document d
  | some filename => .attachment { document := d, filename }

/-- The parts of a document have different identities, whatever its names. -/
theorem identity_part_injective (d : DocumentRef) :
    Function.Injective fun part => (d.part part).identity := by
  have longer (filename : String) : d.identity ≠ d.identity ++ ".file." ++ filename := by
    intro same
    have length := congrArg String.length same
    rw [String.length_append, String.length_append] at length
    have word : ".file.".length = 6 := rfl
    omega
  intro first second same
  cases first with
  | none =>
    cases second with
    | none => rfl
    | some filename => exact absurd same (longer filename)
  | some filename =>
    cases second with
    | none => exact absurd same.symm (longer filename)
    | some other =>
      change d.identity ++ ".file." ++ filename = d.identity ++ ".file." ++ other at same
      rw [String.append_right_inj] at same
      rw [same]

end DocumentRef

namespace IndexTask

theorem merge_self (t : IndexTask) : t.merge t = t := by
  have priority : max t.priority t.priority = t.priority := ite_self _
  rw [merge, priority, Bool.and_self]

/-- A task that is pushed several times stands for itself. -/
theorem combined_of_forall_eq {ts : List IndexTask} {t : IndexTask} (mem : t ∈ ts)
    (same : ∀ s ∈ ts, s = t) : combined ts = some t := by
  induction ts using List.reverseRecOn with
  | nil => cases mem
  | append_singleton ts last ih =>
    have last_eq : last = t := same last (List.mem_append_right _ (List.mem_singleton.mpr rfl))
    have before : ∀ s ∈ ts, s = t := fun s hs => same s (List.mem_append_left _ hs)
    rw [combined_concat, last_eq]
    cases ts with
    | nil => rfl
    | cons s ts =>
      have first : t ∈ s :: ts := List.mem_cons.mpr (.inl (before s List.mem_cons_self).symm)
      rw [ih first before, Option.map_some, Option.getD_some, merge_self]

end IndexTask

namespace TaskBatch

/-- Tasks of which no two have the same key are kept as they were first pushed. -/
theorem combinedTasks_map {α : Type} [BEq α] [LawfulBEq α] {task : α → IndexTask}
    (injective : Function.Injective fun a => (task a).key) (as : List α) :
    combinedTasks (as.map task) = as.eraseDups.map task := by
  have alone : ∀ a ∈ as.eraseDups, combined (ofKey (as.map task) (task a).key) = some (task a) := by
    intro a ha
    apply combined_of_forall_eq
    · refine List.mem_filter.mpr ⟨List.mem_map_of_mem (List.mem_eraseDups.mp ha), ?_⟩
      exact decide_eq_true rfl
    · intro s hs
      obtain ⟨mem, same⟩ := List.mem_filter.mp hs
      obtain ⟨b, -, rfl⟩ := List.mem_map.mp mem
      rw [injective (of_decide_eq_true same)]
  have keys : firstKeys (as.map task) = as.eraseDups.map fun a => (task a).key := by
    rw [firstKeys, List.map_map]
    exact eraseDups_map injective as
  rw [combinedTasks, keys, List.filterMap_map]
  exact (List.filterMap_congr alone).trans (congrFun List.filterMap_eq_map _)

theorem ordered_push (t : IndexTask) : (({} : TaskBatch).push t).ordered = [t] :=
  List.mergeSort_singleton t

/-- One task and others that are equally urgent among themselves: the one goes first unless
the others are more urgent. -/
theorem ordered_cons {t : IndexTask} {ts : List IndexTask} {p : Priority}
    (equal : ∀ u ∈ ts, u.priority = p) :
    ordered ⟨t :: ts⟩ = if p ≤ t.priority then t :: ts else ts ++ [t] := by
  have sorted : ts.mergeSort mayPrecede = ts := by
    apply List.mergeSort_of_pairwise
    apply List.pairwise_of_forall_mem_list
    intro u hu v hv
    rw [mayPrecede_iff, equal u hu, equal v hv]
  obtain ⟨before, after, place, split, earlier⟩ :=
    List.mergeSort_cons mayPrecede_trans mayPrecede_total t ts
  have descending := List.pairwise_mergeSort mayPrecede_trans mayPrecede_total (t :: ts)
  rw [sorted] at split
  change (t :: ts).mergeSort mayPrecede = _
  rw [place] at descending ⊢
  by_cases first : p ≤ t.priority
  case pos =>
    have nil : before = [] := by
      apply List.eq_nil_iff_forall_not_mem.mpr
      intro u hu
      have urgent := earlier u hu
      have mem : u ∈ ts := by
        rw [split]
        exact List.mem_append_left _ hu
      rw [mayPrecede, equal u mem, decide_eq_true first] at urgent
      cases urgent
    rw [if_pos first, split, nil]
    rfl
  case neg =>
    have nil : after = [] := by
      apply List.eq_nil_iff_forall_not_mem.mpr
      intro u hu
      have later := List.rel_of_pairwise_cons (List.pairwise_append.mp descending).2.1 hu
      have mem : u ∈ ts := by
        rw [split]
        exact List.mem_append_right _ hu
      rw [mayPrecede_iff, equal u mem] at later
      exact first later
    rw [if_neg first, split, nil, List.append_nil]

end TaskBatch

namespace Planner

variable (p : Planner) (now : Instant) (context : RequestContext)

/-- The task that an entity is due in a context. -/
def dueTask (kind : TaskKind) (target : EntityRef) (explicit : Option Priority) : IndexTask :=
  (⟨{ now, kind, target, explicit, context }, target⟩ : ResolvedRequest).task
    p.settings.defaultPriority

/-- The tasks that a stored document and its files are due, in the order in which they are
carried out. The files are as urgent as the settings say, in whatever context. -/
def dueDocument (info : DocumentInfo) : List IndexTask :=
  let document := p.dueTask now context .index (.document info.reference) none
  let files := info.attachments.eraseDups.map fun filename =>
    p.dueTask now context .index (.attachment { document := info.reference, filename })
      (some p.settings.attachmentPriority)
  if p.settings.attachmentPriority ≤ document.priority then document :: files
  else files ++ [document]

/-- The tasks that an event calls for, in the order in which they are carried out. -/
def due : ContentEvent → List IndexTask
  | .documentCreated d | .documentUpdated d =>
    match p.store.get? d with
    | some info => p.dueDocument now context info
    | none => []
  | .documentDeleted d => [p.dueTask now context .delete (.document d) none]
  | .attachmentAdded a | .attachmentUpdated a =>
    match p.store.get? a.document with
    | some info =>
      if a.filename ∈ info.attachments then
        [p.dueTask now context .index
          (.attachment { document := info.reference, filename := a.filename })
          (some p.settings.attachmentPriority)]
      else []
    | none => []
  | .attachmentDeleted a =>
    let document := (p.store.getOrCreate a.document).reference
    [p.dueTask now context .delete (.attachment { document, filename := a.filename }) none]
  | .partitionCreated name => [p.dueTask now context .index (.partition name) none]
  | .partitionDeleted name => [p.dueTask now context .delete (.partition name) none]

theorem mem_dueDocument {info : DocumentInfo} {t : IndexTask} :
    t ∈ p.dueDocument now context info ↔
      t = p.dueTask now context .index (.document info.reference) none ∨
      ∃ filename ∈ info.attachments, t = p.dueTask now context .index
        (.attachment { document := info.reference, filename })
        (some p.settings.attachmentPriority) := by
  have files : ∀ task : String → IndexTask,
      t ∈ info.attachments.eraseDups.map task ↔ ∃ name ∈ info.attachments, t = task name := by
    intro task
    simp only [List.mem_map, List.mem_eraseDups, eq_comm]
  rw [dueDocument]
  split
  · rw [List.mem_cons, files]
  · rw [List.mem_append, List.mem_singleton, files, or_comm]

/-- Whatever an event calls for is due in the context of the event. -/
theorem exists_of_mem_due {event : ContentEvent} {t : IndexTask}
    (h : t ∈ p.due now context event) :
    ∃ kind target explicit, t = p.dueTask now context kind target explicit := by
  cases event with
  | documentCreated d | documentUpdated d =>
    rw [due] at h
    split at h
    case h_1 =>
      obtain rfl | ⟨filename, -, rfl⟩ := (p.mem_dueDocument now context).mp h
      · exact ⟨_, _, _, rfl⟩
      · exact ⟨_, _, _, rfl⟩
    case h_2 => cases h
  | attachmentAdded a | attachmentUpdated a =>
    rw [due] at h
    split at h
    case h_1 =>
      split at h
      case isTrue => exact ⟨_, _, _, List.mem_singleton.mp h⟩
      case isFalse => cases h
    case h_2 => cases h
  | _ => exact ⟨_, _, _, List.mem_singleton.mp h⟩

theorem task_eq_dueTask (kind : TaskKind) (target : EntityRef) (explicit : Option Priority) :
    p.task now kind target explicit context = p.dueTask now context kind target explicit :=
  p.task_eq { now, kind, target, explicit, context } target

theorem ordered_documentTasks (info : DocumentInfo) :
    (({} : TaskBatch).pushAll (p.documentTasks now info context)).ordered =
      p.dueDocument now context info := by
  let task (part : Option String) : IndexTask :=
    p.dueTask now context .index (info.reference.part part)
      (part.map fun _ => p.settings.attachmentPriority)
  have pushed : p.documentTasks now info context =
      (none :: info.attachments.map some).map task := by
    simp only [documentTasks, task_eq_dueTask, List.map_cons, List.map_map]
    rfl
  have injective : Function.Injective fun part => (task part).key := fun first second same =>
    info.reference.identity_part_injective (Prod.mk.inj same).1
  have parts : (none :: info.attachments.map some).eraseDups =
      none :: info.attachments.eraseDups.map some := by
    have others : (info.attachments.map some).filter (fun part => !part == none) =
        info.attachments.map some := by
      apply List.filter_eq_self.mpr
      intro part hpart
      obtain ⟨filename, -, rfl⟩ := List.mem_map.mp hpart
      rfl
    rw [List.eraseDups_cons, others, TaskBatch.eraseDups_map (Option.some_injective _)]
  have collected : ({} : TaskBatch).pushAll (p.documentTasks now info context) =
      ⟨task none :: info.attachments.eraseDups.map fun filename => task (some filename)⟩ := by
    rw [TaskBatch.mk.injEq, TaskBatch.tasks_pushAll, pushed,
      TaskBatch.combinedTasks_map injective, parts, List.map_cons, List.map_map]
    rfl
  rw [collected]
  apply TaskBatch.ordered_cons
  intro u hu
  obtain ⟨filename, -, rfl⟩ := List.mem_map.mp hu
  rfl

theorem ordered_planDocument (d : DocumentRef) :
    (p.planDocument now d context).batch.ordered = match p.store.get? d with
      | some info => p.dueDocument now context info
      | none => [] := by
  rw [planDocument]
  cases p.store.get? d with
  | none => exact List.mergeSort_nil
  | some info => exact p.ordered_documentTasks now context info

theorem ordered_planAttachment (a : AttachmentRef) :
    (p.planAttachment now a context).batch.ordered = match p.store.get? a.document with
      | some info =>
        if a.filename ∈ info.attachments then
          [p.dueTask now context .index
            (.attachment { document := info.reference, filename := a.filename })
            (some p.settings.attachmentPriority)]
        else []
      | none => [] := by
  rw [planAttachment, storedAttachment]
  cases p.store.get? a.document with
  | none => exact List.mergeSort_nil
  | some info =>
    simp only [DocumentInfo.hasAttachment, List.contains_iff_mem]
    by_cases stored : a.filename ∈ info.attachments
    · rw [if_pos stored, if_pos stored, ← task_eq_dueTask]
      exact TaskBatch.ordered_push _
    · rw [if_neg stored, if_neg stored]
      exact List.mergeSort_nil

theorem ordered_tasksFor (event : ContentEvent) :
    (p.tasksFor now event context).batch.ordered = p.due now context event := by
  cases event with
  | documentCreated d | documentUpdated d => exact p.ordered_planDocument now context d
  | attachmentAdded a | attachmentUpdated a => exact p.ordered_planAttachment now context a
  | _ =>
    simp only [due, ← task_eq_dueTask]
    exact TaskBatch.ordered_push _

/-- The tasks for an event, put in order, are those that it calls for. The more urgent come
first, and each is as quiet as its context. -/
theorem ordered_tasksFor_eq_due (event : ContentEvent) :
    (p.tasksFor now event context).batch.ordered = p.due now context event ∧
    (p.due now context event).Pairwise (fun t u => u.priority ≤ t.priority) ∧
    ∀ t ∈ p.due now context event, t.quiet = context.quiet ∧ t.queuedAt = now := by
  refine ⟨p.ordered_tasksFor now context event, ?_, ?_⟩
  · rw [← ordered_tasksFor]
    exact (TaskBatch.pairwise_mayPrecede _).imp fun may => TaskBatch.mayPrecede_iff.mp may
  · intro t ht
    obtain ⟨kind, target, explicit, rfl⟩ := p.exists_of_mem_due now context ht
    exact ⟨rfl, rfl⟩

/-- A file that is stored twice is indexed once, behind its document. -/
example :
    let p : Planner := ⟨{}, .ofList [⟨⟨"main", "a", "b", some "en"⟩, ["c.txt", "c.txt"]⟩]⟩
    (p.due .epoch {} (.documentUpdated ⟨"main", "a", "b", none⟩)).map (·.text) =
      ["Index main:a.b.en (Default)", "Index main:a.b.en.file.c.txt (Low)"] := by
  decide

end Planner

end SearchIndex
