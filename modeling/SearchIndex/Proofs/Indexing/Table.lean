import SearchIndex.Proofs.Indexing.Batch

/-!
# Batches kept in a table

A batch can be kept in a table that finds a task by its key and has no order of its own. The
order of first pushes then survives only as a number next to each task, which the first push
of its key sets and no later push changes. A listing of the table has its tasks in any order
at all. Sorted by descending priority and, among equals, by number, every listing gives the
tasks in the order in which the batch carries them out.

The step lemmas say that a push to the table does what a push to the batch does
(`Holds.push_new`, `Holds.push_known`), and with them any calls do.
-/

namespace SearchIndex

open IndexTask

/-- A call that pushes tasks to a batch. -/
inductive BatchCall where
  | push (task : IndexTask)
  | pushAll (tasks : List IndexTask)
  deriving DecidableEq, Repr

/-- The tasks that a call pushes, in order. -/
def BatchCall.tasks : BatchCall → List IndexTask
  | .push task => [task]
  | .pushAll tasks => tasks

namespace TaskBatch

/-- The batch after a call. -/
def call (b : TaskBatch) : BatchCall → TaskBatch
  | .push task => b.push task
  | .pushAll tasks => b.pushAll tasks

/-- The batch after some calls. -/
def callAll (calls : List BatchCall) : TaskBatch :=
  calls.foldl call {}

theorem call_eq (b : TaskBatch) (c : BatchCall) : b.call c = b.pushAll c.tasks := by
  cases c <;> rfl

theorem callAll_eq (calls : List BatchCall) :
    callAll calls = ({} : TaskBatch).pushAll (calls.flatMap BatchCall.tasks) := by
  rw [callAll, pushAll, List.foldl_flatMap]
  exact congrArg (List.foldl · _ calls) (funext fun b => funext fun c => b.call_eq c)

end TaskBatch

/-- Tasks by their keys, each with the number of keys that were pushed before its own, and
the number for the next key. -/
structure TaskTable where
  entry? : String × TaskKind → Option (IndexTask × Nat) := fun _ => none
  next : Nat := 0

namespace TaskTable

/-- The table with another entry for a key. -/
def set (t : TaskTable) (key : String × TaskKind) (entry : IndexTask × Nat) : TaskTable :=
  { t with entry? := fun k => if k = key then some entry else t.entry? k }

/-- The table with a further task: merged with the one of its key, which keeps its number, or
with the next number if there is none. -/
def push (t : TaskTable) (task : IndexTask) : TaskTable :=
  match t.entry? task.key with
  | some (pending, number) => t.set task.key (pending.merge task, number)
  | none => { t.set task.key (task, t.next) with next := t.next + 1 }

/-- The table after some calls. -/
def callAll (calls : List BatchCall) : TaskTable :=
  calls.foldl (fun t c => c.tasks.foldl push t) {}

/-- Whether an entry may stand before another: the more urgent task first, and among equally
urgent ones the lower number. -/
def mayPrecede (first second : IndexTask × Nat) : Bool :=
  ((compare second.1.priority first.1.priority).then (compare first.2 second.2)).isLE

/-- The tasks of some entries in the order in which they are carried out. -/
def inOrder (entries : List (IndexTask × Nat)) : List IndexTask :=
  (entries.mergeSort mayPrecede).map (·.1)

/-- A listing of a table has each of its entries once, with its key, in any order. -/
structure Lists (t : TaskTable) (listing : List ((String × TaskKind) × (IndexTask × Nat))) :
    Prop where
  nodup : listing.Nodup
  mem_iff : ∀ key entry, (key, entry) ∈ listing ↔ t.entry? key = some entry

theorem Lists.perm {t : TaskTable} {listing other : List ((String × TaskKind) × (IndexTask × Nat))}
    (h : t.Lists listing) (perm : listing.Perm other) : t.Lists other where
  nodup := perm.nodup_iff.mp h.nodup
  mem_iff key entry := perm.mem_iff.symm.trans (h.mem_iff key entry)

/-- A table holds a batch: the number of a task is its place in the batch. -/
structure Holds (t : TaskTable) (b : TaskBatch) : Prop where
  next : t.next = b.size
  entry?_iff : ∀ key task number, t.entry? key = some (task, number) ↔
    b.tasks[number]? = some task ∧ task.key = key

theorem holds_empty : Holds {} {} where
  next := rfl
  entry?_iff key task number := by simp

theorem Holds.hasKey_iff {t : TaskTable} {b : TaskBatch} (h : t.Holds b)
    (key : String × TaskKind) : b.hasKey key = true ↔ (t.entry? key).isSome = true := by
  rw [TaskBatch.hasKey, List.any_eq_true, Option.isSome_iff_exists]
  constructor
  · rintro ⟨task, mem, same⟩
    obtain ⟨number, place⟩ := List.mem_iff_getElem?.mp mem
    exact ⟨(task, number), (h.entry?_iff _ _ _).mpr ⟨place, beq_iff_eq.mp same⟩⟩
  · rintro ⟨⟨task, number⟩, found⟩
    obtain ⟨place, same⟩ := (h.entry?_iff _ _ _).mp found
    exact ⟨task, List.mem_of_getElem? place, beq_iff_eq.mpr same⟩

theorem getElem?_concat_eq_some_iff {tasks : List IndexTask} {task u : IndexTask} {number : Nat} :
    (tasks ++ [task])[number]? = some u ↔
      tasks[number]? = some u ∨ number = tasks.length ∧ task = u := by
  rw [List.getElem?_append]
  split
  case isTrue lt =>
    constructor
    · exact .inl
    · rintro (place | ⟨rfl, -⟩)
      · exact place
      · exact absurd lt (Nat.lt_irrefl _)
  case isFalse ge =>
    rw [List.getElem?_singleton, List.getElem?_eq_none (Nat.le_of_not_lt ge)]
    by_cases last : number = tasks.length
    · simp [last]
    · simp [last, show number - tasks.length ≠ 0 by omega]

/-- A task of a new key gets the next number and the place at the end. -/
theorem Holds.push_new {t : TaskTable} {b : TaskBatch} (h : t.Holds b) {task : IndexTask}
    (found : t.entry? task.key = none) :
    Holds { t.set task.key (task, t.next) with next := t.next + 1 } (b.push task) := by
  have new : b.hasKey task.key = false := by
    rw [Bool.eq_false_iff, Ne, h.hasKey_iff, found]
    exact nofun
  have pushed := TaskBatch.push_of_not_hasKey new
  constructor
  case next =>
    rw [TaskBatch.size, pushed, List.length_append, h.next]
    rfl
  case entry?_iff =>
    intro key u number
    show (if key = task.key then some (task, t.next) else t.entry? key) = some (u, number) ↔ _
    rw [pushed, getElem?_concat_eq_some_iff, ← TaskBatch.size, ← h.next]
    by_cases same : key = task.key
    · rw [if_pos same, Option.some.injEq, Prod.mk.injEq]
      constructor
      · rintro ⟨rfl, rfl⟩
        exact ⟨.inr ⟨rfl, rfl⟩, same.symm⟩
      · rintro ⟨place | ⟨rfl, rfl⟩, known⟩
        · have := (h.entry?_iff key u number).mpr ⟨place, known⟩
          rw [same, found] at this
          cases this
        · exact ⟨rfl, rfl⟩
    · rw [if_neg same, h.entry?_iff]
      constructor
      · rintro ⟨place, known⟩
        exact ⟨.inl place, known⟩
      · rintro ⟨place | ⟨-, rfl⟩, known⟩
        · exact ⟨place, known⟩
        · exact absurd known.symm same

/-- A task of a known key is merged in the table and in the batch, where it stands. -/
theorem Holds.push_known {t : TaskTable} {b : TaskBatch} (h : t.Holds b) {task pending : IndexTask}
    {number : Nat} (found : t.entry? task.key = some (pending, number)) :
    Holds (t.set task.key (pending.merge task, number)) (b.push task) := by
  have known : b.hasKey task.key = true := (h.hasKey_iff _).mpr (by rw [found]; rfl)
  have pushed : (b.push task).tasks =
      b.tasks.map fun u => if u.key = task.key then u.merge task else u := by
    rw [TaskBatch.push, if_pos known]
  have keeps (u : IndexTask) : (if u.key = task.key then u.merge task else u).key = u.key := by
    split <;> simp
  constructor
  case next =>
    rw [TaskBatch.size, pushed, List.length_map]
    exact h.next
  case entry?_iff =>
    intro key u place
    show (if key = task.key then some (pending.merge task, number) else t.entry? key) =
      some (u, place) ↔ _
    rw [pushed, List.getElem?_map, Option.map_eq_some_iff]
    by_cases same : key = task.key
    · rw [if_pos same, Option.some.injEq, Prod.mk.injEq]
      constructor
      · rintro ⟨rfl, rfl⟩
        obtain ⟨stands, own⟩ := (h.entry?_iff _ _ _).mp found
        exact ⟨⟨pending, stands, if_pos own⟩, own.trans same.symm⟩
      · rintro ⟨⟨v, stands, rfl⟩, own⟩
        rw [keeps] at own
        have entry := (h.entry?_iff key v place).mpr ⟨stands, own⟩
        rw [same, found, Option.some.injEq, Prod.mk.injEq] at entry
        rw [if_pos (own.trans same), entry.1]
        exact ⟨rfl, entry.2⟩
    · rw [if_neg same, h.entry?_iff]
      constructor
      · rintro ⟨stands, rfl⟩
        exact ⟨⟨u, stands, if_neg same⟩, rfl⟩
      · rintro ⟨⟨v, stands, rfl⟩, own⟩
        rw [keeps] at own
        rw [if_neg (own ▸ same)]
        exact ⟨stands, own⟩

/-- Pushing a task to the table and to the batch keeps them together. -/
theorem Holds.push {t : TaskTable} {b : TaskBatch} (h : t.Holds b) (task : IndexTask) :
    (t.push task).Holds (b.push task) := by
  rw [TaskTable.push]
  cases found : t.entry? task.key with
  | none => exact h.push_new found
  | some entry => exact h.push_known found

theorem Holds.pushAll {t : TaskTable} {b : TaskBatch} (h : t.Holds b) (tasks : List IndexTask) :
    (tasks.foldl TaskTable.push t).Holds (b.pushAll tasks) := by
  induction tasks generalizing t b with
  | nil => exact h
  | cons task tasks ih => exact ih (h.push task)

/-- The same calls make a table and a batch that belong together. -/
theorem holds_callAll (calls : List BatchCall) :
    (callAll calls).Holds (TaskBatch.callAll calls) := by
  rw [TaskBatch.callAll_eq, callAll, ← List.foldl_flatMap]
  exact holds_empty.pushAll _

theorem mayPrecede_iff {first second : IndexTask × Nat} :
    mayPrecede first second = true ↔ second.1.priority.value < first.1.priority.value ∨
      second.1.priority.value = first.1.priority.value ∧ first.2 ≤ second.2 := by
  rw [mayPrecede, Ordering.isLE_then_iff_or, Nat.isLE_compare]
  show compare second.1.priority.value first.1.priority.value = _ ∨
    compare second.1.priority.value first.1.priority.value = _ ∧ _ ↔ _
  rw [Nat.compare_eq_lt, Nat.compare_eq_eq]

/-- Entries stand as the tasks of a batch do, the number deciding only between equals. -/
theorem mayPrecede_eq (first second : IndexTask × Nat) :
    mayPrecede first second = List.zipIdxLE TaskBatch.mayPrecede first second := by
  rw [List.zipIdxLE, Bool.eq_iff_iff, mayPrecede_iff]
  simp only [TaskBatch.mayPrecede_iff]
  split
  case isTrue le =>
    split
    · rw [decide_eq_true_eq]
      omega
    · rw [eq_self, iff_true]
      omega
  case isFalse gt =>
    rw [eq_false Bool.false_ne_true, iff_false]
    omega

/-- A listing has the tasks of the batch with their places, in some order. -/
theorem Holds.perm {t : TaskTable} {b : TaskBatch} (h : t.Holds b)
    {listing : List ((String × TaskKind) × (IndexTask × Nat))} (lists : t.Lists listing) :
    (listing.map (·.2)).Perm b.tasks.zipIdx := by
  have own : ∀ entry ∈ listing, entry.1 = entry.2.1.key := fun entry mem =>
    ((h.entry?_iff _ _ _).mp ((lists.mem_iff entry.1 entry.2).mp mem)).2.symm
  have nodup : (listing.map (·.2)).Nodup := by
    refine lists.nodup.map_on fun x hx y hy same => Prod.ext ?_ same
    rw [own x hx, own y hy, same]
  have numbered : b.tasks.zipIdx.Nodup := by
    refine .of_map Prod.snd ?_
    rw [List.zipIdx_map_snd]
    exact List.nodup_range'
  rw [List.perm_ext_iff_of_nodup nodup numbered]
  rintro ⟨task, number⟩
  rw [List.mem_zipIdx_iff_getElem?, List.mem_map]
  constructor
  · rintro ⟨⟨key, -⟩, mem, rfl⟩
    exact ((h.entry?_iff _ _ _).mp ((lists.mem_iff _ _).mp mem)).1
  · intro place
    exact ⟨(task.key, task, number),
      (lists.mem_iff _ _).mpr ((h.entry?_iff _ _ _).mpr ⟨place, rfl⟩), rfl⟩

/-- However the entries of a table are listed, they are sorted to the order of the batch. -/
theorem Holds.inOrder_eq {t : TaskTable} {b : TaskBatch} (h : t.Holds b)
    {listing : List ((String × TaskKind) × (IndexTask × Nat))} (lists : t.Lists listing) :
    inOrder (listing.map (·.2)) = b.ordered := by
  have perm := h.perm lists
  have trans := List.zipIdxLE_trans TaskBatch.mayPrecede_trans
  have total := List.zipIdxLE_total TaskBatch.mayPrecede_total
  -- No two entries have the same number, so the sort decides between any two of them.
  have antisymm : ∀ x y, x ∈ listing.map (·.2) → y ∈ b.tasks.zipIdx →
      List.zipIdxLE TaskBatch.mayPrecede x y = true →
      List.zipIdxLE TaskBatch.mayPrecede y x = true → x = y := by
    intro x y hx hy hxy hyx
    rw [← mayPrecede_eq, mayPrecede_iff] at hxy hyx
    have number : x.2 = y.2 := by omega
    have hx := List.mem_zipIdx_iff_getElem?.mp (perm.mem_iff.mp hx)
    rw [number, List.mem_zipIdx_iff_getElem?.mp hy, Option.some.injEq] at hx
    exact Prod.ext hx.symm number
  have sorted : (listing.map (·.2)).mergeSort (List.zipIdxLE TaskBatch.mayPrecede) =
      b.tasks.zipIdx.mergeSort (List.zipIdxLE TaskBatch.mayPrecede) := by
    refine List.Perm.eq_of_pairwise ?_ (List.pairwise_mergeSort trans total _)
      (List.pairwise_mergeSort trans total _)
      ((List.mergeSort_perm _ _).trans (perm.trans (List.mergeSort_perm _ _).symm))
    exact fun x y hx hy => antisymm x y (List.mem_mergeSort.mp hx) (List.mem_mergeSort.mp hy)
  rw [inOrder, funext fun x => funext (mayPrecede_eq x), sorted, List.mergeSort_zipIdx]
  rfl

/-- A table that holds a batch can be listed: as the batch stands. -/
theorem Holds.lists {t : TaskTable} {b : TaskBatch} (h : t.Holds b) :
    t.Lists (b.tasks.zipIdx.map fun entry => (entry.1.key, entry)) where
  nodup := by
    refine .of_map (·.2.2) ?_
    rw [List.map_map]
    show (b.tasks.zipIdx.map Prod.snd).Nodup
    rw [List.zipIdx_map_snd]
    exact List.nodup_range'
  mem_iff key entry := by
    rw [List.mem_map, h.entry?_iff key entry.1 entry.2]
    constructor
    · rintro ⟨found, mem, same⟩
      cases same
      exact ⟨List.mem_zipIdx_iff_getElem?.mp mem, rfl⟩
    · rintro ⟨place, rfl⟩
      exact ⟨entry, List.mem_zipIdx_iff_getElem?.mpr place, rfl⟩

/-- A table gives the same answers as a batch. -/
structure Agrees (t : TaskTable) (b : TaskBatch) : Prop where
  /-- A key finds the same task. -/
  get? : ∀ identity kind, (t.entry? (identity, kind)).map (·.1) = b.get? identity kind
  /-- The table can be listed. -/
  exists_listing : ∃ listing, t.Lists listing
  /-- However it is listed, it has as many tasks. -/
  length : ∀ listing, t.Lists listing → listing.length = b.size
  /-- However it is listed, its tasks are carried out in the same order. -/
  inOrder : ∀ listing, t.Lists listing → TaskTable.inOrder (listing.map (·.2)) = b.ordered

theorem Holds.agrees {t : TaskTable} {b : TaskBatch} (h : t.Holds b)
    (nodup : (b.tasks.map key).Nodup) : t.Agrees b where
  get? identity kind := by
    ext u
    rw [TaskBatch.get?_eq_some_iff nodup, Option.map_eq_some_iff]
    constructor
    · rintro ⟨⟨task, number⟩, found, rfl⟩
      obtain ⟨place, own⟩ := (h.entry?_iff _ _ _).mp found
      exact ⟨List.mem_of_getElem? place, own⟩
    · rintro ⟨mem, own⟩
      obtain ⟨number, place⟩ := List.mem_iff_getElem?.mp mem
      exact ⟨(u, number), (h.entry?_iff _ _ _).mpr ⟨place, own⟩, rfl⟩
  exists_listing := ⟨_, h.lists⟩
  length listing lists := by
    rw [← List.length_map (·.2), (h.perm lists).length_eq, List.length_zipIdx, TaskBatch.size]
  inOrder listing lists := h.inOrder_eq lists

end TaskTable

/-- What calls that push tasks make of a batch, whether it is kept in a list or in a table
whose entries have no order, and which of it does not depend on the order of the tasks. -/
theorem collects_callAll (calls : List BatchCall) :
    (TaskBatch.callAll calls).Collects (calls.flatMap BatchCall.tasks) ∧
    (TaskTable.callAll calls).Agrees (TaskBatch.callAll calls) ∧
    ∀ others : List BatchCall,
      (others.flatMap BatchCall.tasks).Perm (calls.flatMap BatchCall.tasks) →
      ∀ identity kind,
        ((TaskBatch.callAll others).get? identity kind).map (fun t => (t.priority, t.quiet)) =
          ((TaskBatch.callAll calls).get? identity kind).map fun t => (t.priority, t.quiet) := by
  have collects (calls : List BatchCall) :
      (TaskBatch.callAll calls).Collects (calls.flatMap BatchCall.tasks) := by
    rw [TaskBatch.callAll_eq]
    apply TaskBatch.collects_pushAll
  refine ⟨collects calls, ?_, ?_⟩
  · apply (TaskTable.holds_callAll calls).agrees
    exact ((TaskBatch.ordered_perm _).map key).nodup_iff.mp (collects calls).nodup
  · intro others perm
    exact (collects calls).get?_eq_of_perm (collects others) perm

/-- A task for one document, one for another, and a more urgent one for the first. -/
def raisingTasks : List IndexTask :=
  [⟨.document ⟨"main", "a", "b", none⟩, .index, .low, true, .epoch⟩,
    ⟨.document ⟨"main", "a", "c", none⟩, .index, .high, false, .epoch⟩,
    ⟨.document ⟨"main", "a", "b", some "default"⟩, .index, .highest, false, .epoch⟩]

theorem collects_callAll_raisingTasks :
    (∃ listing, (TaskTable.callAll [.pushAll raisingTasks]).Lists listing ∧
      listing.map (·.2.2) = [1, 0] ∧
      TaskTable.inOrder (listing.map (·.2)) =
        (TaskBatch.callAll [.pushAll raisingTasks]).ordered) ∧
    ((TaskBatch.callAll (raisingTasks.reverse.map .push)).get? "main:a.b.default" .index).map
      (fun t => (t.priority, t.quiet)) = some (.highest, false) := by
  obtain ⟨-, agrees, order⟩ := collects_callAll [.pushAll raisingTasks]
  constructor
  · have forward := (TaskTable.holds_callAll [.pushAll raisingTasks]).lists
    have backward := forward.perm (List.reverse_perm _).symm
    exact ⟨_, backward, by decide, agrees.inOrder _ backward⟩
  · rw [order (raisingTasks.reverse.map .push) (by decide)]
    decide

end SearchIndex
