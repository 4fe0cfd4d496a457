import SearchIndex.Calendar.Instant
import SearchIndex.Entity
import SearchIndex.Indexing.Priority

/-!
# Index tasks

A task asks for one entity to be indexed or deleted. Tasks that belong together
are collected in a `TaskBatch`, which keeps one task for each identity and kind:
a further push of the same key only raises its priority, and the task stays
quiet only if every push was. `TaskBatch.ordered` is the order in which the
tasks are carried out: by descending priority, equals as they were first pushed.
-/

namespace SearchIndex

/-- What is done to an entity of the index. -/
inductive TaskKind where
  | index
  | delete
  deriving DecidableEq, Repr

/-- The word for a kind of task. -/
def TaskKind.word : TaskKind → String
  | .index => "Index"
  | .delete => "Delete"

/-- A change to make to the index. A quiet task informs no other party. -/
structure IndexTask where
  target : EntityRef
  kind : TaskKind
  priority : Priority
  quiet : Bool
  queuedAt : Calendar.Instant
  deriving DecidableEq, Repr

namespace IndexTask

/-- The identity of the entity that the task is about. -/
def identity (t : IndexTask) : String :=
  t.target.identity

/-- What tasks of one batch are told apart by. -/
def key (t : IndexTask) : String × TaskKind :=
  (t.identity, t.kind)

/-- The task in words. -/
def text (t : IndexTask) : String :=
  t.kind.word ++ " " ++ t.identity ++ " (" ++ t.priority.word ++ ")"

/-- A task that also stands for a later one of the same key. -/
def merge (t later : IndexTask) : IndexTask :=
  { t with priority := max t.priority later.priority, quiet := t.quiet && later.quiet }

@[simp] theorem key_merge (t later : IndexTask) : (t.merge later).key = t.key := rfl

end IndexTask

/-- Tasks with different keys, in the order of their first pushes. -/
structure TaskBatch where
  tasks : List IndexTask := []
  deriving DecidableEq, Repr

namespace TaskBatch

/-- The task of a key. -/
def get? (b : TaskBatch) (identity : String) (kind : TaskKind) : Option IndexTask :=
  b.tasks.find? fun t => t.key == (identity, kind)

/-- Whether the batch has a task of a key. -/
def hasKey (b : TaskBatch) (key : String × TaskKind) : Bool :=
  b.tasks.any (·.key == key)

/-- The batch with a further task, merged with the one of its key if there is one. -/
def push (b : TaskBatch) (task : IndexTask) : TaskBatch :=
  if b.hasKey task.key then
    ⟨b.tasks.map fun t => if t.key = task.key then t.merge task else t⟩
  else ⟨b.tasks ++ [task]⟩

/-- The batch with further tasks. -/
def pushAll (b : TaskBatch) (tasks : List IndexTask) : TaskBatch :=
  tasks.foldl push b

/-- How many tasks there are. -/
def size (b : TaskBatch) : Nat :=
  b.tasks.length

/-- Whether there is no task. -/
def isEmpty (b : TaskBatch) : Bool :=
  b.tasks.isEmpty

/-- The tasks by descending priority, equals in the order of their first pushes. -/
def ordered (b : TaskBatch) : List IndexTask :=
  b.tasks.mergeSort fun first second => decide (second.priority ≤ first.priority)

theorem push_of_not_hasKey {b : TaskBatch} {task : IndexTask} (h : b.hasKey task.key = false) :
    (b.push task).tasks = b.tasks ++ [task] := by
  simp [push, h]

/-- Sorting a batch neither loses nor repeats a task. -/
theorem ordered_perm (b : TaskBatch) : b.ordered.Perm b.tasks :=
  List.mergeSort_perm _ _

end TaskBatch

end SearchIndex
