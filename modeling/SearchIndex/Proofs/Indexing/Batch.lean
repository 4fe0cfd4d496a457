import Mathlib.Data.Finset.Card
import Mathlib.Data.List.Basic
import Mathlib.Data.List.Induction
import Mathlib.Data.List.Nodup
import SearchIndex.Indexing.Task

/-!
# What a batch holds

After any pushes a batch holds one task for each key, in the order in which the keys
were first pushed: the task that combines all pushed tasks of that key. It is about
what the first of them is about, has the highest of their priorities, and is quiet if
all of them are. Carrying out a batch takes these tasks by descending priority and,
where priorities are equal, in the order of the first pushes. `TaskBatch.Collects` says all
this by the pushed tasks alone, and `Collects.get?_eq_of_perm` what their order changes.
-/

namespace SearchIndex

namespace Priority

theorem value_max (a b : Priority) : (max a b).value = max a.value b.value := by
  change (if a ≤ b then b else a).value = _
  split <;> rename_i h <;> rw [le_iff] at h <;> omega

theorem value_injective {a b : Priority} (h : a.value = b.value) : a = b := by
  rw [← ofValue_value a, h, ofValue_value]

end Priority

namespace IndexTask

/-- The task that stands for several of one key. -/
def combined : List IndexTask → Option IndexTask
  | [] => none
  | t :: ts => some (ts.foldl merge t)

/-- A task stands for several: it is about the same as the first of them, as urgent as
the most urgent of them, and quiet if all of them are. -/
structure Combines (u : IndexTask) (ts : List IndexTask) : Prop where
  first : ∃ t, ts.head? = some t ∧ u.target = t.target ∧ u.kind = t.kind ∧ u.queuedAt = t.queuedAt
  le_priority : ∀ t ∈ ts, t.priority ≤ u.priority
  exists_priority : ∃ t ∈ ts, t.priority = u.priority
  quiet_iff : u.quiet = true ↔ ∀ t ∈ ts, t.quiet = true

theorem combines_singleton (t : IndexTask) : t.Combines [t] where
  first := ⟨t, rfl, rfl, rfl, rfl⟩
  le_priority := List.forall_mem_singleton.mpr (Nat.le_refl _)
  exists_priority := ⟨t, List.mem_singleton.mpr rfl, rfl⟩
  quiet_iff := by simp

theorem Combines.concat {u : IndexTask} {ts : List IndexTask} (h : u.Combines ts) (t : IndexTask) :
    (u.merge t).Combines (ts ++ [t]) where
  first := by
    obtain ⟨first, head, same⟩ := h.first
    exact ⟨first, by rw [List.head?_append, head]; rfl, same⟩
  le_priority := by
    have highest : (u.merge t).priority.value = max u.priority.value t.priority.value :=
      Priority.value_max _ _
    intro s hs
    rw [Priority.le_iff, highest]
    rcases List.mem_append.mp hs with hs | hs
    · have := Priority.le_iff.mp (h.le_priority s hs)
      omega
    · rw [List.mem_singleton.mp hs]
      omega
  exists_priority := by
    obtain ⟨s, hs, same⟩ := h.exists_priority
    by_cases later : u.priority ≤ t.priority
    · exact ⟨t, List.mem_append_right _ (List.mem_singleton.mpr rfl), (if_pos later).symm⟩
    · exact ⟨s, List.mem_append_left _ hs, same.trans (if_neg later).symm⟩
  quiet_iff := by
    rw [merge, Bool.and_eq_true, h.quiet_iff, List.forall_mem_append, List.forall_mem_singleton]

/-- In which order tasks are combined matters to neither the priority nor the quiet. -/
theorem Combines.eq_of_perm {u v : IndexTask} {ts us : List IndexTask} (hu : u.Combines ts)
    (hv : v.Combines us) (perm : ts.Perm us) : (u.priority, u.quiet) = (v.priority, v.quiet) := by
  obtain ⟨t, ht, highest⟩ := hu.exists_priority
  obtain ⟨s, hs, highest'⟩ := hv.exists_priority
  have le := Priority.le_iff.mp (hv.le_priority t (perm.mem_iff.mp ht))
  have ge := Priority.le_iff.mp (hu.le_priority s (perm.mem_iff.mpr hs))
  rw [highest] at le
  rw [highest'] at ge
  have quiet : u.quiet = v.quiet := by
    rw [Bool.eq_iff_iff, hu.quiet_iff, hv.quiet_iff]
    exact forall_congr' fun w => by rw [perm.mem_iff]
  rw [Priority.value_injective (Nat.le_antisymm le ge), quiet]

theorem combined_concat (ts : List IndexTask) (t : IndexTask) :
    combined (ts ++ [t]) = some (((combined ts).map (·.merge t)).getD t) := by
  cases ts with
  | nil => rfl
  | cons s ts => simp [combined]

theorem combines_of_combined {ts : List IndexTask} {u : IndexTask} (h : combined ts = some u) :
    u.Combines ts := by
  induction ts using List.reverseRecOn generalizing u with
  | nil => cases h
  | append_singleton ts t ih =>
      rw [combined_concat, Option.some.injEq] at h
      cases earlier : combined ts with
      | none =>
          have nil : ts = [] := by
            cases ts with
            | nil => rfl
            | cons s ts => cases earlier
          rw [earlier] at h
          rw [nil, ← h]
          exact combines_singleton t
      | some s =>
          rw [earlier] at h
          rw [← h]
          exact (ih earlier).concat t

theorem combined_isSome {ts : List IndexTask} {t : IndexTask} (h : t ∈ ts) :
    (combined ts).isSome = true := by
  cases ts with
  | nil => cases h
  | cons s ts => rfl

end IndexTask

namespace TaskBatch

open IndexTask

/-- The pushed tasks of a key. -/
def ofKey (tasks : List IndexTask) (key : String × TaskKind) : List IndexTask :=
  tasks.filter fun t => t.key = key

/-- The keys of pushed tasks, each where it is first pushed. -/
def firstKeys (tasks : List IndexTask) : List (String × TaskKind) :=
  (tasks.map key).eraseDups

theorem key_of_combined_ofKey {tasks : List IndexTask} {key : String × TaskKind} {u : IndexTask}
    (h : combined (ofKey tasks key) = some u) : u.key = key := by
  obtain ⟨t, head, target, kind, -⟩ := (combines_of_combined h).first
  have same : t.key = key := by simpa using (List.mem_filter.mp (List.mem_of_head? head)).2
  rw [← same, IndexTask.key, IndexTask.key, IndexTask.identity, IndexTask.identity, target, kind]

theorem ofKey_concat (tasks : List IndexTask) (t : IndexTask) (key : String × TaskKind) :
    ofKey (tasks ++ [t]) key = ofKey tasks key ++ if t.key = key then [t] else [] := by
  by_cases h : t.key = key <;> simp [ofKey, List.filter_append, h]

theorem mem_firstKeys {tasks : List IndexTask} {key : String × TaskKind} :
    key ∈ firstKeys tasks ↔ ∃ t ∈ tasks, t.key = key := by
  rw [firstKeys, List.mem_eraseDups, List.mem_map]

theorem eraseDups_concat {α : Type} [BEq α] [LawfulBEq α] (as : List α) (a : α) :
    (as ++ [a]).eraseDups = as.eraseDups ++ if a ∈ as then [] else [a] := by
  rw [List.eraseDups_append, List.removeAll, List.filter_cons, List.filter_nil]
  congr 1
  by_cases h : a ∈ as
  · rw [if_pos h, List.elem_eq_true_of_mem h]
    rfl
  · rw [if_neg h, if_pos (by simpa using h)]
    rfl

theorem eraseDups_map {α β : Type} [BEq α] [LawfulBEq α] [BEq β] [LawfulBEq β] {f : α → β}
    (injective : Function.Injective f) (as : List α) :
    (as.map f).eraseDups = as.eraseDups.map f := by
  induction as using List.reverseRecOn with
  | nil => rfl
  | append_singleton as a ih =>
      rw [List.map_append, List.map_singleton, eraseDups_concat, eraseDups_concat, List.map_append,
        ih]
      have known : f a ∈ as.map f ↔ a ∈ as := List.mem_map_of_injective injective
      by_cases h : a ∈ as
      · rw [if_pos h, if_pos (known.mpr h), List.map_nil]
      · rw [if_neg h, if_neg (mt known.mp h), List.map_singleton]

theorem firstKeys_concat (tasks : List IndexTask) (t : IndexTask) :
    firstKeys (tasks ++ [t]) =
      firstKeys tasks ++ if t.key ∈ firstKeys tasks then [] else [t.key] := by
  simp only [firstKeys, List.map_append, List.map_singleton, eraseDups_concat, List.mem_eraseDups]

theorem exists_combined_ofKey {tasks : List IndexTask} {key : String × TaskKind}
    (h : key ∈ firstKeys tasks) : ∃ u, combined (ofKey tasks key) = some u ∧ u.key = key := by
  obtain ⟨t, ht, same⟩ := mem_firstKeys.mp h
  have pushed : t ∈ ofKey tasks key := List.mem_filter.mpr ⟨ht, decide_eq_true same⟩
  obtain ⟨u, hu⟩ := Option.isSome_iff_exists.mp (combined_isSome pushed)
  exact ⟨u, hu, key_of_combined_ofKey hu⟩

/-- The combined tasks of all keys. -/
def combinedTasks (tasks : List IndexTask) : List IndexTask :=
  (firstKeys tasks).filterMap fun key => combined (ofKey tasks key)

theorem keys_combinedTasks (tasks : List IndexTask) :
    (combinedTasks tasks).map key = firstKeys tasks := by
  have each : ∀ k ∈ firstKeys tasks, (combined (ofKey tasks k)).map key = some k := by
    intro k hk
    obtain ⟨u, hu, same⟩ := exists_combined_ofKey hk
    rw [hu, Option.map_some, same]
  rw [combinedTasks, List.map_filterMap, List.filterMap_congr each, List.filterMap_some]

/-- A further task of a known key changes only the task of that key. -/
theorem combinedTasks_concat_of_mem {tasks : List IndexTask} {t : IndexTask}
    (h : t.key ∈ firstKeys tasks) :
    combinedTasks (tasks ++ [t]) =
      (combinedTasks tasks).map fun u => if u.key = t.key then u.merge t else u := by
  rw [combinedTasks, firstKeys_concat, if_pos h, List.append_nil, combinedTasks,
    List.map_filterMap]
  apply List.filterMap_congr
  intro k hk
  obtain ⟨u, hu, same⟩ := exists_combined_ofKey hk
  by_cases here : t.key = k
  · rw [ofKey_concat, if_pos here, combined_concat, hu, Option.map_some, Option.map_some,
      if_pos (same.trans here.symm), Option.getD_some]
  · rw [ofKey_concat, if_neg here, List.append_nil, hu, Option.map_some,
      if_neg fun eq => here (eq.symm.trans same)]

/-- A task of a new key is added as it is. -/
theorem combinedTasks_concat_of_not_mem {tasks : List IndexTask} {t : IndexTask}
    (h : t.key ∉ firstKeys tasks) :
    combinedTasks (tasks ++ [t]) = combinedTasks tasks ++ [t] := by
  have none : ofKey tasks t.key = [] :=
    List.filter_eq_nil_iff.mpr fun s hs same =>
      h (mem_firstKeys.mpr ⟨s, hs, of_decide_eq_true same⟩)
  have others : ∀ k ∈ firstKeys tasks,
      combined (ofKey (tasks ++ [t]) k) = combined (ofKey tasks k) := by
    intro k hk
    have other : t.key ≠ k := fun same => h (by rwa [same])
    rw [ofKey_concat, if_neg other, List.append_nil]
  rw [combinedTasks, firstKeys_concat, if_neg h, List.filterMap_append,
    List.filterMap_congr others, ← combinedTasks, List.filterMap_cons, ofKey_concat, none,
    if_pos rfl]
  rfl

/-- What a batch holds after some pushes. -/
theorem tasks_pushAll (tasks : List IndexTask) :
    (({} : TaskBatch).pushAll tasks).tasks = combinedTasks tasks := by
  induction tasks using List.reverseRecOn with
  | nil => rfl
  | append_singleton tasks t ih =>
      have known : (({} : TaskBatch).pushAll tasks).hasKey t.key = true ↔
          t.key ∈ firstKeys tasks := by
        rw [hasKey, ih, ← keys_combinedTasks, List.any_eq_true, List.mem_map]
        simp only [beq_iff_eq]
      have last : ({} : TaskBatch).pushAll (tasks ++ [t]) =
          (({} : TaskBatch).pushAll tasks).push t := by
        rw [pushAll, List.foldl_append]
        rfl
      rw [last]
      by_cases h : t.key ∈ firstKeys tasks
      · rw [push, if_pos (known.mpr h), combinedTasks_concat_of_mem h, ih]
      · rw [push_of_not_hasKey (Bool.eq_false_iff.mpr fun has => h (known.mp has)),
          combinedTasks_concat_of_not_mem h, ih]

/-- Keys stand in the order of their first pushes, so no key stands twice. -/
theorem pairwise_firstKeys (tasks : List IndexTask) :
    (firstKeys tasks).Pairwise fun k l =>
      (tasks.map key).idxOf k < (tasks.map key).idxOf l := by
  induction tasks using List.reverseRecOn with
  | nil => exact List.Pairwise.nil
  | append_singleton tasks t ih =>
      have before : ∀ k ∈ firstKeys tasks,
          ((tasks ++ [t]).map key).idxOf k = (tasks.map key).idxOf k := by
        intro k hk
        rw [List.map_append, List.idxOf_append_of_mem (List.mem_eraseDups.mp hk)]
      have old : (firstKeys tasks).Pairwise fun k l =>
          ((tasks ++ [t]).map key).idxOf k < ((tasks ++ [t]).map key).idxOf l :=
        ih.imp_of_mem fun hk hl lt => by rwa [before _ hk, before _ hl]
      rw [firstKeys_concat]
      by_cases h : t.key ∈ firstKeys tasks
      · rwa [if_pos h, List.append_nil]
      · rw [if_neg h, List.pairwise_append]
        refine ⟨old, List.pairwise_singleton _ _, ?_⟩
        intro k hk l hl
        have new : t.key ∉ tasks.map key := fun mem => h (List.mem_eraseDups.mpr mem)
        rw [List.mem_singleton.mp hl, before k hk, List.map_append,
          List.idxOf_append_of_notMem new]
        exact Nat.lt_of_lt_of_le (List.idxOf_lt_length_of_mem (List.mem_eraseDups.mp hk))
          (Nat.le_add_right _ _)

theorem nodup_firstKeys (tasks : List IndexTask) : (firstKeys tasks).Nodup :=
  (pairwise_firstKeys tasks).imp fun lt eq => by
    rw [eq] at lt
    exact Nat.lt_irrefl _ lt

theorem combines_of_mem {tasks : List IndexTask} {u : IndexTask} (h : u ∈ combinedTasks tasks) :
    u.Combines (ofKey tasks u.key) := by
  obtain ⟨k, -, hu⟩ := List.mem_filterMap.mp h
  rw [key_of_combined_ofKey hu]
  exact combines_of_combined hu

theorem exists_mem_combinedTasks {tasks : List IndexTask} {t : IndexTask} (h : t ∈ tasks) :
    ∃ u ∈ combinedTasks tasks, u.key = t.key := by
  have known : t.key ∈ (combinedTasks tasks).map key := by
    rw [keys_combinedTasks]
    exact mem_firstKeys.mpr ⟨t, h, rfl⟩
  exact List.mem_map.mp known

/-- There is one task for each key. -/
theorem eq_of_key_eq {tasks : List IndexTask} {u v : IndexTask} (hu : u ∈ combinedTasks tasks)
    (hv : v ∈ combinedTasks tasks) (same : u.key = v.key) : u = v := by
  have nodup : ((combinedTasks tasks).map key).Nodup := by
    rw [keys_combinedTasks]
    exact nodup_firstKeys tasks
  exact List.inj_on_of_nodup_map nodup hu hv same

theorem mem_ordered_pushAll {tasks : List IndexTask} {u : IndexTask} :
    u ∈ (({} : TaskBatch).pushAll tasks).ordered ↔ u ∈ combinedTasks tasks := by
  rw [(ordered_perm _).mem_iff, tasks_pushAll]

/-- Which of two tasks may be carried out first. -/
def mayPrecede (first second : IndexTask) : Bool :=
  decide (second.priority ≤ first.priority)

theorem mayPrecede_iff {t u : IndexTask} :
    mayPrecede t u = true ↔ u.priority.value ≤ t.priority.value := by
  rw [mayPrecede, decide_eq_true_eq, Priority.le_iff]

theorem mayPrecede_trans (t u v : IndexTask) (htu : mayPrecede t u = true)
    (huv : mayPrecede u v = true) : mayPrecede t v = true :=
  mayPrecede_iff.mpr (Nat.le_trans (mayPrecede_iff.mp huv) (mayPrecede_iff.mp htu))

theorem mayPrecede_total (t u : IndexTask) : (mayPrecede t u || mayPrecede u t) = true := by
  rw [Bool.or_eq_true, mayPrecede_iff, mayPrecede_iff]
  exact Nat.le_total _ _

theorem pairwise_mayPrecede (b : TaskBatch) :
    b.ordered.Pairwise fun t u => mayPrecede t u = true :=
  List.pairwise_mergeSort mayPrecede_trans mayPrecede_total b.tasks

/-- Sorting keeps the order among tasks of one priority. -/
theorem filter_ordered (b : TaskBatch) (p : Priority) :
    b.ordered.filter (·.priority = p) = b.tasks.filter (·.priority = p) := by
  have tied : (b.tasks.filter (·.priority = p)).Pairwise fun t u => mayPrecede t u = true := by
    refine List.pairwise_of_forall_mem_list fun t ht u hu => mayPrecede_iff.mpr ?_
    have ht := of_decide_eq_true (List.mem_filter.mp ht).2
    have hu := of_decide_eq_true (List.mem_filter.mp hu).2
    exact Nat.le_of_eq (congrArg Priority.value (hu.trans ht.symm))
  have kept : (b.tasks.filter (·.priority = p)).Sublist b.ordered :=
    List.sublist_mergeSort mayPrecede_trans mayPrecede_total tied List.filter_sublist
  have within := kept.filter (·.priority = p)
  rw [List.filter_filter] at within
  simp only [Bool.and_self] at within
  exact (within.eq_of_length ((ordered_perm b).filter _).length_eq.symm).symm

/-- Tasks are carried out by descending priority, those of one priority as they stand in
the batch. -/
theorem pairwise_ordered {R : IndexTask → IndexTask → Prop} {b : TaskBatch}
    (h : b.tasks.Pairwise R) :
    b.ordered.Pairwise fun t u =>
      u.priority.value < t.priority.value ∨ t.priority = u.priority ∧ R t u := by
  rw [List.pairwise_iff_forall_sublist]
  intro t u pair
  have le := mayPrecede_iff.mp (List.pairwise_iff_forall_sublist.mp (pairwise_mayPrecede b) pair)
  by_cases same : t.priority = u.priority
  · -- Both tasks stand in the batch in this order, since sorting keeps it.
    have both : [t, u].filter (·.priority = u.priority) = [t, u] := by simp [same]
    have tied := pair.filter (·.priority = u.priority)
    rw [filter_ordered, both] at tied
    exact .inr ⟨same, List.pairwise_iff_forall_sublist.mp h (tied.trans List.filter_sublist)⟩
  · have ne : t.priority.value ≠ u.priority.value := fun eq => same (Priority.value_injective eq)
    exact .inl (by omega)

/-- If no key stands twice, a key finds the one task that has it. -/
theorem get?_eq_some_iff {b : TaskBatch} (h : (b.tasks.map key).Nodup) {identity : String}
    {kind : TaskKind} {u : IndexTask} :
    b.get? identity kind = some u ↔ u ∈ b.tasks ∧ u.key = (identity, kind) := by
  constructor
  · intro found
    exact ⟨List.mem_of_find?_eq_some found, by simpa using List.find?_some found⟩
  · rintro ⟨mem, own⟩
    have found : (b.tasks.find? fun t => t.key == (identity, kind)).isSome = true :=
      List.find?_isSome.mpr ⟨u, mem, beq_iff_eq.mpr own⟩
    obtain ⟨v, hv⟩ := Option.isSome_iff_exists.mp found
    have same : v.key = u.key := by
      rw [own]
      simpa using List.find?_some hv
    rw [get?, hv, List.inj_on_of_nodup_map h (List.mem_of_find?_eq_some hv) mem same]

/-- What a batch has to hold once some tasks were pushed to it. -/
structure Collects (b : TaskBatch) (pushed : List IndexTask) : Prop where
  /-- There are as many tasks as different keys were pushed. -/
  size : b.size = (pushed.map key).toFinset.card
  /-- A key finds nothing if it was never pushed. -/
  get?_eq_none_iff : ∀ identity kind,
    b.get? identity kind = none ↔ ∀ t ∈ pushed, t.key ≠ (identity, kind)
  /-- A key finds the task of that key which is carried out. -/
  get?_eq_some_iff : ∀ identity kind u,
    b.get? identity kind = some u ↔ u ∈ b.ordered ∧ u.key = (identity, kind)
  /-- Each task stands for all that were pushed with its key. -/
  combines : ∀ u ∈ b.ordered, u.Combines (ofKey pushed u.key)
  /-- No two tasks that are carried out have the same key. -/
  nodup : (b.ordered.map key).Nodup
  /-- The more urgent come first, and among equals the one whose key was pushed first. -/
  ordered : b.ordered.Pairwise fun t u => u.priority.value < t.priority.value ∨
    t.priority = u.priority ∧ (pushed.map key).idxOf t.key < (pushed.map key).idxOf u.key

theorem collects_pushAll (pushed : List IndexTask) :
    (({} : TaskBatch).pushAll pushed).Collects pushed := by
  have keys : (({} : TaskBatch).pushAll pushed).tasks.map key = firstKeys pushed := by
    rw [tasks_pushAll, keys_combinedTasks]
  have nodup : ((({} : TaskBatch).pushAll pushed).tasks.map key).Nodup := by
    rw [keys]
    exact nodup_firstKeys pushed
  constructor
  case size =>
    have same : (pushed.map key).toFinset = (firstKeys pushed).toFinset := by
      ext k
      rw [List.mem_toFinset, List.mem_toFinset, firstKeys, List.mem_eraseDups]
    rw [same, List.toFinset_card_of_nodup (nodup_firstKeys pushed), ← keys, List.length_map,
      TaskBatch.size]
  case get?_eq_none_iff =>
    intro identity kind
    rw [get?, tasks_pushAll, List.find?_eq_none]
    simp only [beq_iff_eq]
    constructor
    · intro none t ht same
      obtain ⟨u, hu, hk⟩ := exists_mem_combinedTasks ht
      exact none u hu (hk.trans same)
    · intro none u hu same
      have pushed : u.key ∈ firstKeys pushed := by
        rw [← keys_combinedTasks]
        exact List.mem_map_of_mem hu
      obtain ⟨t, ht, hk⟩ := mem_firstKeys.mp pushed
      exact none t ht (hk.trans same)
  case get?_eq_some_iff =>
    intro identity kind u
    rw [TaskBatch.get?_eq_some_iff nodup, (ordered_perm _).mem_iff]
  case combines => exact fun u hu => combines_of_mem (mem_ordered_pushAll.mp hu)
  case nodup => exact ((ordered_perm _).map key).nodup_iff.mpr nodup
  case ordered =>
    have pairwise := pairwise_firstKeys pushed
    rw [← keys, List.pairwise_map] at pairwise
    exact pairwise_ordered pairwise

/-- Pushing the same tasks in another order gives each key the same priority and quiet. -/
theorem Collects.get?_eq_of_perm {b c : TaskBatch} {pushed others : List IndexTask}
    (hb : b.Collects pushed) (hc : c.Collects others) (perm : others.Perm pushed)
    (identity : String) (kind : TaskKind) :
    (c.get? identity kind).map (fun t => (t.priority, t.quiet)) =
      (b.get? identity kind).map fun t => (t.priority, t.quiet) := by
  have none_iff : c.get? identity kind = none ↔ b.get? identity kind = none := by
    rw [hb.get?_eq_none_iff, hc.get?_eq_none_iff]
    exact forall_congr' fun t => by rw [perm.mem_iff]
  cases hu : c.get? identity kind with
  | none => rw [none_iff.mp hu]
  | some u =>
    cases hv : b.get? identity kind with
    | none =>
      rw [none_iff.mpr hv] at hu
      cases hu
    | some v =>
      obtain ⟨hu, keyOfU⟩ := (hc.get?_eq_some_iff _ _ _).mp hu
      obtain ⟨hv, keyOfV⟩ := (hb.get?_eq_some_iff _ _ _).mp hv
      have combinesU := hc.combines u hu
      have combinesV := hb.combines v hv
      rw [keyOfU] at combinesU
      rw [keyOfV] at combinesV
      have sameTasks : (ofKey others (identity, kind)).Perm (ofKey pushed (identity, kind)) :=
        perm.filter _
      rw [Option.map_some, Option.map_some, combinesU.eq_of_perm combinesV sameTasks]

end TaskBatch

end SearchIndex
