import SearchIndex.Proofs.Clause.Exact
import SearchIndex.Proofs.Restriction.Group
import SearchIndex.ScopedQuery

/-!
# Queries keep their scope

Whatever is done to a query and to copies of it, its partition and its scope stay
the same, and its text asks for the scope: it is the text of the scope alone, or a
conjunction that begins with it. The scope is no negation, so the conjunction is
never turned round, and the only restrictions that it leaves out are those that
are the same as one before them. A query whose partition is no scope has the empty
text for good.
-/

namespace SearchIndex

namespace ScopedQuery

/-- A change to a query. -/
inductive Change where
  | withTypes (docTypes : List String)
  | add (r : Restriction)
  | addAll (rs : List Restriction)
  | remove (r : Restriction)

/-- The query after a change. -/
def change (q : ScopedQuery) : Change → ScopedQuery
  | .withTypes docTypes => q.withTypes docTypes
  | .add r => q.add r
  | .addAll rs => (q.addAll rs).1
  | .remove r => q.remove r

/-- A step with several queries at hand: one of them is changed or copied. -/
inductive Step where
  | change (index : Nat) (change : Change)
  | copy (index : Nat)

/-- The queries at hand after a step. -/
def step (qs : List ScopedQuery) : Step → List ScopedQuery
  | .change index c => qs.modify index (·.change c)
  | .copy index => qs ++ qs[index]?.toList

/-- The queries at hand after some steps that start with a fresh query. -/
def run (partition : String) (names : FieldNames) (steps : List Step) : List ScopedQuery :=
  steps.foldl step [ofPartition partition names]

/-- What a query asks for besides its scope: any of its types, if it has some, and
its restrictions, without those that are the same as one before them. -/
def conjuncts (q : ScopedQuery) : List Restriction :=
  Restriction.distinct [.clause q.scope]
    ((if q.types.isEmpty then [] else [q.types.toRestriction]) ++ q.restrictions.members)

/-- What every step keeps. -/
structure Keeps (partition : String) (names : FieldNames) (q : ScopedQuery) : Prop where
  partition_eq : q.partition = partition
  names_eq : q.names = names
  scope_eq : q.scope = names.inPartition partition
  nonempty : ∀ r ∈ q.restrictions.members, r.isEmpty = false

theorem keeps_ofPartition (partition : String) (names : FieldNames) :
    Keeps partition names (ofPartition partition names) :=
  ⟨rfl, rfl, rfl, List.forall_mem_nil _⟩

variable {partition : String} {names : FieldNames}

theorem Keeps.change {q : ScopedQuery} (h : Keeps partition names q) (c : Change) :
    Keeps partition names (q.change c) := by
  cases c with
  | withTypes docTypes => exact ⟨h.partition_eq, h.names_eq, h.scope_eq, h.nonempty⟩
  | add r =>
      exact ⟨h.partition_eq, h.names_eq, h.scope_eq, Group.nonempty_members_addAll h.nonempty [r]⟩
  | addAll rs =>
      exact ⟨h.partition_eq, h.names_eq, h.scope_eq, Group.nonempty_members_addAll h.nonempty rs⟩
  | remove r =>
      exact ⟨h.partition_eq, h.names_eq, h.scope_eq, Group.nonempty_members_remove h.nonempty r⟩

/-- The changes that a step makes. -/
def Step.changes : Step → List Change
  | .change _ c => [c]
  | .copy _ => []

theorem forall_mem_step {P : ScopedQuery → Prop} {qs : List ScopedQuery} (h : ∀ q ∈ qs, P q)
    {s : Step} (kept : ∀ c ∈ s.changes, ∀ q, P q → P (q.change c)) : ∀ q ∈ step qs s, P q := by
  cases s with
  | change index c => exact forall_mem_modify h (kept c (List.mem_singleton.mpr rfl)) index
  | copy index => exact forall_mem_copy h index

/-- What a fresh query has and the changes of all steps keep, every query at hand has. -/
theorem forall_mem_run {P : ScopedQuery → Prop} {steps : List Step}
    (fresh : P (ofPartition partition names))
    (kept : ∀ s ∈ steps, ∀ c ∈ s.changes, ∀ q, P q → P (q.change c)) :
    ∀ q ∈ run partition names steps, P q := by
  have all : ∀ qs : List ScopedQuery, (∀ q ∈ qs, P q) → ∀ q ∈ steps.foldl step qs, P q := by
    induction steps with
    | nil => exact fun _ h => h
    | cons s steps ih =>
        obtain ⟨here, there⟩ := List.forall_mem_cons.mp kept
        exact fun qs h => ih there (step qs s) (forall_mem_step h here)
  exact all _ (List.forall_mem_singleton.mpr fresh)

/-- Every query at hand after any steps keeps what the first one had. -/
theorem keeps_run {steps : List Step} {q : ScopedQuery} (hq : q ∈ run partition names steps) :
    Keeps partition names q :=
  forall_mem_run (keeps_ofPartition partition names) (fun _ _ c _ _ h => h.change c) q hq

theorem isScoped_eq {q : ScopedQuery} (h : Keeps partition names q) :
    q.isScoped = !(Text.isBlankText names.partition || Text.isBlankText partition) := by
  rw [isScoped, h.scope_eq, FieldNames.inPartition, Clause.isEmpty_exactly]

/-- The members of the root are the scope and the conjuncts. -/
theorem members_root {q : ScopedQuery} (h : Keeps partition names q) (hs : q.isScoped = true) :
    q.root.members = .clause q.scope :: q.conjuncts := by
  have scope_nonempty : (Restriction.clause q.scope).isEmpty = false := by
    simpa [isScoped] using hs
  have restrictions : q.restrictions.members.filter (!·.isEmpty) = q.restrictions.members :=
    List.filter_eq_self.mpr fun r hr => by simp [h.nonempty r hr]
  rw [root, Group.ofMembers, Group.members_addAll, List.filter_cons_of_pos (by simp [scope_nonempty]),
    List.nil_append, Restriction.distinct, List.any_nil, if_neg Bool.false_ne_true,
    List.nil_append, conjuncts]
  congr 2
  cases empty : q.types.isEmpty with
  | true =>
      rw [List.filter_cons_of_neg (by simpa [Group.isEmpty] using empty), restrictions]
      rfl
  | false =>
      rw [List.filter_cons_of_pos (by simpa [Group.isEmpty] using empty), restrictions]
      rfl

/-- The text of a scoped query. -/
theorem compile_eq {q : ScopedQuery} (h : Keeps partition names q) (hs : q.isScoped = true) :
    q.compile =
      match q.conjuncts.map Restriction.compile with
      | [] => (Restriction.clause q.scope).compile
      | texts => "(" ++ " AND ".intercalate ((Restriction.clause q.scope).compile :: texts) ++ ")" := by
  have members := members_root h hs
  have nonempty : ∀ m ∈ q.root.members, m.isEmpty = false :=
    Group.nonempty_members_addAll (List.forall_mem_nil _) _
  have positive : ∃ m ∈ q.root.members, m.compilesNegated = false := by
    refine ⟨.clause q.scope, by rw [members]; exact List.mem_cons_self, ?_⟩
    rw [h.scope_eq]
    rfl
  have connective : q.root.connective = .and := Group.connective_addAll _ _
  have plain : q.root.negated = false := Group.negated_addAll _ _
  rw [compile, if_pos hs, Group.compile_eq nonempty positive plain, members, connective,
    List.map_cons]
  cases q.conjuncts.map Restriction.compile with
  | nil => rfl
  | cons t ts => rfl

/-- No change to a query or to a copy of it touches its partition or its scope. If
the partition or the name of its field is blank, no scoped query can be made of it
and the text stays empty. Otherwise one can, and the text is that of the scope or a
conjunction that begins with it. -/
theorem scope_of_mem_run (partition : String) (names : FieldNames) (steps : List Step)
    (q : ScopedQuery) (hq : q ∈ run partition names steps) :
    q.partition = partition ∧ q.scope = names.inPartition partition ∧
    (Text.isBlankText partition = true ∨ Text.isBlankText names.partition = true →
      scoped? partition names = .error (.unscoped partition) ∧ q.compile = "") ∧
    (¬(Text.isBlankText partition = true ∨ Text.isBlankText names.partition = true) →
      scoped? partition names = .ok (ofPartition partition names) ∧
      (Restriction.clause q.scope).compile = String.ofList q.scope.body ∧ q.scope.body ≠ [] ∧
      (q.conjuncts = [] → q.compile = (Restriction.clause q.scope).compile) ∧
      (q.conjuncts ≠ [] → q.compile = "(" ++ " AND ".intercalate
        ((Restriction.clause q.scope).compile :: q.conjuncts.map Restriction.compile) ++ ")")) := by
  have keeps := keeps_run hq
  have scoped_iff := isScoped_eq keeps
  have fresh_iff := isScoped_eq (keeps_ofPartition partition names)
  refine ⟨keeps.partition_eq, keeps.scope_eq, ?_, ?_⟩
  · intro blank
    have unscoped : (!(Text.isBlankText names.partition || Text.isBlankText partition)) = false := by
      rcases blank with blank | blank <;> simp [blank]
    rw [unscoped] at scoped_iff fresh_iff
    exact ⟨by simp [scoped?, fresh_iff], by simp [compile, scoped_iff]⟩
  · intro filled
    have scope : (!(Text.isBlankText names.partition || Text.isBlankText partition)) = true := by
      simpa [not_or, and_comm] using filled
    rw [scope] at scoped_iff fresh_iff
    have text := compile_eq keeps scoped_iff
    have body : q.scope.isEmpty = false := by simpa [isScoped] using scoped_iff
    have plain : q.scope.negated = false := by
      rw [keeps.scope_eq]
      rfl
    refine ⟨by simp [scoped?, fresh_iff], ?_, ?_, ?_, ?_⟩
    · rw [Restriction.compile_clause body, plain]
      rfl
    · intro empty
      simp [Clause.isEmpty, empty] at body
    · intro none
      rw [text, none, List.map_nil]
    · intro some
      rw [text]
      cases conjuncts : q.conjuncts with
      | nil => exact absurd conjuncts some
      | cons r rs => rfl

/-- Somebody copies a query, removes the scope from the copy and adds it again. -/
def removeScope : List Step :=
  [.change 0 (.withTypes ["page"]), .copy 0,
    .change 1 (.remove (.clause (.exactly "wiki" "main"))),
    .change 1 (.addAll [.clause (.exactly "wiki" "main"), .raw "a:(1)" true])]

theorem scope_of_mem_run_removeScope :
    ∃ q ∈ run "main" {} removeScope, q.scope = FieldNames.inPartition {} "main" ∧
      q.compile = "(wiki:(main) AND type:(page) AND NOT (a:(1)))" := by
  have mem : (run "main" {} removeScope)[1] ∈ run "main" {} removeScope := List.getElem_mem _
  obtain ⟨_, scope, _, filled⟩ := scope_of_mem_run "main" {} removeScope _ mem
  obtain ⟨_, _, _, _, text⟩ := filled (by decide)
  exact ⟨_, mem, scope, (text (by decide)).trans (by decide)⟩

end ScopedQuery

end SearchIndex
