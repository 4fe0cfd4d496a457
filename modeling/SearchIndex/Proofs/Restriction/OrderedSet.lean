import SearchIndex.Proofs.Restriction.Blank
import SearchIndex.Proofs.Restriction.Equality
import SearchIndex.Proofs.Restriction.Group

/-!
# Groups are ordered sets

However a group and copies of it are changed, it has no empty member and no two members that
are the same (`IsOrderedSet`). That is why an operation on it does what one expects of an
ordered set: a restriction is added at the end unless it is empty or there already, and
removing the first member that is the same as a restriction leaves no other such member. An
operation that tells that it changed nothing has left the group as it was.

It is also why the text of a group of several members joins as many texts as there are members:
every member has a text, whether the group is turned round or not.
-/

namespace SearchIndex

namespace Group

/-- A change to a group. -/
inductive Change where
  | add (r : Restriction)
  | addAll (rs : List Restriction)
  | remove (r : Restriction)
  | clear
  | setConnective (connective : Connective)
  | setNegated (negated : Bool)

/-- The group after a change. -/
def change (g : Group) : Change → Group
  | .add r => g.add r
  | .addAll rs => (g.addAll rs).1
  | .remove r => g.remove r
  | .clear => g.clear
  | .setConnective connective => { g with connective }
  | .setNegated negated => { g with negated }

/-- A step with several groups at hand: one of them is changed or copied. -/
inductive Step where
  | change (index : Nat) (change : Change)
  | copy (index : Nat)

/-- The groups at hand after a step. -/
def step (gs : List Group) : Step → List Group
  | .change index c => gs.modify index (·.change c)
  | .copy index => gs ++ gs[index]?.toList

/-- The groups at hand after some steps that start with one group. -/
def run (first : Group) (steps : List Step) : List Group :=
  steps.foldl step [first]

/-- No member of the group is empty, and no two members are the same. -/
structure IsOrderedSet (g : Group) : Prop where
  nonempty : ∀ m ∈ g.members, m.isEmpty = false
  distinct : g.members.Pairwise fun a b => a.same b = false ∧ b.same a = false

theorem contains_iff {g : Group} {r : Restriction} :
    g.contains r = true ↔ ∃ m ∈ g.members, m.same r = true :=
  List.any_eq_true

theorem contains_eq_false_iff {g : Group} {r : Restriction} :
    g.contains r = false ↔ ∀ m ∈ g.members, m.same r = false := by
  simp only [contains, List.any_eq_false, Bool.not_eq_true]

/-- A group accepts what is not empty and not the same as a member. -/
theorem accepts_iff {g : Group} {r : Restriction} :
    g.accepts r = true ↔ r.isEmpty = false ∧ ∀ m ∈ g.members, m.same r = false := by
  rw [accepts, Bool.and_eq_true, Bool.not_eq_true', Bool.not_eq_true', contains_eq_false_iff]

/-- A group with no members is an ordered set. -/
theorem isOrderedSet_of_nil {g : Group} (h : g.members = []) : g.IsOrderedSet where
  nonempty m hm := absurd (h ▸ hm) List.not_mem_nil
  distinct := by
    rw [h]
    exact .nil

theorem changed_add_iff {g : Group} {r : Restriction} :
    (g.add r).changed = true ↔ r.isEmpty = false ∧ ∀ m ∈ g.members, m.same r = false := by
  rw [changed_add, accepts_iff]

theorem changed_remove_iff {g : Group} {r : Restriction} :
    (g.remove r).changed = true ↔ ∃ m ∈ g.members, m.same r = true := by
  rw [changed_remove, contains_iff]

/-- What changes the group by being added is its last member afterwards. -/
theorem add_of_changed {g : Group} {r : Restriction} (h : (g.add r).changed = true) :
    (g.add r).toGroup = { g with members := g.members ++ [r] } := by
  rw [add_of_accepts (by rwa [changed_add] at h)]

theorem add_of_unchanged {g : Group} {r : Restriction} (h : (g.add r).changed = false) :
    (g.add r).toGroup = g := by
  rw [add_of_not_accepts (by rwa [changed_add] at h)]

/-- Adding several restrictions is adding one after the other. -/
theorem addAll_eq_foldl (g : Group) (rs : List Restriction) :
    (g.addAll rs).1 = rs.foldl (fun h r => (h.add r).toGroup) g := by
  induction rs generalizing g with
  | nil => rfl
  | cons r rs ih => exact ih (g.add r).toGroup

/-- A group grows by as many members as it accepts. -/
theorem length_members_addAll (g : Group) (rs : List Restriction) :
    (g.addAll rs).1.members.length = g.members.length + (g.addAll rs).2 := by
  induction rs generalizing g with
  | nil => rfl
  | cons r rs ih =>
      have group : (g.addAll (r :: rs)).1 = ((g.add r).addAll rs).1 := rfl
      have count : (g.addAll (r :: rs)).2 =
          ((g.add r).addAll rs).2 + if (g.add r).changed then 1 else 0 := rfl
      rw [group, count, ih]
      cases changed : (g.add r).changed with
      | true =>
          rw [add_of_changed changed, List.length_append, List.length_singleton, if_pos rfl]
          omega
      | false =>
          rw [add_of_unchanged changed, if_neg Bool.false_ne_true, Nat.add_zero]

namespace IsOrderedSet

variable {g : Group}

theorem add (h : g.IsOrderedSet) (r : Restriction) : (g.add r).IsOrderedSet := by
  cases accepted : g.accepts r with
  | false =>
      rw [add_of_not_accepts accepted]
      exact h
  | true =>
      obtain ⟨said, new⟩ := accepts_iff.mp accepted
      have members : (g.add r).members = g.members ++ [r] := by rw [add_of_accepts accepted]
      refine ⟨?_, ?_⟩
      · intro m hm
        rw [members] at hm
        rcases List.mem_append.mp hm with hm | hm
        · exact h.nonempty m hm
        · rw [List.mem_singleton.mp hm]
          exact said
      · rw [members, List.pairwise_append]
        refine ⟨h.distinct, List.pairwise_singleton _ _, ?_⟩
        intro m hm other ho
        rw [List.mem_singleton.mp ho, Restriction.same_comm r m]
        exact ⟨new m hm, new m hm⟩

theorem addAll (h : g.IsOrderedSet) (rs : List Restriction) : (g.addAll rs).1.IsOrderedSet := by
  induction rs generalizing g with
  | nil => exact h
  | cons r rs ih => exact ih (h.add r)

theorem remove (h : g.IsOrderedSet) (r : Restriction) : (g.remove r).IsOrderedSet where
  nonempty := nonempty_members_remove h.nonempty r
  distinct := by
    rw [members_remove_eq_eraseP]
    exact h.distinct.sublist List.eraseP_sublist

/-- Every change to an ordered set leaves one. -/
theorem change (h : g.IsOrderedSet) (c : Change) : (g.change c).IsOrderedSet := by
  cases c with
  | add r => exact h.add r
  | addAll rs => exact h.addAll rs
  | remove r => exact h.remove r
  | clear => exact isOrderedSet_of_nil rfl
  | setConnective connective => exact ⟨h.nonempty, h.distinct⟩
  | setNegated negated => exact ⟨h.nonempty, h.distinct⟩

/-- The members that are left are those that are not the same as what was removed: there was
one other member at most. -/
theorem members_remove (h : g.IsOrderedSet) (r : Restriction) :
    (g.remove r).members = g.members.filter (!·.same r) := by
  have distinct := h.distinct
  rw [members_remove_eq_eraseP]
  generalize g.members = members at distinct
  induction distinct with
  | nil => rfl
  | @cons first rest others _ ih =>
      cases found : first.same r with
      | true =>
          have kept : ∀ m ∈ rest, (!m.same r) = true := by
            intro m hm
            rw [Bool.not_eq_true', Bool.eq_false_iff]
            intro same
            have twice : first.same m = true :=
              Restriction.same_trans found (by rwa [Restriction.same_comm])
            exact Bool.false_ne_true ((others m hm).1.symm.trans twice)
          have erased : (first :: rest).eraseP (·.same r) = rest := List.eraseP_cons_of_pos found
          rw [erased, List.filter_cons_of_neg (by simp [found]), List.filter_eq_self.mpr kept]
      | false =>
          have erased : (first :: rest).eraseP (·.same r) = first :: rest.eraseP (·.same r) :=
            List.eraseP_cons_of_neg (by simp [found])
          rw [erased, ih, List.filter_cons_of_pos (by simp [found])]

theorem toGroup_remove (h : g.IsOrderedSet) (r : Restriction) :
    (g.remove r).toGroup = { g with members := g.members.filter (!·.same r) } := by
  rw [← h.members_remove, Group.remove]
  cases g.members.findIdx? (·.same r) <;> rfl

theorem contains_remove (h : g.IsOrderedSet) (r : Restriction) :
    (g.remove r).contains r = false := by
  rw [contains_eq_false_iff, h.members_remove]
  intro m hm
  simpa using (List.mem_filter.mp hm).2

end IsOrderedSet

theorem remove_of_unchanged {g : Group} {r : Restriction} (h : (g.remove r).changed = false) :
    (g.remove r).toGroup = g := by
  rw [remove] at h ⊢
  cases found : g.members.findIdx? (·.same r) with
  | none => rfl
  | some i =>
      rw [found] at h
      cases h

/-- A group loses one member by a removal that changes it, and none by one that does not. -/
theorem length_members_remove (g : Group) (r : Restriction) :
    (g.remove r).members.length + (if (g.remove r).changed then 1 else 0) = g.members.length := by
  cases changed : (g.remove r).changed with
  | true =>
      obtain ⟨m, hm, same⟩ := changed_remove_iff.mp changed
      have removed : (g.remove r).members.length = g.members.length - 1 := by
        rw [members_remove_eq_eraseP, List.length_eraseP_of_mem hm same]
      have positive : 0 < g.members.length := List.length_pos_of_mem hm
      rw [removed, if_pos rfl]
      omega
  | false =>
      rw [remove_of_unchanged changed, if_neg Bool.false_ne_true, Nat.add_zero]

/-- Every group at hand is an ordered set if the first one is. -/
theorem isOrderedSet_run {first : Group} (h : first.IsOrderedSet) (steps : List Step) :
    ∀ g ∈ run first steps, g.IsOrderedSet := by
  have all : ∀ gs : List Group, (∀ g ∈ gs, g.IsOrderedSet) →
      ∀ g ∈ steps.foldl step gs, g.IsOrderedSet := by
    induction steps with
    | nil => exact fun _ h => h
    | cons s steps ih =>
        intro gs h
        apply ih
        cases s with
        | change index c => exact forall_mem_modify h (fun _ hg => hg.change c) index
        | copy index => exact forall_mem_copy h index
  exact all _ (List.forall_mem_singleton.mpr h)

/-! ### The text of several members -/

/-- Whether the texts of all members are negations. -/
def allNegated (g : Group) : Bool :=
  g.members.all (·.compilesNegated)

/-- The connective between the members of the group as they are written. -/
def writtenConnective (g : Group) : Connective :=
  if g.allNegated then g.connective.flip else g.connective

/-- The texts of the members as they are written in the group. -/
def writtenMembers (g : Group) : List String :=
  g.members.map fun m => if g.allNegated then m.compileBare else m.compile

theorem length_writtenMembers (g : Group) : g.writtenMembers.length = g.members.length :=
  List.length_map _

theorem writtenMembers_ne_empty {g : Group} (nonempty : ∀ m ∈ g.members, m.isEmpty = false) :
    ∀ text ∈ g.writtenMembers, text ≠ "" := by
  intro text mem
  obtain ⟨m, hm, rfl⟩ := List.mem_map.mp mem
  have said : ¬m.isEmpty = true := Bool.eq_false_iff.mp (nonempty m hm)
  split
  · exact mt m.compileBare_eq_empty_iff.mp said
  · exact mt m.compile_eq_empty_iff.mp said

/-- A group of several members is turned round if the texts of all of them are negations. -/
theorem turnsRound_members {g : Group} (several : 2 ≤ g.members.length) :
    Compiled.turnsRound (g.members.map Restriction.compiled) = g.allNegated := by
  have more : decide (1 < g.members.length) = true := decide_eq_true several
  rw [Compiled.turnsRound, List.length_map, more, Bool.true_and, List.all_map]
  rfl

/-- The text of a group without the negation in front of it is the one with no negation there. -/
theorem compileBare_of_several {g : Group} (several : 2 ≤ g.members.length) :
    g.toRestriction.compileBare = g.toRestriction.compileWith g.allNegated := by
  have bare := Compiled.groupBare_of_several
    (by rwa [List.length_map] : 2 ≤ (g.members.map Restriction.compiled).length)
    g.connective g.negated
  rw [turnsRound_members several] at bare
  rw [Restriction.compileBare, toRestriction, Restriction.compiled_group, Compiled.ofGroup, bare,
    Restriction.compileWith, Restriction.form_group]

/-- The text of a group of several members joins the texts of all of them in parentheses. -/
theorem compileWith_of_several {g : Group} (nonempty : ∀ m ∈ g.members, m.isEmpty = false)
    (several : 2 ≤ g.members.length) (negated : Bool) :
    g.toRestriction.compileWith negated =
      (if negated != g.allNegated then "NOT (" else "(") ++
        (String.ofList g.writtenConnective.separator).intercalate g.writtenMembers ++ ")" := by
  have turns := turnsRound_members several
  have texts : (Compiled.operands (g.members.map Restriction.compiled)).map
      (fun e => String.ofList e.render) = g.writtenMembers := by
    have present : ∀ m ∈ g.members,
        (if g.allNegated then m.compiled.bare else m.compiled.own).isSome = true := by
      intro m hm
      have there := Restriction.present_compiled m
      rw [nonempty m hm] at there
      split
      · exact there.bare
      · exact there.own
    rw [Compiled.operands, turns, Restriction.render_forms present, writtenMembers]
    apply List.map_congr_left
    intro m _
    split <;> rfl
  have operands : 2 ≤ (Compiled.operands (g.members.map Restriction.compiled)).length := by
    rw [← List.length_map (fun e => String.ofList e.render), texts, length_writtenMembers]
    exact several
  rw [Restriction.compileWith, toRestriction, Restriction.form_group, Compiled.groupForm, turns,
    Compiled.text_close_of_several operands, texts, writtenConnective]

/-- A group that starts out with some members, like any copy of it, stays an ordered set
whatever is done. Adding a restriction tells that it changed the group if and only if the
restriction is not empty and not the same as a member, and puts it at the end then; the number
that is told for several ones is that by which the group grows. Removing one tells that it changed
the group if and only if a member is the same; what is removed is contained no longer, nothing else
is lost, and one member is lost if the group changed. Setting the connective or the negation leaves
the members as they are. Each text of several members joins as many texts in parentheses, none of
them empty. -/
theorem isOrderedSet_of_mem_run (connective : Connective) (first : List Restriction) (negated : Bool)
    (steps : List Step) (g : Group) (hg : g ∈ run (ofMembers connective first negated) steps) :
    g.IsOrderedSet ∧
    (∀ r, (g.add r).changed = g.accepts r ∧
      ((g.add r).changed = true ↔ r.isEmpty = false ∧ ∀ m ∈ g.members, m.same r = false) ∧
      ((g.add r).changed = true → (g.add r).toGroup = { g with members := g.members ++ [r] }) ∧
      ((g.add r).changed = false → (g.add r).toGroup = g)) ∧
    (∀ rs, (g.addAll rs).1 = rs.foldl (fun h r => (h.add r).toGroup) g ∧
      (g.addAll rs).1.members.length = g.members.length + (g.addAll rs).2) ∧
    (∀ r, (g.remove r).changed = g.contains r ∧
      ((g.remove r).changed = true ↔ ∃ m ∈ g.members, m.same r = true) ∧
      ((g.remove r).changed = false → (g.remove r).toGroup = g) ∧
      (g.remove r).contains r = false ∧
      (g.remove r).toGroup = { g with members := g.members.filter (!·.same r) } ∧
      (g.remove r).members.length + (if (g.remove r).changed then 1 else 0) = g.members.length) ∧
    (g.change .clear).members = [] ∧
    (∀ c, (g.change (.setConnective c)).members = g.members) ∧
    (∀ n, (g.change (.setNegated n)).members = g.members) ∧
    (2 ≤ g.members.length → g.writtenMembers.length = g.members.length ∧
      (∀ text ∈ g.writtenMembers, text ≠ "") ∧
      (∀ n, g.toRestriction.compileWith n = (if n != g.allNegated then "NOT (" else "(") ++
        (String.ofList g.writtenConnective.separator).intercalate g.writtenMembers ++ ")") ∧
      g.compile = g.toRestriction.compileWith g.negated ∧
      g.toRestriction.compileBare = g.toRestriction.compileWith g.allNegated) := by
  have start : (ofMembers connective first negated).IsOrderedSet :=
    (isOrderedSet_of_nil rfl).addAll first
  have set := isOrderedSet_run start steps g hg
  refine ⟨set, fun r => ?_, fun rs => ?_, fun r => ?_, rfl, fun _ => rfl, fun _ => rfl,
    fun several => ?_⟩
  · exact ⟨changed_add g r, changed_add_iff, add_of_changed, add_of_unchanged⟩
  · exact ⟨addAll_eq_foldl g rs, length_members_addAll g rs⟩
  · exact ⟨changed_remove g r, changed_remove_iff, remove_of_unchanged, set.contains_remove r,
      set.toGroup_remove r, length_members_remove g r⟩
  · exact ⟨length_writtenMembers g, writtenMembers_ne_empty set.nonempty,
      compileWith_of_several set.nonempty several, (Restriction.compileWith_isNegated _).symm,
      compileBare_of_several several⟩

/-- A clause with a weight of a given encoding, negated or not. -/
def weighed (word : Nat) (negated : Bool) : Restriction :=
  .clause { (Clause.verbatim "a" "1").setBoost word with negated }

/-- Members that are the same but for the sign of a zero, and a blank one. -/
def twoZeros : Group :=
  .ofMembers .and [weighed 0 false, weighed 0x80000000 false, .raw " " true] false

/-- The group is copied; the copy loses its member by the other zero and gains two negations,
one of them twice. -/
def changeCopy : List Step :=
  [.copy 0, .change 1 (.add (.raw "b" true)), .change 1 (.remove (weighed 0x80000000 false)),
    .change 1 (.addAll [weighed 0 true, .raw "b" true])]

theorem isOrderedSet_of_mem_run_changeCopy :
    ∃ g ∈ run twoZeros changeCopy, g.IsOrderedSet ∧ g.members.length = 2 ∧
      g.contains (weighed 0 false) = false ∧
      (g.add (.raw "b" true)).changed = false ∧ (g.add (.raw "b" true)).toGroup = g ∧
      (g.remove (weighed 0x80000000 true)).changed = true ∧
      (g.remove (weighed 0x80000000 true)).members.length = 1 ∧
      g.toRestriction.compileWith false = "NOT (b OR a:(1))" := by
  have mem : (run twoZeros changeCopy)[1] ∈ run twoZeros changeCopy := List.getElem_mem _
  obtain ⟨set, added, -, -, -, -, -, text⟩ := isOrderedSet_of_mem_run .and _ false changeCopy _ mem
  obtain ⟨-, -, compiled, -⟩ := text (by decide)
  have there : ((run twoZeros changeCopy)[1].add (.raw "b" true)).changed = false := by decide
  exact ⟨_, mem, set, by decide, by decide, there, (added _).2.2.2 there, by decide, by decide,
    (compiled false).trans (by decide)⟩

end Group

end SearchIndex
