/-
Module: Assay.Proofs.Grouping
Purpose: To group the calls of a field is to sort them. They run by the group of what they return, and in
  the order of the rules where that is the same; none is lost and none is added. What else a plan says of
  its calls, that a field may have to be waited for, what room it has and how many calls there are, can
  be told from the rules.
Main exports: PlannedCall.inGroups, FieldPlan.calls_ofCalls, FieldPlan.Groups, TypePlan.groups_of_ofModel
-/
import Mathlib.Data.List.Forall2
import Assay.Proofs.Blueprint

namespace Assay

/-! ### Sorting -/

section

variable {α : Type} {rank : α → Nat}

theorem pairwise_mergeSort_rank (items : List α) :
    (items.mergeSort fun one other => rank one ≤ rank other).Pairwise
      fun one other => rank one ≤ rank other := by
  have total : ∀ one other : α, (decide (rank one ≤ rank other) || decide (rank other ≤ rank one)) := by
    simpa using fun _ _ => Nat.le_total _ _
  have transitive : ∀ one other another : α, decide (rank one ≤ rank other) →
      decide (rank other ≤ rank another) → decide (rank one ≤ rank another) := by
    simpa using fun _ _ _ => Nat.le_trans
  simpa using List.pairwise_mergeSort transitive total items

/-- What has one rank stands in a list that is sorted by rank as it did before. -/
theorem filter_mergeSort (items : List α) (level : Nat) :
    (items.mergeSort fun one other => rank one ≤ rank other).filter (rank · == level) =
      items.filter (rank · == level) := by
  have even : (items.filter (rank · == level)).Pairwise fun one other => rank one ≤ rank other := by
    refine List.pairwise_of_forall_mem_list fun one first other second => ?_
    have low : rank one = level := by simpa using (List.mem_filter.1 first).2
    have high : rank other = level := by simpa using (List.mem_filter.1 second).2
    omega
  have kept : (items.filter (rank · == level)).Sublist
      (items.mergeSort fun one other => rank one ≤ rank other) := by
    refine List.sublist_mergeSort ?_ ?_ (by simpa using even) List.filter_sublist
    · simpa using fun _ _ _ => Nat.le_trans
    · simpa using fun _ _ => Nat.le_total _ _
  have inside := kept.filter (rank · == level)
  simp only [List.filter_filter, Bool.and_self] at inside
  exact (inside.eq_of_length ((List.mergeSort_perm items _).filter _).length_eq.symm).symm

/-- A list that is sorted by rank comes apart at every level. -/
theorem filter_append_filter {items : List α} (level : Nat)
    (sorted : items.Pairwise fun one other => rank one ≤ rank other) :
    (items.filter fun item => rank item < level) ++ (items.filter fun item => level ≤ rank item) =
      items := by
  induction items with
  | nil => rfl
  | cons item items ih =>
    obtain ⟨least, sorted⟩ := List.pairwise_cons.1 sorted
    by_cases low : rank item < level
    · have notHigh : ¬ level ≤ rank item := by omega
      simp [low, notHigh, ih sorted]
    · have high : ∀ other ∈ item :: items, level ≤ rank other := by
        intro other member
        cases member with
        | head => omega
        | tail _ later => exact Nat.le_trans (Nat.le_of_not_lt low) (least other later)
      have none : (item :: items).filter (fun item => rank item < level) = [] := by
        simpa [List.filter_eq_nil_iff] using high
      have all : (item :: items).filter (fun item => level ≤ rank item) = item :: items := by
        simpa [List.filter_eq_self] using high
      rw [none, all, List.nil_append]

/-- A list that is sorted by rank is put together from what has the one rank and the other. -/
theorem flatMap_filter_of_pairwise {items : List α} {bound : Nat}
    (sorted : items.Pairwise fun one other => rank one ≤ rank other)
    (bounded : ∀ item ∈ items, rank item < bound) :
    (List.range bound).flatMap (fun level => items.filter (rank · == level)) = items := by
  induction bound generalizing items with
  | zero =>
    cases items with
    | nil => rfl
    | cons item items => cases bounded item List.mem_cons_self
  | succ bound ih =>
    let below := items.filter fun item => rank item < bound
    have lower : (List.range bound).flatMap (fun level => below.filter (rank · == level)) = below :=
      ih (sorted.filter _) (by simp [below])
    have last : items.filter (rank · == bound) = items.filter fun item => bound ≤ rank item := by
      refine List.filter_congr fun item member => ?_
      have := bounded item member
      simp only [Bool.beq_eq_decide_eq, decide_eq_decide]
      omega
    have same : ∀ level ∈ List.range bound,
        below.filter (rank · == level) = items.filter (rank · == level) := by
      intro level inside
      rw [List.mem_range] at inside
      rw [List.filter_filter]
      refine List.filter_congr fun item _ => ?_
      by_cases here : rank item = level
      · simp [here, inside]
      · simp [here]
    rw [List.range_succ, List.flatMap_append, List.flatMap_singleton, last,
      ← List.flatMap_congr same, lower]
    exact filter_append_filter bound sorted

end

/-! ### Fields -/

/-- Calls by the group of what they return. Within a group they keep their order. -/
def PlannedCall.inGroups (calls : List PlannedCall) : List PlannedCall :=
  calls.mergeSort fun one other => one.shape.group ≤ other.shape.group

/-- A call is in one of the last two groups exactly if it may have to be waited for. -/
theorem ReturnShape.isSuspendable_iff (shape : ReturnShape) :
    shape.isSuspendable = true ↔ shape.group = 3 ∨ shape.group = 4 := by
  obtain ⟨delivery, contribution, nullable⟩ := shape
  cases delivery <;> cases contribution <;> decide +revert

/-- What may add field outcomes is in the first group if it is there at once, or else in one of the last
two. -/
theorem ReturnShape.contribution_eq_outcome_iff (shape : ReturnShape) :
    shape.contribution = .outcome ↔
      shape.group = 0 ∨ shape.contribution = .outcome ∧ (shape.group = 3 ∨ shape.group = 4) := by
  obtain ⟨delivery, contribution, nullable⟩ := shape
  cases delivery <;> cases contribution <;> decide +revert

namespace FieldPlan

variable {model : FieldModel} {calls : List PlannedCall} {room : Nat}

theorem calls_ofCalls : (ofCalls model calls room).calls = PlannedCall.inGroups calls := by
  have together := flatMap_filter_of_pairwise (pairwise_mergeSort_rank calls)
    fun call _ => call.shape.group_lt_groupCount
  simp only [filter_mergeSort] at together
  exact together

/-- A group has a call if and only if there is a call for it. -/
theorem getD_grouped_ne_nil_iff {group : Nat} (known : group < ReturnShape.groupCount) :
    (grouped calls).getD group [] ≠ [] ↔ ∃ call ∈ calls, call.shape.group = group := by
  simp [grouped, List.getD, known]

/-- A call may have to be waited for exactly if one of the last two groups has a call. -/
theorem isSuspendable_ofCalls : (ofCalls model calls room).isSuspendable = true ↔
    (grouped calls).getD 3 [] ≠ [] ∨ (grouped calls).getD 4 [] ≠ [] := by
  rw [getD_grouped_ne_nil_iff (by decide), getD_grouped_ne_nil_iff (by decide)]
  simp only [isSuspendable, calls_ofCalls, PlannedCall.inGroups, List.any_eq_true,
    List.mem_mergeSort, ReturnShape.isSuspendable_iff, and_or_left, exists_or]

/-- Some call may add field outcomes exactly if the first group has a call, or one of the last two has
such a call. -/
theorem exists_outcome_iff : (∃ call ∈ calls, call.shape.contribution = .outcome) ↔
    (grouped calls).getD 0 [] ≠ [] ∨
      ∃ group ∈ (grouped calls).drop 3, ∃ call ∈ group, call.shape.contribution = .outcome := by
  have last : (grouped calls).drop 3 =
      [calls.filter (·.shape.group == 3), calls.filter (·.shape.group == 4)] := rfl
  rw [getD_grouped_ne_nil_iff (by decide), last]
  simp only [List.mem_cons, List.not_mem_nil, or_false, exists_eq_or_imp, exists_eq_left,
    List.mem_filter, beq_iff_eq, ← exists_or]
  refine exists_congr fun call => ?_
  have split := call.shape.contribution_eq_outcome_iff
  tauto

/-- What is looked for in some of the groups can be looked for among all calls. -/
theorem composes_grouped (calls : List PlannedCall) :
    composes (grouped calls) = calls.any (·.shape.contribution == .outcome) := by
  have any : calls.any (·.shape.contribution == .outcome) = true ↔
      ∃ call ∈ calls, call.shape.contribution = .outcome := by
    simp
  have here : composes (grouped calls) = true ↔ (grouped calls).getD 0 [] ≠ [] ∨
      ∃ group ∈ (grouped calls).drop 3, ∃ call ∈ group, call.shape.contribution = .outcome := by
    simp [composes]
  rw [Bool.eq_iff_iff, any, here, exists_outcome_iff]

/-- Room is given to a field of which some call may add field outcomes. -/
theorem childCapacity_ofCalls : (ofCalls model calls room).childCapacity =
    if calls.any (·.shape.contribution == .outcome) then room else 0 := by
  rw [← composes_grouped]
  rfl

/-- The plan of a field has the calls of its rules, sorted by group, and what else is said of them. -/
structure Groups (room : Nat) (dependencies : List Dependency) (model : FieldModel)
    (plan : FieldPlan) : Prop where
  name : plan.name = model.name
  nested : plan.nested = model.nested
  count : plan.groups.length = 5
  sorted : plan.calls = PlannedCall.inGroups (model.rules.map (BoundRule.drawn dependencies))
  ordered : plan.calls.Pairwise fun one other => one.shape.group ≤ other.shape.group
  stable : ∀ group, plan.calls.filter (·.shape.group == group) =
    (model.rules.map (BoundRule.drawn dependencies)).filter (·.shape.group == group)
  perm : plan.calls.Perm (model.rules.map (BoundRule.drawn dependencies))
  suspendable : plan.isSuspendable = true ↔
    plan.groups.getD 3 [] ≠ [] ∨ plan.groups.getD 4 [] ≠ []
  capacity : plan.childCapacity =
    if ∃ call ∈ plan.calls, call.shape.contribution = .outcome then room else 0
  outcomes : (∃ call ∈ plan.calls, call.shape.contribution = .outcome) ↔
    plan.groups.getD 0 [] ≠ [] ∨
      ∃ group ∈ plan.groups.drop 3, ∃ call ∈ group, call.shape.contribution = .outcome

theorem groups_drawn (dependencies : List Dependency) :
    (drawn room dependencies model).Groups room dependencies model where
  name := rfl
  nested := rfl
  count := rfl
  sorted := calls_ofCalls
  ordered := by
    rw [drawn, calls_ofCalls]
    exact pairwise_mergeSort_rank _
  stable := by
    intro group
    rw [drawn, calls_ofCalls]
    exact filter_mergeSort _ group
  perm := by
    rw [drawn, calls_ofCalls]
    exact List.mergeSort_perm _ _
  suspendable := isSuspendable_ofCalls
  capacity := by
    simp only [drawn, calls_ofCalls, PlannedCall.inGroups, List.mem_mergeSort, childCapacity_ofCalls]
    simp
  outcomes := by
    simp only [drawn, calls_ofCalls, PlannedCall.inGroups, List.mem_mergeSort]
    exact exists_outcome_iff

end FieldPlan

namespace TypePlan

theorem callCount_drawn (model : TypeModel) (type : TypeKey) (room : Nat) :
    (drawn model type room).callCount = (model.fields.flatMap FieldModel.rules).length +
      (model.before.toList.length + model.after.toList.length) := by
  have each : ∀ field : FieldModel, (FieldPlan.drawn room model.services.eraseDups field).calls.length =
      field.rules.length := by
    intro field
    rw [(FieldPlan.groups_drawn _).perm.length_eq, List.length_map]
  have fields : ∀ fields : List FieldModel,
      (fields.map (FieldPlan.drawn room model.services.eraseDups)).foldr
        (fun field count => field.calls.length + count) 0 =
          (fields.flatMap FieldModel.rules).length := by
    intro fields
    induction fields with
    | nil => rfl
    | cons field fields ih => simp [ih, each]
  rw [callCount, hooks, List.length_append]
  simp only [drawn, fields, Option.toList_map, List.length_map]

/-- The plan of a type has one plan for each of its fields, in their order, with the calls of the rules
sorted by group, and as many calls as there are rules and hooks. -/
theorem groups_of_ofModel {model : TypeModel} {type : TypeKey} {room : Nat} {plan : TypePlan}
    (planned : ofModel model type room = .ok plan) :
    List.Forall₂ (FieldPlan.Groups room plan.dependencies) model.fields plan.fields ∧
      plan.callCount = (model.fields.flatMap FieldModel.rules).length +
        (model.before.toList.length + model.after.toList.length) := by
  obtain ⟨_, rfl⟩ := ofModel_eq_ok planned
  have fields : List.Forall₂ (FieldPlan.Groups room model.services.eraseDups) model.fields
      (model.fields.map (FieldPlan.drawn room model.services.eraseDups)) := by
    rw [List.forall₂_map_right_iff, List.forall₂_same]
    exact fun field _ => FieldPlan.groups_drawn _
  exact ⟨fields, callCount_drawn model type room⟩

/-- A field with a rule that reports messages, one that may add field outcomes after a while, and one
that reports a message. -/
def mixedModel : TypeModel where
  name := "Mixed"
  fields :=
    [{ name := "mixed"
       type := .named "String"
       nullable := false
       rules :=
        [⟨"all", .ofValue "Messages" fun _ => .nothing, [], .named "Messages"⟩,
          ⟨"later", .ofValue "Future<Outcome>" fun _ => .nothing, [],
            (TypeName.named "Future").withArg (.named "Outcome")⟩,
          ⟨"one", .ofValue "Message" fun _ => .nothing, [], .named "Message"⟩]
       nested := none }]
  before := none
  after := none
  failFast := false
  autoRules := true

theorem mixed_groups :
    ∃ plan, ofModel mixedModel ⟨"Mixed"⟩ 8 = .ok plan ∧
      List.Forall₂ (FieldPlan.Groups 8 plan.dependencies) mixedModel.fields plan.fields ∧
      plan.callCount = 3 ∧ plan.fields.map (·.calls.map (·.id)) = [["one", "all", "later"]] ∧
      plan.fields.map (·.childCapacity) = [8] := by
  have planned : ofModel mixedModel ⟨"Mixed"⟩ 8 = .ok (drawn mixedModel ⟨"Mixed"⟩ 8) := rfl
  obtain ⟨fields, count⟩ := groups_of_ofModel planned
  exact ⟨_, planned, fields, count, by decide +kernel, by decide +kernel⟩

end TypePlan

end Assay
