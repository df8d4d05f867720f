/-
Module: Assay.Proofs.Balance
Purpose: Nothing that a validation rents gets lost, and nothing is given back twice. The rules follow
  the parts of a validation through their steps: what they take over, what they hand on, and what is
  still to be released if they stop. Whatever others have rented stays as it is.
Main exports: Run.Balances, Run.balances_invoke, Object.balances_run
-/
import Assay.Proofs.Conservation
import Assay.Proofs.Unfolding

namespace Assay

namespace Run

variable {rooms : Rooms} {part : Part} {α β : Type}

/-! ### Parts that have nothing to do with the pools -/

/-- A part of a validation does not touch the pools. -/
def LeavesPools (action : Run α) : Prop :=
  ∀ state, (action state).2.pools = state.pools

namespace LeavesPools

theorem pure (value : α) : LeavesPools (Pure.pure value : Run α) :=
  fun _ => rfl

theorem throw (stop : Stop) : LeavesPools (MonadExcept.throw stop : Run α) :=
  fun _ => rfl

/-- What does not touch the pools in either part does not touch them at all. -/
theorem bind {action : Run α} {next : α → Run β} (first : LeavesPools action)
    (second : ∀ value, LeavesPools (next value)) : LeavesPools (action >>= next) := by
  intro state
  have kept := first state
  rw [bind_apply]
  rcases ran : action state with ⟨result, after⟩
  rw [ran] at kept
  cases result with
  | ok value => exact (second value after).trans kept
  | error stop => exact kept

theorem ite {condition : Prop} [Decidable condition] {one two : Run α} (first : LeavesPools one)
    (second : LeavesPools two) : LeavesPools (if condition then one else two) := by
  split
  · exact first
  · exact second

theorem forM {ι : Type} {body : ι → Run PUnit} (each : ∀ item, LeavesPools (body item))
    (items : List ι) : LeavesPools (items.forM body) := by
  induction items with
  | nil => exact .pure _
  | cons item items ih => exact .bind (each item) fun _ => ih

theorem mapM {ι : Type} {body : ι → Run α} (each : ∀ item, LeavesPools (body item))
    (items : List ι) : LeavesPools (items.mapM body) := by
  induction items with
  | nil => exact .pure _
  | cons item items ih =>
    rw [List.mapM_cons]
    exact .bind (each item) fun _ => .bind ih fun _ => .pure _

end LeavesPools

theorem leavesPools_checkpoint (place : Checkpoint) : LeavesPools (checkpoint place) := by
  intro state
  rw [checkpoint_apply]

theorem leavesPools_lookup (env : Environment) (dependency : Dependency) :
    LeavesPools (lookup env dependency) := by
  refine .bind (fun _ => rfl) fun _ => ?_
  split
  · exact .pure _
  · exact .throw _

/-- An evaluation gives back a draft at most, which is not built yet. -/
theorem leavesPools_evaluate (scope : Scope) (value : Value) (outcome : Outcome)
    (call : PlannedCall) : LeavesPools (evaluate scope value outcome call) := by
  intro state
  rw [evaluate_apply]

/-- Waiting, cancelling and hanging rent nothing. -/
theorem leavesPools_perform (env : Environment) (step : Step) : LeavesPools (perform env step) := by
  cases step with
  | wait => exact .bind (.ite (.pure _) (.throw _)) fun _ => leavesPools_checkpoint _
  | cancel => exact fun _ => rfl
  | hang =>
    intro state
    rw [perform_hang_apply]
    split <;> rfl

theorem leavesPools_nestedPlan (env : Environment) (field : FieldPlan) :
    LeavesPools (nestedPlan env field) := by
  rw [nestedPlan]
  split
  · exact .pure _
  · split
    · exact .pure _
    · exact .throw _

/-! ### Balanced parts -/

/-- A part of a validation takes over so many of what is out, and leaves as many out as are in what it
gives, or in what it leaves behind if it stops. -/
def Balances (rooms : Rooms) (part : Part) (action : Run α) (taken : Nat) (given : α → Nat)
    (left : Nat) : Prop :=
  ∀ (state : RunState) (others : Nat), state.pools.Owes rooms part (others + taken) →
    match action state with
    | (.ok value, after) => after.pools.Owes rooms part (others + given value)
    | (.error _, after) => after.pools.Owes rooms part (others + left)

namespace Balances

variable {action : Run α} {next : α → Run β} {taken left : Nat} {given : α → Nat}
  {givenNext : β → Nat}

theorem pure {value : α} (same : taken = given value) :
    Balances rooms part (Pure.pure value) taken given left :=
  fun _ _ owes => owes.of_eq (by rw [same])

/-- What does not touch the pools leaves everything where it is. -/
theorem ofLeavesPools (leaves : LeavesPools action) (n : Nat) :
    Balances rooms part action n (fun _ => n) n := by
  intro state others owes
  have same := leaves state
  rcases ran : action state with ⟨result, after⟩
  rw [ran] at same
  rw [← same] at owes
  cases result <;> exact owes

/-- The second part takes over what the first gives, and a stop of either leaves the same behind. -/
theorem bind {mid : α → Nat} (first : Balances rooms part action taken mid left)
    (second : ∀ value, Balances rooms part (next value) (mid value) givenNext left) :
    Balances rooms part (action >>= next) taken givenNext left := by
  intro state others owes
  have done := first state others owes
  rw [bind_apply]
  rcases ran : action state with ⟨result, after⟩
  rw [ran] at done
  cases result with
  | ok value => exact second value after others done
  | error stop => exact done

/-- What is not taken over stays out. -/
theorem frame (balances : Balances rooms part action taken given left) (kept : Nat) :
    Balances rooms part action (kept + taken) (fun value => kept + given value) (kept + left) := by
  intro state others owes
  have done := balances state (others + kept) (owes.of_eq (Nat.add_assoc _ _ _).symm)
  rcases ran : action state with ⟨result, after⟩
  rw [ran] at done
  cases result <;> exact done.of_eq (Nat.add_assoc _ _ _)

/-- An outcome that is held is released if that stops. -/
theorem holding {outcome : Outcome}
    (balances : Balances rooms part action taken given (outcome.count part + left)) :
    Balances rooms part (Run.holding outcome action) taken given left := by
  intro state others owes
  have done := balances state others owes
  rw [holding_apply]
  rcases ran : action state with ⟨result, after⟩
  rw [ran] at done
  cases result with
  | ok value => exact done
  | error stop => exact (done.of_eq (by omega)).release

/-- Each branch is balanced under what it is taken for. -/
theorem ite {condition : Prop} [Decidable condition] {one two : Run α}
    (first : condition → Balances rooms part one taken given left)
    (second : ¬condition → Balances rooms part two taken given left) :
    Balances rooms part (if condition then one else two) taken given left := by
  split
  · exact first ‹_›
  · exact second ‹_›

end Balances

/-! ### The steps of a validation, none of which stops -/

/-- A new outcome is rented whole: from then on everything in it is out. -/
theorem balances_create {left : Nat} (expected : Nat) :
    Balances rooms part (withPools (·.create expected)) 0 (·.count part) left :=
  fun _ _ owes => owes.create expected

theorem balances_createField {left : Nat} (path : String) (expected : Nat) :
    Balances rooms part (withPools (·.createField path expected)) 0 (·.outcome.count part) left :=
  fun _ _ owes => owes.createField path expected

theorem balances_build {left : Nat} (draft : Draft) :
    Balances rooms part (withPools (·.build draft)) 0 (·.count part) left :=
  fun _ _ owes => owes.build draft

/-- What is released is not out any more. -/
theorem balances_release {left : Nat} (outcome : Outcome) :
    Balances rooms part (release outcome) (outcome.count part) (fun _ => 0) left :=
  fun _ _ owes => owes.release

/-- An attached field is out as a part of its outcome, or released where it did not fit. -/
theorem balances_attach {left : Nat} (outcome : Outcome) (field : FieldOutcome) :
    Balances rooms part (attach outcome field) (outcome.count part + field.outcome.count part)
      (·.count part) left :=
  fun _ _ owes => owes.attach

/-- The content of the child moves over, and what is left of the child is released. -/
theorem balances_merge {left : Nat} (into child : Outcome) (label : Option String) :
    Balances rooms part (merge into child label) (into.count part + child.count part)
      (·.count part) left :=
  fun _ _ owes => owes.merge

/-! ### Calls -/

/-- Messages are not rented, so that an outcome counts the same after taking them. -/
theorem balances_drain (env : Environment) (wanted : Bool) (items : List StreamItem)
    (into : Outcome) :
    Balances rooms part (drain env wanted items into) (into.count part) (·.count part)
      (into.count part) := by
  induction items generalizing into with
  | nil => exact .pure rfl
  | cons item items ih =>
    cases item with
    | step step => exact .bind (.ofLeavesPools (leavesPools_perform env step) _) fun _ => ih into
    | message finding =>
      refine .bind (.ofLeavesPools (leavesPools_checkpoint _) _) fun _ => ?_
      have same : (if wanted then into.addMessages [finding] else into).count part =
          into.count part := by split <;> simp
      rw [← same]
      exact ih _

/-- A draft is built, and then merged or released. -/
theorem balances_fold (declared : Contribution) (output : RuleOutput) (into : Outcome) :
    Balances rooms part (fold declared output into) (into.count part) (·.count part)
      (into.count part) := by
  cases output with
  | nothing | pending | streaming => exact .pure rfl
  | message finding => exact .pure (by split <;> simp)
  | messages findings => exact .pure (by split <;> simp)
  | outcome draft =>
    have built : Balances rooms part _ 0 _ 0 := balances_build draft
    refine (built.frame (into.count part)).bind fun child => ?_
    refine .ite (fun _ => balances_merge _ _ _) fun _ => ?_
    have released : Balances rooms part _ _ _ 0 := balances_release child
    exact (released.frame (into.count part)).bind fun _ => .pure rfl

/-- Whether an output is there at once or comes later, the outcome it is added to stays at hand. -/
theorem balances_receive (env : Environment) (call : PlannedCall) (output : RuleOutput)
    (into : Outcome) :
    Balances rooms part (receive env call output into) (into.count part) (·.count part)
      (into.count part) := by
  refine .ite (fun _ => balances_fold _ _ _) fun _ => ?_
  have looked : Balances rooms part (checkpoint .poll) _ _ _ :=
    .ofLeavesPools (leavesPools_checkpoint _) (into.count part)
  cases output with
  | nothing | message | messages | outcome => exact balances_fold _ _ _
  | streaming items => exact looked.bind fun _ => balances_drain _ _ _ _
  | pending steps result =>
    refine looked.bind fun _ => ?_
    exact .bind (.ofLeavesPools (.forM (leavesPools_perform env) _) _) fun _ => balances_fold _ _ _

/-- If a call stops, the outcome that it was to add to is still at hand. -/
theorem balances_invoke (env : Environment) (scope : Scope) (value : Value) (outcome : Outcome)
    (call : PlannedCall) (into : Outcome) :
    Balances rooms part (invoke env scope value outcome call into) (into.count part) (·.count part)
      (into.count part) :=
  .bind (.ofLeavesPools (leavesPools_evaluate _ _ _ _) _) fun _ => balances_receive _ _ _ _

/-- If one of the calls stops, the outcome they were to fill is released. -/
theorem balances_onGroup (env : Environment) (scope : Scope) (value : Value) (outcome : Outcome)
    (calls : List PlannedCall) (into : Outcome) :
    Balances rooms part (onGroup env scope value outcome calls into) (into.count part)
      (·.count part) 0 := by
  rw [onGroup]
  induction calls generalizing into with
  | nil => exact .pure rfl
  | cons call calls ih =>
    rw [List.foldlM_cons]
    exact .bind (.holding (balances_invoke env scope value outcome call into)) fun into => ih into

/-! ### Fields -/

/-- Groups hand the outcome on to each other. -/
theorem balances_onGroups (env : Environment) (scope : Scope) (failFast : Bool) (value : Value)
    (outcome : Outcome) (groups : List (List PlannedCall)) (into : Outcome) :
    Balances rooms part (onGroups env scope failFast value outcome groups into) (into.count part)
      (·.count part) 0 := by
  induction groups generalizing into with
  | nil => exact .pure rfl
  | cons group groups ih =>
    refine .bind (balances_onGroup _ _ _ _ _ _) fun into => ?_
    exact .ite (fun _ => .pure rfl) fun _ => ih into

/-- The objects that fields hold are validated by balanced parts. -/
def BalancedDescent (rooms : Rooms) (part : Part) (descent : Option Descent) : Prop :=
  ∀ run, descent = some run → ∀ plan context,
    Balances rooms part (run plan context) 0 (·.count part) 0

/-- While the object of a field is validated, the outcome of the field is held. -/
theorem balances_onNested (field : FieldPlan) (context : Context) (plan : Option TypePlan)
    {descent : Option Descent} (balanced : BalancedDescent rooms part descent) (into : Outcome) :
    Balances rooms part (onNested field context plan descent into) (into.count part)
      (·.count part) 0 := by
  cases plan with
  | none => exact .pure rfl
  | some plan =>
    cases descent with
    | none => exact .pure rfl
    | some run =>
      have child := (balanced run rfl plan context).frame (into.count part)
      exact child.holding.bind fun child => balances_merge _ _ _

/-- The outcome of a field is the only thing that its validation leaves out. -/
theorem balances_onField (env : Environment) (scope : Scope) (failFast : Bool) (outcome : Outcome)
    {descent : Option Descent} (balanced : BalancedDescent rooms part descent)
    (field : FieldPlan) :
    Balances rooms part (onField env scope failFast outcome descent field) 0
      (·.outcome.count part) 0 := by
  refine .bind (.ofLeavesPools (leavesPools_nestedPlan env field) 0) fun nested => ?_
  refine .bind (balances_createField _ _) fun fresh => ?_
  refine .bind (balances_onGroups _ _ _ _ _ _ _) fun content => .ite (fun _ => .pure rfl) fun _ => ?_
  exact .bind (balances_onNested _ _ _ balanced _) fun _ => .pure rfl

/-- If a field stops, the outcome of its object is released. -/
theorem balances_onNext (env : Environment) (scope : Scope) (failFast : Bool) (outcome : Outcome)
    {descent : String → Option Descent} (balanced : ∀ name, BalancedDescent rooms part (descent name))
    (field : FieldPlan) :
    Balances rooms part (onNext env scope failFast outcome descent field) (outcome.count part)
      (fun result => outcome.count part + result.outcome.count part) 0 := by
  have begun : Balances rooms part (checkpoint (.field field.name) >>= fun _ =>
      onField env (scope.inside field) failFast outcome (descent field.name) field) 0
      (·.outcome.count part) 0 :=
    .bind (.ofLeavesPools (leavesPools_checkpoint _) 0) fun _ =>
      balances_onField _ _ _ _ (balanced _) _
  exact (begun.frame (outcome.count part)).holding

/-- Field outcomes join the outcome of the object one by one. -/
theorem balances_onFields (env : Environment) (scope : Scope) (failFast : Bool)
    {descent : String → Option Descent} (balanced : ∀ name, BalancedDescent rooms part (descent name))
    (fields : List FieldPlan) (outcome : Outcome) :
    Balances rooms part (onFields env scope failFast descent fields outcome) (outcome.count part)
      (·.1.count part) 0 := by
  induction fields generalizing outcome with
  | nil => exact .pure rfl
  | cons field fields ih =>
    refine .bind (balances_onNext _ _ _ _ balanced _) fun result => ?_
    refine .bind (balances_attach _ _) fun outcome => ?_
    exact .ite (fun _ => .pure rfl) fun _ => ih outcome

/-! ### Objects -/

/-- The scratch outcome of a hook does not outlive it: it is merged, or released at a stop. -/
theorem balances_onHook (env : Environment) (scope : Scope) (plan : TypePlan)
    (hook : Option PlannedCall) (outcome : Outcome) :
    Balances rooms part (onHook env scope plan hook outcome) (outcome.count part)
      (·.count part) 0 := by
  cases hook with
  | none => exact .pure rfl
  | some call =>
    have collected : Balances rooms part _ 0 _ 0 := .bind (balances_create plan.fields.length)
      fun scratch => .holding (balances_invoke env scope (.object scope.target) outcome call scratch)
    exact .bind (collected.frame (outcome.count part)).holding fun scratch => balances_merge _ _ _

/-- From the first hook to the last, the outcome of the object is what is out. -/
theorem balances_onContents (env : Environment) (scope : Scope) {descent : String → Option Descent}
    (balanced : ∀ name, BalancedDescent rooms part (descent name)) (plan : TypePlan)
    (outcome : Outcome) :
    Balances rooms part (onContents env scope descent plan outcome) (outcome.count part)
      (·.count part) 0 := by
  refine .bind (balances_onHook _ _ _ _ _) fun first => .ite (fun _ => .pure rfl) fun _ => ?_
  refine .bind (balances_onFields _ _ _ balanced _ _) fun ⟨last, ended⟩ => ?_
  exact .ite (fun _ => .pure rfl) fun _ => balances_onHook _ _ _ _ _

/-- An object starts with nothing out: its outcome is made once its services are there. -/
theorem balances_onObject (env : Environment) {descent : String → Option Descent}
    (balanced : ∀ name, BalancedDescent rooms part (descent name)) (target : Object)
    (plan : TypePlan) (context : Context) :
    Balances rooms part (onObject env descent target plan context) 0 (·.count part) 0 := by
  refine .bind (.ofLeavesPools (leavesPools_checkpoint _) 0) fun _ => ?_
  refine .bind (.ofLeavesPools (.mapM (leavesPools_lookup env) _) 0) fun services => ?_
  exact .bind (balances_create _) fun outcome => balances_onContents _ _ balanced _ _

end Run

/-- A validation leaves out what is in its outcome, and nothing if it has none. -/
theorem Object.balances_run {rooms : Rooms} {part : Part} (env : Environment) (object : Object) :
    ∀ plan context,
      Run.Balances rooms part (object.run env plan context) 0 (·.count part) 0 := by
  refine Object.run_of_descents env (motive := fun run => ∀ plan context,
    Run.Balances rooms part (run plan context) 0 (·.count part) 0) ?_ object
  intro descent target balanced plan context
  exact Run.balances_onObject env balanced target plan context

end Assay
