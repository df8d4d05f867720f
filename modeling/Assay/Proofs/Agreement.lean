/-
Module: Assay.Proofs.Agreement
Purpose: What a part of a validation finds does not depend on what the pools remember. Two runs of it
  that start alike, on pools with the same rooms, end alike: with the same answer or the same stop,
  with the same journal, and again on pools with these rooms.
Main exports: RunState.Alike, Run.Agrees, Environment.SameServices, Run.agrees_invoke,
  Run.agrees_onHook, Object.agrees_run
-/
import Assay.Proofs.Course

namespace Assay

/-- Two states that differ only in what their pools remember. -/
structure RunState.Alike (rooms : Rooms) (state other : RunState) : Prop where
  journal : state.journal = other.journal
  cancelled : state.cancelled = other.cancelled
  yields : state.pools.Yields rooms
  otherYields : other.pools.Yields rooms

/-- Two environments that answer alike to all but questions for plans. -/
structure Environment.SameServices (env other : Environment) : Prop where
  provider : env.provider = other.provider
  mayWait : env.mayWait = other.mayWait

namespace Run

variable {rooms : Rooms} {α β ι : Type}

/-- Two parts of validations that, from states that are alike, do the same. -/
def Agrees (rooms : Rooms) (action other : Run α) : Prop :=
  ∀ state start : RunState, state.Alike rooms start →
    (action state).1 = (other start).1 ∧ (action state).2.Alike rooms (other start).2

namespace Agrees

variable {action other : Run α} {next otherNext : α → Run β}

theorem pure (value : α) : Agrees rooms (Pure.pure value : Run α) (Pure.pure value) :=
  fun _ _ alike => ⟨rfl, alike⟩

theorem throw (stop : Stop) :
    Agrees rooms (MonadExcept.throw stop : Run α) (MonadExcept.throw stop) :=
  fun _ _ alike => ⟨rfl, alike⟩

/-- Parts that agree hand on the same value and states that are alike. -/
theorem bind (first : Agrees rooms action other)
    (second : ∀ value, Agrees rooms (next value) (otherNext value)) :
    Agrees rooms (action >>= next) (other >>= otherNext) := by
  intro state start alike
  obtain ⟨same, alikeMiddle⟩ := first state start alike
  rw [bind_apply, bind_apply]
  cases ended : action state with
  | mk result middle =>
    cases endedOther : other start with
    | mk otherResult otherMiddle =>
      rw [ended, endedOther] at same alikeMiddle
      cases same
      cases result with
      | error stop => exact ⟨rfl, alikeMiddle⟩
      | ok value => exact second value middle otherMiddle alikeMiddle

/-- What a part finds out about the state it starts from is the same from states that are alike, as
long as it does not look into the pools. -/
theorem get {next otherNext : RunState → Run α}
    (agrees : ∀ state start, state.Alike rooms start →
      Agrees rooms (next state) (otherNext start)) :
    Agrees rooms (MonadState.get >>= next) (MonadState.get >>= otherNext) :=
  fun state start alike => agrees state start alike state start alike

/-- Where a held outcome is released, both pools take it back and keep their rooms. -/
theorem holding (agrees : Agrees rooms action other) (outcome : Outcome) :
    Agrees rooms (Run.holding outcome action) (Run.holding outcome other) := by
  intro state start alike
  obtain ⟨same, alikeAfter⟩ := agrees state start alike
  rw [holding_apply, holding_apply]
  cases ended : action state with
  | mk result after =>
    cases endedOther : other start with
    | mk otherResult otherAfter =>
      rw [ended, endedOther] at same alikeAfter
      cases same
      cases result with
      | ok value => exact ⟨rfl, alikeAfter⟩
      | error stop =>
        refine ⟨rfl, alikeAfter.journal, alikeAfter.cancelled, ?_, ?_⟩
        · exact alikeAfter.yields.release outcome
        · exact alikeAfter.otherYields.release outcome

theorem ite {condition : Prop} [Decidable condition] {one two otherOne otherTwo : Run α}
    (first : Agrees rooms one otherOne) (second : Agrees rooms two otherTwo) :
    Agrees rooms (if condition then one else two) (if condition then otherOne else otherTwo) := by
  split
  · exact first
  · exact second

theorem forM {body otherBody : ι → Run PUnit}
    (agrees : ∀ item, Agrees rooms (body item) (otherBody item)) (items : List ι) :
    Agrees rooms (items.forM body) (items.forM otherBody) := by
  induction items with
  | nil => exact .pure _
  | cons item items ih => exact .bind (agrees item) fun _ => ih

theorem mapM {body otherBody : ι → Run α}
    (agrees : ∀ item, Agrees rooms (body item) (otherBody item)) (items : List ι) :
    Agrees rooms (items.mapM body) (items.mapM otherBody) := by
  induction items with
  | nil => exact .pure _
  | cons item items ih =>
    rw [List.mapM_cons, List.mapM_cons]
    exact .bind (agrees item) fun _ => .bind ih fun _ => .pure _

/-- The value that is carried along is the same in both, so that every step starts alike. -/
theorem foldlM {body otherBody : α → ι → Run α}
    (agrees : ∀ value item, Agrees rooms (body value item) (otherBody value item))
    (items : List ι) (value : α) :
    Agrees rooms (items.foldlM body value) (items.foldlM otherBody value) := by
  induction items generalizing value with
  | nil => exact .pure _
  | cons item items ih =>
    rw [List.foldlM_cons, List.foldlM_cons]
    exact .bind (agrees value item) ih

end Agrees

/-! ### The steps of a validation -/

theorem agrees_record (event : Event) : Agrees rooms (record event) (record event) := by
  intro state start alike
  rw [record_apply, record_apply]
  refine ⟨rfl, ?_, alike.cancelled, alike.yields, alike.otherYields⟩
  exact congrArg (· ++ [event]) alike.journal

theorem agrees_cancel : Agrees rooms cancel cancel := by
  intro state start alike
  rw [cancel_apply, cancel_apply]
  refine ⟨rfl, ?_, rfl, alike.yields, alike.otherYields⟩
  exact congrArg (· ++ [.cancellation]) alike.journal

/-- Both look at the same flag, and both are stopped by it or none. -/
theorem agrees_checkpoint (place : Checkpoint) :
    Agrees rooms (checkpoint place) (checkpoint place) := by
  intro state start alike
  rw [checkpoint_apply, checkpoint_apply, alike.cancelled]
  refine ⟨rfl, ?_, rfl, alike.yields, alike.otherYields⟩
  exact congrArg (· ++ [.checkpoint place start.cancelled]) alike.journal

/-- What is made out of pools with the same rooms is the same. -/
theorem agrees_withPools {use : OutcomePools → α × OutcomePools} {made : α}
    (kept : ∀ {pools : OutcomePools}, pools.Yields rooms → (use pools).2.Yields rooms)
    (makes : ∀ {pools : OutcomePools}, pools.Yields rooms → (use pools).1 = made) :
    Agrees rooms (withPools use) (withPools use) := by
  intro state start alike
  rw [withPools_apply, withPools_apply, makes alike.yields, makes alike.otherYields]
  exact ⟨rfl, alike.journal, alike.cancelled, kept alike.yields, kept alike.otherYields⟩

/-- How much room a new outcome has depends on the rooms of the pools only, not on what was released into
them. -/
theorem agrees_create (expected : Nat) :
    Agrees rooms (withPools (·.create expected)) (withPools (·.create expected)) :=
  agrees_withPools (fun yields => yields.create _) fun yields => yields.create_fst _

theorem agrees_createField (path : String) (expected : Nat) :
    Agrees rooms (withPools (·.createField path expected))
      (withPools (·.createField path expected)) :=
  agrees_withPools (fun yields => yields.createField _ _) fun yields => yields.createField_fst _ _

theorem agrees_build (draft : Draft) :
    Agrees rooms (withPools (·.build draft)) (withPools (·.build draft)) :=
  agrees_withPools (fun yields => yields.build _) fun yields => yields.build_fst _

theorem agrees_release (outcome : Outcome) : Agrees rooms (release outcome) (release outcome) :=
  fun _ _ alike => ⟨rfl, alike.journal, alike.cancelled, alike.yields.release outcome,
    alike.otherYields.release outcome⟩

/-- What does not fit is refused by the outcome itself, and goes back to pools that keep their rooms. -/
theorem agrees_attach (outcome : Outcome) (field : FieldOutcome) :
    Agrees rooms (attach outcome field) (attach outcome field) := by
  intro state start alike
  rw [attach_apply, attach_apply]
  refine ⟨rfl, ?_, alike.cancelled, alike.yields.attach _ _, alike.otherYields.attach _ _⟩
  exact congrArg (· ++ (outcome.fields.overflow [field]).map Event.refusal) alike.journal

/-- Merging fills one outcome with the content of another; the pools get back what is empty then. -/
theorem agrees_merge (into child : Outcome) (label : Option String) :
    Agrees rooms (merge into child label) (merge into child label) := by
  intro state start alike
  rw [merge_apply, merge_apply]
  refine ⟨rfl, ?_, alike.cancelled, alike.yields.merge _ _ _, alike.otherYields.merge _ _ _⟩
  exact congrArg (· ++ (into.absorb child label).refused.map Event.refusal) alike.journal

/-! ### Calls and hooks -/

variable {env other : Environment}

/-- Services come from the provider, which two environments with the same services share. -/
theorem agrees_lookup (same : env.SameServices other) (dependency : Dependency) :
    Agrees rooms (lookup env dependency) (lookup other dependency) := by
  refine .bind (agrees_record _) fun _ => ?_
  rw [same.provider]
  split
  · exact .pure _
  · exact .throw _

/-- A rule is shown nothing of the pools: whether the validation is cancelled is all it learns of the
state. -/
theorem agrees_evaluate (scope : Scope) (value : Value) (outcome : Outcome) (call : PlannedCall) :
    Agrees rooms (evaluate scope value outcome call) (evaluate scope value outcome call) := by
  refine .get fun state start alike => ?_
  rw [alike.cancelled]
  refine .bind (agrees_record _) fun _ => .bind (.forM (fun _ => agrees_record _) _) fun _ => ?_
  exact .ite (.bind agrees_cancel fun _ => .pure _) (.pure _)

theorem agrees_suspend (same : env.SameServices other) :
    Agrees rooms (suspend env) (suspend other) := by
  rw [suspend, suspend, same.mayWait]
  exact .ite (.pure _) (.throw _)

/-- What hangs is given up where both see the cancellation, and hangs in both where none does. -/
theorem agrees_perform (same : env.SameServices other) (step : Step) :
    Agrees rooms (perform env step) (perform other step) := by
  cases step with
  | wait => exact .bind (agrees_suspend same) fun _ => agrees_checkpoint _
  | cancel => exact agrees_cancel
  | hang =>
    refine .bind (agrees_suspend same) fun _ => .get fun state start alike => ?_
    rw [alike.cancelled]
    exact .ite (.bind (agrees_checkpoint _) fun _ => .throw _) (.throw _)

theorem agrees_drain (same : env.SameServices other) (wanted : Bool) (items : List StreamItem)
    (into : Outcome) : Agrees rooms (drain env wanted items into) (drain other wanted items into) := by
  induction items generalizing into with
  | nil => exact .pure _
  | cons item items ih =>
    cases item with
    | step step => exact .bind (agrees_perform same step) fun _ => ih into
    | message finding => exact .bind (agrees_checkpoint _) fun _ => ih _

/-- Only an outcome that is given back has to be built out of the pools. -/
theorem agrees_fold (declared : Contribution) (output : RuleOutput) (into : Outcome) :
    Agrees rooms (fold declared output into) (fold declared output into) := by
  cases output with
  | nothing | message | messages | pending | streaming => exact .pure _
  | outcome draft =>
    refine .bind (agrees_build draft) fun child => ?_
    exact .ite (agrees_merge _ _ _) (.bind (agrees_release _) fun _ => .pure _)

/-- An output that has to be waited for is folded in after the same steps. -/
theorem agrees_receive (same : env.SameServices other) (call : PlannedCall)
    (output : RuleOutput) (into : Outcome) :
    Agrees rooms (receive env call output into) (receive other call output into) := by
  refine .ite (agrees_fold _ _ _) ?_
  cases output with
  | pending steps result =>
    refine .bind (agrees_checkpoint _) fun _ => ?_
    exact .bind (.forM (agrees_perform same) _) fun _ => agrees_fold _ _ _
  | streaming items => exact .bind (agrees_checkpoint _) fun _ => agrees_drain same _ _ _
  | nothing | message | messages | outcome => exact agrees_fold _ _ _

/-- A call adds the same, whatever the pools remember. -/
theorem agrees_invoke (same : env.SameServices other) (scope : Scope) (value : Value)
    (outcome : Outcome) (call : PlannedCall) (into : Outcome) :
    Agrees rooms (invoke env scope value outcome call into)
      (invoke other scope value outcome call into) :=
  .bind (agrees_evaluate _ _ _ _) fun output => agrees_receive same call output into

theorem agrees_onGroup (same : env.SameServices other) (scope : Scope) (value : Value)
    (outcome : Outcome) (calls : List PlannedCall) (into : Outcome) :
    Agrees rooms (onGroup env scope value outcome calls into)
      (onGroup other scope value outcome calls into) :=
  .foldlM (fun into call => .holding (agrees_invoke same scope value outcome call into) into) _ _

/-- Hooks of two plans agree if these have the same fields, for which the scratch outcome is made. -/
theorem agrees_onHook (same : env.SameServices other) (scope : Scope) {plan otherPlan : TypePlan}
    (sized : plan.fields = otherPlan.fields) (hook : Option PlannedCall) (outcome : Outcome) :
    Agrees rooms (onHook env scope plan hook outcome) (onHook other scope otherPlan hook outcome) := by
  cases hook with
  | none => exact .pure _
  | some call =>
    rw [onHook, onHook, sized]
    refine .bind (.holding (.bind (agrees_create _) fun scratch => ?_) _) fun scratch => ?_
    · exact .holding (agrees_invoke same _ _ _ _ _) _
    · exact agrees_merge _ _ _

/-! ### Fields and objects -/

/-- Whether the groups end early is seen from the outcome, which is the same in both. -/
theorem agrees_onGroups (env : Environment) (scope : Scope) (failFast : Bool) (value : Value)
    (outcome : Outcome) (groups : List (List PlannedCall)) (into : Outcome) :
    Agrees rooms (onGroups env scope failFast value outcome groups into)
      (onGroups env scope failFast value outcome groups into) := by
  induction groups generalizing into with
  | nil => exact .pure _
  | cons group groups ih =>
    exact .bind (agrees_onGroup ⟨rfl, rfl⟩ _ _ _ _ _) fun into => .ite (.pure _) (ih into)

theorem agrees_nestedPlan (env : Environment) (field : FieldPlan) :
    Agrees rooms (nestedPlan env field) (nestedPlan env field) := by
  rw [nestedPlan]
  split
  · exact .pure _
  · split
    · exact .pure _
    · exact .throw _

/-- Objects that fields hold are validated alike. -/
def AgreesDescent (rooms : Rooms) (descent : Option Descent) : Prop :=
  ∀ run, descent = some run → ∀ plan context, Agrees rooms (run plan context) (run plan context)

/-- The object that a field holds is merged alike if it is validated alike. -/
theorem agrees_onNested (field : FieldPlan) (context : Context) (plan : Option TypePlan)
    {descent : Option Descent} (agrees : AgreesDescent rooms descent) (into : Outcome) :
    Agrees rooms (onNested field context plan descent into)
      (onNested field context plan descent into) := by
  cases plan with
  | none => exact .pure _
  | some plan =>
    cases descent with
    | none => exact .pure _
    | some run => exact .bind (.holding (agrees run rfl _ _) _) fun _ => agrees_merge _ _ _

theorem agrees_onField (env : Environment) (scope : Scope) (failFast : Bool) (outcome : Outcome)
    {descent : Option Descent} (agrees : AgreesDescent rooms descent) (field : FieldPlan) :
    Agrees rooms (onField env scope failFast outcome descent field)
      (onField env scope failFast outcome descent field) := by
  refine .bind (agrees_nestedPlan env field) fun nested => ?_
  refine .bind (agrees_createField _ _) fun fresh => ?_
  refine .bind (agrees_onGroups _ _ _ _ _ _ _) fun content => .ite (.pure _) ?_
  exact .bind (agrees_onNested _ _ _ agrees _) fun _ => .pure _

theorem agrees_onNext (env : Environment) (scope : Scope) (failFast : Bool) (outcome : Outcome)
    {descent : String → Option Descent} (agrees : ∀ name, AgreesDescent rooms (descent name))
    (field : FieldPlan) :
    Agrees rooms (onNext env scope failFast outcome descent field)
      (onNext env scope failFast outcome descent field) :=
  .holding (.bind (agrees_checkpoint _) fun _ => agrees_onField _ _ _ _ (agrees _) _) _

/-- The fields are validated one after the other, each on the outcome that the others left. -/
theorem agrees_onFields (env : Environment) (scope : Scope) (failFast : Bool)
    {descent : String → Option Descent} (agrees : ∀ name, AgreesDescent rooms (descent name))
    (fields : List FieldPlan) (outcome : Outcome) :
    Agrees rooms (onFields env scope failFast descent fields outcome)
      (onFields env scope failFast descent fields outcome) := by
  induction fields generalizing outcome with
  | nil => exact .pure _
  | cons field fields ih =>
    refine .bind (agrees_onNext _ _ _ _ agrees _) fun result => ?_
    exact .bind (agrees_attach _ _) fun outcome => .ite (.pure _) (ih outcome)

theorem agrees_onContents (env : Environment) (scope : Scope) {descent : String → Option Descent}
    (agrees : ∀ name, AgreesDescent rooms (descent name)) (plan : TypePlan) (outcome : Outcome) :
    Agrees rooms (onContents env scope descent plan outcome)
      (onContents env scope descent plan outcome) := by
  refine .bind (agrees_onHook ⟨rfl, rfl⟩ _ rfl _ _) fun first => .ite (.pure _) ?_
  refine .bind (agrees_onFields _ _ _ agrees _ _) fun ⟨last, ended⟩ => ?_
  exact .ite (.pure _) (agrees_onHook ⟨rfl, rfl⟩ _ rfl _ _)

/-- The parts of an object agree one by one, its fields because their objects do. -/
theorem agrees_onObject (env : Environment) {descent : String → Option Descent}
    (agrees : ∀ name, AgreesDescent rooms (descent name)) (target : Object) (plan : TypePlan)
    (context : Context) :
    Agrees rooms (onObject env descent target plan context)
      (onObject env descent target plan context) := by
  refine .bind (agrees_checkpoint _) fun _ => ?_
  refine .bind (.mapM (agrees_lookup ⟨rfl, rfl⟩) _) fun services => ?_
  exact .bind (agrees_create _) fun outcome => agrees_onContents _ _ agrees _ _

end Run

/-- The validation of an object finds the same whatever the pools remember. -/
theorem Object.agrees_run {rooms : Rooms} (env : Environment) (object : Object) :
    ∀ plan context, Run.Agrees rooms (object.run env plan context) (object.run env plan context) := by
  refine Object.run_of_descents env (motive := fun run => ∀ plan context,
    Run.Agrees rooms (run plan context) (run plan context)) ?_ object
  intro descent target agrees plan context
  exact Run.agrees_onObject env agrees target plan context

end Assay
