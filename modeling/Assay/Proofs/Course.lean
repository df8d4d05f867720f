/-
Module: Assay.Proofs.Course
Purpose: How the parts of a validation act on what it carries. A part appends events to the journal,
  cancels only by an event that says so, and keeps the rooms of the pools, whether it ends or stops.
Main exports: RunState.Leads, Run.Regular, Object.run_induction, Object.regular_run
-/
import Assay.Proofs.Rooms
import Assay.Run.Object

namespace Assay

/-- Whether an event cancels the validation. -/
def Event.cancels : Event → Bool
  | .cancellation => true
  | _ => false

/-- Whether a rule is evaluated that is called like this. -/
def Event.evaluates (like : PlannedCall → Call → Bool) : Event → Bool
  | .evaluation call input => like call input
  | _ => false

/-- A search for evaluations that succeeds has found one. -/
theorem exists_evaluation {like : PlannedCall → Call → Bool} {events : List Event}
    (happened : events.any (Event.evaluates like) = true) :
    ∃ call input, .evaluation call input ∈ events ∧ like call input = true := by
  obtain ⟨event, member, holds⟩ := List.any_eq_true.1 happened
  cases event with
  | evaluation call input => exact ⟨call, input, member, holds⟩
  | _ => cases holds

/-- One state follows another one after these events. -/
structure RunState.Leads (rooms : Rooms) (state after : RunState) (events : List Event) :
    Prop where
  journal : after.journal = state.journal ++ events
  cancelled : after.cancelled = (state.cancelled || events.any Event.cancels)
  pools : state.pools.Yields rooms → after.pools.Yields rooms

namespace RunState.Leads

variable {rooms : Rooms} {state middle after : RunState} {events more : List Event}

theorem refl (state : RunState) : state.Leads rooms state [] where
  journal := by simp
  cancelled := by simp
  pools := id

/-- The events of two parts follow each other. -/
theorem trans (first : state.Leads rooms middle events) (second : middle.Leads rooms after more) :
    state.Leads rooms after (events ++ more) where
  journal := by rw [second.journal, first.journal, List.append_assoc]
  cancelled := by rw [second.cancelled, first.cancelled, List.any_append, Bool.or_assoc]
  pools := second.pools ∘ first.pools

/-- Changing the pools is no event. -/
theorem ofPools {pools : OutcomePools} (kept : state.pools.Yields rooms → pools.Yields rooms) :
    state.Leads rooms { state with pools } [] where
  journal := by simp
  cancelled := by simp
  pools := kept

/-- The events between two states are determined by their journals. -/
theorem unique (one : state.Leads rooms after events) (two : state.Leads rooms after more) :
    events = more :=
  List.append_cancel_left (one.journal.symm.trans two.journal)

end RunState.Leads

/-- The surroundings of the calls on a field. -/
def Scope.inside (scope : Scope) (field : FieldPlan) : Scope :=
  { scope with context := scope.context.enterField field.name }

namespace Run

variable {rooms : Rooms} {α β : Type}

/-! ### Running the parts of a validation -/

theorem pure_apply (value : α) (state : RunState) : (pure value : Run α) state = (.ok value, state) :=
  rfl

/-- The second part is run only if the first ends. -/
theorem bind_apply (action : Run α) (next : α → Run β) (state : RunState) :
    (action >>= next) state =
      match action state with
      | (.ok value, after) => next value after
      | (.error stop, after) => (.error stop, after) := by
  simp only [bind, ExceptT.bind, ExceptT.mk, StateT.bind, ExceptT.bindCont]
  generalize action state = step
  obtain ⟨_ | _, _⟩ := step <;> rfl

/-- A stop passes through, with the outcome released. -/
theorem holding_apply (outcome : Outcome) (action : Run α) (state : RunState) :
    holding outcome action state =
      match action state with
      | (.ok value, after) => (.ok value, after)
      | (.error stop, after) =>
        (.error stop, { after with pools := after.pools.release outcome }) := by
  simp only [holding, tryCatch, tryCatchThe, MonadExceptOf.tryCatch, ExceptT.tryCatch, ExceptT.mk, bind, StateT.bind]
  generalize action state = step
  obtain ⟨_ | _, _⟩ := step <;> rfl

/-- A sequence ends where its second part ends, after its first part has ended. -/
theorem bind_eq_ok {action : Run α} {next : α → Run β} {state after : RunState} {result : β} :
    (action >>= next) state = (.ok result, after) ↔
      ∃ value middle, action state = (.ok value, middle) ∧
        next value middle = (.ok result, after) := by
  rw [bind_apply]
  constructor
  · intro ended
    split at ended
    · rename_i value middle first
      exact ⟨value, middle, first, ended⟩
    · cases ended
  · rintro ⟨value, middle, first, second⟩
    rw [first]
    exact second

/-- Holding an outcome matters only to what stops. -/
theorem holding_eq_ok {outcome : Outcome} {action : Run α} {state after : RunState} {value : α} :
    holding outcome action state = (.ok value, after) ↔ action state = (.ok value, after) := by
  rw [holding_apply]
  constructor
  · intro ended
    split at ended
    · rename_i first
      rw [first]
      exact ended
    · cases ended
  · intro ended
    rw [ended]

/-- A value is given without a change of the state. -/
theorem pure_eq_ok {value result : α} {state after : RunState} :
    (pure value : Run α) state = (.ok result, after) ↔ value = result ∧ state = after := by
  constructor
  · intro ended
    cases ended
    exact ⟨rfl, rfl⟩
  · rintro ⟨rfl, rfl⟩
    rfl

/-- Groups without a call do nothing. -/
theorem onGroups_of_empty (env : Environment) (scope : Scope) (failFast : Bool) (value : Value)
    (outcome : Outcome) {groups : List (List PlannedCall)} (into : Outcome)
    (empty : ∀ group ∈ groups, group = []) :
    onGroups env scope failFast value outcome groups into = pure into := by
  induction groups with
  | nil => rfl
  | cons group groups ih =>
    rw [List.forall_mem_cons] at empty
    rw [onGroups, empty.1, onGroup, List.foldlM_nil, pure_bind, ih empty.2, ite_self]

/-- A field whose plan is known is validated without looking for one. -/
theorem onField_of_nestedPlan {env : Environment} {field : FieldPlan} {plan : Option TypePlan}
    (planned : nestedPlan env field = pure plan) (scope : Scope) (failFast : Bool)
    (outcome : Outcome) (descent : Option Descent) :
    onField env scope failFast outcome descent field = (do
      let fresh ← withPools
        (·.createField field.name ((plan.map (·.fields.length)).getD field.childCapacity))
      let content ← onGroups env scope failFast (scope.target.field field.name) outcome field.groups
        fresh.outcome
      if failFast && !content.isSuccess then return ⟨field.name, content⟩
      let content ← onNested field scope.context plan descent content
      return ⟨field.name, content⟩) := by
  rw [onField, planned, pure_bind]

/-! ### What every part keeps -/

/-- A part of a validation only adds to the journal, cancels only by an event, and keeps the rooms
of the pools. -/
def Regular (rooms : Rooms) (action : Run α) : Prop :=
  ∀ state : RunState, ∃ events, state.Leads rooms (action state).2 events

namespace Regular

variable {action : Run α} {next : α → Run β}

/-- Whatever comes of a regular part, the pools keep their rooms. -/
theorem yields (regular : Regular rooms action) {state after : RunState} {result : Except Stop α}
    (start : state.pools.Yields rooms) (ran : action state = (result, after)) :
    after.pools.Yields rooms := by
  obtain ⟨events, led⟩ := regular state
  rw [ran] at led
  exact led.pools start

theorem pure (value : α) : Regular rooms (Pure.pure value : Run α) :=
  fun state => ⟨[], .refl state⟩

theorem throw (stop : Stop) : Regular rooms (MonadExcept.throw stop : Run α) :=
  fun state => ⟨[], .refl state⟩

/-- The events of a sequence are those of its first part, and those of its second if the first ends. -/
theorem bind (first : Regular rooms action) (second : ∀ value, Regular rooms (next value)) :
    Regular rooms (action >>= next) := by
  intro state
  obtain ⟨events, led⟩ := first state
  rw [bind_apply]
  split
  · rename_i value middle ended
    rw [ended] at led
    obtain ⟨more, ledOn⟩ := second value middle
    exact ⟨events ++ more, led.trans ledOn⟩
  · rename_i stop after stopped
    rw [stopped] at led
    exact ⟨events, led⟩

/-- Releasing an outcome is no event, and the pools keep their rooms. -/
theorem holding (outcome : Outcome) (regular : Regular rooms action) :
    Regular rooms (Run.holding outcome action) := by
  intro state
  obtain ⟨events, led⟩ := regular state
  rw [holding_apply]
  split
  · rename_i ended
    rw [ended] at led
    exact ⟨events, led⟩
  · rename_i stop after stopped
    rw [stopped] at led
    refine ⟨events ++ [], led.trans (.ofPools fun yields => ?_)⟩
    exact yields.release outcome

theorem ite {condition : Prop} [Decidable condition] {one two : Run α} (first : Regular rooms one)
    (second : Regular rooms two) : Regular rooms (if condition then one else two) := by
  split
  · exact first
  · exact second

theorem forM {ι : Type} {body : ι → Run PUnit} (regular : ∀ item, Regular rooms (body item))
    (items : List ι) : Regular rooms (items.forM body) := by
  induction items with
  | nil => exact .pure _
  | cons item items ih => exact .bind (regular item) fun _ => ih

theorem foldlM {ι : Type} {body : α → ι → Run α} (regular : ∀ value item, Regular rooms (body value item))
    (items : List ι) (value : α) : Regular rooms (items.foldlM body value) := by
  induction items generalizing value with
  | nil => exact .pure _
  | cons item items ih =>
    rw [List.foldlM_cons]
    exact .bind (regular value item) fun value => ih value

theorem mapM {ι : Type} {body : ι → Run α} (regular : ∀ item, Regular rooms (body item))
    (items : List ι) : Regular rooms (items.mapM body) := by
  induction items with
  | nil => exact .pure _
  | cons item items ih =>
    rw [List.mapM_cons]
    exact .bind (regular item) fun _ => .bind ih fun _ => .pure _

end Regular

/-! ### The steps of a validation -/

theorem record_apply (event : Event) (state : RunState) :
    record event state = (.ok (), { state with journal := state.journal ++ [event] }) := rfl

theorem cancel_apply (state : RunState) :
    cancel state =
      (.ok (), { state with cancelled := true, journal := state.journal ++ [.cancellation] }) := rfl

/-- A checkpoint writes down what it sees before it acts on it. -/
theorem checkpoint_apply (place : Checkpoint) (state : RunState) :
    checkpoint place state =
      (if state.cancelled then .error (.error .cancelled) else .ok (),
        { state with journal := state.journal ++ [.checkpoint place state.cancelled] }) := by
  rcases state with ⟨pools, cancelled, journal⟩
  cases cancelled <;> rfl

theorem withPools_apply (use : OutcomePools → α × OutcomePools) (state : RunState) :
    withPools use state =
      (.ok (use state.pools).1, { state with pools := (use state.pools).2 }) := rfl

/-- The outcome after attaching is a matter of the outcome alone; the pools see to what is refused. -/
theorem attach_apply (outcome : Outcome) (field : FieldOutcome) (state : RunState) :
    attach outcome field state =
      (.ok (outcome.addFields [field]),
        { state with
          pools := (state.pools.attach outcome field).2
          journal := state.journal ++ (outcome.fields.overflow [field]).map .refusal }) := rfl

/-- The outcome after merging is a matter of the two outcomes alone. -/
theorem merge_apply (into child : Outcome) (label : Option String) (state : RunState) :
    merge into child label state =
      (.ok (into.absorb child label).into,
        { state with
          pools := (state.pools.merge into child label).2
          journal := state.journal ++ (into.absorb child label).refused.map .refusal }) := rfl

/-- Refusing field outcomes cancels nothing. -/
theorem any_cancels_map_refusal (fields : List FieldOutcome) :
    (fields.map Event.refusal).any Event.cancels = false := by
  simp [Event.cancels]

/-- An event that is written down is all that happens. -/
theorem leads_record {event : Event} (calm : event.cancels = false) (state : RunState) :
    state.Leads rooms (record event state).2 [event] := by
  rw [record_apply]
  exact ⟨rfl, by simp [calm], id⟩

theorem leads_cancel (state : RunState) : state.Leads rooms (cancel state).2 [.cancellation] := by
  rw [cancel_apply]
  exact ⟨rfl, by simp [Event.cancels], id⟩

theorem leads_checkpoint (place : Checkpoint) (state : RunState) :
    state.Leads rooms (checkpoint place state).2 [.checkpoint place state.cancelled] := by
  rw [checkpoint_apply]
  exact ⟨rfl, by simp [Event.cancels], id⟩

/-- Work on the pools leaves no trace in the journal. -/
theorem leads_withPools {use : OutcomePools → α × OutcomePools}
    (kept : ∀ {pools : OutcomePools}, pools.Yields rooms → (use pools).2.Yields rooms)
    (state : RunState) : state.Leads rooms (withPools use state).2 [] := by
  rw [withPools_apply]
  exact .ofPools kept

theorem leads_release (outcome : Outcome) (state : RunState) :
    state.Leads rooms (release outcome state).2 [] :=
  .ofPools fun yields => yields.release outcome

/-- Attaching leaves one refusal for the field outcome that does not fit. -/
theorem leads_attach (outcome : Outcome) (field : FieldOutcome) (state : RunState) :
    state.Leads rooms (attach outcome field state).2
      ((outcome.fields.overflow [field]).map .refusal) := by
  rw [attach_apply]
  exact ⟨rfl, by rw [any_cancels_map_refusal, Bool.or_false], fun yields => yields.attach _ _⟩

/-- Merging leaves one refusal for each field outcome that does not fit. -/
theorem leads_merge (into child : Outcome) (label : Option String) (state : RunState) :
    state.Leads rooms (merge into child label state).2
      ((into.absorb child label).refused.map .refusal) := by
  rw [merge_apply]
  exact ⟨rfl, by rw [any_cancels_map_refusal, Bool.or_false], fun yields => yields.merge _ _ _⟩

/-! ### Every part is regular -/

theorem regular_record {event : Event} (calm : event.cancels = false) :
    Regular rooms (record event) :=
  fun state => ⟨_, leads_record calm state⟩

theorem regular_cancel : Regular rooms cancel :=
  fun state => ⟨_, leads_cancel state⟩

theorem regular_checkpoint (place : Checkpoint) : Regular rooms (checkpoint place) :=
  fun state => ⟨_, leads_checkpoint place state⟩

theorem regular_withPools {use : OutcomePools → α × OutcomePools}
    (kept : ∀ {pools : OutcomePools}, pools.Yields rooms → (use pools).2.Yields rooms) :
    Regular rooms (withPools use) :=
  fun state => ⟨_, leads_withPools kept state⟩

theorem regular_create (expected : Nat) : Regular rooms (withPools (·.create expected)) :=
  regular_withPools fun yields => yields.create _

theorem regular_createField (path : String) (expected : Nat) :
    Regular rooms (withPools (·.createField path expected)) :=
  regular_withPools fun yields => yields.createField _ _

theorem regular_release (outcome : Outcome) : Regular rooms (release outcome) :=
  fun state => ⟨_, leads_release outcome state⟩

theorem regular_attach (outcome : Outcome) (field : FieldOutcome) :
    Regular rooms (attach outcome field) :=
  fun state => ⟨_, leads_attach outcome field state⟩

theorem regular_merge (into child : Outcome) (label : Option String) :
    Regular rooms (merge into child label) :=
  fun state => ⟨_, leads_merge into child label state⟩

/-- Looking at the state changes nothing. -/
theorem regular_get : Regular rooms (get : Run RunState) :=
  fun state => ⟨[], .refl state⟩

theorem regular_lookup (env : Environment) (dependency : Dependency) :
    Regular rooms (lookup env dependency) := by
  refine .bind (regular_record rfl) fun _ => ?_
  split
  · exact .pure _
  · exact .throw _

/-- A rule that cancels does so by an event of its own. -/
theorem regular_evaluate (scope : Scope) (value : Value) (outcome : Outcome) (call : PlannedCall) :
    Regular rooms (evaluate scope value outcome call) := by
  refine .bind regular_get fun _ => .bind (regular_record rfl) fun _ => ?_
  refine .bind (.forM (fun _ => regular_record rfl) _) fun _ => ?_
  exact .ite (.bind regular_cancel fun _ => .pure _) (.pure _)

/-- Where nothing may be waited for, the validation stops without a word. -/
theorem regular_suspend (env : Environment) : Regular rooms (suspend env) :=
  .ite (.pure _) (.throw _)

/-- Of the steps, only the one that cancels does. -/
theorem regular_perform (env : Environment) (step : Step) : Regular rooms (perform env step) := by
  cases step with
  | wait => exact .bind (regular_suspend env) fun _ => regular_checkpoint _
  | cancel => exact regular_cancel
  | hang =>
    refine .bind (regular_suspend env) fun _ => .bind regular_get fun _ => ?_
    exact .ite (.bind (regular_checkpoint _) fun _ => .throw _) (.throw _)

/-- Each message of a stream comes after a look at the flag. -/
theorem regular_drain (env : Environment) (wanted : Bool) (items : List StreamItem)
    (into : Outcome) : Regular rooms (drain env wanted items into) := by
  induction items generalizing into with
  | nil => exact .pure _
  | cons item items ih =>
    cases item with
    | step step => exact .bind (regular_perform env step) fun _ => ih into
    | message finding => exact .bind (regular_checkpoint _) fun _ => ih _

/-- Only an outcome that is given back needs the pools, to be built and to be merged. -/
theorem regular_fold (declared : Contribution) (output : RuleOutput) (into : Outcome) :
    Regular rooms (fold declared output into) := by
  cases output with
  | nothing | message | messages | pending | streaming => exact .pure _
  | outcome draft =>
    refine .bind (regular_withPools fun yields => yields.build draft) fun child => ?_
    exact .ite (regular_merge _ _ _) (.bind (regular_release _) fun _ => .pure _)

/-- An output that is there later is waited for step by step and then folded in. -/
theorem regular_receive (env : Environment) (call : PlannedCall) (output : RuleOutput)
    (into : Outcome) : Regular rooms (receive env call output into) := by
  refine .ite (regular_fold _ _ _) ?_
  cases output with
  | pending steps result =>
    refine .bind (regular_checkpoint _) fun _ => ?_
    exact .bind (.forM (regular_perform env) _) fun _ => regular_fold _ _ _
  | streaming items => exact .bind (regular_checkpoint _) fun _ => regular_drain _ _ _ _
  | nothing | message | messages | outcome => exact regular_fold _ _ _

/-- A call is an evaluation and what its output does. -/
theorem regular_invoke (env : Environment) (scope : Scope) (value : Value) (outcome : Outcome)
    (call : PlannedCall) (into : Outcome) :
    Regular rooms (invoke env scope value outcome call into) :=
  .bind (regular_evaluate _ _ _ _) fun output => regular_receive env call output into

theorem regular_onGroup (env : Environment) (scope : Scope) (value : Value) (outcome : Outcome)
    (calls : List PlannedCall) (into : Outcome) :
    Regular rooms (onGroup env scope value outcome calls into) :=
  .foldlM (fun into call => .holding _ (regular_invoke env scope value outcome call into)) _ _

/-- The groups run in order, and a failure may leave the later ones out. -/
theorem regular_onGroups (env : Environment) (scope : Scope) (failFast : Bool) (value : Value)
    (outcome : Outcome) (groups : List (List PlannedCall)) (into : Outcome) :
    Regular rooms (onGroups env scope failFast value outcome groups into) := by
  induction groups generalizing into with
  | nil => exact .pure _
  | cons group groups ih =>
    exact .bind (regular_onGroup _ _ _ _ _ _) fun into => .ite (.pure _) (ih into)

/-- Looking for a plan is no event; it can only stop. -/
theorem regular_nestedPlan (env : Environment) (field : FieldPlan) :
    Regular rooms (nestedPlan env field) := by
  rw [nestedPlan]
  split
  · exact .pure _
  · split
    · exact .pure _
    · exact .throw _

/-- Objects that fields hold are validated by regular parts. -/
def RegularDescent (rooms : Rooms) (descent : Option Descent) : Prop :=
  ∀ run, descent = some run → ∀ plan context, Regular rooms (run plan context)

/-- What an object adds to the field that holds it is merged after its own events. -/
theorem regular_onNested (field : FieldPlan) (context : Context) (plan : Option TypePlan)
    {descent : Option Descent} (regular : RegularDescent rooms descent) (into : Outcome) :
    Regular rooms (onNested field context plan descent into) := by
  cases plan with
  | none => exact .pure _
  | some plan =>
    cases descent with
    | none => exact .pure _
    | some run => exact .bind (.holding _ (regular run rfl _ _)) fun _ => regular_merge _ _ _

/-- A field is its calls and the object that it holds. -/
theorem regular_onField (env : Environment) (scope : Scope) (failFast : Bool) (outcome : Outcome)
    {descent : Option Descent} (regular : RegularDescent rooms descent) (field : FieldPlan) :
    Regular rooms (onField env scope failFast outcome descent field) := by
  refine .bind (regular_nestedPlan env field) fun nested => ?_
  refine .bind (regular_createField _ _) fun fresh => ?_
  refine .bind (regular_onGroups _ _ _ _ _ _ _) fun content => .ite (.pure _) ?_
  exact .bind (regular_onNested _ _ _ regular _) fun _ => .pure _

theorem regular_onNext (env : Environment) (scope : Scope) (failFast : Bool) (outcome : Outcome)
    {descent : String → Option Descent} (regular : ∀ name, RegularDescent rooms (descent name))
    (field : FieldPlan) : Regular rooms (onNext env scope failFast outcome descent field) :=
  .holding _ (.bind (regular_checkpoint _) fun _ => regular_onField _ _ _ _ (regular _) _)

/-- The fields run in order, each with a checkpoint before it. -/
theorem regular_onFields (env : Environment) (scope : Scope) (failFast : Bool)
    {descent : String → Option Descent} (regular : ∀ name, RegularDescent rooms (descent name))
    (fields : List FieldPlan) (outcome : Outcome) :
    Regular rooms (onFields env scope failFast descent fields outcome) := by
  induction fields generalizing outcome with
  | nil => exact .pure _
  | cons field fields ih =>
    refine .bind (regular_onNext _ _ _ _ regular _) fun result => ?_
    exact .bind (regular_attach _ _) fun outcome => .ite (.pure _) (ih outcome)

/-- A hook fills an outcome of its own, which is merged then. -/
theorem regular_onHook (env : Environment) (scope : Scope) (plan : TypePlan)
    (hook : Option PlannedCall) (outcome : Outcome) :
    Regular rooms (onHook env scope plan hook outcome) := by
  cases hook with
  | none => exact .pure _
  | some call =>
    refine .bind (.holding _ (.bind (regular_create _) ?_)) ?_
    · exact fun scratch => .holding _ (regular_invoke _ _ _ _ _ _)
    · exact fun scratch => regular_merge _ _ _

/-- The two hooks stand around the fields. -/
theorem regular_onContents (env : Environment) (scope : Scope) {descent : String → Option Descent}
    (regular : ∀ name, RegularDescent rooms (descent name)) (plan : TypePlan) (outcome : Outcome) :
    Regular rooms (onContents env scope descent plan outcome) := by
  refine .bind (regular_onHook _ _ _ _ _) fun first => .ite (.pure _) ?_
  refine .bind (regular_onFields _ _ _ regular _ _) fun ⟨last, ended⟩ => ?_
  exact .ite (.pure _) (regular_onHook _ _ _ _ _)

/-- An object starts with a checkpoint and the lookups of its services. -/
theorem regular_onObject (env : Environment) {descent : String → Option Descent}
    (regular : ∀ name, RegularDescent rooms (descent name)) (target : Object) (plan : TypePlan)
    (context : Context) : Regular rooms (onObject env descent target plan context) := by
  refine .bind (regular_checkpoint _) fun _ => ?_
  refine .bind (.mapM (regular_lookup env) _) fun services => ?_
  exact .bind (regular_create _) fun outcome => regular_onContents _ _ regular _ _

end Run

/-- Values that can be validated are objects. -/
theorem Value.run?_eq_some {env : Environment} {value : Value} {run : Descent}
    (found : value.run? env = some run) : ∃ child, value = .object child ∧ run = child.run env := by
  cases value with
  | object child =>
    cases found
    exact ⟨child, rfl, rfl⟩
  | _ => cases found

/-- To prove something of the validation of every object, prove it for an object given that it holds
for the objects in its fields. -/
theorem Object.run_induction (env : Environment) {motive : Object → Descent → Prop}
    (step : ∀ object : Object,
      (∀ name child, object.field name = .object child → motive child (child.run env)) →
      motive object (Run.onObject env (fun name => (object.field name).run? env) object))
    (object : Object) : motive object (object.run env) := by
  rw [Object.run_eq]
  exact step object fun name child held => Object.run_induction env step child
termination_by sizeOf object
decreasing_by exact Object.sizeOf_lt_of_field_eq_object held

/-- The same for what can be said of a validation without its object: it is proved for an object
given that it holds for all that its fields lead to. -/
theorem Object.run_of_descents (env : Environment) {motive : Descent → Prop}
    (step : ∀ (descent : String → Option Descent) (target : Object),
      (∀ name run, descent name = some run → motive run) → motive (Run.onObject env descent target))
    (object : Object) : motive (object.run env) := by
  refine Object.run_induction env (motive := fun _ run => motive run) ?_ object
  intro object ih
  apply step
  intro name run found
  obtain ⟨child, held, rfl⟩ := Value.run?_eq_some found
  exact ih name child held

/-- The validation of an object is regular. -/
theorem Object.regular_run {rooms : Rooms} (env : Environment) (object : Object) :
    ∀ plan context, Run.Regular rooms (object.run env plan context) := by
  refine Object.run_of_descents env
    (motive := fun run => ∀ plan context, Run.Regular rooms (run plan context)) ?_ object
  intro descent target regular plan context
  exact Run.regular_onObject env regular target plan context

/-- The validation of a value is regular, if it is an object. -/
theorem Run.regularDescent_run? {rooms : Rooms} (env : Environment) (value : Value) :
    RegularDescent rooms (value.run? env) := by
  intro run found
  obtain ⟨child, _, rfl⟩ := Value.run?_eq_some found
  exact child.regular_run env

end Assay
