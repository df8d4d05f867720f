/-
Module: Assay.Proofs.Completion
Purpose: What a part of a validation delivers if nothing gets in its way: nobody cancels, every
  service that is asked for is there, and whatever is waited for comes. The rules are those of total
  correctness; a part that stops was cancelled or met with an event that does not let it go on.
Main exports: Event.proceeds, RunState.Passes, Run.Delivers, Run.delivers_invoke
-/
import Assay.Proofs.Invocation

namespace Assay

/-- Whether a step of an output that is yet to come ends by itself. -/
def Step.ends : Step → Bool
  | .hang => false
  | .wait | .cancel => true

/-- Whether the next piece of a stream comes. -/
def StreamItem.comes : StreamItem → Bool
  | .step taken => taken.ends
  | .message _ => true

/-- Whether an output is there at some time, with all that belongs to it. -/
def RuleOutput.completes : RuleOutput → Bool
  | .pending steps _ => steps.all Step.ends
  | .streaming items => items.all StreamItem.comes
  | .nothing | .message _ | .messages _ | .outcome _ => true

/-- Whether a validation can go on after an event: a service is there if it is asked for, and the
output of a rule that was evaluated comes. -/
def Event.proceeds (provider : Provider) : Event → Bool
  | .lookup dependency => (provider dependency).isOk
  | .evaluation call input => (call.rule.evaluate input).output.completes
  | .checkpoint _ _ | .note _ | .cancellation | .refusal _ => true

/-- Nothing gets in the way between two states. -/
structure RunState.Passes (rooms : Rooms) (provider : Provider) (state after : RunState)
    (events : List Event) : Prop where
  led : state.Leads rooms after events
  uncancelled : after.cancelled = false
  proceeds : ∀ event ∈ events, event.proceeds provider = true

namespace RunState.Passes

variable {rooms : Rooms} {provider : Provider} {state middle after : RunState}
  {events more : List Event}

/-- Cancelling cannot be undone. -/
theorem uncancelled_before (passes : state.Passes rooms provider after events) :
    state.cancelled = false := by
  have cancelled := passes.led.cancelled
  rw [passes.uncancelled] at cancelled
  exact (Bool.or_eq_false_iff.1 cancelled.symm).1

/-- What passes, passes through every state in between. -/
theorem split (first : state.Leads rooms middle events) (second : middle.Leads rooms after more)
    {all : List Event} (passes : state.Passes rooms provider after all) :
    state.Passes rooms provider middle events ∧ middle.Passes rooms provider after more := by
  have whole : all = events ++ more := passes.led.unique (first.trans second)
  subst whole
  have late : middle.Passes rooms provider after more :=
    ⟨second, passes.uncancelled, fun event member => passes.proceeds event (List.mem_append_right _ member)⟩
  refine ⟨⟨first, late.uncancelled_before, fun event member => ?_⟩, late⟩
  exact passes.proceeds event (List.mem_append_left _ member)

end RunState.Passes

namespace Run

variable {rooms : Rooms} {provider : Provider} {α β : Type}

/-- If nothing gets in the way of a part that starts on sound pools, it ends, and its answer is as
`post` says. -/
def Delivers (rooms : Rooms) (provider : Provider) (action : Run α) (post : α → Prop) : Prop :=
  ∀ (state after : RunState) (result : Except Stop α) (events : List Event),
    state.pools.Yields rooms → action state = (result, after) →
      state.Passes rooms provider after events → ∃ value, result = .ok value ∧ post value

namespace Delivers

variable {action : Run α} {next : α → Run β} {post : α → Prop} {postNext : β → Prop}

theorem pure {value : α} (holds : post value) : Delivers rooms provider (Pure.pure value) post := by
  intro state after result _ _ ran _
  cases ran
  exact ⟨value, rfl, holds⟩

theorem mono {weaker : α → Prop} (delivers : Delivers rooms provider action post)
    (weaken : ∀ value, post value → weaker value) : Delivers rooms provider action weaker := by
  intro state after result events yields ran passes
  obtain ⟨value, ended, holds⟩ := delivers state after result events yields ran passes
  exact ⟨value, ended, weaken value holds⟩

/-- Two parts deliver one after the other. The second one has to be regular, or it could make good
what got in the way of the first one. -/
theorem bind {mid : α → Prop} (first : Delivers rooms provider action mid)
    (regularFirst : Regular rooms action) (regular : ∀ value, Regular rooms (next value))
    (second : ∀ value, mid value → Delivers rooms provider (next value) postNext) :
    Delivers rooms provider (action >>= next) postNext := by
  intro state after result events yields ran passes
  obtain ⟨early, led⟩ := regularFirst state
  rw [bind_apply] at ran
  cases ended : action state with
  | mk outcome middle =>
    rw [ended] at ran led
    cases outcome with
    | error stop =>
      cases ran
      rw [led.unique passes.led] at led
      obtain ⟨value, same, _⟩ := first state after _ events yields ended passes
      cases same
    | ok value =>
      -- What happens in the whole is what happens in the two parts, so neither met with anything.
      obtain ⟨late, ledOn⟩ := regular value middle
      have finish : (next value middle).2 = after := congrArg Prod.snd ran
      rw [finish] at ledOn
      obtain ⟨passesFirst, passesNext⟩ := RunState.Passes.split led ledOn passes
      obtain ⟨_, same, holds⟩ := first state middle _ early yields ended passesFirst
      cases same
      exact second value holds middle after result late (led.pools yields) ran passesNext

/-- The state that a part looks at is not cancelled. -/
theorem get {next : RunState → Run α}
    (delivers : ∀ state, state.cancelled = false → Delivers rooms provider (next state) post) :
    Delivers rooms provider (MonadState.get >>= next) post := by
  intro state after result events yields ran passes
  exact delivers state passes.uncancelled_before state after result events yields ran passes

theorem holding (delivers : Delivers rooms provider action post) (regular : Regular rooms action)
    (outcome : Outcome) : Delivers rooms provider (Run.holding outcome action) post := by
  intro state after result events yields ran passes
  obtain ⟨early, led⟩ := regular state
  rw [holding_apply] at ran
  cases ended : action state with
  | mk found middle =>
    rw [ended] at ran led
    cases found with
    | ok value =>
      cases ran
      exact delivers state after _ events yields ended passes
    | error stop =>
      cases ran
      -- Releasing is no event: whatever stopped the part is still in the journal.
      have released : middle.Leads rooms { middle with pools := middle.pools.release outcome } [] :=
        .ofPools fun yields => yields.release outcome
      obtain ⟨passesFirst, _⟩ := RunState.Passes.split led released passes
      obtain ⟨_, same, _⟩ := delivers state middle _ early yields ended passesFirst
      cases same

theorem ite {condition : Prop} [Decidable condition] {one two : Run α}
    (first : condition → Delivers rooms provider one post)
    (second : ¬condition → Delivers rooms provider two post) :
    Delivers rooms provider (if condition then one else two) post := by
  split
  · exact first ‹_›
  · exact second ‹_›

/-- What is known of a part whenever it ends is known of what it delivers. -/
theorem tracked (delivers : Delivers rooms provider action fun _ => True)
    (tracks : Tracks rooms action fun value _ => post value) :
    Delivers rooms provider action post := by
  intro state after result events yields ran passes
  obtain ⟨value, rfl, _⟩ := delivers state after result events yields ran passes
  obtain ⟨_, _, holds⟩ := tracks state value after yields ran
  exact ⟨value, rfl, holds⟩

/-- A part that always ends delivers what is known of it whenever it ends. -/
theorem ofTracks (ends : ∀ state, ∃ value, (action state).1 = .ok value)
    (tracks : Tracks rooms action fun value _ => post value) :
    Delivers rooms provider action post := by
  refine tracked (fun state after result _ _ ran _ => ?_) tracks
  obtain ⟨value, ended⟩ := ends state
  rw [ran] at ended
  exact ⟨value, ended, trivial⟩

theorem forM {ι : Type} {body : ι → Run PUnit} (regular : ∀ item, Regular rooms (body item))
    (items : List ι)
    (delivers : ∀ item ∈ items, Delivers rooms provider (body item) fun _ => True) :
    Delivers rooms provider (items.forM body) fun _ => True := by
  induction items with
  | nil => exact .pure trivial
  | cons item items ih =>
    have later := ih fun other member => delivers other (List.mem_cons_of_mem _ member)
    exact .bind (delivers item List.mem_cons_self) (regular item)
      (fun _ => .forM regular items) fun _ _ => later

end Delivers

/-! ### Steps -/

/-- What is written into the journal lets the validation go on. -/
theorem delivers_record {event : Event} (calm : event.cancels = false) :
    Delivers rooms provider (record event) fun _ => event.proceeds provider = true := by
  intro state after result events _ ran passes
  have led : state.Leads rooms (record event state).2 [event] := leads_record calm state
  rw [ran] at led
  rw [record_apply] at ran
  cases ran
  have same : events = [event] := passes.led.unique led
  subst same
  exact ⟨(), rfl, passes.proceeds event List.mem_cons_self⟩

/-- Cancelling gets in the way of everything. -/
theorem delivers_cancel {post : Unit → Prop} : Delivers rooms provider cancel post := by
  intro state after result events _ ran passes
  rw [cancel_apply] at ran
  cases ran
  cases passes.uncancelled

theorem delivers_checkpoint (place : Checkpoint) :
    Delivers rooms provider (checkpoint place) fun _ => True := by
  intro state after result events _ ran passes
  rw [checkpoint_apply, passes.uncancelled_before] at ran
  cases ran
  exact ⟨(), rfl, trivial⟩

theorem delivers_create (expected : Nat) :
    Delivers rooms provider (withPools (·.create expected)) fun outcome =>
      outcome = rooms.object expected :=
  .ofTracks (fun _ => ⟨_, rfl⟩) ((tracks_create expected).mono fun _ _ created => created.1)

theorem delivers_createField (path : String) (expected : Nat) :
    Delivers rooms provider (withPools (·.createField path expected)) fun field =>
      field = ⟨path, rooms.field expected⟩ :=
  .ofTracks (fun _ => ⟨_, rfl⟩) ((tracks_createField path expected).mono fun _ _ created => created.1)

theorem delivers_attach (outcome : Outcome) (field : FieldOutcome) :
    Delivers rooms provider (attach outcome field) fun after => after = outcome.addFields [field] :=
  .ofTracks (fun _ => ⟨_, rfl⟩) ((tracks_attach outcome field).mono fun _ _ attached => attached.1)

theorem delivers_merge (into child : Outcome) (label : Option String) :
    Delivers rooms provider (merge into child label) fun after =>
      after = (into.absorb child label).into :=
  .ofTracks (fun _ => ⟨_, rfl⟩) ((tracks_merge into child label).mono fun _ _ merged => merged.1)

/-- A service that is asked for is there. -/
theorem delivers_lookup (env : Environment) (dependency : Dependency) :
    Delivers rooms env.provider (lookup env dependency) fun _ => True := by
  refine .bind (delivers_record rfl) (regular_record rfl) ?_ ?_
  · intro _
    split
    · exact .pure _
    · exact .throw _
  · intro _ proceeds
    rw [Event.proceeds] at proceeds
    split
    · exact .pure trivial
    · rename_i failed
      rw [failed] at proceeds
      cases proceeds

/-- All services of a type are there, in the order in which they are asked for. -/
theorem delivers_lookups (env : Environment) (dependencies : List Dependency) :
    Delivers rooms env.provider (dependencies.mapM (lookup env)) fun services =>
      services.map .ok = dependencies.map env.provider := by
  refine .tracked ?_ ((tracks_lookups env dependencies).mono fun _ _ asked => asked.1)
  induction dependencies with
  | nil => exact .pure trivial
  | cons dependency dependencies ih =>
    rw [List.mapM_cons]
    refine .bind (delivers_lookup env dependency) (regular_lookup env _) ?_ fun service _ => ?_
    · exact fun _ => .bind (.mapM (regular_lookup env) _) fun _ => .pure _
    · exact .bind ih (.mapM (regular_lookup env) _) (fun _ => .pure _) fun _ _ => .pure trivial

/-- A rule that is evaluated sees a token that is not cancelled, and its output comes. -/
theorem delivers_evaluate (scope : Scope) (value : Value) (outcome : Outcome)
    (call : PlannedCall) :
    Delivers rooms provider (evaluate scope value outcome call) fun output =>
      output = (call.rule.evaluate (scope.input value outcome call false)).output ∧
        output.completes = true := by
  refine .get fun state uncancelled => ?_
  rw [uncancelled]
  have noted (notes : List String) : Regular rooms (notes.forM fun note => record (.note note)) :=
    .forM (fun _ => regular_record rfl) notes
  have rest (evaluation : Evaluation) : Regular rooms (do
      evaluation.notes.forM fun note => record (.note note)
      if evaluation.cancels then cancel
      Pure.pure evaluation.output) :=
    .bind (noted _) fun _ => .ite (.bind regular_cancel fun _ => .pure _) (.pure _)
  refine .bind (delivers_record rfl) (regular_record rfl) (fun _ => rest _) fun _ completes => ?_
  have notes : Delivers rooms provider ((call.rule.evaluate
      (scope.input value outcome call false)).notes.forM fun note => record (.note note))
      fun _ => True :=
    .forM (fun _ => regular_record rfl) _ fun _ _ => (delivers_record rfl).mono fun _ _ => trivial
  refine .bind notes (noted _) ?_ fun _ _ => .ite (fun _ => ?_) fun _ => ?_
  · exact fun _ => .ite (.bind regular_cancel fun _ => .pure _) (.pure _)
  · exact .bind delivers_cancel regular_cancel (fun _ => .pure _) fun _ (cancelled : False) =>
      cancelled.elim
  · exact .pure ⟨rfl, completes⟩

/-! ### Calls -/

variable {env : Environment}

/-- A step that ends by itself is no obstacle where waiting is allowed. -/
theorem delivers_perform (mayWait : env.mayWait = true) {step : Step} (ends : step.ends = true) :
    Delivers rooms provider (perform env step) fun _ => True := by
  cases step with
  | wait =>
    have waits : Delivers rooms provider (suspend env) fun _ => True := by
      rw [suspend, if_pos mayWait]
      exact .pure trivial
    exact .bind waits (regular_suspend env) (fun _ => regular_checkpoint _) fun _ _ =>
      delivers_checkpoint _
  | cancel => exact delivers_cancel
  | hang => cases ends

theorem delivers_drain (mayWait : env.mayWait = true) (wanted : Bool) {items : List StreamItem}
    (comes : ∀ item ∈ items, item.comes = true) (into : Outcome) :
    Delivers rooms provider (drain env wanted items into) fun _ => True := by
  induction items generalizing into with
  | nil => exact .pure trivial
  | cons item items ih =>
    obtain ⟨own, others⟩ := List.forall_mem_cons.1 comes
    cases item with
    | step step =>
      exact .bind (delivers_perform mayWait own) (regular_perform env step)
        (fun _ => regular_drain _ _ _ _) fun _ _ => ih others into
    | message finding =>
      exact .bind (delivers_checkpoint _) (regular_checkpoint _)
        (fun _ => regular_drain _ _ _ _) fun _ _ => ih others _

theorem delivers_fold {declared : Contribution} (plain : declared ≠ .outcome) (output : RuleOutput)
    (into : Outcome) : Delivers rooms provider (fold declared output into) fun _ => True := by
  cases output with
  | nothing | message | messages | pending | streaming => exact .pure trivial
  | outcome draft =>
    refine .ofTracks (fun state => ?_) (.ofRegular (regular_fold _ _ _))
    simp only [fold, if_neg plain]
    exact ⟨_, rfl⟩

/-- An output that completes and is not declared to be an outcome adds the messages that it
contributes. -/
theorem delivers_receive (mayWait : env.mayWait = true) {call : PlannedCall}
    (plain : call.shape.contribution ≠ .outcome) {output : RuleOutput}
    (completes : output.completes = true) (into : Outcome) :
    Delivers rooms provider (receive env call output into) fun after =>
      after = into.addMessages (output.contribution rooms call.shape) := by
  have adds : Tracks rooms (receive env call output into) fun after _ =>
      after = into.addMessages (output.contribution rooms call.shape) := by
    apply (tracks_receive env call output into).mono
    intro after _ received
    rcases received with ⟨_, _, _, _, added⟩
    exact (added.eq_addMessages plain).1
  refine .tracked ?_ adds
  refine .ite (fun _ => delivers_fold plain _ _) fun _ => ?_
  cases output with
  | pending steps result =>
    have ends : ∀ step ∈ steps, step.ends = true := List.all_eq_true.1 completes
    have waits : Delivers rooms provider (steps.forM (perform env)) fun _ => True :=
      .forM (regular_perform env) steps fun step member => delivers_perform mayWait (ends step member)
    refine .bind (delivers_checkpoint _) (regular_checkpoint _) ?_ fun _ _ => ?_
    · exact fun _ => .bind (.forM (regular_perform env) _) fun _ => regular_fold _ _ _
    · exact .bind waits (.forM (regular_perform env) _) (fun _ => regular_fold _ _ _) fun _ _ =>
        delivers_fold plain _ _
  | streaming items =>
    have comes : ∀ item ∈ items, item.comes = true := List.all_eq_true.1 completes
    exact .bind (delivers_checkpoint _) (regular_checkpoint _) (fun _ => regular_drain _ _ _ _)
      fun _ _ => delivers_drain mayWait _ comes into
  | nothing | message | messages | outcome => exact delivers_fold plain _ _

/-- A call of a rule that declares no outcome adds the messages that it contributes. -/
theorem delivers_invoke (mayWait : env.mayWait = true) (scope : Scope) (value : Value)
    (outcome : Outcome) {call : PlannedCall} (plain : call.shape.contribution ≠ .outcome)
    (into : Outcome) :
    Delivers rooms provider (invoke env scope value outcome call into) fun after =>
      after = into.addMessages (call.contributed rooms (scope.input value outcome call false)) := by
  refine .bind (delivers_evaluate scope value outcome call) (regular_evaluate _ _ _ _)
    (fun output => regular_receive env call output into) fun output evaluated => ?_
  rcases evaluated with ⟨rfl, completes⟩
  exact delivers_receive mayWait plain completes into

end Run

end Assay
