/-
Module: Assay.Proofs.Invocation
Purpose: What a single call does. It is evaluated once, whatever its output is waited for, and adds
  to the outcome it is made for exactly the messages that it contributes. Messages that came with an
  outcome are added with the tree they sit in; only there can something find no room below.
Main exports: Run.Adds, Run.tracks_receive, Run.tracks_invoke, Run.Hooks, Run.tracks_onHook,
  Object.tracks_run_fits
-/
import Assay.Proofs.Contribution
import Assay.Proofs.Track

namespace Assay

namespace Run

variable {rooms : Rooms}

/-- Messages that a call contributed are added to an outcome, with the field outcomes that it brought.
They come as such, or in the tree of an outcome that is merged into it. -/
inductive Adds :
    Contribution → Outcome → List Message → List FieldOutcome → Outcome → List Event → Prop where
  | messages (declared : Contribution) (into : Outcome) (found : List Message) :
    Adds declared into found [] (into.addMessages found) []
  | tree (into child : Outcome) :
    Adds .outcome into child.allMessages child.fields.items (into.absorb child none).into
      ((into.absorb child none).refused.map .refusal)

namespace Adds

variable {declared : Contribution} {into after : Outcome} {found : List Message}
  {brought : List FieldOutcome} {events : List Event}

/-- A call that contributes nothing adds nothing. -/
theorem nothing (declared : Contribution) (into : Outcome) : Adds declared into [] [] into [] := by
  have added := Adds.messages declared into []
  rwa [Outcome.addMessages_nil] at added

/-- What is not declared to be an outcome comes as messages. -/
theorem eq_addMessages (adds : Adds declared into found brought after events)
    (plain : declared ≠ .outcome) : after = into.addMessages found ∧ events = [] := by
  cases adds with
  | messages => exact ⟨rfl, rfl⟩
  | tree => exact absurd rfl plain

/-- The field outcomes that a call brought are offered, and those that find no room are dropped. -/
theorem offers (adds : Adds declared into found brought after events) :
    after.fields = into.fields.offer brought ∧
      events = (into.fields.overflow brought).map .refusal := by
  cases adds with
  | messages => simp [Buffer.overflow]
  | tree => exact ⟨rfl, rfl⟩

end Adds

theorem tracks_fold (declared : Contribution) (output : RuleOutput) (into : Outcome) :
    Tracks rooms (fold declared output into) fun after events =>
      Adds declared into (output.carried rooms declared) (output.carriedFields rooms declared) after
        events := by
  cases output with
  | nothing | pending | streaming => exact .pure (.nothing declared into)
  | message finding =>
    rw [fold, RuleOutput.carried]
    split
    · exact .pure (.messages declared into _)
    · exact .pure (.nothing declared into)
  | messages findings =>
    rw [fold, RuleOutput.carried]
    split
    · exact .pure (.messages declared into _)
    · exact .pure (.nothing declared into)
  | outcome draft =>
    apply (tracks_build draft).bind
    intro child events built
    rcases built with ⟨rfl, rfl⟩
    rw [RuleOutput.carried, RuleOutput.carriedFields]
    split
    · rename_i composite
      rw [composite]
      apply (tracks_merge _ _ _).mono
      intro after events merged
      rcases merged with ⟨rfl, rfl⟩
      exact .tree into _
    · apply (tracks_release _).bind
      intro _ _ released
      rw [released]
      exact .pure (.nothing declared into)

/-- The messages of a stream are added one after the other, which adds all of them. -/
theorem tracks_drain (env : Environment) (wanted : Bool) (items : List StreamItem)
    (into : Outcome) :
    Tracks rooms (drain env wanted items into) fun after events =>
      after = into.addMessages (if wanted then items.filterMap StreamItem.message? else []) ∧
        ∀ event ∈ events, event.isAside = true := by
  induction items generalizing into with
  | nil =>
    rw [drain, List.filterMap_nil, ite_self]
    exact .pure ⟨(into.addMessages_nil).symm, by simp⟩
  | cons item items ih =>
    cases item with
    | step step =>
      refine (tracks_perform env step).bind fun _ events aside => (ih into).mono ?_
      rintro after more ⟨rfl, later⟩
      exact ⟨rfl, List.forall_mem_append.2 ⟨aside, later⟩⟩
    | message finding =>
      refine (tracks_checkpoint _).bind fun _ events looked => (ih _).mono ?_
      rintro after more ⟨rfl, later⟩
      constructor
      · cases wanted with
        | false => rfl
        | true => exact (into.addMessages_append [finding] _).symm
      · rw [looked]
        exact List.forall_mem_cons.2 ⟨rfl, later⟩

/-- What an output contributes is added when it is there. -/
theorem tracks_receive (env : Environment) (call : PlannedCall) (output : RuleOutput)
    (into : Outcome) :
    Tracks rooms (receive env call output into) fun after events =>
      ∃ asides more, events = asides ++ more ∧ (∀ event ∈ asides, event.isAside = true) ∧
        Adds call.shape.contribution into (output.contribution rooms call.shape)
          (output.brought rooms call.shape) after more := by
  have calm : ∀ event ∈ ([] : List Event), event.isAside = true := List.forall_mem_nil _
  unfold RuleOutput.contribution RuleOutput.brought
  refine .ite (fun immediate => ?_) fun delayed => ?_
  · rw [if_pos immediate, if_pos immediate]
    exact (tracks_fold _ _ _).mono fun after more adds => ⟨[], more, rfl, calm, adds⟩
  · rw [if_neg delayed, if_neg delayed]
    cases output with
    | pending steps result =>
      apply (tracks_checkpoint _).bind
      intro _ _ looked
      apply (Tracks.forM (tracks_perform env) steps).bind
      intro _ waits waited
      apply (tracks_fold _ _ _).mono
      intro after more adds
      refine ⟨.checkpoint .poll false :: waits, more, ?_, ?_, adds⟩
      · simp [looked]
      · exact List.forall_mem_cons.2 ⟨rfl, waited⟩
    | streaming items =>
      apply (tracks_checkpoint _).bind
      intro _ _ looked
      apply (tracks_drain env _ items into).mono
      intro after waits drained
      rcases drained with ⟨rfl, waited⟩
      refine ⟨.checkpoint .poll false :: waits, [], ?_, ?_, ?_⟩
      · simp [looked]
      · exact List.forall_mem_cons.2 ⟨rfl, waited⟩
      · have wanted : (if call.shape.contribution != .nothing then
            items.filterMap StreamItem.message? else []) =
              if call.shape.contribution = .nothing then [] else
                items.filterMap StreamItem.message? := by
          cases call.shape.contribution <;> rfl
        rw [wanted]
        exact .messages _ _ _
    | nothing | message | messages | outcome =>
      exact (tracks_fold _ _ _).mono fun after more adds => ⟨[], more, rfl, calm, adds⟩

/-- A call is evaluated and adds what it contributes. -/
theorem tracks_invoke (env : Environment) (scope : Scope) (value : Value) (outcome : Outcome)
    (call : PlannedCall) (into : Outcome) :
    Tracks rooms (invoke env scope value outcome call into) fun after events =>
      ∃ cancelled asides more,
        events = .evaluation call (scope.input value outcome call cancelled) :: (asides ++ more) ∧
        (∀ event ∈ asides, event.isAside = true) ∧
        Adds call.shape.contribution into
          (call.contributed rooms (scope.input value outcome call cancelled))
          (call.brought rooms (scope.input value outcome call cancelled)) after more := by
  apply (tracks_evaluate scope value outcome call).bind
  intro output _ evaluated
  rcases evaluated with ⟨cancelled, asides, rfl, rfl, aside⟩
  apply (tracks_receive env call _ into).mono
  intro after events received
  rcases received with ⟨waits, more, rfl, waited, adds⟩
  refine ⟨cancelled, asides ++ waits, more, ?_, ?_, adds⟩
  · simp
  · exact List.forall_mem_append.2 ⟨aside, waited⟩

/-- What a hook does to the outcome of its object: what it contributes is collected in an empty
outcome, which is merged. -/
inductive Hooks (rooms : Rooms) (scope : Scope) (plan : TypePlan) (outcome : Outcome) :
    Option PlannedCall → Outcome → List Event → Prop where
  | absent : Hooks rooms scope plan outcome none outcome []
  | invoked {call : PlannedCall} {cancelled : Bool} {asides more : List Event} {scratch : Outcome}
      (aside : ∀ event ∈ asides, event.isAside = true)
      (adds : Adds call.shape.contribution (rooms.object plan.fields.length)
        (call.contributed rooms (scope.input (.object scope.target) outcome call cancelled))
        (call.brought rooms (scope.input (.object scope.target) outcome call cancelled)) scratch more) :
    Hooks rooms scope plan outcome (some call) (outcome.absorb scratch none).into
      (.evaluation call (scope.input (.object scope.target) outcome call cancelled) ::
        (asides ++ more) ++ (outcome.absorb scratch none).refused.map .refusal)

theorem tracks_onHook (env : Environment) (scope : Scope) (plan : TypePlan)
    (hook : Option PlannedCall) (outcome : Outcome) :
    Tracks rooms (onHook env scope plan hook outcome) (Hooks rooms scope plan outcome hook) := by
  cases hook with
  | none => exact .pure .absent
  | some call =>
    apply (tracks_hooked plan (tracks_invoke env scope _ outcome call _)).mono
    intro after events hooked
    obtain ⟨scratch, own, invoked, rfl, rfl⟩ := hooked
    obtain ⟨cancelled, asides, more, rfl, aside, adds⟩ := invoked
    exact .invoked aside adds

/-- A hook adds messages, and field outcomes only if it declares an outcome. -/
theorem Hooks.eq_add {scope : Scope} {plan : TypePlan} {outcome after : Outcome}
    {hook : Option PlannedCall} {events : List Event}
    (hooks : Hooks rooms scope plan outcome hook after events) :
    ∃ found fields, after = (outcome.addMessages found).addFields fields ∧
      ((∀ call, hook = some call → call.shape.contribution ≠ .outcome) → fields = []) := by
  cases hooks with
  | absent => exact ⟨[], [], by simp, fun _ => rfl⟩
  | @invoked call cancelled asides more scratch _ adds =>
    refine ⟨scratch.messages.items, scratch.fields.items, rfl, fun plain => ?_⟩
    rw [(adds.eq_addMessages (plain call rfl)).1]
    rfl

/-! ### The room for field outcomes -/

/-- Whatever comes of the fields of an object is attached to its outcome. -/
theorem tracks_onFields_adds (env : Environment) (scope : Scope) (failFast : Bool)
    {descent : String → Option Descent} (regular : ∀ name, RegularDescent rooms (descent name))
    (fields : List FieldPlan) (outcome : Outcome) :
    Tracks rooms (onFields env scope failFast descent fields outcome) fun result _ =>
      ∃ own, result.1 = outcome.addFields own := by
  induction fields generalizing outcome with
  | nil => exact .pure ⟨[], (outcome.addFields_nil).symm⟩
  | cons field fields ih =>
    have next := regular_onNext env scope failFast outcome regular field
    apply (Tracks.ofRegular next).bind
    intro result _ _
    apply (tracks_attach _ _).bind
    intro middle _ attached
    rcases attached with ⟨rfl, _⟩
    refine .ite (fun _ => .pure ⟨[result], rfl⟩) fun _ => (ih _).mono ?_
    rintro _ _ ⟨own, added⟩
    exact ⟨result :: own, by rw [added, ← Outcome.addFields_append, List.singleton_append]⟩

/-- The outcome of an object has the room for field outcomes that it was given, and holds no more. -/
theorem tracks_onObject_fits (env : Environment) {descent : String → Option Descent}
    (regular : ∀ name, RegularDescent rooms (descent name)) (target : Object) (plan : TypePlan)
    (context : Context) :
    Tracks rooms (onObject env descent target plan context) fun outcome _ =>
      outcome.fields.capacity = rooms.fields plan.fields.length ∧ outcome.fields.Fits := by
  apply (tracks_checkpoint _).bind
  intro _ _ _
  apply (tracks_lookups env _).bind
  intro services _ _
  apply (tracks_create _).bind
  intro fresh _ created
  rcases created with ⟨rfl, _⟩
  have empty : (rooms.object plan.fields.length).fields.Fits := Nat.zero_le _
  apply (tracks_onHook env _ plan plan.before _).bind
  intro first _ hooks
  obtain ⟨found, brought, rfl, _⟩ := hooks.eq_add
  refine .ite (fun _ => .pure ⟨rfl, empty.offer brought⟩) fun _ => ?_
  refine (tracks_onFields_adds env _ _ regular _ _).bind fun ⟨last, ended⟩ _ walked => ?_
  rcases walked with ⟨own, added⟩
  simp only at added
  refine .ite (fun _ => .pure ?_) fun _ => ?_
  · rw [added]
    exact ⟨rfl, (empty.offer brought).offer own⟩
  · apply (tracks_onHook env _ plan plan.after last).mono
    intro outcome _ hooks
    obtain ⟨more, late, rfl, _⟩ := hooks.eq_add
    rw [added]
    exact ⟨rfl, ((empty.offer brought).offer own).offer late⟩

end Run

/-- The outcome of an object has no more field outcomes than there is room for where the fields of its
plan are expected. -/
theorem Object.tracks_run_fits {rooms : Rooms} (env : Environment) (object : Object) (plan : TypePlan)
    (context : Context) : Run.Tracks rooms (object.run env plan context) fun outcome _ =>
      outcome.fields.size ≤ rooms.fields plan.fields.length := by
  rw [Object.run_eq]
  apply (Run.tracks_onObject_fits env (fun _ => Run.regularDescent_run? env _) object plan context).mono
  intro outcome _ fits
  rw [← fits.1]
  exact fits.2

end Assay
