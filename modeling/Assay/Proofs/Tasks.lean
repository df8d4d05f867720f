/-
Module: Assay.Proofs.Tasks
Purpose: The order in which things happen in a validation. It is made of tasks: an object is begun,
  its services are asked for, and its hooks and fields follow one after the other; a field is begun,
  its rules are called group by group, and the object that it holds follows. Every object and every
  field is begun with a look at the token, and so is every poll of an output that is yet to come.
  What stops a task stops everything.
Main exports: Polled, Comes, Task, Task.Takes, Task.Passes, Heeds, Heeds.append
-/
import Assay.Proofs.Course

namespace Assay

/-- What stopped a part of a validation, if anything did. -/
def Stop.of? {α : Type} : Except Stop α → Option Stop
  | .ok _ => none
  | .error stop => some stop

theorem Stop.of?_mapError {α : Type} (result : Except Stop α) (change : Stop → Stop) :
    Stop.of? (result.mapError change) = (Stop.of? result).map change := by
  cases result <;> rfl

theorem Stop.of?_eq_some {α : Type} {result : Except Stop α} {stop : Stop}
    (stopped : Stop.of? result = some stop) : result = .error stop := by
  cases result with
  | ok value => cases stopped
  | error other => rw [Option.some.inj stopped]

/-! ### Outputs that are yet to come -/

/-- Whether an output that has come this far is polled again for the rest of it. -/
def StreamItem.pauses : StreamItem → Bool
  | .message _ | .step .wait => true
  | .step .cancel | .step .hang => false

/-- The polls of an output, from one of them on. Each begins with a look at the token; then the rule
goes on as far as it can, in which it may cancel the validation. -/
inductive Polled : List StreamItem → List Event → Option Stop → Prop where
  /-- Under a cancelled token nothing is polled. -/
  | forbidden (items : List StreamItem) :
    Polled items [.checkpoint .poll true] (some (.error .cancelled))
  /-- The poll brings the output to its end. -/
  | last (cancels : Nat) :
    Polled (.replicate cancels (.step .cancel))
      (.checkpoint .poll false :: .replicate cancels .cancellation) none
  /-- The poll brings the next message, or the output has to be waited for. -/
  | again (cancels : Nat) {item : StreamItem} {items : List StreamItem} {events : List Event}
      {halt : Option Stop} (pauses : item.pauses = true) (rest : Polled items events halt) :
    Polled (.replicate cancels (.step .cancel) ++ item :: items)
      (.checkpoint .poll false :: (.replicate cancels .cancellation ++ events)) halt
  /-- The output is waited for in vain, or may not be waited for. -/
  | vain (cancels : Nat) {step : Step} {items : List StreamItem} (waits : step ≠ .cancel) :
    Polled (.replicate cancels (.step .cancel) ++ .step step :: items)
      (.checkpoint .poll false :: .replicate cancels .cancellation) (some .waiting)
  /-- Waiting in vain ends if the validation is cancelled. -/
  | freed (cancels : Nat) {items : List StreamItem} :
    Polled (.replicate cancels (.step .cancel) ++ .step .hang :: items)
      (.checkpoint .poll false :: (.replicate cancels .cancellation ++ [.checkpoint .poll true]))
      (some (.error .cancelled))

/-- What happens until an output is there, for a rule of that return shape. -/
inductive Comes (shape : ReturnShape) : RuleOutput → List Event → Option Stop → Prop where
  /-- The output is there, or the rule did not declare that it may have to be waited for. -/
  | there {output : RuleOutput}
      (unpolled : shape.delivery = .immediate ∨ output.isPending = false) :
    Comes shape output [] none
  | pending {steps : List Step} {result : RuleOutput} {events : List Event} {halt : Option Stop}
      (delayed : shape.delivery ≠ .immediate)
      (polled : Polled (steps.map .step) events halt) :
    Comes shape (.pending steps result) events halt
  | streaming {items : List StreamItem} {events : List Event} {halt : Option Stop}
      (delayed : shape.delivery ≠ .immediate) (polled : Polled items events halt) :
    Comes shape (.streaming items) events halt

/-- What a rule does besides answering: it writes into the journal and may cancel the validation. -/
def Evaluation.asides (evaluation : Evaluation) : List Event :=
  evaluation.notes.map .note ++ if evaluation.cancels then [.cancellation] else []

theorem Evaluation.mem_asides {evaluation : Evaluation} {event : Event}
    (aside : event ∈ evaluation.asides) : (∃ note, event = .note note) ∨ event = .cancellation := by
  rcases List.mem_append.1 aside with noted | cancelled
  · obtain ⟨note, _, rfl⟩ := List.mem_map.1 noted
    exact .inl ⟨note, rfl⟩
  · split at cancelled
    · exact .inr (List.mem_singleton.1 cancelled)
    · cases cancelled

/-! ### Tasks -/

/-- What there is to do in a validation. -/
inductive Task where
  /-- Validates an object by its plan. -/
  | object (target : Object) (plan : TypePlan) (context : Context)
  /-- Validates a field; a strict field is left at its first failing group. -/
  | field (scope : Scope) (strict : Bool) (field : FieldPlan)
  /-- Validates the object that a field holds, if it holds one. -/
  | held (scope : Scope) (field : FieldPlan)
  | call (scope : Scope) (value : Value) (call : PlannedCall)
  /-- Does one thing after the other; a strict sequence may be left early. -/
  | sequence (strict : Bool) (tasks : List Task)

/-- What a hook has to do. -/
def Task.hook (scope : Scope) (call : PlannedCall) : Task :=
  .call scope (.object scope.target) call

/-- What there is to do on a field that has been begun: its rules, group by group, and then the object
that it holds. -/
def FieldPlan.tasks (field : FieldPlan) (scope : Scope) : List Task :=
  field.groups.map (fun group =>
    .sequence false (group.map (.call scope (scope.target.field field.name)))) ++
      [.held scope field]

/-- What there is to do on an object whose services are there. -/
def TypePlan.tasks (plan : TypePlan) (scope : Scope) : List Task :=
  plan.before.toList.map (.hook scope) ++
    (plan.fields.map (.field scope plan.failFast) ++ plan.after.toList.map (.hook scope))

/-- A task takes these events, and is stopped if there is a stop. -/
inductive Task.Takes (env : Environment) : Task → List Event → Option Stop → Prop where
  /-- Under a cancelled token no object is begun. -/
  | forbidden {target : Object} {plan : TypePlan} {context : Context} :
    Takes env (.object target plan context) [.checkpoint (.object plan.type) true]
      (some (.error .cancelled))
  /-- The services are asked for up to the first one that cannot be had. -/
  | unprovided {target : Object} {plan : TypePlan} {context : Context}
      {asked unasked : List Dependency} {missing : Dependency} {error : ResolveError}
      (dependencies : plan.dependencies = asked ++ missing :: unasked)
      (provided : ∀ dependency ∈ asked, (env.provider dependency).isOk)
      (failed : env.provider missing = .error error) :
    Takes env (.object target plan context)
      (.checkpoint (.object plan.type) false :: (asked ++ [missing]).map .lookup)
      (some (.error (.configuration error)))
  /-- Every service is asked for once, in the order of the slots, and is there for all that follows. -/
  | object {target : Object} {plan : TypePlan} {context : Context} {services : List Payload}
      {events : List Event} {halt : Option Stop}
      (provided : services.map .ok = plan.dependencies.map env.provider)
      (contents : Takes env (.sequence plan.failFast
        (plan.tasks ⟨target, services, context.enterType plan.name⟩)) events halt) :
    Takes env (.object target plan context)
      (.checkpoint (.object plan.type) false :: (plan.dependencies.map .lookup ++ events)) halt
  /-- Under a cancelled token no field is begun. -/
  | forbiddenField {scope : Scope} {strict : Bool} {field : FieldPlan} :
    Takes env (.field scope strict field) [.checkpoint (.field field.name) true]
      (some (.error .cancelled))
  /-- The type that the field holds has no plan. -/
  | unplanned {scope : Scope} {strict : Bool} {field : FieldPlan} {type : TypeKey}
      {error : CompileError} (nested : field.nested = some type)
      (failed : env.planOf type = .error error) :
    Takes env (.field scope strict field) [.checkpoint (.field field.name) false]
      (some (.error (.compile error)))
  | field {scope : Scope} {strict : Bool} {field : FieldPlan} {events : List Event}
      {halt : Option Stop}
      (contents : Takes env (.sequence strict (field.tasks (scope.inside field))) events halt) :
    Takes env (.field scope strict field) (.checkpoint (.field field.name) false :: events) halt
  /-- The field holds no object, or none that has a plan of its own. -/
  | vacant {scope : Scope} {field : FieldPlan}
      (empty : field.nested = none ∨ ∀ child, scope.target.field field.name ≠ .object child) :
    Takes env (.held scope field) [] none
  | held {scope : Scope} {field : FieldPlan} {type : TypeKey} {plan : TypePlan} {child : Object}
      {events : List Event} {halt : Option Stop} (nested : field.nested = some type)
      (planned : env.planOf type = .ok plan)
      (holds : scope.target.field field.name = .object child)
      (validated : Takes env (.object child plan scope.context) events halt) :
    Takes env (.held scope field) events halt
  /-- A rule is evaluated once, and its output is polled if it has to be. -/
  | call {scope : Scope} {value : Value} {call : PlannedCall} {outcome : Outcome} {cancelled : Bool}
      {events : List Event} {halt : Option Stop}
      (comes : Comes call.shape
        (call.rule.evaluate (scope.input value outcome call cancelled)).output events halt) :
    Takes env (.call scope value call)
      (.evaluation call (scope.input value outcome call cancelled) ::
        ((call.rule.evaluate (scope.input value outcome call cancelled)).asides ++ events)) halt
  /-- Of what comes of a task, field outcomes may find no room. -/
  | refusing {task : Task} {events : List Event} (refused : List FieldOutcome)
      (taken : Takes env task events none) :
    Takes env task (events ++ refused.map .refusal) none
  | done {strict : Bool} : Takes env (.sequence strict []) [] none
  /-- A strict sequence is left between two tasks. -/
  | leave (tasks : List Task) : Takes env (.sequence true tasks) [] none
  | next {strict : Bool} {task : Task} {tasks : List Task} {events more : List Event}
      {halt : Option Stop} (first : Takes env task events none)
      (rest : Takes env (.sequence strict tasks) more halt) :
    Takes env (.sequence strict (task :: tasks)) (events ++ more) halt
  /-- Nothing is done after a task that stopped. -/
  | stop {strict : Bool} {task : Task} {tasks : List Task} {events : List Event} {stop : Stop}
      (stopped : Takes env task events (some stop)) :
    Takes env (.sequence strict (task :: tasks)) events (some stop)

/-- Whatever is dropped of a task that was not stopped is taken along. -/
theorem Task.Takes.refuse {env : Environment} {task : Task} {events : List Event}
    {halt : Option Stop} {refused : List FieldOutcome} (taken : Takes env task events halt)
    (goesOn : halt ≠ none → refused = []) :
    Takes env task (events ++ refused.map .refusal) halt := by
  cases halt with
  | none => exact .refusing refused taken
  | some stop =>
    rw [goesOn (Option.some_ne_none stop), List.map_nil, List.append_nil]
    exact taken

/-- A task by itself is a sequence. -/
theorem Task.Takes.alone {env : Environment} {strict : Bool} {task : Task} {events : List Event}
    {halt : Option Stop} (taken : Takes env task events halt) :
    Takes env (.sequence strict [task]) events halt := by
  cases halt with
  | none =>
    rw [← List.append_nil events]
    exact .next taken .done
  | some stop => exact .stop taken

/-- How far a part of a validation comes with tasks that others may follow: it stops in one of them,
it leaves the sequence of which they are part, or it goes through all of them. -/
inductive Task.Passes {α : Type} (env : Environment) (strict : Bool) (tasks : List Task)
    (left : α → Bool) (events : List Event) : Except Stop α → Prop where
  | stopped {stop : Stop}
      (taken : ∀ rest, Takes env (.sequence strict (tasks ++ rest)) events (some stop)) :
    Passes env strict tasks left events (.error stop)
  | ended {value : α} (isLeft : left value = true)
      (taken : ∀ rest, Takes env (.sequence strict (tasks ++ rest)) events none) :
    Passes env strict tasks left events (.ok value)
  | through {value : α} (stays : left value = false)
      (taken : ∀ {rest : List Task} {more : List Event} {halt : Option Stop},
        Takes env (.sequence strict rest) more halt →
          Takes env (.sequence strict (tasks ++ rest)) (events ++ more) halt) :
    Passes env strict tasks left events (.ok value)

namespace Task.Passes

variable {α : Type} {env : Environment} {strict : Bool} {task : Task} {tasks rest : List Task}
  {left : α → Bool} {events more : List Event} {value : α} {result : Except Stop α}

/-- Where all tasks are gone through, the sequence may be left if it is strict. -/
theorem settle (strictly : left value = true → strict = true)
    (taken : ∀ {rest : List Task} {more : List Event} {halt : Option Stop},
      Takes env (.sequence strict rest) more halt →
        Takes env (.sequence strict (tasks ++ rest)) (events ++ more) halt) :
    Passes env strict tasks left events (.ok value) := by
  cases isLeft : left value with
  | false => exact .through isLeft taken
  | true =>
    refine .ended isLeft fun rest => ?_
    cases strictly isLeft
    rw [← List.append_nil events]
    exact taken (.leave rest)

theorem nil (strictly : left value = true → strict = true) :
    Passes env strict [] left [] (.ok value) :=
  .settle strictly id

/-- One task is passed by what takes it. -/
theorem single (strictly : ∀ value, left value = true → strict = true)
    (taken : Takes env task events (Stop.of? result)) :
    Passes env strict [task] left events result := by
  cases result with
  | ok value => exact .settle (strictly value) (.next taken)
  | error stop => exact .stopped fun _ => .stop taken

theorem cons (first : Takes env task events none)
    (rest : Passes env strict tasks left more result) :
    Passes env strict (task :: tasks) left (events ++ more) result := by
  cases rest with
  | stopped taken => exact .stopped fun others => .next first (taken others)
  | ended isLeft taken => exact .ended isLeft fun others => .next first (taken others)
  | through stays taken =>
    refine .through stays fun {others later halt} last => ?_
    rw [List.append_assoc]
    exact .next first (taken last)

/-- A sequence that is left after its first task. -/
theorem leave (strictly : left value = true → strict = true) (isLeft : left value = true)
    (taken : Takes env task events none) :
    Passes env strict (task :: tasks) left events (.ok value) := by
  refine .ended isLeft fun rest => ?_
  cases strictly isLeft
  rw [← List.append_nil events]
  exact .next taken (.leave (tasks ++ rest))

theorem takes_of_stop {stop : Stop} (passes : Passes env strict tasks left events (.error stop)) :
    Takes env (.sequence strict (tasks ++ rest)) events (some stop) := by
  cases passes with
  | stopped taken => exact taken rest

theorem takes_of_left (passes : Passes env strict tasks left events (.ok value))
    (isLeft : left value = true) : Takes env (.sequence strict (tasks ++ rest)) events none := by
  cases passes with
  | ended _ taken => exact taken rest
  | through stays _ =>
    rw [stays] at isLeft
    cases isLeft

theorem takes_of_next {halt : Option Stop} (passes : Passes env strict tasks left events (.ok value))
    (stays : left value ≠ true) (last : Takes env (.sequence strict rest) more halt) :
    Takes env (.sequence strict (tasks ++ rest)) (events ++ more) halt := by
  cases passes with
  | ended isLeft _ => exact absurd isLeft stays
  | through _ taken => exact taken last

/-- A sequence without other tasks. -/
theorem takes (passes : Passes env strict tasks left events result) :
    Takes env (.sequence strict tasks) events (Stop.of? result) := by
  cases passes with
  | stopped taken =>
    rw [← List.append_nil tasks]
    exact taken []
  | ended _ taken =>
    rw [← List.append_nil tasks]
    exact taken []
  | through _ taken =>
    rw [← List.append_nil tasks, ← List.append_nil events]
    exact taken .done

end Task.Passes

/-! ### The token -/

/-- What an event saw of the token, if it looked at it. -/
def Event.sees? : Event → Option Bool
  | .checkpoint _ seen => some seen
  | .evaluation _ input => some input.cancelled
  | .lookup _ | .note _ | .cancellation | .refusal _ => none

/-- Where one list follows another, whatever comes before an item of the whole lies in one of them. -/
theorem append_eq_append_cons {α : Type} {first second before later : List α} {item : α}
    (split : first ++ second = before ++ item :: later) :
    (∃ rest, first = before ++ item :: rest ∧ later = rest ++ second) ∨
      ∃ rest, before = first ++ rest ∧ second = rest ++ item :: later := by
  rcases List.append_eq_append_iff.1 split with ⟨rest, here, there⟩ | ⟨rest, here, there⟩
  · exact .inr ⟨rest, here, there⟩
  · cases rest with
    | nil =>
      rw [List.append_nil] at here
      exact .inr ⟨[], by rw [here, List.append_nil], there.symm⟩
    | cons other rest =>
      cases there
      exact .inl ⟨rest, here, rfl⟩

/-- Events heed the token, which was cancelled before them if `start` says so: they see it as it is,
and nothing happens after a look that finds it cancelled. That look, and nothing else, makes a
validation end as cancelled. -/
structure Heeds (start : Bool) (events : List Event) (halt : Option Stop) : Prop where
  sees : ∀ before event later, events = before ++ event :: later → ∀ seen, event.sees? = some seen →
    seen = (start || before.any Event.cancels)
  last : ∀ before place later, events = before ++ .checkpoint place true :: later →
    later = [] ∧ halt = some (.error .cancelled)
  cause : halt = some (.error .cancelled) → ∃ before place, events = before ++ [.checkpoint place true]

namespace Heeds

variable {start : Bool} {events more : List Event} {halt : Option Stop}

/-- Events that do not look at the token heed it. -/
theorem blind (unseeing : ∀ event ∈ events, event.sees? = none)
    (other : halt ≠ some (.error .cancelled)) : Heeds start events halt where
  sees before event later split seen saw := by
    rw [unseeing event (by simp [split])] at saw
    cases saw
  last before place later split := by
    have saw := unseeing (.checkpoint place true) (by simp [split])
    cases saw
  cause same := absurd same other

/-- A single event heeds the token that it saw, if a look that found it cancelled was what stopped the
validation. -/
theorem single {event : Event} (saw : ∀ seen, event.sees? = some seen → seen = start)
    (halts : (∃ place, event = .checkpoint place true) ↔ halt = some (.error .cancelled)) :
    Heeds start [event] halt := by
  have alone {before later : List Event} {other : Event}
      (split : [event] = before ++ other :: later) : before = [] ∧ other = event ∧ later = [] := by
    rcases List.cons_eq_append_iff.1 split with ⟨rfl, same⟩ | ⟨rest, _, none⟩
    · cases same
      exact ⟨rfl, rfl, rfl⟩
    · simp at none
  constructor
  case sees =>
    intro before other later split seen sees
    obtain ⟨rfl, rfl, rfl⟩ := alone split
    rw [saw seen sees, List.any_nil, Bool.or_false]
  case last =>
    intro before place later split
    obtain ⟨rfl, same, rfl⟩ := alone split
    exact ⟨rfl, halts.1 ⟨place, same.symm⟩⟩
  case cause =>
    intro cancelled
    obtain ⟨place, rfl⟩ := halts.2 cancelled
    exact ⟨[], place, rfl⟩

theorem checkpoint (place : Checkpoint) (token : Bool) :
    Heeds token [.checkpoint place token]
      (if token then some (.error .cancelled) else none) := by
  apply single
  · intro seen saw
    cases saw
    rfl
  · cases token <;> simp

/-- What is done one after the other heeds the token if its parts do. -/
theorem append (first : Heeds start events none)
    (second : Heeds (start || events.any Event.cancels) more halt) :
    Heeds start (events ++ more) halt := by
  constructor
  case sees =>
    intro before event later split seen saw
    rcases append_eq_append_cons split with ⟨rest, here, _⟩ | ⟨rest, rfl, there⟩
    · exact first.sees before event rest here seen saw
    · rw [second.sees rest event later there seen saw, List.any_append, Bool.or_assoc]
  case last =>
    intro before place later split
    rcases append_eq_append_cons split with ⟨rest, here, _⟩ | ⟨rest, rfl, there⟩
    · cases (first.last before place rest here).2
    · exact second.last rest place later there
  case cause =>
    intro cancelled
    obtain ⟨before, place, same⟩ := second.cause cancelled
    exact ⟨events ++ before, place, by rw [same, List.append_assoc]⟩

end Heeds

end Assay
