/-
Module: Assay.Proofs.Stages
Purpose: The stages of an object that is not left at its first failure: the look at the token, the
  services, the hook before the fields, every field in its order, and the hook after them. Each field
  has an outcome of its own, which is attached before the next field starts.
Main exports: Run.Steps, Run.Stages, Run.stages_of_onObject, Run.Steps.last_eq
-/
import Assay.Proofs.Invocation

namespace Assay

namespace Run

variable {env : Environment} {scope : Scope} {descent : String → Option Descent}

/-- Fields are validated one after the other, and the outcome of each is attached. -/
inductive Steps (env : Environment) (scope : Scope) (descent : String → Option Descent) :
    List FieldPlan → Outcome → RunState → List FieldOutcome → Outcome → RunState → Prop where
  | nil (outcome : Outcome) (state : RunState) : Steps env scope descent [] outcome state [] outcome state
  | cons {field : FieldPlan} {fields : List FieldPlan} {outcome next last : Outcome}
      {state middle later finish : RunState} {own : FieldOutcome} {others : List FieldOutcome}
      (step : onNext env scope false outcome descent field state = (.ok own, middle))
      (attached : attach outcome own middle = (.ok next, later))
      (rest : Steps env scope descent fields next later others last finish) :
    Steps env scope descent (field :: fields) outcome state (own :: others) last finish

/-- An object that is not left early is validated in stages. -/
inductive Stages (env : Environment) (descent : String → Option Descent) (target : Object)
    (plan : TypePlan) (context : Context) (start : RunState) (first : Outcome)
    (own : List FieldOutcome) (outcome : Outcome) (finish : RunState) : Prop where
  | intro {services : List Payload} {fresh last : Outcome}
      {looked asked rented opened walked : RunState}
      (checkpoint : checkpoint (.object plan.type) start = (.ok (), looked))
      (lookups : plan.dependencies.mapM (lookup env) looked = (.ok services, asked))
      (create : withPools (·.create plan.fields.length) asked = (.ok fresh, rented))
      (before : onHook env ⟨target, services, context.enterType plan.name⟩ plan plan.before fresh
        rented = (.ok first, opened))
      (steps : Steps env ⟨target, services, context.enterType plan.name⟩ descent plan.fields first
        opened own last walked)
      (after : onHook env ⟨target, services, context.enterType plan.name⟩ plan plan.after last
        walked = (.ok outcome, finish))

/-- The outcome of a field is labelled with the field's name. -/
theorem path_of_onNext {failFast : Bool} {outcome : Outcome} {field : FieldPlan}
    {state after : RunState} {own : FieldOutcome}
    (ended : onNext env scope failFast outcome descent field state = (.ok own, after)) :
    own.path = field.name := by
  rw [onNext, holding_eq_ok, bind_eq_ok] at ended
  rcases ended with ⟨_, _, _, ended⟩
  rw [onField, bind_eq_ok] at ended
  rcases ended with ⟨_, _, _, ended⟩
  obtain ⟨_, _, _, ended⟩ := bind_eq_ok.1 ended
  obtain ⟨_, _, _, ended⟩ := bind_eq_ok.1 ended
  split at ended
  · cases ended
    rfl
  · obtain ⟨_, _, _, ended⟩ := bind_eq_ok.1 ended
    cases ended
    rfl

/-- Whatever a hook finds is added to the outcome of its object. -/
theorem eq_add_of_onHook {plan : TypePlan} {hook : Option PlannedCall} {outcome after : Outcome}
    {state finish : RunState}
    (ended : onHook env scope plan hook outcome state = (.ok after, finish)) :
    ∃ found fields, after = (outcome.addMessages found).addFields fields := by
  cases hook with
  | none =>
    cases ended
    exact ⟨[], [], by simp⟩
  | some call =>
    obtain ⟨scratch, middle, _, merged⟩ := bind_eq_ok.1 ended
    rw [merge_apply] at merged
    cases merged
    exact ⟨_, _, Outcome.absorb_into _ _ _⟩

/-- Every field has its step. -/
theorem steps_of_onFields {fields : List FieldPlan} {outcome last : Outcome} {ended : Bool}
    {state after : RunState}
    (walked : onFields env scope false descent fields outcome state = (.ok (last, ended), after)) :
    ended = false ∧ ∃ own, Steps env scope descent fields outcome state own last after := by
  induction fields generalizing outcome state with
  | nil =>
    cases walked
    exact ⟨rfl, [], .nil _ _⟩
  | cons field fields ih =>
    rw [onFields, bind_eq_ok] at walked
    rcases walked with ⟨own, middle, step, walked⟩
    obtain ⟨next, later, attached, walked⟩ := bind_eq_ok.1 walked
    obtain ⟨toTheEnd, others, rest⟩ := ih walked
    exact ⟨toTheEnd, own :: others, .cons step attached rest⟩

/-- An object whose plan is lenient goes through all stages. -/
theorem stages_of_onObject {target : Object} {plan : TypePlan} {context : Context}
    {start finish : RunState} {outcome : Outcome} (lenient : plan.failFast = false)
    (ended : onObject env descent target plan context start = (.ok outcome, finish)) :
    ∃ first own, Stages env descent target plan context start first own outcome finish := by
  rw [onObject, bind_eq_ok] at ended
  rcases ended with ⟨_, looked, checkpoint, ended⟩
  obtain ⟨services, asked, lookups, ended⟩ := bind_eq_ok.1 ended
  obtain ⟨fresh, rented, create, ended⟩ := bind_eq_ok.1 ended
  obtain ⟨first, opened, before, ended⟩ := bind_eq_ok.1 ended
  rw [lenient] at ended
  obtain ⟨⟨last, stopped⟩, walked, fields, ended⟩ := bind_eq_ok.1 ended
  obtain ⟨rfl, own, steps⟩ := steps_of_onFields fields
  exact ⟨first, own, .intro checkpoint lookups create before steps ended⟩

namespace Steps

variable {fields : List FieldPlan} {outcome last : Outcome} {state finish : RunState}
  {own : List FieldOutcome}

theorem paths (steps : Steps env scope descent fields outcome state own last finish) :
    own.map FieldOutcome.path = fields.map FieldPlan.name := by
  induction steps with
  | nil => rfl
  | cons step _ _ ih => rw [List.map_cons, List.map_cons, ih, path_of_onNext step]

/-- The outcomes of the fields are offered in their order. -/
theorem last_eq (steps : Steps env scope descent fields outcome state own last finish) :
    last = outcome.addFields own := by
  induction steps with
  | nil => rw [Outcome.addFields_nil]
  | cons _ attached _ ih =>
    rw [attach_apply] at attached
    cases attached
    rw [ih, ← Outcome.addFields_append, List.singleton_append]

end Steps

end Run

end Assay
