/-
Module: Assay.Run.Output
Purpose: From a call to what it adds to an outcome. An output that is yet to come is waited for only
  if the rule declared that it may be; before every look at it the token is looked at. What is there
  in the end counts only as far as the rule declared it.
Main exports: Environment, Scope, Run.evaluate, Run.fold, Run.receive, Run.invoke
-/
import Assay.Run.Journal

namespace Assay

/-- What a validation is given from outside. -/
structure Environment where
  planOf : TypeKey → Except CompileError TypePlan
  provider : Provider
  /-- Whether outputs may be waited for. -/
  mayWait : Bool

/-- The surroundings of the calls on one object. -/
structure Scope where
  target : Object
  services : List Payload
  context : Context

/-- What a call is evaluated on. -/
def Scope.input (scope : Scope) (value : Value) (outcome : Outcome) (call : PlannedCall)
    (cancelled : Bool) : Call where
  value := value
  target := scope.target
  arguments := call.arguments
  services := scope.services
  context := scope.context
  cancelled := cancelled
  outcome := outcome

namespace Run

def lookup (env : Environment) (dependency : Dependency) : Run Payload := do
  record (.lookup dependency)
  match env.provider dependency with
  | .ok service => return service
  | .error error => throw (.error (.configuration error))

/-- Evaluates a rule on a value. The rule sees the `outcome` of the object so far. -/
def evaluate (scope : Scope) (value : Value) (outcome : Outcome) (call : PlannedCall) :
    Run RuleOutput := do
  let input := scope.input value outcome call (← get).cancelled
  record (.evaluation call input)
  let evaluation := call.rule.evaluate input
  evaluation.notes.forM fun note => record (.note note)
  if evaluation.cancels then cancel
  return evaluation.output

/-! ### Waiting -/

/-- Waits, if that is allowed. -/
def suspend (env : Environment) : Run Unit :=
  if env.mayWait then pure () else throw .waiting

/-- Takes a step of an output that is yet to come. Waiting for something that never comes ends only
by cancellation. -/
def perform (env : Environment) : Step → Run Unit
  | .wait => do
    suspend env
    checkpoint .poll
  | .cancel => cancel
  | .hang => do
    suspend env
    if (← get).cancelled then checkpoint .poll
    throw .waiting

/-- Goes through a stream and adds its messages, or passes over them if they are not `wanted`. -/
def drain (env : Environment) (wanted : Bool) : List StreamItem → Outcome → Run Outcome
  | [], into => pure into
  | .step step :: items, into => do
    perform env step
    drain env wanted items into
  | .message message :: items, into => do
    checkpoint .poll
    drain env wanted items (if wanted then into.addMessages [message] else into)

/-! ### Adding -/

/-- Adds an output that is there, as far as the rule declared it. -/
def fold (declared : Contribution) (output : RuleOutput) (into : Outcome) : Run Outcome :=
  match output with
  | .nothing | .pending _ _ | .streaming _ => pure into
  | .message finding => pure (if declared = .message then into.addMessages finding.toList else into)
  | .messages findings => pure (if declared = .messages then into.addMessages findings else into)
  | .outcome draft => do
    let child ← withPools (·.build draft)
    if declared = .outcome then merge into child none
    else
      release child
      return into

/-- Adds the output of a call, waiting for it if that is declared. An output that a rule did not
declare to be waited for is passed over. -/
def receive (env : Environment) (call : PlannedCall) (output : RuleOutput) (into : Outcome) :
    Run Outcome :=
  let declared := call.shape.contribution
  if call.shape.delivery = .immediate then fold declared output into
  else match output with
    | .pending steps result => do
      checkpoint .poll
      steps.forM (perform env)
      fold declared result into
    | .streaming items => do
      checkpoint .poll
      drain env (declared != .nothing) items into
    | ready => fold declared ready into

def invoke (env : Environment) (scope : Scope) (value : Value) (outcome : Outcome)
    (call : PlannedCall) (into : Outcome) : Run Outcome := do
  let output ← evaluate scope value outcome call
  receive env call output into

end Run

end Assay
