/-
Module: Assay.Validator
Purpose: Validators, which keep the plans and the pools from one validation to the next. A
  validation may wait for outputs, or it answers at once and refuses types whose rules may have to
  be waited for.
Main exports: Validator, Request, Verdict, Validator.validate, Validator.validateNow,
  Validator.discard
-/
import Assay.Builtin.Catalog
import Assay.Plan.Cache
import Assay.Run.Object

namespace Assay

structure Validator where
  cache : PlanCache
  pools : OutcomePools

/-- What a caller gives to a validation. -/
structure Request where
  provider : Provider := noServices
  /-- The values that the caller attached. -/
  context : Context := {}
  /-- Whether the validation is cancelled before it starts. -/
  cancelled : Bool := false

/-- What comes of a validation. -/
structure Verdict where
  /-- The outcome, or why there is none. -/
  result : Except Stop Outcome
  /-- The validator as the validation leaves it. -/
  validator : Validator
  journal : List Event := []
  /-- Whether the validation was cancelled in the end. -/
  cancelled : Bool := false

namespace Validator

/-- A validator with pools of the sizes that the options ask for. -/
def ofOptions (schema : Schema) (catalog : RuleCatalog) (options : Options) : Validator where
  cache := { schema, catalog, options }
  pools := .ofOptions options

def plan (validator : Validator) (type : TypeKey) : Except CompileError (TypePlan × Validator) :=
  match validator.cache.planFor type with
  | .ok (plan, cache) => .ok (plan, { validator with cache })
  | .error error => .error error

/-- What the validations by a validator are given. -/
def environment (validator : Validator) (request : Request) (mayWait : Bool) : Environment where
  planOf := fun type => (validator.cache.planFor type).map Prod.fst
  provider := request.provider
  mayWait := mayWait

/-- What the validations by a validator start with. -/
def start (validator : Validator) (request : Request) : RunState where
  pools := validator.pools
  cancelled := request.cancelled

/-- Validates an object whose plan is made. -/
def run (validator : Validator) (plan : TypePlan) (object : Object) (request : Request)
    (mayWait : Bool) : Verdict :=
  let env := validator.environment request mayWait
  let (result, state) := object.run env plan request.context (validator.start request)
  { result
    validator := { validator with pools := state.pools }
    journal := state.journal
    cancelled := state.cancelled }

/-- Validates an object, waiting for outputs where that is needed. -/
def validate (validator : Validator) (object : Object) (request : Request) : Verdict :=
  match validator.plan object.type with
  | .error error => { result := .error (.error (.compile error)), validator }
  | .ok (plan, validator) => validator.run plan object request true

/-- The error of a validation that may not wait and had to. -/
def unwaited (type : TypeKey) : Stop → Stop
  | .waiting => .error (.requiresSuspension type.name)
  | stop => stop

/-- Validates an object at once. A type whose rules may have to be waited for, or that leads to one,
is refused before any rule is evaluated. -/
def validateNow (validator : Validator) (object : Object) (provider : Provider) : Verdict :=
  match validator.cache.isSynchronous object.type with
  | (.error error, cache) =>
    { result := .error (.error (.compile error)), validator := { validator with cache } }
  | (.ok false, cache) =>
    { result := .error (unwaited object.type .waiting), validator := { validator with cache } }
  | (.ok true, cache) =>
    match plan { validator with cache } object.type with
    | .error error =>
      { result := .error (.error (.compile error)), validator := { validator with cache } }
    | .ok (plan, validator) =>
      let verdict := validator.run plan object { provider } false
      { verdict with result := verdict.result.mapError (unwaited object.type) }

/-- Releases an outcome that is no longer needed. -/
def discard (validator : Validator) (outcome : Outcome) : Validator :=
  { validator with pools := validator.pools.release outcome }

end Validator

end Assay
