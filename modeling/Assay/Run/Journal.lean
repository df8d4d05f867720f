/-
Module: Assay.Run.Journal
Purpose: The course of a validation: what it looked up, which rules it evaluated on what, where it
  went on, where it was cancelled and what it had to drop. A validation carries its pools and the
  token with it, and keeps them and the journal also when it stops early.
Main exports: Checkpoint, Event, RunState, Stop, Run
-/
import Assay.Plan.Basic

namespace Assay

/-- A place where a validation looks at its token. -/
inductive Checkpoint where
  | object (type : TypeKey)
  | field (name : String)
  /-- Before an output is asked whether it is there. -/
  | poll
deriving DecidableEq, Repr, Inhabited

/-- Something that happens in a validation. -/
inductive Event where
  /-- The validation looks at its token. -/
  | checkpoint (place : Checkpoint) (cancelled : Bool)
  | lookup (dependency : Dependency)
  | evaluation (call : PlannedCall) (input : Call)
  /-- A rule writes into the journal. -/
  | note (text : String)
  /-- The validation is cancelled, by a rule or by a step it takes. -/
  | cancellation
  /-- A field outcome finds no room where it should go, and is dropped. -/
  | refusal (field : FieldOutcome)
deriving Inhabited

/-- What a validation carries with it. -/
structure RunState where
  pools : OutcomePools
  cancelled : Bool := false
  /-- What happened so far, first things first. -/
  journal : List Event := []

/-- Why a validation has no outcome. -/
inductive Stop where
  | error (error : ValidateError)
  /-- An output has to be waited for, and waiting is in vain or not allowed. -/
  | waiting
deriving DecidableEq, Repr

/-- A part of a validation. -/
abbrev Run := ExceptT Stop (StateM RunState)

namespace Run

def record (event : Event) : Run Unit :=
  modify fun state => { state with journal := state.journal ++ [event] }

/-- Goes on unless the validation is cancelled. -/
def checkpoint (place : Checkpoint) : Run Unit := do
  let state ← get
  record (.checkpoint place state.cancelled)
  if state.cancelled then throw (.error .cancelled)

def cancel : Run Unit := do
  modify fun state => { state with cancelled := true }
  record .cancellation

def withPools {α : Type} (use : OutcomePools → α × OutcomePools) : Run α :=
  modifyGet fun state =>
    let (result, pools) := use state.pools
    (result, { state with pools })

/-- Writes down the field outcomes that find no room. -/
def refuse (fields : List FieldOutcome) : Run Unit :=
  modify fun state => { state with journal := state.journal ++ fields.map .refusal }

def attach (outcome : Outcome) (field : FieldOutcome) : Run Outcome := do
  refuse (outcome.fields.overflow [field])
  withPools (·.attach outcome field)

/-- Moves the contents of an outcome into another one, under a label if there is one. -/
def merge (into child : Outcome) (label : Option String) : Run Outcome := do
  refuse (into.absorb child label).refused
  withPools (·.merge into child label)

def release (outcome : Outcome) : Run Unit :=
  modify fun state => { state with pools := state.pools.release outcome }

/-- Does something while an outcome is at hand, which is released if that stops. -/
def holding {α : Type} (outcome : Outcome) (action : Run α) : Run α :=
  tryCatch action fun stop => do
    release outcome
    throw stop

end Run

end Assay
