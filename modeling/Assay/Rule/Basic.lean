/-
Module: Assay.Rule.Basic
Purpose: The contract of rules. A rule is a function of its call: of the value, the object around
  it, the services it declared, its surroundings and the outcome so far. What it gives back is an
  output, which may take steps before it is there, and a word on whether the rule cancels the
  validation.
Main exports: Argument, Call, Step, StreamItem, RuleOutput, Evaluation, Rule
-/
import Assay.Context
import Assay.Outcome.Pools
import Assay.Outcome.Report
import Assay.Signature
import Assay.Value

namespace Assay

/-- Where the argument for a declared parameter comes from. -/
inductive Argument where
  | context
  | outcome
  /-- The token under which the validation can be cancelled. -/
  | cancellation
  /-- A service, by its slot among those of the type. -/
  | dependency (slot : Nat)
deriving DecidableEq, Repr, Inhabited

def Argument.describe : Argument → String
  | .context => "Context"
  | .outcome => "Outcome"
  | .cancellation => "Cancellation"
  | .dependency slot => "Dependency(" ++ toString slot ++ ")"

/-- What a rule is evaluated on. -/
structure Call where
  /-- The value of the field, or the object itself for a hook. -/
  value : Value
  /-- The object that is validated. -/
  target : Object
  /-- Where the arguments of the rule come from, one for each declared parameter. -/
  arguments : List Argument
  /-- The services of the type, by slot. -/
  services : List Payload
  context : Context
  cancelled : Bool
  outcome : Outcome
deriving Inhabited

namespace Call

/-- The service that the declared parameter of that index asked for. -/
def dependency? (call : Call) (index : Nat) : Option Payload :=
  match call.arguments[index]? with
  | some (.dependency slot) => call.services[slot]?
  | _ => none

def describe (call : Call) : String :=
  Text.openRecord "Call" [
    ("value", call.value.describe),
    ("args", Text.bracketed (call.arguments.map Argument.describe)),
    ("context", call.context.describe)]

end Call

/-- What a rule does while its output is not there yet. -/
inductive Step where
  /-- Waits, and can go on at once. -/
  | wait
  | cancel
  /-- Waits for something that never comes. -/
  | hang
deriving DecidableEq, Repr, Inhabited

inductive StreamItem where
  /-- Something is done before the next message. -/
  | step (step : Step)
  | message (finding : Message)
deriving Inhabited

inductive RuleOutput where
  | nothing
  /-- A message, if there is something to report. -/
  | message (finding : Option Message)
  | messages (findings : List Message)
  /-- An outcome with fields of its own. -/
  | outcome (draft : Draft)
  /-- An output that is there after some steps. -/
  | pending (steps : List Step) (result : RuleOutput)
  /-- Messages that come one after the other. -/
  | streaming (items : List StreamItem)
deriving Inhabited

namespace RuleOutput

def isPending : RuleOutput → Bool
  | .pending _ _ | .streaming _ => true
  | _ => false

/-- An output as descriptions of values show it, with its outcome built out of `pools`. -/
def describe (pools : OutcomePools) : RuleOutput → String
  | .nothing => "Nothing"
  | .message finding => "Message(" ++ Text.optional (finding.map Message.describe) ++ ")"
  | .messages findings => "Messages(" ++ Text.bracketed (findings.map Message.describe) ++ ")"
  | .outcome draft => "Outcome(" ++ (pools.build draft).1.describe ++ ")"
  | .pending _ _ => "Pending(..)"
  | .streaming _ => "Streaming(..)"

end RuleOutput

structure Evaluation where
  output : RuleOutput
  /-- Whether the rule cancels the validation. -/
  cancels : Bool := false
  /-- What the rule writes into the journal of the validation. -/
  notes : List String := []
deriving Inhabited

structure Rule where
  /-- What the rule declares about itself. -/
  signature : Signature
  evaluate : Call → Evaluation

namespace Rule

/-- A rule that only looks at the value, and answers at once. -/
def ofValue (returns : String) (check : Value → RuleOutput) : Rule where
  signature := { returns }
  evaluate call := { output := check call.value }

/-- A rule of one type: on objects of other types it reports nothing. -/
def routine (type : TypeKey) (signature : Signature) (body : Call → Evaluation) : Rule where
  signature := signature
  evaluate call := if call.target.isOf type then body call else { output := .nothing }

end Rule

end Assay
