/-
Module: Assay.Plan.Shape
Purpose: What the declared return type of a rule says about it: when its output is there, and what
  it may add to an outcome. Only the names of types count. The rules of a field run in five groups,
  which follow from the two.
Main exports: Delivery, Contribution, ReturnShape, ReturnShape.classify, ReturnShape.group
-/
import Assay.Text.Quoted
import Assay.TypeName.Basic

namespace Assay

/-- When the output of a rule is there. -/
inductive Delivery where
  | immediate
  | deferred
  | streamed
deriving DecidableEq, Repr, Inhabited

def Delivery.toString : Delivery → String
  | .immediate => "Sync"
  | .deferred => "SuspendableSingle"
  | .streamed => "SuspendableSequence"

instance : ToString Delivery := ⟨Delivery.toString⟩

/-- What the output of a rule may add to an outcome. -/
inductive Contribution where
  | nothing
  | message
  | messages
  /-- Messages and field outcomes. -/
  | outcome
deriving DecidableEq, Repr, Inhabited

def Contribution.toString : Contribution → String
  | .nothing => "None"
  | .message => "SingleMessage"
  | .messages => "MessageSequence"
  | .outcome => "CompositeOutcome"

instance : ToString Contribution := ⟨Contribution.toString⟩

/-- The classification of a return type. -/
structure ReturnShape where
  /-- When the output is there. -/
  delivery : Delivery
  /-- What the output may add. -/
  contribution : Contribution
  /-- Whether the output may be absent. -/
  nullable : Bool
deriving DecidableEq, Repr, Inhabited

namespace ReturnShape

/-- The names of types whose argument is there after some time. -/
def deferredNames : List String := ["Future", "BoxFuture", "LocalBoxFuture", "Task"]

/-- The names of types whose argument comes message by message. -/
def streamedNames : List String := ["Stream", "BoxStream", "LocalBoxStream"]

/-- The names of types that hold any number of their argument. -/
def sequenceNames : List String := ["Vec", "SmallVec", "VecDeque", "Iterator", "IntoIterator"]

/-- What a type may add that is there. -/
def contributionOf (type : TypeName) : Contribution :=
  if type.name = "Message" then .message
  else if type.name = "Outcome" then .outcome
  else if type.name = "Messages" then .messages
  else if type.name ∈ sequenceNames ∧ type.firstArg?.any (·.name == "Message") then .messages
  else .nothing

/-- When a type is there, and the type that is there then. -/
def deliveryOf (type : TypeName) : Delivery × Option TypeName :=
  if type.name ∈ deferredNames then (.deferred, type.firstArg?)
  else if type.name ∈ streamedNames then (.streamed, type.firstArg?)
  else (.immediate, some type)

/-- Classifies a return type. -/
def classify (type : TypeName) : ReturnShape :=
  let (delivery, delivered) := deliveryOf type
  { delivery
    contribution := (delivered.map contributionOf).getD .nothing
    nullable := delivered.any (·.nullable) }

/-- The number of groups. -/
def groupCount : Nat := 5

/-- The group in which a rule runs. -/
def group (shape : ReturnShape) : Nat :=
  match shape.delivery, shape.contribution with
  | .immediate, .outcome => 0
  | .immediate, .message | .immediate, .nothing => 1
  | .immediate, .messages => 2
  | .deferred, _ => 3
  | .streamed, _ => 4

/-- Every rule has its group. -/
theorem group_lt_groupCount (shape : ReturnShape) : shape.group < groupCount := by
  unfold group
  split <;> decide

/-- Whether a rule may have to be waited for. -/
def isSuspendable (shape : ReturnShape) : Bool :=
  shape.delivery != .immediate

def describe (shape : ReturnShape) : String :=
  Text.record "ReturnShape" [
    ("wrapper", shape.delivery.toString),
    ("shape", shape.contribution.toString),
    ("nullable", if shape.nullable then "true" else "false")]

end ReturnShape

end Assay
