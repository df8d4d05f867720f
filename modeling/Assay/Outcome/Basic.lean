/-
Module: Assay.Outcome.Basic
Purpose: Outcomes, the trees that validation fills: the messages of an object or a field, and the
  labelled outcomes of what lies below it. Both lists are bounded, and what does not fit is dropped.
  A tree succeeds when no node of it holds a message.
Main exports: Outcome, FieldOutcome, Outcome.isSuccess, Outcome.allMessages, Outcome.field?,
  Outcome.addMessage, Outcome.addField, Outcome.absorb
-/
import Assay.Message.Basic
import Assay.Pool.Buffer

namespace Assay

mutual

/-- What validation found out about an object or a field. -/
structure Outcome where
  /-- The messages about the object or the field itself. -/
  messages : Buffer Message
  fields : Buffer FieldOutcome

/-- The outcome of a field, labelled with the dotted path to it. -/
structure FieldOutcome where
  path : String
  outcome : Outcome

end

namespace Outcome

/-- An outcome without room for anything. -/
def bare : Outcome :=
  ⟨.withCapacity 0, .withCapacity 0⟩

instance : Inhabited Outcome := ⟨bare⟩

instance : Inhabited FieldOutcome := ⟨⟨"", bare⟩⟩

/-! ### Views -/

mutual

/-- Whether there is no message here or below. -/
def isSuccess : Outcome → Bool
  | ⟨messages, ⟨fields, _⟩⟩ => messages.items.isEmpty && allSucceed fields
termination_by structural outcome => outcome

def allSucceed : List FieldOutcome → Bool
  | [] => true
  | ⟨_, outcome⟩ :: fields => outcome.isSuccess && allSucceed fields
termination_by structural fields => fields

end

mutual

/-- All messages of the tree: those of a node come before those of its fields, field after field. -/
def allMessages : Outcome → List Message
  | ⟨messages, ⟨fields, _⟩⟩ => messages.items ++ messagesOfFields fields
termination_by structural outcome => outcome

def messagesOfFields : List FieldOutcome → List Message
  | [] => []
  | ⟨_, outcome⟩ :: fields => outcome.allMessages ++ messagesOfFields fields
termination_by structural fields => fields

end

/-- Whether a path leads below another one: it goes on with a dot where the other ends. -/
def leadsBelow (path above : String) : Bool :=
  (above.toList ++ ['.']).isPrefixOf path.toList

mutual

/-- The first field outcome labelled with the path, looked for only where the path leads. -/
def field? (path : String) : Outcome → Option FieldOutcome
  | ⟨_, ⟨fields, _⟩⟩ => firstField? path fields
termination_by structural outcome => outcome

/-- The first field outcome labelled with the path in or below a list of fields. -/
def firstField? (path : String) : List FieldOutcome → Option FieldOutcome
  | [] => none
  | ⟨label, outcome⟩ :: fields =>
    if label = path then some ⟨label, outcome⟩
    else
      let below := if leadsBelow path label then outcome.field? path else none
      match below with
      | some found => some found
      | none => firstField? path fields
termination_by structural fields => fields

end

/-! ### Filling -/

def addMessages (outcome : Outcome) (offered : List Message) : Outcome :=
  { outcome with messages := outcome.messages.offer offered }

def addFields (outcome : Outcome) (offered : List FieldOutcome) : Outcome :=
  { outcome with fields := outcome.fields.offer offered }

def hasMessageRoom (outcome : Outcome) : Bool :=
  outcome.messages.size < outcome.messages.capacity

def hasFieldRoom (outcome : Outcome) : Bool :=
  outcome.fields.size < outcome.fields.capacity

/-- Appends a message if there is room for it, and tells whether there was. -/
def addMessage (outcome : Outcome) (message : Message) : Outcome × Bool :=
  (outcome.addMessages [message], outcome.hasMessageRoom)

/-- Appends a field outcome if there is room for it, and tells whether there was. -/
def addField (outcome : Outcome) (field : FieldOutcome) : Outcome × Bool :=
  (outcome.addFields [field], outcome.hasFieldRoom)

mutual

/-- The outcome with `name` and a dot put before the path of every field of its tree. -/
def under (name : String) : Outcome → Outcome
  | ⟨messages, ⟨fields, capacity⟩⟩ =>
    ⟨messages, ⟨fieldsUnder name fields, capacity⟩⟩
termination_by structural outcome => outcome

/-- The field outcomes with `name` and a dot put before every path of their trees. -/
def fieldsUnder (name : String) : List FieldOutcome → List FieldOutcome
  | [] => []
  | ⟨path, outcome⟩ :: fields =>
    ⟨name ++ "." ++ path, outcome.under name⟩ :: fieldsUnder name fields
termination_by structural fields => fields

end

/-- What comes of moving the contents of one outcome into another. -/
structure Absorption where
  into : Outcome
  /-- The outcome they were taken from, with its room and without its contents. -/
  drained : Outcome
  refused : List FieldOutcome

/-- Moves the messages and then the field outcomes of `child` to the end of those of `into`, as many
as fit. With a `label`, the field outcomes are put under it. -/
def absorb (into child : Outcome) (label : Option String) : Absorption :=
  let moved := match label with
    | some name => fieldsUnder name child.fields.items
    | none => child.fields.items
  { into := (into.addMessages child.messages.items).addFields moved
    drained := ⟨child.messages.clear, child.fields.clear⟩
    refused := into.fields.overflow moved }

def combine (into child : Outcome) : Absorption :=
  into.absorb child none

def combineNested (into child : Outcome) (name : String) : Absorption :=
  into.absorb child (some name)

end Outcome

/-- Whether the field and everything below it passed. -/
def FieldOutcome.isSuccess (field : FieldOutcome) : Bool :=
  field.outcome.isSuccess

end Assay
