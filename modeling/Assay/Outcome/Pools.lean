/-
Module: Assay.Outcome.Pools
Purpose: Where outcomes come from and go to. An outcome is rented in three parts: a shell, a buffer
  for messages and a buffer for field outcomes, where a part without room is not rented. Releasing
  an outcome gives back its parts and those of the whole tree below it.
Main exports: OutcomePools, OutcomePools.create, OutcomePools.createField, OutcomePools.release,
  Draft, OutcomePools.build
-/
import Assay.Options
import Assay.Outcome.Basic
import Assay.Pool.Arrays
import Assay.Pool.Objects

namespace Assay

/-- A shell goes back without its buffers, which are pooled on their own. -/
instance : Poolable Outcome where
  reset _ := .bare
  isReusable _ := true
  footprint _ := 2 * headerSize

/-- The three pools that outcomes are made of. -/
structure OutcomePools where
  shells : ObjectPool Outcome
  messages : ArrayPool Message
  fields : ArrayPool FieldOutcome
  /-- How many messages an object is given room for. -/
  globalMessageCapacity : Nat
  /-- How many messages a field is given room for. -/
  fieldMessageCapacity : Nat

namespace OutcomePools

/-- How many idle shells are kept where the options do not say. -/
def defaultShells : Nat := 8

/-- Pools of the sizes that the options ask for, with buffers as `config` sets them up. -/
def ofOptions (options : Options) (config : ArrayPoolConfig := {}) : OutcomePools where
  shells := .ofConfig { maxRetained := options.outcomePoolSize.getD defaultShells } fun _ => .bare
  messages := .ofConfig config
  fields := .ofConfig config
  globalMessageCapacity := options.globalMessageCapacity
  fieldMessageCapacity := options.fieldMessageCapacity

def describe (pools : OutcomePools) : String :=
  Text.openRecord "OutcomePools" [
    ("global_message_capacity", toString pools.globalMessageCapacity),
    ("field_message_capacity", toString pools.fieldMessageCapacity)]

/-! ### Renting -/

def rentShell (pools : OutcomePools) : Outcome × OutcomePools :=
  let (shell, shells) := pools.shells.rent
  (shell, { pools with shells })

/-- Gives an outcome a buffer for `capacity` messages, unless that is none. -/
def equipMessages (pools : OutcomePools) (outcome : Outcome) (capacity : Nat) :
    Outcome × OutcomePools :=
  if capacity = 0 then (outcome, pools)
  else
    let (buffer, messages) := pools.messages.rent capacity
    ({ outcome with messages := buffer }, { pools with messages })

/-- Gives an outcome a buffer for `capacity` field outcomes, unless that is none. -/
def equipFields (pools : OutcomePools) (outcome : Outcome) (capacity : Nat) :
    Outcome × OutcomePools :=
  if capacity = 0 then (outcome, pools)
  else
    let (buffer, fields) := pools.fields.rent capacity
    ({ outcome with fields := buffer }, { pools with fields })

/-- Rents an outcome with room for so many messages and field outcomes. -/
def createSized (pools : OutcomePools) (messageCapacity fieldCapacity : Nat) :
    Outcome × OutcomePools :=
  let (shell, pools) := pools.rentShell
  let (outcome, pools) := pools.equipMessages shell messageCapacity
  pools.equipFields outcome fieldCapacity

/-- Rents the outcome of an object with room for the outcomes of `expected` fields. -/
def create (pools : OutcomePools) (expected : Nat) : Outcome × OutcomePools :=
  pools.createSized pools.globalMessageCapacity expected

/-- Rents the outcome of a field, labelled `path`, with room for `expected` outcomes below it. -/
def createField (pools : OutcomePools) (path : String) (expected : Nat) :
    FieldOutcome × OutcomePools :=
  let (outcome, pools) := pools.createSized pools.fieldMessageCapacity expected
  (⟨path, outcome⟩, pools)

/-! ### Releasing -/

/-- Gives back a buffer for messages, unless it has no room and was never rented. -/
def returnMessages (pools : OutcomePools) (buffer : Buffer Message) : OutcomePools :=
  if buffer.capacity = 0 then pools
  else { pools with messages := pools.messages.giveBack buffer }

/-- Gives back a buffer for field outcomes, unless it has no room and was never rented. -/
def returnFields (pools : OutcomePools) (buffer : Buffer FieldOutcome) : OutcomePools :=
  if buffer.capacity = 0 then pools
  else { pools with fields := pools.fields.giveBack buffer }

def returnShell (pools : OutcomePools) : OutcomePools :=
  { pools with shells := pools.shells.giveBack .bare }

mutual

/-- Releases an outcome: its messages, the outcomes below it, the buffer they were in, and the
shell. -/
def releaseTree : Outcome → OutcomePools → OutcomePools
  | ⟨messages, ⟨fields, capacity⟩⟩, pools =>
    ((releaseTrees fields (pools.returnMessages messages)).returnFields
      (.withCapacity capacity)).returnShell
termination_by structural outcome => outcome

/-- Releases field outcomes one after the other. -/
def releaseTrees : List FieldOutcome → OutcomePools → OutcomePools
  | [], pools => pools
  | ⟨_, outcome⟩ :: fields, pools => releaseTrees fields (releaseTree outcome pools)
termination_by structural fields => fields

end

/-- Releases an outcome with all that lies below it. -/
def release (pools : OutcomePools) (outcome : Outcome) : OutcomePools :=
  releaseTree outcome pools

/-- Releases field outcomes with all that lies below them. -/
def releaseFields (pools : OutcomePools) (fields : List FieldOutcome) : OutcomePools :=
  releaseTrees fields pools

/-! ### Moving -/

/-- Attaches a field outcome, or releases it where there is no room for it. -/
def attach (pools : OutcomePools) (outcome : Outcome) (field : FieldOutcome) :
    Outcome × OutcomePools :=
  (outcome.addFields [field], pools.releaseFields (outcome.fields.overflow [field]))

/-- Moves the contents of an outcome into another one and releases what does not fit. The second
outcome is what is left of the child. -/
def absorb (pools : OutcomePools) (into child : Outcome) (label : Option String) :
    Outcome × Outcome × OutcomePools :=
  let moved := into.absorb child label
  (moved.into, moved.drained, pools.releaseFields moved.refused)

/-- Moves the contents of an outcome into another one and releases the rest of it. -/
def merge (pools : OutcomePools) (into child : Outcome) (label : Option String) :
    Outcome × OutcomePools :=
  let (outcome, drained, pools) := pools.absorb into child label
  (outcome, pools.release drained)

end OutcomePools

/-! ### Drafts -/

mutual

/-- What a rule wants an outcome to be, before it is rented: how many fields it makes room for, and
the messages and fields it offers. -/
structure Draft where
  expected : Nat
  messages : List Message
  fields : List FieldDraft

structure FieldDraft where
  path : String
  draft : Draft

end

instance : Inhabited Draft := ⟨⟨0, [], []⟩⟩

namespace OutcomePools

mutual

/-- Fills a rented outcome with what a draft offers. -/
def fill : Draft → Outcome → OutcomePools → Outcome × OutcomePools
  | ⟨_, messages, fields⟩, outcome, pools =>
    fillFields fields (outcome.addMessages messages) pools
termination_by structural draft => draft

/-- Rents, fills and attaches the outcomes of fields one after the other. -/
def fillFields : List FieldDraft → Outcome → OutcomePools → Outcome × OutcomePools
  | [], outcome, pools => (outcome, pools)
  | ⟨path, draft⟩ :: fields, outcome, pools =>
    let (field, pools) := pools.createField path draft.expected
    let (filled, pools) := fill draft field.outcome pools
    let (outcome, pools) := pools.attach outcome ⟨path, filled⟩
    fillFields fields outcome pools
termination_by structural fields => fields

end

/-- Rents the outcome of an object and fills it as drafted. -/
def build (pools : OutcomePools) (draft : Draft) : Outcome × OutcomePools :=
  let (outcome, pools) := pools.create draft.expected
  fill draft outcome pools

end OutcomePools

end Assay
