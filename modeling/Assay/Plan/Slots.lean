/-
Module: Assay.Plan.Slots
Purpose: The services that the rules of a type declare, collected into slots. A slot is reserved
  when its service is first declared and shared by all who declare it again. The context, the
  outcome so far and the token are given to rules without a slot.
Main exports: DependencySlots, DependencySlots.reserve, DependencySlots.arguments
-/
import Assay.Rule.Basic
import Assay.Service.Dependency

namespace Assay

/-- The services of a type, in the order in which they were first declared. -/
structure DependencySlots where
  dependencies : List Dependency := []
deriving DecidableEq, Repr, Inhabited

/-- The parameters that no provider is asked for, by the name of their type. -/
def implicitParameters : List (String × Argument) :=
  [("ValidationContext", .context), ("Outcome", .outcome), ("CancellationToken", .cancellation)]

/-- The key that a parameter asks for its service under. It must be a constant, and one that is a
key. -/
def ParsedParameter.serviceKey (parameter : ParsedParameter) (owner : String) :
    Except CompileError (Option ServiceKey) :=
  match parameter.key with
  | none => .ok none
  | some (.constant value) =>
    match ServiceKey.ofConstant? value with
    | some key => .ok (some key)
    | none => .error (.nonConstantKey owner parameter.type.name)
  | some (.expression _) => .error (.nonConstantKey owner parameter.type.name)

namespace DependencySlots

/-- The slot of a service, which is a new one if the service has none. -/
def reserve (slots : DependencySlots) (dependency : Dependency) : Nat × DependencySlots :=
  match slots.dependencies.idxOf? dependency with
  | some slot => (slot, slots)
  | none => (slots.dependencies.length, ⟨slots.dependencies ++ [dependency]⟩)

/-- Where the argument for a parameter comes from. -/
def argument (slots : DependencySlots) (owner : String) (parameter : ParsedParameter) :
    Except CompileError (Argument × DependencySlots) :=
  match implicitParameters.lookup parameter.type.name with
  | some implicit => .ok (implicit, slots)
  | none =>
    match parameter.serviceKey owner with
    | .error error => .error error
    | .ok key =>
      let (slot, slots) := slots.reserve ⟨parameter.type.name, key⟩
      .ok (.dependency slot, slots)

/-- Where the arguments for parameters come from, or the fault of the first parameter that has one.
The slots reserved before a fault stay. -/
def arguments (slots : DependencySlots) (owner : String) :
    List ParsedParameter → Except CompileError (List Argument) × DependencySlots
  | [] => (.ok [], slots)
  | parameter :: parameters =>
    match slots.argument owner parameter with
    | .error error => (.error error, slots)
    | .ok (argument, slots) =>
      let (more, slots) := slots.arguments owner parameters
      (more.map (argument :: ·), slots)

end DependencySlots

end Assay
