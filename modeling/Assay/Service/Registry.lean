/-
Module: Assay.Service.Registry
Purpose: A provider that holds its services. They are registered under the names that types go by in
  declarations, so that a parameter finds its service however both of them qualify the type.
Main exports: ServiceRegistry, ServiceRegistry.register, ServiceRegistry.provide,
  ServiceRegistry.provideUnkeyed
-/
import Assay.Entries
import Assay.Service.Dependency

namespace Assay

structure ServiceRegistry where
  services : List (Dependency × Payload) := []
deriving DecidableEq, Repr, Inhabited

namespace ServiceRegistry

instance : EmptyCollection ServiceRegistry := ⟨⟨[]⟩⟩

/-- Registers a service under the type that the text names, in place of the one that was there. -/
def register (registry : ServiceRegistry) (type : String) (key : Option ServiceKey)
    (service : Payload) : ServiceRegistry :=
  ⟨Entries.set ⟨(TypeName.named type).name, key⟩ service registry.services⟩

def size (registry : ServiceRegistry) : Nat :=
  registry.services.length

/-- Answers for the services that are registered. -/
def provide (registry : ServiceRegistry) : Provider := fun dependency =>
  match registry.services.lookup dependency with
  | some service => .ok service
  | none => .error (.serviceNotFound dependency.type (dependency.key.map ServiceKey.toString))

/-- Answers for the services that are registered without a key, and knows of no keys. -/
def provideUnkeyed (registry : ServiceRegistry) : Provider := fun dependency =>
  match dependency.key with
  | none => registry.provide dependency
  | some _ => noServices dependency

/-- A registry as descriptions of values show it: its dependencies in the order of their texts. -/
def describe (registry : ServiceRegistry) : String :=
  let names := registry.services.map fun entry => entry.1.toString
  Text.record "ServiceRegistry" [
    ("services", Text.bracketed ((names.mergeSort (· ≤ ·)).map Text.quoted))]

end ServiceRegistry

end Assay
