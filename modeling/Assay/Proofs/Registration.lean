/-
Module: Assay.Proofs.Registration
Purpose: Services that are registered are found. A service is registered under the name that the text of
  its type goes by, and asked for under the name that is read out of a parameter's text. Where the text
  spells its type out these are the same, and a rule with such a parameter gets what was registered last;
  where it does not, a registration and a parameter with the same text may miss each other.
Main exports: Registration, ServiceRegistry.registerAll, Validator.registered_found,
  Validator.registered_missed
-/
import Assay.Proofs.Provision
import Assay.Proofs.Spelling
import Assay.Service.Registry

namespace Assay

/-! ### Registrations -/

/-- What is registered: a service, under a type's text and perhaps a key. -/
structure Registration where
  type : String
  key : Option ServiceKey := none
  service : Payload

namespace ServiceRegistry

/-- Registers services one after the other. -/
def registerAll (registry : ServiceRegistry) (registrations : List Registration) : ServiceRegistry :=
  registrations.foldl (fun sofar entry => sofar.register entry.type entry.key entry.service) registry

theorem provide_register (registry : ServiceRegistry) (type : String) (key : Option ServiceKey)
    (service : Payload) (dependency : Dependency) :
    (registry.register type key service).provide dependency =
      if dependency = ⟨TypeName.simpleName type, key⟩ then .ok service
      else registry.provide dependency := by
  by_cases same : dependency = ⟨TypeName.simpleName type, key⟩ <;>
    simp [provide, register, Entries.lookup_set, TypeName.named, same]

theorem provide_registerAll {dependency : Dependency} {registrations : List Registration}
    (others : ∀ entry ∈ registrations, dependency ≠ ⟨TypeName.simpleName entry.type, entry.key⟩)
    (registry : ServiceRegistry) :
    (registry.registerAll registrations).provide dependency = registry.provide dependency := by
  induction registrations generalizing registry with
  | nil => rfl
  | cons entry registrations ih =>
    rw [List.forall_mem_cons] at others
    have later := ih others.2 (registry.register entry.type entry.key entry.service)
    rw [provide_register, if_neg others.1] at later
    exact later

end ServiceRegistry

/-! ### Parameters -/

/-- A signature is read parameter by parameter. -/
theorem Signature.getElem?_parse {signature : Signature} {parsed : ParsedSignature}
    (read : signature.parse = .ok parsed) {index : Nat} {parameter : Parameter}
    (declared : signature.parameters[index]? = some parameter) {type : TypeName}
    (accepted : TypeName.parse parameter.type = .ok type) :
    parsed.parameters[index]? = some ⟨type, parameter.key⟩ := by
  obtain ⟨parameters, each, read⟩ := except_bind_eq_ok read
  obtain ⟨returns, _, read⟩ := except_bind_eq_ok read
  cases read
  have related := getElem?_of_forall₂ (forall₂_of_mapM each) index
  rw [declared] at related
  cases found : parameters[index]? with
  | none => simp [found] at related
  | some one =>
    rw [found] at related
    cases related with
    | some same =>
      simp only [Parameter.parse, accepted] at same
      cases same
      rfl

/-- Whether a parameter is declared by that text, under that text as its key. -/
def Parameter.isKeyed (parameter : Parameter) (type key : String) : Bool :=
  match parameter.key with
  | some (.constant (.text chars)) => parameter.type == type && chars == key
  | _ => false

theorem Parameter.eq_of_isKeyed {parameter : Parameter} {type key : String}
    (keyed : parameter.isKeyed type key = true) :
    parameter = ⟨type, some (.constant (.text key))⟩ := by
  obtain ⟨text, expression⟩ := parameter
  unfold Parameter.isKeyed at keyed
  split at keyed
  · rename_i chars same
    simp only [Bool.and_eq_true, beq_iff_eq] at keyed same
    rw [same, keyed.1, keyed.2]
  · cases keyed

namespace Validator

variable {validator : Validator}

/-- In every answer, rules get what they declare. -/
theorem supplied_of_answer (reachable : validator.Reachable) {object : Object} {way : Way}
    {call : PlannedCall} {input : Call}
    (happened : .evaluation call input ∈ (validator.answer object way).journal) :
    call.Supplied way.request.provider input := by
  cases validator.answers object way with
  | refused prepared journal result => simp [journal] at happened
  | @taken plan cache halt prepared heeds takes result =>
    obtain ⟨sound, family, kept⟩ := reachable.sound.prepare prepared
    have compiled := family.compile_of_get? sound (kept plan rfl)
    have wired (type : TypeKey) (plan : TypePlan)
        (compiled : validator.cache.compile type = .ok plan) : plan.type = type ∧ plan.Wired :=
      ⟨PlanCache.type_of_compile compiled, PlanCache.wired_of_compile compiled⟩
    have provides := takes.provides (fun _ _ => compile_of_planOf sound family) wired
      (.object (by rwa [PlanCache.type_of_compile compiled]))
    exact provides.supplied call input happened

/-- A service that is registered under a text that spells its type out is found by every rule that
declares a parameter with that text, under the key if there is one, whatever was registered before and
whatever is registered later under other names or keys: the parameter gets a slot, the slot's service
can be had, and in every answer the rule gets it. -/
theorem registered_found {parameter : Parameter} {type : TypeName}
    (accepted : TypeName.parse parameter.type = .ok type)
    (declared : implicitParameters.lookup type.name = none)
    (plain : TypeName.isPlain parameter.type = true) {key : Option ServiceKey}
    (keyed : parameter.key = key.map fun key => .constant key.toConstant)
    (registry : ServiceRegistry) (service : Payload) {later : List Registration}
    (others : ∀ entry ∈ later,
      TypeName.simpleName entry.type = TypeName.simpleName parameter.type → entry.key ≠ key) :
    let provider := ((registry.register parameter.type key service).registerAll later).provide
    (∀ (slots : DependencySlots) (owner : String), ∃ slot after,
      slots.argument owner ⟨type, parameter.key⟩ = .ok (.dependency slot, after) ∧
      after.dependencies[slot]? = some ⟨type.name, key⟩) ∧
    provider ⟨type.name, key⟩ = .ok service ∧
    ∀ (validator : Validator), validator.Reachable → ∀ object (way : Way),
      way.request.provider = provider →
        ∀ call input, .evaluation call input ∈ (validator.answer object way).journal →
          ∀ index, call.rule.signature.parameters[index]? = some parameter →
            ∀ {σ : Type} (view : Payload → Option σ), input.service? view index = view service := by
  intro provider
  have called := TypeName.simpleName_eq_name accepted plain
  have asked (owner : String) :
      ParsedParameter.serviceKey ⟨type, parameter.key⟩ owner = .ok key := by
    rw [keyed]
    cases key with
    | none => rfl
    | some key =>
      have known := ServiceKey.ofConstant?_eq_some_iff.2 (rfl : key.toConstant = key.toConstant)
      simp [ParsedParameter.serviceKey, known]
  have provided : provider ⟨type.name, key⟩ = .ok service := by
    simp only [provider]
    rw [ServiceRegistry.provide_registerAll, ServiceRegistry.provide_register, called, if_pos rfl]
    intro entry member same
    simp only [Dependency.mk.injEq] at same
    exact others entry member (same.1.symm.trans called.symm) same.2.symm
  constructor
  case left =>
    intro slots owner
    have reserved := slots.getElem?_reserve ⟨type.name, key⟩
    exact ⟨_, _, by simp [DependencySlots.argument, declared, asked owner], reserved⟩
  case right =>
    refine ⟨provided, ?_⟩
    intro validator reachable object way own call input happened index stands σ view
    obtain ⟨signature, read, supplied⟩ := supplied_of_answer reachable happened
    have supplied := supplied view index
    rw [Signature.getElem?_parse read stands accepted] at supplied
    simp only [declared] at supplied
    obtain ⟨found, payload, sought, answered, gets⟩ := supplied
    rw [asked] at sought
    cases sought
    rw [own, provided] at answered
    cases answered
    exact gets

/-- A hook that declares a clock by that text and under that key. -/
def hookOn (type : String) (key : Option ServiceKey) : Rule where
  signature := {
    parameters := [⟨type, key.map fun key => .constant key.toConstant⟩], returns := "Message" }
  evaluate _ := { output := .nothing }

/-- The clock of a zone is found behind a lifetime and a path, though another one is registered for it,
by another text, without the key. -/
theorem zoned_clock_found :
    let zoned := ServiceRegistry.register ∅ "&'a mut time::Clock" (some (.text "utc")) (.clock 7)
    let provider := (zoned.registerAll [⟨"&Clock", none, .clock 8⟩]).provide
    let validator := sampled false [] (hookOn "&'a mut time::Clock" (some (.text "utc")))
    ∃ call input, .evaluation call input ∈
      (validator.answer (.mk .sample []) (.waiting { provider })).journal ∧
        input.service? Payload.clock? 0 = some 7 := by
  intro zoned provider validator
  let parameter : Parameter := ⟨"&'a mut time::Clock", some (.constant (.text "utc"))⟩
  let key : Option ServiceKey := some (.text "utc")
  have happened : (validator.answer (.mk .sample []) (.waiting { provider })).journal.any
      (Event.evaluates fun call _ =>
        call.rule.signature.parameters.head?.any (·.isKeyed "&'a mut time::Clock" "utc")) := by
    simp only [validator, provider, zoned]
    rw [answer, validate_sampled rfl]
    decide +kernel
  obtain ⟨call, input, member, holds⟩ := exists_evaluation happened
  have asks : call.rule.signature.parameters[0]? = some parameter := by
    obtain ⟨first, leads, keyed⟩ := (Option.any_eq_true _ _).1 holds
    rw [← List.head?_eq_getElem?, leads, Parameter.eq_of_isKeyed keyed]
  have accepted : TypeName.parse parameter.type = .ok ⟨"Clock", [], false⟩ := by decide +kernel
  have declared : implicitParameters.lookup "Clock" = none := by decide +kernel
  have plain : TypeName.isPlain parameter.type = true := by decide +kernel
  have keyed : parameter.key = key.map fun key => .constant key.toConstant := rfl
  have others : ∀ entry ∈ [Registration.mk "&Clock" none (.clock 8)],
      TypeName.simpleName entry.type = TypeName.simpleName parameter.type → entry.key ≠ key := by
    simp [key]
  have found := registered_found accepted declared plain keyed ∅ (.clock 7) others
  exact ⟨call, input, member, found.2.2 validator (reachable_sampled _ _ _) _ _ rfl call input member 0
    asks Payload.clock?⟩

/-- A registration and a parameter with the same text may miss each other: lifetimes without a path
behind them, bounds, marks and wrappers are read out of the parameter's text, and stay in the name that
the registration goes by. -/
theorem registered_missed :
    (∀ type ∈ ["&'a Clock", "dyn Clock + Send", "Clock?", "Option<Clock>", "Arc<Clock>"],
      TypeName.parse type = .ok ⟨"Clock", [], type ∈ ["Clock?", "Option<Clock>"]⟩ ∧
      (ServiceRegistry.register ∅ type none (.clock 7)).provide ⟨"Clock", none⟩ =
        .error (.serviceNotFound "Clock" none)) ∧
    let provider := (ServiceRegistry.register ∅ "&'a Clock" none (.clock 7)).provide
    ((sampled false [] (hookOn "&'a Clock" none)).answer (.mk .sample [])
      (.waiting { provider })).result =
        .error (.error (.configuration (.serviceNotFound "Clock" none))) := by
  constructor
  case left => decide +kernel
  case right =>
    intro provider
    apply Stop.of?_eq_some
    simp only [provider]
    rw [answer, validate_sampled rfl]
    decide +kernel

end Validator

end Assay
