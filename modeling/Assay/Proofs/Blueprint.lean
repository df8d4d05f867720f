/-
Module: Assay.Proofs.Blueprint
Purpose: Plans, said without planning. The services that the rules of a type declare have their slots in
  the order in which they are declared first; every parameter leads to its own; and the calls of a type
  are its rules with these arguments. A type is planned like this exactly if every key is a constant
  that can be one, and otherwise the first parameter whose key is not is reported.
Main exports: ParsedParameter.service, ParsedParameter.source, BoundRule.drawn, TypeModel.rules,
  TypePlan.drawn, TypePlan.ofModel_eq
-/
import Mathlib.Data.List.Basic
import Assay.Plan.Basic

namespace Assay

/-! ### What is declared -/

/-- An expression that services cannot be asked for under. -/
inductive KeyExpr.IsNoKey : KeyExpr → Prop where
  | expression (text : String) : IsNoKey (.expression text)
  | float (value : Float) : IsNoKey (.constant (.float value))
  | list (items : List Constant) : IsNoKey (.constant (.list items))

/-- The key that an expression is, if it is a constant that is one. -/
def KeyExpr.serviceKey? : KeyExpr → Option ServiceKey
  | .constant value => ServiceKey.ofConstant? value
  | .expression _ => none

theorem KeyExpr.serviceKey?_eq_none_iff {key : KeyExpr} : key.serviceKey? = none ↔ key.IsNoKey := by
  constructor
  · intro none
    cases key with
    | expression text => exact .expression text
    | constant value =>
      cases value with
      | float value => exact .float value
      | list items => exact .list items
      | _ => cases none
  · intro noKey
    cases noKey <;> rfl

namespace ParsedParameter

/-- Whether no provider is asked for the argument. -/
def isImplicit (parameter : ParsedParameter) : Bool :=
  (implicitParameters.lookup parameter.type.name).isSome

/-- The service that a parameter asks for, if a provider is asked. -/
def service (parameter : ParsedParameter) : Dependency :=
  ⟨parameter.type.name, parameter.key.bind KeyExpr.serviceKey?⟩

def services (parameter : ParsedParameter) : List Dependency :=
  if parameter.isImplicit then [] else [parameter.service]

/-- Whether a service is asked for under something that is no key. -/
def isUnkeyed (parameter : ParsedParameter) : Bool :=
  !parameter.isImplicit && parameter.key.any (·.serviceKey?.isNone)

/-- What is wrong with a parameter of that rule. -/
def fault? (owner : String) (parameter : ParsedParameter) : Option CompileError :=
  if parameter.isUnkeyed then some (.nonConstantKey owner parameter.type.name) else none

/-- Where the argument comes from when these services have the slots. -/
def source (dependencies : List Dependency) (parameter : ParsedParameter) : Argument :=
  match implicitParameters.lookup parameter.type.name with
  | some argument => argument
  | none => .dependency (dependencies.idxOf parameter.service)

/-- A service is asked for under something that is no key. -/
structure Unkeyed (parameter : ParsedParameter) : Prop where
  asks : parameter.isImplicit = false
  noKey : ∃ key, parameter.key = some key ∧ key.IsNoKey

theorem source_of_lookup {dependencies : List Dependency} {parameter : ParsedParameter}
    {argument : Argument}
    (known : implicitParameters.lookup parameter.type.name = some argument) :
    parameter.source dependencies = argument := by
  rw [source, known]

theorem source_of_asks {dependencies : List Dependency} {parameter : ParsedParameter}
    (asks : parameter.isImplicit = false) :
    parameter.source dependencies = .dependency (dependencies.idxOf parameter.service) := by
  have lookup : implicitParameters.lookup parameter.type.name = none := by
    simpa [isImplicit] using asks
  rw [source, lookup]

/-- Where nothing is wrong with a parameter, its service is asked for under the key that it declares. -/
theorem serviceKey_of_fault?_eq_none {owner : String} {parameter : ParsedParameter}
    (asks : parameter.isImplicit = false) (faultless : parameter.fault? owner = none) :
    parameter.serviceKey owner = .ok (parameter.key.bind KeyExpr.serviceKey?) := by
  have keyed : parameter.isUnkeyed ≠ true := by
    intro unkeyed
    rw [fault?, if_pos unkeyed] at faultless
    cases faultless
  obtain ⟨type, key⟩ := parameter
  cases key with
  | none => rfl
  | some key =>
    cases key with
    | expression text => simp [isUnkeyed, asks, KeyExpr.serviceKey?] at keyed
    | constant value =>
      cases found : ServiceKey.ofConstant? value with
      | none => simp [isUnkeyed, asks, KeyExpr.serviceKey?, found] at keyed
      | some key => simp [serviceKey, KeyExpr.serviceKey?, found]

theorem isUnkeyed_iff {parameter : ParsedParameter} :
    parameter.isUnkeyed = true ↔ parameter.Unkeyed := by
  simp only [isUnkeyed, Bool.and_eq_true, Bool.not_eq_true', Option.any_eq_true,
    Option.isNone_iff_eq_none, KeyExpr.serviceKey?_eq_none_iff]
  exact ⟨fun ⟨asks, noKey⟩ => ⟨asks, noKey⟩, fun ⟨asks, noKey⟩ => ⟨asks, noKey⟩⟩

end ParsedParameter

namespace BoundRule

def services (bound : BoundRule) : List Dependency :=
  bound.signature.parameters.flatMap ParsedParameter.services

/-- The call of a rule when these services have the slots. -/
def drawn (dependencies : List Dependency) (bound : BoundRule) : PlannedCall :=
  ⟨bound.id, bound.rule, .classify bound.signature.returns,
    bound.signature.parameters.map (ParsedParameter.source dependencies)⟩

/-- What is wrong with the first parameter that has a fault. -/
def fault? (bound : BoundRule) : Option CompileError :=
  bound.signature.parameters.findSome? (ParsedParameter.fault? bound.id)

end BoundRule

/-- The plan of a field when these services have the slots. -/
def FieldPlan.drawn (room : Nat) (dependencies : List Dependency) (field : FieldModel) : FieldPlan :=
  .ofCalls field (field.rules.map (BoundRule.drawn dependencies)) room

namespace TypeModel

/-- The rules of a type in the order in which they are planned: the hook before the fields, those of the
fields, and the hook after them. -/
def rules (model : TypeModel) : List BoundRule :=
  model.before.toList ++ (model.fields.flatMap FieldModel.rules ++ model.after.toList)

/-- The services that the rules of a type declare, as often as they do. -/
def services (model : TypeModel) : List Dependency :=
  model.rules.flatMap BoundRule.services

/-- What is wrong with the first rule that has a fault. -/
def fault? (model : TypeModel) : Option CompileError :=
  model.rules.findSome? BoundRule.fault?

end TypeModel

/-- The plan of a type, with slots for the services in the order in which they are declared first. -/
def TypePlan.drawn (model : TypeModel) (type : TypeKey) (room : Nat) : TypePlan :=
  let dependencies := model.services.eraseDups
  { type
    name := model.name
    failFast := model.failFast
    autoRules := model.autoRules
    fields := model.fields.map (FieldPlan.drawn room dependencies)
    before := model.before.map (BoundRule.drawn dependencies)
    after := model.after.map (BoundRule.drawn dependencies)
    dependencies }

/-! ### Services and faults -/

theorem nodup_eraseDups (services : List Dependency) : services.eraseDups.Nodup := by
  match services with
  | [] => exact List.nodup_nil
  | service :: services =>
    rw [List.eraseDups_cons]
    have once : service ∉ (services.filter fun other => !other == service).eraseDups := by
      intro again
      simpa using List.mem_eraseDups.1 again
    exact List.nodup_cons.2 ⟨once, nodup_eraseDups _⟩
termination_by services.length
decreasing_by exact Nat.lt_succ_of_le (List.length_filter_le _ _)

theorem eraseDups_append_of_subset {declared more : List Dependency} (known : more ⊆ declared) :
    (declared ++ more).eraseDups = declared.eraseDups := by
  have nothing : more.removeAll declared = [] := by
    simpa [List.removeAll, List.filter_eq_nil_iff] using fun service member => known member
  rw [List.eraseDups_append, nothing, List.eraseDups_nil, List.append_nil]

/-- A parameter leads to the same slot when services are declared after its own. -/
theorem ParsedParameter.source_of_prefix {declared all : List Dependency} {parameter : ParsedParameter}
    (known : parameter.services ⊆ declared) (later : declared <+: all) :
    parameter.source all.eraseDups = parameter.source declared.eraseDups := by
  obtain ⟨more, rfl⟩ := later
  unfold source
  cases lookup : implicitParameters.lookup parameter.type.name with
  | some argument => rfl
  | none =>
    have own : parameter.service ∈ parameter.services := by simp [services, isImplicit, lookup]
    have kept : parameter.service ∈ declared.eraseDups := List.mem_eraseDups.2 (known own)
    simp only [List.eraseDups_append, List.idxOf_append_of_mem kept]

namespace TypeModel

theorem mem_rules {model : TypeModel} {bound : BoundRule} : bound ∈ model.rules ↔
    bound ∈ model.before ∨ (∃ field ∈ model.fields, bound ∈ field.rules) ∨ bound ∈ model.after := by
  simp [rules]

/-- What is wrong with the first rule that has a fault is wrong with one of its parameters. -/
theorem of_fault?_eq_some {model : TypeModel} {error : CompileError}
    (faulty : model.fault? = some error) :
    ∃ rule ∈ model.rules, ∃ parameter ∈ rule.signature.parameters,
      parameter.Unkeyed ∧ error = .nonConstantKey rule.id parameter.type.name := by
  obtain ⟨rule, member, own⟩ := List.exists_of_findSome?_eq_some faulty
  obtain ⟨parameter, declared, unkeyed⟩ := List.exists_of_findSome?_eq_some own
  obtain ⟨isUnkeyed, same⟩ := Option.ite_none_right_eq_some.1 unkeyed
  exact ⟨rule, member, parameter, declared, ParsedParameter.isUnkeyed_iff.1 isUnkeyed,
    (Option.some.inj same).symm⟩

theorem keyed_of_fault?_eq_none {model : TypeModel} (faultless : model.fault? = none) :
    ∀ rule ∈ model.rules, ∀ parameter ∈ rule.signature.parameters, ¬ parameter.Unkeyed := by
  intro rule member parameter declared unkeyed
  have own := List.findSome?_eq_none_iff.1 (List.findSome?_eq_none_iff.1 faultless rule member)
    parameter declared
  rw [ParsedParameter.fault?, if_pos (ParsedParameter.isUnkeyed_iff.2 unkeyed)] at own
  cases own

end TypeModel

/-! ### Planning -/

/-- A result that is there unless there is a fault. -/
def barring {α : Type} (fault : Option CompileError) (result : α) : Except CompileError α :=
  match fault with
  | some error => .error error
  | none => .ok result

section

variable {α β : Type} {first second : Option CompileError} {action : Except CompileError α} {value : α}
  {next : α → Except CompileError β} {result : β} (begins : action = barring first value)

include begins

/-- Steps one after the other are barred by the first fault. -/
theorem barring_bind (goesOn : next value = barring second result) :
    (action >>= next) = barring (first.or second) result := by
  rw [begins]
  cases first with
  | some error => rfl
  | none => exact goesOn

theorem barring_bind_ok (ends : next value = .ok result) : (action >>= next) = barring first result := by
  rw [begins]
  cases first with
  | some error => rfl
  | none => exact ends

end

namespace DependencySlots

/-- Slots for these services, in the order in which they are declared first. -/
def ofDeclared (declared : List Dependency) : DependencySlots :=
  ⟨declared.eraseDups⟩

theorem reserve_ofDeclared (declared : List Dependency) (service : Dependency) :
    (ofDeclared declared).reserve service =
      ((declared ++ [service]).eraseDups.idxOf service, ofDeclared (declared ++ [service])) := by
  unfold reserve
  cases found : declared.eraseDups.idxOf? service with
  | some slot =>
    have known : service ∈ declared :=
      List.mem_eraseDups.1 (List.isSome_idxOf?.1 (Option.isSome_of_eq_some found))
    have same : (declared ++ [service]).eraseDups = declared.eraseDups :=
      eraseDups_append_of_subset (by simpa using known)
    have place : declared.eraseDups.idxOf service = slot := by
      rw [List.idxOf_eq_getD_idxOf?, found, Option.getD_some]
    simp only [ofDeclared, found, same, place]
  | none =>
    have isNew : service ∉ declared.eraseDups := List.idxOf?_eq_none_iff.1 found
    have grown : (declared ++ [service]).eraseDups = declared.eraseDups ++ [service] := by
      have unknown : service ∉ declared := fun known => isNew (List.mem_eraseDups.2 known)
      simp [List.eraseDups_append, List.removeAll, unknown, List.eraseDups_cons]
    have last : (declared.eraseDups ++ [service]).idxOf service = declared.eraseDups.length := by
      simp [List.idxOf_append_of_notMem isNew]
    simp only [ofDeclared, found, grown, last]

/-- A parameter is given its source, and its service a slot, unless it has a fault. -/
theorem argument_ofDeclared (declared : List Dependency) (owner : String)
    (parameter : ParsedParameter) :
    (ofDeclared declared).argument owner parameter =
      barring (parameter.fault? owner) (parameter.source (declared ++ parameter.services).eraseDups,
        ofDeclared (declared ++ parameter.services)) := by
  obtain ⟨type, key⟩ := parameter
  unfold argument ParsedParameter.fault? ParsedParameter.isUnkeyed ParsedParameter.services
    ParsedParameter.source ParsedParameter.isImplicit
  cases lookup : implicitParameters.lookup type.name with
  | some argument => simp [barring]
  | none =>
    cases key with
    | none => simp [barring, ParsedParameter.serviceKey, ParsedParameter.service, reserve_ofDeclared]
    | some key =>
      cases key with
      | expression text => simp [barring, ParsedParameter.serviceKey, KeyExpr.serviceKey?]
      | constant value =>
        cases keyed : ServiceKey.ofConstant? value <;>
          simp [barring, ParsedParameter.serviceKey, KeyExpr.serviceKey?, keyed,
            ParsedParameter.service, reserve_ofDeclared]

/-- Parameters are given their sources one after the other, up to the first fault. -/
theorem arguments_ofDeclared {declared all : List Dependency} (owner : String)
    {parameters : List ParsedParameter}
    (later : declared ++ parameters.flatMap ParsedParameter.services <+: all) :
    match parameters.findSome? (ParsedParameter.fault? owner) with
    | some error => ((ofDeclared declared).arguments owner parameters).1 = .error error
    | none => (ofDeclared declared).arguments owner parameters =
        (.ok (parameters.map (ParsedParameter.source all.eraseDups)),
          ofDeclared (declared ++ parameters.flatMap ParsedParameter.services)) := by
  induction parameters generalizing declared with
  | nil => simp [arguments]
  | cons parameter parameters ih =>
    rw [List.flatMap_cons, ← List.append_assoc] at later
    have first := argument_ofDeclared declared owner parameter
    have rest := ih later
    cases fault : parameter.fault? owner with
    | some error =>
      rw [fault] at first
      simp [arguments, first, fault, barring]
    | none =>
      rw [fault] at first
      have near : declared ++ parameter.services <+: all := (List.prefix_append _ _).trans later
      have own := ParsedParameter.source_of_prefix (List.subset_append_right _ _) near
      simp only [List.findSome?_cons, fault, arguments, first, barring, List.flatMap_cons,
        List.map_cons, ← List.append_assoc, own]
      cases others : parameters.findSome? (ParsedParameter.fault? owner) with
      | some other =>
        simp only [others] at rest
        simp [rest, Except.map]
      | none =>
        simp only [others] at rest
        simp [rest, Except.map]

end DependencySlots

open DependencySlots (ofDeclared)

namespace BoundRule

variable {declared all : List Dependency}

theorem plan_ofDeclared {bound : BoundRule} (later : declared ++ bound.services <+: all) :
    bound.plan (ofDeclared declared) =
      barring bound.fault? (bound.drawn all.eraseDups, ofDeclared (declared ++ bound.services)) := by
  have found := DependencySlots.arguments_ofDeclared bound.id later
  unfold plan fault?
  cases fault : bound.signature.parameters.findSome? (ParsedParameter.fault? bound.id) with
  | some error =>
    simp only [fault] at found
    cases argued : (ofDeclared declared).arguments bound.id bound.signature.parameters with
    | mk result after =>
      rw [argued] at found
      cases found
      rfl
  | none =>
    simp only [fault] at found
    rw [found]
    rfl

theorem findSome?_fault?_cons (bound : BoundRule) (rules : List BoundRule) :
    (bound :: rules).findSome? fault? = bound.fault?.or (rules.findSome? fault?) := by
  rw [List.findSome?_cons]
  cases bound.fault? <;> rfl

theorem planAll_ofDeclared {rules : List BoundRule}
    (later : declared ++ rules.flatMap services <+: all) :
    planAll (ofDeclared declared) rules =
      barring (rules.findSome? fault?)
        (rules.map (drawn all.eraseDups), ofDeclared (declared ++ rules.flatMap services)) := by
  induction rules generalizing declared with
  | nil => simp [planAll, barring]
  | cons bound rules ih =>
    rw [List.flatMap_cons, ← List.append_assoc] at later
    have near : declared ++ bound.services <+: all := (List.prefix_append _ _).trans later
    rw [findSome?_fault?_cons, List.flatMap_cons, ← List.append_assoc]
    exact barring_bind (plan_ofDeclared near) (barring_bind_ok (ih later) rfl)

theorem planHook_ofDeclared {hook : Option BoundRule}
    (later : declared ++ hook.toList.flatMap services <+: all) :
    planHook (ofDeclared declared) hook =
      barring (hook.toList.findSome? fault?)
        (hook.map (drawn all.eraseDups), ofDeclared (declared ++ hook.toList.flatMap services)) := by
  cases hook with
  | none => simp [planHook, barring]
  | some bound =>
    simp only [Option.toList_some, List.flatMap_cons, List.flatMap_nil, List.append_nil] at later ⊢
    rw [findSome?_fault?_cons, List.findSome?_nil, Option.or_none]
    exact barring_bind_ok (plan_ofDeclared later) rfl

end BoundRule

theorem FieldPlan.planAll_ofDeclared (room : Nat) {declared all : List Dependency}
    {models : List FieldModel}
    (later : declared ++ (models.flatMap FieldModel.rules).flatMap BoundRule.services <+: all) :
    planAll room (ofDeclared declared) models =
      barring ((models.flatMap FieldModel.rules).findSome? BoundRule.fault?)
        (models.map (drawn room all.eraseDups),
          ofDeclared (declared ++ (models.flatMap FieldModel.rules).flatMap BoundRule.services)) := by
  induction models generalizing declared with
  | nil => simp [planAll, barring]
  | cons model models ih =>
    rw [List.flatMap_cons, List.flatMap_append, ← List.append_assoc] at later
    have near : declared ++ model.rules.flatMap BoundRule.services <+: all :=
      (List.prefix_append _ _).trans later
    rw [List.flatMap_cons, List.findSome?_append, List.flatMap_append, ← List.append_assoc]
    exact barring_bind (BoundRule.planAll_ofDeclared near) (barring_bind_ok (ih later) rfl)

/-- A type is planned as it is drawn, unless a rule has a fault. -/
theorem TypePlan.ofModel_eq (model : TypeModel) (type : TypeKey) (room : Nat) :
    ofModel model type room = barring model.fault? (drawn model type room) := by
  let hooked := model.before.toList.flatMap BoundRule.services
  let walked := hooked ++ (model.fields.flatMap FieldModel.rules).flatMap BoundRule.services
  let all := walked ++ model.after.toList.flatMap BoundRule.services
  have whole : all = model.services := by
    simp [all, walked, hooked, TypeModel.services, TypeModel.rules]
  have near : walked <+: all := List.prefix_append _ _
  have nearer : [] ++ hooked <+: all := (List.prefix_append _ _).trans near
  have before := BoundRule.planHook_ofDeclared nearer
  have fields := FieldPlan.planAll_ofDeclared room near
  have after := BoundRule.planHook_ofDeclared (List.prefix_refl all)
  unfold TypeModel.fault? TypeModel.rules drawn
  rw [List.findSome?_append, List.findSome?_append, ← whole]
  exact barring_bind before (barring_bind fields (barring_bind_ok after rfl))

theorem TypePlan.ofModel_eq_ok {model : TypeModel} {type : TypeKey} {room : Nat} {plan : TypePlan}
    (planned : ofModel model type room = .ok plan) :
    model.fault? = none ∧ plan = drawn model type room := by
  rw [ofModel_eq] at planned
  cases fault : model.fault? with
  | some error =>
    rw [fault] at planned
    cases planned
  | none =>
    rw [fault] at planned
    cases planned
    exact ⟨rfl, rfl⟩

theorem TypePlan.ofModel_eq_error {model : TypeModel} {type : TypeKey} {room : Nat}
    {error : CompileError} (failed : ofModel model type room = .error error) :
    model.fault? = some error := by
  rw [ofModel_eq] at failed
  cases fault : model.fault? with
  | some first =>
    rw [fault] at failed
    cases failed
    rfl
  | none =>
    rw [fault] at failed
    cases failed

theorem TypePlan.ofModel_eq_drawn {model : TypeModel} (faultless : model.fault? = none)
    (type : TypeKey) (room : Nat) : ofModel model type room = .ok (drawn model type room) := by
  rw [ofModel_eq, faultless]
  rfl

end Assay
