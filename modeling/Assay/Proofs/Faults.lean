/-
Module: Assay.Proofs.Faults
Purpose: What can be wrong with a description: two fields have one name, the catalog does not have a rule
  or refuses to make it, a key is no constant, or a text is no type. Each part of the compiler is shown
  to fail for these reasons only.
Main exports: CompileError.Arises, Faults, PlanCache.faults_compile
-/
import Assay.Proofs.Planning

namespace Assay

/-- How a fault arises with a catalog. -/
inductive CompileError.Arises (catalog : RuleCatalog) : CompileError → Prop where
  | duplicateField (type field : String) : Arises catalog (.duplicateField type field)
  | unknownRule {field rule : String} {args : RuleArgs} (unknown : catalog.make? rule args = .ok none) :
    Arises catalog (.unknownRule field rule)
  /-- The catalog does not make a rule from its arguments. -/
  | refused {rule : String} {args : RuleArgs} {error : CompileError}
      (made : catalog.make? rule args = .error error) : Arises catalog error
  | nonConstantKey (owner parameter : String) : Arises catalog (.nonConstantKey owner parameter)
  | malformedType (text : String) (fault : TypeFault) : Arises catalog (.malformedType text fault)

/-- If this fails, then for one of these reasons. -/
def Faults (catalog : RuleCatalog) {α : Type} (action : Except CompileError α) : Prop :=
  ∀ error, action = .error error → error.Arises catalog

variable {catalog : RuleCatalog} {α β : Type}

namespace Faults

theorem ok (value : α) : Faults catalog (.ok value) := by
  intro error failed
  cases failed

theorem error {fault : CompileError} (arises : fault.Arises catalog) :
    Faults catalog (.error fault : Except CompileError α) := by
  intro error failed
  cases failed
  exact arises

/-- A second step is asked about only for values that the first gives. -/
theorem bind {action : Except CompileError α} {next : α → Except CompileError β}
    (first : Faults catalog action) (second : ∀ value, action = .ok value → Faults catalog (next value)) :
    Faults catalog (action >>= next) := by
  cases action with
  | error fault => exact .error (first fault rfl)
  | ok value => exact second value rfl

theorem map {action : Except CompileError α} (faults : Faults catalog action) (change : α → β) :
    Faults catalog (action.map change) := by
  cases action with
  | error fault => exact .error (faults fault rfl)
  | ok value => exact .ok _

/-- A list is read up to the first item that fails. -/
theorem mapM {read : α → Except CompileError β} (each : ∀ item, Faults catalog (read item))
    (items : List α) : Faults catalog (items.mapM read) := by
  induction items with
  | nil => exact .ok _
  | cons item items ih =>
    rw [List.mapM_cons]
    exact .bind (each item) fun _ _ => .bind ih fun _ _ => .ok _

end Faults

/-! ### Reading descriptions -/

theorem TypeName.faults_parse (text : String) : Faults catalog (TypeName.parse text) := by
  rw [TypeName.parse]
  split
  · exact .ok _
  · exact .error (.malformedType _ _)

/-- A rule is bound unless a text of its signature is no type. -/
theorem BoundRule.faults_ofRule (id : String) (rule : Rule) : Faults catalog (ofRule id rule) := by
  refine .bind (.bind (.mapM (fun parameter => ?_) _) fun _ _ => ?_) fun _ _ => .ok _
  · exact .bind (TypeName.faults_parse _) fun _ _ => .ok _
  · exact .bind (TypeName.faults_parse _) fun _ _ => .ok _

namespace FieldDescriptor

/-- An attachment fails in the catalog, or by the signature of the rule that the catalog makes. -/
theorem faults_bind (field : FieldDescriptor) (attachment : RuleAttachment) :
    Faults catalog (field.bind catalog attachment) := by
  refine .bind (fun error failed => .refused failed) fun made found => ?_
  cases made with
  | none => exact .error (.unknownRule found)
  | some rule => exact BoundRule.faults_ofRule _ _

/-- A routine that the type does not bring along is left out, and is no fault. -/
theorem faults_customRule (field : FieldDescriptor) (descriptor : TypeDescriptor) :
    Faults catalog (field.customRule descriptor) := by
  rw [customRule]
  split
  · exact .map (BoundRule.faults_ofRule _ _) _
  · exact .ok _

theorem faults_rules (field : FieldDescriptor) (descriptor : TypeDescriptor)
    (autoRules nullable : Bool) :
    Faults catalog (field.rules descriptor catalog autoRules nullable) :=
  .bind (.mapM field.faults_bind _) fun _ _ =>
    .bind (field.faults_customRule descriptor) fun _ _ => .ok _

/-- The rules of a field that holds an object are not even looked for. -/
theorem faults_toModel (field : FieldDescriptor) (descriptor : TypeDescriptor) (autoRules : Bool) :
    Faults catalog (field.toModel descriptor catalog autoRules) := by
  refine .bind (TypeName.faults_parse _) fun type _ => ?_
  by_cases holds : field.nested.isSome = true
  · simp only [holds, if_true]
    exact .ok _
  · simp only [holds]
    exact .bind (field.faults_rules descriptor autoRules _) fun _ _ => .ok _

end FieldDescriptor

namespace TypeModel

theorem faults_hook (descriptor : TypeDescriptor) (name : String) :
    Faults catalog (hook descriptor name) := by
  rw [hook]
  split
  · exact .map (BoundRule.faults_ofRule _ _) _
  · exact .ok _

/-- A name that is taken is a fault before anything else of the field is read. -/
theorem faults_fieldsOf (descriptor : TypeDescriptor) (autoRules : Bool) (seen : List String)
    (fields : List FieldDescriptor) : Faults catalog (fieldsOf descriptor catalog autoRules seen fields) := by
  induction fields generalizing seen with
  | nil => exact .ok _
  | cons field fields ih =>
    rw [fieldsOf]
    split
    · exact .error (.duplicateField _ _)
    · exact .bind (field.faults_toModel descriptor autoRules) fun _ _ => .bind (ih _) fun _ _ => .ok _

/-- The fields are read first, then the two hooks. -/
theorem faults_ofDescriptor (descriptor : TypeDescriptor) (options : Options) :
    Faults catalog (ofDescriptor descriptor catalog options) := by
  refine .bind (faults_fieldsOf _ _ _ _) fun _ _ => ?_
  exact .bind (faults_hook _ _) fun _ _ => .bind (faults_hook _ _) fun _ _ => .ok _

end TypeModel

/-! ### Planning -/

/-- Planning fails at a key that is no constant, and there only. -/
theorem TypePlan.faults_ofModel (model : TypeModel) (type : TypeKey) (room : Nat) :
    Faults catalog (ofModel model type room) := by
  intro error failed
  obtain ⟨rule, _, parameter, _, _, rfl⟩ := TypeModel.of_fault?_eq_some (ofModel_eq_error failed)
  exact .nonConstantKey rule.id parameter.type.name

/-- A type cannot be compiled for one of these reasons only. -/
theorem PlanCache.faults_compile (cache : PlanCache) (type : TypeKey) :
    Faults cache.catalog (cache.compile type) :=
  .bind (TypeModel.faults_ofDescriptor _ _) fun _ _ => TypePlan.faults_ofModel _ _ _

end Assay
