/-
Module: Assay.Proofs.Extraction
Purpose: A description is read exactly if it is well-formed. Of one that is not, the first offence is
  reported, in the order of the fields and with the hooks last. In the model of one that is, a field has
  the rules that follow from its declaration, those attached, and its routine; and a field that holds an
  object has none.
Main exports: TypeDescriptor.offences, TypeDescriptor.WellFormed, FieldDescriptor.ruleIds,
  FieldDescriptor.ReadAs, TypeModel.ofDescriptor_reads
-/
import Mathlib.Data.List.Forall2
import Assay.Model

namespace Assay

/-! ### Reading -/

section

variable {α β : Type}

/-- What is wrong with a result. -/
def faultsOf : Except CompileError α → List CompileError
  | .ok _ => []
  | .error error => [error]

theorem faultsOf_eq_nil_iff {result : Except CompileError α} :
    faultsOf result = [] ↔ ∃ value, result = .ok value := by
  cases result <;> simp [faultsOf]

/-- A reading ends well if there is no offence, and otherwise reports the first one. -/
def Reading (offences : List CompileError) (good : α → Prop) (result : Except CompileError α) : Prop :=
  match result with
  | .ok value => offences = [] ∧ good value
  | .error error => offences.head? = some error

namespace Reading

variable {offences more : List CompileError} {good : α → Prop} {better : β → Prop}

theorem pure {value : α} (holds : good value) : Reading [] good (.ok value) :=
  ⟨rfl, holds⟩

theorem ofFaults (result : Except CompileError α) :
    Reading (faultsOf result) (fun value => result = .ok value) result := by
  cases result with
  | ok value => exact ⟨rfl, rfl⟩
  | error error => rfl

/-- Readings one after the other report the first offence of the first that has one. -/
theorem bind {result : Except CompileError α} {next : α → Except CompileError β}
    (begins : Reading offences good result)
    (goesOn : ∀ value, good value → Reading more better (next value)) :
    Reading (offences ++ more) better (result >>= next) := by
  cases result with
  | ok value =>
    obtain ⟨none, holds⟩ := begins
    rw [none]
    exact goesOn value holds
  | error error =>
    have first : offences.head? = some error := begins
    change (offences ++ more).head? = some error
    rw [List.head?_append, first, Option.some_or]

/-- What follows without an offence adds none. -/
theorem bind_ok {result : Except CompileError α} {next : α → Except CompileError β}
    (begins : Reading offences good result)
    (goesOn : ∀ value, good value → Reading [] better (next value)) :
    Reading offences better (result >>= next) := by
  rw [← List.append_nil offences]
  exact begins.bind goesOn

theorem mono {result : Except CompileError α} {weaker : α → Prop} (ends : Reading offences good result)
    (holds : ∀ value, good value → weaker value) : Reading offences weaker result := by
  cases result with
  | ok value => exact ⟨ends.1, holds value ends.2⟩
  | error error => exact ends

theorem map {result : Except CompileError α} {change : α → β} (begins : Reading offences good result)
    (holds : ∀ value, good value → better (change value)) :
    Reading offences better (result.map change) := by
  cases result with
  | ok value => exact ⟨begins.1, holds value begins.2⟩
  | error error => exact begins

theorem mapM {offencesOf : α → List CompileError} {becomes : α → β → Prop}
    {read : α → Except CompileError β}
    (each : ∀ item, Reading (offencesOf item) (becomes item) (read item)) (items : List α) :
    Reading (items.flatMap offencesOf) (List.Forall₂ becomes items) (items.mapM read) := by
  induction items with
  | nil => exact pure .nil
  | cons item items ih =>
    rw [List.mapM_cons, List.flatMap_cons]
    exact (each item).bind fun result own => ih.bind_ok fun results others => pure (.cons own others)

end Reading

end

/-! ### Rules -/

/-- The types that a rule declares can be read. -/
def Rule.Readable (rule : Rule) : Prop :=
  ∃ signature, rule.signature.parse = .ok signature

/-- A rule is bound under an identifier, with its signature read. -/
structure BoundRule.Binds (id : String) (rule : Rule) (bound : BoundRule) : Prop where
  named : bound.id = id
  made : bound.rule = rule
  read : rule.signature.parse = .ok bound.signature

theorem BoundRule.reading_ofRule (id : String) (rule : Rule) :
    Reading (faultsOf rule.signature.parse) (Binds id rule) (ofRule id rule) := by
  exact (Reading.ofFaults _).bind_ok fun signature read => Reading.pure ⟨rfl, rfl, read⟩

namespace TypeDescriptor

/-- What is wrong with a routine, if the type brings it along. -/
def routineOffences (descriptor : TypeDescriptor) (name : String) : List CompileError :=
  match descriptor.routine? name with
  | some rule => faultsOf rule.signature.parse
  | none => []

theorem routineOffences_eq_nil_iff {descriptor : TypeDescriptor} {name : String} :
    descriptor.routineOffences name = [] ↔
      ∀ rule, descriptor.routine? name = some rule → rule.Readable := by
  unfold routineOffences
  cases descriptor.routine? name with
  | none => simp
  | some rule => simp [faultsOf_eq_nil_iff, Rule.Readable]

end TypeDescriptor

/-! ### Fields -/

namespace FieldDescriptor

/-- The attachments of a field, those that follow from its declaration first. -/
def allAttachments (field : FieldDescriptor) (autoRules nullable : Bool) : List RuleAttachment :=
  (if autoRules then field.impliedAttachments nullable else []) ++ field.attachments

/-- The catalog has a rule for an attachment, which can be made with its arguments and read. -/
def Instantiates (field : FieldDescriptor) (catalog : RuleCatalog) (attachment : RuleAttachment) :
    Prop :=
  ∃ rule, catalog.make? attachment.rule (field.argsOf attachment) = .ok (some rule) ∧ rule.Readable

/-- What is wrong with an attachment. -/
def attachmentOffences (field : FieldDescriptor) (catalog : RuleCatalog)
    (attachment : RuleAttachment) : List CompileError :=
  match catalog.make? attachment.rule (field.argsOf attachment) with
  | .ok (some rule) => faultsOf rule.signature.parse
  | .ok none => [.unknownRule field.name attachment.rule]
  | .error error => [error]

/-- What is wrong with a field: with its type, or else with its attachments and its routine. -/
def offences (field : FieldDescriptor) (descriptor : TypeDescriptor) (catalog : RuleCatalog)
    (autoRules : Bool) : List CompileError :=
  match TypeName.parse field.type with
  | .error error => [error]
  | .ok type =>
    if field.nested.isSome then []
    else (field.allAttachments autoRules (field.nullable || type.nullable)).flatMap
        (field.attachmentOffences catalog) ++
      if field.custom then descriptor.routineOffences field.routineName else []

/-- The type of a field can be read, and if it holds no object, so can its rules. -/
structure WellFormed (field : FieldDescriptor) (descriptor : TypeDescriptor) (catalog : RuleCatalog)
    (autoRules : Bool) : Prop where
  type : ∃ type, TypeName.parse field.type = .ok type
  attached : field.nested = none → ∀ type, TypeName.parse field.type = .ok type →
    ∀ attachment ∈ field.allAttachments autoRules (field.nullable || type.nullable),
      field.Instantiates catalog attachment
  custom : field.nested = none → field.custom = true →
    ∀ rule, descriptor.routine? field.routineName = some rule → rule.Readable

/-- A rule is bound for an attachment, as the catalog makes it with the arguments of the attachment. -/
def Makes (field : FieldDescriptor) (catalog : RuleCatalog) (attachment : RuleAttachment)
    (bound : BoundRule) : Prop :=
  ∃ rule, catalog.make? attachment.rule (field.argsOf attachment) = .ok (some rule) ∧
    bound.Binds attachment.rule rule

/-- Rules are bound for the attachments of a field, and one for its routine if it has one. -/
structure Rules (field : FieldDescriptor) (descriptor : TypeDescriptor) (catalog : RuleCatalog)
    (autoRules nullable : Bool) (attached custom : List BoundRule) : Prop where
  attached : List.Forall₂ (field.Makes catalog) (field.allAttachments autoRules nullable) attached
  custom : List.Forall₂ (fun rule bound => bound.Binds field.routineName rule)
    (if field.custom then descriptor.routine? field.routineName else none).toList custom

/-- The identifiers of the rules of a field that holds no object. -/
def ruleIds (field : FieldDescriptor) (descriptor : TypeDescriptor) (autoRules nullable : Bool) :
    List String :=
  let attached := field.attachments.map (·.rule)
  (if autoRules ∧ nullable = false ∧ "required" ∉ attached then ["required"] else []) ++
  (if autoRules ∧ field.members.isSome ∧ "in_enum" ∉ attached then ["in_enum"] else []) ++
  attached ++
  (if field.custom ∧ (descriptor.routine? ("validate_" ++ field.name)).isSome then
    ["validate_" ++ field.name] else [])

/-- A field is read as one of that name and type, with the rules that follow from its declaration, those
attached, and its routine. One that holds an object has no rules. -/
structure ReadAs (descriptor : TypeDescriptor) (catalog : RuleCatalog) (autoRules : Bool)
    (field : FieldDescriptor) (model : FieldModel) : Prop where
  name : model.name = field.name
  type : TypeName.parse field.type = .ok model.type
  nullable : model.nullable = (field.nullable || model.type.nullable)
  nested : model.nested = field.nested
  held : field.nested.isSome → model.rules = []
  ids : field.nested = none →
    model.rules.map (·.id) = field.ruleIds descriptor autoRules model.nullable
  rules : field.nested = none → ∃ attached custom, model.rules = attached ++ custom ∧
    field.Rules descriptor catalog autoRules model.nullable attached custom

variable {field : FieldDescriptor} {descriptor : TypeDescriptor} {catalog : RuleCatalog}
  {autoRules nullable : Bool}

theorem map_rule_allAttachments : (field.allAttachments autoRules nullable).map (·.rule) =
    (if autoRules ∧ nullable = false ∧ "required" ∉ field.attachments.map (·.rule) then
      ["required"] else []) ++
    (if autoRules ∧ field.members.isSome ∧ "in_enum" ∉ field.attachments.map (·.rule) then
      ["in_enum"] else []) ++ field.attachments.map (·.rule) := by
  have has : ∀ id, field.hasRule id = true ↔ id ∈ field.attachments.map (·.rule) := by
    intro id
    simp [hasRule]
  unfold allAttachments impliedAttachments
  cases autoRules with
  | false => simp
  | true =>
    simp only [← has]
    cases nullable <;> cases field.hasRule "required" <;> cases field.members <;>
      cases field.hasRule "in_enum" <;> rfl

theorem attachmentOffences_eq_nil_iff {attachment : RuleAttachment} :
    field.attachmentOffences catalog attachment = [] ↔ field.Instantiates catalog attachment := by
  unfold attachmentOffences Instantiates
  cases catalog.make? attachment.rule (field.argsOf attachment) with
  | error error => simp
  | ok made =>
    cases made with
    | none => simp
    | some rule => simp [faultsOf_eq_nil_iff, Rule.Readable]

/-- A field has no offence if and only if it is well-formed. -/
theorem offences_eq_nil_iff : field.offences descriptor catalog autoRules = [] ↔
    field.WellFormed descriptor catalog autoRules := by
  unfold offences
  cases read : TypeName.parse field.type with
  | error error =>
    refine iff_of_false (List.cons_ne_nil _ _) fun formed => ?_
    obtain ⟨type, parsed⟩ := formed.type
    rw [read] at parsed
    cases parsed
  | ok type =>
    have attached : (field.allAttachments autoRules (field.nullable || type.nullable)).flatMap
        (field.attachmentOffences catalog) = [] ↔
          ∀ attachment ∈ field.allAttachments autoRules (field.nullable || type.nullable),
            field.Instantiates catalog attachment := by
      simp only [List.flatMap_eq_nil_iff, attachmentOffences_eq_nil_iff]
    have custom : (if field.custom then descriptor.routineOffences field.routineName else []) = [] ↔
        (field.custom = true → ∀ rule, descriptor.routine? field.routineName = some rule →
          rule.Readable) := by
      rw [← TypeDescriptor.routineOffences_eq_nil_iff]
      cases field.custom <;> simp
    cases holds : field.nested with
    | some held => exact iff_of_true rfl ⟨⟨type, read⟩, by simp [holds], by simp [holds]⟩
    | none =>
      simp only [Option.isSome_none, Bool.false_eq_true, if_false, List.append_eq_nil_iff, attached,
        custom]
      constructor
      · intro formed
        refine ⟨⟨type, read⟩, fun _ parsed own => ?_, fun _ => formed.2⟩
        cases own.symm.trans read
        exact formed.1
      · exact fun formed => ⟨formed.attached holds type read, formed.custom holds⟩

theorem Rules.ids {attached custom : List BoundRule}
    (rules : field.Rules descriptor catalog autoRules nullable attached custom) :
    (attached ++ custom).map (·.id) = field.ruleIds descriptor autoRules nullable := by
  have first : List.Forall₂ (· = ·) (attached.map (·.id))
      ((field.allAttachments autoRules nullable).map (·.rule)) := by
    simp only [List.forall₂_map_left_iff, List.forall₂_map_right_iff]
    exact rules.attached.flip.imp fun _ _ ⟨_, _, binds⟩ => binds.named
  have last : custom.map (·.id) =
      if field.custom ∧ (descriptor.routine? field.routineName).isSome then [field.routineName]
      else [] := by
    have own := rules.custom
    cases isCustom : field.custom with
    | false =>
      rw [isCustom] at own
      cases own
      simp
    | true =>
      rw [isCustom, if_pos rfl] at own
      cases routine : descriptor.routine? field.routineName with
      | none =>
        rw [routine] at own
        cases own
        simp
      | some rule =>
        rw [routine] at own
        cases own with
        | cons binds rest =>
          cases rest
          simp [binds.named]
  rw [List.forall₂_eq_eq_eq] at first
  rw [List.map_append, first, last, map_rule_allAttachments]
  rfl

/-! ### Reading fields -/

theorem reading_bind (attachment : RuleAttachment) :
    Reading (field.attachmentOffences catalog attachment) (field.Makes catalog attachment)
      (field.bind catalog attachment) := by
  unfold attachmentOffences FieldDescriptor.bind Makes
  cases catalog.make? attachment.rule (field.argsOf attachment) with
  | error error => rfl
  | ok made =>
    cases made with
    | none => rfl
    | some rule =>
      exact (BoundRule.reading_ofRule attachment.rule rule).mono fun _ binds => ⟨rule, rfl, binds⟩

theorem reading_customRule :
    Reading (if field.custom then descriptor.routineOffences field.routineName else [])
      (List.Forall₂ (fun rule bound => bound.Binds field.routineName rule)
        (if field.custom then descriptor.routine? field.routineName else none).toList)
      (field.customRule descriptor) := by
  unfold customRule TypeDescriptor.routineOffences
  cases field.custom with
  | false => exact Reading.pure .nil
  | true =>
    simp only [if_true]
    cases descriptor.routine? field.routineName with
    | none => exact Reading.pure .nil
    | some rule =>
      exact (BoundRule.reading_ofRule field.routineName rule).map fun bound binds => .cons binds .nil

theorem reading_rules :
    Reading ((field.allAttachments autoRules nullable).flatMap (field.attachmentOffences catalog) ++
        if field.custom then descriptor.routineOffences field.routineName else [])
      (fun rules => ∃ attached custom, rules = attached ++ custom ∧
        field.Rules descriptor catalog autoRules nullable attached custom)
      (field.rules descriptor catalog autoRules nullable) :=
  (Reading.mapM reading_bind _).bind fun attached made =>
    reading_customRule.bind_ok fun custom routine => Reading.pure ⟨attached, custom, rfl, made, routine⟩

theorem reading_toModel (field : FieldDescriptor) :
    Reading (field.offences descriptor catalog autoRules) (field.ReadAs descriptor catalog autoRules)
      (field.toModel descriptor catalog autoRules) := by
  unfold offences toModel
  cases read : TypeName.parse field.type with
  | error error => rfl
  | ok type =>
    cases holds : field.nested with
    | some held =>
      exact Reading.pure ⟨rfl, read, rfl, holds.symm, fun _ => rfl, by simp [holds], by simp [holds]⟩
    | none =>
      simp only [Option.isSome_none, Bool.false_eq_true, if_false]
      refine reading_rules.bind_ok fun rules ⟨attached, custom, same, own⟩ => ?_
      exact Reading.pure ⟨rfl, read, rfl, holds.symm, by simp [holds],
        fun _ => same ▸ own.ids, fun _ => ⟨attached, custom, same, own⟩⟩

end FieldDescriptor

/-! ### Descriptions -/

namespace TypeDescriptor

variable {descriptor : TypeDescriptor} {catalog : RuleCatalog} {autoRules : Bool}

/-- What is wrong with fields, in their order, when the names in `seen` are taken. -/
def offencesOf (descriptor : TypeDescriptor) (catalog : RuleCatalog) (autoRules : Bool)
    (seen : List String) : List FieldDescriptor → List CompileError
  | [] => []
  | field :: fields =>
    (if field.name ∈ seen then [.duplicateField descriptor.name field.name] else []) ++
      field.offences descriptor catalog autoRules ++
      offencesOf descriptor catalog autoRules (field.name :: seen) fields

/-- What is wrong with a description: with its fields, and then with its hooks. -/
def offences (descriptor : TypeDescriptor) (catalog : RuleCatalog) (options : Options) :
    List CompileError :=
  descriptor.offencesOf catalog (descriptor.settings.autoRules.getD options.autoRules) []
      descriptor.fields ++
    (descriptor.routineOffences TypeModel.beforeName ++
      descriptor.routineOffences TypeModel.afterName)

/-- The names of the fields differ, all fields are well-formed, and the hooks can be read. -/
structure WellFormed (descriptor : TypeDescriptor) (catalog : RuleCatalog) (options : Options) :
    Prop where
  distinct : (descriptor.fields.map FieldDescriptor.name).Nodup
  fields : ∀ field ∈ descriptor.fields, field.WellFormed descriptor catalog
    (descriptor.settings.autoRules.getD options.autoRules)
  before : ∀ rule, descriptor.routine? "before_validate" = some rule → rule.Readable
  after : ∀ rule, descriptor.routine? "after_validate" = some rule → rule.Readable

theorem offencesOf_eq_nil_iff {seen : List String} {fields : List FieldDescriptor} :
    descriptor.offencesOf catalog autoRules seen fields = [] ↔
      (fields.map FieldDescriptor.name).Nodup ∧
        (∀ name ∈ fields.map FieldDescriptor.name, name ∉ seen) ∧
        ∀ field ∈ fields, field.WellFormed descriptor catalog autoRules := by
  induction fields generalizing seen with
  | nil => simp [offencesOf]
  | cons field fields ih =>
    have fresh : (if field.name ∈ seen then
        [CompileError.duplicateField descriptor.name field.name] else []) = [] ↔ field.name ∉ seen := by
      by_cases known : field.name ∈ seen <;> simp [known]
    rw [offencesOf, List.append_eq_nil_iff, List.append_eq_nil_iff, fresh, ih,
      FieldDescriptor.offences_eq_nil_iff, List.map_cons, List.nodup_cons, List.forall_mem_cons,
      List.forall_mem_cons]
    simp only [List.mem_cons, not_or]
    constructor
    · intro ⟨⟨isNew, own⟩, distinct, others, formed⟩
      refine ⟨⟨fun again => ?_, distinct⟩, ⟨isNew, fun name member => (others name member).2⟩, own, formed⟩
      exact (others _ again).1 rfl
    · intro ⟨⟨once, distinct⟩, ⟨isNew, others⟩, own, formed⟩
      refine ⟨⟨isNew, own⟩, distinct, fun name member => ⟨?_, others name member⟩, formed⟩
      intro same
      exact once (same ▸ member)

/-- A description has no offence if and only if it is well-formed. -/
theorem offences_eq_nil_iff {options : Options} :
    descriptor.offences catalog options = [] ↔ descriptor.WellFormed catalog options := by
  rw [offences, List.append_eq_nil_iff, List.append_eq_nil_iff, offencesOf_eq_nil_iff,
    routineOffences_eq_nil_iff, routineOffences_eq_nil_iff]
  constructor
  · intro ⟨⟨distinct, _, formed⟩, before, after⟩
    exact ⟨distinct, formed, before, after⟩
  · intro ⟨distinct, formed, before, after⟩
    exact ⟨⟨distinct, fun _ _ => List.not_mem_nil, formed⟩, before, after⟩

end TypeDescriptor

namespace TypeModel

variable {descriptor : TypeDescriptor} {catalog : RuleCatalog} {autoRules : Bool}

theorem reading_hook (name : String) :
    Reading (descriptor.routineOffences name) (fun _ => True) (hook descriptor name) := by
  unfold TypeDescriptor.routineOffences hook
  cases descriptor.routine? name with
  | none => exact Reading.pure trivial
  | some rule => exact (BoundRule.reading_ofRule name rule).map fun _ _ => trivial

theorem reading_fieldsOf (seen : List String) (fields : List FieldDescriptor) :
    Reading (descriptor.offencesOf catalog autoRules seen fields)
      (List.Forall₂ (FieldDescriptor.ReadAs descriptor catalog autoRules) fields)
      (fieldsOf descriptor catalog autoRules seen fields) := by
  induction fields generalizing seen with
  | nil => exact Reading.pure .nil
  | cons field fields ih =>
    rw [TypeDescriptor.offencesOf, fieldsOf]
    by_cases known : field.name ∈ seen
    · simp only [known, List.contains_iff_mem, if_true]
      rfl
    · simp only [known, List.contains_iff_mem, if_false, List.nil_append]
      exact (FieldDescriptor.reading_toModel field).bind fun model own =>
        (ih (field.name :: seen)).bind_ok fun models others => Reading.pure (.cons own others)

/-- A description is read exactly if it is well-formed, as what it describes; and otherwise the first
offence is reported. -/
theorem ofDescriptor_reads (descriptor : TypeDescriptor) (catalog : RuleCatalog) (options : Options) :
    match ofDescriptor descriptor catalog options with
    | .ok model => descriptor.WellFormed catalog options ∧
        List.Forall₂ (FieldDescriptor.ReadAs descriptor catalog
          (descriptor.settings.autoRules.getD options.autoRules)) descriptor.fields model.fields
    | .error error => ¬ descriptor.WellFormed catalog options ∧
        (descriptor.offences catalog options).head? = some error := by
  have ends : Reading (descriptor.offences catalog options)
      (fun model : TypeModel => List.Forall₂ (FieldDescriptor.ReadAs descriptor catalog
        (descriptor.settings.autoRules.getD options.autoRules)) descriptor.fields model.fields)
      (ofDescriptor descriptor catalog options) :=
    (reading_fieldsOf [] descriptor.fields).bind fun fields read =>
      (reading_hook beforeName).bind fun before _ =>
        (reading_hook afterName).bind_ok fun after _ => Reading.pure read
  rw [← TypeDescriptor.offences_eq_nil_iff]
  cases done : ofDescriptor descriptor catalog options with
  | ok model =>
    rw [done] at ends
    exact ends
  | error error =>
    rw [done] at ends
    refine ⟨fun none => ?_, ends⟩
    have first : (descriptor.offences catalog options).head? = some error := ends
    rw [none] at first
    cases first

end TypeModel

end Assay
