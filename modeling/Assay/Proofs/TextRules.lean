/-
Module: Assay.Proofs.TextRules
Purpose: What the built-in rules on phone numbers and passwords say of a text. A phone number is measured
  in bytes and written in characters, which comes to the same where every character takes one byte. The
  characters of a password are counted in one pass, and a longer password lacks nothing that a part of it
  has.
Main exports: Builtin.PhoneNumber.International, Builtin.PhoneNumber.numbers_reported,
  Builtin.Password.Requirement, Builtin.Password.check_reports_shortfalls
-/
import Mathlib.Data.List.Basic
import Assay.Builtin.Catalog
import Assay.Proofs.Contribution

namespace Assay.Builtin

theorem isDigit_iff {c : Char} : c.isDigit = true ↔ '0' ≤ c ∧ c ≤ '9' := by
  simp [Char.isDigit, Char.le_def]

/-! ### Phone numbers -/

namespace PhoneNumber

variable {text : List Char}

/-- The form of international phone numbers: a plus sign, a digit that is not zero, and from six to fourteen
digits more. -/
inductive International : List Char → Prop where
  | number {first : Char} {digits : List Char} (nonzero : '1' ≤ first ∧ first ≤ '9')
      (decimal : ∀ d ∈ digits, '0' ≤ d ∧ d ≤ '9') (least : 6 ≤ digits.length)
      (most : digits.length ≤ 14) : International ('+' :: first :: digits)

theorem International.length_bounds (form : International text) :
    8 ≤ text.length ∧ text.length ≤ 16 := by
  cases form with
  | number nonzero decimal least most =>
    simp only [List.length_cons]
    omega

/-- A digit other than zero is one from one to nine. -/
theorem nonzero_iff {c : Char} : ('0' ≤ c ∧ c ≤ '9') ∧ c ≠ '0' ↔ '1' ≤ c ∧ c ≤ '9' := by
  have zero : c = '0' ↔ c.val.toNat = 48 := Char.toNat_inj.symm
  simp only [Char.le_def, UInt32.le_iff_toNat_le, ne_eq, zero]
  change (48 ≤ c.val.toNat ∧ c.val.toNat ≤ 57) ∧ ¬c.val.toNat = 48 ↔
    49 ≤ c.val.toNat ∧ c.val.toNat ≤ 57
  omega

theorem hasForm_iff :
    hasForm text = true ↔ ∃ first digits, text = '+' :: first :: digits ∧
      ('1' ≤ first ∧ first ≤ '9') ∧ ∀ d ∈ digits, '0' ≤ d ∧ d ≤ '9' := by
  constructor
  · intro form
    unfold hasForm at form
    split at form
    · rename_i first digits
      simp only [Bool.and_eq_true, bne_iff_ne, isDigit_iff, nonzero_iff, List.all_eq_true] at form
      exact ⟨first, digits, rfl, form.1, form.2⟩
    · cases form
  · intro ⟨first, digits, written, nonzero, decimal⟩
    subst written
    simp only [hasForm, Bool.and_eq_true, bne_iff_ne, isDigit_iff, nonzero_iff, List.all_eq_true]
    exact ⟨nonzero, decimal⟩

/-- Every character of the form is an ASCII character, so that bytes and characters count the same. -/
theorem utf8Length_of_hasForm (form : hasForm text = true) :
    Text.utf8Length text = text.length := by
  have single (c : Char) (bound : c ≤ '9') : c.utf8Size = 1 := by
    have small : c.val ≤ 0x7f := UInt32.le_trans bound (by decide)
    simp [Char.utf8Size, small]
  have counted (digits : List Char) (decimal : ∀ d ∈ digits, '0' ≤ d ∧ d ≤ '9') :
      Text.utf8Length digits = digits.length := by
    induction digits with
    | nil => rfl
    | cons c digits ih =>
      have rest := ih fun d member => decimal d (List.mem_cons_of_mem c member)
      have size := single c (decimal c List.mem_cons_self).2
      simp only [Text.utf8Length_cons, List.length_cons]
      omega
  obtain ⟨first, digits, written, nonzero, decimal⟩ := hasForm_iff.1 form
  subst written
  have plus := single '+' (by decide)
  have size := single first nonzero.2
  have rest := counted digits decimal
  simp only [Text.utf8Length_cons, List.length_cons]
  omega

/-- The form and the bounds on the characters are all there is to an international number. -/
theorem international_iff :
    International text ↔ hasForm text = true ∧ minLength ≤ text.length ∧ text.length ≤ maxLength := by
  constructor
  · intro form
    have bounds := form.length_bounds
    cases form with
    | number nonzero decimal least most =>
      exact ⟨hasForm_iff.2 ⟨_, _, rfl, nonzero, decimal⟩, bounds⟩
  · intro ⟨form, least, most⟩
    obtain ⟨first, digits, written, nonzero, decimal⟩ := hasForm_iff.1 form
    subst written
    simp only [minLength, maxLength, List.length_cons] at least most
    exact .number nonzero decimal (by omega) (by omega)

instance : DecidablePred International :=
  fun _ => decidable_of_iff _ international_iff.symm

/-- The bounds on the bytes are bounds on the characters. -/
theorem isValid_iff {text : String} : isValid text = true ↔ International text.toList := by
  have same (form : hasForm text.toList = true) := utf8Length_of_hasForm form
  simp only [isValid, Bool.and_eq_true, decide_eq_true_eq, international_iff]
  constructor
  · intro ⟨⟨least, most⟩, form⟩
    have bytes := same form
    exact ⟨form, by omega, by omega⟩
  · intro ⟨form, least, most⟩
    have bytes := same form
    exact ⟨⟨by omega, by omega⟩, form⟩

/-- The rule on phone numbers accepts exactly the texts of the international form, whatever it is attached
with: of a text of another form it says one thing, and of all other values nothing. -/
theorem numbers_reported (rooms : Rooms) (args : RuleArgs) :
    RuleCatalog.builtin.make? "phone_number" args = .ok (some rule) ∧
    (∀ text : String, isValid text = true ↔ International text.toList) ∧
    (∀ text : List Char, International text → 8 ≤ text.length ∧ text.length ≤ 16) ∧
    ∃ returns, TypeName.parse rule.signature.returns = .ok returns ∧
      ∀ call : Call, (rule.evaluate call).output.contribution rooms (.classify returns) =
        match call.value with
        | .text text => if International text.toList then [] else [message]
        | _ => [] := by
  refine ⟨rfl, fun _ => isValid_iff, fun _ => International.length_bounds,
    ⟨"Message", [], true⟩, by decide +kernel, ?_⟩
  intro call
  have single : ReturnShape.classify ⟨"Message", [], true⟩ = ⟨.immediate, .message, true⟩ := by
    decide
  rw [single]
  change (check call.value).contribution rooms ⟨.immediate, .message, true⟩ = _
  cases call.value with
  | text text =>
    by_cases form : International text.toList
    · simp [check, Value.text?, isValid_iff.2 form, form, RuleOutput.contribution, RuleOutput.carried]
    · have refused : isValid text = false := Bool.eq_false_iff.2 fun valid => form (isValid_iff.1 valid)
      simp [check, Value.text?, refused, form, RuleOutput.contribution, RuleOutput.carried]
  | _ => rfl

/-- The shortest and the longest number are accepted. A digit of another script takes more bytes and is no
digit here, so that a text of eight characters may be too long in bytes and is refused in any case. -/
theorem bounds_reported :
    International "+1234567".toList ∧ (8 ≤ "+1234567".toList.length ∧ "+1234567".toList.length ≤ 16) ∧
      isValid "+123456789012345" = true ∧ isValid "+12345٦٧" = false := by
  have form : International "+1234567".toList := by decide +kernel
  obtain ⟨_, valid, bounds, _⟩ := numbers_reported ⟨16, 16, id⟩ ⟨[]⟩
  exact ⟨form, bounds _ form, (valid _).2 (by decide +kernel), by decide +kernel⟩

end PhoneNumber

/-! ### Passwords -/

namespace Password

/-- What is required of a password. -/
inductive Requirement where
  | length
  | upper
  | digits
  | special
deriving DecidableEq

namespace Requirement

/-- All requirements, in the order in which they are reported. -/
def all : List Requirement := [length, upper, digits, special]

/-- The characters that count towards a requirement. -/
def counts : Requirement → Char → Bool
  | length, _ => true
  | upper, c => Unicode.isUppercase c
  | digits, c => c.isDigit
  | special, c => !Unicode.isAlphabetic c && !c.isDigit

end Requirement

/-- The number of characters that a rule requires. -/
def required (rule : Password) : Requirement → Nat
  | .length => rule.minLength
  | .upper => rule.upper
  | .digits => rule.digits
  | .special => rule.special

/-- What a rule says of too few characters. -/
def messageOf (rule : Password) : Requirement → Message
  | .length => rule.lengthMessage
  | .upper => rule.upperMessage
  | .digits => rule.digitMessage
  | .special => rule.specialMessage

/-- The number in a tally that counts towards a requirement. -/
def Tally.of (tally : Tally) : Requirement → Nat
  | .length => tally.length
  | .upper => tally.upper
  | .digits => tally.digits
  | .special => tally.special

/-- One more character counts towards the requirements that it meets, and towards no other. -/
theorem Tally.of_add (tally : Tally) (c : Char) (requirement : Requirement) :
    (tally.add c).of requirement =
      tally.of requirement + if requirement.counts c then 1 else 0 := by
  cases requirement <;> grind [Tally.add, Tally.of, Requirement.counts]

/-- One pass over characters counts for every requirement the characters that meet it. -/
theorem Tally.of_foldl (tally : Tally) (chars : List Char) (requirement : Requirement) :
    (chars.foldl Tally.add tally).of requirement =
      tally.of requirement + chars.countP requirement.counts := by
  induction chars generalizing tally with
  | nil => simp
  | cons c chars ih =>
    rw [List.foldl_cons, ih, Tally.of_add, List.countP_cons]
    omega

theorem of_tally (text : String) (requirement : Requirement) :
    (tally text).of requirement = text.toList.countP requirement.counts := by
  have start : ({} : Tally).of requirement = 0 := by cases requirement <;> rfl
  rw [tally, Tally.of_foldl, start, Nat.zero_add]

/-- Whether a text has fewer characters for a requirement than a rule requires. -/
def lacks (rule : Password) (text : String) (requirement : Requirement) : Bool :=
  text.toList.countP requirement.counts < rule.required requirement

/-- What is said of a text are the messages for what it lacks. -/
theorem check_eq (rule : Password) (text : String) :
    rule.check (some text) = (Requirement.all.filter (rule.lacks text)).map rule.messageOf := by
  have head (requirement : Requirement) (more : List Requirement) :
      ((requirement :: more).filter (rule.lacks text)).map rule.messageOf =
        (if (tally text).of requirement < rule.required requirement
          then [rule.messageOf requirement] else []) ++
        (more.filter (rule.lacks text)).map rule.messageOf := by
    rw [of_tally, List.filter_cons]
    by_cases short : text.toList.countP requirement.counts < rule.required requirement
    · simp [lacks, short]
    · simp [lacks, short]
  simp only [Requirement.all, head, List.filter_nil, List.map_nil, List.append_nil, ← List.append_assoc]
  rfl

/-- A text that has another one in it lacks no more than that one. -/
theorem check_sublist (rule : Password) {part whole : String}
    (inside : ∀ counts : Char → Bool, part.toList.countP counts ≤ whole.toList.countP counts) :
    (rule.check (some whole)).Sublist (rule.check (some part)) := by
  rw [check_eq, check_eq]
  apply List.Sublist.map
  apply List.monotone_filter_right
  intro requirement lacking
  have more := inside requirement.counts
  simp only [lacks, decide_eq_true_eq] at lacking ⊢
  omega

/-- What is said of a password are the messages, in order, for exactly those requirements for which it has
fewer characters than required. So it matters how often each character occurs and not where, a text that
is made longer on either side lacks no more than before, and of an absent password the length is said
alone. -/
theorem check_reports_shortfalls (rule : Password) (text more : String) :
    rule.check (some text) = (Requirement.all.filter fun requirement =>
        text.toList.countP requirement.counts < rule.required requirement).map rule.messageOf ∧
    (∀ other : String, text.toList.Perm other.toList →
      rule.check (some text) = rule.check (some other)) ∧
    (rule.check (some (text ++ more))).Sublist (rule.check (some text)) ∧
    (rule.check (some (text ++ more))).Sublist (rule.check (some more)) ∧
    rule.check none = [rule.lengthMessage] := by
  refine ⟨check_eq rule text, ?_, ?_, ?_, rfl⟩
  · intro other same
    have lacking : rule.lacks text = rule.lacks other := by
      funext requirement
      rw [lacks, lacks, same.countP_eq]
    rw [check_eq, check_eq, lacking]
  · apply check_sublist
    intro counts
    simp [String.toList_append, List.countP_append]
  · apply check_sublist
    intro counts
    simp [String.toList_append, List.countP_append]

/-- A password with a letter that is both uppercase and no ASCII character, and with a numeral that is no
digit and special: in another order it lacks the same digit. -/
theorem shuffled_password_reported :
    (strong 4).check (some "Éb½c") = [(strong 4).digitMessage] ∧
      "Éb½c".toList.Perm "½cbÉ".toList ∧
      (strong 4).check (some "Éb½c") = (strong 4).check (some "½cbÉ") := by
  have reported := check_reports_shortfalls (strong 4) "Éb½c" ""
  have same : "Éb½c".toList.Perm "½cbÉ".toList := by decide
  have short : (strong 4).check (some "Éb½c") = [(strong 4).digitMessage] := by
    rw [reported.1]
    have lacking : (Requirement.all.filter fun requirement =>
        "Éb½c".toList.countP requirement.counts < (strong 4).required requirement) = [.digits] := by
      decide +kernel
    rw [lacking]
    rfl
  exact ⟨short, same, reported.2.1 "½cbÉ" same⟩

end Password

end Assay.Builtin
