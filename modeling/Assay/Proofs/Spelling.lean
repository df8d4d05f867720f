/-
Module: Assay.Proofs.Spelling
Purpose: Two ways to get the name of a type out of its text. Registrations cut the leads, the arguments
  and the path off; the reader of signatures walks over all that may stand around a name. They find the
  same name where the text spells the type out, with nothing around the name but leads, arguments and
  blanks, and with lifetimes only where a path that is cut off stands behind them.
Main exports: TypeName.PassesOver, TypeName.isPlain, TypeName.Reads, TypeName.simpleName_eq_name
-/
import Assay.Error
import Mathlib.Data.List.DropRight

namespace Assay

namespace Unicode

variable {text blanks : List Char}

theorem trimStart_append_blanks (blank : ∀ c ∈ blanks, isBlank c = true)
    (filled : trimStart (text ++ blanks) ≠ []) :
    trimStart (text ++ blanks) = trimStart text ++ blanks := by
  rw [trimStart, List.dropWhile_append] at *
  by_cases all : (text.dropWhile isBlank).isEmpty = true
  · simp [all, List.dropWhile_eq_nil_iff.2 blank] at filled
  · simp [all, trimStart]

theorem trimStart_eq_nil_iff : trimStart text = [] ↔ ∀ c ∈ text, isBlank c = true :=
  List.dropWhile_eq_nil_iff

theorem trim_append_blanks (blank : ∀ c ∈ blanks, isBlank c = true) :
    trim (text ++ blanks) = trim text := by
  have trailing (front : List Char) : trimEnd (front ++ blanks) = trimEnd front := by
    simp only [trimEnd, List.reverse_append]
    rw [List.dropWhile_append_of_pos (by simpa using blank)]
  by_cases filled : trimStart (text ++ blanks) = []
  · have vacant : trimStart text = [] := by
      simp only [trimStart_eq_nil_iff, List.mem_append] at *
      exact fun c member => filled c (.inl member)
    simp [trim, filled, vacant]
  · rw [trim, trimStart_append_blanks blank filled, trailing, trim]

/-- A text is its trimmed end and blanks behind it. -/
theorem exists_trimEnd_append (text : List Char) :
    ∃ blanks, text = trimEnd text ++ blanks ∧ ∀ c ∈ blanks, isBlank c = true :=
  ⟨text.rtakeWhile isBlank, List.rdropWhile_append_rtakeWhile.symm,
    fun _ => List.mem_rtakeWhile_imp⟩

theorem trim_of_no_blanks (none : ∀ c ∈ text, isBlank c = false) : trim text = text := by
  have kept {text : List Char} (none : ∀ c ∈ text, isBlank c = false) :
      text.dropWhile isBlank = text := by
    cases text with
    | nil => rfl
    | cons c rest => simp [none c]
  have back : ∀ c ∈ text.reverse, isBlank c = false := by simpa using none
  rw [trim, trimStart, kept none, trimEnd, kept back, List.reverse_reverse]

end Unicode

namespace TypeName

open Unicode

variable {text rest blanks : List Char}

/-- The code points of blanks are none of those that names, paths or argument lists are written with. -/
theorem isNameChar_of_isBlank {c : Char} (blank : isBlank c = true) :
    isNameChar c = false ∧ c ≠ '<' ∧ c ≠ ':' := by
  have apart : ∀ point ∈ blankRanges.flatMap fun range => List.range' range.1 (range.2 + 1 - range.1),
      isNameChar (Char.ofNat point) = false ∧
        Char.ofNat point ≠ '<' ∧ Char.ofNat point ≠ ':' := by
    decide +kernel
  obtain ⟨range, listed, within⟩ := List.any_eq_true.1 blank
  simp only [Bool.and_eq_true, decide_eq_true_eq] at within
  rw [← Char.ofNat_toNat c]
  refine apart c.toNat (List.mem_flatMap.2 ⟨range, listed, ?_⟩)
  rw [List.mem_range'_1]
  omega

/-! ### Leads -/

theorem afterLead?_eq_some_iff :
    afterLead? text = some rest ↔ ∃ lead ∈ leads, text = lead ++ rest := by
  constructor
  · intro found
    obtain ⟨lead, known, taken⟩ := List.exists_of_findSome?_eq_some found
    exact ⟨lead, known, Text.after?_eq_some_iff.1 taken⟩
  · rintro ⟨lead, known, rfl⟩
    simp only [leads, List.mem_cons, List.not_mem_nil, or_false] at known
    rcases known with rfl | rfl | rfl | rfl <;> simp [afterLead?, leads, Text.after?]

theorem dropLeads_of_some (found : afterLead? text = some rest) :
    dropLeads text = dropLeads (trimStart rest) := by
  rw [dropLeads]
  split <;> simp_all

theorem dropLeads_of_none (none : afterLead? text = none) : dropLeads text = text := by
  rw [dropLeads]
  split <;> simp_all

theorem dropLeads_append_blanks (blank : ∀ c ∈ blanks, isBlank c = true)
    (filled : trimStart (dropLeads (text ++ blanks)) ≠ []) :
    dropLeads (text ++ blanks) = dropLeads text ++ blanks := by
  generalize whole : text ++ blanks = joined at filled
  fun_induction dropLeads joined generalizing text with
  | case1 joined rest found ih =>
    have more : trimStart rest ≠ [] := by
      intro vacant
      rw [vacant, dropLeads_of_none rfl] at filled
      exact filled rfl
    obtain ⟨lead, known, split⟩ := afterLead?_eq_some_iff.1 found
    rcases List.append_eq_append_iff.1 (whole.trans split) with
      ⟨within, rfl, rest⟩ | ⟨within, rfl, rfl⟩
    · exfalso
      subst rest
      exact more (trimStart_eq_nil_iff.2 fun c member => blank c (List.mem_append_right _ member))
    · rw [trimStart_append_blanks blank more] at ih filled ⊢
      rw [dropLeads_of_some (afterLead?_eq_some_iff.2 ⟨lead, known, rfl⟩)]
      exact ih rfl filled
  | case2 joined unled =>
    have before : afterLead? text = none := by
      by_contra led
      obtain ⟨rest, found⟩ := Option.ne_none_iff_exists'.1 led
      obtain ⟨lead, known, rfl⟩ := afterLead?_eq_some_iff.1 found
      have led := afterLead?_eq_some_iff.2 ⟨lead, known, whole.symm.trans (List.append_assoc _ _ _)⟩
      simp [led] at unled
    rw [dropLeads_of_none before, whole]

/-! ### What the reader passes over -/

/-- Between a text and a rest of it there are no brackets. -/
def PassesOver (text rest : List Char) : Prop :=
  ∃ front, text = front ++ rest ∧ '<' ∉ front ∧ '>' ∉ front

namespace PassesOver

variable {middle : List Char}

theorem refl (text : List Char) : PassesOver text text :=
  ⟨[], rfl, List.not_mem_nil, List.not_mem_nil⟩

theorem trans (first : PassesOver text middle) (second : PassesOver middle rest) :
    PassesOver text rest := by
  obtain ⟨front, rfl, unopened, unclosed⟩ := first
  obtain ⟨back, rfl, unopened', unclosed'⟩ := second
  refine ⟨front ++ back, (List.append_assoc _ _ _).symm, ?_, ?_⟩
  · simp [unopened, unopened']
  · simp [unclosed, unclosed']

theorem skip {c : Char} (unopened : '<' ≠ c) (unclosed : '>' ≠ c) (rest : List Char) :
    PassesOver (c :: rest) rest :=
  ⟨[c], rfl, by simpa using unopened, by simpa using unclosed⟩

/-- Characters of a class without brackets are passed over. -/
theorem dropWhile {class' : Char → Bool} (unopened : class' '<' = false) (unclosed : class' '>' = false)
    (text : List Char) : PassesOver text (text.dropWhile class') := by
  refine ⟨text.takeWhile class', List.takeWhile_append_dropWhile.symm, ?_, ?_⟩
  · intro member
    simp [List.mem_takeWhile_imp member] at unopened
  · intro member
    simp [List.mem_takeWhile_imp member] at unclosed

end PassesOver

theorem passesOver_trimStart (text : List Char) : PassesOver text (trimStart text) :=
  .dropWhile (by decide) (by decide) text

theorem passesOver_dropName (text : List Char) : PassesOver text (dropName text) :=
  .dropWhile (by decide +kernel) (by decide +kernel) text

theorem passesOver_skipLifetime (text : List Char) : PassesOver text (skipLifetime text) := by
  unfold skipLifetime
  split
  · exact (PassesOver.skip (by decide) (by decide) _).trans (passesOver_dropName _)
  · exact .refl _

theorem passesOver_of_afterLead? (found : afterLead? text = some rest) : PassesOver text rest := by
  obtain ⟨lead, known, rfl⟩ := afterLead?_eq_some_iff.1 found
  have plain : ∀ lead ∈ leads, '<' ∉ lead ∧ '>' ∉ lead := by decide
  exact ⟨lead, rfl, plain lead known⟩

theorem passesOver_skipLeads (text : List Char) : PassesOver text (skipLeads text) := by
  fun_induction skipLeads text with
  | case1 text rest found ih =>
    exact (passesOver_trimStart text).trans
      ((passesOver_of_afterLead? found).trans ((passesOver_skipLifetime rest).trans ih))
  | case2 text unled => exact passesOver_trimStart text

/-- A registration takes no more leads off than the reader, who passes over lifetimes too. -/
theorem passesOver_dropLeads_skipLeads (text : List Char) :
    PassesOver (dropLeads (trimStart text)) (skipLeads text) := by
  fun_induction skipLeads text with
  | case1 text rest found ih =>
    rw [dropLeads_of_some found]
    by_cases quoted : ∃ label, rest = '\'' :: label
    · obtain ⟨label, rfl⟩ := quoted
      have blankless : trimStart ('\'' :: label) = '\'' :: label := rfl
      have unled : afterLead? ('\'' :: label) = none := by simp [afterLead?, leads, Text.after?]
      rw [blankless, dropLeads_of_none unled]
      exact (passesOver_skipLifetime _).trans (passesOver_skipLeads _)
    · have unlabelled : skipLifetime rest = rest := by
        unfold skipLifetime
        split
        · exact absurd ⟨_, rfl⟩ quoted
        · rfl
      rwa [unlabelled] at ih ⊢
  | case2 text unled =>
    rw [dropLeads_of_none unled]
    exact .refl _

/-! ### Paths -/

theorem afterLastPath?_append_blanks (blank : ∀ c ∈ blanks, isBlank c = true) :
    afterLastPath? (text ++ blanks) = (afterLastPath? text).map (· ++ blanks) := by
  have unmarked : ∀ {blanks : List Char}, (∀ c ∈ blanks, isBlank c = true) →
      afterLastPath? blanks = none := by
    intro blanks blank
    induction blanks with
    | nil => rfl
    | cons c blanks ih =>
      have first := (isNameChar_of_isBlank (blank c List.mem_cons_self)).2.2
      have rest := ih fun c member => blank c (List.mem_cons_of_mem _ member)
      simp only [afterLastPath?, rest]
      split
      · exact absurd rfl first
      · rfl
  induction text with
  | nil => simp [unmarked blank, afterLastPath?]
  | cons c text ih =>
    simp only [List.cons_append, afterLastPath?, ih]
    cases afterLastPath? text with
    | some segment => rfl
    | none =>
      simp only [Option.map_none]
      cases text with
      | nil =>
        cases blanks with
        | nil => simp
        | cons b blanks =>
          have first := (isNameChar_of_isBlank (blank b List.mem_cons_self)).2.2
          simp only [List.nil_append]
          split
          · rename_i same
            exact absurd (List.cons.inj same).1 first
          · simp
      | cons d text =>
        simp only [List.cons_append]
        by_cases marked : c = ':' ∧ d = ':'
        · obtain ⟨rfl, rfl⟩ := marked
          rfl
        · split <;> split <;> simp_all

theorem lastSegment_append_blanks (blank : ∀ c ∈ blanks, isBlank c = true) :
    lastSegment (text ++ blanks) = lastSegment text ++ blanks := by
  simp only [lastSegment, afterLastPath?_append_blanks blank]
  cases afterLastPath? text <;> rfl

/-- What stands in front of a path does not change its last segment. -/
theorem lastSegment_append_path {path : List Char} (marked : (afterLastPath? path).isSome)
    (front : List Char) : lastSegment (front ++ path) = lastSegment path := by
  obtain ⟨segment, found⟩ := Option.isSome_iff_exists.1 marked
  have behind : afterLastPath? (front ++ path) = some segment := by
    induction front with
    | nil => exact found
    | cons c front ih => simp [afterLastPath?, ih]
  simp [lastSegment, found, behind]

/-- The segments of a path have no characters of their own. -/
theorem mem_of_mem_lastSegment {c : Char} (member : c ∈ lastSegment text) : c ∈ text := by
  have inside : ∀ {text segment : List Char}, afterLastPath? text = some segment →
      c ∈ segment → c ∈ text := by
    intro text segment found member
    fun_induction afterLastPath? text generalizing segment with
    | case1 => cases found
    | case2 c' rest segment' found' ih =>
      cases found
      exact List.mem_cons_of_mem _ (ih found' member)
    | case3 segment' _ _ =>
      cases found
      simp [member]
    | case4 => cases found
  cases found : afterLastPath? text with
  | none => simpa [lastSegment, found] using member
  | some segment => exact inside found (by simpa [lastSegment, found] using member)

/-- Behind the leads of a text, blanks at its end do not change what it is called. -/
theorem simpleName_eq {text : String}
    (filled : trimStart (dropLeads (trimStart text.toList)) ≠ []) :
    simpleName text = String.ofList (trim (lastSegment
      ((dropLeads (trimStart text.toList)).takeWhile (· ≠ '<')))) := by
  obtain ⟨blanks, whole, blank⟩ := exists_trimEnd_append (trimStart text.toList)
  have unopened : ∀ c ∈ blanks, decide (c ≠ '<') = true := fun c member => by
    simpa using (isNameChar_of_isBlank (blank c member)).2.1
  rw [whole] at filled
  have trimmed : trimEnd (trimStart text.toList) = trim text.toList := rfl
  rw [simpleName]
  conv_rhs => rw [whole, dropLeads_append_blanks blank filled, List.takeWhile_append]
  split
  · rename_i all
    rw [List.takeWhile_eq_self_iff.2 unopened, lastSegment_append_blanks blank,
      trim_append_blanks blank, ← trimmed, (List.takeWhile_prefix _).eq_of_length all]
  · rfl

/-! ### Plain texts -/

/-- The name that stands behind the leads of a text, without its path. -/
def leadingName (bare : List Char) : String :=
  String.ofList (lastSegment (bare.takeWhile isNameChar))

/-- Whether a text spells its type out: behind the leads stand the brackets of the unit type, a name, or
a name with its arguments, and the name is not that of a wrapper around a single argument. Lifetimes may
stand among the leads of a name with a path, which is cut off together with them. -/
def isPlain (text : String) : Bool :=
  let bare := skipLeads text.toList
  (dropLeads (trimStart text.toList) = bare ∨ (afterLastPath? (bare.takeWhile isNameChar)).isSome) &&
  match Text.after? ['(', ')'] bare with
  | some behind => (trimStart behind).isEmpty
  | none =>
    match trimStart (dropName bare) with
    | [] => true
    | '<' :: list =>
      match readArgs list with
      | .ok args => args.value.length ≠ 1 ∨ leadingName bare ∉ optionName :: transparentNames
      | .error _ => false
    | _ => false

theorem name_compose {name : String} {args : List TypeName} (nullable : Bool)
    (kept : args.length ≠ 1 ∨ name ∉ optionName :: transparentNames) :
    (compose name args nullable).name = name := by
  unfold compose
  split
  · split
    · rename_i wrapper
      simp_all
    · rfl
  · rfl

/-- What is read as a type behind the leads. -/
inductive Reads (bare : List Char) : TypeName → Prop where
  | unit {behind : List Char} {mark : Bool} (brackets : Text.after? ['(', ')'] bare = some behind) :
    Reads bare (compose "()" [] mark)
  | binding {bound : List Char} {type : TypeName} (unbracketed : Text.after? ['(', ')'] bare = none)
      (behind : trimStart (dropName bare) = '=' :: bound) : Reads bare type
  | applied {list : List Char} {args : Read (List TypeName) list} {mark : Bool}
      (unbracketed : Text.after? ['(', ')'] bare = none)
      (named : lastSegment (bare.takeWhile isNameChar) ≠ [])
      (behind : trimStart (dropName bare) = '<' :: list) (listed : readArgs list = .ok args) :
    Reads bare (compose (leadingName bare) args.value mark)
  | name {mark : Bool} (unbracketed : Text.after? ['(', ')'] bare = none)
      (named : lastSegment (bare.takeWhile isNameChar) ≠ [])
      (behind : ∀ list, trimStart (dropName bare) ≠ '<' :: list) :
    Reads bare (compose (leadingName bare) [] mark)

theorem reads_of_readType {text : List Char} {read : Read TypeName text}
    (done : readType text = .ok read) : Reads (skipLeads text) read.value := by
  rw [readType] at done
  split at done
  case h_1 => cases done
  case h_2 behind shorter head =>
    simp only [readHead] at head
    split at head
    · rename_i brackets
      cases head
      cases done
      exact .unit brackets
    · split at head <;> cases head
  case h_3 chars behind shorter head =>
    simp only [readHead] at head
    split at head
    · cases head
    · rename_i unbracketed
      split at head
      · cases head
      · rename_i named
        cases head
        split at done
        case h_1 bound follow => exact .binding unbracketed follow
        case h_2 list follow =>
          split at done
          · cases done
          · rename_i args listed
            cases done
            exact .applied unbracketed named follow listed
        case h_3 ended unapplied =>
          cases done
          exact .name unbracketed named unapplied

theorem reads_of_parse {text : String} {type : TypeName}
    (accepted : TypeName.parse text = .ok type) : Reads (skipLeads text.toList) type := by
  rw [TypeName.parse, TypeName.read] at accepted
  cases done : readType text.toList with
  | error stop => simp [done] at accepted
  | ok read =>
    have reads := reads_of_readType done
    simp only [done] at accepted
    split at accepted
    · rename_i found
      split at found
      · cases found
        cases accepted
        exact reads
      · cases found
    · cases accepted

theorem trim_lastSegment_takeWhile (bare : List Char) :
    trim (lastSegment (bare.takeWhile isNameChar)) = lastSegment (bare.takeWhile isNameChar) := by
  refine trim_of_no_blanks fun c member => ?_
  have isName : isNameChar c = true := List.mem_takeWhile_imp (mem_of_mem_lastSegment member)
  by_contra blank
  have apart := (isNameChar_of_isBlank (by simpa using blank)).1
  simp [isName] at apart

/-- Up to its arguments, a text is a path and blanks. -/
theorem takeWhile_ne_bracket {bare : List Char}
    (ends : ∀ c rest, trimStart (dropName bare) = c :: rest → c = '<') :
    ∃ blanks, bare.takeWhile (· ≠ '<') = bare.takeWhile isNameChar ++ blanks ∧
      ∀ c ∈ blanks, isBlank c = true := by
  have blank : ∀ c ∈ (dropName bare).takeWhile isBlank, isBlank c = true :=
    fun c => List.mem_takeWhile_imp
  refine ⟨(dropName bare).takeWhile isBlank, ?_, blank⟩
  have whole : bare = bare.takeWhile isNameChar ++ (dropName bare).takeWhile isBlank ++
      trimStart (dropName bare) := by
    rw [List.append_assoc, takeWhile_append_trimStart, dropName, List.takeWhile_append_dropWhile]
  conv_lhs => rw [whole]
  rw [List.takeWhile_append_of_pos]
  · cases behind : trimStart (dropName bare) with
    | nil => simp
    | cons c rest => simp [ends c rest behind]
  · intro c member
    rcases List.mem_append.1 member with path | gap
    · have isName : isNameChar c = true := List.mem_takeWhile_imp path
      have bracket : isNameChar '<' = false := by decide +kernel
      have apart : c ≠ '<' := fun same => by simp [same, bracket] at isName
      simpa using apart
    · simpa using (isNameChar_of_isBlank (blank c gap)).2.1

/-- What a registration finds behind its leads and before the arguments, for a text with a name behind
the reader's leads and at most arguments behind the name. -/
theorem exists_takeWhile_dropLeads {text bare : List Char}
    (passes : PassesOver (dropLeads (trimStart text)) bare)
    (ends : ∀ c rest, trimStart (dropName bare) = c :: rest → c = '<') :
    ∃ front blanks, dropLeads (trimStart text) = front ++ bare ∧
      (dropLeads (trimStart text)).takeWhile (· ≠ '<') =
        front ++ bare.takeWhile isNameChar ++ blanks ∧
      ∀ c ∈ blanks, isBlank c = true := by
  obtain ⟨front, whole, unopened, -⟩ := passes
  obtain ⟨blanks, path, blank⟩ := takeWhile_ne_bracket ends
  refine ⟨front, blanks, whole, ?_, blank⟩
  rw [whole, List.takeWhile_append_of_pos, path, List.append_assoc]
  intro c member
  have apart : c ≠ '<' := fun same => unopened (same ▸ member)
  simpa using apart

/-- A text with a name behind its leads, and at most arguments behind the name, is called by that name,
if a path stands between the name and the lifetimes among its leads. -/
theorem simpleName_eq_leadingName {text : String}
    (clear : dropLeads (trimStart text.toList) = skipLeads text.toList ∨
      (afterLastPath? ((skipLeads text.toList).takeWhile isNameChar)).isSome)
    (named : lastSegment ((skipLeads text.toList).takeWhile isNameChar) ≠ [])
    (ends : ∀ c rest, trimStart (dropName (skipLeads text.toList)) = c :: rest → c = '<') :
    simpleName text = leadingName (skipLeads text.toList) := by
  obtain ⟨front, blanks, whole, path, blank⟩ :=
    exists_takeWhile_dropLeads (passesOver_dropLeads_skipLeads text.toList) ends
  have filled : trimStart (dropLeads (trimStart text.toList)) ≠ [] := by
    intro vacant
    obtain ⟨c, member⟩ := List.exists_mem_of_ne_nil _ named
    have inside := mem_of_mem_lastSegment member
    have isName : isNameChar c = true := List.mem_takeWhile_imp inside
    have isBlank := trimStart_eq_nil_iff.1 vacant c
      (whole ▸ List.mem_append_right _ ((List.takeWhile_prefix _).subset inside))
    simp [(isNameChar_of_isBlank isBlank).1] at isName
  have segment : lastSegment (front ++ (skipLeads text.toList).takeWhile isNameChar) =
      lastSegment ((skipLeads text.toList).takeWhile isNameChar) := by
    rcases clear with same | marked
    · have vacant : front = [] := List.self_eq_append_left.1 (same.symm.trans whole)
      rw [vacant, List.nil_append]
    · exact lastSegment_append_path marked front
  rw [simpleName_eq filled, path, lastSegment_append_blanks blank, trim_append_blanks blank, segment,
    trim_lastSegment_takeWhile, leadingName]

/-- A type is called as it is read where its text spells it out. -/
theorem simpleName_eq_name {text : String} {type : TypeName}
    (accepted : TypeName.parse text = .ok type) (plain : isPlain text = true) :
    simpleName text = type.name := by
  obtain ⟨clear, plain⟩ := Bool.and_eq_true_iff.1 plain
  have clear := of_decide_eq_true clear
  cases reads_of_parse accepted with
  | @unit rest mark brackets =>
    have whole := Text.after?_eq_some_iff.1 brackets
    have same : dropLeads (trimStart text.toList) = skipLeads text.toList := by
      have bracket : isNameChar '(' = false := by decide +kernel
      exact clear.resolve_right (by simp [whole, bracket, afterLastPath?])
    have blank : ∀ c ∈ rest, isBlank c = true := by
      simpa [brackets, trimStart_eq_nil_iff] using plain
    have unopened : ∀ c ∈ ['(', ')'] ++ rest, decide (c ≠ '<') = true := by
      have apart := fun c member => (isNameChar_of_isBlank (blank c member)).2.1
      simpa using apart
    have filled : trimStart (['(', ')'] ++ rest) ≠ [] := List.cons_ne_nil '(' _
    rw [← whole, ← same] at unopened filled
    rw [simpleName_eq filled, List.takeWhile_eq_self_iff.2 unopened, same, whole,
      lastSegment_append_blanks blank, trim_append_blanks blank]
    rfl
  | binding unbracketed behind => simp [unbracketed, behind] at plain
  | applied unbracketed named behind listed =>
    simp only [unbracketed, behind, listed, decide_eq_true_eq] at plain
    rw [name_compose _ plain, simpleName_eq_leadingName clear named]
    simp [behind]
  | name unbracketed named unapplied =>
    rw [name_compose _ (.inl (by simp)), simpleName_eq_leadingName clear named]
    intro c rest behind
    simp only [unbracketed, behind] at plain
    split at plain
    · simp_all
    · simp_all
    · cases plain

end TypeName

end Assay
