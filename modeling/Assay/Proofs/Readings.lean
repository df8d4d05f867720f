/-
Module: Assay.Proofs.Readings
Purpose: What the reader of types reads, as a relation between a text, a type and the rest of the text.
  A type is the brackets of the unit type, the value of a binding, or a name with or without arguments;
  arguments stand between brackets and commas, with lifetimes among them. The relation has no stops
  and no measure of progress, so that what is true of all accepted texts is shown by its cases.
Main exports: TypeName.ReadsType, TypeName.readType_eq_ok_iff, TypeName.Accepts, TypeName.parse_eq_ok_iff
-/
import Assay.Proofs.Scanning

namespace Assay.TypeName

open Unicode

variable {text rest : List Char} {type : TypeName} {args : List TypeName}

/-! ### The relation -/

/-- A name stands at the front of a text, and not the brackets of the unit type. -/
structure Named (bare : List Char) : Prop where
  unbracketed : Text.after? ['(', ')'] bare = none
  filled : lastSegment (bare.takeWhile isNameChar) ≠ []

/-- A name starts with a character of a name. -/
theorem Named.starts {bare : List Char} (named : Named bare) :
    ∃ c rest, bare = c :: rest ∧ isNameChar c = true := by
  cases bare with
  | nil => exact absurd rfl named.filled
  | cons c rest =>
    refine ⟨c, rest, rfl, ?_⟩
    by_contra unnamed
    exact named.filled (by simp [unnamed, lastSegment, afterLastPath?])

theorem named_of_filled {bare : List Char}
    (filled : lastSegment (bare.takeWhile isNameChar) ≠ []) : Named bare where
  unbracketed := by
    cases found : Text.after? ['(', ')'] bare with
    | none => rfl
    | some behind =>
      have bracket : isNameChar '(' = false := by decide +kernel
      rw [Text.after?_eq_some_iff.1 found] at filled
      simp [bracket, lastSegment, afterLastPath?] at filled
  filled := filled

mutual

/-- A type is read off the front of a text, and the rest of the text is left. -/
inductive ReadsType : List Char → TypeName → List Char → Prop where
  /-- The brackets of the unit type. -/
  | unit {text behind : List Char}
      (brackets : Text.after? ['(', ')'] (skipLeads text) = some behind) :
    ReadsType text (compose "()" [] (takeMark (trimStart behind)).1) (takeMark (trimStart behind)).2
  /-- A binding is read as its value. -/
  | binding {text value rest : List Char} {type : TypeName} (named : Named (skipLeads text))
      (follows : trimStart (dropName (skipLeads text)) = '=' :: value)
      (bound : ReadsType value type rest) : ReadsType text type rest
  /-- A name and its arguments. -/
  | applied {text list behind : List Char} {args : List TypeName} (named : Named (skipLeads text))
      (follows : trimStart (dropName (skipLeads text)) = '<' :: list)
      (listed : ReadsArgs list args behind) :
    ReadsType text (compose (leadingName (skipLeads text)) args (takeMark (skipBounds behind)).1)
      (takeMark (skipBounds behind)).2
  /-- A name alone. -/
  | name {text behind : List Char} (named : Named (skipLeads text))
      (follows : trimStart (dropName (skipLeads text)) = behind)
      (unbound : ∀ value, behind ≠ '=' :: value) (unapplied : ∀ list, behind ≠ '<' :: list) :
    ReadsType text (compose (leadingName (skipLeads text)) [] (takeMark (skipBounds behind)).1)
      (takeMark (skipBounds behind)).2

/-- Arguments and the bracket that closes them are read off the front of a text. -/
inductive ReadsArgs : List Char → List TypeName → List Char → Prop where
  | close {text rest : List Char} (start : trimStart text = '>' :: rest) : ReadsArgs text [] rest
  /-- A lifetime is no argument. -/
  | lifetime {text label rest : List Char} {args : List TypeName}
      (start : trimStart text = '\'' :: label)
      (more : ReadsMore (skipBounds (dropName label)) args rest) : ReadsArgs text args rest
  | type {text behind rest : List Char} {arg : TypeName} {args : List TypeName}
      (first : ReadsType (trimStart text) arg behind)
      (more : ReadsMore (skipBounds behind) args rest) : ReadsArgs text (arg :: args) rest

/-- The closing bracket, or a comma and what follows it, is read off the front of a text. -/
inductive ReadsMore : List Char → List TypeName → List Char → Prop where
  | comma {text rest : List Char} {args : List TypeName} (listed : ReadsArgs text args rest) :
    ReadsMore (',' :: text) args rest
  | close {rest : List Char} : ReadsMore ('>' :: rest) [] rest

end

/-- Only what stands behind the leads decides what is read. -/
theorem ReadsType.congr {text' : List Char} (reads : ReadsType text type rest)
    (same : skipLeads text = skipLeads text') : ReadsType text' type rest := by
  cases reads with
  | unit brackets => exact .unit (same ▸ brackets)
  | binding named follows bound => exact .binding (same ▸ named) (same ▸ follows) bound
  | applied named follows listed =>
    rw [same]
    exact .applied (same ▸ named) (same ▸ follows) listed
  | name named follows unbound unapplied =>
    rw [same]
    exact .name (same ▸ named) (same ▸ follows) unbound unapplied

/-- A type starts with a bracket of the unit type or with the character of a name. -/
theorem ReadsType.starts (reads : ReadsType text type rest) :
    ∃ c bare, skipLeads text = c :: bare ∧ (c = '(' ∨ isNameChar c = true) := by
  have named (named : Named (skipLeads text)) :
      ∃ c bare, skipLeads text = c :: bare ∧ (c = '(' ∨ isNameChar c = true) := by
    obtain ⟨c, bare, front, isName⟩ := named.starts
    exact ⟨c, bare, front, .inr isName⟩
  cases reads with
  | unit brackets => exact ⟨_, _, Text.after?_eq_some_iff.1 brackets, .inl rfl⟩
  | binding found _ _ => exact named found
  | applied found _ _ => exact named found
  | name found _ _ _ => exact named found

/-- What a type is read off starts with neither a closing bracket nor a lifetime. -/
theorem ReadsType.opens (reads : ReadsType (trimStart text) type rest) {c : Char}
    {behind : List Char} (start : trimStart text = c :: behind) : c ≠ '>' ∧ c ≠ '\'' := by
  have strange (strange : afterLead? (c :: behind) = none) (unnamed : isNameChar c = false)
      (unbracketed : c ≠ '(') : False := by
    obtain ⟨d, bare, front, known⟩ := reads.starts
    rw [skipLeads_of_none (by rw [trimStart_trimStart, start, strange]), trimStart_trimStart,
      start] at front
    obtain ⟨rfl, rfl⟩ := List.cons.inj front
    simp [unnamed, unbracketed] at known
  constructor
  · rintro rfl
    exact strange (by simp [afterLead?, leads, Text.after?]) (by decide +kernel) (by decide)
  · rintro rfl
    exact strange (by simp [afterLead?, leads, Text.after?]) (by decide +kernel) (by decide)

/-! ### Agreement with the reader -/

theorem readHead_of_brackets {behind : List Char}
    (brackets : Text.after? ['(', ')'] (skipLeads text) = some behind) :
    ∃ shorter, readHead text = .ok ⟨.unit, behind, shorter⟩ := by
  have longer := Text.length_of_after?_eq_some brackets
  have shorter : behind.length < text.length := by
    have leads := length_skipLeads_le text
    simp only [List.length_cons, List.length_nil] at longer
    omega
  refine ⟨shorter, ?_⟩
  simp only [readHead]
  split
  · rename_i found
    cases brackets.symm.trans found
    rfl
  · simp_all

theorem readHead_of_named (named : Named (skipLeads text)) :
    ∃ shorter, readHead text = .ok ⟨.name (lastSegment ((skipLeads text).takeWhile isNameChar)),
      dropName (skipLeads text), shorter⟩ := by
  have shorter : (dropName (skipLeads text)).length < text.length :=
    Nat.lt_of_lt_of_le (takeWhile_isNameChar_ne_nil named.filled) (length_skipLeads_le text)
  refine ⟨shorter, ?_⟩
  simp only [readHead]
  split
  · rename_i found
    cases named.unbracketed.symm.trans found
  · rw [dif_neg named.filled]

theorem readHead_eq_unit {behind : List Char} {shorter : behind.length < text.length}
    (head : readHead text = .ok ⟨.unit, behind, shorter⟩) :
    Text.after? ['(', ')'] (skipLeads text) = some behind := by
  simp only [readHead] at head
  split at head
  · rename_i brackets
    cases head
    exact brackets
  · split at head <;> cases head

theorem length_lt_of_start {c : Char} (start : trimStart text = c :: rest) :
    rest.length < text.length := by
  have blanks := length_trimStart_le text
  rw [start, List.length_cons] at blanks
  omega

theorem readHead_eq_name {chars behind : List Char} {shorter : behind.length < text.length}
    (head : readHead text = .ok ⟨.name chars, behind, shorter⟩) :
    Named (skipLeads text) ∧ chars = lastSegment ((skipLeads text).takeWhile isNameChar) ∧
      behind = dropName (skipLeads text) := by
  simp only [readHead] at head
  split at head
  · cases head
  · rename_i unbracketed
    split at head
    · cases head
    · rename_i filled
      cases head
      exact ⟨⟨unbracketed, filled⟩, rfl, rfl⟩

mutual

/-- What the reader returns is read off the text. -/
theorem readsType_of_readType {text : List Char} {read : Read TypeName text}
    (done : readType text = .ok read) : ReadsType text read.value read.rest := by
  rw [readType] at done
  split at done
  case h_1 => cases done
  case h_2 behind shorter head =>
    cases done
    exact .unit (readHead_eq_unit head)
  case h_3 chars behind shorter head =>
    obtain ⟨named, rfl, rfl⟩ := readHead_eq_name head
    split at done
    case h_1 value follows =>
      have inside := Nat.lt_trans (length_lt_of_start follows) shorter
      split at done
      · cases done
      · rename_i bound found
        cases done
        exact .binding named follows (readsType_of_readType found)
    case h_2 list follows =>
      have inside := Nat.lt_trans (length_lt_of_start follows) shorter
      split at done
      · cases done
      · rename_i args found
        cases done
        exact .applied named follows (readsArgs_of_readArgs found)
    case h_3 unbound unapplied =>
      cases done
      exact .name named rfl unbound unapplied
termination_by 2 * text.length

/-- The arguments that the reader returns are read off the text. -/
theorem readsArgs_of_readArgs {text : List Char} {read : Read (List TypeName) text}
    (done : readArgs text = .ok read) : ReadsArgs text read.value read.rest := by
  rw [readArgs] at done
  split at done
  case h_1 rest start =>
    cases done
    exact .close start
  case h_2 label start =>
    have inside := length_lt_of_start start
    have skipped := length_dropName_le label
    have bounds := length_skipBounds_le (dropName label)
    split at done
    · cases done
    · rename_i more found
      cases done
      exact .lifetime start (readsMore_of_readMore found)
  case h_3 unclosed unquoted =>
    have blanks := length_trimStart_le text
    split at done
    · cases done
    · rename_i arg first
      have inside := arg.shorter
      have bounds := length_skipBounds_le arg.rest
      split at done
      · cases done
      · rename_i more found
        cases done
        exact .type (readsType_of_readType first) (readsMore_of_readMore found)
termination_by 2 * text.length + 1

/-- What the reader returns behind an argument is read off the text. -/
theorem readsMore_of_readMore {text : List Char} {read : Read (List TypeName) text}
    (done : readMore text = .ok read) : ReadsMore text read.value read.rest := by
  unfold readMore at done
  split at done
  case h_1 rest =>
    have inside : rest.length < (',' :: rest).length := by simp
    split at done
    · cases done
    · rename_i more found
      cases done
      exact .comma (readsArgs_of_readArgs found)
  case h_2 rest =>
    cases done
    exact .close
  case h_3 => cases done
termination_by 2 * text.length

end

mutual

/-- The reader returns what is read off the text. -/
theorem ReadsType.readType {text rest : List Char} {type : TypeName} :
    ReadsType text type rest → ∃ read, readType text = .ok read ∧ read.value = type ∧ read.rest = rest
  | .unit brackets => by
    obtain ⟨shorter, head⟩ := readHead_of_brackets brackets
    rw [TypeName.readType, head]
    exact ⟨_, rfl, rfl, rfl⟩
  | .binding named follows bound => by
    obtain ⟨shorter, head⟩ := readHead_of_named named
    obtain ⟨read, done, rfl, rfl⟩ := bound.readType
    rw [TypeName.readType, head]
    dsimp only
    split
    · rename_i value found
      cases follows.symm.trans found
      rw [done]
      exact ⟨_, rfl, rfl, rfl⟩
    · rename_i list found
      cases follows.symm.trans found
    · rename_i unbound _
      exact absurd follows (unbound _)
  | .applied named follows listed => by
    obtain ⟨shorter, head⟩ := readHead_of_named named
    obtain ⟨read, done, rfl, rfl⟩ := listed.readArgs
    rw [TypeName.readType, head]
    dsimp only
    split
    · rename_i value found
      cases follows.symm.trans found
    · rename_i list found
      cases follows.symm.trans found
      rw [done]
      exact ⟨_, rfl, rfl, rfl⟩
    · rename_i unapplied
      exact absurd follows (unapplied _)
  | .name named follows unbound unapplied => by
    obtain ⟨shorter, head⟩ := readHead_of_named named
    subst follows
    rw [TypeName.readType, head]
    dsimp only
    split
    · rename_i value found
      exact absurd found (unbound value)
    · rename_i list found
      exact absurd found (unapplied list)
    · exact ⟨_, rfl, rfl, rfl⟩

/-- The reader returns the arguments that are read off the text. -/
theorem ReadsArgs.readArgs {text rest : List Char} {args : List TypeName} :
    ReadsArgs text args rest → ∃ read, readArgs text = .ok read ∧ read.value = args ∧ read.rest = rest
  | .close start => by
    rw [TypeName.readArgs]
    split
    · rename_i found
      cases start.symm.trans found
      exact ⟨_, rfl, rfl, rfl⟩
    · rename_i found
      cases start.symm.trans found
    · rename_i unclosed _
      exact absurd start (unclosed _)
  | .lifetime start more => by
    obtain ⟨read, done, rfl, rfl⟩ := more.readMore
    rw [TypeName.readArgs]
    split
    · rename_i found
      cases start.symm.trans found
    · rename_i found
      cases start.symm.trans found
      rw [done]
      exact ⟨_, rfl, rfl, rfl⟩
    · rename_i unquoted
      exact absurd start (unquoted _)
  | .type first more => by
    obtain ⟨read', done', rfl, rfl⟩ := more.readMore
    obtain ⟨arg, read, rfl, rfl⟩ := first.readType
    rw [TypeName.readArgs]
    split
    · rename_i found
      exact absurd rfl (first.opens found).1
    · rename_i found
      exact absurd rfl (first.opens found).2
    · rw [read]
      dsimp only
      rw [done']
      exact ⟨_, rfl, rfl, rfl⟩

/-- The reader returns what is read off the text behind an argument. -/
theorem ReadsMore.readMore {text rest : List Char} {args : List TypeName} :
    ReadsMore text args rest → ∃ read, readMore text = .ok read ∧ read.value = args ∧ read.rest = rest
  | .comma listed => by
    obtain ⟨read, done, rfl, rfl⟩ := listed.readArgs
    refine ⟨read.within _ (by simp), ?_, rfl, rfl⟩
    unfold TypeName.readMore
    simp only [done]
  | .close => by
    unfold TypeName.readMore
    exact ⟨_, rfl, rfl, rfl⟩

end

/-- The reader returns exactly what is read off the text. -/
theorem readType_eq_ok_iff :
    (∃ read, readType text = .ok read ∧ read.value = type ∧ read.rest = rest) ↔
      ReadsType text type rest := by
  constructor
  · rintro ⟨read, done, rfl, rfl⟩
    exact readsType_of_readType done
  · exact ReadsType.readType

/-! ### Whole texts -/

/-- A text is read as a type with nothing but blanks left behind it. -/
def Accepts (text : List Char) (type : TypeName) : Prop :=
  ∃ rest, ReadsType text type rest ∧ ∀ c ∈ rest, isBlank c = true

theorem parse_eq_ok_iff {text : String} :
    TypeName.parse text = .ok type ↔ Accepts text.toList type := by
  constructor
  · intro accepted
    rw [TypeName.parse, TypeName.read] at accepted
    cases done : TypeName.readType text.toList with
    | error stop => simp [done] at accepted
    | ok read =>
      simp only [done] at accepted
      cases behind : trimStart read.rest with
      | nil =>
        simp only [behind, Except.ok.injEq] at accepted
        exact ⟨read.rest, accepted ▸ readsType_of_readType done, trimStart_eq_nil_iff.1 behind⟩
      | cons c rest => simp [behind] at accepted
  · rintro ⟨rest, reads, blank⟩
    obtain ⟨read, done, rfl, rfl⟩ := reads.readType
    simp [TypeName.parse, TypeName.read, done, trimStart_eq_nil_iff.2 blank]

end Assay.TypeName
