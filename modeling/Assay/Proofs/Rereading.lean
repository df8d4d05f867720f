/-
Module: Assay.Proofs.Rereading
Purpose: What is written as JSON is read back. A written document is read as what it stands for, wherever
  a comma or a closing bracket follows it: its escapes are undone, its digits denote the number they were
  written for, and lists and objects are read part by part. A message without floats is thereby read back as
  it was, each argument as one of its own sort.
Main exports: Json.ReadAs, Json.readAs_text, Json.readAs_int, Json.readAs_list, Json.readAs_object,
  Message.written_read_back
-/
import Mathlib.Data.List.Forall2
import Assay.Message.Json

namespace Assay.Json

variable {α : Type} {text rest : List Char} {document : Json}

/-! ### What is read off a text -/

/-- A reading ends with that value, and leaves that rest of the text. -/
def Reads (reading : Option (Read α text)) (value : α) (rest : List Char) : Prop :=
  ∃ read, reading = some read ∧ read.value = value ∧ read.rest = rest

/-- What ends a document inside a list or an object. -/
def closers : List Char := [',', ']', '\x7d']

/-- A text in which no document goes on: it is empty, or a comma or a closing bracket comes first. -/
def Closed (text : List Char) : Prop :=
  ∀ c rest, text = c :: rest → c ∈ closers

theorem Closed.nil : Closed [] := nofun

theorem Closed.cons {c : Char} (closer : c ∈ closers) : Closed (c :: rest) := by
  intro d behind same
  cases same
  exact closer

/-- A written document is read as what it stands for, whatever closes it. -/
def ReadAs (written : List Char) (document : Json) : Prop :=
  ∀ rest, Closed rest → Reads (readValue (written ++ rest)) document rest

/-! ### Texts -/

/-- How a character may be written inside a text: by an escape of one letter, by its number, or as it
stands. -/
inductive Escaped (c : Char) : List Char → Prop where
  | short {letter : Char} (named : letter ≠ 'u') (known : shortEscape? letter = some c) :
    Escaped c ['\\', letter]
  | number (control : c.toNat < 0x20) :
    Escaped c ['\\', 'u', '0', '0', hexDigit (c.toNat / 16), hexDigit (c.toNat % 16)]
  | plain (unquoted : c ≠ '"') (unslashed : c ≠ '\\') (shown : 0x20 ≤ c.toNat) : Escaped c [c]

theorem escaped_escape (c : Char) : Escaped c (escape c) := by
  unfold escape
  split
  case h_8 unquoted unslashed _ _ _ _ _ =>
    by_cases control : c.toNat < 0x20
    · simpa [control] using Escaped.number control
    · simpa [control] using Escaped.plain unquoted unslashed (Nat.not_lt.1 control)
  all_goals exact .short (by decide) rfl

theorem hexDigit?_hexDigit : ∀ n < 16, hexDigit? (hexDigit n) = some n := by
  decide

theorem hexUnit?_hexDigits {n : Nat} (small : n < 0x20) :
    hexUnit? '0' '0' (hexDigit (n / 16)) (hexDigit (n % 16)) = some n := by
  have zero : hexDigit? '0' = some 0 := rfl
  have high := hexDigit?_hexDigit (n / 16) (by omega)
  have low := hexDigit?_hexDigit (n % 16) (by omega)
  simp only [hexUnit?, zero, high, low, Option.some.injEq]
  omega

/-- A character is read from what is written for it. -/
theorem reads_of_escaped {c : Char} {written : List Char} (escaped : Escaped c written) :
    Reads (readChar? (written ++ rest)) (some c) rest := by
  cases escaped with
  | short named known => simp [Reads, readChar?, named, known]
  | number control =>
    have unit := hexUnit?_hexDigits control
    have noHigh : isHighHalf c.toNat = false := by simp [isHighHalf]; omega
    have noLow : isLowHalf c.toNat = false := by simp [isLowHalf]; omega
    simp [Reads, readChar?, readNumberEscape?, readUnit?, unit, noHigh, noLow, Read.map]
  | plain unquoted unslashed shown =>
    have visible : ¬c.toNat < 0x20 := Nat.not_lt.2 shown
    simp [Reads, readChar?, unslashed, visible]

/-- A character is never written so that it would end the text. -/
theorem Escaped.starts {c : Char} {written : List Char} (escaped : Escaped c written) :
    ∃ d more, written = d :: more ∧ d ≠ '"' := by
  cases escaped with
  | short named known => exact ⟨_, _, rfl, by decide⟩
  | number control => exact ⟨_, _, rfl, by decide⟩
  | plain unquoted unslashed shown => exact ⟨_, _, rfl, unquoted⟩

/-- A text is read character by character. -/
theorem Reads.readText_cons {middle chars : List Char} {c : Char}
    (unquoted : ∀ behind, text ≠ '"' :: behind) (first : Reads (readChar? text) (some c) middle)
    (more : Reads (readText middle) (some chars) rest) :
    Reads (readText text) (some (c :: chars)) rest := by
  obtain ⟨read, done, value, left⟩ := first
  subst left
  obtain ⟨read', done', value', left'⟩ := more
  rw [readText, done]
  case x => exact unquoted
  dsimp only
  rw [done']
  exact ⟨_, rfl, by simp [Read.within, Read.map, value, value', consReadable], left'⟩

/-- Escaped characters are read up to the quote that closes them. -/
theorem reads_escapes (chars : List Char) :
    Reads (readText (chars.flatMap escape ++ '"' :: rest)) (some chars) rest := by
  induction chars with
  | nil =>
    rw [List.flatMap_nil, List.nil_append, readText]
    exact ⟨_, rfl, rfl, rfl⟩
  | cons c chars ih =>
    have escaped := escaped_escape c
    have unquoted (behind : List Char) :
        escape c ++ (chars.flatMap escape ++ '"' :: rest) ≠ '"' :: behind := by
      obtain ⟨d, more, written, differs⟩ := escaped.starts
      simp [written, differs]
    rw [List.flatMap_cons, List.append_assoc]
    exact Reads.readText_cons unquoted (reads_of_escaped escaped) ih

theorem skipSpace_of_ne {c : Char} (filled : isSpace c = false) :
    skipSpace (c :: text) = c :: text := by
  simp [skipSpace, filled]

/-! ### Documents by their first character -/

section documents

variable {inner : List Char}

theorem Reads.readValue_text {chars : List Char} (start : skipSpace text = '"' :: inner)
    (reads : Reads (readText inner) (some chars) rest) :
    Reads (readValue text) (.text (String.ofList chars)) rest := by
  rw [readValue]
  split
  · rename_i found
    cases start.symm.trans found
    obtain ⟨read, done, value, left⟩ := reads
    rw [done]
    exact ⟨_, rfl, by simp [Read.within, Read.map, value, ofReadable], left⟩
  · rename_i found
    cases start.symm.trans found
  · rename_i found
    cases start.symm.trans found
  · rename_i unquoted _ _
    exact absurd start (unquoted _)

theorem Reads.readValue_list {documents : List Json} (start : skipSpace text = '[' :: inner)
    (reads : Reads (readItems true inner) documents rest) :
    Reads (readValue text) (.list documents) rest := by
  rw [readValue]
  split
  · rename_i found
    cases start.symm.trans found
  · rename_i found
    cases start.symm.trans found
    obtain ⟨read, done, value, left⟩ := reads
    rw [done]
    exact ⟨_, rfl, by simp [Read.within, Read.map, value], left⟩
  · rename_i found
    cases start.symm.trans found
  · rename_i unlisted _
    exact absurd start (unlisted _)

theorem Reads.readValue_object {members : List (Option (List Char) × Json)}
    (start : skipSpace text = '\x7b' :: inner) (reads : Reads (readMembers true inner) members rest) :
    Reads (readValue text) (ofMembers members) rest := by
  rw [readValue]
  split
  · rename_i found
    cases start.symm.trans found
  · rename_i found
    cases start.symm.trans found
  · rename_i found
    cases start.symm.trans found
    obtain ⟨read, done, value, left⟩ := reads
    rw [done]
    exact ⟨_, rfl, by simp [Read.within, Read.map, value], left⟩
  · rename_i unopened
    exact absurd start (unopened _)

/-- What starts with none of the signs of texts, lists and objects is read as a scalar. -/
theorem Reads.readValue_scalar (start : skipSpace text = inner)
    (bare : ∀ c behind, inner = c :: behind → c ∉ ['"', '[', '\x7b'])
    (scalar : Reads (readScalar? inner) document rest) : Reads (readValue text) document rest := by
  subst start
  rw [readValue]
  split
  · rename_i found
    exact absurd (bare _ _ found) (by decide)
  · rename_i found
    exact absurd (bare _ _ found) (by decide)
  · rename_i found
    exact absurd (bare _ _ found) (by decide)
  · obtain ⟨read, done, value, left⟩ := scalar
    rw [done]
    exact ⟨_, rfl, value, left⟩

end documents

theorem readAs_text (text : String) : ReadAs (writeText text) (.text text) := by
  intro rest _
  have start : skipSpace (writeText text ++ rest) =
      '"' :: (text.toList.flatMap escape ++ '"' :: rest) := by
    simp [writeText, skipSpace_of_ne, isSpace]
  have escapes : Reads _ (some text.toList) rest := reads_escapes text.toList
  have reads := escapes.readValue_text start
  rwa [String.ofList_toList] at reads

/-! ### Scalars -/

/-- A word is read wherever it stands. -/
theorem readAs_word {c : Char} {word : List Char} (filled : isSpace c = false)
    (bare : c ∉ ['"', '[', '\x7b'])
    (scalar : ∀ rest, Reads (readScalar? (c :: (word ++ rest))) document rest) :
    ReadAs (c :: word) document := by
  intro rest _
  have start : skipSpace (c :: word ++ rest) = c :: (word ++ rest) := skipSpace_of_ne filled
  apply Reads.readValue_scalar start
  · intro d behind same
    cases same
    exact bare
  · exact scalar rest

theorem readAs_null : ReadAs writeNull .null :=
  readAs_word rfl (by decide) fun _ => ⟨_, rfl, rfl, rfl⟩

theorem readAs_bool (value : Bool) : ReadAs (writeBool value) (.bool value) := by
  cases value with
  | true => exact readAs_word rfl (by decide) fun _ => ⟨_, rfl, rfl, rfl⟩
  | false => exact readAs_word rfl (by decide) fun _ => ⟨_, rfl, rfl, rfl⟩

/-! ### Numbers -/

theorem isDigit_of_mem_writeNat {n : Nat} : ∀ c ∈ writeNat n, c.isDigit = true :=
  fun _ member => Nat.isDigit_of_mem_toDigits (by decide) (by decide) member

/-- No number but zero is written with a zero in front. -/
theorem head_writeNat {n : Nat} (zero : (writeNat n).head? = some '0') : writeNat n = ['0'] := by
  induction n using Nat.strongRecOn with
  | ind n ih =>
    by_cases small : n < 10
    · rw [writeNat, Nat.toDigits_of_lt_base small] at zero ⊢
      simpa using zero
    · have split := Nat.toDigits_of_base_le (b := 10) (by decide) (Nat.not_lt.1 small)
      have front : (writeNat (n / 10)).head? = some '0' := by
        obtain ⟨c, more, first⟩ := List.exists_cons_of_ne_nil (Nat.toDigits_ne_nil (n := n / 10) (b := 10))
        rw [writeNat, split, first] at zero
        rw [writeNat, first]
        exact zero
      have shorter := ih (n / 10) (by omega) front
      have value := Nat.ofDigitChars_ten_toDigits (n := n / 10)
      rw [← writeNat, shorter] at value
      have none : n / 10 = 0 := value.symm
      omega

/-- A text behind a number that does not belong to it. -/
theorem Closed.not_numeral (closed : Closed rest) :
    ∀ c behind, rest = c :: behind → c.isDigit = false ∧ c ∉ ['.', 'e', 'E'] := by
  intro c behind same
  have closer := closed c behind same
  simp only [closers, List.mem_cons, List.not_mem_nil, or_false] at closer
  rcases closer with rfl | rfl | rfl <;> decide

theorem reads_digits {digits : List Char} (filled : digits ≠ []) (only : ∀ c ∈ digits, c.isDigit = true)
    (closed : Closed rest) : Reads (readDigits? (digits ++ rest)) digits rest := by
  have apart := closed.not_numeral
  cases digits with
  | nil => exact absurd rfl filled
  | cons c digits =>
    have first := only c List.mem_cons_self
    have more : ∀ d ∈ digits, d.isDigit = true := fun d member => only d (List.mem_cons_of_mem c member)
    have front : (digits ++ rest).takeWhile Char.isDigit = digits := by
      rw [List.takeWhile_append_of_pos more]
      cases rest with
      | nil => simp
      | cons d behind => simp [(apart d behind rfl).1]
    have behind : (digits ++ rest).dropWhile Char.isDigit = rest := by
      rw [List.dropWhile_append_of_pos more]
      cases rest with
      | nil => rfl
      | cons d behind => simp [(apart d behind rfl).1]
    simp [Reads, readDigits?, first, front, behind]

theorem reads_whole (n : Nat) (closed : Closed rest) :
    Reads (readWhole? (writeNat n ++ rest)) (writeNat n) rest := by
  have filled : writeNat n ≠ [] := Nat.toDigits_ne_nil
  obtain ⟨digits, read, value, left⟩ := reads_digits filled isDigit_of_mem_writeNat closed
  have bare : ¬(digits.value.head? = some '0' ∧ digits.value ≠ ['0']) := by
    simpa [value] using head_writeNat (n := n)
  refine ⟨digits, ?_, value, left⟩
  rw [readWhole?, read]
  exact if_neg bare

theorem readFraction?_of_closed (closed : Closed rest) :
    readFraction? rest = some ⟨[], rest, Nat.le_refl _⟩ := by
  unfold readFraction?
  split
  · exact absurd (closed.not_numeral _ _ rfl).2 (by decide)
  · rfl

theorem readExponent?_of_closed (closed : Closed rest) :
    readExponent? rest = some ⟨(false, []), rest, Nat.le_refl _⟩ := by
  cases rest with
  | nil => rfl
  | cons c behind =>
    have letter := (closed.not_numeral c behind rfl).2
    simp only [List.mem_cons, List.not_mem_nil, or_false, not_or] at letter
    simp [readExponent?, letter.2.1, letter.2.2]

/-- A number without point and exponent is read as the digits behind its sign. -/
theorem Reads.readNumeral {bare digits : List Char} {negative : Bool}
    (sign : (takeSign false text).value = negative) (signed : (takeSign false text).rest = bare)
    (whole : Reads (readWhole? bare) digits rest) (closed : Closed rest) :
    Reads (readNumeral? text) ⟨negative, digits, [], (false, [])⟩ rest := by
  subst sign signed
  obtain ⟨read, done, value, left⟩ := whole
  subst value left
  simp [Reads, readNumeral?, done, readFraction?_of_closed closed, readExponent?_of_closed closed]

/-- The number that an integer is written as. -/
def numeralOf (n : Int) : Numeral :=
  ⟨n < 0, writeNat n.natAbs, [], (false, [])⟩

/-- An integer is written with a minus sign or a digit in front. -/
theorem starts_writeInt (n : Int) :
    ∃ c more, writeInt n = c :: more ∧ (c = '-' ∨ c.isDigit = true) := by
  by_cases negative : n < 0
  · exact ⟨'-', writeNat n.natAbs, by simp [writeInt, negative], .inl rfl⟩
  · obtain ⟨c, more, first⟩ : ∃ c more, writeNat n.natAbs = c :: more :=
      List.exists_cons_of_ne_nil Nat.toDigits_ne_nil
    have digit := isDigit_of_mem_writeNat (n := n.natAbs) c (by simp [first])
    exact ⟨c, more, by simp [writeInt, negative, first], .inr digit⟩

theorem reads_numeral (n : Int) (closed : Closed rest) :
    Reads (readNumeral? (writeInt n ++ rest)) (numeralOf n) rest := by
  have whole := reads_whole n.natAbs closed
  by_cases negative : n < 0
  · have written : writeInt n ++ rest = '-' :: (writeNat n.natAbs ++ rest) := by
      simp [writeInt, negative]
    have reads : Reads (readNumeral? ('-' :: (writeNat n.natAbs ++ rest)))
        ⟨true, writeNat n.natAbs, [], (false, [])⟩ rest :=
      Reads.readNumeral rfl rfl whole closed
    rw [written]
    simpa [numeralOf, negative] using reads
  · have written : writeInt n = writeNat n.natAbs := by
      simp [writeInt, negative]
    obtain ⟨c, more, first, start⟩ := starts_writeInt n
    have digit : c.isDigit = true :=
      isDigit_of_mem_writeNat (n := n.natAbs) c (by simp [← written, first])
    have unsigned : takeSign false (writeNat n.natAbs ++ rest) =
        ⟨false, writeNat n.natAbs ++ rest, Nat.le_refl _⟩ := by
      have minus : c ≠ '-' := by rintro rfl; cases digit
      have plus : c ≠ '+' := by rintro rfl; cases digit
      simp [← written, first, takeSign, minus, plus]
    have reads : Reads (readNumeral? (writeNat n.natAbs ++ rest))
        ⟨false, writeNat n.natAbs, [], (false, [])⟩ rest :=
      Reads.readNumeral (by rw [unsigned]) (by rw [unsigned]) whole closed
    rw [written]
    simpa [numeralOf, negative] using reads

/-- What starts with no letter of the three words is read as a number. -/
theorem Reads.readScalar_number {numeral : Numeral} (reads : Reads (readNumeral? text) numeral rest)
    (wordless : ∀ c behind, text = c :: behind → c ∉ ['n', 't', 'f']) :
    Reads (readScalar? text) (.number numeral) rest := by
  obtain ⟨read, done, value, left⟩ := reads
  unfold readScalar?
  split
  · exact absurd (wordless _ _ rfl) (by decide)
  · exact absurd (wordless _ _ rfl) (by decide)
  · exact absurd (wordless _ _ rfl) (by decide)
  · simp [Reads, done, Read.map, value, left]

theorem readAs_int (n : Int) : ReadAs (writeInt n) (.number (numeralOf n)) := by
  intro rest closed
  obtain ⟨c, more, first, start⟩ := starts_writeInt n
  have signless : c ∉ ['"', '[', '\x7b'] ∧ c ∉ ['n', 't', 'f'] ∧ isSpace c = false := by
    cases start with
    | inl minus =>
      subst minus
      decide
    | inr digit =>
      have apart (signs : List Char) (others : signs.all (!·.isDigit) = true) : c ∉ signs := by
        intro member
        have other := List.all_eq_true.1 others c member
        simp [digit] at other
      have filled := apart [' ', '\n', '\t', '\r'] (by decide)
      simp only [List.mem_cons, List.not_mem_nil, or_false, not_or] at filled
      exact ⟨apart _ (by decide), apart _ (by decide), by simp [isSpace, filled]⟩
  have same (d : Char) (behind : List Char) (front : writeInt n ++ rest = d :: behind) : d = c := by
    rw [first] at front
    exact (List.cons.inj front).1.symm
  have begin : skipSpace (writeInt n ++ rest) = writeInt n ++ rest := by
    rw [first]
    exact skipSpace_of_ne signless.2.2
  have number := (reads_numeral n closed).readScalar_number fun d behind front =>
    same d behind front ▸ signless.2.1
  exact number.readValue_scalar begin fun d behind front => same d behind front ▸ signless.1

/-- Digits make a number no smaller. -/
theorem le_ofDigitChars (digits : List Char) (start : Nat) :
    start ≤ Nat.ofDigitChars 10 digits start := by
  induction digits generalizing start with
  | nil => exact Nat.le_refl start
  | cons c digits ih =>
    have step := ih (10 * start + (c.toNat - '0'.toNat))
    rw [Nat.ofDigitChars_cons]
    omega

/-- As long as the digits denote a number of 64 bits, all of them are used. -/
theorem extend_eq {digits : List Char} {significand : Nat}
    (bounded : Nat.ofDigitChars 10 digits significand < UInt64.size) :
    Numeral.extend significand digits = (Nat.ofDigitChars 10 digits significand, []) := by
  induction digits generalizing significand with
  | nil => rfl
  | cons c digits ih =>
    rw [Nat.ofDigitChars_cons, Nat.mul_comm] at bounded ⊢
    have below := Nat.lt_of_le_of_lt (le_ofDigitChars _ _) bounded
    exact (if_pos below).trans (ih bounded)

/-- The number written for an integer of 64 signed bits has its value. -/
theorem value?_numeralOf {n : Int} (fits : fitsInt64 n = true) :
    (numeralOf n).value? = some (.int n) := by
  have least : Int64.minValue.toInt = -9223372036854775808 := by decide
  have most : Int64.maxValue.toInt = 9223372036854775807 := by decide
  have size : UInt64.size = 18446744073709551616 := rfl
  simp only [fitsInt64, Bool.and_eq_true, decide_eq_true_eq] at fits
  have digits : Numeral.extend 0 (writeNat n.natAbs) = (n.natAbs, []) := by
    rw [extend_eq, writeNat, Nat.ofDigitChars_ten_toDigits]
    rw [writeNat, Nat.ofDigitChars_ten_toDigits]
    omega
  by_cases negative : n < 0
  · have value : -(n.natAbs : Int) = n := by omega
    simp only [Numeral.value?, numeralOf, digits, negative, value]
    simp
    omega
  · have value : (n.natAbs : Int) = n := by omega
    simp only [Numeral.value?, numeralOf, digits, negative, value]
    simp

/-! ### Lists and objects -/

/-- What follows a part of a list or an object: the sign that closes it, or a comma and more parts. -/
inductive Followed (close : Char) (more : List Char → List α → List Char → Prop) (behind : List Char) :
    List α → List Char → Prop where
  | last {rest : List Char} (follow : skipSpace behind = close :: rest) :
    Followed close more behind [] rest
  | more {next rest : List Char} {parts : List α} (follow : skipSpace behind = ',' :: next)
      (parted : more next parts rest) : Followed close more behind parts rest

variable {first : Bool} {behind : List Char}

/-- A closing bracket is no document. -/
theorem readValue_of_bracket (start : skipSpace text = ']' :: rest) : readValue text = none := by
  have unread : readScalar? (skipSpace text) = none := by
    rw [start]
    rfl
  rw [readValue]
  split
  · rename_i found
    cases start.symm.trans found
  · rename_i found
    cases start.symm.trans found
  · rename_i found
    cases start.symm.trans found
  · rw [unread]
    rfl

/-- Items are read one by one. -/
theorem Reads.readItems_cons {documents : List Json} (item : Reads (readValue text) document behind)
    (followed : Followed ']' (fun next => Reads (readItems false next)) behind documents rest) :
    Reads (readItems first text) (document :: documents) rest := by
  obtain ⟨read, done, value, left⟩ := item
  subst value left
  rw [readItems.eq_def]
  split
  · rename_i closed
    cases done.symm.trans (readValue_of_bracket closed)
  · rw [done]
    dsimp only
    split
    · rename_i found
      cases followed with
      | last follow =>
        cases follow.symm.trans found
        exact ⟨_, rfl, rfl, rfl⟩
      | more follow _ => cases follow.symm.trans found
    · rename_i found
      cases followed with
      | last follow => cases follow.symm.trans found
      | more follow parted =>
        cases follow.symm.trans found
        obtain ⟨read', done', value', left'⟩ := parted
        rw [done']
        exact ⟨_, rfl, by simp [Read.within, Read.map, value'], left'⟩
    · rename_i unclosed unparted
      cases followed with
      | last follow => exact absurd follow (unclosed _)
      | more follow _ => exact absurd follow (unparted _)

/-- Items that are written with commas between them are read up to the bracket that closes them. -/
theorem reads_items {part : List Char} {parts : List (List Char)} {documents : List Json}
    (item : ReadAs part document) (more : List.Forall₂ ReadAs parts documents) :
    Reads (readItems first (separated (part :: parts) ++ ']' :: rest)) (document :: documents) rest := by
  induction more generalizing first part document with
  | nil =>
    have closed : Closed (']' :: rest) := .cons (by decide)
    exact (item _ closed).readItems_cons (.last (skipSpace_of_ne rfl))
  | @cons next document' parts documents first' more ih =>
    have text : separated (part :: next :: parts) ++ ']' :: rest =
        part ++ ',' :: (separated (next :: parts) ++ ']' :: rest) := by
      simp [separated]
    have closed : Closed (',' :: (separated (next :: parts) ++ ']' :: rest)) := .cons (by decide)
    rw [text]
    exact (item _ closed).readItems_cons (.more (skipSpace_of_ne rfl) (ih first'))

theorem readAs_list {parts : List (List Char)} {documents : List Json}
    (each : List.Forall₂ ReadAs parts documents) : ReadAs (writeList parts) (.list documents) := by
  intro rest _
  have start : skipSpace (writeList parts ++ rest) = '[' :: (separated parts ++ ']' :: rest) := by
    simp [writeList, skipSpace_of_ne, isSpace]
  have items : Reads (readItems true (separated parts ++ ']' :: rest)) documents rest := by
    cases each with
    | nil =>
      rw [readItems.eq_def]
      split
      · rename_i closed
        cases closed
        exact ⟨_, rfl, rfl, rfl⟩
      · rename_i unclosed
        exact absurd (skipSpace_of_ne rfl) (unclosed _ rfl)
    | cons first more => exact reads_items first more
  exact items.readValue_list start

/-- A key, a colon and a document are read off the front of a text. -/
inductive ReadsMember (text : List Char) (name : List Char) (document : Json) (behind : List Char) :
    Prop where
  | member {opened pastKey valued : List Char} (start : skipSpace text = '"' :: opened)
      (key : Reads (readText opened) (some name) pastKey) (colon : skipSpace pastKey = ':' :: valued)
      (value : Reads (readValue valued) document behind)

/-- Members are read one by one. -/
theorem ReadsMember.readMembers_cons {name : List Char} {members : List (Option (List Char) × Json)}
    (member : ReadsMember text name document behind)
    (followed : Followed '\x7d' (fun next => Reads (readMembers false next)) behind members rest) :
    Reads (readMembers first text) ((some name, document) :: members) rest := by
  cases member with
  | member start key colon value =>
    obtain ⟨read, done, named, left⟩ := key
    subst left
    obtain ⟨read', done', valued, left'⟩ := value
    subst left'
    rw [readMembers.eq_def]
    split
    · rename_i found
      cases start.symm.trans found
    · rename_i found
      cases start.symm.trans found
      rw [done]
      dsimp only
      split
      · rename_i found
        cases colon.symm.trans found
        rw [done']
        dsimp only
        split
        · rename_i found
          cases followed with
          | last follow =>
            cases follow.symm.trans found
            exact ⟨_, rfl, by rw [named, valued], rfl⟩
          | more follow _ => cases follow.symm.trans found
        · rename_i found
          cases followed with
          | last follow => cases follow.symm.trans found
          | more follow parted =>
            cases follow.symm.trans found
            obtain ⟨read'', done'', listed, left''⟩ := parted
            rw [done'']
            exact ⟨_, rfl, by simp [Read.within, Read.map, named, valued, listed], left''⟩
        · rename_i unclosed unparted
          cases followed with
          | last follow => exact absurd follow (unclosed _)
          | more follow _ => exact absurd follow (unparted _)
      · rename_i uncoloned
        exact absurd colon (uncoloned _)
    · rename_i unquoted
      exact absurd start (unquoted _)

/-- A written member is read under its name, as a document. -/
structure MemberReadAs (written : String × List Char) (member : String × Json) : Prop where
  name : written.1 = member.1
  value : ReadAs written.2 member.2

/-- A written member, as it stands in an object. -/
def writeMember (member : String × List Char) : List Char :=
  writeText member.1 ++ ':' :: member.2

/-- A member with its key as the reader hands it on. -/
def keyed (member : String × Json) : Option (List Char) × Json :=
  (some member.1.toList, member.2)

theorem MemberReadAs.readsMember {written : String × List Char} {member : String × Json}
    (reads : MemberReadAs written member) (closed : Closed rest) :
    ReadsMember (writeMember written ++ rest) member.1.toList member.2 rest := by
  have start : skipSpace (writeMember written ++ rest) =
      '"' :: (member.1.toList.flatMap escape ++ '"' :: ':' :: (written.2 ++ rest)) := by
    simp [writeMember, writeText, reads.name, skipSpace_of_ne, isSpace]
  exact .member start (reads_escapes _) (skipSpace_of_ne rfl) (reads.value rest closed)

/-- Members that are written with commas between them are read up to the brace that closes them. -/
theorem reads_members {part : String × List Char} {parts : List (String × List Char)}
    {member : String × Json} {members : List (String × Json)} (head : MemberReadAs part member)
    (more : List.Forall₂ MemberReadAs parts members) :
    Reads (readMembers first (separated ((part :: parts).map writeMember) ++ '\x7d' :: rest))
      ((member :: members).map keyed) rest := by
  induction more generalizing first part member with
  | nil =>
    have closed : Closed ('\x7d' :: rest) := .cons (by decide)
    exact (head.readsMember closed).readMembers_cons (.last (skipSpace_of_ne rfl))
  | @cons next member' parts members head' more ih =>
    have text : separated ((part :: next :: parts).map writeMember) ++ '\x7d' :: rest =
        writeMember part ++ ',' :: (separated ((next :: parts).map writeMember) ++ '\x7d' :: rest) := by
      simp [separated]
    have closed : Closed (',' :: (separated ((next :: parts).map writeMember) ++ '\x7d' :: rest)) :=
      .cons (by decide)
    rw [text]
    exact (head.readsMember closed).readMembers_cons (.more (skipSpace_of_ne rfl) (ih head'))

theorem ofMembers_keyed (members : List (String × Json)) :
    ofMembers (members.map keyed) = .object members := by
  have each : (members.map keyed).mapM
      (fun member => member.1.map fun key => (String.ofList key, member.2)) = some members := by
    induction members with
    | nil => rfl
    | cons member members ih =>
      rw [List.map_cons, List.mapM_cons, ih]
      simp [keyed]
  rw [ofMembers, each]

theorem readAs_object {parts : List (String × List Char)} {members : List (String × Json)}
    (each : List.Forall₂ MemberReadAs parts members) :
    ReadAs (writeObject parts) (.object members) := by
  intro rest _
  have start : skipSpace (writeObject parts ++ rest) =
      '\x7b' :: (separated (parts.map writeMember) ++ '\x7d' :: rest) := by
    simp [writeObject, skipSpace_of_ne, isSpace]
    rfl
  have read : Reads (readMembers true (separated (parts.map writeMember) ++ '\x7d' :: rest))
      (members.map keyed) rest := by
    cases each with
    | nil =>
      rw [readMembers.eq_def]
      split
      · rename_i closed
        cases closed
        exact ⟨_, rfl, rfl, rfl⟩
      · rename_i quoted
        cases (skipSpace_of_ne rfl).symm.trans quoted
      · rename_i unclosed _
        exact absurd (skipSpace_of_ne rfl) (unclosed _)
    | cons head more => exact reads_members head more
  have object := read.readValue_object start
  rwa [ofMembers_keyed] at object

/-- A written document is read back as a whole text. -/
theorem ReadAs.read? {written : List Char} (reads : ReadAs written document) :
    Json.read? written = some document := by
  have whole := reads [] .nil
  rw [List.append_nil] at whole
  obtain ⟨read, done, value, left⟩ := whole
  simp [Json.read?, done, value, left, skipSpace]

end Assay.Json

namespace Assay

open Json

/-- An argument without a float is read as a document that stands for it. -/
theorem MessageArg.readAs_writeJson {arg : MessageArg} (exact' : ∀ value, arg ≠ .float value) :
    ∃ document, ReadAs arg.writeJson document ∧ ofJson? document = some arg := by
  cases arg with
  | null => exact ⟨.null, readAs_null, rfl⟩
  | bool value => exact ⟨.bool value, readAs_bool value, rfl⟩
  | int value =>
    have fits : fitsInt64 value.toInt = true := by
      simp only [fitsInt64, Bool.and_eq_true, decide_eq_true_eq]
      exact ⟨value.minValue_le_toInt, value.toInt_le⟩
    refine ⟨_, readAs_int value.toInt, ?_⟩
    simp [ofJson?, value?_numeralOf fits, fits]
  | float value => exact absurd rfl (exact' value)
  | text chars => exact ⟨.text chars, readAs_text chars, rfl⟩

theorem MessageArg.readAs_writeArgs {args : List MessageArg}
    (exact' : ∀ value, .float value ∉ args) :
    ∃ documents, List.Forall₂ ReadAs (args.map writeJson) documents ∧
      documents.mapM ofJson? = some args := by
  induction args with
  | nil => exact ⟨[], .nil, rfl⟩
  | cons arg args ih =>
    have head : ∀ value, arg ≠ .float value := fun value same => exact' value (by simp [same])
    have tail : ∀ value, .float value ∉ args := fun value member =>
      exact' value (List.mem_cons_of_mem arg member)
    obtain ⟨document, reads, stands⟩ := readAs_writeJson head
    obtain ⟨documents, each, stand⟩ := ih tail
    refine ⟨document :: documents, .cons reads each, ?_⟩
    rw [List.mapM_cons, stands, stand]
    rfl

/-- A message without floats is written as an object that stands for it, and in which arguments are a
member only if there are some. -/
theorem Message.readAs_writeJson {message : Message} (floatless : ∀ value, .float value ∉ message.args) :
    ∃ members, ReadAs message.writeJson (.object members) ∧
      members.map Prod.fst = ["text", "key"] ++ (if message.args.isEmpty then [] else ["args"]) ∧
      ofJson? (.object members) = some message := by
  obtain ⟨documents, each, stand⟩ := MessageArg.readAs_writeArgs floatless
  obtain ⟨chars, label, args⟩ := message
  have text : MemberReadAs ("text", writeText chars) ("text", .text chars) := ⟨rfl, readAs_text chars⟩
  have key : MemberReadAs ("key", writeText label) ("key", .text label) := ⟨rfl, readAs_text label⟩
  cases args with
  | nil =>
    refine ⟨_, readAs_object (.cons text (.cons key .nil)), rfl, ?_⟩
    simp [ofJson?, fields?, members?, member?, asText?, argsOfJson?]
  | cons arg args =>
    have listed : MemberReadAs ("args", writeList ((arg :: args).map MessageArg.writeJson))
        ("args", .list documents) := ⟨rfl, readAs_list each⟩
    refine ⟨_, readAs_object (.cons text (.cons key (.cons listed .nil))), rfl, ?_⟩
    simp [ofJson?, fields?, members?, member?, asText?, argsOfJson?, stand]

/-- A message without floats is read back from its own text as it was: with its text, its key and its
arguments, each of them of its sort. The text is that of an object with these members, where arguments are
a member only if there are some. -/
theorem Message.written_read_back (message : Message) (floatless : ∀ value, .float value ∉ message.args) :
    Message.read? message.toJson = some message ∧
      ∃ members, Json.read? message.toJson.toList = some (.object members) ∧
        members.map Prod.fst = ["text", "key"] ++ if message.args.isEmpty then [] else ["args"] := by
  obtain ⟨members, reads, names, stands⟩ := Message.readAs_writeJson floatless
  have whole : Json.read? message.toJson.toList = some (.object members) := by
    rw [toJson, String.toList_ofList]
    exact reads.read?
  constructor
  · rw [Message.read?, whole]
    exact stands
  · exact ⟨members, whole, names⟩

/-- A finding whose text needs every sort of escape. -/
def spelledOut : Message :=
  ⟨"\"\\\n\u0001 é 🦀 {0}", "key", [.null, .bool true, .int Int64.minValue, .text "\"-1\u0000"]⟩

theorem spelledOut_read_back :
    (∀ value, MessageArg.float value ∉ spelledOut.args) ∧
      Message.read? spelledOut.toJson = some spelledOut ∧
      ∃ members, Json.read? spelledOut.toJson.toList = some (.object members) ∧
        members.map Prod.fst = ["text", "key", "args"] := by
  have floatless : ∀ value, MessageArg.float value ∉ spelledOut.args := by simp [spelledOut]
  exact ⟨floatless, Message.written_read_back spelledOut floatless⟩

end Assay
