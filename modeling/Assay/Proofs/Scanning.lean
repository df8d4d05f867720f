/-
Module: Assay.Proofs.Scanning
Purpose: The steps of the reader of types on texts that are put together. A step looks at most one
  character past what it takes, so that text behind it changes nothing if something else stands between
  or if that text starts with a delimiter; blanks behind it stay blanks. A lead is taken off only where
  its word stands alone before a space.
Main exports: TypeName.Cut, TypeName.afterLead?_eq_some_iff_of_named, TypeName.skipLeads_append,
  TypeName.skipBounds_append, TypeName.Spaced
-/
import Assay.Proofs.Spelling

namespace Assay.TypeName

open Unicode

variable {text rest more : List Char}

/-! ### Leads -/

theorem skipLeads_of_some (found : afterLead? (trimStart text) = some rest) :
    skipLeads text = skipLeads (skipLifetime rest) := by
  rw [skipLeads]
  split <;> simp_all

theorem skipLeads_of_none (unled : afterLead? (trimStart text) = none) :
    skipLeads text = trimStart text := by
  rw [skipLeads]
  split <;> simp_all

theorem trimStart_trimStart : trimStart (trimStart text) = trimStart text := by
  rw [trimStart, trimStart, List.dropWhile_idempotent]

theorem trimStart_of_filled {c : Char} (filled : isBlank c = false) :
    trimStart (c :: text) = c :: text :=
  List.dropWhile_cons_of_neg (by simp [filled])

theorem trimStart_blanks_append {blanks : List Char} (blank : ∀ c ∈ blanks, isBlank c = true) :
    trimStart (blanks ++ text) = trimStart text :=
  List.dropWhile_append_of_pos blank

/-- Blanks before the leads make no difference. -/
theorem skipLeads_trimStart : skipLeads (trimStart text) = skipLeads text := by
  cases found : afterLead? (trimStart text) with
  | some rest =>
    rw [skipLeads_of_some found, skipLeads_of_some (by rw [trimStart_trimStart, found])]
  | none =>
    rw [skipLeads_of_none found, skipLeads_of_none (by rw [trimStart_trimStart, found]),
      trimStart_trimStart]

theorem skipLeads_blanks_append {blanks : List Char} (blank : ∀ c ∈ blanks, isBlank c = true) :
    skipLeads (blanks ++ text) = skipLeads text := by
  rw [← skipLeads_trimStart, trimStart_blanks_append blank, skipLeads_trimStart]

theorem skipLeads_space : skipLeads (' ' :: text) = skipLeads text := by
  have blank : ∀ c ∈ [' '], isBlank c = true := List.all_eq_true.1 (by decide)
  exact skipLeads_blanks_append blank

/-- Behind the leads stands no further lead. -/
theorem afterLead?_skipLeads (text : List Char) : afterLead? (skipLeads text) = none := by
  fun_induction skipLeads text with
  | case1 text rest found ih => exact ih
  | case2 text unled => exact unled

/-- The words that are leads if a space follows them. -/
def leadWords : List (List Char) :=
  [['m', 'u', 't'], ['d', 'y', 'n'], ['i', 'm', 'p', 'l']]

/-- A lead is the sign of a reference, or a word with the space behind it. -/
theorem mem_leads_iff {lead : List Char} :
    lead ∈ leads ↔ lead = ['&'] ∨ ∃ word ∈ leadWords, lead = word ++ [' '] := by
  simp [leads, leadWords]

/-- Leading words look like names; only the space behind tells them apart. -/
theorem isNameChar_of_mem_leadWords {word : List Char} (known : word ∈ leadWords) :
    ∀ c ∈ word, isNameChar c = true := by
  have all : ∀ word ∈ leadWords, word.all isNameChar = true := by decide +kernel
  exact List.all_eq_true.1 (all word known)

/-! ### Delimiters -/

/-- The characters that end a name and whatever may follow it. -/
def delimiters : List Char := ['<', '>', ',', '?']

/-- A text in which nothing goes on: it is empty or starts with a delimiter. -/
def Cut (text : List Char) : Prop :=
  ∀ c rest, text = c :: rest → c ∈ delimiters

theorem Cut.nil : Cut [] := nofun

theorem Cut.cons {c : Char} (delimiter : c ∈ delimiters) : Cut (c :: rest) := by
  rintro _ _ ⟨⟩
  exact delimiter

/-- A delimiter is in none of the classes that the reader skips, and is no sign of its own. -/
theorem of_mem_delimiters {c : Char} (delimiter : c ∈ delimiters) :
    isBlank c = false ∧ isNameChar c = false ∧ c ∉ ['&', '+', '\'', '=', '('] := by
  simp only [delimiters, List.mem_cons, List.not_mem_nil, or_false] at delimiter
  rcases delimiter with rfl | rfl | rfl | rfl <;> decide +kernel

/-- Nothing is skipped at a cut by a class without delimiters. -/
theorem Cut.dropWhile {class' : Char → Bool} (cut : Cut text)
    (apart : ∀ c ∈ delimiters, class' c = false) : text.dropWhile class' = text := by
  cases text with
  | nil => rfl
  | cons c rest => simp [apart c (cut c rest rfl)]

theorem Cut.trimStart (cut : Cut text) : trimStart text = text :=
  cut.dropWhile fun _ delimiter => (of_mem_delimiters delimiter).1

theorem Cut.dropName (cut : Cut text) : dropName text = text :=
  cut.dropWhile fun _ delimiter => (of_mem_delimiters delimiter).2.1

theorem Cut.skipQuote (cut : Cut text) : skipQuote text = text := by
  unfold TypeName.skipQuote
  split
  · exact absurd (of_mem_delimiters (cut _ _ rfl)).2.2 (by simp)
  · rfl

/-- No bounds stand at a cut. -/
theorem Cut.skipBounds (cut : Cut text) : skipBounds text = text := by
  rw [TypeName.skipBounds]
  split
  · rename_i found
    rw [cut.trimStart] at found
    exact absurd (of_mem_delimiters (cut _ _ found)).2.2 (by simp)
  · exact cut.trimStart

/-! ### Names -/

section names

variable {name : List Char}

/-- A name ends where the cut is. -/
theorem takeWhile_name_append (chars : ∀ c ∈ name, isNameChar c = true) (cut : Cut more) :
    (name ++ more).takeWhile isNameChar = name := by
  rw [List.takeWhile_append_of_pos chars]
  cases more with
  | nil => simp
  | cons c rest => simp [(of_mem_delimiters (cut c rest rfl)).2.1]

/-- Whatever follows a name, the name is dropped whole. -/
theorem dropName_name_append (chars : ∀ c ∈ name, isNameChar c = true) :
    dropName (name ++ more) = dropName more :=
  List.dropWhile_append_of_pos chars

/-- Before a name only a word that stands alone before a space is taken off. -/
theorem afterLead?_eq_some_iff_of_named (named : text.takeWhile isNameChar ≠ []) :
    afterLead? text = some rest ↔
      text.takeWhile isNameChar ∈ leadWords ∧ dropName text = ' ' :: rest := by
  rw [afterLead?_eq_some_iff]
  constructor
  · rintro ⟨lead, known, rfl⟩
    rcases mem_leads_iff.1 known with rfl | ⟨word, isWord, rfl⟩
    · exact absurd (by simp [show isNameChar '&' = false by decide +kernel]) named
    · have chars := isNameChar_of_mem_leadWords isWord
      have space : isNameChar ' ' = false := by decide +kernel
      rw [List.append_assoc, List.takeWhile_append_of_pos chars, dropName_name_append chars]
      simp [space, isWord, dropName]
  · rintro ⟨isWord, behind⟩
    refine ⟨text.takeWhile isNameChar ++ [' '], mem_leads_iff.2 (.inr ⟨_, isWord, rfl⟩), ?_⟩
    rw [List.append_assoc, List.singleton_append, ← behind, dropName,
      List.takeWhile_append_dropWhile]

/-- A character of a name is neither blank nor a sign of the reader. -/
theorem of_isNameChar {c : Char} (isName : isNameChar c = true) :
    isBlank c = false ∧ c ∉ ['&', '+', '\'', '=', '(', '<', '>'] := by
  constructor
  · by_contra blank
    simp [(isNameChar_of_isBlank (by simpa using blank)).1] at isName
  · intro sign
    simp only [List.mem_cons, List.not_mem_nil, or_false] at sign
    rcases sign with rfl | rfl | rfl | rfl | rfl | rfl | rfl <;>
      exact absurd isName (by decide +kernel)

/-- A name before a delimiter has no leads before it. -/
theorem skipLeads_name_append (chars : ∀ c ∈ name, isNameChar c = true) (filled : name ≠ [])
    (cut : Cut more) : skipLeads (name ++ more) = name ++ more := by
  have front : trimStart (name ++ more) = name ++ more := by
    cases name with
    | nil => exact absurd rfl filled
    | cons c name => exact trimStart_of_filled (of_isNameChar (chars c List.mem_cons_self)).1
  have unled : afterLead? (name ++ more) = none := by
    by_contra led
    obtain ⟨rest, found⟩ := Option.ne_none_iff_exists'.1 led
    rw [afterLead?_eq_some_iff_of_named (by rwa [takeWhile_name_append chars cut])] at found
    have behind := found.2
    rw [dropName_name_append chars, cut.dropName] at behind
    exact absurd (of_mem_delimiters (cut _ _ behind)).1 (by decide)
  rw [skipLeads_of_none (by rw [front, unled]), front]

end names

/-! ### Text behind a step -/

/-- A step that takes a class off may run into the text behind only if it takes everything before. -/
theorem dropWhile_append_of_cut {class' : Char → Bool} (apart : ∀ c ∈ delimiters, class' c = false)
    (parted : text.dropWhile class' = [] → Cut more) :
    (text ++ more).dropWhile class' = text.dropWhile class' ++ more := by
  rw [List.dropWhile_append]
  split
  · rename_i vacant
    rw [List.isEmpty_iff] at vacant
    rw [(parted vacant).dropWhile apart, vacant, List.nil_append]
  · rfl

theorem trimStart_append (parted : trimStart text = [] → Cut more) :
    trimStart (text ++ more) = trimStart text ++ more :=
  dropWhile_append_of_cut (fun _ delimiter => (of_mem_delimiters delimiter).1) parted

theorem dropName_append (parted : dropName text = [] → Cut more) :
    dropName (text ++ more) = dropName text ++ more :=
  dropWhile_append_of_cut (fun _ delimiter => (of_mem_delimiters delimiter).2.1) parted

/-- The name at the front of a text is the same where only more stands behind it. -/
theorem takeWhile_append_of_dropName (behind : dropName (text ++ more) = dropName text ++ more) :
    (text ++ more).takeWhile isNameChar = text.takeWhile isNameChar := by
  have whole := List.takeWhile_append_dropWhile (p := isNameChar) (l := text ++ more)
  have front := List.takeWhile_append_dropWhile (p := isNameChar) (l := text)
  change _ ++ dropName (text ++ more) = _ at whole
  rw [behind, ← List.append_assoc] at whole
  exact List.append_cancel_right ((List.append_cancel_right whole).trans front.symm)

theorem skipQuote_of_ne {c : Char} (unquoted : c ≠ '\'') : skipQuote (c :: text) = c :: text := by
  simp [skipQuote, unquoted]

/-- The quote is taken off the front whatever stands behind, unless nothing does. -/
theorem skipQuote_append (parted : text = [] → Cut more) :
    skipQuote (text ++ more) = skipQuote text ++ more := by
  cases text with
  | nil => exact (parted rfl).skipQuote
  | cons c rest =>
    by_cases quoted : c = '\''
    · subst quoted
      rfl
    · simp [skipQuote, quoted]

/-- A lifetime that is not the whole text ends before the text behind. -/
theorem skipLifetime_append (filled : skipLifetime text ≠ []) :
    skipLifetime (text ++ more) = skipLifetime text ++ more := by
  cases text with
  | nil => exact absurd rfl filled
  | cons c rest =>
    by_cases quoted : c = '\''
    · subst quoted
      exact dropName_append fun vacant => absurd vacant filled
    · simp [skipLifetime, quoted]

/-- The steps leave nothing of nothing. -/
@[simp] theorem skipBounds_nil : skipBounds [] = [] := by
  rw [skipBounds]
  rfl

theorem dropBound_append (parted : dropBound text = [] → Cut more) :
    dropBound (text ++ more) = dropBound text ++ more := by
  have quoteParted : skipQuote (trimStart text) = [] → Cut more := fun vacant =>
    parted (by rw [dropBound, vacant]; rfl)
  have blankParted : trimStart text = [] → Cut more := fun vacant =>
    quoteParted (by rw [vacant]; rfl)
  simp only [dropBound]
  rw [trimStart_append blankParted, skipQuote_append blankParted, dropName_append parted]

/-- A bound is taken off with its sign. -/
theorem skipBounds_of_plus (found : trimStart text = '+' :: rest) :
    skipBounds text = skipBounds (dropBound rest) := by
  rw [skipBounds]
  split <;> simp_all

/-- Without a sign there are blanks to skip at most. -/
theorem skipBounds_of_no_plus (unbound : ∀ rest, trimStart text ≠ '+' :: rest) :
    skipBounds text = trimStart text := by
  rw [skipBounds]
  split <;> simp_all

theorem skipBounds_trimStart : skipBounds (trimStart text) = skipBounds text := by
  by_cases bound : ∃ rest, trimStart text = '+' :: rest
  · obtain ⟨rest, found⟩ := bound
    rw [skipBounds_of_plus found, skipBounds_of_plus (by rw [trimStart_trimStart, found])]
  · have unbound (rest : List Char) : trimStart text ≠ '+' :: rest := fun found => bound ⟨rest, found⟩
    rw [skipBounds_of_no_plus unbound, skipBounds_of_no_plus (by rwa [trimStart_trimStart]),
      trimStart_trimStart]

/-- Bounds end before the text behind, if something stands between or that text is a cut. -/
theorem skipBounds_append (parted : skipBounds text = [] → Cut more) :
    skipBounds (text ++ more) = skipBounds text ++ more := by
  fun_induction skipBounds text with
  | case1 text rest found ih =>
    have behind : dropBound (rest ++ more) = dropBound rest ++ more :=
      dropBound_append fun vacant => parted (by rw [vacant, skipBounds_nil])
    have start : trimStart (text ++ more) = '+' :: (rest ++ more) := by
      rw [trimStart_append (by simp [found]), found, List.cons_append]
    rw [skipBounds_of_plus start, behind, ih parted]
  | case2 text unbound =>
    have start := trimStart_append parted
    rw [skipBounds_of_no_plus, start]
    intro rest found
    rw [start] at found
    cases front : trimStart text with
    | nil =>
      rw [front, List.nil_append] at found
      exact absurd (of_mem_delimiters (parted front _ _ found)).2.2 (by simp)
    | cons c behind =>
      rw [front] at found
      exact unbound behind (by rw [front, (List.cons.inj found).1])

/-- Leads are taken off the front of a text before the text behind it is looked at. -/
theorem skipLeads_append_of_filled (filled : skipLeads text ≠ []) :
    skipLeads (text ++ more) = skipLeads (skipLeads text ++ more) := by
  fun_induction skipLeads text with
  | case1 text rest found ih =>
    have longer := length_lt_of_afterLead?_eq_some found
    have start : trimStart (text ++ more) = trimStart text ++ more :=
      trimStart_append fun vacant => by simp [vacant] at longer
    obtain ⟨lead, known, split⟩ := afterLead?_eq_some_iff.1 found
    have taken : afterLead? (trimStart (text ++ more)) = some (rest ++ more) :=
      afterLead?_eq_some_iff.2 ⟨lead, known, by rw [start, split, List.append_assoc]⟩
    have lifetime : skipLifetime rest ≠ [] := by
      intro vacant
      rw [vacant] at filled
      exact filled (by rw [skipLeads]; rfl)
    rw [skipLeads_of_some taken, skipLifetime_append lifetime, ih filled]
  | case2 text unled =>
    have start : trimStart (text ++ more) = trimStart text ++ more :=
      trimStart_append fun vacant => absurd vacant filled
    rw [← skipLeads_trimStart, start]

/-- Behind the leads stands no blank. -/
theorem trimStart_skipLeads (text : List Char) : trimStart (skipLeads text) = skipLeads text := by
  fun_induction skipLeads text with
  | case1 text rest found ih => exact ih
  | case2 text unled => exact trimStart_trimStart

/-- Leads end before the text behind, if that text does not make a leading word of what it follows. -/
theorem skipLeads_append (filled : skipLeads text ≠ [])
    (unled : afterLead? (skipLeads text ++ more) = none) :
    skipLeads (text ++ more) = skipLeads text ++ more := by
  have start : trimStart (skipLeads text ++ more) = skipLeads text ++ more := by
    rw [trimStart_append, trimStart_skipLeads]
    rw [trimStart_skipLeads]
    exact fun vacant => absurd vacant filled
  rw [skipLeads_append_of_filled filled, skipLeads_of_none (by rw [start, unled]), start]

/-! ### Blanks behind a step -/

/-- Blanks do not continue a name. -/
theorem dropName_append_blanks {blanks : List Char} (blank : ∀ c ∈ blanks, isBlank c = true) :
    dropName (text ++ blanks) = dropName text ++ blanks := by
  have kept : dropName blanks = blanks := by
    cases blanks with
    | nil => rfl
    | cons c rest => simp [dropName, (isNameChar_of_isBlank (blank c List.mem_cons_self)).1]
  rw [dropName, List.dropWhile_append]
  split
  · rename_i vacant
    rw [List.isEmpty_iff] at vacant
    rw [dropName, vacant, List.nil_append]
    exact kept
  · rfl

/-- The second text is the first with blanks behind it. -/
def Spaced (text spaced : List Char) : Prop :=
  ∃ blanks, (∀ c ∈ blanks, isBlank c = true) ∧ spaced = text ++ blanks

namespace Spaced

variable {spaced : List Char}

/-- A step that takes a class off leaves the blanks, or a rest of them. -/
theorem dropWhile {class' : Char → Bool} (is : Spaced text spaced) :
    Spaced (text.dropWhile class') (spaced.dropWhile class') := by
  obtain ⟨blanks, blank, rfl⟩ := is
  rw [List.dropWhile_append]
  split
  · rename_i vacant
    rw [List.isEmpty_iff.1 vacant]
    exact ⟨_, fun c member => blank c ((List.dropWhile_suffix class').subset member), rfl⟩
  · exact ⟨blanks, blank, rfl⟩

theorem trimStart (is : Spaced text spaced) : Spaced (trimStart text) (trimStart spaced) :=
  is.dropWhile

theorem dropName (is : Spaced text spaced) : Spaced (dropName text) (dropName spaced) :=
  is.dropWhile

/-- What is not blank stands in both texts. -/
theorem uncons (is : Spaced text spaced) {c : Char} (filled : isBlank c = false) :
    (∃ rest, spaced = c :: rest) ↔ ∃ rest, text = c :: rest := by
  obtain ⟨blanks, blank, rfl⟩ := is
  cases text with
  | nil =>
    refine ⟨fun ⟨rest, start⟩ => ?_, fun ⟨rest, start⟩ => nomatch start⟩
    rw [List.nil_append] at start
    simp [blank c (start ▸ List.mem_cons_self)] at filled
  | cons d rest => simp

/-- A character that both texts start with can be taken off both. -/
theorem tail {c : Char} {behind : List Char} (is : Spaced (c :: rest) (c :: behind)) :
    Spaced rest behind := by
  obtain ⟨blanks, blank, whole⟩ := is
  exact ⟨blanks, blank, (List.cons.inj whole).2⟩

/-- The quote stands in both texts or in none. -/
theorem skipQuote (is : Spaced text spaced) : Spaced (skipQuote text) (skipQuote spaced) := by
  have same := is.uncons (c := '\'') (by decide)
  unfold TypeName.skipQuote
  split <;> split
  · exact is.tail
  · rename_i unquoted
    obtain ⟨rest, start⟩ := same.2 ⟨_, rfl⟩
    exact absurd start (unquoted rest)
  · rename_i unquoted _ _
    obtain ⟨rest, start⟩ := same.1 ⟨_, rfl⟩
    exact absurd start (unquoted rest)
  · exact is

/-- The mark stands behind both texts or behind none. -/
theorem takeMark (is : Spaced text spaced) :
    (takeMark spaced).1 = (takeMark text).1 ∧ Spaced (takeMark text).2 (takeMark spaced).2 := by
  have same := is.uncons (c := '?') (by decide)
  unfold TypeName.takeMark
  split <;> split
  · exact ⟨rfl, is.tail⟩
  · rename_i unmarked
    obtain ⟨rest, start⟩ := same.1 ⟨_, rfl⟩
    exact absurd start (unmarked rest)
  · rename_i unmarked _ _
    obtain ⟨rest, start⟩ := same.2 ⟨_, rfl⟩
    exact absurd start (unmarked rest)
  · exact ⟨rfl, is⟩

/-- The same bounds are taken off both texts. -/
theorem skipBounds (is : Spaced text spaced) : Spaced (skipBounds text) (skipBounds spaced) := by
  have same {text spaced : List Char} (is : Spaced text spaced) :=
    is.trimStart.uncons (c := '+') (by decide)
  fun_induction TypeName.skipBounds text generalizing spaced with
  | case1 text rest found ih =>
    obtain ⟨behind, start⟩ := (same is).2 ⟨rest, found⟩
    have is' : Spaced rest behind := tail (c := '+') (found ▸ start ▸ is.trimStart)
    rw [skipBounds_of_plus start]
    exact ih is'.trimStart.skipQuote.dropName
  | case2 text unbound =>
    rw [skipBounds_of_no_plus fun rest start => ?_]
    · exact is.trimStart
    · obtain ⟨behind, found⟩ := (same is).1 ⟨rest, start⟩
      exact unbound behind found

/-- Bounds and the mark behind a type are the same with blanks behind them. -/
theorem finish (is : Spaced text spaced) :
    (TypeName.takeMark (TypeName.skipBounds spaced)).1 =
        (TypeName.takeMark (TypeName.skipBounds text)).1 ∧
      Spaced (TypeName.takeMark (TypeName.skipBounds text)).2
        (TypeName.takeMark (TypeName.skipBounds spaced)).2 :=
  is.skipBounds.takeMark

end Spaced

end Assay.TypeName
