/-
Module: Assay.Proofs.Composition
Purpose: The type of a name over arguments is composed of the types of the arguments, however each of them
  is written: with blanks around it, with leads before it or bound to a name. A path before the name and
  bounds behind the closing bracket change nothing. Only a bare lead word takes no space behind it.
Main exports: TypeName.Argument, TypeName.application, TypeName.applied, TypeName.parse_composes,
  TypeName.spaced_word_refused
-/
import Assay.Proofs.Contexts

namespace Assay.TypeName

open Unicode

variable {text rest more blanks : List Char} {type : TypeName}

/-! ### Texts that are put together -/

/-- Letters, digits and underscores. -/
def IsIdent (chars : List Char) : Prop :=
  chars ≠ [] ∧ ∀ c ∈ chars, isAlphanumeric c = true ∨ c = '_'

/-- What may stand before an argument that is bound to a name; nothing stands before one that is not. -/
inductive IsLabel : List Char → Prop where
  | none : IsLabel []
  | binding {name : List Char} (ident : IsIdent name) (other : name ∉ leadWords) :
    IsLabel (name ++ [' ', '=', ' '])

/-- Bounds: markers and lifetimes, each behind a plus sign. -/
inductive IsBounds : List Char → Prop where
  | none : IsBounds []
  | marker {gap blanks name more : List Char} (spaced : ∀ c ∈ gap ++ blanks, isBlank c = true)
      (ident : IsIdent name) (bounds : IsBounds more) :
    IsBounds (gap ++ '+' :: (blanks ++ (name ++ more)))
  | lifetime {gap blanks name more : List Char} (spaced : ∀ c ∈ gap ++ blanks, isBlank c = true)
      (ident : IsIdent name) (bounds : IsBounds more) :
    IsBounds (gap ++ '+' :: (blanks ++ '\'' :: (name ++ more)))

/-- A reference, with or without a lifetime, or one of the leading words. -/
inductive IsPrefix : List Char → Prop where
  | lead {lead : List Char} (known : lead ∈ leads) : IsPrefix lead
  | lifetime {label : List Char} (ident : IsIdent label) : IsPrefix ('&' :: '\'' :: (label ++ [' ']))

/-- An argument as it is written in a text. -/
structure Argument where
  before : List Char
  label : List Char
  text : String
  behind : List Char

def Argument.spelled (arg : Argument) : List Char :=
  arg.before ++ (arg.label ++ (arg.text.toList ++ arg.behind))

/-- A written argument means a type if its text is accepted as that type. Blanks may stand around it, but
no space directly behind a word that the space makes a lead. -/
structure Argument.Means (arg : Argument) (type : TypeName) : Prop where
  accepted : TypeName.parse arg.text = .ok type
  label : IsLabel arg.label
  before : ∀ c ∈ arg.before, isBlank c = true
  behind : ∀ c ∈ arg.behind, isBlank c = true
  clear : BareLead arg.text.toList → ∀ rest, arg.behind ≠ ' ' :: rest

/-- A name over arguments as it is written: with a path before it, bounds behind the closing bracket, and
the mark of a value that may be absent. -/
def application (path : List (List Char)) (name : List Char) (args : List Argument)
    (bounds : List Char) (nullable : Bool) : List Char :=
  path.flatMap (· ++ [':', ':']) ++ name ++
    '<' :: ([','].intercalate (args.map Argument.spelled) ++ '>' :: (bounds ++ mark nullable))

/-- The type that a name over arguments stands for. -/
def applied (name : String) : List TypeName → TypeName
  | [type] =>
    if name = "Option" then type.orNull
    else if name ∈ ["Box", "Pin", "Arc", "Rc"] then type
    else ⟨name, [type], false⟩
  | types => ⟨name, types, false⟩

theorem compose_eq_applied (name : String) (types : List TypeName) (nullable : Bool) :
    compose name types nullable = if nullable then (applied name types).orNull else applied name types := by
  unfold compose applied optionName transparentNames
  split
  · rename_i inner
    by_cases option : name = "Option"
    · simp [option, orNull]
    · by_cases transparent : name ∈ ["Box", "Pin", "Arc", "Rc"]
      · obtain ⟨inner, args, mark⟩ := inner
        cases nullable <;> simp [option, transparent, orNull]
      · cases nullable <;> simp [option, transparent, orNull]
  · cases nullable <;> simp [orNull]

/-! ### Their parts -/

theorem IsIdent.isNameChar {chars : List Char} (ident : IsIdent chars) :
    ∀ c ∈ chars, isNameChar c = true := by
  intro c member
  rcases ident.2 c member with letter | rfl
  · simp [TypeName.isNameChar, letter]
  · simp [TypeName.isNameChar]

theorem IsIdent.ne_colon {chars : List Char} (ident : IsIdent chars) : ∀ c ∈ chars, c ≠ ':' := by
  rintro c member rfl
  rcases ident.2 _ member with letter | same
  · exact absurd letter (by decide +kernel)
  · exact absurd same (by decide)

/-- An identifier starts with the character of a name. -/
theorem IsIdent.starts {chars : List Char} (ident : IsIdent chars) :
    ∃ c rest, chars = c :: rest ∧ TypeName.isNameChar c = true := by
  obtain ⟨c, rest, rfl⟩ := List.exists_cons_of_ne_nil ident.1
  exact ⟨c, rest, rfl, ident.isNameChar c List.mem_cons_self⟩

theorem IsIdent.isName {chars : List Char} (ident : IsIdent chars) : IsName (String.ofList chars) where
  filled := by simpa using ident.1
  chars := by simpa using ident.isNameChar
  pathless := by
    rw [String.toList_ofList]
    intro inside
    exact ident.ne_colon ':' (inside.subset List.mem_cons_self) rfl

/-- What stands behind a double colon is the last segment, if no further one follows. -/
theorem afterLastPath?_append {front segment : List Char} (start : ∀ rest, segment ≠ ':' :: rest) :
    afterLastPath? (front ++ ':' :: ':' :: segment) = some (lastSegment segment) := by
  induction front with
  | nil =>
    have single : afterLastPath? (':' :: segment) = afterLastPath? segment := by
      cases found : afterLastPath? segment <;> simp [afterLastPath?, found, start]
    rw [List.nil_append, afterLastPath?.eq_def]
    simp only [single, lastSegment]
    cases afterLastPath? segment <;> rfl
  | cons c front ih => simp [afterLastPath?, ih]

/-- A name spells itself, with or without a path before it. -/
theorem spells_path {path : List (List Char)} {name : List Char}
    (segments : ∀ segment ∈ path, IsIdent segment) (ident : IsIdent name) :
    Spells (path.flatMap (· ++ [':', ':']) ++ name) (String.ofList name) where
  isName := by
    intro c member
    simp only [List.mem_append, List.mem_flatMap, List.mem_cons, List.not_mem_nil, or_false] at member
    rcases member with ⟨segment, inPath, inside | rfl | rfl⟩ | inside
    · exact (segments segment inPath).isNameChar c inside
    · decide +kernel
    · decide +kernel
    · exact ident.isNameChar c inside
  segment := by
    have own : lastSegment name = name := by
      simpa using lastSegment_of_pathless ident.isName.pathless
    have start : ∀ rest, name ≠ ':' :: rest := by
      rintro rest rfl
      exact ident.ne_colon ':' List.mem_cons_self rfl
    rw [String.toList_ofList]
    rcases List.eq_nil_or_concat path with rfl | ⟨front, segment, rfl⟩
    · simpa using own
    · have whole : (front.concat segment).flatMap (· ++ [':', ':']) ++ name =
          (front.flatMap (· ++ [':', ':']) ++ segment) ++ ':' :: ':' :: name := by simp
      rw [lastSegment, whole, afterLastPath?_append start, Option.getD_some, own]
  filled := ident.isName.filled

theorem dropName_gap_append {gap : List Char} (blank : ∀ c ∈ gap, isBlank c = true) :
    dropName (gap ++ '+' :: rest) = gap ++ '+' :: rest := by
  cases gap with
  | nil => exact List.dropWhile_cons_of_neg (by decide +kernel)
  | cons c gap => simp [dropName, (isNameChar_of_isBlank (blank c List.mem_cons_self)).1]

/-- No name goes on in bounds. -/
theorem IsBounds.dropName {bounds : List Char} (is : IsBounds bounds) (cut : Cut more) :
    dropName (bounds ++ more) = bounds ++ more := by
  cases is with
  | none => exact cut.dropName
  | marker spaced ident others =>
    rw [List.append_assoc]
    exact dropName_gap_append fun c member => spaced c (List.mem_append_left _ member)
  | lifetime spaced ident others =>
    rw [List.append_assoc]
    exact dropName_gap_append fun c member => spaced c (List.mem_append_left _ member)

theorem dropBound_ident {name : List Char} (blank : ∀ c ∈ blanks, isBlank c = true)
    (ident : IsIdent name) : dropBound (blanks ++ (name ++ more)) = TypeName.dropName more := by
  have front : skipQuote (trimStart (name ++ more)) = name ++ more := by
    obtain ⟨c, rest, rfl, isName⟩ := ident.starts
    obtain ⟨filled, unsigned⟩ := of_isNameChar isName
    rw [List.cons_append, trimStart_of_filled filled, skipQuote_of_ne]
    rintro rfl
    exact unsigned (by decide)
  rw [dropBound, trimStart_blanks_append blank, front, dropName_name_append ident.isNameChar]

theorem dropBound_lifetime {name : List Char} (blank : ∀ c ∈ blanks, isBlank c = true)
    (ident : IsIdent name) : dropBound (blanks ++ '\'' :: (name ++ more)) = TypeName.dropName more := by
  have start : trimStart ('\'' :: (name ++ more)) = '\'' :: (name ++ more) :=
    trimStart_of_filled (by decide)
  rw [dropBound, trimStart_blanks_append blank, start]
  exact dropName_name_append ident.isNameChar

/-- Bounds are skipped to what stands behind them. -/
theorem IsBounds.skipBounds {bounds : List Char} (is : IsBounds bounds) (cut : Cut more) :
    skipBounds (bounds ++ more) = more := by
  have plus {gap behind : List Char} (blank : ∀ c ∈ gap, isBlank c = true) :
      trimStart (gap ++ '+' :: behind) = '+' :: behind := by
    rw [trimStart_blanks_append blank, trimStart_of_filled (by decide)]
  induction is with
  | none => exact cut.skipBounds
  | marker spaced ident others ih =>
    rw [List.forall_mem_append] at spaced
    simp only [List.append_assoc, List.cons_append]
    rw [skipBounds_of_plus (plus spaced.1), dropBound_ident spaced.2 ident, others.dropName cut, ih]
  | lifetime spaced ident others ih =>
    rw [List.forall_mem_append] at spaced
    simp only [List.append_assoc, List.cons_append]
    rw [skipBounds_of_plus (plus spaced.1), dropBound_lifetime spaced.2 ident, others.dropName cut, ih]

/-! ### Reading what is put together -/

/-- An identifier that binds a type is read as that type. -/
theorem reads_bound {name : List Char} (ident : IsIdent name) (other : name ∉ leadWords)
    (reads : ReadsType text type rest) : ReadsType (name ++ ' ' :: '=' :: ' ' :: text) type rest := by
  have spells : Spells name (String.ofList name) := by simpa using ident.isName.spells
  have alone : skipLeads name = name := by simpa using spells.skipLeads .nil
  have named : Named (skipLeads name) := by simpa [alone] using spells.named .nil
  have vacant : TypeName.dropName name = [] := List.dropWhile_eq_nil_iff.2 ident.isNameChar
  have behind : TypeName.dropName (skipLeads name ++ ' ' :: '=' :: ' ' :: text) =
      TypeName.dropName (skipLeads name) ++ ' ' :: '=' :: ' ' :: text := by
    rw [alone, dropName_name_append ident.isNameChar, vacant]
    exact List.dropWhile_cons_of_neg (by decide +kernel)
  obtain ⟨named', _, follows⟩ := named.head_append behind fun isWord => absurd (alone ▸ isWord) other
  refine .binding named' ?_ (reads.congr skipLeads_space.symm)
  rw [follows, alone, vacant]
  rfl

/-- A prefix before a text that is read is taken off. -/
theorem skipLeads_lead_append {lead : List Char} (is : IsPrefix lead) (reads : ReadsType text type rest) :
    skipLeads (lead ++ text) = skipLeads text := by
  have unquoted : skipLifetime text = text := by
    unfold skipLifetime
    split
    · have start : trimStart ('\'' :: ‹_›) = '\'' :: ‹_› := trimStart_of_filled (by decide)
      exact absurd rfl ((start ▸ reads).opens start).2
    · rfl
  cases is with
  | @lead lead known =>
    have front : trimStart (lead ++ text) = lead ++ text := by
      have started := known
      simp only [leads, List.mem_cons, List.not_mem_nil, or_false] at started
      rcases started with rfl | rfl | rfl | rfl <;> exact trimStart_of_filled (by decide)
    rw [skipLeads_of_some (afterLead?_eq_some_iff.2 ⟨lead, known, front⟩), unquoted]
  | @lifetime label ident =>
    have found : afterLead? (trimStart ('&' :: '\'' :: (label ++ [' ']) ++ text)) =
        some ('\'' :: (label ++ ' ' :: text)) := by
      rw [List.cons_append, trimStart_of_filled (by decide)]
      exact afterLead?_eq_some_iff.2 ⟨['&'], by decide, by simp⟩
    have label : skipLifetime ('\'' :: (label ++ ' ' :: text)) = ' ' :: text := by
      rw [skipLifetime, dropName_name_append ident.isNameChar]
      exact List.dropWhile_cons_of_neg (by decide +kernel)
    rw [skipLeads_of_some found, label, skipLeads_space]

namespace Argument.Means

variable {arg : Argument}

/-- An argument is read as the type that it means, whatever delimiter follows it. -/
theorem reads (means : arg.Means type) (follows : Follows more) :
    ∃ rest, (∀ c ∈ rest, isBlank c = true) ∧ ReadsType (arg.spelled ++ more) type (rest ++ more) := by
  obtain ⟨rest, reads, blank⟩ := parse_eq_ok_iff.1 means.accepted
  obtain ⟨_, reads, ⟨blanks, blank', rfl⟩⟩ := reads.append_blanks means.behind means.clear
  refine ⟨rest ++ blanks, List.forall_mem_append.2 ⟨blank, blank'⟩, ?_⟩
  have bare := reads.append more fun _ => follows
  have labelled : ReadsType (arg.label ++ (arg.text.toList ++ arg.behind ++ more)) type
      (rest ++ blanks ++ more) := by
    have label := means.label
    generalize arg.label = label' at label ⊢
    cases label with
    | none => exact bare
    | binding ident other => simpa using reads_bound ident other bare
  have whole := labelled.congr (skipLeads_blanks_append means.before).symm
  simpa [Argument.spelled] using whole

/-- An argument is the first of those that are read behind it. -/
theorem readsArgs (means : arg.Means type) {args : List TypeName} (follows : Follows more)
    (others : ReadsMore more args rest) : ReadsArgs (arg.spelled ++ more) (type :: args) rest := by
  obtain ⟨blanks, blank, reads⟩ := means.reads follows
  have bounds : skipBounds (blanks ++ more) = more := by
    rw [← skipBounds_trimStart, trimStart_blanks_append blank, skipBounds_trimStart,
      follows.cut.skipBounds]
  exact .type (reads.congr skipLeads_trimStart.symm) (bounds.symm ▸ others)

end Argument.Means

/-- Arguments between commas are read as the types that they mean. -/
theorem readsArgs_spelled {args : List Argument} {types : List TypeName}
    (mean : List.Forall₂ Argument.Means args types) (filled : args ≠ []) (more : List Char) :
    ReadsArgs ([','].intercalate (args.map Argument.spelled) ++ '>' :: more) types more := by
  induction mean with
  | nil => exact absurd rfl filled
  | @cons arg type args types means others ih =>
    cases others with
    | nil => simpa [List.intercalate] using means.readsArgs (.close more) .close
    | @cons next _ args' _ _ _ =>
      have more' := ReadsMore.comma (ih (List.cons_ne_nil _ _))
      simpa [List.intercalate] using means.readsArgs (.comma _) more'

theorem accepts_application {path : List (List Char)} {name bounds : List Char} {args : List Argument}
    {types : List TypeName} (nullable : Bool) (segments : ∀ segment ∈ path, IsIdent segment)
    (ident : IsIdent name) (filled : args ≠ []) (mean : List.Forall₂ Argument.Means args types)
    (bounded : IsBounds bounds) :
    Accepts (application path name args bounds nullable)
      (compose (String.ofList name) types nullable) := by
  have marked : Cut (mark nullable) ∧ takeMark (mark nullable) = (nullable, []) := by
    simpa using And.intro (cut_mark nullable .nil) (takeMark_mark nullable .nil)
  have reads := (spells_path segments ident).reads_applied
    (readsArgs_spelled mean filled (bounds ++ mark nullable))
  rw [bounded.skipBounds marked.1, marked.2] at reads
  exact ⟨[], reads, List.forall_mem_nil _⟩

/-- Parsing is compositional. A name over arguments is parsed as the name over the types that the arguments
mean, where the option wrapper with one argument stands for that argument marked and a transparent
wrapper with one argument for the argument itself, and a mark behind makes the type nullable. It is the
same with a path before the name, bounds behind the closing bracket, and arguments that are bound to a
name or have blanks around them. A prefix before an accepted text changes nothing. Only a bare lead word
takes no space behind it: with it the text is refused. -/
theorem parse_composes :
    (∀ path name args types bounds nullable, (∀ segment ∈ path, IsIdent segment) → IsIdent name →
      args ≠ [] → List.Forall₂ Argument.Means args types → IsBounds bounds →
      TypeName.parse (String.ofList (application path name args bounds nullable)) =
        .ok (if nullable then (applied (String.ofList name) types).orNull
          else applied (String.ofList name) types)) ∧
    (∀ lead text type, IsPrefix lead → TypeName.parse text = .ok type →
      TypeName.parse (String.ofList lead ++ text) = .ok type) ∧
    (∀ text blanks type, BareLead text.toList → (∀ c ∈ blanks, isBlank c = true) →
      TypeName.parse (text ++ String.ofList (' ' :: blanks)) ≠ .ok type) := by
  refine ⟨?_, ?_, ?_⟩
  · intro path name args types bounds nullable segments ident filled mean bounded
    rw [parse_eq_ok_iff, String.toList_ofList, ← compose_eq_applied]
    exact accepts_application nullable segments ident filled mean bounded
  · intro lead text type is accepted
    obtain ⟨rest, reads, blank⟩ := parse_eq_ok_iff.1 accepted
    refine parse_eq_ok_iff.2 ⟨rest, ?_, blank⟩
    rw [String.toList_append, String.toList_ofList]
    exact reads.congr (skipLeads_lead_append is reads).symm
  · intro text blanks type bare blank accepted
    obtain ⟨rest, reads, _⟩ := parse_eq_ok_iff.1 accepted
    rw [String.toList_append, String.toList_ofList] at reads
    exact bare.not_reads blank reads

/-- A bare lead word is accepted alone and between brackets, but not with a space behind it. -/
theorem spaced_word_refused :
    TypeName.parse "mut" = .ok ⟨"mut", [], false⟩ ∧
      TypeName.parse "Vec<mut>" = .ok ⟨"Vec", [⟨"mut", [], false⟩], false⟩ ∧
      TypeName.parse "Vec< mut >" = .error (.malformedType "Vec< mut >" (.expectedName 9)) := by
  decide +kernel

/-- An argument that is bound to a name and one with blanks around it, under a path, bounds and a mark; a
reference to a mutable place; and a bare lead word with a space behind it. -/
theorem map_composes :
    TypeName.parse "a::b::Map<X = &'a mut, Option<u8> > + Send + 'a?" =
        .ok ⟨"Map", [⟨"mut", [], false⟩, ⟨"u8", [], true⟩], true⟩ ∧
      TypeName.parse "&'a Option<u8>" = .ok ⟨"u8", [], true⟩ ∧
      TypeName.parse "X = mut  " ≠ .ok ⟨"mut", [], false⟩ := by
  have ident (chars : List Char) (filled : chars ≠ [])
      (letters : chars.all isAlphanumeric = true) : IsIdent chars :=
    ⟨filled, fun c member => .inl (List.all_eq_true.1 letters c member)⟩
  have option : TypeName.parse "Option<u8>" = .ok ⟨"u8", [], true⟩ := by decide +kernel
  have bound : Argument.Means ⟨[], "X = ".toList, "&'a mut", []⟩ ⟨"mut", [], false⟩ :=
    ⟨by decide +kernel, .binding (ident ['X'] (by decide) (by decide +kernel)) (by decide),
      List.forall_mem_nil _, List.forall_mem_nil _, fun _ _ => nofun⟩
  have clear : ¬BareLead "Option<u8>".toList := by
    intro bare
    cases bare with
    | word alone => exact absurd alone (by decide +kernel)
    | binding _ follows _ =>
      have behind : trimStart (dropName (skipLeads "Option<u8>".toList)) = "<u8>".toList := by
        decide +kernel
      cases behind.symm.trans follows
  have spaced : Argument.Means ⟨[' '], [], "Option<u8>", [' ']⟩ ⟨"u8", [], true⟩ :=
    ⟨option, .none, List.all_eq_true.1 (by decide), List.all_eq_true.1 (by decide),
      fun bare => absurd bare clear⟩
  have lifetime : IsBounds " + 'a".toList :=
    @IsBounds.lifetime [' '] [' '] ['a'] [] (List.all_eq_true.1 (by decide))
      (ident _ (by decide) (by decide +kernel)) .none
  have bounds : IsBounds " + Send + 'a".toList :=
    @IsBounds.marker [' '] [' '] "Send".toList _ (List.all_eq_true.1 (by decide))
      (ident _ (by decide) (by decide +kernel)) lifetime
  have path : ∀ segment ∈ [['a'], ['b']], IsIdent segment := by
    intro segment member
    have letters : ∀ segment ∈ [['a'], ['b']],
        segment ≠ [] ∧ segment.all isAlphanumeric = true := by decide +kernel
    exact ident segment (letters segment member).1 (letters segment member).2
  have label : IsPrefix "&'a ".toList := .lifetime (ident ['a'] (by decide) (by decide +kernel))
  have bare : BareLead "X = mut".toList :=
    @BareLead.binding _ " mut".toList (named_of_filled (by decide +kernel)) (by decide +kernel)
      (.word (by decide +kernel))
  have composed := parse_composes.1 [['a'], ['b']] "Map".toList _ _ _ true path
    (ident _ (by decide) (by decide +kernel)) (List.cons_ne_nil _ _)
    (.cons bound (.cons spaced .nil)) bounds
  have led := parse_composes.2.1 _ _ _ label option
  have refused := parse_composes.2.2 _ [' '] ⟨"mut", [], false⟩ bare
    (List.all_eq_true.1 (by decide))
  have texts : String.ofList "&'a ".toList ++ "Option<u8>" = "&'a Option<u8>" ∧
      "X = mut" ++ String.ofList [' ', ' '] = "X = mut  " := by decide +kernel
  rw [texts.1] at led
  rw [texts.2] at refused
  exact ⟨composed, led, refused⟩

end Assay.TypeName
