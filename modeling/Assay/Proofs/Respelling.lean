/-
Module: Assay.Proofs.Respelling
Purpose: A type that was read is read again from its spelling. A normal node is spelled so that the
  reader stops where the spelling of each part ends: behind a name only at a delimiter, behind a type
  only at a mark, a comma or the closing bracket. So spelling and reading are inverse on what is read,
  and two texts mean the same type if and only if they are spelled alike.
Main exports: TypeName.reads_spelling, TypeName.normalize, TypeName.respelling_keeps
-/
import Assay.Proofs.NormalForms
import Assay.TypeName.Printer

namespace Assay.TypeName

open Unicode

/-! ### Behind a type -/

/-- A text in which no type goes on: it is empty or starts with a comma or a closing bracket. -/
def Follows (text : List Char) : Prop :=
  ∀ c rest, text = c :: rest → c = ',' ∨ c = '>'

theorem Follows.nil : Follows [] := nofun

theorem Follows.comma (rest : List Char) : Follows (',' :: rest) := by
  rintro _ _ ⟨⟩
  exact .inl rfl

theorem Follows.close (rest : List Char) : Follows ('>' :: rest) := by
  rintro _ _ ⟨⟩
  exact .inr rfl

section follows

variable {more : List Char}

theorem Follows.cut (follows : Follows more) : Cut more := by
  intro c rest start
  rcases follows c rest start with rfl | rfl <;> decide

theorem Follows.takeMark (follows : Follows more) : takeMark more = (false, more) := by
  unfold TypeName.takeMark
  split
  · rcases follows _ _ rfl with same | same <;> exact absurd same (by decide)
  · rfl

/-- The mark as it is spelled. -/
def mark (nullable : Bool) : List Char :=
  if nullable then ['?'] else []

theorem takeMark_mark (nullable : Bool) (follows : Follows more) :
    takeMark (mark nullable ++ more) = (nullable, more) := by
  cases nullable with
  | false => exact follows.takeMark
  | true => rfl

theorem cut_mark (nullable : Bool) (follows : Follows more) : Cut (mark nullable ++ more) := by
  cases nullable with
  | false => exact follows.cut
  | true => exact .cons (by decide)

end follows

/-! ### Names -/

theorem afterLastPath?_of_pathless {name : List Char} (pathless : ¬[':', ':'] <:+: name) :
    afterLastPath? name = none := by
  fun_induction afterLastPath? name with
  | case1 => rfl
  | case2 c rest segment found ih =>
    rw [ih fun inside => pathless (inside.trans (List.suffix_cons c rest).isInfix)] at found
    cases found
  | case3 segment found ih => exact absurd ⟨[], segment, rfl⟩ pathless
  | case4 => rfl

theorem lastSegment_of_pathless {name : List Char} (pathless : ¬[':', ':'] <:+: name) :
    lastSegment name = name := by
  rw [lastSegment, afterLastPath?_of_pathless pathless, Option.getD_none]

/-- The characters of a name, with or without a path before it. -/
structure Spells (chars : List Char) (name : String) : Prop where
  isName : ∀ c ∈ chars, isNameChar c = true
  segment : lastSegment chars = name.toList
  filled : name ≠ ""

theorem IsName.spells {name : String} (is : IsName name) : Spells name.toList name :=
  ⟨is.chars, lastSegment_of_pathless is.pathless, is.filled⟩

namespace Spells

variable {chars list behind more : List Char} {name : String} {args : List TypeName}

theorem ne_nil (spells : Spells chars name) : chars ≠ [] := by
  rintro rfl
  exact spells.filled (String.toList_eq_nil_iff.1 spells.segment.symm)

theorem skipLeads (spells : Spells chars name) (cut : Cut more) :
    skipLeads (chars ++ more) = chars ++ more :=
  skipLeads_name_append spells.isName spells.ne_nil cut

theorem leadingName (spells : Spells chars name) (cut : Cut more) :
    leadingName (chars ++ more) = name := by
  rw [TypeName.leadingName, takeWhile_name_append spells.isName cut, spells.segment,
    String.ofList_toList]

theorem named (spells : Spells chars name) (cut : Cut more) : Named (chars ++ more) := by
  refine named_of_filled ?_
  rw [takeWhile_name_append spells.isName cut, spells.segment]
  simpa using spells.filled

theorem follows (spells : Spells chars name) (cut : Cut more) :
    trimStart (dropName (chars ++ more)) = more := by
  rw [dropName_name_append spells.isName, cut.dropName, cut.trimStart]

/-- A name and its arguments are read as they are composed. -/
theorem reads_applied (spells : Spells chars name) (listed : ReadsArgs list args behind) :
    ReadsType (chars ++ '<' :: list) (compose name args (takeMark (skipBounds behind)).1)
      (takeMark (skipBounds behind)).2 := by
  have cut : Cut ('<' :: list) := .cons (by decide)
  have bare := spells.skipLeads cut
  have reads := ReadsType.applied (bare.symm ▸ spells.named cut)
    (by rw [bare, spells.follows cut]) listed
  rwa [bare, spells.leadingName cut] at reads

/-- A name alone is read as the type of that name. -/
theorem reads_name (spells : Spells chars name) (nullable : Bool) (follows : Follows more) :
    ReadsType (chars ++ (mark nullable ++ more)) ⟨name, [], nullable⟩ more := by
  have cut := cut_mark nullable follows
  have bare := spells.skipLeads cut
  have other {c : Char} {rest : List Char} (apart : c ∉ ['?', ',', '>']) :
      mark nullable ++ more ≠ c :: rest := by
    intro start
    cases nullable with
    | false => rcases follows c rest start with rfl | rfl <;> simp at apart
    | true => exact apart (by simp [← (List.cons.inj start).1])
  have reads := ReadsType.name (bare.symm ▸ spells.named cut)
    (by rw [bare, spells.follows cut]) (fun value => other (by decide)) (fun list => other (by decide))
  rwa [bare, spells.leadingName cut, cut.skipBounds, takeMark_mark nullable follows] at reads

end Spells

/-- The brackets of the unit type are read as the unit type. -/
theorem reads_unit {more : List Char} (nullable : Bool) (follows : Follows more) :
    ReadsType ('(' :: ')' :: (mark nullable ++ more)) ⟨"()", [], nullable⟩ more := by
  have cut := cut_mark nullable follows
  have front : trimStart ('(' :: ')' :: (mark nullable ++ more)) =
      '(' :: ')' :: (mark nullable ++ more) := trimStart_of_filled (by decide)
  have bare : skipLeads ('(' :: ')' :: (mark nullable ++ more)) =
      ['(', ')'] ++ (mark nullable ++ more) := by
    rw [skipLeads_of_none (by simp [front, afterLead?, leads, Text.after?]), front]
    rfl
  have reads := ReadsType.unit (Text.after?_eq_some_iff.2 bare)
  rwa [cut.trimStart, takeMark_mark nullable follows] at reads

/-! ### Reading what is spelled -/

theorem compose_of_unwrapped {name : String} {args : List TypeName} (nullable : Bool)
    (unwrapped : name ∈ optionName :: transparentNames → args.length ≠ 1) :
    compose name args nullable = ⟨name, args, nullable⟩ := by
  unfold compose
  split
  · rw [if_neg]
    intro wrapper
    exact unwrapped (by simpa using wrapper) rfl
  · rfl

theorem spelling_eq (name : String) (args : List TypeName) (nullable : Bool) :
    spelling ⟨name, args, nullable⟩ = name.toList ++ spellingOfArgs args ++ mark nullable := by
  rw [spelling, mark]

/-- Arguments are read if the first of them is, and then what is spelled behind it. -/
theorem ReadsArgs.of_first {text behind rest : List Char} {arg : TypeName} {args : List TypeName}
    (first : ReadsType text arg behind) (cut : Cut behind) (more : ReadsMore behind args rest) :
    ReadsArgs text (arg :: args) rest :=
  .type (first.congr skipLeads_trimStart.symm) (cut.skipBounds.symm ▸ more)

theorem follows_spellingOfMore (args : List TypeName) (rest : List Char) :
    Follows (spellingOfMore args ++ '>' :: rest) := by
  cases args with
  | nil => exact .close rest
  | cons arg args => exact .comma _

mutual

/-- A normal type is read from its spelling, with all left that stands behind it. -/
theorem reads_spelling {more : List Char} (follows : Follows more) :
    (type : TypeName) → Normal type → ReadsType (type.spelling ++ more) type more
  | ⟨name, [], nullable⟩, normal => by
    rw [spelling_eq, spellingOfArgs, List.append_nil, List.append_assoc]
    rcases (normal_iff.1 normal).1.named with ⟨rfl, _⟩ | is
    · exact reads_unit nullable follows
    · exact is.spells.reads_name nullable follows
  | ⟨name, arg :: args, nullable⟩, normal => by
    obtain ⟨own, below⟩ := normal_iff.1 normal
    have first := reads_spelling (follows_spellingOfMore args (mark nullable ++ more)) arg
      (below arg List.mem_cons_self)
    have others := readsMore_spelling (mark nullable ++ more) args fun arg member =>
      below arg (List.mem_cons_of_mem _ member)
    have cut := (follows_spellingOfMore args (mark nullable ++ more)).cut
    rcases own.named with ⟨_, argless⟩ | is
    · cases argless
    · have reads := is.spells.reads_applied (.of_first first cut others)
      rw [(cut_mark nullable follows).skipBounds, takeMark_mark nullable follows,
        compose_of_unwrapped nullable own.unwrapped] at reads
      simpa [spelling_eq, spellingOfArgs] using reads

/-- Normal types are read from their spelling behind another argument. -/
theorem readsMore_spelling (more : List Char) :
    (args : List TypeName) → (∀ arg ∈ args, Normal arg) →
      ReadsMore (spellingOfMore args ++ '>' :: more) args more
  | [], _ => .close
  | arg :: args, normal => by
    have first := reads_spelling (follows_spellingOfMore args more) arg
      (normal arg List.mem_cons_self)
    have others := readsMore_spelling more args fun arg member =>
      normal arg (List.mem_cons_of_mem _ member)
    have reads := ReadsArgs.of_first (first.congr skipLeads_space.symm)
      (follows_spellingOfMore args more).cut others
    simpa [spellingOfMore] using ReadsMore.comma reads

end

/-! ### Texts and their types -/

/-- A normal type is parsed from its text. -/
theorem parse_toString {type : TypeName} (normal : Normal type) :
    TypeName.parse type.toString = .ok type := by
  refine parse_eq_ok_iff.2 ⟨[], ?_, List.forall_mem_nil _⟩
  simpa [toString] using reads_spelling .nil type normal

/-- The spelling of the type that a text is read as. -/
def normalize (text : String) : Except CompileError String :=
  (TypeName.parse text).map toString

/-- Spelling and parsing are inverse on parsed types: a type that was parsed from some text is parsed
from its own text again. So normalizing a text that is normalized already changes nothing, and two
accepted texts mean the same type if and only if that is spelled the same. -/
theorem respelling_keeps :
    (∀ text type, TypeName.parse text = .ok type → TypeName.parse type.toString = .ok type) ∧
    (∀ text spelled, normalize text = .ok spelled → normalize spelled = .ok spelled) ∧
    (∀ text text' type type', TypeName.parse text = .ok type → TypeName.parse text' = .ok type' →
      (type = type' ↔ type.toString = type'.toString)) := by
  have again (text : String) (type : TypeName) (accepted : TypeName.parse text = .ok type) :
      TypeName.parse type.toString = .ok type :=
    parse_toString (normal_of_parse accepted)
  refine ⟨again, ?_, ?_⟩
  · intro text spelled accepted
    cases parsed : TypeName.parse text with
    | error fault => simp [normalize, parsed, Except.map] at accepted
    | ok type =>
      simp only [normalize, parsed, Except.map, Except.ok.injEq] at accepted
      subst accepted
      rw [normalize, again text type parsed, Except.map]
  · intro text text' type type' accepted accepted'
    refine ⟨fun same => by rw [same], fun same => ?_⟩
    have parsed := again text type accepted
    rw [same, again text' type' accepted'] at parsed
    exact (Except.ok.inj parsed).symm

/-- Types with a single colon in a name and a bare lead word, one of them marked: from two spellings the
same type is read, and it is spelled differently from the type without the mark. -/
theorem map_respelled :
    TypeName.parse "&'a Box< crate::Map<'a, X = dyn a:b , mut>>?" =
        .ok ⟨"Map", [⟨"a:b", [], false⟩, ⟨"mut", [], false⟩], true⟩ ∧
      TypeName.parse "Map<a:b,mut> + Send" =
        .ok ⟨"Map", [⟨"a:b", [], false⟩, ⟨"mut", [], false⟩], false⟩ ∧
      TypeName.parse "Map<a:b, mut>?" =
        .ok ⟨"Map", [⟨"a:b", [], false⟩, ⟨"mut", [], false⟩], true⟩ ∧
      normalize "Map<a:b, mut>?" = .ok "Map<a:b, mut>?" ∧
      toString ⟨"Map", [⟨"a:b", [], false⟩, ⟨"mut", [], false⟩], true⟩ ≠
        toString ⟨"Map", [⟨"a:b", [], false⟩, ⟨"mut", [], false⟩], false⟩ := by
  have marked : TypeName.parse "&'a Box< crate::Map<'a, X = dyn a:b , mut>>?" =
      .ok ⟨"Map", [⟨"a:b", [], false⟩, ⟨"mut", [], false⟩], true⟩ := by decide +kernel
  have plain : TypeName.parse "Map<a:b,mut> + Send" =
      .ok ⟨"Map", [⟨"a:b", [], false⟩, ⟨"mut", [], false⟩], false⟩ := by decide +kernel
  have spelled : toString ⟨"Map", [⟨"a:b", [], false⟩, ⟨"mut", [], false⟩], true⟩ =
      "Map<a:b, mut>?" := by decide +kernel
  have again := respelling_keeps.1 _ _ marked
  have normal := respelling_keeps.2.1 "&'a Box< crate::Map<'a, X = dyn a:b , mut>>?" "Map<a:b, mut>?"
    (by rw [normalize, marked, Except.map, spelled])
  have apart := mt (respelling_keeps.2.2 _ _ _ _ marked plain).2 (by decide)
  exact ⟨marked, plain, spelled ▸ again, normal, apart⟩

end Assay.TypeName
