/-
Module: Assay.Proofs.NormalForms
Purpose: What an accepted text and the type that it is read as look like. No bracket is passed over
  uncounted, so the brackets of the text are balanced; and each node of the type has a name without a
  path, or is the unit type, and is no wrapper around a single argument.
Main exports: Balanced, TypeName.IsNormal, TypeName.nodes, TypeName.accepted_wellFormed
-/
import Assay.Proofs.Readings

namespace Assay

/-! ### Brackets -/

/-- The angle brackets of a text are balanced: read from the front, it never closes more brackets than
it has opened, and in the end it has closed them all. -/
structure Balanced (text : List Char) : Prop where
  opened : ∀ front, front <+: text → front.count '>' ≤ front.count '<'
  closed : text.count '>' = text.count '<'

/-- A text that closes `n` brackets opened before it, besides those that it opens itself. -/
structure Closes (n : Nat) (text : List Char) : Prop where
  opened : ∀ front, front <+: text → front.count '>' ≤ n + front.count '<'
  closed : text.count '>' = n + text.count '<'

namespace Closes

variable {m n : Nat} {front back : List Char}

theorem balanced (closes : Closes 0 front) : Balanced front :=
  ⟨by simpa using closes.opened, by simpa using closes.closed⟩

theorem append (first : Closes m front) (second : Closes n back) :
    Closes (m + n) (front ++ back) where
  opened part isPrefix := by
    rcases List.prefix_or_prefix_of_prefix isPrefix (List.prefix_append front back) with
      inside | ⟨more, rfl⟩
    · have := first.opened part inside
      omega
    · have := first.closed
      have := second.opened more ((List.prefix_append_right_inj front).1 isPrefix)
      simp only [List.count_append]
      omega
  closed := by
    rw [List.count_append, List.count_append, first.closed, second.closed]
    omega

/-- A bracket that is opened in front of a text is one that the text closes. -/
theorem cons (closes : Closes (n + 1) front) : Closes n ('<' :: front) where
  opened part isPrefix := by
    rcases List.prefix_cons_iff.1 isPrefix with rfl | ⟨more, rfl, inside⟩
    · simp
    · have := closes.opened more inside
      simp only [List.count_cons_self, List.count_cons_of_ne (show '<' ≠ '>' by decide)]
      omega
  closed := by
    have := closes.closed
    simp only [List.count_cons_self, List.count_cons_of_ne (show '<' ≠ '>' by decide)]
    omega

theorem single : Closes 1 ['>'] where
  opened part isPrefix := by
    have := isPrefix.sublist.count_le '>'
    simp only [List.count_singleton_self] at this
    omega
  closed := by decide

/-- A text without brackets closes none. -/
theorem of_not_mem (unopened : '<' ∉ front) (unclosed : '>' ∉ front) : Closes 0 front where
  opened part isPrefix := by
    rw [List.count_eq_zero.2 fun member => unclosed (isPrefix.subset member)]
    exact Nat.zero_le _
  closed := by rw [List.count_eq_zero.2 unopened, List.count_eq_zero.2 unclosed]

end Closes

/-- What lies between a text and a rest of it closes `n` brackets. -/
def Consumes (n : Nat) (text rest : List Char) : Prop :=
  ∃ front, text = front ++ rest ∧ Closes n front

namespace Consumes

variable {m n : Nat} {text middle rest : List Char}

theorem trans (first : Consumes m text middle) (second : Consumes n middle rest) :
    Consumes (m + n) text rest := by
  obtain ⟨front, rfl, closes⟩ := first
  obtain ⟨back, rfl, closes'⟩ := second
  exact ⟨front ++ back, (List.append_assoc _ _ _).symm, closes.append closes'⟩

theorem cons (consumes : Consumes (n + 1) text rest) : Consumes n ('<' :: text) rest := by
  obtain ⟨front, rfl, closes⟩ := consumes
  exact ⟨'<' :: front, rfl, closes.cons⟩

theorem close (rest : List Char) : Consumes 1 ('>' :: rest) rest :=
  ⟨['>'], rfl, .single⟩

end Consumes

namespace TypeName

open Unicode

variable {text rest : List Char} {type : TypeName} {args : List TypeName}

/-! ### What the reader consumes -/

theorem PassesOver.consumes (passes : PassesOver text rest) : Consumes 0 text rest := by
  obtain ⟨front, whole, unopened, unclosed⟩ := passes
  exact ⟨front, whole, .of_not_mem unopened unclosed⟩

theorem passesOver_skipQuote (text : List Char) : PassesOver text (skipQuote text) := by
  unfold skipQuote
  split
  · exact .skip (by decide) (by decide) _
  · exact .refl _

theorem passesOver_takeMark (text : List Char) : PassesOver text (takeMark text).2 := by
  unfold takeMark
  split
  · exact .skip (by decide) (by decide) _
  · exact .refl _

theorem passesOver_dropBound (text : List Char) : PassesOver text (dropBound text) :=
  (passesOver_trimStart text).trans ((passesOver_skipQuote _).trans (passesOver_dropName _))

theorem passesOver_skipBounds (text : List Char) : PassesOver text (skipBounds text) := by
  fun_induction skipBounds text with
  | case1 text rest found ih =>
    have plus : PassesOver text rest :=
      (found ▸ passesOver_trimStart text).trans (.skip (by decide) (by decide) rest)
    exact plus.trans ((passesOver_dropBound rest).trans ih)
  | case2 text => exact passesOver_trimStart text

/-- Leads and a name are passed over to what follows the name. -/
theorem passesOver_head (text : List Char) : PassesOver text (trimStart (dropName (skipLeads text))) :=
  (passesOver_skipLeads text).trans ((passesOver_dropName _).trans (passesOver_trimStart _))

theorem passesOver_finish (text : List Char) : PassesOver text (takeMark (skipBounds text)).2 :=
  (passesOver_skipBounds text).trans (passesOver_takeMark _)

mutual

/-- Reading a type closes the brackets that it opens. -/
theorem ReadsType.consumes {text rest : List Char} {type : TypeName} :
    ReadsType text type rest → Consumes 0 text rest
  | @ReadsType.unit _ behind brackets => by
    have front : PassesOver (skipLeads text) behind :=
      ⟨['(', ')'], Text.after?_eq_some_iff.1 brackets, by decide, by decide⟩
    have behind := (passesOver_trimStart behind).trans (passesOver_takeMark _)
    exact ((passesOver_skipLeads text).trans (front.trans behind)).consumes
  | @ReadsType.binding _ value _ _ _ follows bound => by
    have equals : PassesOver text value :=
      (follows ▸ passesOver_head text).trans (.skip (by decide) (by decide) value)
    exact equals.consumes.trans bound.consumes
  | .applied _ follows listed =>
    ((follows ▸ (passesOver_head text).consumes).trans listed.consumes.cons).trans
      (passesOver_finish _).consumes
  | .name _ follows _ _ => (follows ▸ (passesOver_head text).trans (passesOver_finish _)).consumes

/-- Reading arguments closes the bracket before them. -/
theorem ReadsArgs.consumes {text rest : List Char} {args : List TypeName} :
    ReadsArgs text args rest → Consumes 1 text rest
  | .close start => (start ▸ passesOver_trimStart text).consumes.trans (.close rest)
  | @ReadsArgs.lifetime _ label _ _ start more => by
    have quote : PassesOver text label :=
      (start ▸ passesOver_trimStart text).trans (.skip (by decide) (by decide) label)
    have bounds := (passesOver_dropName label).trans (passesOver_skipBounds _)
    exact (quote.trans bounds).consumes.trans more.consumes
  | .type first more =>
    (passesOver_trimStart text).consumes.trans
      (first.consumes.trans ((passesOver_skipBounds _).consumes.trans more.consumes))

theorem ReadsMore.consumes {text rest : List Char} {args : List TypeName} :
    ReadsMore text args rest → Consumes 1 text rest
  | .comma listed => (PassesOver.skip (by decide) (by decide) _).consumes.trans listed.consumes
  | .close => .close rest

end

/-! ### Nodes -/

mutual

/-- A type and all types below it. -/
def nodes : TypeName → List TypeName
  | ⟨name, args, nullable⟩ => ⟨name, args, nullable⟩ :: nodesOfArgs args

def nodesOfArgs : List TypeName → List TypeName
  | [] => []
  | arg :: more => nodes arg ++ nodesOfArgs more

end

theorem mem_nodesOfArgs {node : TypeName} {args : List TypeName} :
    node ∈ nodesOfArgs args ↔ ∃ arg ∈ args, node ∈ arg.nodes := by
  induction args with
  | nil => simp [nodesOfArgs]
  | cons arg more ih => simp [nodesOfArgs, ih]

/-- A name as a node has it after reading: characters of names, and no path before it. -/
structure IsName (name : String) : Prop where
  filled : name ≠ ""
  chars : ∀ c ∈ name.toList, isNameChar c = true
  pathless : ¬[':', ':'] <:+: name.toList

/-- A node as it is after reading: the unit type or a name, and no wrapper around one argument. -/
structure IsNormal (node : TypeName) : Prop where
  named : node.name = "()" ∧ node.args = [] ∨ IsName node.name
  unwrapped : node.name ∈ optionName :: transparentNames → node.args.length ≠ 1

/-- All nodes of a type are normal. -/
def Normal (type : TypeName) : Prop :=
  ∀ node ∈ type.nodes, node.IsNormal

theorem normal_iff {name : String} {nullable : Bool} :
    Normal ⟨name, args, nullable⟩ ↔
      IsNormal ⟨name, args, nullable⟩ ∧ ∀ arg ∈ args, Normal arg := by
  simp only [Normal, nodes, List.mem_cons, mem_nodesOfArgs]
  constructor
  · intro normal
    exact ⟨normal _ (.inl rfl), fun arg member node inside => normal node (.inr ⟨arg, member, inside⟩)⟩
  · rintro ⟨own, below⟩ node (rfl | ⟨arg, member, inside⟩)
    · exact own
    · exact below arg member node inside

theorem Normal.mark (normal : Normal type) (nullable : Bool) :
    Normal { type with nullable := nullable } := by
  obtain ⟨name, args, _⟩ := type
  obtain ⟨own, below⟩ := normal_iff.1 normal
  exact normal_iff.2 ⟨⟨own.named, own.unwrapped⟩, below⟩

/-- Composing types keeps them normal: a wrapper around one argument is what it does not build. -/
theorem normal_compose {name : String} (named : IsName name) (below : ∀ arg ∈ args, Normal arg)
    (nullable : Bool) : Normal (compose name args nullable) := by
  unfold compose
  split
  · rename_i inner
    split
    · exact (below inner List.mem_cons_self).mark _
    · rename_i unwrapped
      refine normal_iff.2 ⟨⟨.inr named, fun wrapper => absurd ?_ unwrapped⟩, below⟩
      simpa using wrapper
  · rename_i several
    refine normal_iff.2 ⟨⟨.inr named, fun _ single => ?_⟩, below⟩
    obtain ⟨inner, rfl⟩ := List.length_eq_one_iff.1 single
    exact several inner rfl

theorem normal_unit (nullable : Bool) : Normal (compose "()" [] nullable) :=
  normal_iff.2 ⟨⟨.inl ⟨rfl, rfl⟩, fun _ => Nat.zero_ne_one⟩, List.forall_mem_nil _⟩

/-- The last segment of a path has no path before it. -/
theorem pathless_lastSegment (path : List Char) : ¬[':', ':'] <:+: lastSegment path := by
  have pathless (path : List Char) : ¬[':', ':'] <:+: (afterLastPath? path).getD path := by
    fun_induction afterLastPath? path with
    | case1 => simp
    | case2 c rest segment found ih => simpa [found] using ih
    | case3 segment found ih =>
      rw [found] at ih
      exact fun inside => ih (inside.trans (List.suffix_cons ':' segment).isInfix)
    | case4 c rest found single ih =>
      rw [found] at ih
      intro inside
      rcases List.infix_cons_iff.1 inside with ⟨more, front⟩ | inside
      · obtain ⟨rfl, rfl⟩ := List.cons.inj front
        exact single _ rfl rfl
      · exact ih inside
  exact pathless path

theorem Named.isName {bare : List Char} (named : Named bare) : IsName (leadingName bare) where
  filled := by simpa [leadingName] using named.filled
  chars c member := by
    rw [leadingName, String.toList_ofList] at member
    exact List.mem_takeWhile_imp (mem_of_mem_lastSegment member)
  pathless := by
    rw [leadingName, String.toList_ofList]
    exact pathless_lastSegment _

mutual

/-- A type that is read off a text is normal. -/
theorem ReadsType.normal {text rest : List Char} {type : TypeName} :
    ReadsType text type rest → Normal type
  | .unit _ => normal_unit _
  | .binding _ _ bound => bound.normal
  | .applied named _ listed => normal_compose named.isName listed.normal _
  | .name named _ _ _ => normal_compose named.isName (List.forall_mem_nil _) _

/-- The arguments that are read off a text are normal. -/
theorem ReadsArgs.normal {text rest : List Char} {args : List TypeName} :
    ReadsArgs text args rest → ∀ arg ∈ args, Normal arg
  | .close _ => List.forall_mem_nil _
  | .lifetime _ more => more.normal
  | .type first more => by
    have first := first.normal
    have more := more.normal
    simpa using ⟨first, more⟩

theorem ReadsMore.normal {text rest : List Char} {args : List TypeName} :
    ReadsMore text args rest → ∀ arg ∈ args, Normal arg
  | .comma listed => listed.normal
  | .close => List.forall_mem_nil _

end

theorem normal_of_parse {text : String} (accepted : TypeName.parse text = .ok type) : Normal type := by
  obtain ⟨rest, reads, _⟩ := parse_eq_ok_iff.1 accepted
  exact reads.normal

/-- Nothing malformed is accepted: the brackets of an accepted text are balanced, and all nodes of the
type that it is read as are normal. -/
theorem accepted_wellFormed {text : String} (accepted : TypeName.parse text = .ok type) :
    Balanced text.toList ∧ ∀ node ∈ type.nodes, node.IsNormal := by
  obtain ⟨rest, reads, blank⟩ := parse_eq_ok_iff.1 accepted
  refine ⟨?_, reads.normal⟩
  have consumed : Consumes 0 text.toList [] := by
    have blanks := passesOver_trimStart rest
    rw [trimStart_eq_nil_iff.2 blank] at blanks
    exact reads.consumes.trans blanks.consumes
  obtain ⟨front, whole, closes⟩ := consumed
  rw [List.append_nil] at whole
  exact whole ▸ closes.balanced

/-- A text with a path, a lifetime, wrappers, a binding and bounds. -/
theorem future_wellFormed :
    TypeName.parse "Pin<Box<dyn std::Future<Output = Option<a:b>> + 'a>>" =
        .ok ⟨"Future", [⟨"a:b", [], true⟩], false⟩ ∧
      Balanced "Pin<Box<dyn std::Future<Output = Option<a:b>> + 'a>>".toList ∧
      ∀ node ∈ nodes ⟨"Future", [⟨"a:b", [], true⟩], false⟩, node.IsNormal := by
  have accepted : TypeName.parse "Pin<Box<dyn std::Future<Output = Option<a:b>> + 'a>>" =
      .ok ⟨"Future", [⟨"a:b", [], true⟩], false⟩ := by
    decide +kernel
  exact ⟨accepted, accepted_wellFormed accepted⟩

end TypeName

end Assay
