import AgentFlow.Proofs.Comment

/-!
# Record classes read back

A record class is written as a line that begins it, a docstring if there is a description, and a
line for each field.  All of it is read back here.  The line of a field is read by guessing its
name, its type and the comment behind it, and comparing the line with the guess as it would be
written, so that nothing is passed over.

## Main definitions

* `Block.annotations`: how the types of fields are written.
* `Block.Field`, `Block.field?`: a field, read off its line.
* `Block.Declares`: a block is the declaration of a class with a description and fields.

## Main results

* `Block.field?_eq_some_iff`: a field is read off exactly the line that declares it.
* `Block.declares_classBlock`: **a record class is read back from its block.**
-/

namespace AgentFlow

open Literal Identifier Program Text

namespace Block

/-! ### Fields -/

/-- How types are written, with the type, and whether the field may be left out. -/
def annotations : List (String × ValueType × Bool) :=
  [("str", .string, false), ("float", .number, false), ("bool", .boolean, false),
    ("List", .list, false), ("Dict", .dict, false), ("Any", .nothing, false),
    ("Optional[str] = None", .string, true), ("Optional[float] = None", .number, true),
    ("Optional[bool] = None", .boolean, true), ("Optional[List] = None", .list, true),
    ("Optional[Dict] = None", .dict, true), ("Optional[Any] = None", .nothing, true)]

/-- A field of a class: its name and type, whether it may be left out, and the comment behind it. -/
structure Field where
  name : String
  type : ValueType
  isOptional : Bool
  note : Option String
  deriving DecidableEq, Repr

/-- A field as it is written. -/
def fieldText (name typeText : String) (note : Option String) : String :=
  indent ++ name ++ ": " ++ typeText ++ note.elim "" ("  # " ++ ·)

/-- The type and the comment behind it.  Types have no hash sign in them, so the first one begins
the comment. -/
def splitNote (cs : List Char) : String × Option String :=
  let code := cs.takeWhile (· ≠ '#')
  if code = cs then (String.ofList cs, none)
  else (String.ofList code.dropLast.dropLast, some (String.ofList (cs.drop (code.length + 2))))

/-- The field that a line declares, if the line is nothing else. -/
def field? (line : String) : Option Field :=
  let cs := line.toList.drop indent.toList.length
  let name := String.ofList (cs.takeWhile isNameChar)
  let rest := splitNote ((cs.dropWhile isNameChar).drop 2)
  if isLegal name.toList = true ∧ line = fieldText name rest.1 rest.2 then
    (annotations.lookup rest.1).map fun x => ⟨name, x.1, x.2, rest.2⟩
  else none

variable {line name typeText : String}

/-- The type and the remark behind it are told apart by the first hash sign, since no type has one.
-/
theorem splitNote_append (hplain : '#' ∉ typeText.toList) (note : Option String) :
    splitNote (typeText.toList ++ (note.elim "" ("  # " ++ ·)).toList) = (typeText, note) := by
  have hcode : ∀ c ∈ typeText.toList, decide (c ≠ '#') = true :=
    fun c hc => decide_eq_true fun heq => hplain (heq ▸ hc)
  -- a type has no hash sign, so the first one begins the remark
  cases note with
  | none =>
    have hall : typeText.toList.takeWhile (· ≠ '#') = typeText.toList :=
      List.takeWhile_eq_self_iff.2 hcode
    simp only [splitNote, Option.elim_none, String.toList_empty, List.append_nil]
    rw [if_pos hall, String.ofList_toList]
  | some s =>
    have htext : typeText.toList ++ ("  # " ++ s).toList =
        typeText.toList ++ [' ', ' '] ++ '#' :: ' ' :: s.toList := by
      simp
    have htake : (typeText.toList ++ [' ', ' '] ++ '#' :: ' ' :: s.toList).takeWhile (· ≠ '#') =
        typeText.toList ++ [' ', ' '] := by
      rw [List.append_assoc, List.takeWhile_append_of_pos hcode]
      simp
    have hnote : (typeText.toList ++ [' ', ' '] ++ '#' :: ' ' :: s.toList).drop
        ((typeText.toList ++ [' ', ' ']).length + 2) = s.toList := by
      rw [List.drop_append, List.drop_eq_nil_of_le (by omega)]
      simp
    rw [Option.elim_some, htext]
    simp only [splitNote]
    rw [htake, if_neg (by simp), hnote, String.ofList_toList]
    simp

/-- What is written is read. -/
theorem field?_fieldText (hname : isLegal name.toList = true) (hplain : '#' ∉ typeText.toList)
    (note : Option String) : field? (fieldText name typeText note) =
      (annotations.lookup typeText).map fun x => ⟨name, x.1, x.2, note⟩ := by
  have hchars := List.all_eq_true.1 (all_isNameChar_of_isLegal hname).2
  have hcolon : isNameChar ':' = false := by decide
  have hline : (fieldText name typeText note).toList = indent.toList ++ (name.toList ++
      ':' :: ' ' :: (typeText.toList ++ (note.elim "" ("  # " ++ ·)).toList)) := by
    simp [fieldText]
  have htake : ∀ cs, (name.toList ++ ':' :: ' ' :: cs).takeWhile isNameChar = name.toList := by
    intro cs
    rw [List.takeWhile_append_of_pos hchars]
    simp [hcolon]
  have hrest : ∀ cs, ((name.toList ++ ':' :: ' ' :: cs).dropWhile isNameChar).drop 2 = cs := by
    intro cs
    rw [List.dropWhile_append_of_pos hchars]
    simp [hcolon]
  simp only [field?]
  rw [hline, List.drop_left, htake, hrest, splitNote_append hplain, String.ofList_toList,
    if_pos ⟨hname, rfl⟩]

/-- **A field is read off exactly the line that declares it.**  The type has to be one of those that
fields can have, and nothing but a remark may follow it. -/
theorem field?_eq_some_iff {f : Field} :
    field? line = some f ↔ isLegal f.name.toList = true ∧ ∃ typeText,
      annotations.lookup typeText = some (f.type, f.isOptional) ∧
        line = fieldText f.name typeText f.note := by
  constructor
  · intro h
    simp only [field?] at h
    split at h
    · next hcheck =>
      obtain ⟨x, hx, rfl⟩ := Option.map_eq_some_iff.1 h
      exact ⟨hcheck.1, _, hx, hcheck.2⟩
    · exact absurd h (by simp)
  · rintro ⟨hname, typeText, hlookup, rfl⟩
    have htable : ∀ y ∈ annotations, '#' ∉ y.1.toList := by decide
    have hplain : '#' ∉ typeText.toList := by
      obtain ⟨before, after, heq, -⟩ := List.lookup_eq_some_iff.1 hlookup
      exact htable (typeText, f.type, f.isOptional) (by simp [heq])
    rw [field?_fieldText hname hplain, hlookup]
    rfl

/-! ### Classes -/

/-- The lines of a description: those of a docstring, if there is one. -/
def doc? (lines : Block) : Option (Option (List String)) :=
  if lines = [] then some none
  else (Source.readDocstring indent.toList (String.intercalate "\n" lines).toList).map some

/-- The fields that lines declare, one by one; a class without fields has a line that says so. -/
def fields? (lines : Block) : Option (List Field) :=
  if lines = [] then none else if lines = [indent ++ "pass"] then some [] else lines.mapM field?

/-- The block is the declaration of a class: the line that begins it, the description and the
fields, and nothing else. -/
def Declares (b : Block) (name : String) (doc : Option (List String)) (fields : List Field) :
    Prop :=
  ∃ above lines, b = ("class " ++ name ++ "(BaseModel):") :: (above ++ lines) ∧
    doc? above = some doc ∧ fields? lines = some fields

/-- A description is read back line by line, and a blank one as none. -/
theorem doc?_describe (description : Option String) :
    doc? (describe description) = some ((unlessBlank description).map strippedLines) := by
  unfold describe
  cases hdescription : unlessBlank description with
  | none => rfl
  | some s =>
    have hread := Source.readDocstring_docstring 4 (isBlankText_of_unlessBlank hdescription)
    have hindent : spaces 4 = indent := by decide
    have hne : docstring indent s ≠ [] := by
      unfold docstring
      split <;> simp
    rw [hindent] at hread
    show doc? (docstring indent s) = _
    rw [doc?, if_neg hne, hread]
    rfl

/-- Types are written as they are read. -/
theorem lookup_annotations (type : ValueType) :
    annotations.lookup type.fieldType = some (type, false) ∧
      annotations.lookup ("Optional[" ++ type.fieldType ++ "] = None") = some (type, true) := by
  cases type <;> decide

/-- The field of a class as it is read. -/
def ofRecordField (f : RecordField) : Field :=
  ⟨f.name, f.type, f.isOptional, (unlessBlank f.description).map comment⟩

/-- All that is said of a field is read back from its line: its name, its type, whether it may be
left out, and its description folded onto the line. -/
theorem field?_fieldLine {f : RecordField} (hname : isLegal f.name.toList = true) :
    field? (fieldLine f) = some (ofRecordField f) := by
  refine field?_eq_some_iff.2 ⟨hname, ?_⟩
  obtain ⟨hplain, hoptional⟩ := lookup_annotations f.type
  have hnote : ∀ typeText, fieldCode f = indent ++ f.name ++ ": " ++ typeText →
      fieldLine f = fieldText f.name typeText ((unlessBlank f.description).map comment) := by
    intro typeText hcode
    rw [fieldLine_eq, fieldText, hcode]
    cases unlessBlank f.description with
    | none => simp
    | some s => simp [String.append_assoc]
  cases hf : f.isOptional with
  | false =>
    refine ⟨_, by rw [ofRecordField, hf]; exact hplain, hnote _ ?_⟩
    rw [fieldCode, hf]
    rfl
  | true =>
    refine ⟨_, by rw [ofRecordField, hf]; exact hoptional, hnote _ ?_⟩
    rw [fieldCode, hf, ← String.toList_inj]
    simp

/-- **A record class is read back from its block**: its name, its description and its fields. -/
theorem declares_classBlock {c : RecordClass}
    (hfields : ∀ f ∈ c.fields, isLegal f.name.toList = true) :
    (classBlock c).Declares c.name ((unlessBlank c.description).map strippedLines)
      (c.fields.map ofRecordField) := by
  refine ⟨describe c.description, _, List.cons_append, doc?_describe _, ?_⟩
  by_cases hempty : c.fields = []
  · simp only [hempty, List.isEmpty_nil, if_true, List.map_nil]
    rfl
  · have hisEmpty : c.fields.isEmpty = false := by simpa using hempty
    have hread : List.Forall₂ (fun line f => field? line = some f) (c.fields.map fieldLine)
        (c.fields.map ofRecordField) := by
      rw [List.forall₂_map_left_iff, List.forall₂_map_right_iff, List.forall₂_same]
      exact fun f hf => field?_fieldLine (hfields f hf)
    -- a class without fields says `pass`, which no line of a field can be taken for
    have hpass : c.fields.map fieldLine ≠ [indent ++ "pass"] := by
      intro heq
      have hnone : field? (indent ++ "pass") = none := by decide
      rw [heq] at hread
      obtain ⟨f, -, hf, -⟩ := List.forall₂_cons_left_iff.1 hread
      exact absurd (hnone.symm.trans hf) (by simp)
    rw [hisEmpty]
    show fields? (c.fields.map fieldLine) = _
    rw [fields?, if_neg (by simpa using hempty), if_neg hpass, mapM_eq_some_iff.2 hread]

end Block
end AgentFlow
