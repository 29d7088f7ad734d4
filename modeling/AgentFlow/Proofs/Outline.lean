import AgentFlow.Proofs.Comment

/-!
# What stands at the margin

A line at the margin of a program defines a class, a function or a value if it begins in one of four
forms, and these are the names that the program binds.  Most lines define nothing, which is seen
from their first character: they begin with a blank or a mark.  In the block of a definition exactly
one line defines a name, in the other blocks only the main function is defined.

## Main definitions

* `Block.Form`, `Block.definedAt?`, `Block.defined`: the names that lines define, and in which form.
* `Block.Idle`: a line defines nothing, by its first character.
* `Block.OpensMain`, `Block.OpensEntry`: a line begins the main function, or the entry point.
* `Program.HasLine`: one of the lines of a program is such.

## Main results

* `Definition.exists_block_eq`: the lines of a definition are idle, except for the one that binds
  its name.
* `Definition.defined_block`: **a definition defines its name and nothing else.**
* `Program.defined_headBlocks`, `Program.defined_lastBlocks`: **of the other blocks only the main
  function defines a name.**
* `Program.Built.exists_mem_mainBlocks`: **only the blocks of the main function have lines that
  begin it or the entry point.**
-/

namespace AgentFlow

open Literal Identifier Program

namespace Block

variable {s line name : String}

/-! ### Names at the margin -/

/-- The forms in which a line at the margin defines a name. -/
inductive Form where
  /-- A class. -/
  | record
  /-- A function. -/
  | function
  /-- A function that may await others. -/
  | coroutine
  /-- A value that is assigned. -/
  | value
  deriving DecidableEq, Repr

/-- How lines begin that define classes and functions, up to the name. -/
def openings : List (String × Form) :=
  [("class ", .record), ("def ", .function), ("async def ", .coroutine)]

/-- What a line at the margin defines.  The name of a class or a function ends at the parenthesis
behind it, that of a value at the sign of an assignment. -/
def definedAt? (line : String) : Option (Form × String) :=
  match openings.findSome? fun o => (Source.behind? o.1.toList line.toList).map (o.2, ·) with
  | some (form, cs) => some (form, String.ofList (cs.takeWhile (· ≠ '(')))
  | none =>
    if line.toList.takeWhile isNameChar ≠ [] ∧
        (line.toList.dropWhile isNameChar).take 3 = " = ".toList then
      some (.value, String.ofList (line.toList.takeWhile isNameChar))
    else none

/-- What the lines of a block define. -/
def defined (b : Block) : List (Form × String) := b.filterMap definedAt?

theorem defined_append (b c : Block) : defined (b ++ c) = defined b ++ defined c :=
  List.filterMap_append

/-- Two texts that go on behind the same character, which they do not have before, agree up to
there. -/
theorem eq_of_prefix_append {x : Char} {w name u v : List Char} (hw : x ∉ w) (hname : x ∉ name)
    (h : w ++ x :: u <+: name ++ x :: v) : w = name ∧ u <+: v := by
  induction w generalizing name with
  | nil =>
    cases name with
    | nil => exact ⟨rfl, (List.cons_prefix_cons.1 h).2⟩
    | cons y name =>
      obtain ⟨rfl, -⟩ := List.cons_prefix_cons.1 h
      exact absurd List.mem_cons_self hname
  | cons y w ih =>
    cases name with
    | nil =>
      obtain ⟨rfl, -⟩ := List.cons_prefix_cons.1 h
      exact absurd List.mem_cons_self hw
    | cons z name =>
      obtain ⟨rfl, hrest⟩ := List.cons_prefix_cons.1 h
      rw [List.mem_cons, not_or] at hw hname
      obtain ⟨rfl, hbehind⟩ := ih hw.2 hname.2 hrest
      exact ⟨rfl, hbehind⟩

/-- Whichever way a class or a function is opened, it is found. -/
theorem findSome?_openings {o : String × Form} (ho : o ∈ openings) (cs : List Char) :
    openings.findSome? (fun x => (Source.behind? x.1.toList (o.1.toList ++ cs)).map (x.2, ·)) =
      some (o.2, cs) := by
  simp only [openings, List.mem_cons, List.not_mem_nil, or_false] at ho
  rcases ho with rfl | rfl | rfl
  · rw [openings, List.findSome?_cons, Source.behind?_append]
    rfl
  · rw [openings, List.findSome?_cons, List.findSome?_cons, Source.behind?_append, Source.behind?,
      if_neg (by simp)]
    rfl
  · rw [openings, List.findSome?_cons, List.findSome?_cons, List.findSome?_cons,
      Source.behind?_append, Source.behind?, Source.behind?, if_neg (by simp), if_neg (by simp)]
    rfl

/-- A line that opens a class or a function defines the name before the parenthesis. -/
theorem definedAt?_opening {o : String × Form} (ho : o ∈ openings) (hname : '(' ∉ name.toList)
    (rest : String) : definedAt? (o.1 ++ name ++ "(" ++ rest) = some (o.2, name) := by
  have hline : (o.1 ++ name ++ "(" ++ rest).toList =
      o.1.toList ++ (name.toList ++ '(' :: rest.toList) := by
    simp
  have hchars : ∀ c ∈ name.toList, decide (c ≠ '(') = true :=
    fun c hc => decide_eq_true fun heq => hname (heq ▸ hc)
  rw [definedAt?, hline, findSome?_openings ho]
  simp only [List.takeWhile_append_of_pos hchars]
  simp

/-- A line that begins with a name and the sign of an assignment defines the name; if the line began
like a class or a function, the name would be a keyword. -/
theorem definedAt?_assignment (hname : Usable name) (rest : String) :
    definedAt? (name ++ " = " ++ rest) = some (.value, name) := by
  obtain ⟨hne, hall⟩ := all_isNameChar_of_isLegal hname.1
  have hchars := List.all_eq_true.1 hall
  have hspace : isNameChar ' ' = false := by decide
  have hblank : ' ' ∉ name.toList := fun hmem =>
    absurd (hspace.symm.trans (hchars _ hmem)) (by simp)
  have hline : (name ++ " = " ++ rest).toList =
      name.toList ++ ' ' :: '=' :: ' ' :: rest.toList := by
    simp
  -- the name ends at the first blank, so a line that begins with a word and a blank has the word as
  -- its name
  have hkeyword : ∀ {w : List Char} {u : List Char}, ' ' ∉ w → String.ofList w ∈ keywords →
      ¬ w ++ ' ' :: u <+: (name ++ " = " ++ rest).toList := by
    intro w u hw hmem hprefix
    rw [hline] at hprefix
    obtain ⟨rfl, -⟩ := eq_of_prefix_append hw hblank hprefix
    exact hname.2 (by rwa [String.ofList_toList] at hmem)
  have hnone : openings.findSome? (fun o =>
      (Source.behind? o.1.toList (name ++ " = " ++ rest).toList).map (o.2, ·)) = none := by
    have hclass : ¬ "class ".toList <+: (name ++ " = " ++ rest).toList :=
      hkeyword (w := "class".toList) (by decide) (by decide)
    have hdef : ¬ "def ".toList <+: (name ++ " = " ++ rest).toList :=
      hkeyword (w := "def".toList) (by decide) (by decide)
    have hasync : ¬ "async def ".toList <+: (name ++ " = " ++ rest).toList :=
      hkeyword (w := "async".toList) (u := "def ".toList) (by decide) (by decide)
    simp only [openings, List.findSome?_cons, List.findSome?_nil, Source.behind?, if_neg hclass,
      if_neg hdef, if_neg hasync, Option.map_none]
  have htake : (name ++ " = " ++ rest).toList.takeWhile isNameChar = name.toList := by
    rw [hline, List.takeWhile_append_of_pos hchars]
    simp [hspace]
  have hdrop : (name ++ " = " ++ rest).toList.dropWhile isNameChar =
      ' ' :: '=' :: ' ' :: rest.toList := by
    rw [hline, List.dropWhile_append_of_pos hchars]
    simp [hspace]
  rw [definedAt?, hnone, htake, hdrop]
  simp [hne]

/-! ### Lines that define nothing -/

/-- The line does not begin like a name. -/
def Idle (line : String) : Prop := line.toList.head?.any isNameChar = false

instance (line : String) : Decidable (Idle line) := inferInstanceAs (Decidable (_ = _))

/-- An idle line defines nothing: all that defines a name begins with a letter at the margin. -/
theorem Idle.definedAt?_eq_none (h : Idle line) : definedAt? line = none := by
  -- every opening begins with a letter, and an idle line does not
  have hletter : ∀ o ∈ openings, o.1.toList.head?.any isNameChar = true := by decide
  have hnone : openings.findSome? (fun o =>
      (Source.behind? o.1.toList line.toList).map (o.2, ·)) = none := by
    rw [List.findSome?_eq_none_iff]
    intro o ho
    rw [Source.behind?, if_neg, Option.map_none]
    rintro ⟨rest, hrest⟩
    have hfirst := hletter o ho
    cases hhead : o.1.toList.head? with
    | none => simp [hhead] at hfirst
    | some c =>
      rw [Idle, ← hrest, List.head?_append, hhead, Option.some_or] at h
      rw [hhead] at hfirst
      exact absurd (h.symm.trans hfirst) (by simp)
  have htake : line.toList.takeWhile isNameChar = [] := by
    cases hline : line.toList with
    | nil => rfl
    | cons c cs =>
      have hc : isNameChar c = false := by simpa [Idle, hline] using h
      simp [hc]
  rw [definedAt?, hnone, htake]
  simp

theorem defined_eq_nil_of_idle {b : Block} (h : ∀ line ∈ b, Idle line) : defined b = [] :=
  List.filterMap_eq_nil_iff.2 fun line hline => (h line hline).definedAt?_eq_none

theorem idle_of_head {c : Char} (hc : isNameChar c = false) (h : line.toList.head? = some c) :
    Idle line := by
  rwa [Idle, h]

theorem head?_append (s t : String) :
    (s ++ t).toList.head? = s.toList.head?.or t.toList.head? := by
  rw [String.toList_append, List.head?_append]

theorem head?_indent : indent.toList.head? = some ' ' := by decide

theorem head?_deep : deep.toList.head? = some ' ' := by decide

theorem idle_of_space (h : line.toList.head? = some ' ') : Idle line :=
  idle_of_head (by decide) h

theorem idle_of_hash (h : line.toList.head? = some '#') : Idle line :=
  idle_of_head (by decide) h

theorem idle_indent_append (s : String) : Idle (indent ++ s) :=
  idle_of_space (by rw [head?_append, head?_indent, Option.some_or])

theorem idle_indent_append₃ (s t u : String) : Idle (indent ++ s ++ t ++ u) :=
  idle_of_space (by simp only [head?_append, head?_indent, Option.some_or])

theorem idle_of_mem_block (h : line ∈ block indent s) : Idle line := by
  rcases mem_block h with rfl | ⟨l, -, rfl⟩
  · decide
  · exact idle_indent_append l

/-- The lines of a docstring are indented or empty, whatever the description is. -/
theorem idle_of_mem_docstring (h : line ∈ docstring indent s) : Idle line := by
  unfold docstring at h
  split at h
  · rw [List.mem_singleton.1 h]
    exact idle_indent_append _
  · simp only [List.cons_append, List.mem_cons, List.mem_append, List.mem_map, List.not_mem_nil,
      or_false] at h
    rcases h with rfl | ⟨l, -, rfl⟩ | rfl
    · exact idle_indent_append _
    · unfold indented
      split
      · decide
      · exact idle_indent_append l
    · exact idle_indent_append _

theorem idle_of_mem_describe {o : Option String} (h : line ∈ describe o) : Idle line := by
  unfold describe at h
  split at h
  · exact absurd h List.not_mem_nil
  · exact idle_of_mem_docstring h

theorem idle_of_mem_tripwireLines {q : Guard} (h : line ∈ tripwireLines q) : Idle line := by
  refine idle_of_space ?_
  revert line
  simp only [tripwireLines]
  split
  · simp [-String.toList_append, head?_append, head?_deep]
  · split
    · simp [-String.toList_append, head?_append, head?_deep]
    · simp [-String.toList_append, head?_append, head?_deep]

theorem idle_of_mem_outputType {o : Option String}
    (h : line ∈ (match o with
      | none => []
      | some t => [indent ++ "output_type=" ++ t ++ ","])) : Idle line := by
  split at h
  · exact absurd h List.not_mem_nil
  · rw [List.mem_singleton.1 h]
    exact idle_indent_append₃ _ _ _

theorem idle_namesArgument (argument : String) (names : List String) :
    Idle (namesArgument argument names) :=
  idle_of_space (by simp only [namesArgument, head?_append, head?_indent, Option.some_or])

theorem idle_of_mem_names {argument : String} {names : List String}
    (h : line ∈ if names.isEmpty then [] else [namesArgument argument names]) : Idle line := by
  split at h
  · exact absurd h List.not_mem_nil
  · rw [List.mem_singleton.1 h]
    exact idle_namesArgument _ _

theorem idle_of_mem_handoffDescription {o : Option String}
    (h : line ∈ (match o with
      | none => []
      | some s => [indent ++ "handoff_description=" ++ tripleQuoted (Text.strip s) ++ ","])) :
    Idle line := by
  split at h
  · exact absurd h List.not_mem_nil
  · rw [List.mem_singleton.1 h]
    exact idle_indent_append₃ _ _ _

/-- Behind the line that begins it, a guardrail function has lines that are empty or indented. -/
theorem idle_of_mem_drop_guardBlock (q : Guard) : ∀ line ∈ (guardBlock q).drop 2, Idle line := by
  have hspace : isNameChar ' ' = false := by decide
  simp only [guardBlock, List.cons_append, List.nil_append, List.drop_succ_cons, List.drop_zero,
    List.append_assoc, List.forall_mem_append, List.forall_mem_cons]
  refine ⟨fun line hline => idle_of_mem_describe hline, ?_⟩
  simp only [Idle, head?_append, head?_indent, head?_deep, Option.some_or, Option.any_some, hspace,
    true_and]
  exact ⟨by decide, by decide, fun line hline => idle_of_mem_tripwireLines hline, by decide⟩

theorem idle_fieldLine (f : RecordField) : Idle (fieldLine f) := by
  refine idle_of_space ?_
  have hcode : (fieldCode f).toList.head? = some ' ' := by
    unfold fieldCode
    split <;> simp only [head?_append, head?_indent, Option.some_or]
  rw [fieldLine_eq]
  split
  · exact hcode
  · simp only [head?_append, hcode, Option.some_or]

theorem idle_of_mem_titles (h : line ∈ Definition.titles) : Idle line := by
  have htitles : ∀ title ∈ Definition.titles, Idle title := by decide
  exact htitles line h

end Block

/-! ### Definitions -/

/-- The form in which the name of something with a role is defined. -/
def Role.form : Role → Block.Form
  | .record => .record
  | .tool => .function
  | .checker => .value
  | .guard => .coroutine
  | .agent => .value

namespace Definition

open Block

variable {d : Definition} {line : String}

/-- The lines of a definition are idle, except for the one that binds its name. -/
theorem exists_block_eq (d : Definition) : ∃ before line after,
    d.block = before ++ line :: after ∧ (∀ l ∈ before ++ after, Idle l) ∧
      ∃ rest, line = d.binding ++ rest := by
  -- before the line that binds the name there is at most one line, a decorator or a remark
  cases d with
  | record c =>
    refine ⟨[], _, (classBlock c).drop 1, rfl, ?_, "", by simp [binding]⟩
    simp only [classBlock, List.cons_append, List.nil_append, List.drop_succ_cons, List.drop_zero,
      List.forall_mem_append]
    refine ⟨fun l hl => idle_of_mem_describe hl, fun l hl => ?_⟩
    split at hl
    · rw [List.mem_singleton.1 hl]
      exact idle_indent_append _
    · obtain ⟨f, -, rfl⟩ := List.mem_map.1 hl
      exact idle_fieldLine f
  | tool t =>
    refine ⟨["@function_tool"], _, (toolBlock t).drop 2, rfl, ?_, _,
      by simp only [binding, String.append_assoc]; rfl⟩
    simp only [toolBlock, List.cons_append, List.nil_append, List.drop_succ_cons, List.drop_zero,
      List.forall_mem_cons, List.forall_mem_append]
    refine ⟨by decide, fun l hl => idle_of_mem_describe hl, fun l hl => ?_⟩
    split at hl
    · rw [List.mem_singleton.1 hl]
      exact idle_indent_append _
    · exact idle_of_mem_block hl
  | checker c =>
    refine ⟨[_], _, (checkerBlock c).drop 2, rfl, ?_, "", by simp [binding]⟩
    simp only [checkerBlock, List.cons_append, List.nil_append, List.drop_succ_cons, List.drop_zero,
      List.forall_mem_cons, List.forall_mem_append]
    exact ⟨idle_of_hash (by simp), idle_indent_append₃ _ _ _, idle_indent_append₃ _ _ _,
      fun l hl => idle_of_mem_outputType hl, idle_indent_append _, idle_indent_append _, by decide⟩
  | guard q =>
    exact ⟨[_], _, (guardBlock q).drop 2, rfl,
      List.forall_mem_cons.2 ⟨by cases q.side <;> decide, idle_of_mem_drop_guardBlock q⟩, _,
      by simp only [binding, String.append_assoc]; rfl⟩
  | agent a =>
    refine ⟨[_], _, (agentBlock a).drop 2, rfl, ?_, "", by simp [binding]⟩
    simp only [agentBlock, List.cons_append, List.nil_append, List.drop_succ_cons, List.drop_zero,
      List.append_assoc, List.forall_mem_cons, List.forall_mem_append]
    exact ⟨idle_of_hash (by simp), idle_indent_append₃ _ _ _, idle_indent_append₃ _ _ _,
      idle_namesArgument _ _, idle_namesArgument _ _, fun l hl => idle_of_mem_outputType hl,
      fun l hl => idle_of_mem_names hl, fun l hl => idle_of_mem_names hl,
      fun l hl => idle_of_mem_handoffDescription hl, by decide⟩

/-- The line that binds a name defines it, in the form that belongs to the role of the definition.
-/
theorem definedAt?_binding (h : Usable d.name) (rest : String) :
    definedAt? (d.binding ++ rest) = some (d.role.form, d.name) := by
  have hparenthesis : '(' ∉ d.name.toList := fun hmem =>
    absurd (List.all_eq_true.1 (all_isNameChar_of_isLegal h.1).2 _ hmem) (by decide)
  -- classes and functions have an opening, agents are assigned
  have hopening : ∀ o ∈ openings, ∀ more : String,
      definedAt? (o.1 ++ d.name ++ ("(" ++ more)) = some (o.2, d.name) := by
    intro o ho more
    rw [← String.append_assoc]
    exact definedAt?_opening ho hparenthesis more
  have hassignment : ∀ more : String,
      definedAt? (d.name ++ (" = " ++ more)) = some (.value, d.name) := by
    intro more
    rw [← String.append_assoc]
    exact definedAt?_assignment h more
  cases d with
  | record c =>
    rw [binding, String.append_assoc]
    exact hopening ("class ", .record) (by decide) ("BaseModel):" ++ rest)
  | tool t =>
    rw [binding, String.append_assoc]
    exact hopening ("def ", .function) (by decide) rest
  | checker c =>
    rw [binding, String.append_assoc]
    exact hassignment ("Agent(" ++ rest)
  | guard q =>
    rw [binding, String.append_assoc]
    exact hopening ("async def ", .coroutine) (by decide)
      ("ctx: RunContextWrapper, agent: Agent, " ++ rest)
  | agent a =>
    rw [binding, String.append_assoc]
    exact hassignment ("Agent(" ++ rest)

/-- **A definition defines its name and nothing else.** -/
theorem defined_block (h : Usable d.name) : defined d.block = [(d.role.form, d.name)] := by
  obtain ⟨before, line, after, hblock, hidle, rest, rfl⟩ := d.exists_block_eq
  rw [List.forall_mem_append] at hidle
  rw [hblock, defined_append, defined_eq_nil_of_idle hidle.1, List.nil_append, defined,
    List.filterMap_cons_some (definedAt?_binding h rest)]
  exact congrArg _ (defined_eq_nil_of_idle hidle.2)

theorem EmittedAs.defined_eq {b : Block} (hb : d.EmittedAs b) (h : Usable d.name) :
    b.defined = [(d.role.form, d.name)] := by
  obtain ⟨above, habove, rfl⟩ := hb
  rw [defined_append, defined_eq_nil_of_idle fun l hl => idle_of_mem_titles (habove l hl),
    List.nil_append, defined_block h]

theorem idle_or_definedAt? (h : Usable d.name) (hline : line ∈ d.block) :
    Idle line ∨ definedAt? line = some (d.role.form, d.name) := by
  obtain ⟨before, first, after, hblock, hidle, rest, rfl⟩ := d.exists_block_eq
  rw [hblock, List.mem_append, List.mem_cons] at hline
  rcases hline with hline | rfl | hline
  · exact Or.inl (hidle line (List.mem_append_left _ hline))
  · exact Or.inr (definedAt?_binding h rest)
  · exact Or.inl (hidle line (List.mem_append_right _ hline))

end Definition

/-! ### The other blocks -/

namespace Program

open Block

variable {g : Graph} {links : List Link} {p : Program} {b : Block} {line : String}

/-- Name and description of the workflow are in remarks, so the head defines nothing. -/
theorem idle_of_mem_metadataBlock {m : Metadata} (h : line ∈ metadataBlock m) : Idle line := by
  refine idle_of_hash ?_
  simp only [metadataBlock, List.mem_append] at h
  rcases h with h | h
  · split at h
    · exact absurd h List.not_mem_nil
    · rw [List.mem_singleton.1 h, head?_append]
      rfl
  · split at h
    · exact absurd h List.not_mem_nil
    · rw [List.mem_singleton.1 h, head?_append]
      rfl

theorem mem_headBlocks_cases (hblock : b ∈ p.headBlocks) (hline : line ∈ b) :
    Idle line ∨ line ∈ imports := by
  simp only [headBlocks, List.cons_append, List.mem_cons, List.mem_append, List.not_mem_nil,
    or_false] at hblock
  rcases hblock with rfl | hmetadata | rfl
  · rw [List.mem_singleton.1 hline]
    exact Or.inl (by decide)
  · split at hmetadata
    · exact absurd hmetadata List.not_mem_nil
    · exact Or.inl (idle_of_mem_metadataBlock (List.mem_singleton.1 hmetadata ▸ hline))
  · exact Or.inr hline

/-- **The head defines nothing.** -/
theorem defined_headBlocks (hblock : b ∈ p.headBlocks) : b.defined = [] := by
  refine List.filterMap_eq_nil_iff.2 fun line hline => ?_
  have himports : ∀ l ∈ imports, definedAt? l = none := by decide
  rcases mem_headBlocks_cases hblock hline with hidle | himport
  · exact hidle.definedAt?_eq_none
  · exact himports line himport

theorem head?_idleNote (label : String) : (idleNote label).toList.head? = some '#' := by
  show ("# Runner node \"" ++ orElse (comment label) "Unnamed Runner" ++
    "\" is not connected to an Agent.").toList.head? = some '#'
  rw [head?_append, head?_append]
  rfl

theorem idle_of_mem_idleNotes {stanzas : List Stanza} (h : line ∈ idleNotes stanzas) :
    Idle line := by
  obtain ⟨s, -, hs⟩ := List.mem_filterMap.1 h
  cases s with
  | call => exact absurd hs (by simp)
  | idle label =>
    obtain rfl := Option.some.inj hs
    exact idle_of_hash (head?_idleNote label)

theorem idle_of_mem_stanzaLines {awaited : Bool} {s : Stanza} (h : line ∈ stanzaLines awaited s) :
    Idle line := by
  refine idle_of_space ?_
  cases s with
  | call agent input context mode =>
    simp only [stanzaLines, callLines, List.mem_cons, List.not_mem_nil, or_false] at h
    rcases h with rfl | rfl | rfl
    all_goals simp only [head?_append, head?_indent, Option.some_or]
  | idle label =>
    rw [List.mem_singleton.1 h, head?_append, head?_indent, Option.some_or]

theorem idle_of_mem_emptyBlock (h : line ∈ p.emptyBlock) : Idle line := by
  refine idle_of_hash ?_
  revert line
  simp [emptyBlock, -String.toList_append, head?_append]

/-- What the main function is defined as. -/
def mainForm (p : Program) : Form := if p.isAwaited then .coroutine else .function

/-- The main function: the line that begins it, and the lines of its stanzas. -/
def mainBlock (p : Program) : Block :=
  ["# Main Execution", if p.isAwaited then "async def main():" else "def main():"] ++
    p.stanzas.flatMap (stanzaLines p.isAwaited)

/-- The entry point. -/
def entryBlock (p : Program) : Block :=
  ["if __name__ == \"__main__\":",
    indent ++ if p.isAwaited then "asyncio.run(main())" else "main()"]

theorem mainBlocks_of_hasMain (h : p.hasMain = true) :
    p.mainBlocks = [p.mainBlock, p.entryBlock] := by
  rw [mainBlocks, if_pos h]
  rfl

theorem lastBlocks_of_hasMain (h : p.hasMain = true) :
    p.lastBlocks = [p.mainBlock, p.entryBlock] := by
  have hempty : p.isEmpty = false := by simp [isEmpty, h]
  rw [lastBlocks, mainBlocks_of_hasMain h, hempty]
  rfl

/-- The main function is the one thing that its block defines.  The stanzas in its body are
indented. -/
theorem defined_mainBlock (p : Program) : p.mainBlock.defined = [(p.mainForm, "main")] := by
  have hfirst : ∀ awaited : Bool, defined ["# Main Execution",
      if awaited then "async def main():" else "def main():"] =
        [(if awaited then .coroutine else .function, "main")] := by
    decide
  have hstanzas : defined (p.stanzas.flatMap (stanzaLines p.isAwaited)) = [] := by
    refine defined_eq_nil_of_idle fun l hl => ?_
    obtain ⟨s, -, hmem⟩ := List.mem_flatMap.1 hl
    exact idle_of_mem_stanzaLines hmem
  rw [mainBlock, defined_append, hfirst, hstanzas]
  rfl

theorem defined_entryBlock (p : Program) : p.entryBlock.defined = [] := by
  have hentry : ∀ awaited : Bool, defined ["if __name__ == \"__main__\":",
      indent ++ if awaited then "asyncio.run(main())" else "main()"] = [] := by
    decide
  exact hentry p.isAwaited

/-- Without a main function there are only comments behind the definitions, so nothing is defined
there. -/
theorem idle_of_mem_lastBlocks (h : p.hasMain = false) (hblock : b ∈ p.lastBlocks)
    (hline : line ∈ b) : Idle line := by
  rw [lastBlocks, mainBlocks, if_neg (by simp [h]), List.mem_append] at hblock
  rcases hblock with hnotes | hempty
  · split at hnotes
    · exact absurd hnotes List.not_mem_nil
    · rw [List.mem_singleton.1 hnotes] at hline
      rcases List.mem_cons.1 hline with rfl | hnote
      · decide
      · exact idle_of_mem_idleNotes hnote
  · split at hempty
    · exact idle_of_mem_emptyBlock (List.mem_singleton.1 hempty ▸ hline)
    · exact absurd hempty List.not_mem_nil

/-- **Behind the definitions only the main function is defined, if there is one.** -/
theorem defined_lastBlocks (p : Program) : p.lastBlocks.flatMap defined =
    if p.hasMain then [(p.mainForm, "main")] else [] := by
  cases hmain : p.hasMain with
  | true =>
    rw [lastBlocks_of_hasMain hmain]
    simp only [List.flatMap_cons, List.flatMap_nil, defined_mainBlock, defined_entryBlock]
    rfl
  | false =>
    refine List.flatMap_eq_nil_iff.2 fun b hblock => defined_eq_nil_of_idle fun line hline => ?_
    exact idle_of_mem_lastBlocks hmain hblock hline

end Program

/-! ### Where the main function begins -/

namespace Block

variable {line : String}

/-- The line begins the main function. -/
def OpensMain (line : String) : Prop :=
  "def main(".toList <+: line.toList ∨ "async def main(".toList <+: line.toList

/-- The line begins the entry point. -/
def OpensEntry (line : String) : Prop := "if __name__".toList <+: line.toList

/-- The line begins the main function or the entry point. -/
def Opens (line : String) : Prop := OpensMain line ∨ OpensEntry line

/-- A line that begins the main function defines it. -/
theorem OpensMain.definedAt?_eq (h : OpensMain line) : ∃ form, definedAt? line = some (form, "main")
    := by
  have hline : ∀ {start : String}, start.toList <+: line.toList → ∃ rest, line = start ++ rest := by
    rintro start ⟨rest, hrest⟩
    exact ⟨String.ofList rest, by rw [← String.toList_inj, ← hrest]; simp⟩
  have hplain : '(' ∉ "main".toList := by decide
  rcases h with h | h
  · obtain ⟨rest, rfl⟩ := hline h
    exact ⟨.function, definedAt?_opening (o := ("def ", .function)) (by decide) hplain rest⟩
  · obtain ⟨rest, rfl⟩ := hline h
    exact ⟨.coroutine, definedAt?_opening (o := ("async def ", .coroutine)) (by decide) hplain rest⟩

/-- A line that begins the entry point defines nothing, although it begins like a name. -/
theorem OpensEntry.definedAt?_eq (h : OpensEntry line) : definedAt? line = none ∧ ¬ Idle line := by
  obtain ⟨rest, hrest⟩ := h
  have hline : line.toList = 'i' :: 'f' :: ' ' :: '_' :: ("_name__".toList ++ rest) := by
    rw [← hrest]
    rfl
  have hi : isNameChar 'i' = true := by decide
  have hf : isNameChar 'f' = true := by decide
  have hspace : isNameChar ' ' = false := by decide
  refine ⟨?_, by simp [Idle, hline, hi]⟩
  simp [definedAt?, openings, Source.behind?, hline, hi, hf, hspace]

theorem Idle.not_opens (h : Idle line) : ¬ Opens line := by
  rintro (hmain | hentry)
  · obtain ⟨form, hform⟩ := hmain.definedAt?_eq
    rw [h.definedAt?_eq_none] at hform
    exact absurd hform (by simp)
  · exact hentry.definedAt?_eq.2 h

/-- A line that defines another name begins neither. -/
theorem not_opens_of_definedAt? {form : Form} {name : String}
    (h : definedAt? line = some (form, name)) (hname : name ≠ "main") : ¬ Opens line := by
  rintro (hmain | hentry)
  · obtain ⟨form', hform⟩ := hmain.definedAt?_eq
    rw [h, Option.some.injEq, Prod.mk.injEq] at hform
    exact hname hform.2
  · rw [hentry.definedAt?_eq.1] at h
    exact absurd h (by simp)

end Block

namespace Program

open Block

variable {g : Graph} {links : List Link} {p : Program} {b : Block} {line : String}

theorem not_opens_of_mem_headBlocks (hblock : b ∈ p.headBlocks) (hline : line ∈ b) :
    ¬ Opens line := by
  have himports : ∀ l ∈ imports, ¬ Opens l := by
    unfold Opens OpensMain OpensEntry
    decide
  rcases mem_headBlocks_cases hblock hline with hidle | himport
  · exact hidle.not_opens
  · exact himports line himport

/-- A line of a definition does not begin the main function or the entry point: it could only be
the one that binds the name, which is not that of the main function. -/
theorem Built.not_opens_of_mem_block (hb : Built g links p) {d : Definition}
    (hd : d ∈ p.definitions) (hline : line ∈ d.block) : ¬ Opens line := by
  obtain ⟨husable, hmodule⟩ := hb.usable_name hd
  have hname : d.name ≠ "main" := fun heq => hmodule (heq ▸ by decide)
  rcases Definition.idle_or_definedAt? husable hline with hidle | hdefined
  · exact hidle.not_opens
  · exact not_opens_of_definedAt? hdefined hname

/-- Before the blocks behind the definitions, no line begins the main function or the entry
point. -/
theorem Built.not_opens (hb : Built g links p) {blocks : List Block}
    (hemitted : List.Forall₂ Definition.EmittedAs p.definitions blocks)
    (hblock : b ∈ p.headBlocks ++ blocks) (hline : line ∈ b) : ¬ Opens line := by
  rcases List.mem_append.1 hblock with hhead | hdefinition
  · exact not_opens_of_mem_headBlocks hhead hline
  · obtain ⟨d, hd, above, habove, rfl⟩ := exists_left_of_forall₂ hemitted hdefinition
    rcases List.mem_append.1 hline with htitle | hmem
    · exact (idle_of_mem_titles (habove line htitle)).not_opens
    · exact hb.not_opens_of_mem_block hd hmem

end Program
end AgentFlow
