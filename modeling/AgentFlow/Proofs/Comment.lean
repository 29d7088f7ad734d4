import AgentFlow.Proofs.Docstring
import AgentFlow.Proofs.NameResolution
import AgentFlow.Proofs.RecordField

/-!
# Comments

Lines of a block may hold literals with line ends, but those that have a comment hold none: all
names in them are identifiers, and free text is folded before it is put into a comment.

## Main definitions

* `Block.commentOf?`: the comment of a line.
* `Block.Tame`: if a line has a comment, it is one line.
* `Block.StandsIn`: lines stand in a text one below the other.
* `Block.Noted`: a line of a text has a comment.
* `Program.Legal`: all names in a program are identifiers.

## Main results

* `Block.standsIn_render`: lines of a block stand in the text of the program.
* `Program.Built.legal`: all names in a program that was built are identifiers.
* `Program.Legal.tame_of_mem_bodyBlocks`: **a line with a comment is one line.**
-/

namespace AgentFlow

open Literal Identifier Text

/-! ### Comments -/

namespace Block

variable {s t code line : String} {b lines : Block}

/-- The characters that begin a comment or a literal. -/
def marks : List Char := ['#', '"', '\'']

/-- The comment of a line: what is behind the first hash, unless a literal begins before it. -/
def commentOf? (line : String) : Option String :=
  match line.toList.dropWhile (· ∉ marks) with
  | '#' :: cs => some (String.ofList cs)
  | _ => none

/-- Neither a comment nor a literal begins in the text. -/
def Bare (s : String) : Prop := ∀ c ∈ s.toList, c ∉ marks

instance (s : String) : Decidable (Bare s) :=
  List.decidableBAll _ s.toList

theorem Bare.append (hs : Bare s) (ht : Bare t) : Bare (s ++ t) := by
  rw [Bare, String.toList_append, List.forall_mem_append]
  exact ⟨hs, ht⟩

theorem commentOf?_append_of_bare (h : Bare s) (t : String) :
    commentOf? (s ++ t) = commentOf? t := by
  rw [commentOf?, String.toList_append, List.dropWhile_append_of_pos]
  · rfl
  · exact fun c hc => decide_eq_true (h c hc)

/-- A comment goes on to the end of the line. -/
theorem commentOf?_append {c : String} (h : commentOf? s = some c) (t : String) :
    commentOf? (s ++ t) = some (c ++ t) := by
  unfold commentOf? at h ⊢
  split at h
  · next cs hcs =>
    obtain rfl := Option.some.inj h
    rw [String.toList_append, List.dropWhile_append, hcs, if_neg (by simp), List.cons_append]
    simp
  · exact absurd h (by simp)

/-- A line has no comment if a literal begins behind bare code. -/
theorem commentOf?_literal {literal : String} (hcode : Bare code)
    (hliteral : literal.toList.head? = some '"') (t : String) :
    commentOf? (code ++ literal ++ t) = none := by
  obtain ⟨cs, hcs⟩ := List.head?_eq_some_iff.1 hliteral
  rw [String.append_assoc, commentOf?_append_of_bare hcode, commentOf?, String.toList_append, hcs,
    List.cons_append, List.dropWhile_cons_of_neg (by decide)]
  rfl

theorem head?_tripleQuoted (s : String) : (tripleQuoted s).toList.head? = some '"' := by
  simp [tripleQuoted, tripleMark]

theorem head?_string (s : String) : (Literal.string s).toList.head? = some '"' := by
  rw [Literal.string, Json.quote, String.toList_ofList, List.head?_cons]

/-- If the line has a comment, it is one line. -/
def Tame (line : String) : Prop := ∀ comment, commentOf? line = some comment → OneLine line

theorem tame_of_oneLine (h : OneLine line) : Tame line := fun _ _ => h

theorem tame_of_literal {literal : String} (hcode : Bare code)
    (hliteral : literal.toList.head? = some '"') (t : String) : Tame (code ++ literal ++ t) := by
  intro comment hcomment
  rw [commentOf?_literal hcode hliteral] at hcomment
  exact absurd hcomment (by simp)

theorem tame_of_last_literal {literal : String} (hcode : Bare code)
    (hliteral : literal.toList.head? = some '"') : Tame (code ++ literal) := by
  rw [← String.append_empty (s := code ++ literal)]
  exact tame_of_literal hcode hliteral ""

/-! ### Names -/

/-- No character that may stand in a name ends a line or has a meaning inside a literal. -/
theorem not_isLineEnd_of_isNameChar {c : Char} (h : isNameChar c = true) :
    isLineEnd c = false ∧ c ∉ marks := by
  have hrange : 97 ≤ c.toNat ∧ c.toNat ≤ 122 ∨ 48 ≤ c.toNat ∧ c.toNat ≤ 57 ∨ c.toNat = 95 := by
    simp only [isNameChar, Bool.or_eq_true, between_iff, decide_eq_true_eq] at h
    rcases h with (h | h) | rfl
    · exact Or.inl h
    · exact Or.inr (Or.inl h)
    · exact Or.inr (Or.inr rfl)
  refine ⟨?_, fun hmark => ?_⟩
  · simp only [isLineEnd, Bool.or_eq_false_iff, Bool.and_eq_false_iff, decide_eq_false_iff_not,
      beq_eq_false_iff_ne]
    omega
  · have hlow : c.toNat < 48 := by
      simp only [marks, List.mem_cons, List.not_mem_nil, or_false] at hmark
      rcases hmark with rfl | rfl | rfl <;> decide
    omega

theorem oneLine_of_isLegal (h : isLegal s.toList = true) : OneLine s ∧ Bare s := by
  have hall := List.all_eq_true.1 (all_isNameChar_of_isLegal h).2
  exact ⟨fun c hc => (not_isLineEnd_of_isNameChar (hall c hc)).1,
    fun c hc => (not_isLineEnd_of_isNameChar (hall c hc)).2⟩

/-! ### Lines of a text -/

/-- The lines stand in the text one below the other, and each of them is one line. -/
def StandsIn (b : Block) (text : String) : Prop :=
  (∀ line ∈ b, OneLine line) ∧ ∃ before after, text = before ++ ("\n" ++ b.text ++ "\n") ++ after

/-- A line of the text has the comment. -/
def Noted (text comment : String) : Prop :=
  ∃ line, commentOf? line = some comment ∧ StandsIn [line] text

/-- Lines that follow each other in a block stand in the text that is made of the blocks. -/
theorem exists_blocks_eq {sep feed more less : String} (hmore : sep = feed ++ more)
    (hless : sep = less ++ feed) {xs ls ys : List String} (hne : ls ≠ []) {text : String}
    (htext : text = String.intercalate feed (xs ++ ls ++ ys)) {blocks : List String}
    (hblock : text ∈ blocks) (head : String) :
    ∃ before after, head ++ sep ++ String.intercalate sep blocks ++ feed =
      before ++ (feed ++ String.intercalate feed ls ++ feed) ++ after := by
  obtain ⟨others, rest, rfl⟩ := List.append_of_mem hblock
  -- first the block in the text, then the lines in the block; either time they are in a joined list
  obtain ⟨before, after, hwhole⟩ :=
    exists_intercalate_append_append hmore others rest (List.cons_ne_nil text [])
  rw [List.append_assoc, List.singleton_append, String.intercalate_singleton] at hwhole
  obtain ⟨before', after', hinside⟩ :=
    exists_intercalate_append_append (String.append_empty (s := feed)).symm xs ys hne
  rw [← htext] at hinside
  refine ⟨head ++ before ++ less ++ before', after' ++ after, ?_⟩
  calc head ++ sep ++ String.intercalate sep (others ++ text :: rest) ++ feed
      = head ++ (before ++ (sep ++ text ++ feed) ++ after) := by
        rw [← hwhole]
        simp only [String.append_assoc]
    _ = head ++ before ++ less ++ (feed ++ text ++ feed) ++ after := by
        rw [hless]
        simp only [String.append_assoc]
    _ = head ++ before ++ less ++ before' ++ (feed ++ String.intercalate feed ls ++ feed) ++
          (after' ++ after) := by
        rw [hinside]
        simp only [String.append_assoc]

theorem standsIn_render {p : Program} (hb : b ∈ p.bodyBlocks) (hlines : lines <:+: b)
    (hne : lines ≠ []) (hone : ∀ line ∈ lines, OneLine line) : lines.StandsIn p.render := by
  obtain ⟨xs, ys, rfl⟩ := hlines
  exact ⟨hone, exists_blocks_eq (show "\n\n\n" = "\n" ++ "\n\n" from rfl)
    (show "\n\n\n" = "\n\n" ++ "\n" from rfl) hne rfl (List.mem_map_of_mem (f := Block.text) hb) _⟩

end Block

namespace Program

open Block

variable {g : Graph} {links : List Link} {p : Program} {line s : String}

/-- All names in a program are identifiers. -/
structure Legal (p : Program) : Prop where
  definitions : ∀ d ∈ p.definitions, isLegal d.name.toList = true
  references : ∀ r ∈ p.references, isLegal r.2.toList = true
  fields : ∀ c ∈ p.classes, ∀ f ∈ c.fields, isLegal f.name.toList = true
  parameters : ∀ t ∈ p.tools, ∀ x ∈ t.parameters, isLegal x.1.toList = true

/-- The names of parameters are made from display names, and every such name is an identifier. -/
theorem isLegal_of_mem_parameters {taken : Namespace} {i : ℕ} {ds : List ToolParameter}
    {x : String × ValueType} (hx : x ∈ parameters taken i ds) : isLegal x.1.toList = true := by
  induction ds generalizing taken i with
  | nil => exact absurd hx List.not_mem_nil
  | cons d ds ih =>
    obtain ⟨name, hissue, husable, -⟩ :=
      issue_spec "param" (by decide) taken (some d.name) (some (seedOr d.id i))
    rw [parameters, hissue] at hx
    rcases List.mem_cons.1 hx with rfl | hx
    · exact husable.1
    · exact ih hx

/-- All names in a program that was built are identifiers, both where they are defined and where
they are referred to. -/
theorem Built.legal (hb : Built g links p) (hlinks : g.links = .ok links) : p.Legal where
  definitions d hd := (hb.usable_name hd).1.1
  references r hr := by
    obtain ⟨a, -, hname⟩ := hb.known hlinks hr
    exact Naming.isLegal_of_nameOf? hname
  fields c hc f hf := by
    rw [hb.classes] at hc
    obtain ⟨e, -, rfl⟩ := List.mem_map.1 hc
    obtain ⟨_, -, -, husable, -⟩ := exists_left_of_forall₂ (forall₂_recordFields _ _ _) hf
    exact husable.1
  parameters t ht x hx := by
    obtain ⟨y, -, htool⟩ := exists_left_of_forall₂ hb.tools ht
    obtain ⟨name, -, heq⟩ := bind_eq_ok_iff.1 htool
    obtain rfl := Except.ok.inj heq
    exact isLegal_of_mem_parameters hx

/-! ### Blocks -/

theorem oneLine_indent : OneLine Literal.indent := by decide

theorem oneLine_deep : OneLine deep := oneLine_indent.append oneLine_indent

theorem oneLine_signature (t : ValueType) : OneLine t.signature := by
  cases t <;> decide

theorem isBlankText_of_unlessBlank {o : Option String} (h : unlessBlank o = some s) :
    isBlankText s = false := by
  unfold unlessBlank at h
  split at h
  · exact absurd h (by simp)
  · split at h
    · exact absurd h (by simp)
    · next hblank =>
      obtain rfl := Option.some.inj h
      simpa using hblank

theorem oneLine_of_mem_describe {o : Option String} (h : line ∈ describe o) : OneLine line := by
  unfold describe at h
  split at h
  · exact absurd h List.not_mem_nil
  · next hs =>
    exact Source.oneLine_of_mem_docstring oneLine_indent (isBlankText_of_unlessBlank hs) h

theorem oneLine_of_mem_block {ind : String} (hind : OneLine ind) (h : line ∈ block ind s) :
    OneLine line := by
  rcases mem_block h with rfl | ⟨l, hl, rfl⟩
  · decide
  · exact hind.append (oneLine_of_mem_lines hl)

/-- The code in the line of a field. -/
def fieldCode (f : RecordField) : String :=
  if f.isOptional then
    Literal.indent ++ f.name ++ ": Optional[" ++ f.type.fieldType ++ "] = None"
  else Literal.indent ++ f.name ++ ": " ++ f.type.fieldType

theorem fieldLine_eq (f : RecordField) : fieldLine f =
    match unlessBlank f.description with
    | none => fieldCode f
    | some s => fieldCode f ++ "  # " ++ comment s := rfl

/-- The code of a field is on one line and has no quote or hash sign, so what follows the first hash
sign is the remark. -/
theorem oneLine_fieldCode {f : RecordField} (h : isLegal f.name.toList = true) :
    OneLine (fieldCode f) ∧ Bare (fieldCode f) := by
  obtain ⟨hname, hbare⟩ := oneLine_of_isLegal h
  have htype : OneLine f.type.fieldType ∧ Bare f.type.fieldType := by
    cases f.type <;> decide
  unfold fieldCode
  split
  · exact ⟨((((oneLine_indent.append hname).literal (by decide)).append htype.1).literal
      (by decide)),
      (((Bare.append (by decide) hbare).append (by decide)).append htype.2).append (by decide)⟩
  · exact ⟨((oneLine_indent.append hname).literal (by decide)).append htype.1,
      ((Bare.append (by decide) hbare).append (by decide)).append htype.2⟩

theorem oneLine_fieldLine {f : RecordField} (h : isLegal f.name.toList = true) :
    OneLine (fieldLine f) := by
  have hcode := (oneLine_fieldCode h).1
  rw [fieldLine_eq]
  split
  · exact hcode
  · exact (hcode.literal (by decide)).append (oneLine_comment _)

/-- Names in a class are identifiers, its description is a docstring and the descriptions of its
fields are folded, so no line of it is broken. -/
theorem oneLine_of_mem_classBlock {c : RecordClass} (hname : isLegal c.name.toList = true)
    (hfields : ∀ f ∈ c.fields, isLegal f.name.toList = true) (h : line ∈ classBlock c) :
    OneLine line := by
  simp only [classBlock, List.mem_append, List.mem_singleton] at h
  rcases h with (rfl | h) | h
  · exact ((oneLine_literal (by decide)).append (oneLine_of_isLegal hname).1).literal (by decide)
  · exact oneLine_of_mem_describe h
  · split at h
    · rw [List.mem_singleton.1 h]
      decide
    · obtain ⟨f, hf, rfl⟩ := List.mem_map.1 h
      exact oneLine_fieldLine (hfields f hf)

/-- The same of a function.  Its implementation is free text over several lines, but it is split at
every line end before it is indented. -/
theorem oneLine_of_mem_toolBlock {t : ToolFunction} (hname : isLegal t.name.toList = true)
    (hparameters : ∀ x ∈ t.parameters, isLegal x.1.toList = true) (h : line ∈ toolBlock t) :
    OneLine line := by
  simp only [toolBlock, List.mem_append, List.mem_cons, List.not_mem_nil, or_false] at h
  rcases h with ((rfl | rfl) | h) | h
  · decide
  · -- only the signature has names in it that are made from display names
    have hlist : OneLine (String.intercalate ", "
        (t.parameters.map fun x => x.1 ++ ": " ++ x.2.signature)) := by
      refine oneLine_intercalate (by decide) fun l hl => ?_
      obtain ⟨x, hx, rfl⟩ := List.mem_map.1 hl
      exact ((oneLine_of_isLegal (hparameters x hx)).1.literal (by decide)).append
        (oneLine_signature _)
    exact ((((((oneLine_literal (by decide)).append (oneLine_of_isLegal hname).1).literal
      (by decide)).append hlist).literal (by decide)).append (oneLine_signature _)).literal
        (by decide)
  · exact oneLine_of_mem_describe h
  · split at h
    · rw [List.mem_singleton.1 h]
      decide
    · exact oneLine_of_mem_block oneLine_indent h

theorem oneLine_outputType {o : Option String} (h : ∀ t, o = some t → isLegal t.toList = true)
    (hline : line ∈ (match o with
      | none => []
      | some t => [Literal.indent ++ "output_type=" ++ t ++ ","])) : OneLine line := by
  split at hline
  · exact absurd hline List.not_mem_nil
  · next t =>
    rw [List.mem_singleton.1 hline]
    exact ((oneLine_indent.literal (by decide)).append (oneLine_of_isLegal (h t rfl)).1).literal
      (by decide)

theorem oneLine_checkerRemark (label : String) :
    OneLine ("# Internal Checker Agent for Guardrail: " ++ comment label) :=
  (oneLine_literal (by decide)).append (oneLine_comment _)

/-- The lines of a checker.  Its instructions may have line ends, but only inside a literal. -/
theorem tame_of_mem_checkerBlock {c : Checker} (hname : isLegal c.name.toList = true)
    (htype : ∀ t, c.outputType = some t → isLegal t.toList = true) (h : line ∈ checkerBlock c) :
    Tame line := by
  have hone := (oneLine_of_isLegal hname).1
  simp only [checkerBlock, List.mem_append, List.mem_cons, List.not_mem_nil, or_false] at h
  rcases h with ((rfl | rfl | rfl | rfl) | h) | rfl | rfl | rfl
  · exact tame_of_oneLine (oneLine_checkerRemark c.label)
  · exact tame_of_oneLine (hone.literal (by decide))
  · exact tame_of_oneLine (((oneLine_indent.literal (by decide)).append hone).literal (by decide))
  · exact tame_of_literal (by decide) (head?_tripleQuoted _) _
  · exact tame_of_oneLine (oneLine_outputType htype h)
  · exact tame_of_oneLine (oneLine_indent.literal (by decide))
  · exact tame_of_oneLine (oneLine_indent.literal (by decide))
  · exact tame_of_oneLine (by decide)

theorem oneLine_untripped : OneLine (deep ++ "tripwire_triggered = False") :=
  oneLine_deep.literal (by decide)

/-- The lines that decide whether a guardrail trips.  The logic is never code of its own: it is
given to the evaluation as a literal. -/
theorem tame_of_mem_tripwireLines {q : Guard} (h : line ∈ tripwireLines q) : Tame line := by
  simp only [tripwireLines] at h
  -- without logic there is a remark; with it, free text is only in literals, where it is escaped
  split at h
  · simp only [List.mem_cons, List.not_mem_nil, or_false] at h
    rcases h with rfl | rfl
    · exact tame_of_oneLine (((oneLine_deep.literal (by decide)).append
        (oneLine_comment _)).literal (by decide))
    · exact tame_of_oneLine oneLine_untripped
  · split at h
    · simp only [List.mem_cons, List.not_mem_nil, or_false] at h
      rcases h with rfl | rfl | rfl | rfl | rfl | rfl
      · exact tame_of_last_literal (by decide) (head?_string _)
      · exact tame_of_oneLine (oneLine_deep.literal (by decide))
      · exact tame_of_oneLine (((oneLine_deep.append oneLine_indent).literal (by decide)).literal
          (by decide))
      · exact tame_of_oneLine (oneLine_deep.literal (by decide))
      · exact tame_of_literal (by decide) (head?_string _) _
      · exact tame_of_oneLine ((oneLine_deep.append oneLine_indent).literal (by decide))
    · simp only [List.mem_cons, List.not_mem_nil, or_false] at h
      rcases h with rfl | rfl | rfl
      · exact tame_of_oneLine ((oneLine_deep.literal (by decide)).literal (by decide))
      · exact tame_of_literal (by decide) (head?_string _) _
      · exact tame_of_oneLine oneLine_untripped

/-- The lines of a guardrail function.  Besides its docstring, the only free text in it is in
literals and in one remark. -/
theorem tame_of_mem_guardBlock {q : Guard} (hname : isLegal q.name.toList = true)
    (hchecker : isLegal q.checker.toList = true) (h : line ∈ guardBlock q) : Tame line := by
  have hone := (oneLine_of_isLegal hname).1
  have hasked := (oneLine_of_isLegal hchecker).1
  simp only [guardBlock, List.mem_append, List.mem_cons, List.not_mem_nil, or_false] at h
  -- the lines in the order of the block; free text is in the docstring, the tripwire lines and
  -- literals
  rcases h with
    ((((rfl | rfl) | h) | (rfl | rfl | rfl | rfl | rfl | rfl | rfl | rfl)) | h) |
      (rfl | rfl | rfl | rfl | rfl | rfl | rfl | rfl | rfl)
  · exact tame_of_oneLine (by cases q.side <;> decide)
  · exact tame_of_oneLine (((((oneLine_literal (by decide)).append hone).literal
      (by decide)).append (by cases q.side <;> decide)).literal (by decide))
  · exact tame_of_oneLine (oneLine_of_mem_describe h)
  · exact tame_of_oneLine (oneLine_indent.literal (by decide))
  · exact tame_of_oneLine (((oneLine_indent.literal (by decide)).append
      (by cases q.side <;> decide)).literal (by decide))
  · exact tame_of_oneLine (((oneLine_indent.literal (by decide)).append hasked).literal
      (by decide))
  · exact tame_of_oneLine (by decide)
  · exact tame_of_oneLine (oneLine_indent.literal (by decide))
  · exact tame_of_oneLine ((oneLine_indent.literal (by decide)).literal (by decide))
  · exact tame_of_oneLine (by decide)
  · exact tame_of_oneLine (oneLine_indent.literal (by decide))
  · exact tame_of_mem_tripwireLines h
  · exact tame_of_oneLine (oneLine_indent.literal (by decide))
  · exact tame_of_literal (by decide) (head?_string _) _
  · exact tame_of_oneLine oneLine_untripped
  · exact tame_of_oneLine (oneLine_indent.literal (by decide))
  · exact tame_of_literal (by decide) (head?_string _) _
  · exact tame_of_oneLine oneLine_untripped
  · exact tame_of_oneLine (by decide)
  · exact tame_of_last_literal (by decide) (head?_string _)
  · exact tame_of_oneLine ((oneLine_indent.literal (by decide)).literal (by decide))

theorem oneLine_namesArgument {argument : String} {names : List String}
    (hargument : OneLine argument) (hnames : ∀ name ∈ names, isLegal name.toList = true) :
    OneLine (namesArgument argument names) := by
  have hlist : OneLine (String.intercalate ", " names) :=
    oneLine_intercalate (by decide) fun name hname => (oneLine_of_isLegal (hnames name hname)).1
  exact (((oneLine_indent.append hargument).literal (by decide)).append hlist).literal (by decide)

theorem oneLine_orElse {other : String} (hs : OneLine s) (hother : OneLine other) :
    OneLine (orElse s other) := by
  unfold orElse
  split
  · exact hother
  · exact hs

theorem oneLine_agentRemark {name : String} (hname : isLegal name.toList = true) (label : String) :
    OneLine ("# Agent: " ++ orElse (comment label) "My Agent" ++ " (variable: " ++ name ++ ")")
      := by
  have hlabel : OneLine (orElse (comment label) "My Agent") :=
    oneLine_orElse (oneLine_comment _) (by decide)
  exact ((((oneLine_literal (by decide)).append hlabel).literal (by decide)).append
    (oneLine_of_isLegal hname).1).literal (by decide)

/-- The lines of an agent.  Everything it refers to is given by a name, so the only free text is in
two literals and in the remark above it. -/
theorem tame_of_mem_agentBlock {a : AgentDefinition} (hname : isLegal a.name.toList = true)
    (hlegal : ∀ r ∈ (Definition.agent a).references, isLegal r.2.toList = true)
    (h : line ∈ agentBlock a) : Tame line := by
  have hone := (oneLine_of_isLegal hname).1
  simp only [Definition.references, List.forall_mem_append, List.forall_mem_map] at hlegal
  obtain ⟨⟨⟨htools, hhandoffs⟩, htype⟩, hinput, houtput⟩ := hlegal
  simp only [agentBlock, List.mem_append, List.mem_cons, List.not_mem_nil, or_false] at h
  -- six lines that are always there, four arguments that may be left out, and the parenthesis
  rcases h with (((((rfl | rfl | rfl | rfl | rfl | rfl) | h) | h) | h) | h) | rfl
  · exact tame_of_oneLine (oneLine_agentRemark hname a.label)
  · exact tame_of_oneLine (hone.literal (by decide))
  · exact tame_of_oneLine (((oneLine_indent.literal (by decide)).append hone).literal (by decide))
  · exact tame_of_literal (by decide) (head?_tripleQuoted _) _
  · exact tame_of_oneLine (oneLine_namesArgument (by decide) htools)
  · exact tame_of_oneLine (oneLine_namesArgument (by decide) hhandoffs)
  · exact tame_of_oneLine (oneLine_outputType (fun t ht => htype t (by rw [ht]; simp)) h)
  · split at h
    · exact absurd h List.not_mem_nil
    · rw [List.mem_singleton.1 h]
      exact tame_of_oneLine (oneLine_namesArgument (by decide) hinput)
  · split at h
    · exact absurd h List.not_mem_nil
    · rw [List.mem_singleton.1 h]
      exact tame_of_oneLine (oneLine_namesArgument (by decide) houtput)
  · split at h
    · exact absurd h List.not_mem_nil
    · rw [List.mem_singleton.1 h]
      exact tame_of_literal (by decide) (head?_tripleQuoted _) _
  · exact tame_of_oneLine (by decide)

/-- The lines of a definition whose names are identifiers do not get out of hand: a remark in one of
them ends with it. -/
theorem Legal.tame_of_mem_block (hp : p.Legal) {d : Definition} (hd : d ∈ p.definitions)
    (h : line ∈ d.block) : Tame line := by
  have hname := hp.definitions d hd
  have href : ∀ r ∈ d.references, isLegal r.2.toList = true := fun r hr =>
    hp.references r (List.mem_append_left _ (List.mem_flatMap.2 ⟨d, hd, hr⟩))
  simp only [Program.definitions, List.mem_append, List.mem_map, List.mem_flatMap, List.mem_cons,
    List.not_mem_nil, or_false] at hd
  rcases hd with ((⟨c, hc, rfl⟩ | ⟨t, ht, rfl⟩) | ⟨q, -, rfl | rfl⟩) | ⟨a, -, rfl⟩
  · exact tame_of_oneLine (oneLine_of_mem_classBlock hname (hp.fields c hc) h)
  · exact tame_of_oneLine (oneLine_of_mem_toolBlock hname (hp.parameters t ht) h)
  · exact tame_of_mem_checkerBlock hname
      (fun t ht => href (.record, t) (by simp [Definition.references, ht])) h
  · exact tame_of_mem_guardBlock hname (href _ List.mem_cons_self) h
  · exact tame_of_mem_agentBlock hname href h

/-! ### The main function -/

theorem oneLine_idleNote (label : String) : OneLine (idleNote label) :=
  ((oneLine_literal (by decide)).append (oneLine_orElse (oneLine_comment _) (by decide))).literal
    (by decide)

theorem tame_of_mem_stanzaLines {awaited : Bool} {c : Stanza}
    (hlegal : ∀ r ∈ c.references, isLegal r.2.toList = true) (h : line ∈ stanzaLines awaited c) :
    Tame line := by
  cases c with
  | idle label =>
    rw [List.mem_singleton.1 h]
    exact tame_of_oneLine (oneLine_indent.append (oneLine_idleNote label))
  | call agent input context mode =>
    obtain ⟨hone, hbare⟩ := oneLine_of_isLegal (hlegal _ List.mem_cons_self)
    simp only [stanzaLines, callLines, List.mem_cons, List.not_mem_nil, or_false] at h
    rcases h with rfl | rfl | rfl
    · exact tame_of_literal (by decide) (head?_string _) _
    · rw [String.append_assoc]
      refine tame_of_literal (((Bare.append (by decide) ?_).append hbare).append (by decide))
        (head?_tripleQuoted _) _
      cases awaited <;> decide
    · exact tame_of_oneLine (((oneLine_indent.literal (by decide)).append hone).literal
        (by decide))

/-- The lines of the main function, or of the remarks that stand in its place. -/
theorem tame_of_mem_mainBlocks (hp : p.Legal) {b : Block} (hb : b ∈ p.mainBlocks) (h : line ∈ b) :
    Tame line := by
  simp only [mainBlocks] at hb
  split at hb
  · simp only [List.mem_cons, List.not_mem_nil, or_false] at hb
    rcases hb with rfl | rfl
    · simp only [List.mem_append, List.mem_cons, List.not_mem_nil, or_false, List.mem_flatMap] at h
      rcases h with (rfl | rfl) | ⟨c, hc, h⟩
      · exact tame_of_oneLine (by decide)
      · refine tame_of_oneLine ?_
        split <;> decide
      · refine tame_of_mem_stanzaLines (fun r hr => hp.references r ?_) h
        exact List.mem_append_right _ (List.mem_flatMap.2 ⟨c, hc, hr⟩)
    · simp only [List.mem_cons, List.not_mem_nil, or_false] at h
      rcases h with rfl | rfl
      · exact tame_of_oneLine (by decide)
      · refine tame_of_oneLine (oneLine_indent.append ?_)
        split <;> decide
  · split at hb
    · exact absurd hb List.not_mem_nil
    · -- nothing to call: a title, and a remark for each runner
      rw [List.mem_singleton.1 hb] at h
      rcases List.mem_cons.1 h with rfl | h
      · exact tame_of_oneLine (by decide)
      · obtain ⟨c, -, hnote⟩ := List.mem_filterMap.1 h
        cases c with
        | idle label =>
          obtain rfl := Option.some.inj hnote
          exact tame_of_oneLine (oneLine_idleNote label)
        | call => exact absurd hnote (by simp)

/-! ### The whole -/

theorem oneLine_toString (n : ℕ) : OneLine (toString n) := by
  intro c hc
  rw [show toString n = n.repr from rfl, Nat.toList_repr] at hc
  have hdigit := Nat.isDigit_of_mem_toDigits (by decide) (by decide) hc
  simp only [Char.isDigit, Bool.and_eq_true, decide_eq_true_eq] at hdigit
  refine (not_isLineEnd_of_isNameChar ?_).1
  simp only [isNameChar, Bool.or_eq_true, between_iff, decide_eq_true_eq]
  exact Or.inl (Or.inr hdigit)

theorem tame_of_mem_emptyBlock (h : line ∈ emptyBlock p) : Tame line := by
  simp only [emptyBlock, List.mem_cons, List.not_mem_nil, or_false] at h
  rcases h with rfl | rfl
  · exact tame_of_oneLine (oneLine_literal (by decide))
  · exact tame_of_oneLine ((((oneLine_literal (by decide)).append (oneLine_toString _)).literal
      (by decide)).append (oneLine_toString _))

theorem oneLine_of_mem_titles (h : line ∈ Definition.titles) : OneLine line := by
  have htitles : ∀ title ∈ Definition.titles, OneLine title := by decide
  exact htitles line h

/-- A title adds one line in front of the first block and changes no other line. -/
theorem mem_of_mem_titled {title : String} {bs : List Block} {b : Block} (hb : b ∈ titled title bs)
    (h : line ∈ b) : line = title ∨ ∃ c ∈ bs, line ∈ c := by
  cases bs with
  | nil => exact absurd hb List.not_mem_nil
  | cons c bs =>
    rcases List.mem_cons.1 hb with rfl | hb
    · rcases List.mem_cons.1 h with rfl | h
      · exact Or.inl rfl
      · exact Or.inr ⟨c, List.mem_cons_self, h⟩
    · exact Or.inr ⟨b, List.mem_cons_of_mem _ hb, h⟩

theorem mem_definitions_of_guardrail {q : Checker × Guard} (hq : q ∈ p.guardrails) :
    .checker q.1 ∈ p.definitions ∧ .guard q.2 ∈ p.definitions := by
  simp only [definitions, List.mem_append, List.mem_flatMap]
  exact ⟨Or.inl (Or.inr ⟨q, hq, by simp⟩), Or.inl (Or.inr ⟨q, hq, by simp⟩)⟩

/-- Every line is a title, or belongs to a definition, to the main function or to the note that
there is nothing to execute. -/
theorem mem_bodyBlocks_cases {b : Block} (hb : b ∈ p.bodyBlocks) (h : line ∈ b) :
    line ∈ Definition.titles ∨
      (∃ d ∈ p.definitions, line ∈ d.block) ∨ b ∈ p.mainBlocks ∨ line ∈ p.emptyBlock := by
  simp only [bodyBlocks, List.mem_append] at hb
  -- classes stand without a title, all other definitions under one
  rcases hb with ((((hb | hb) | hb) | hb) | hb) | hb
  · obtain ⟨c, hc, rfl⟩ := List.mem_map.1 hb
    exact Or.inr (Or.inl ⟨.record c, by simp [definitions, hc], h⟩)
  · rcases mem_of_mem_titled hb h with rfl | ⟨e, he, h⟩
    · exact Or.inl (by decide)
    · obtain ⟨t, ht, rfl⟩ := List.mem_map.1 he
      exact Or.inr (Or.inl ⟨.tool t, by simp [definitions, ht], h⟩)
  · rcases mem_of_mem_titled hb h with rfl | ⟨e, he, h⟩
    · exact Or.inl (by decide)
    · obtain ⟨⟨c, q⟩, hq, he⟩ := List.mem_flatMap.1 he
      simp only [List.mem_cons, List.not_mem_nil, or_false] at he
      rcases he with rfl | rfl
      · exact Or.inr (Or.inl ⟨.checker c, (mem_definitions_of_guardrail hq).1, h⟩)
      · exact Or.inr (Or.inl ⟨.guard q, (mem_definitions_of_guardrail hq).2, h⟩)
  · rcases mem_of_mem_titled hb h with rfl | ⟨e, he, h⟩
    · exact Or.inl (by decide)
    · obtain ⟨a, ha, rfl⟩ := List.mem_map.1 he
      exact Or.inr (Or.inl ⟨.agent a, by simp [definitions, ha], h⟩)
  · exact Or.inr (Or.inr (Or.inl hb))
  · split at hb
    · exact Or.inr (Or.inr (Or.inr (List.mem_singleton.1 hb ▸ h)))
    · exact absurd hb List.not_mem_nil

/-- A line with a comment is one line. -/
theorem Legal.tame_of_mem_bodyBlocks (hp : p.Legal) {b : Block} (hb : b ∈ p.bodyBlocks)
    (h : line ∈ b) : Tame line := by
  rcases mem_bodyBlocks_cases hb h with htitle | ⟨d, hd, hline⟩ | hmain | hempty
  · exact tame_of_oneLine (oneLine_of_mem_titles htitle)
  · exact hp.tame_of_mem_block hd hline
  · exact tame_of_mem_mainBlocks hp hmain h
  · exact tame_of_mem_emptyBlock hempty

end Program
end AgentFlow
