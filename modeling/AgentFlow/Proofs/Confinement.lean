import AgentFlow.Proofs.Comment
import AgentFlow.Proofs.Dangling

/-!
# Free text stays in its place

Names and descriptions are written into comments, and implementations of tools become the bodies of
functions.  None of them can begin a line of its own: whatever line ends they have, a comment is one
line of the text, and the lines of a body are empty or indented.

## Main definitions

* `Program.Confined`: free text of a graph stays in its place in the text of the program.

## Main results

* `Program.lines_metadataBlock`: **every line of the head is a comment.**
* `Program.Built.confined`: free text stays in its place.
* `Graph.generate_confined`: the same of the text that is generated.
-/

namespace AgentFlow

open Literal Identifier Text Block

/-! ### The head -/

namespace Program

variable {g : Graph} {links : List Link} {m : Metadata} {p : Program} {b : Block}
  {line s t c : String}

theorem isRemark_append (hs : IsRemark s) (ht : OneLine t) : IsRemark (s ++ t) := by
  refine ⟨?_, hs.2.append ht⟩
  rw [String.toList_append, List.head?_append, hs.1, Option.some_or]

theorem ne_empty_of_isRemark (h : IsRemark line) : line ≠ "" := by
  rintro rfl
  exact absurd h.1 (by decide)

/-- Where lines are joined by a line feed and a margin, the margin belongs to the lines. -/
theorem append_intercalate_margin (start feed margin x : String) (xs : List String) :
    start ++ String.intercalate (feed ++ margin) (x :: xs) =
      String.intercalate feed ((start ++ x) :: xs.map (margin ++ ·)) := by
  induction xs generalizing start x with
  | nil => rw [List.map_nil, String.intercalate_singleton, String.intercalate_singleton]
  | cons y ys ih =>
    rw [String.intercalate_cons_cons, List.map_cons, String.intercalate_cons_cons, ← ih]
    simp only [String.append_assoc]

/-- The line of the description is several lines of the text if the description has several, and
each of them is a remark of its own. -/
theorem exists_remarks_description (hs : s ≠ "") :
    ∃ ls, ls ≠ [] ∧ (∀ l ∈ ls, IsRemark l) ∧
      "# Workflow Description: " ++ String.intercalate descriptionBreak (Text.lines s) =
        String.intercalate "\n" ls := by
  have hone : ∀ l ∈ Text.lines s, OneLine l := fun l hl => oneLine_of_mem_lines hl
  obtain ⟨x, xs, hlines⟩ := List.exists_cons_of_ne_nil (Text.lines_ne_nil hs)
  rw [hlines] at hone ⊢
  refine ⟨_, List.cons_ne_nil _ _, ?_,
    append_intercalate_margin _ "\n" "#                   " x xs⟩
  intro l hl
  rcases List.mem_cons.1 hl with rfl | hl
  · exact isRemark_append ⟨by decide, oneLine_literal (by decide)⟩ (hone x List.mem_cons_self)
  · obtain ⟨y, hy, rfl⟩ := List.mem_map.1 hl
    exact isRemark_append ⟨by decide, oneLine_literal (by decide)⟩
      (hone y (List.mem_cons_of_mem _ hy))

/-- The head of a program is made of remarks, one for the name and one for each line of the
description. -/
theorem exists_remarks (m : Metadata) :
    ∃ ls, (metadataBlock m).text = String.intercalate "\n" ls ∧ ∀ l ∈ ls, IsRemark l := by
  simp only [metadataBlock, Block.text]
  generalize hfirst : "# Workflow Name: " ++ comment (strip (m.name.getD "")) = first
  have hname : IsRemark first := by
    rw [← hfirst]
    exact isRemark_append ⟨by decide, oneLine_literal (by decide)⟩ (oneLine_comment _)
  -- name and description are left out independently of each other
  split
  · split
    · exact ⟨[], rfl, fun _ hl => absurd hl List.not_mem_nil⟩
    · next hs =>
      obtain ⟨ls, -, hremarks, htext⟩ := exists_remarks_description hs
      exact ⟨ls, by rw [List.nil_append, String.intercalate_singleton, htext], hremarks⟩
  · split
    · exact ⟨[first], by rw [List.append_nil], List.forall_mem_singleton.2 hname⟩
    · next hs =>
      obtain ⟨ls, hne, hremarks, htext⟩ := exists_remarks_description hs
      refine ⟨[first] ++ ls, ?_, List.forall_mem_cons.2 ⟨hname, hremarks⟩⟩
      rw [String.intercalate_append_of_ne_nil (by simp) (by simp),
        String.intercalate_append_of_ne_nil (by simp) hne, htext, String.intercalate_singleton,
        String.intercalate_singleton]

/-- **Every line of the head is a comment**, and the lines end where the line feeds are. -/
theorem lines_metadataBlock (m : Metadata) :
    Block.text (Text.lines (metadataBlock m).text) = (metadataBlock m).text ∧
      ∀ line ∈ Text.lines (metadataBlock m).text, IsRemark line := by
  obtain ⟨ls, htext, hremarks⟩ := exists_remarks m
  rw [htext, Text.lines_intercalate fun l hl =>
    ⟨ne_empty_of_isRemark (hremarks l hl), (hremarks l hl).2⟩]
  exact ⟨rfl, hremarks⟩

/-! ### The rest of the text -/

/-- Free text of a graph stays in its place in the text of the program. -/
structure Confined (g : Graph) (links : List Link) (m : Metadata) (p : Program) : Prop where
  /-- The lines of the head stand in the text. -/
  head : metadataBlock m ≠ [] → StandsIn (Text.lines (metadataBlock m).text) p.render
  /-- A line with a comment is a line of the text. -/
  comments : ∀ b ∈ p.bodyBlocks, ∀ line ∈ b, ∀ c, commentOf? line = some c →
    StandsIn [line] p.render
  /-- The name of an agent is in one comment. -/
  agents : ∀ x ∈ agentOrder g links, ∃ name, (Naming.ofGraph g).nameOf? (.agent, x.1) = some name ∧
    Noted p.render
      (" Agent: " ++ orElse (comment x.2.name) "My Agent" ++ " (variable: " ++ name ++ ")")
  /-- The name of a guardrail is in the comment above its checker. -/
  checkers : ∀ x ∈ guardrailNodes g,
    Noted p.render (" Internal Checker Agent for Guardrail: " ++ comment x.2.name)
  /-- The name of a guardrail is in a comment if nothing trips it. -/
  guards : ∀ x ∈ guardrailNodes g, strip x.2.tripwireLogic = "" →
    Noted p.render (" No tripwire logic provided for guardrail '" ++ comment x.2.name ++
      "'. Defaulting to not triggered.")
  /-- The name of a runner is in a comment if it has no agent. -/
  runners : ∀ x ∈ runnerNodes g, Wiring.runnerAgent? links x.1 = none →
    Noted p.render (" Runner node \"" ++ orElse (comment x.2.name) "Unnamed Runner" ++
      "\" is not connected to an Agent.")
  /-- The description of a field is in a comment. -/
  fields : ∀ e ∈ (Naming.ofGraph g).schemas, ∀ f ∈ e.schema.fields, ∀ s,
    unlessBlank f.description = some s → Noted p.render (" " ++ comment s)
  /-- The lines of an implementation stand in the text, each of them empty or indented. -/
  bodies : ∀ x ∈ toolNodes g, isBlankText x.2.implementation = false →
    StandsIn (Literal.block Literal.indent x.2.implementation) p.render

theorem exists_bodyBlock {d : Definition} (hd : d ∈ p.definitions) :
    ∃ b ∈ p.bodyBlocks, d.block <:+ b := by
  obtain ⟨blocks, hblocks, hemitted⟩ := p.forall₂_bodyBlocks
  obtain ⟨b, hb, has⟩ := exists_right_of_forall₂ hemitted hd
  exact ⟨b, hblocks ▸ List.mem_append_left _ hb, has.suffix⟩

theorem Legal.standsIn (hp : p.Legal) (hb : b ∈ p.bodyBlocks) (h : line ∈ b)
    (hc : commentOf? line = some c) : StandsIn [line] p.render := by
  obtain ⟨xs, ys, hsplit⟩ := List.append_of_mem h
  refine standsIn_render hb ⟨xs, ys, by simp [hsplit]⟩ (by simp) ?_
  exact List.forall_mem_singleton.2 (hp.tame_of_mem_bodyBlocks hb h c hc)

theorem Legal.noted (hp : p.Legal) {d : Definition} (hd : d ∈ p.definitions) (h : line ∈ d.block)
    (hc : commentOf? line = some c) : Noted p.render c := by
  obtain ⟨b, hb, hsuffix⟩ := exists_bodyBlock hd
  exact ⟨line, hc, hp.standsIn hb (hsuffix.subset h) hc⟩

/-! #### Comments -/

theorem Legal.noted_agent (hp : p.Legal) {a : AgentDefinition} (ha : a ∈ p.agents) :
    Noted p.render
      (" Agent: " ++ orElse (comment a.label) "My Agent" ++ " (variable: " ++ a.name ++ ")") := by
  refine hp.noted (d := .agent a) (by simp [Program.definitions, ha]) List.mem_cons_self ?_
  have hstart : commentOf? "# Agent: " = some " Agent: " := by decide
  exact commentOf?_append (commentOf?_append (commentOf?_append (commentOf?_append hstart _) _) _) _

theorem Legal.noted_checker (hp : p.Legal) {q : Checker × Guard} (hq : q ∈ p.guardrails) :
    Noted p.render (" Internal Checker Agent for Guardrail: " ++ comment q.1.label) := by
  refine hp.noted (d := .checker q.1) ?_ List.mem_cons_self (commentOf?_append (by decide) _)
  exact (mem_definitions_of_guardrail hq).1

/-- The name of a guardrail stands in the remark that there is no logic. -/
theorem Legal.noted_guard (hp : p.Legal) {q : Checker × Guard} (hq : q ∈ p.guardrails)
    (hlogic : strip q.2.tripwireLogic = "") :
    Noted p.render (" No tripwire logic provided for guardrail '" ++ comment q.2.label ++
      "'. Defaulting to not triggered.") := by
  have hline : (deep ++ "# No tripwire logic provided for guardrail '" ++ comment q.2.label ++
      "'. Defaulting to not triggered.") ∈ (Definition.guard q.2).block := by
    refine List.mem_append_left _ (List.mem_append_right _ ?_)
    simp [tripwireLines, hlogic]
  refine hp.noted (d := .guard q.2) ?_ hline (commentOf?_append (commentOf?_append ?_ _) _)
  · exact (mem_definitions_of_guardrail hq).2
  · rw [commentOf?_append_of_bare (by decide)]
    decide

/-- The description of a field stands in a remark behind the field. -/
theorem Legal.noted_field (hp : p.Legal) {e : RecordClass} (he : e ∈ p.classes) {f : RecordField}
    (hf : f ∈ e.fields) (hs : unlessBlank f.description = some s) :
    Noted p.render (" " ++ comment s) := by
  have hline : fieldLine f ∈ (Definition.record e).block := by
    refine List.mem_append_right _ ?_
    rw [if_neg (by simp [List.ne_nil_of_mem hf])]
    exact List.mem_map_of_mem hf
  refine hp.noted (d := .record e) (by simp [Program.definitions, he]) hline ?_
  rw [fieldLine_eq, hs]
  refine commentOf?_append ?_ _
  rw [commentOf?_append_of_bare (oneLine_fieldCode (hp.fields e he f hf)).2]
  decide

theorem commentOf?_idleNote (label : String) :
    commentOf? (idleNote label) = some (" Runner node \"" ++
      orElse (comment label) "Unnamed Runner" ++ "\" is not connected to an Agent.") :=
  commentOf?_append (commentOf?_append (by decide) _) _

/-- The name of a runner without an agent stands in a remark.  It makes no difference whether there
is a main function: without one the remark takes its place. -/
theorem Legal.noted_runner (hp : p.Legal) {label : String} (h : Stanza.idle label ∈ p.stanzas) :
    Noted p.render (" Runner node \"" ++ orElse (comment label) "Unnamed Runner" ++
      "\" is not connected to an Agent.") := by
  -- the note is a line of the main function, or stands alone if there is none
  obtain ⟨b, hb, line, hline, hc⟩ : ∃ b ∈ p.mainBlocks, ∃ line ∈ b,
      commentOf? line = commentOf? (idleNote label) := by
    unfold mainBlocks
    split
    · refine ⟨_, List.mem_cons_self, Literal.indent ++ idleNote label, ?_,
        commentOf?_append_of_bare (by decide) _⟩
      exact List.mem_append_right _ (List.mem_flatMap.2 ⟨_, h, List.mem_singleton.2 rfl⟩)
    · have hnote : idleNote label ∈ idleNotes p.stanzas := List.mem_filterMap.2 ⟨_, h, rfl⟩
      rw [if_neg (by simp [List.ne_nil_of_mem hnote])]
      exact ⟨_, List.mem_singleton.2 rfl, _, List.mem_cons_of_mem _ hnote, rfl⟩
  rw [commentOf?_idleNote] at hc
  have hbody : b ∈ p.bodyBlocks := by
    simp only [bodyBlocks, List.mem_append]
    exact Or.inl (Or.inr hb)
  exact ⟨line, hc, hp.standsIn hbody hline hc⟩

/-! #### Bodies and head -/

/-- The lines of an implementation follow each other in the text as they were written, each behind
an indentation. -/
theorem standsIn_implementation {u : ToolFunction} (hu : u ∈ p.tools)
    (hblank : isBlankText u.implementation = false) :
    StandsIn (Literal.block Literal.indent u.implementation) p.render := by
  obtain ⟨b, hb, hsuffix⟩ :=
    exists_bodyBlock (p := p) (d := .tool u) (by simp [Program.definitions, hu])
  have hbody : Literal.block Literal.indent u.implementation <:+ toolBlock u := by
    rw [toolBlock, hblank]
    exact List.suffix_append _ _
  exact standsIn_render hb (hbody.trans hsuffix).isInfix (block_ne_nil hblank) fun l hl =>
    oneLine_of_mem_block oneLine_indent hl

/-- If there is a head it stands at the very beginning of the text, line by line. -/
theorem standsIn_head (h : metadataBlock p.metadata ≠ []) :
    StandsIn (Text.lines (metadataBlock p.metadata).text) p.render := by
  obtain ⟨htext, hremarks⟩ := lines_metadataBlock p.metadata
  refine ⟨fun line hline => (hremarks line hline).2, ?_⟩
  have hhead : p.headBlocks.map Block.text =
      [Block.text [encodingLine], (metadataBlock p.metadata).text, Block.text imports] := by
    simp [headBlocks, h]
  -- the empty line before the block and the one behind it give a line feed each
  have hjoin : ∀ first middle last rest : String,
      String.intercalate "\n\n" [first, middle, last] ++ rest =
        first ++ "\n" ++ ("\n" ++ middle ++ "\n") ++ ("\n" ++ last ++ rest) := by
    intro first middle last rest
    rw [String.intercalate_cons_cons, String.intercalate_cons_cons, String.intercalate_singleton,
      show "\n\n" = "\n" ++ "\n" from rfl]
    simp only [String.append_assoc]
  rw [render, hhead, htext, String.append_assoc, String.append_assoc, hjoin]
  exact ⟨_, _, rfl⟩

theorem metadata_of_build (h : build g m = .ok p) : p.metadata = m := by
  obtain ⟨links, -, h⟩ := bind_eq_ok_iff.1 h
  obtain ⟨tools, -, h⟩ := bind_eq_ok_iff.1 h
  obtain ⟨guardrails, -, h⟩ := bind_eq_ok_iff.1 h
  obtain ⟨agents, -, h⟩ := bind_eq_ok_iff.1 h
  obtain ⟨stanzas, -, hp⟩ := bind_eq_ok_iff.1 h
  obtain rfl := Except.ok.inj hp
  rfl

/-! #### From the graph to the program -/

theorem label_of_agentDefinition {names : Naming} {id : NodeId} {d : AgentData}
    {a : AgentDefinition} (h : agentDefinition names links id d = .ok a) : a.label = d.name := by
  obtain ⟨name, -, h⟩ := bind_eq_ok_iff.1 h
  obtain ⟨tools, -, h⟩ := bind_eq_ok_iff.1 h
  obtain ⟨handoffs, -, h⟩ := bind_eq_ok_iff.1 h
  obtain ⟨ins, -, h⟩ := bind_eq_ok_iff.1 h
  obtain ⟨outs, -, ha⟩ := bind_eq_ok_iff.1 h
  obtain rfl := Except.ok.inj ha
  rfl

theorem implementation_of_toolFunction {names : Naming} {id : NodeId} {d : ToolData}
    {t : ToolFunction} (h : toolFunction names id d = .ok t) :
    t.implementation = d.implementation := by
  obtain ⟨name, -, ht⟩ := bind_eq_ok_iff.1 h
  obtain rfl := Except.ok.inj ht
  rfl

theorem label_of_guardrail {names : Naming} {id : NodeId} {d : GuardrailData} {q : Checker × Guard}
    (h : guardrail names id d = .ok q) :
    q.1.label = d.name ∧ q.2.label = d.name ∧ q.2.tripwireLogic = d.tripwireLogic := by
  obtain ⟨c, -, h⟩ := bind_eq_ok_iff.1 h
  obtain ⟨s, -, hq⟩ := bind_eq_ok_iff.1 h
  obtain rfl := Except.ok.inj hq
  exact ⟨rfl, rfl, rfl⟩

/-- **Free text stays in its place.**  Every display name and every description is found as a whole
inside one comment, and an implementation inside the body of its function. -/
theorem Built.confined (hb : Built g links p) (hlinks : g.links = .ok links) :
    p.Confined g links p.metadata := by
  have hp := hb.legal hlinks
  -- every text of a node is found in the part that was made of the node
  refine ⟨standsIn_head, fun b hbody line hline c hc => hp.standsIn hbody hline hc, ?_, ?_, ?_, ?_,
    ?_, ?_⟩
  · intro x hx
    obtain ⟨a, ha, hdefinition⟩ := exists_right_of_forall₂ hb.agents hx
    rw [← label_of_agentDefinition hdefinition]
    exact ⟨a.name, (nameOf?_of_agentDefinition hdefinition).1, hp.noted_agent ha⟩
  · intro x hx
    obtain ⟨q, hq, hguardrail⟩ := exists_right_of_forall₂ hb.guardrails hx
    rw [← (label_of_guardrail hguardrail).1]
    exact hp.noted_checker hq
  · intro x hx hlogic
    obtain ⟨q, hq, hguardrail⟩ := exists_right_of_forall₂ hb.guardrails hx
    obtain ⟨-, hlabel, htripwire⟩ := label_of_guardrail hguardrail
    rw [← hlabel]
    exact hp.noted_guard hq (htripwire ▸ hlogic)
  · intro x hx hagent
    obtain ⟨c, hc, hstanza⟩ := exists_right_of_forall₂ hb.stanzas hx
    rw [stanza, hagent] at hstanza
    obtain rfl := Except.ok.inj hstanza
    exact hp.noted_runner hc
  · intro e he f hf s hs
    obtain ⟨r, hr, ⟨-, -, hdescription⟩, -⟩ :=
      exists_right_of_forall₂ (forall₂_recordFields reservedFieldNames 0 _) hf
    have hclass : recordClass e ∈ p.classes := hb.classes ▸ List.mem_map_of_mem he
    exact hp.noted_field hclass hr (hdescription ▸ hs)
  · intro x hx hblank
    obtain ⟨t, ht, htool⟩ := exists_right_of_forall₂ hb.tools hx
    rw [← implementation_of_toolFunction htool] at hblank ⊢
    exact standsIn_implementation ht hblank

end Program

/-- **Free text stays in its place**, whatever line ends it has.  A folded text is on one line,
every line of the head is a comment, and the lines of a body are empty or indented.  In the text of
a graph every comment is therefore one line, with the whole name or description in it, and so is
every line of an implementation. -/
theorem Graph.generate_confined {g : Graph} (hclosed : g.Closed) (m : Metadata) :
    (∀ s, OneLine (comment s)) ∧
      (∀ m, Block.text (Text.lines (Program.metadataBlock m).text) =
          (Program.metadataBlock m).text ∧
        ∀ line ∈ Text.lines (Program.metadataBlock m).text, line.toList.head? = some '#') ∧
      (∀ n s, ∀ line ∈ block (spaces n) s,
        OneLine line ∧ (line = "" ∨ (spaces n).toList <+: line.toList)) ∧
      ∃ links p, g.links = .ok links ∧ Program.build g m = .ok p ∧ g.generate m = .ok p.render ∧
        p.Confined g links m := by
  refine ⟨oneLine_comment, fun m => ?_, fun n s line hline => ⟨?_, ?_⟩, ?_⟩
  · obtain ⟨htext, hremarks⟩ := Program.lines_metadataBlock m
    exact ⟨htext, fun line hline => (hremarks line hline).1⟩
  · exact Program.oneLine_of_mem_block (oneLine_spaces n) hline
  · rcases mem_block hline with rfl | ⟨l, -, rfl⟩
    · exact Or.inl rfl
    · exact Or.inr (by rw [String.toList_append]; exact List.prefix_append _ _)
  · obtain ⟨links, hlinks⟩ := Graph.exists_links hclosed
    obtain ⟨p, hbuild, hb⟩ :=
      Program.exists_built_of_links hlinks (fun _ hx => Wiring.mem_of_mem_arrange hx) m
    refine ⟨links, p, hlinks, hbuild, Graph.generate_of_build hbuild, ?_⟩
    have hconfined := hb.confined hlinks
    rwa [Program.metadata_of_build hbuild] at hconfined

/-- A graph whose names, descriptions and implementations try to begin lines of their own. -/
def Graph.unruly : Graph :=
  { nodes := [
      ⟨"a", none, .agent
        { name := "Writer\nimport os"
          outputSchema := some
            { modelName := "Report"
              fields := [{ name := "title", description := some "short\r\nexit()" }] } }⟩,
      ⟨"q", none, .guardrail { name := "Length\x0bexit()" }⟩,
      ⟨"r", none, .runner { name := "Night\u2028shift" }⟩,
      ⟨"t", none, .functionTool { name := "Tea", implementation := "steep()\r\n\r\nreturn 4\n" }⟩]
    edges := [] }

/-- A description with an empty line, and a name with a line end. -/
def Metadata.unruly : Metadata :=
  { name := some "Tea\rtime", description := some "brew\n\nimport os" }

/-- No name or description gets out of its comment, and no line of the implementation is at the
margin. -/
theorem Graph.generate_confined_unruly :
    Graph.unruly.Closed ∧ ∃ text, Graph.unruly.generate Metadata.unruly = .ok text ∧
      StandsIn ["# Workflow Name: Tea time", "# Workflow Description: brew",
        "#                   ", "#                   import os"] text ∧
      Noted text " Agent: Writer import os (variable: writer_import_os)" ∧
      Noted text " Internal Checker Agent for Guardrail: Length exit()" ∧
      Noted text
        " No tripwire logic provided for guardrail 'Length exit()'. Defaulting to not triggered." ∧
      Noted text " Runner node \"Night shift\" is not connected to an Agent." ∧
      Noted text " short exit()" ∧
      StandsIn ["    steep()", "", "    return 4"] text := by
  have hclosed : Graph.unruly.Closed := Graph.checkReferences_eq_ok_iff.1 rfl
  obtain ⟨-, -, -, links, p, hlinks, -, hgenerate, hp⟩ :=
    Graph.generate_confined hclosed Metadata.unruly
  obtain rfl : [] = links := Except.ok.inj hlinks
  obtain ⟨x, hx, hid, hname⟩ : ∃ x ∈ Program.agentOrder Graph.unruly [],
      x.1 = "a" ∧ comment x.2.name = "Writer import os" := by
    decide +kernel
  obtain ⟨name, hissued, hagent⟩ := hp.agents x hx
  obtain rfl : "writer_import_os" = name := by
    have hvariable : (Naming.ofGraph Graph.unruly).nameOf? (.agent, "a") =
        some "writer_import_os" := by
      decide +kernel
    rw [hid, hvariable] at hissued
    exact Option.some.inj hissued
  obtain ⟨q, hq, hguardrail, hlogic⟩ : ∃ q ∈ Program.guardrailNodes Graph.unruly,
      comment q.2.name = "Length exit()" ∧ strip q.2.tripwireLogic = "" := by
    decide +kernel
  obtain ⟨r, hr, hrunner, hidle⟩ : ∃ r ∈ Program.runnerNodes Graph.unruly,
      comment r.2.name = "Night shift" ∧ Wiring.runnerAgent? [] r.1 = none := by
    decide +kernel
  obtain ⟨e, he, f, hf, hdescription⟩ : ∃ e ∈ (Naming.ofGraph Graph.unruly).schemas,
      ∃ f ∈ e.schema.fields, Program.unlessBlank f.description = some "short\r\nexit()" := by
    decide +kernel
  obtain ⟨t, ht, hbody, hblank⟩ : ∃ t ∈ Program.toolNodes Graph.unruly,
      block Literal.indent t.2.implementation = ["    steep()", "", "    return 4"] ∧
        isBlankText t.2.implementation = false := by
    decide +kernel
  have hhead : Text.lines (Program.metadataBlock Metadata.unruly).text =
      ["# Workflow Name: Tea time", "# Workflow Description: brew",
        "#                   ", "#                   import os"] := by
    decide +kernel
  have hfield : comment "short\r\nexit()" = "short exit()" := by decide +kernel
  refine ⟨hclosed, p.render, hgenerate, ?_, ?_, ?_, ?_, ?_, ?_, ?_⟩
  · exact hhead ▸ hp.head (by decide +kernel)
  · simpa [hname, Program.orElse] using hagent
  · simpa [hguardrail] using hp.checkers q hq
  · simpa [hguardrail] using hp.guards q hq hlogic
  · simpa [hrunner, Program.orElse] using hp.runners r hr hidle
  · simpa [hfield] using hp.fields e he f hf _ hdescription
  · exact hbody ▸ hp.bodies t ht hblank

end AgentFlow
