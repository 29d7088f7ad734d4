import AgentFlow.Proofs.NameResolution
import AgentFlow.Proofs.Scanning

/-!
# Names bound inside functions

A function of a program binds names of its own: parameters, targets of assignments and the
exception it catches.  Where such a name is also the name of a definition, the definition is out of
reach inside the function.  Names for definitions are issued apart from a list of names that
programs use themselves; two names that guardrail functions bind are missing from that list.

## Main definitions

* `Block.codeFrom`: lines without the docstrings of several lines among them.
* `Block.bound`: the names that the lines of a block bind.
* `Guard.Evaluates`: the guardrail function evaluates tripwire logic.

## Main results

* `Block.boundFrom_append`: lines bind what their beginnings bind.
* `Block.exists_code_docstring`: of a docstring next to nothing is taken for code.
* `Program.exists_code_guardBlock`: the code of a guardrail function.
* `Program.bound_guardBlock`: the names that a guardrail function binds.
* `Program.eq_result_of_mem_mainBlocks`: the main function binds the results of its calls.
* `Program.captures_iff`: **two names capture, and no others.**
-/

namespace AgentFlow

open Literal Identifier Program

namespace Block

/-! ### Reading bound names -/

/-- Characters of a word. -/
def isWordChar (c : Char) : Bool := c.isAlphanum || c = '_'

/-- The parameters in the first parentheses, without their annotations. -/
def parametersIn (cs : List Char) : List String :=
  let inside := ((cs.dropWhile (· ≠ '(')).drop 1).takeWhile (· ≠ ')')
  let words := (inside.splitOn ',').map fun p => (p.dropWhile (· = ' ')).takeWhile isWordChar
  (words.filter (· ≠ [])).map String.ofList

/-- The name that an exception is given. -/
def caughtIn (cs : List Char) : List String :=
  match (cs.splitOn ' ').reverse with
  | name :: ['a', 's'] :: _ => [String.ofList (name.takeWhile isWordChar)]
  | _ => []

/-- The code of a line. -/
def codeOf (line : String) : List Char := line.toList.dropWhile (· = ' ')

/-- The first word of a line. -/
def wordOf (line : String) : List Char := (codeOf line).takeWhile isWordChar

/-- What is behind the first word of a line. -/
def behindWord (line : String) : List Char := (codeOf line).dropWhile isWordChar

/-- The names that a line binds: the target of an assignment, the name of an exception, or the
parameters of a function.  Only the beginning of a line is looked at, so that literals and the
expression for a context, which may run over several lines of text, are passed over. -/
def boundBy (line : String) : List String :=
  if (behindWord line).take 3 = " = ".toList then [String.ofList (wordOf line)]
  else if wordOf line = "except".toList then caughtIn (behindWord line)
  else if wordOf line ∈ ["def".toList, "async".toList] then parametersIn (behindWord line)
  else []

/-- The line that opens or closes a docstring of several lines. -/
def docQuotes : String := indent ++ tripleMark

/-- The names that lines bind; the flag tells whether the lines begin inside a docstring. -/
def boundFrom : Bool → Block → List String
  | _, [] => []
  | inside, line :: b =>
    if line = docQuotes then boundFrom (!inside) b
    else if inside then boundFrom inside b
    else boundBy line ++ boundFrom inside b

/-- The names that the lines of a block bind. -/
def bound (b : Block) : List String := boundFrom false b

/-- The lines that are code: docstrings of several lines are left out.  The flag is as above. -/
def codeFrom : Bool → Block → Block
  | _, [] => []
  | inside, line :: b =>
    if line = docQuotes then codeFrom (!inside) b
    else if inside then codeFrom inside b
    else line :: codeFrom inside b

/-- Names are bound by the lines of code alone.  What stands inside a docstring binds nothing. -/
theorem boundFrom_eq (inside : Bool) (b : Block) :
    boundFrom inside b = (codeFrom inside b).flatMap boundBy := by
  induction b generalizing inside with
  | nil => rfl
  | cons line b ih =>
    rw [boundFrom, codeFrom]
    split
    · exact ih _
    · split
      · exact ih _
      · rw [List.flatMap_cons, ih]

/-- Lines among which there is no mark of a docstring are all code, and the reader is outside a
docstring behind them. -/
theorem codeFrom_append {lines : Block} (h : docQuotes ∉ lines) (b : Block) :
    codeFrom false (lines ++ b) = lines ++ codeFrom false b := by
  induction lines with
  | nil => rfl
  | cons line lines ih =>
    rw [List.mem_cons, not_or] at h
    rw [List.cons_append, codeFrom, if_neg (Ne.symm h.1), ih h.2]
    rfl

/-! ### Lines by their beginnings -/

/-- What follows the beginning of a line does not change which names the line binds. -/
def Settled (start : String) : Prop :=
  ¬ start.toList <+: docQuotes.toList ∧ ¬ behindWord start <+: " =".toList ∧
    wordOf start ∉ ["except".toList, "def".toList, "async".toList]

instance (start : String) : Decidable (Settled start) := inferInstanceAs (Decidable (_ ∧ _))

/-- The line is the beginning, or nothing but the beginning matters. -/
inductive Begins : String → String → Prop where
  | self {line : String} (h : line ≠ docQuotes) : Begins line line
  | append {start : String} (h : Settled start) (rest : String) : Begins start (start ++ rest)

variable {start line rest : String}

/-- Characters do not become the sign of an assignment by what follows. -/
theorem take_append_eq_iff {cs : List Char} (h : ¬ cs <+: " =".toList) (ds : List Char) :
    (cs ++ ds).take 3 = " = ".toList ↔ cs.take 3 = " = ".toList := by
  by_cases hlength : 3 ≤ cs.length
  · rw [List.take_append_of_le_length hlength]
  · refine iff_of_false (fun heq => h ?_) fun heq => ?_
    · have hsign : cs <+: " = ".toList := by
        rw [← heq, List.take_append, List.take_of_length_le (by omega)]
        exact List.prefix_append _ _
      exact List.prefix_of_prefix_length_le hsign (List.prefix_append " =".toList [' '])
        (by simp; omega)
    · have hthree := congrArg List.length heq
      rw [List.length_take, Nat.min_eq_right (by omega)] at hthree
      exact hlength (by simp [hthree])

theorem codeOf_append (h : codeOf start ≠ []) (rest : String) :
    codeOf (start ++ rest) = codeOf start ++ rest.toList := by
  unfold codeOf at h ⊢
  rw [String.toList_append, List.dropWhile_append, if_neg (by simpa using h)]

theorem codeOf_ne_nil (h : behindWord start ≠ []) : codeOf start ≠ [] := by
  intro hnil
  simp [behindWord, hnil] at h

theorem behindWord_append (h : behindWord start ≠ []) (rest : String) :
    behindWord (start ++ rest) = behindWord start ++ rest.toList := by
  have hcode := codeOf_append (codeOf_ne_nil h) rest
  unfold behindWord at h ⊢
  rw [hcode, List.dropWhile_append, if_neg (by simpa using h)]

/-- Once the beginning of a line settles what the line binds, the rest of it does not matter. -/
theorem boundBy_append (h : Settled start) (rest : String) :
    boundBy (start ++ rest) = boundBy start := by
  obtain ⟨-, hsign, hword⟩ := h
  have hne : behindWord start ≠ [] := fun hnil => hsign (hnil ▸ List.nil_prefix)
  have hcodes := codeOf_append (codeOf_ne_nil hne) rest
  have hbehind := behindWord_append hne rest
  have hwords : wordOf (start ++ rest) = wordOf start := by
    unfold wordOf
    rw [hcodes, List.takeWhile_append, if_neg]
    intro hall
    have hparts := congrArg List.length
      (List.takeWhile_append_dropWhile (p := isWordChar) (l := codeOf start))
    rw [List.length_append, hall] at hparts
    exact hne (List.length_eq_zero_iff.1 (by unfold behindWord; omega))
  have hexcept : wordOf start ≠ "except".toList := fun heq => hword (heq ▸ List.mem_cons_self)
  have hfunction : wordOf start ∉ ["def".toList, "async".toList] :=
    fun hmem => hword (List.mem_cons_of_mem _ hmem)
  rw [boundBy, boundBy, hbehind, hwords]
  simp only [take_append_eq_iff hsign, if_neg hexcept, if_neg hfunction]

theorem Begins.append₂ (h : Settled start) (rest more : String) :
    Begins start (start ++ rest ++ more) := by
  rw [String.append_assoc]
  exact .append h _

theorem Begins.indented {space : String} (h : Settled (space ++ start)) (rest more : String) :
    Begins (space ++ start) (space ++ (start ++ rest ++ more)) := by
  rw [String.append_assoc, ← String.append_assoc]
  exact .append h _

theorem boundBy_of_begins (h : Begins start line) :
    line ≠ docQuotes ∧ boundBy line = boundBy start := by
  cases h with
  | self hne => exact ⟨hne, rfl⟩
  | append hsettled rest =>
    refine ⟨fun heq => hsettled.1 ?_, boundBy_append hsettled rest⟩
    rw [← heq, String.toList_append]
    exact List.prefix_append _ _

theorem docQuotes_not_mem_of_begins {starts lines : List String}
    (h : List.Forall₂ Begins starts lines) : docQuotes ∉ lines := by
  intro hmem
  obtain ⟨start, -, hbegins⟩ := exists_left_of_forall₂ h hmem
  exact (boundBy_of_begins hbegins).1 rfl

theorem flatMap_boundBy_of_begins {starts lines : List String}
    (h : List.Forall₂ Begins starts lines) : lines.flatMap boundBy = starts.flatMap boundBy := by
  induction h with
  | nil => rfl
  | cons hbegins _ ih =>
    rw [List.flatMap_cons, List.flatMap_cons, ih, (boundBy_of_begins hbegins).2]

/-- Lines bind what their beginnings bind. -/
theorem boundFrom_append (starts : List String) {lines names rest : List String} {b : Block}
    (hnames : starts.flatMap boundBy = names) (h : List.Forall₂ Begins starts lines)
    (hrest : boundFrom false b = rest) : boundFrom false (lines ++ b) = names ++ rest := by
  rw [boundFrom_eq, codeFrom_append (docQuotes_not_mem_of_begins h), List.flatMap_append,
    flatMap_boundBy_of_begins h, hnames, ← boundFrom_eq, hrest]

/-! ### Docstrings -/

/-- The code of the line begins with a quote. -/
def IsQuoted (line : String) : Prop := (codeOf line).head? = some '"'

theorem IsQuoted.exists_behindWord (h : IsQuoted line) :
    wordOf line = [] ∧ ∃ cs, behindWord line = '"' :: cs := by
  obtain ⟨cs, hcode⟩ := List.head?_eq_some_iff.1 h
  have hquote : isWordChar '"' = false := by decide
  exact ⟨by simp [wordOf, hcode, hquote], cs, by simp [behindWord, hcode, hquote]⟩

/-- A line that begins with a quote binds nothing. -/
theorem IsQuoted.boundBy_eq_nil (h : IsQuoted line) : boundBy line = [] := by
  obtain ⟨hword, cs, hbehind⟩ := h.exists_behindWord
  rw [boundBy, hbehind, hword]
  simp

/-- What is inside a docstring is no code. -/
theorem codeFrom_inside {lines : List String} (h : docQuotes ∉ lines) (b : Block) :
    codeFrom true (lines ++ docQuotes :: b) = codeFrom false b := by
  induction lines with
  | nil => simp [codeFrom]
  | cons line lines ih =>
    rw [List.mem_cons, not_or] at h
    rw [List.cons_append, codeFrom, if_neg (Ne.symm h.1), if_pos rfl, ih h.2]

/-- The lines of a docstring are never taken for its end: three quotes in a description are escaped,
and the indentation in front of a line does not change that. -/
theorem docQuotes_not_mem (cs : List Char) :
    docQuotes ∉ (splitFeeds (tripleBody cs)).map (indented indent) := by
  intro hmem
  obtain ⟨piece, hpiece, heq⟩ := List.mem_map.1 hmem
  obtain ⟨ds, hds, rfl⟩ := List.mem_map.1 hpiece
  have hmark : String.ofList ds = tripleMark := by
    unfold indented at heq
    split at heq
    · exact absurd heq (by decide)
    · exact (String.append_right_inj _).1 heq
  have hds' : ds = tripleMark.toList := by rw [← hmark, String.toList_ofList]
  have hinfix : ['\n'] ++ ds <:+: ['\n'] ++ ['\n'].intercalate ((tripleBody cs).splitOn '\n') :=
    infix_intercalate hds
  rw [List.intercalate_splitOn, hds'] at hinfix
  exact Source.not_infix_tripleBody cs hinfix

/-- Of a docstring nothing is taken for code but the line that it may be. -/
theorem exists_code_docstring (s : String) :
    ∃ doc : Block, (∀ line ∈ doc, IsQuoted line) ∧
      ∀ b, codeFrom false (docstring indent s ++ b) = doc ++ codeFrom false b := by
  unfold docstring
  split
  · next line _ =>
    have hne : docQuotes ∉ [indent ++ tripleQuoted line] := by
      intro hmem
      have hlength := congrArg (·.toList.length) (List.mem_singleton.1 hmem)
      simp [docQuotes, tripleQuoted, tripleMark] at hlength
    refine ⟨_, List.forall_mem_singleton.2 ?_, codeFrom_append hne⟩
    simp [IsQuoted, codeOf, indent, tripleQuoted, tripleMark]
  · have hinside := codeFrom_inside
      (docQuotes_not_mem (String.intercalate "\n" (Text.strippedLines s)).toList)
    have hquotes : indent ++ tripleMark = docQuotes := rfl
    refine ⟨[], by simp, fun b => ?_⟩
    rw [hquotes, List.append_assoc, List.cons_append, codeFrom, if_pos rfl]
    exact hinside b

theorem exists_code_describe (description : Option String) :
    ∃ doc : Block, (∀ line ∈ doc, IsQuoted line) ∧
      ∀ b, codeFrom false (describe description ++ b) = doc ++ codeFrom false b := by
  unfold describe
  split
  · exact ⟨[], by simp, fun _ => rfl⟩
  · exact exists_code_docstring _

/-! ### Guardrail functions -/

/-- Parameters are looked for behind the name of the function. -/
theorem parametersIn_append {cs : List Char} (h : '(' ∉ cs) (ds : List Char) :
    parametersIn (cs ++ '(' :: ds) = parametersIn ('(' :: ds) := by
  have hdrop : (cs ++ '(' :: ds).dropWhile (· ≠ '(') = '(' :: ds := by
    have hname : ∀ c ∈ cs, decide (c ≠ '(') = true :=
      fun c hc => decide_eq_true fun heq => h (heq ▸ hc)
    rw [List.dropWhile_append_of_pos hname]
    simp
  rw [parametersIn, parametersIn, hdrop]
  simp

/-- The line that begins a function binds the parameters. -/
theorem boundBy_signature {name : String} (h : '(' ∉ name.toList) {parameters : String}
    {cs : List Char} (hcs : parameters.toList = '(' :: cs) :
    boundBy ("async def " ++ name ++ parameters) = parametersIn parameters.toList := by
  have hcode : codeOf ("async def " ++ name ++ parameters) =
      "async".toList ++ (" def ".toList ++ name.toList ++ parameters.toList) := by
    simp [codeOf]
  have hword : wordOf ("async def " ++ name ++ parameters) = "async".toList := by
    rw [wordOf, hcode]
    simp [isWordChar]
  have hbehind : behindWord ("async def " ++ name ++ parameters) =
      " def ".toList ++ name.toList ++ parameters.toList := by
    rw [behindWord, hcode]
    simp [isWordChar]
  rw [boundBy, hword, hbehind, hcs, parametersIn_append (by simpa using h)]
  simp

/-- The line that begins a guardrail function. -/
def signatureLine (name subject : String) : String :=
  "async def " ++ name ++ "(ctx: RunContextWrapper, agent: Agent, " ++ subject ++
    ": Any) -> GuardrailFunctionOutput:"

/-- The lines that begin a guardrail function bind three parameters.  The third is called
differently on the two sides. -/
theorem flatMap_boundBy_signature {name decorator subject : String} (h : '(' ∉ name.toList)
    (hdecorator : decorator ∈ ["@input_guardrail", "@output_guardrail"])
    (hsubject : subject ∈ ["input_data", "output_data"]) :
    [decorator, signatureLine name subject].flatMap boundBy = ["ctx", "agent", subject] := by
  have hfirst : boundBy decorator = [] := by
    rcases List.mem_pair.1 hdecorator with rfl | rfl
    · decide
    · decide
  have hparameters : parametersIn ("(ctx: RunContextWrapper, agent: Agent, " ++
      (subject ++ ": Any) -> GuardrailFunctionOutput:")).toList = ["ctx", "agent", subject] := by
    rcases List.mem_pair.1 hsubject with rfl | rfl
    · decide
    · decide
  rw [List.flatMap_cons, hfirst, List.flatMap_singleton, signatureLine, String.append_assoc,
    String.append_assoc, boundBy_signature h String.toList_append, hparameters, List.nil_append]

theorem docQuotes_not_mem_signature {decorator : String}
    (hdecorator : decorator ∈ ["@input_guardrail", "@output_guardrail"]) (name subject : String) :
    docQuotes ∉ [decorator, signatureLine name subject] := by
  have hfirst : ∀ s ∈ ["@input_guardrail", "@output_guardrail"], docQuotes ≠ s := by decide
  rw [List.mem_pair, not_or]
  refine ⟨hfirst decorator hdecorator, fun heq => ?_⟩
  simpa [docQuotes, indent, signatureLine] using congrArg (·.toList.head?) heq

end Block

/-- The tripwire logic of a guardrail is evaluated: there is some, and the checker's answers have a
class. -/
def Guard.Evaluates (q : Guard) : Prop := Text.strip q.tripwireLogic ≠ "" ∧ q.outputType ≠ none

instance (q : Guard) : Decidable q.Evaluates := inferInstanceAs (Decidable (_ ∧ _))

/-- The names that a guardrail function binds to decide whether it trips. -/
def Guard.tripwireNames (q : Guard) : List String :=
  if q.Evaluates then ["tripwire_logic", "tripwire_triggered", "e", "tripwire_triggered"]
  else ["tripwire_triggered"]

namespace Program

open Block

/-- The lines of a guardrail function before the checker is asked. -/
def askingLines (subject : String) : Block :=
  [indent ++ "# Run the internal checker agent",
    indent ++ "checker_input = f\"Data to check: \x7bstr(" ++ subject ++ ")\x7d\""]

/-- The line that asks the checker. -/
def askLine (checker : String) : String :=
  indent ++ "checker_result = await Runner.run(" ++ checker ++
    ", checker_input, context=ctx.context)"

/-- The lines that take up the answer of the checker. -/
def answerLines : Block :=
  ["", indent ++ "tripwire_triggered = False  # Default to not triggered",
    indent ++ "output_for_eval = checker_result.final_output " ++
      "if checker_result is not None else None",
    "", indent ++ "if isinstance(output_for_eval, BaseModel):"]

/-- The last lines of a guardrail function, for an answer that is no record. -/
def closingLines (missing other evaluated : String) : Block :=
  [indent ++ "elif output_for_eval is None:", deep ++ "print(" ++ missing ++ ")",
    deep ++ "tripwire_triggered = False", indent ++ "else:",
    deep ++ "print(" ++ other ++ ", type(output_for_eval).__name__)",
    deep ++ "tripwire_triggered = False", "",
    indent ++ "output_info = output_for_eval if output_for_eval is not None else " ++ evaluated,
    indent ++ "return GuardrailFunctionOutput(output_info=output_info, " ++
      "tripwire_triggered=tripwire_triggered)"]

/-- The parts of a guardrail function, in the order in which names are read off them. -/
theorem exists_guardBlock_eq (q : Guard) :
    ∃ decorator ∈ ["@input_guardrail", "@output_guardrail"],
    ∃ subject ∈ ["input_data", "output_data"], ∃ missing other evaluated,
      guardBlock q = [decorator, signatureLine q.name subject] ++ (describe q.description ++
        (askingLines subject ++ ([askLine q.checker] ++ (answerLines ++ (tripwireLines q ++
          closingLines missing other evaluated))))) := by
  -- the sides differ in the texts that the closing lines print; unification finds them
  cases hside : q.side with
  | input =>
    refine ⟨"@input_guardrail", List.mem_cons_self, "input_data", List.mem_cons_self, ?missing,
      ?other, ?evaluated, ?blocks⟩
    case blocks =>
      simp only [guardBlock, hside, signatureLine, askingLines, askLine, answerLines, closingLines,
        List.append_assoc, List.cons_append, List.nil_append]
      rfl
  | output =>
    refine ⟨"@output_guardrail", List.mem_cons_of_mem _ List.mem_cons_self, "output_data",
      List.mem_cons_of_mem _ List.mem_cons_self, ?missing, ?other, ?evaluated, ?blocks⟩
    case blocks =>
      simp only [guardBlock, hside, signatureLine, askingLines, askLine, answerLines, closingLines,
        List.append_assoc, List.cons_append, List.nil_append]

/-- How the lines begin before the checker is asked. -/
def askingStarts : List String :=
  [indent ++ "# Run the internal checker agent",
    indent ++ "checker_input = f\"Data to check: \x7bstr("]

/-- How the lines begin that take up the answer of the checker. -/
def answerStarts : List String :=
  ["", indent ++ "tripwire_triggered = False  # Default to not triggered",
    indent ++ "output_for_eval = checker_result.final_output ", "",
    indent ++ "if isinstance(output_for_eval, BaseModel):"]

/-- How the lines begin that decide whether a guardrail trips: they catch an exception where they
evaluate the logic. -/
def tripwireStarts (q : Guard) : List String :=
  if Text.strip q.tripwireLogic = "" then
    [deep ++ "# No tripwire logic provided for guardrail '", deep ++ "tripwire_triggered = False"]
  else if q.outputType = none then
    [deep ++ "# Tripwire logic is set but the checker agent declares no output schema. ",
      deep ++ "print(", deep ++ "tripwire_triggered = False"]
  else
    [deep ++ "tripwire_logic = ", deep ++ "try:",
      deep ++ indent ++ "tripwire_triggered = bool(eval(tripwire_logic, ",
      deep ++ "except Exception as e:", deep ++ indent ++ "print(",
      deep ++ indent ++ "tripwire_triggered = False"]

/-- How the last lines begin. -/
def closingStarts : List String :=
  [indent ++ "elif output_for_eval is None:", deep ++ "print(",
    deep ++ "tripwire_triggered = False", indent ++ "else:", deep ++ "print(",
    deep ++ "tripwire_triggered = False", "",
    indent ++ "output_info = output_for_eval if output_for_eval is not None else ",
    indent ++ "return GuardrailFunctionOutput(output_info=output_info, "]

theorem begins_askingLines (subject : String) :
    List.Forall₂ Begins askingStarts (askingLines subject) :=
  .cons (.self (by decide)) (.cons (.append₂ (by decide) _ _) .nil)

theorem begins_askLine (checker : String) :
    List.Forall₂ Begins [indent ++ "checker_result = await Runner.run("] [askLine checker] :=
  .cons (.append₂ (by decide) _ _) .nil

theorem begins_answerLines : List.Forall₂ Begins answerStarts answerLines :=
  .cons (.self (by decide)) (.cons (.self (by decide)) (.cons (.append (by decide) _)
    (.cons (.self (by decide)) (.cons (.self (by decide)) .nil))))

/-- How the lines begin that decide whether a guardrail trips.  Free text stands behind these
beginnings only. -/
theorem begins_tripwireLines (q : Guard) :
    List.Forall₂ Begins (tripwireStarts q) (tripwireLines q) := by
  by_cases hlogic : Text.strip q.tripwireLogic = ""
  · simp only [tripwireStarts, tripwireLines, if_pos hlogic]
    exact .cons (.append₂ (by decide) _ _) (.cons (.self (by decide)) .nil)
  · simp only [tripwireStarts, tripwireLines, if_neg hlogic]
    cases q.outputType with
    | none =>
      exact .cons (.append (by decide) _) (.cons (.append₂ (by decide) _ _)
        (.cons (.self (by decide)) .nil))
    | some t =>
      exact .cons (.append (by decide) _) (.cons (.self (by decide)) (.cons (.append (by decide) _)
        (.cons (.self (by decide)) (.cons (.append₂ (by decide) _ _)
          (.cons (.self (by decide)) .nil)))))

theorem begins_closingLines (missing other evaluated : String) :
    List.Forall₂ Begins closingStarts (closingLines missing other evaluated) :=
  .cons (.self (by decide)) (.cons (.append₂ (by decide) _ _) (.cons (.self (by decide)) (.cons
    (.self (by decide)) (.cons (.append₂ (by decide) _ _) (.cons (.self (by decide)) (.cons
      (.self (by decide)) (.cons (.append (by decide) _) (.cons (.append (by decide) _) .nil))))))))

/-- **The code of a guardrail function.**  Of a docstring only the line is left that it may be. -/
theorem exists_code_guardBlock (q : Guard) :
    ∃ decorator ∈ ["@input_guardrail", "@output_guardrail"],
    ∃ subject ∈ ["input_data", "output_data"], ∃ doc : Block, ∃ missing other evaluated,
      (∀ line ∈ doc, IsQuoted line) ∧
      codeFrom false (guardBlock q) = [decorator, signatureLine q.name subject] ++ (doc ++
        (askingLines subject ++ ([askLine q.checker] ++ (answerLines ++ (tripwireLines q ++
          closingLines missing other evaluated))))) := by
  obtain ⟨decorator, hdecorator, subject, hsubject, missing, other, evaluated, hblock⟩ :=
    exists_guardBlock_eq q
  obtain ⟨doc, hdoc, hcode⟩ := exists_code_describe q.description
  refine ⟨decorator, hdecorator, subject, hsubject, doc, missing, other, evaluated, hdoc, ?_⟩
  have hlast := codeFrom_append
    (docQuotes_not_mem_of_begins (begins_closingLines missing other evaluated)) []
  rw [List.append_nil, codeFrom, List.append_nil] at hlast
  rw [hblock, codeFrom_append (docQuotes_not_mem_signature hdecorator _ _), hcode,
    codeFrom_append (docQuotes_not_mem_of_begins (begins_askingLines _)),
    codeFrom_append (docQuotes_not_mem_of_begins (begins_askLine _)),
    codeFrom_append (docQuotes_not_mem_of_begins begins_answerLines),
    codeFrom_append (docQuotes_not_mem_of_begins (begins_tripwireLines q)), hlast]

theorem flatMap_tripwireStarts (q : Guard) :
    (tripwireStarts q).flatMap boundBy = q.tripwireNames := by
  unfold tripwireStarts Guard.tripwireNames
  by_cases hlogic : Text.strip q.tripwireLogic = ""
  · rw [if_pos hlogic, if_neg fun h => h.1 hlogic]
    decide
  · by_cases htype : q.outputType = none
    · rw [if_neg hlogic, if_pos htype, if_neg fun h => h.2 htype]
      decide
    · rw [if_neg hlogic, if_neg htype, if_pos ⟨hlogic, htype⟩]
      decide

/-- The names that a guardrail function binds, in the order of its lines: its parameters, its local
variables, and what the evaluation of the logic needs. -/
theorem bound_guardBlock {q : Guard} (h : '(' ∉ q.name.toList) :
    ∃ subject ∈ ["input_data", "output_data"], (guardBlock q).bound =
      ["ctx", "agent", subject] ++ (["checker_input", "checker_result", "tripwire_triggered",
        "output_for_eval"] ++ (q.tripwireNames ++
          ["tripwire_triggered", "tripwire_triggered", "output_info"])) := by
  obtain ⟨decorator, hdecorator, subject, hsubject, doc, missing, other, evaluated, hdoc, hcode⟩ :=
    exists_code_guardBlock q
  refine ⟨subject, hsubject, ?_⟩
  -- a docstring binds nothing, and of every other line it is enough to know how it begins
  have hsilent : doc.flatMap boundBy = [] :=
    List.flatMap_eq_nil_iff.2 fun line hline => (hdoc line hline).boundBy_eq_nil
  have hasking : askingStarts.flatMap boundBy = ["checker_input"] := by decide
  have hask : [indent ++ "checker_result = await Runner.run("].flatMap boundBy =
      ["checker_result"] := by
    decide
  have hanswer : answerStarts.flatMap boundBy = ["tripwire_triggered", "output_for_eval"] := by
    decide
  have hclosing : closingStarts.flatMap boundBy =
      ["tripwire_triggered", "tripwire_triggered", "output_info"] := by
    decide
  simp only [bound, boundFrom_eq, hcode, List.flatMap_append, hsilent,
    flatMap_boundBy_signature h hdecorator hsubject,
    flatMap_boundBy_of_begins (begins_askingLines _), hasking,
    flatMap_boundBy_of_begins (begins_askLine _), hask,
    flatMap_boundBy_of_begins begins_answerLines, hanswer,
    flatMap_boundBy_of_begins (begins_tripwireLines q), flatMap_tripwireStarts,
    flatMap_boundBy_of_begins (begins_closingLines _ _ _), hclosing]
  rfl

/-- Of the names that a guardrail function binds, two are not set aside. -/
theorem mem_bound_guardBlock_iff {q : Guard} (h : '(' ∉ q.name.toList) {s : String}
    (hs : s ∉ moduleNames) :
    s ∈ (guardBlock q).bound ↔ s = "output_info" ∨ s = "e" ∧ q.Evaluates := by
  obtain ⟨subject, hsubject, hbound⟩ := bound_guardBlock h
  -- all other names that the function binds belong to the module, and `s` does not
  have hset : ∀ t ∈ moduleNames, s ≠ t := fun t ht heq => hs (heq ▸ ht)
  have hsubject' : s ≠ subject := by
    refine hset subject ?_
    rcases List.mem_pair.1 hsubject with rfl | rfl
    · decide
    · decide
  have htripwire : s ∈ q.tripwireNames ↔ s = "e" ∧ q.Evaluates := by
    unfold Guard.tripwireNames
    split
    · next hevaluates =>
      simp [hevaluates, hset "tripwire_logic" (by decide), hset "tripwire_triggered" (by decide)]
    · next hevaluates =>
      simp [hevaluates, hset "tripwire_triggered" (by decide)]
  rw [hbound]
  simp only [List.mem_append, List.mem_cons, List.not_mem_nil, hsubject', htripwire,
    hset "ctx" (by decide), hset "agent" (by decide), hset "checker_input" (by decide),
    hset "checker_result" (by decide), hset "tripwire_triggered" (by decide),
    hset "output_for_eval" (by decide), or_false, false_or]
  exact or_comm

/-! ### The main function -/

/-- How the lines of a stanza begin. -/
def stanzaStarts : Stanza → List String
  | .call _ _ _ _ =>
    [indent ++ "print(", indent ++ "result = ", indent ++ "print(f\"Response from "]
  | .idle _ => [indent ++ "# Runner node \""]

/-- How the lines of a stanza begin, whatever the names and messages in them are. -/
theorem begins_stanzaLines (awaited : Bool) (c : Stanza) :
    List.Forall₂ Begins (stanzaStarts c) (stanzaLines awaited c) := by
  cases c with
  | call agent input context mode =>
    refine .cons (.append₂ (by decide) _ _) (.cons ?_ (.cons (.append₂ (by decide) _ _) .nil))
    rw [String.append_assoc, String.append_assoc, String.append_assoc, String.append_assoc,
      String.append_assoc]
    exact .append (by decide) _
  | idle label => exact .cons (.indented (by decide) _ _) .nil

/-- The lines of a stanza bind the result of the call. -/
theorem boundFrom_stanzaLines (awaited : Bool) (c : Stanza) {rest : List String} {b : Block}
    (hrest : boundFrom false b = rest) :
    boundFrom false (stanzaLines awaited c ++ b) =
      (if c.isCall then ["result"] else []) ++ rest := by
  refine boundFrom_append (stanzaStarts c) ?_ (begins_stanzaLines awaited c) hrest
  cases c with
  | call agent input context mode =>
    show [indent ++ "print(", indent ++ "result = ",
      indent ++ "print(f\"Response from "].flatMap boundBy = ["result"]
    decide
  | idle label =>
    show [indent ++ "# Runner node \""].flatMap boundBy = []
    decide

/-- The stanzas bind one name, that of the result, over and over again. -/
theorem eq_result_of_mem_stanzas {awaited : Bool} {cs : List Stanza} {s : String}
    (hs : s ∈ boundFrom false (cs.flatMap (stanzaLines awaited))) : s = "result" := by
  induction cs with
  | nil => exact absurd hs List.not_mem_nil
  | cons c cs ih =>
    rw [List.flatMap_cons, boundFrom_stanzaLines awaited c rfl, List.mem_append] at hs
    rcases hs with hs | hs
    · split at hs
      · exact List.mem_singleton.1 hs
      · exact absurd hs List.not_mem_nil
    · exact ih hs

/-- The remark that a runner has no agent binds nothing, whatever the runner is called. -/
theorem boundFrom_idleNotes (cs : List Stanza) : boundFrom false (idleNotes cs) = [] := by
  induction cs with
  | nil => rfl
  | cons c cs ih =>
    cases c with
    | call agent input context mode => exact ih
    | idle label =>
      change boundFrom false ([idleNote label] ++ idleNotes cs) = [] ++ []
      exact boundFrom_append ["# Runner node \""] (by decide)
        (.cons (.append₂ (by decide) _ _) .nil) ih

/-- The main function binds nothing but the results of its calls.  So it can capture the name of an
agent only if the agent were called `result`, which is a name of the module. -/
theorem eq_result_of_mem_mainBlocks {p : Program} {b : Block} (hb : b ∈ p.mainBlocks) {s : String}
    (hs : s ∈ b.bound) : s = "result" := by
  unfold mainBlocks at hb
  unfold bound at hs
  split at hb
  · -- the main function, and the block that starts it
    rcases List.mem_pair.1 hb with rfl | rfl
    · have hhead : boundFrom false (["# Main Execution",
          if p.isAwaited then "async def main():" else "def main():"] ++
            p.stanzas.flatMap (stanzaLines p.isAwaited)) =
          [] ++ boundFrom false (p.stanzas.flatMap (stanzaLines p.isAwaited)) := by
        cases p.isAwaited with
        | false =>
          exact boundFrom_append ["# Main Execution", "def main():"] (by decide)
            (.cons (.self (by decide)) (.cons (.self (by decide)) .nil)) rfl
        | true =>
          exact boundFrom_append ["# Main Execution", "async def main():"] (by decide)
            (.cons (.self (by decide)) (.cons (.self (by decide)) .nil)) rfl
      rw [hhead, List.nil_append] at hs
      exact eq_result_of_mem_stanzas hs
    · have hentry : boundFrom false ["if __name__ == \"__main__\":",
          indent ++ if p.isAwaited then "asyncio.run(main())" else "main()"] = [] := by
        cases p.isAwaited with
        | false => decide
        | true => decide
      rw [hentry] at hs
      exact absurd hs List.not_mem_nil
  · split at hb
    · exact absurd hb List.not_mem_nil
    · -- no runner calls an agent: there are only remarks
      rw [List.mem_singleton.1 hb] at hs
      have hnotes : boundFrom false (["# Main Execution"] ++ idleNotes p.stanzas) = [] ++ [] :=
        boundFrom_append ["# Main Execution"] (by decide) (.cons (.self (by decide)) .nil)
          (boundFrom_idleNotes p.stanzas)
      rw [List.singleton_append] at hnotes
      rw [hnotes] at hs
      exact absurd hs List.not_mem_nil

/-! ### Capture -/

/-- The block of a guardrail function stands in the program as it is: the title stands above the
block of a checker agent. -/
theorem guardBlock_mem_bodyBlocks {p : Program} {q : Checker × Guard} (hq : q ∈ p.guardrails) :
    guardBlock q.2 ∈ p.bodyBlocks := by
  simp only [bodyBlocks, List.mem_append]
  refine Or.inl (Or.inl (Or.inl (Or.inr ?_)))
  cases hguardrails : p.guardrails with
  | nil => exact absurd (hguardrails ▸ hq) List.not_mem_nil
  | cons first others =>
    rw [hguardrails] at hq
    refine List.mem_cons_of_mem _ ?_
    rcases List.mem_cons.1 hq with rfl | hq
    · exact List.mem_cons_self
    · exact List.mem_cons_of_mem _ (List.mem_flatMap.2 ⟨q, hq, by simp⟩)

variable {g : Graph} {links : List Link} {p : Program}

theorem Built.name_mem_issued (hb : Built g links p) {d : Definition} (hd : d ∈ p.definitions) :
    d.name ∈ (Naming.ofGraph g).issued := by
  obtain ⟨x, -, -, hx⟩ := exists_left_of_forall₂ hb.forall₂_binds hd
  exact Naming.mem_issued_of_nameOf? hx

/-- What a guardrail function is called, and what it calls, are names that were given. -/
theorem Built.guard_mem_issued (hb : Built g links p) {q : Checker × Guard}
    (hq : q ∈ p.guardrails) :
    q.2.name ∈ (Naming.ofGraph g).issued ∧ q.2.checker ∈ (Naming.ofGraph g).issued := by
  obtain ⟨y, -, hguardrail⟩ := exists_left_of_forall₂ hb.guardrails hq
  obtain ⟨hchecker, hname, -, hasks⟩ := nameOf?_of_guardrail hguardrail
  rw [hasks]
  exact ⟨Naming.mem_issued_of_nameOf? hname, Naming.mem_issued_of_nameOf? hchecker⟩

/-- What a stanza runs is a name that was given. -/
theorem Built.stanza_mem_issued (hb : Built g links p) {c : Stanza} (hc : c ∈ p.stanzas)
    {r : Role × String} (hr : r ∈ c.references) : r.2 ∈ (Naming.ofGraph g).issued := by
  obtain ⟨y, -, hstanza⟩ := exists_left_of_forall₂ hb.stanzas hc
  cases c with
  | call agent input context mode =>
    obtain ⟨a, -, hname⟩ := nameOf?_of_stanza hstanza
    rw [List.mem_singleton.1 hr]
    exact Naming.mem_issued_of_nameOf? hname
  | idle label => exact absurd hr List.not_mem_nil

/-- **Two names capture.**  In a program all names of definitions, of the agents that guardrail
functions ask, and of the agents that the main function runs, are names that were given.  Of these
names a guardrail function binds `output_info` for itself, and `e` where it evaluates tripwire
logic, but no other, and the main function binds none. -/
theorem captures_iff {m : Metadata} (hbuild : build g m = .ok p) :
    (∀ d ∈ p.definitions, d.name ∈ (Naming.ofGraph g).issued) ∧
      (∀ q ∈ p.guardrails, guardBlock q.2 ∈ p.bodyBlocks ∧
        q.2.checker ∈ (Naming.ofGraph g).issued ∧
        ∀ s ∈ (Naming.ofGraph g).issued,
          s ∈ (guardBlock q.2).bound ↔ s = "output_info" ∨ s = "e" ∧ q.2.Evaluates) ∧
      (∀ c ∈ p.stanzas, ∀ r ∈ c.references, r.2 ∈ (Naming.ofGraph g).issued) ∧
      ∀ b ∈ p.mainBlocks, b ∈ p.bodyBlocks ∧ ∀ s ∈ (Naming.ofGraph g).issued, s ∉ b.bound := by
  obtain ⟨links, -, hb⟩ := exists_built_of_build hbuild
  refine ⟨fun d hd => hb.name_mem_issued hd, fun q hq => ?_,
    fun c hc r hr => hb.stanza_mem_issued hc hr, fun b hblock => ⟨?_, fun s hs hbound => ?_⟩⟩
  · obtain ⟨hname, hchecker⟩ := hb.guard_mem_issued hq
    -- the parameters are read from the first parenthesis on, which is not part of the name
    have hlegal := (all_isNameChar_of_isLegal (Naming.usable_of_mem_issued hname).1.1).2
    have hparenthesis : '(' ∉ q.2.name.toList :=
      fun hmem => absurd (List.all_eq_true.1 hlegal '(' hmem) (by decide)
    exact ⟨guardBlock_mem_bodyBlocks hq, hchecker,
      fun s hs => mem_bound_guardBlock_iff hparenthesis (Naming.usable_of_mem_issued hs).2⟩
  · simp only [bodyBlocks, List.mem_append]
    exact Or.inl (Or.inr hblock)
  · rw [eq_result_of_mem_mainBlocks hblock hbound] at hs
    exact (Naming.usable_of_mem_issued hs).2 (by decide)

/-- An agent with two guardrails whose checkers are called like names of their functions. -/
def eclipsing : Graph :=
  { nodes := [
      ⟨"a", none, .agent { name := "Writer" }⟩,
      ⟨"g", none, .guardrail { name := "Length", checkerName := "Output Info" }⟩,
      ⟨"h", none, .guardrail { name := "Tone", side := .output, checkerName := "E"
                               checkerSchema := some { modelName := "Verdict" }
                               tripwireLogic := "output.rude" }⟩,
      ⟨"r", none, .runner { input := "Hello" }⟩]
    edges := [⟨"1", "g", "a"⟩, ⟨"2", "h", "a"⟩, ⟨"3", "a", "r"⟩] }

/-- Both checkers get the names that the functions of their guardrails bind for themselves. -/
theorem exists_build_eclipsing :
    ∃ p, build eclipsing {} = .ok p ∧
      p.guardrails.map (fun q => (q.2.name, q.2.checker, decide q.2.Evaluates)) =
        [("length", "output_info", false), ("tone", "e", true)] := by
  obtain ⟨links, p, -, hbuild, -⟩ :=
    exists_built (Graph.checkReferences_eq_ok_iff.1 rfl : eclipsing.Closed) (by decide) {}
  have hguardrails : (build eclipsing {}).map (fun p => p.guardrails.map fun q =>
      (q.2.name, q.2.checker, decide q.2.Evaluates)) =
        .ok [("length", "output_info", false), ("tone", "e", true)] := by
    decide +kernel
  rw [hbuild] at hguardrails
  exact ⟨p, hbuild, Except.ok.inj hguardrails⟩

/-- All names that were given, and what becomes of them in the two functions and in the main
function. -/
theorem captures_iff_eclipsing :
    ∃ p, build eclipsing {} = .ok p ∧
      (Naming.ofGraph eclipsing).issued =
        ["writer", "output_info", "length", "e", "tone", "verdict"] ∧
      (∀ q ∈ p.guardrails, ∀ s ∈ (Naming.ofGraph eclipsing).issued,
        s ∈ (guardBlock q.2).bound ↔ s = "output_info" ∨ s = "e" ∧ q.2.Evaluates) ∧
      ∀ b ∈ p.mainBlocks, ∀ s ∈ (Naming.ofGraph eclipsing).issued, s ∉ b.bound := by
  obtain ⟨p, hbuild, -⟩ := exists_build_eclipsing
  obtain ⟨-, hguards, -, hmain⟩ := captures_iff hbuild
  exact ⟨p, hbuild, by decide +kernel, fun q hq => (hguards q hq).2.2, fun b hb => (hmain b hb).2⟩

/-- Both checkers are out of reach where they are asked. -/
theorem checker_mem_bound_eclipsing :
    ∃ p, build eclipsing {} = .ok p ∧
      p.guardrails.map (·.2.checker) = ["output_info", "e"] ∧
      ∀ q ∈ p.guardrails, q.2.checker ∈ (guardBlock q.2).bound := by
  obtain ⟨p, hbuild, hguardrails⟩ := exists_build_eclipsing
  refine ⟨p, hbuild, ?_, fun q hq => ?_⟩
  · have hcheckers := congrArg (List.map (·.2.1)) hguardrails
    rwa [List.map_map] at hcheckers
  · have hmem := List.mem_map_of_mem (f := fun q : Checker × Guard =>
      (q.2.name, q.2.checker, decide q.2.Evaluates)) hq
    rw [hguardrails, List.mem_pair, Prod.mk.injEq, Prod.mk.injEq, Prod.mk.injEq, Prod.mk.injEq]
      at hmem
    rcases hmem with ⟨hname, hchecker, -⟩ | ⟨hname, hchecker, hevaluates⟩
    · rw [mem_bound_guardBlock_iff (hname ▸ by decide) (hchecker ▸ by decide)]
      exact Or.inl hchecker
    · rw [mem_bound_guardBlock_iff (hname ▸ by decide) (hchecker ▸ by decide)]
      exact Or.inr ⟨hchecker, of_decide_eq_true hevaluates⟩

end Program
end AgentFlow
