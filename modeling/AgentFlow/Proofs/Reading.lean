import AgentFlow.Proofs.Comment
import AgentFlow.Proofs.Quoting

/-!
# Agents read back

The block of an agent, and so that of a checker, is a call that binds a name: comments, the line
that begins the call, a line for each argument, and a parenthesis.  It is read back here without
passing anything over.  The readers guess what a text is made of and then compare the text with the
guess as it would be written, so that a text with anything else in it is not read at all.

## Main definitions

* `Block.Value`, `Block.value?`: what an argument is given, read off its text.
* `Block.argument?`: an argument, read off its line.
* `Block.AgentCall`, `Block.agent?`: the call that makes an agent, read off its block.
* `Block.AgentCall.listed?`: the names that a call lists under an argument.

## Main results

* `Block.names?_eq_some_iff`: names are read off exactly the text that lists them.
* `Block.agent?_eq_some_iff`: what blocks the call of an agent is read off.
* `Block.agent?_agentBlock`, `Block.agent?_checkerBlock`: **the text of an agent or a checker gives
  back all that it was given.**
-/

namespace AgentFlow

open Literal Identifier Program Text

namespace Block

variable {s t line key value : String} {names : List String} {cs : List Char}

/-! ### Lists of names -/

/-- A list of names as it is written. -/
def bracketed (names : List String) : String := "[" ++ String.intercalate ", " names ++ "]"

/-- The names in brackets, with commas between them; what else is there is passed over. -/
def namesIn (cs : List Char) : List String :=
  (((cs.filter (· ∉ ['[', ']', ' '])).splitOn ',').filter (· ≠ [])).map String.ofList

/-- The names that a text lists, if it is nothing but the list of them. -/
def names? (cs : List Char) : Option (List String) :=
  if (∀ s ∈ namesIn cs, isLegal s.toList = true) ∧ cs = (bracketed (namesIn cs)).toList then
    some (namesIn cs)
  else none

/-- Characters can be taken out of a joined text before it is joined. -/
theorem filter_intercalate {α : Type} (p : α → Bool) (sep : List α) (ls : List (List α)) :
    (sep.intercalate ls).filter p = (sep.filter p).intercalate (ls.map (List.filter p)) := by
  induction ls with
  | nil => rfl
  | cons l ls ih =>
    cases ls with
    | nil => simp
    | cons l' ls =>
      rw [List.map_cons] at ih
      rw [List.intercalate_cons_cons, List.map_cons, List.map_cons, List.intercalate_cons_cons,
        List.filter_append, List.filter_append, ih]

/-- A character that cannot stand in a name does not stand in one. -/
theorem not_mem_of_isLegal {c : Char} (hc : isNameChar c = false) (h : isLegal s.toList = true) :
    c ∉ s.toList := by
  intro hmem
  have hall := List.all_eq_true.1 (all_isNameChar_of_isLegal h).2 c hmem
  exact absurd (hc.symm.trans hall) (by simp)

/-- The names are found in the list of them.  Neither brackets nor commas and blanks may stand in a
name, so they only separate. -/
theorem namesIn_bracketed (hnames : ∀ s ∈ names, isLegal s.toList = true) :
    namesIn (bracketed names).toList = names := by
  have hplain : ∀ c, isNameChar c = false → ∀ l ∈ names.map String.toList, c ∉ l := by
    intro c hc l hl
    obtain ⟨s, hs, rfl⟩ := List.mem_map.1 hl
    exact not_mem_of_isLegal hc (hnames s hs)
  -- brackets and blanks stand between names, never in them
  have hsame : (names.map String.toList).map (List.filter (· ∉ ['[', ']', ' '])) =
      names.map String.toList := by
    refine (List.map_congr_left fun l hl => ?_).trans (List.map_id _)
    rw [id, List.filter_eq_self]
    intro c hc
    refine decide_eq_true fun hmem => ?_
    simp only [List.mem_cons, List.not_mem_nil, or_false] at hmem
    rcases hmem with rfl | rfl | rfl
    all_goals exact hplain _ (by decide) l hl hc
  have hfilter : (bracketed names).toList.filter (· ∉ ['[', ']', ' ']) =
      [','].intercalate (names.map String.toList) := by
    rw [bracketed, String.toList_append, String.toList_append, String.toList_intercalate,
      List.filter_append, List.filter_append, filter_intercalate, hsame]
    simp
  have hsplit : (([','].intercalate (names.map String.toList)).splitOn ',').filter (· ≠ []) =
      names.map String.toList := by
    cases hnil : names.map String.toList with
    | nil => rfl
    | cons l ls =>
      rw [← hnil, List.splitOn_intercalate ',' (hplain ',' (by decide)) (by simp [hnil]),
        List.filter_eq_self]
      intro l hl
      obtain ⟨s, hs, rfl⟩ := List.mem_map.1 hl
      simpa using (all_isNameChar_of_isLegal (hnames s hs)).1
  rw [namesIn, hfilter, hsplit]
  simp

/-- **Names are read off exactly the text that lists them.**  A text with anything else in it, be it
a quote or a second pair of brackets, is not read. -/
theorem names?_eq_some_iff :
    names? cs = some names ↔
      (∀ s ∈ names, isLegal s.toList = true) ∧ cs = (bracketed names).toList := by
  rw [names?]
  constructor
  · intro h
    split at h
    · next hcheck =>
      obtain rfl := Option.some.inj h
      exact hcheck
    · exact absurd h (by simp)
  · rintro ⟨hnames, rfl⟩
    rw [namesIn_bracketed hnames, if_pos ⟨hnames, rfl⟩]

/-! ### Values -/

/-- What an argument of a call is given: a name, a list of names or a text. -/
inductive Value where
  | name (s : String)
  | names (ss : List String)
  | text (s : String)
  deriving DecidableEq, Repr

/-- The text of a literal, if there is nothing behind the literal. -/
def text? (cs : List Char) : Option String :=
  match Source.readTriple (Source.withFeeds cs) with
  | some (value, []) => some (String.ofList value)
  | some (_, _ :: _) => none
  | none =>
    match Source.readQuoted cs with
    | some (value, []) => some (String.ofList value)
    | _ => none

/-- What an argument is given, read off its text. -/
def value? (cs : List Char) : Option Value :=
  if isLegal cs = true then some (.name (String.ofList cs))
  else match names? cs with
    | some names => some (.names names)
    | none => (text? cs).map .text

theorem value?_of_isLegal (h : isLegal s.toList = true) : value? s.toList = some (.name s) := by
  rw [value?, if_pos h, String.ofList_toList]

theorem not_isLegal_of_head? {c : Char} (h : cs.head? = some c) (hc : isNameStart c = false) :
    ¬ isLegal cs = true := by
  obtain ⟨ds, rfl⟩ := List.head?_eq_some_iff.1 h
  simp [isLegal, hc]

theorem value?_bracketed (hnames : ∀ s ∈ names, isLegal s.toList = true) :
    value? (bracketed names).toList = some (.names names) := by
  have hhead : (bracketed names).toList.head? = some '[' := by simp [bracketed]
  rw [value?, if_neg (not_isLegal_of_head? hhead (by decide)),
    names?_eq_some_iff.2 ⟨hnames, rfl⟩]

/-- A text that begins with a quote can only be a literal. -/
theorem value?_of_quote (h : cs.head? = some '"') : value? cs = (text? cs).map .text := by
  have hnames : names? cs = none := by
    rw [Option.eq_none_iff_forall_ne_some]
    intro names hsome
    obtain ⟨-, rfl⟩ := names?_eq_some_iff.1 hsome
    simp [bracketed] at h
  rw [value?, if_neg (not_isLegal_of_head? h (by decide)), hnames]

theorem value?_tripleQuoted (s : String) :
    value? (tripleQuoted s).toList = some (.text (Source.seen s)) := by
  have hread := Source.readTriple_tripleQuoted s []
  rw [List.append_nil] at hread
  rw [value?_of_quote (head?_tripleQuoted s), text?, hread]
  rfl

/-- Characters that need no escape are read as they are. -/
theorem scanQuoted_append_of_isLegal (h : cs.all isNameChar = true) (rest : List Char) :
    Source.scanQuoted (cs ++ '"' :: rest) = some (cs, rest) := by
  induction cs with
  | nil => rw [List.nil_append, Source.scanQuoted]
  | cons c cs ih =>
    rw [List.all_cons, Bool.and_eq_true] at h
    -- no character of a name means anything to the scanner
    have hne : ∀ d, isNameChar d = false → c ≠ d := by
      rintro d hd rfl
      exact absurd (hd.symm.trans h.1) (by simp)
    have hquote := hne '"' (by decide)
    have hslash := hne '\\' (by decide)
    rw [List.cons_append, Source.scanQuoted.eq_def]
    split
    · simp_all
    · simp_all
    · simp_all
    · simp_all
    · next hcons =>
      obtain ⟨rfl, rfl⟩ := List.cons.inj hcons
      rw [if_neg (by simp [hslash, hne '\n' (by decide), hne '\r' (by decide)]), ih h.2]
      rfl

/-- A name between quotes is read as a text, not as a name: the quote decides. -/
theorem value?_quoted (h : isLegal s.toList = true) :
    value? ("\"" ++ s ++ "\"").toList = some (.text s) := by
  obtain ⟨hne, hchars⟩ := all_isNameChar_of_isLegal h
  have hlist : ("\"" ++ s ++ "\"").toList = '"' :: (s.toList ++ '"' :: []) := by simp
  -- the first quote is the only one before the name, so this is not a literal in triple quotes
  have htriple : Source.readTriple (Source.withFeeds ("\"" ++ s ++ "\"").toList) = none := by
    obtain ⟨c, cs, hcs⟩ := List.exists_cons_of_ne_nil hne
    have hc : isNameChar c = true := by simp [hcs] at hchars; exact hchars.1
    have hquote : c ≠ '"' := by rintro rfl; exact absurd hc (by decide)
    have hreturn : c ≠ '\r' := by rintro rfl; exact absurd hc (by decide)
    rw [hlist, hcs, Source.withFeeds_cons_of_ne (by decide), List.cons_append,
      Source.withFeeds_cons_of_ne hreturn, Source.readTriple, Source.behind?, if_neg]
    · rfl
    · simp [tripleMark, Ne.symm hquote]
  have hquoted : Source.readQuoted ("\"" ++ s ++ "\"").toList = some (s.toList, []) := by
    have hbehind := Source.behind?_append ['"'] (s.toList ++ ['"'])
    rw [List.singleton_append] at hbehind
    rw [hlist, Source.readQuoted, hbehind, Option.bind_some, scanQuoted_append_of_isLegal hchars]
  rw [value?_of_quote (by simp), text?, htriple, hquoted]
  simp

/-! ### Arguments -/

/-- An argument as it is written. -/
def argumentLine (key value : String) : String := indent ++ key ++ "=" ++ value ++ ","

/-- An argument and what it is given, if the line is nothing else. -/
def argument? (line : String) : Option (String × Value) :=
  let cs := line.toList.drop indent.toList.length
  let key := cs.takeWhile isNameChar
  let value := ((cs.dropWhile isNameChar).drop 1).dropLast
  if line = argumentLine (String.ofList key) (String.ofList value) then
    (value? value).map (String.ofList key, ·)
  else none

/-- The key of an argument ends at the first sign of equality, so the value may be any text. -/
theorem argument?_argumentLine (hkey : key.toList.all isNameChar = true) (value : String) :
    argument? (argumentLine key value) = (value? value.toList).map (key, ·) := by
  have hchars := List.all_eq_true.1 hkey
  have hline : (argumentLine key value).toList =
      indent.toList ++ (key.toList ++ '=' :: (value.toList ++ [','])) := by
    simp [argumentLine]
  have hsign : isNameChar '=' = false := by decide
  simp only [argument?, hline, List.drop_left, List.takeWhile_append_of_pos hchars,
    List.dropWhile_append_of_pos hchars, List.takeWhile_cons, List.dropWhile_cons, hsign,
    List.append_nil, Bool.false_eq_true, if_false, List.drop_one, List.tail_cons,
    List.dropLast_concat, String.ofList_toList, if_true]

/-- **An argument is read off exactly the line that gives it**: indented, with a key, a value that
can be read and a comma at the end. -/
theorem argument?_eq_some_iff {x : String × Value} :
    argument? line = some x ↔ x.1.toList.all isNameChar = true ∧
      ∃ value, line = argumentLine x.1 value ∧ value? value.toList = some x.2 := by
  constructor
  · intro h
    simp only [argument?] at h
    split at h
    · next hline =>
      obtain ⟨v, hv, rfl⟩ := Option.map_eq_some_iff.1 h
      refine ⟨?_, _, hline, by rw [String.toList_ofList]; exact hv⟩
      rw [String.toList_ofList]
      exact List.all_takeWhile
    · exact absurd h (by simp)
  · rintro ⟨hkey, value, rfl, hvalue⟩
    rw [argument?_argumentLine hkey, hvalue]
    rfl

/-! ### Calls that make agents -/

/-- A call that makes an agent: the name that is bound, and the arguments in order. -/
structure AgentCall where
  name : String
  arguments : List (String × Value)
  deriving DecidableEq, Repr

/-- The names that a call lists under an argument: none if it does not give the argument.  There is
no answer where the argument is something else than a list. -/
def AgentCall.listed? (c : AgentCall) (argument : String) : Option (List String) :=
  match c.arguments.lookup argument with
  | none => some []
  | some (.names names) => some names
  | some _ => none

/-- The line is a comment from its first character on. -/
def IsRemark (line : String) : Prop := line.toList.head? = some '#' ∧ OneLine line

instance (line : String) : Decidable (IsRemark line) := inferInstanceAs (Decidable (_ ∧ _))

/-- The call that makes an agent, if the block is nothing else: comments, the line that begins the
call, a line for each argument, and the parenthesis that ends it. -/
def agent? (b : Block) : Option AgentCall :=
  match b.dropWhile (IsRemark ·) with
  | [] => none
  | line :: rest =>
    let name := line.toList.takeWhile isNameChar
    if isLegal name = true ∧ line = String.ofList name ++ " = Agent(" ∧
        rest.getLast? = some ")" then
      (rest.dropLast.mapM argument?).map (⟨String.ofList name, ·⟩)
    else none

theorem takeWhile_agent (h : isLegal s.toList = true) :
    (s ++ " = Agent(").toList.takeWhile isNameChar = s.toList := by
  have hchars := List.all_eq_true.1 (all_isNameChar_of_isLegal h).2
  have hblank : isNameChar ' ' = false := by decide
  rw [String.toList_append, List.takeWhile_append_of_pos hchars]
  simp [hblank]

/-- A line that begins a call is no comment. -/
theorem not_isRemark_of_isLegal (h : isLegal s.toList = true) (t : String) :
    ¬ IsRemark (s ++ t) := by
  rintro ⟨hhead, -⟩
  obtain ⟨c, cs, hcs⟩ := List.exists_cons_of_ne_nil (all_isNameChar_of_isLegal h).1
  rw [String.toList_append, hcs, List.cons_append, List.head?_cons, Option.some.injEq] at hhead
  exact not_isLegal_of_head? (by rw [hcs, hhead]; rfl) (by decide) h

/-- **The call of an agent is read off exactly the blocks that are made of it**: nothing stands in
such a block but comments, the beginning of the call, the arguments and the parenthesis. -/
theorem agent?_eq_some_iff {b : Block} {c : AgentCall} :
    agent? b = some c ↔ isLegal c.name.toList = true ∧ ∃ remarks lines : Block,
      (∀ line ∈ remarks, IsRemark line) ∧
      List.Forall₂ (fun line x => argument? line = some x) lines c.arguments ∧
      b = remarks ++ (c.name ++ " = Agent(") :: (lines ++ [")"]) := by
  constructor
  · intro h
    have hsplit := List.takeWhile_append_dropWhile (p := (IsRemark ·)) (l := b)
    unfold agent? at h
    split at h
    · exact absurd h (by simp)
    · next first rest hdrop =>
      simp only at h
      split at h
      · next hcheck =>
        obtain ⟨hlegal, hfirst, hlast⟩ := hcheck
        obtain ⟨arguments, harguments, rfl⟩ := Option.map_eq_some_iff.1 h
        refine ⟨by rw [String.toList_ofList]; exact hlegal, b.takeWhile (IsRemark ·), rest.dropLast,
          ?_, mapM_eq_some_iff.1 harguments, ?_⟩
        · intro line hline
          exact of_decide_eq_true (List.all_eq_true.1 List.all_takeWhile line hline)
        · rw [List.dropLast_append_getLast? ")" hlast, ← hfirst, ← hdrop, hsplit]
      · exact absurd h (by simp)
  · rintro ⟨hlegal, remarks, lines, hremarks, hlines, rfl⟩
    -- remarks end where the call begins, since a name does not begin like a remark
    have hall : ∀ line ∈ remarks, decide (IsRemark line) = true :=
      fun line hline => decide_eq_true (hremarks line hline)
    have hdrop : (remarks ++ (c.name ++ " = Agent(") :: (lines ++ [")"])).dropWhile (IsRemark ·) =
        (c.name ++ " = Agent(") :: (lines ++ [")"]) := by
      rw [List.dropWhile_append_of_pos hall, List.dropWhile_cons_of_neg]
      simpa using not_isRemark_of_isLegal hlegal _
    rw [agent?, hdrop]
    simp only [takeWhile_agent hlegal, String.ofList_toList]
    rw [if_pos ⟨hlegal, trivial, by simp⟩, List.dropLast_concat, mapM_eq_some_iff.2 hlines]
    rfl

/-- A title above the block is not read. -/
theorem agent?_append_of_isRemark {above : Block} (h : ∀ line ∈ above, IsRemark line) (b : Block) :
    agent? (above ++ b) = agent? b := by
  have hall : ∀ line ∈ above, decide (IsRemark line) = true :=
    fun line hline => decide_eq_true (h line hline)
  rw [agent?, agent?, List.dropWhile_append_of_pos hall]

/-! ### Agents and checkers -/

/-- What a line of a block gives, where the line is left out unless there is something to give. -/
def optional (key : String) (value : Option Value) : List (String × Value) :=
  value.toList.map (key, ·)

/-- The arguments that an agent is given. -/
def agentArguments (a : AgentDefinition) : List (String × Value) :=
  [("name", .text a.name),
    ("instructions", .text (Source.seen (orElse a.instructions defaultInstructions))),
    ("tools", .names a.tools), ("handoffs", .names a.handoffs)] ++
    optional "output_type" (a.outputType.map .name) ++
    optional "input_guardrails"
      (if a.inputGuardrails.isEmpty then none else some (.names a.inputGuardrails)) ++
    optional "output_guardrails"
      (if a.outputGuardrails.isEmpty then none else some (.names a.outputGuardrails)) ++
    optional "handoff_description"
      ((unlessBlank a.handoffDescription).map fun s => .text (Source.seen (strip s)))

/-- The arguments that a checker is given. -/
def checkerArguments (c : Checker) : List (String × Value) :=
  [("name", .text c.name),
    ("instructions", .text (Source.seen (orElse c.instructions defaultInstructions)))] ++
    optional "output_type" (c.outputType.map .name) ++
    [("tools", .names []), ("handoffs", .names [])]

/-- The line gives an argument. -/
def Gives (line : String) (x : String × Value) : Prop := argument? line = some x

theorem gives_of_eq {v : Value} (hkey : key.toList.all isNameChar = true)
    (hline : line = argumentLine key value) (hvalue : value? value.toList = some v) :
    Gives line (key, v) :=
  argument?_eq_some_iff.2 ⟨hkey, value, hline, hvalue⟩

theorem gives_name (h : isLegal s.toList = true) :
    Gives (indent ++ "name=\"" ++ s ++ "\",") ("name", .text s) := by
  refine gives_of_eq (by decide) ?_ (value?_quoted h)
  rw [← String.toList_inj]
  simp [argumentLine]

theorem gives_instructions (s : String) :
    Gives (indent ++ "instructions=" ++ tripleQuoted s ++ ",")
      ("instructions", .text (Source.seen s)) := by
  refine gives_of_eq (by decide) ?_ (value?_tripleQuoted s)
  rw [← String.toList_inj]
  simp [argumentLine]

theorem gives_handoffDescription (s : String) :
    Gives (indent ++ "handoff_description=" ++ tripleQuoted s ++ ",")
      ("handoff_description", .text (Source.seen s)) := by
  refine gives_of_eq (by decide) ?_ (value?_tripleQuoted s)
  rw [← String.toList_inj]
  simp [argumentLine]

theorem gives_outputType (h : isLegal s.toList = true) :
    Gives (indent ++ "output_type=" ++ s ++ ",") ("output_type", .name s) := by
  refine gives_of_eq (by decide) ?_ (value?_of_isLegal h)
  rw [← String.toList_inj]
  simp [argumentLine]

theorem gives_names (hkey : key.toList.all isNameChar = true)
    (hnames : ∀ s ∈ names, isLegal s.toList = true) :
    Gives (namesArgument key names) (key, .names names) := by
  refine gives_of_eq hkey ?_ (value?_bracketed hnames)
  rw [← String.toList_inj]
  simp [argumentLine, namesArgument, bracketed]

/-- A type of answers is left out if there is none. -/
theorem forall₂_outputType (o : Option String) : (∀ t ∈ o.toList, isLegal t.toList = true) →
    List.Forall₂ Gives (match o with
      | none => []
      | some t => [indent ++ "output_type=" ++ t ++ ","])
      (optional "output_type" (o.map .name)) := by
  intro h
  cases o with
  | none => exact .nil
  | some t => exact .cons (gives_outputType (h t (by simp))) .nil

/-- A list of names is left out if it is empty. -/
theorem forall₂_names (key : String) (hkey : key.toList.all isNameChar = true)
    (hnames : ∀ s ∈ names, isLegal s.toList = true) :
    List.Forall₂ Gives (if names.isEmpty then [] else [namesArgument key names])
      (optional key (if names.isEmpty then none else some (.names names))) := by
  split
  · exact .nil
  · exact .cons (gives_names hkey hnames) .nil

theorem forall₂_handoffDescription (o : Option String) :
    List.Forall₂ Gives (match o with
      | none => []
      | some s => [indent ++ "handoff_description=" ++ tripleQuoted (strip s) ++ ","])
      (optional "handoff_description" (o.map fun s => .text (Source.seen (strip s)))) := by
  cases o with
  | none => exact .nil
  | some s => exact .cons (gives_handoffDescription _) .nil

/-- **The text of an agent gives back all that the agent was given.** -/
theorem agent?_agentBlock {a : AgentDefinition} (hname : isLegal a.name.toList = true)
    (hlegal : ∀ r ∈ (Definition.agent a).references, isLegal r.2.toList = true) :
    agent? (agentBlock a) = some ⟨a.name, agentArguments a⟩ := by
  simp only [Definition.references, List.forall_mem_append, List.forall_mem_map] at hlegal
  obtain ⟨⟨⟨htools, hhandoffs⟩, htype⟩, hinput, houtput⟩ := hlegal
  have hremark : IsRemark ("# Agent: " ++ orElse (comment a.label) "My Agent" ++ " (variable: " ++
      a.name ++ ")") := ⟨by simp, oneLine_agentRemark hname a.label⟩
  -- four arguments are always given, the others only where there is something to give
  have hfirst : List.Forall₂ Gives
      [indent ++ "name=\"" ++ a.name ++ "\",",
        indent ++ "instructions=" ++
          tripleQuoted (orElse a.instructions defaultInstructions) ++ ",",
        namesArgument "tools" a.tools, namesArgument "handoffs" a.handoffs]
      [("name", .text a.name),
        ("instructions", .text (Source.seen (orElse a.instructions defaultInstructions))),
        ("tools", .names a.tools), ("handoffs", .names a.handoffs)] :=
    .cons (gives_name hname) (.cons (gives_instructions _) (.cons (gives_names (by decide) htools)
      (.cons (gives_names (by decide) hhandoffs) .nil)))
  have hlines := List.rel_append (List.rel_append (List.rel_append (List.rel_append hfirst
    (forall₂_outputType a.outputType htype))
    (forall₂_names "input_guardrails" (by decide) hinput))
    (forall₂_names "output_guardrails" (by decide) houtput))
    (forall₂_handoffDescription (unlessBlank a.handoffDescription))
  exact agent?_eq_some_iff.2 ⟨hname, [_], _, List.forall_mem_singleton.2 hremark, hlines, rfl⟩

/-- **The text of a checker gives back all that the checker was given.** -/
theorem agent?_checkerBlock {c : Checker} (hname : isLegal c.name.toList = true)
    (hlegal : ∀ r ∈ (Definition.checker c).references, isLegal r.2.toList = true) :
    agent? (checkerBlock c) = some ⟨c.name, checkerArguments c⟩ := by
  simp only [Definition.references, List.forall_mem_map] at hlegal
  have hremark : IsRemark ("# Internal Checker Agent for Guardrail: " ++ comment c.label) :=
    ⟨by simp, oneLine_checkerRemark c.label⟩
  have hfirst : List.Forall₂ Gives
      [indent ++ "name=\"" ++ c.name ++ "\",",
        indent ++ "instructions=" ++
          tripleQuoted (orElse c.instructions defaultInstructions) ++ ","]
      [("name", .text c.name),
        ("instructions", .text (Source.seen (orElse c.instructions defaultInstructions)))] :=
    .cons (gives_name hname) (.cons (gives_instructions _) .nil)
  -- a checker has neither tools nor handoffs, and says so
  have hempty : ∀ key, key.toList.all isNameChar = true →
      Gives (namesArgument key []) (key, .names []) :=
    fun key hkey => gives_names hkey (by simp)
  have hlast : List.Forall₂ Gives [namesArgument "tools" [], namesArgument "handoffs" []]
      [("tools", .names []), ("handoffs", .names [])] :=
    .cons (hempty "tools" (by decide)) (.cons (hempty "handoffs" (by decide)) .nil)
  have hlines := List.rel_append (List.rel_append hfirst
    (forall₂_outputType c.outputType hlegal)) hlast
  have hwritten : [namesArgument "tools" [], namesArgument "handoffs" []] =
      [indent ++ "tools=[],", indent ++ "handoffs=[],"] := by decide
  rw [hwritten] at hlines
  refine agent?_eq_some_iff.2 ⟨hname, [_], _, List.forall_mem_singleton.2 hremark, hlines, ?_⟩
  exact (List.append_assoc _ [indent ++ "tools=[],", indent ++ "handoffs=[],"] [")"]).symm

/-! ### Arguments by their names -/

/-- The arguments of agents, in the order in which they are given. -/
def argumentNames : List String :=
  ["name", "instructions", "tools", "handoffs", "output_type", "input_guardrails",
    "output_guardrails", "handoff_description"]

theorem map_fst_optional_sublist (key : String) (value : Option Value) :
    ((optional key value).map (·.1)).Sublist [key] := by
  cases value with
  | none => exact List.nil_sublist _
  | some v => exact List.Sublist.refl _

/-- No argument is given twice. -/
theorem nodup_agentArguments (a : AgentDefinition) : ((agentArguments a).map (·.1)).Nodup := by
  have hsub : ((agentArguments a).map (·.1)).Sublist argumentNames := by
    simp only [agentArguments, List.map_append]
    exact ((((List.Sublist.refl _).append (map_fst_optional_sublist _ _)).append
      (map_fst_optional_sublist _ _)).append (map_fst_optional_sublist _ _)).append
      (map_fst_optional_sublist _ _)
  have hnodup : argumentNames.Nodup := by decide
  exact hnodup.sublist hsub

theorem nodup_checkerArguments (c : Checker) : ((checkerArguments c).map (·.1)).Nodup := by
  have hsub : ((checkerArguments c).map (·.1)).Sublist
      ["name", "instructions", "output_type", "tools", "handoffs"] := by
    simp only [checkerArguments, List.map_append]
    exact ((List.Sublist.refl _).append (map_fst_optional_sublist _ _)).append (List.Sublist.refl _)
  exact List.Nodup.sublist hsub (by decide)

theorem lookup_optional (key argument : String) (value : Option Value) :
    (optional key value).lookup argument = if argument = key then value else none := by
  cases value with
  | none => simp [optional]
  | some v =>
    by_cases h : argument = key
    · simp [optional, h]
    · simp [optional, h]

/-- What an agent is given is found under the names of the arguments. -/
theorem lookup_agentArguments (a : AgentDefinition) :
    (agentArguments a).lookup "tools" = some (.names a.tools) ∧
      (agentArguments a).lookup "handoffs" = some (.names a.handoffs) ∧
      (agentArguments a).lookup "output_type" = a.outputType.map .name ∧
      (agentArguments a).lookup "input_guardrails" =
        (if a.inputGuardrails.isEmpty then none else some (.names a.inputGuardrails)) ∧
      (agentArguments a).lookup "output_guardrails" =
        (if a.outputGuardrails.isEmpty then none else some (.names a.outputGuardrails)) := by
  simp [agentArguments, List.lookup_cons, List.lookup_append, lookup_optional]

theorem lookup_checkerArguments (c : Checker) :
    (checkerArguments c).lookup "output_type" = c.outputType.map .name := by
  simp [checkerArguments, List.lookup_cons, List.lookup_append, lookup_optional]

end Block
end AgentFlow
