import AgentFlow.Text.Blank
import AgentFlow.Text.Digit

/-!
# Identifiers of emitted programs

Display names are free text; the programs need identifiers.  A name is made small, its blanks
become underscores, and whatever is not a small letter, a digit or an underscore is dropped.  If
nothing usable remains, a stem and a seed take its place.  Identifiers are issued against a
namespace, with a number appended where the name is taken.

## Main definitions

* `Identifier.sanitize`: what remains of a display name.
* `Identifier.base`: the name that is asked for first.
* `Identifier.candidate`, `Identifier.firstFree`: the numbered names, and the first free one.
* `Identifier.issue`: issues a name and marks it as taken.
* `Identifier.moduleNames`: the names that every emitted program uses itself.
-/

namespace AgentFlow

namespace Identifier

/-- The names that are taken. -/
abbrev Namespace := List String

/-! ### Sanitizing -/

/-- Characters that may stand in an identifier. -/
def isNameChar (c : Char) : Bool :=
  ('a' ≤ c && c ≤ 'z') || ('0' ≤ c && c ≤ '9') || c = '_'

/-- What a character leaves in an identifier.  Besides the ASCII capitals only two characters have
a lower-case form with an ASCII letter in it: I with a dot above (U+0130) and the Kelvin sign
(U+212A). -/
def remains (c : Char) : List Char :=
  if isNameChar c then [c]
  else if 'A' ≤ c ∧ c ≤ 'Z' then [c.toLower]
  else if c = '\u0130' then ['i']
  else if c = '\u212a' then ['k']
  else []

/-- Turns every run of blanks into one underscore; the flag tells whether a run is open. -/
def joinBlanks : Bool → List Char → List Char
  | _, [] => []
  | inRun, c :: cs =>
    if isBlank c then
      if inRun then joinBlanks true cs else '_' :: joinBlanks true cs
    else c :: joinBlanks false cs

/-- What remains of a display name, without underscores at its ends. -/
def sanitizeChars (cs : List Char) : List Char :=
  Chars.trim (· = '_') ((joinBlanks false cs).flatMap remains)

/-- What remains of a display name; a name that is not there leaves nothing. -/
def sanitize (name : Option String) : String :=
  String.ofList (sanitizeChars (name.getD "").toList)

/-! ### The name that is asked for -/

/-- The words that the language of the emitted programs keeps for itself. -/
def keywords : List String :=
  ["False", "None", "True", "and", "as", "assert", "async", "await", "break", "class", "continue",
    "def", "del", "elif", "else", "except", "finally", "for", "from", "global", "if", "import",
    "in", "is", "lambda", "nonlocal", "not", "or", "pass", "raise", "return", "try", "while",
    "with", "yield"]

/-- The most characters of a name made of a stem and a seed. -/
def fallbackLength : Nat := 15

/-- Puts an underscore in front of a leading digit. -/
def guardDigit : List Char → List Char
  | [] => []
  | c :: cs => if isDigit c then '_' :: c :: cs else c :: cs

/-- The text is no name by itself. -/
def isVoid (cs : List Char) : Bool :=
  cs = [] || cs = ['_']

/-- The name made of a stem and a seed. -/
def fallback (stem : String) (seed : Option String) : String :=
  let s := sanitizeChars (seed.getD "").toList
  let name := guardDigit ((stem.toList ++ '_' :: s).take fallbackLength)
  if s.isEmpty || isVoid name then stem ++ "_fallback" else String.ofList name

/-- The name that is asked for first: the sanitized display name, or the one made of stem and seed
if that is empty or a keyword. -/
def base (name : Option String) (stem : String) (seed : Option String) : String :=
  let own := guardDigit (sanitizeChars (name.getD "").toList)
  if isVoid own || String.ofList own ∈ keywords then fallback stem seed else String.ofList own

/-! ### Issuing -/

/-- The names that are tried in turn: the base, then the base with a number. -/
def candidate (base : String) : Nat → String
  | 0 => base
  | k + 1 => base ++ "_" ++ toString (k + 1)

/-- The first candidate that is not taken.  One of the first `taken.length + 1` is free. -/
def firstFree (taken : Namespace) (base : String) : String :=
  let free := (List.range (taken.length + 1)).find? fun k => candidate base k ∉ taken
  candidate base (free.getD 0)

/-- Issues a name for a display name and adds it to the namespace. -/
def issue (taken : Namespace) (name : Option String) (stem : String) (seed : Option String) :
    String × Namespace :=
  let id := firstFree taken (base name stem seed)
  (id, taken ++ [id])

/-! ### Names that programs use themselves -/

/-- Names that an emitted program binds at its top level or inside its functions. -/
def reservedNames : List String :=
  ["asyncio", "main", "function_tool", "input_guardrail", "output_guardrail", "ctx", "agent",
    "input_data", "output_data", "checker_input", "checker_result", "output_for_eval",
    "tripwire_logic", "tripwire_triggered", "result"]

/-- Functions and types that an emitted program uses without importing them. -/
def builtinNames : List String :=
  ["print", "str", "bool", "int", "float", "list", "dict", "eval", "isinstance", "type"]

/-- The namespace that the top-level names of a program are issued against. -/
def moduleNames : Namespace := reservedNames ++ builtinNames

end Identifier

end AgentFlow
