import AgentFlow.Decode.Checked
import AgentFlow.Json.Basic
import AgentFlow.Number.Decimal
import AgentFlow.Workflow.Kind

/-!
# Reading values leniently

What may stand for a text, a truth value, a number, a choice, a list or a record, and how the
members of a record are found.  A member has two spellings, the editor's and the plain one; both
are taken, and the editor's wins.

## Main definitions

* `FieldName`, `Spelling`, `Members.find?`: the spellings of a member.
* `Channel`: where a value comes from, which decides how a value that is no object is refused.
* `Read.text`, `Read.truth`, `Read.number`, `Read.choice`, `Read.items`, `Read.record`.
* `Read.required`, `Read.optional`: the members of a record.
-/

namespace AgentFlow

/-- Which spelling of the members is written. -/
inductive Spelling where
  /-- The one that the editor uses, and that files have. -/
  | editor
  /-- The plain one. -/
  | plain
  deriving DecidableEq, Repr

/-- The two spellings of a member. -/
structure FieldName where
  /-- The editor's spelling. -/
  editor : String
  /-- The plain spelling. -/
  plain : String
  deriving DecidableEq, Repr

/-- A member with a single spelling. -/
def FieldName.same (name : String) : FieldName := ⟨name, name⟩

/-- The member as it is written. -/
def FieldName.spell (f : FieldName) : Spelling → String
  | .editor => f.editor
  | .plain => f.plain

/-- The key under which a member is found, with its value. -/
def Members.find? (m : Members) (f : FieldName) : Option (String × Json) :=
  match m.get? f.editor with
  | some v => some (f.editor, v)
  | none => (m.get? f.plain).map (f.plain, ·)

/-- Where a value comes from. -/
inductive Channel where
  /-- A saved document. -/
  | document
  /-- The body of a request. -/
  | request
  deriving DecidableEq, Repr

namespace Read

variable {α : Type}

/-- A text. -/
def text : Json → Checked String
  | .text s => .valid s
  | v => .refuse .notText v

/-- `null`, or what a reader takes. -/
def nullable (read : Json → Checked α) : Json → Checked (Option α)
  | .null => .valid none
  | v => some <$> read v

/-- The texts that stand for no. -/
def noWords : List String := ["0", "off", "f", "false", "n", "no"]

/-- The texts that stand for yes. -/
def yesWords : List String := ["1", "on", "t", "true", "y", "yes"]

/-- The integers zero and one as truth values; `v` is the value that the integer was given by. -/
def truthOfInt (v : Json) (n : Int) : Checked Bool :=
  if n = 0 then .valid false
  else if n = 1 then .valid true
  else .refuse .unreadableTruth v

/-- A truth value, or an integer or text that stands for one.  Only integers of 64 bits are
considered. -/
def truth (v : Json) : Checked Bool :=
  match v with
  | .bool b => .valid b
  | .int n => if -Int.pow 2 63 ≤ n ∧ n < Int.pow 2 63 then truthOfInt v n else .refuse .notTruth v
  | .float x =>
    match x.toInt? with
    | some n => if -Int.pow 2 63 < n ∧ n < Int.pow 2 63 then truthOfInt v n else .refuse .notTruth v
    | none => .refuse .notTruth v
  | .text s =>
    let word := String.ofList (Chars.lowerAscii s.toList)
    if word ∈ noWords then .valid false
    else if word ∈ yesWords then .valid true
    else .refuse .unreadableTruth v
  | _ => .refuse .notTruth v

/-- A number, or a truth value or text that stands for one. -/
def number (v : Json) : Checked Binary64 :=
  match v with
  | .bool b => .valid (if b then .one else .zero)
  | .int n =>
    match Binary64.ofInt? n with
    | some x => .valid x
    | none => .refuse .notNumber v
  | .float x => .valid x
  | .text s =>
    match Binary64.ofText? s with
    | some x => .valid x
    | none => .refuse .unreadableNumber v
  | _ => .refuse .notNumber v

/-- One of the named choices. -/
def choice (α : Type) [Choice α] (v : Json) : Checked α :=
  match v with
  | .text s =>
    match Choice.ofName? s with
    | some a => .valid a
    | none => .refuse (.notChoice (Choice.names α)) v
  | _ => .refuse (.notChoice (Choice.names α)) v

/-- Exactly one text. -/
def literal (expected : String) (v : Json) : Checked Unit :=
  match v with
  | .text s => if s = expected then .valid () else .refuse (.notLiteral expected) v
  | _ => .refuse (.notLiteral expected) v

/-- The items of an array from an index on. -/
def itemsFrom (read : Json → Checked α) : Nat → List Json → Checked (List α)
  | _, [] => .valid []
  | i, v :: vs => List.cons <$> (read v).under (.index i) <*> itemsFrom read (i + 1) vs

/-- An array. -/
def items (read : Json → Checked α) : Json → Checked (List α)
  | .list vs => itemsFrom read 0 vs
  | v => .refuse .notList v

/-- How a value that should be a record is refused if it is no object. -/
def recordCause (ch : Channel) (name : String) : Cause :=
  match ch with
  | .document => .notRecord name
  | .request => .notObject

/-- A record with the given name. -/
def record (ch : Channel) (name : String) (read : Members → Checked α) : Json → Checked α
  | .object m => read m
  | v => .refuse (recordCause ch name) v

/-- A member that must be there. -/
def required (m : Members) (f : FieldName) (read : Json → Checked α) : Checked α :=
  match m.find? f with
  | some (key, v) => (read v).under (.key key)
  | none => .invalid [{ cause := .missing, path := [.key f.editor], part := .object m }]

/-- A member that may be left out. -/
def optional (m : Members) (f : FieldName) (default : α) (read : Json → Checked α) : Checked α :=
  match m.find? f with
  | some (key, v) => (read v).under (.key key)
  | none => .valid default

end Read

end AgentFlow
