import AgentFlow.Json.Basic
import AgentFlow.Number.Decimal
import AgentFlow.Text.Hex
import AgentFlow.Text.Utf16

/-!
# Reading JSON

A reader for JSON text that says where a malformed text goes wrong.  Besides standard JSON it
takes `NaN`, `Infinity` and `-Infinity`.  Of members with one key the last value counts.

Every reading function works on the rest of the text and gives back what is left with the
proof that it is shorter, which is why reading ends.  A fault carries the rest of the text at
the place it complains about; `Json.readWithin` turns that into an offset.

## Main definitions

* `Json.ReadError`: why a text is not JSON.
* `Json.readWithin`, `Json.read`: the value of a text.
-/

namespace AgentFlow

namespace Json

/-- Why a text cannot be read. -/
inductive ReadError where
  /-- The text is malformed at this offset, counted in characters. -/
  | malformed (offset : Nat)
  /-- An integer has more digits than are allowed. -/
  | oversized
  /-- Arrays and objects are nested deeper than is allowed. -/
  | tooDeep
  deriving DecidableEq, Repr

namespace Reader

/-- The most digits an integer may have. -/
def maxIntegerDigits : Nat := 4300

/-- How deep arrays and objects may be nested, unless a reader says otherwise. -/
def maxDepth : Nat := 950

/-- A fault, with the rest of the text where it was found. -/
inductive Fault where
  /-- Something else was expected here. -/
  | malformed (rest : List Char)
  /-- An integer is too long. -/
  | oversized
  /-- The nesting is too deep. -/
  | tooDeep

/-- What is left of a text after a piece of it was read. -/
abbrev Rest (s : List Char) := { r : List Char // r.length < s.length }

/-- Makes a rest of a shorter text a rest of a longer one. -/
def Rest.lift {s t : List Char} (r : Rest s) (h : s.length ≤ t.length) : Rest t :=
  ⟨r.1, Nat.lt_of_lt_of_le r.2 h⟩

/-- The blanks between the parts of a value. -/
def isGap (c : Char) : Bool :=
  c = ' ' || c = '\t' || c = '\n' || c = '\r'

/-- The text without leading gaps. -/
def skip (s : List Char) : List Char :=
  s.dropWhile isGap

/-- Skipping gaps does not lengthen a text. -/
theorem length_skip_le (s : List Char) : (skip s).length ≤ s.length := by
  have h := congrArg List.length (List.takeWhile_append_dropWhile (p := isGap) (l := s))
  rw [List.length_append] at h
  simp only [skip]
  omega

/-- What stands after the first character behind the gaps is shorter than the text. -/
theorem length_lt_of_skip {s r : List Char} {c : Char} (h : skip s = c :: r) :
    r.length < s.length := by
  have := length_skip_le s
  rw [h, List.length_cons] at this
  omega

/-! ### Texts -/

/-- The character that a backslash and a letter stand for. -/
def simpleEscape? : Char → Option Char
  | '"' => some '"'
  | '\\' => some '\\'
  | '/' => some '/'
  | 'b' => some '\x08'
  | 'f' => some '\x0c'
  | 'n' => some '\n'
  | 'r' => some '\r'
  | 't' => some '\t'
  | _ => none

/-- Reads a text up to its closing quote.  `start` is the text from the opening quote on and
`done` what was read so far, in reverse. -/
def readText (start : List Char) (s done : List Char) : Except Fault (String × Rest s) :=
  match s with
  | [] => .error (.malformed start)
  | '"' :: r => .ok (String.ofList done.reverse, ⟨r, by simp⟩)
  | ['\\'] => .error (.malformed start)
  | '\\' :: 'u' :: a :: b :: c :: d :: x :: r =>
    match hexQuad? a b c d with
    | none => .error (.malformed ('u' :: a :: b :: c :: d :: x :: r))
    | some high =>
      if isHighSurrogate high then
        -- the other half is looked for only if something follows it, as behind any escape
        match x, r with
        | '\\', 'u' :: a' :: b' :: c' :: d' :: y :: r' =>
          match hexQuad? a' b' c' d' with
          | none => .error (.malformed ('u' :: a' :: b' :: c' :: d' :: y :: r'))
          | some low =>
            if isLowSurrogate low then
              (readText start (y :: r') (pairChar high low :: done)).map fun p =>
                (p.1, p.2.lift (by simp))
            else
              (readText start ('\\' :: 'u' :: a' :: b' :: c' :: d' :: y :: r')
                (unitChar high :: done)).map fun p => (p.1, p.2.lift (by simp))
        | x, r =>
          (readText start (x :: r) (unitChar high :: done)).map fun p =>
            (p.1, p.2.lift (by simp))
      else
        (readText start (x :: r) (unitChar high :: done)).map fun p =>
          (p.1, p.2.lift (by simp))
  | '\\' :: 'u' :: r => .error (.malformed ('u' :: r))
  | '\\' :: e :: r =>
    match simpleEscape? e with
    | none => .error (.malformed ('\\' :: e :: r))
    | some c => (readText start r (c :: done)).map fun p => (p.1, p.2.lift (by simp; omega))
  | c :: r =>
    if c.toNat < 0x20 then .error (.malformed (c :: r))
    else (readText start r (c :: done)).map fun p => (p.1, p.2.lift (by simp))
termination_by s.length
decreasing_by all_goals (simp only [List.length_cons]; omega)

/-! ### Numbers -/

/-- Splits off a point and the digits after it, if at least one digit follows. -/
def spanFraction : List Char → List Char × List Char
  | '.' :: c :: r =>
    if isDecimalDigit c then (c :: r.takeWhile isDecimalDigit, r.dropWhile isDecimalDigit)
    else ([], '.' :: c :: r)
  | r => ([], r)

/-- Splits off an exponent, if it has at least one digit. -/
def spanExponent (s : List Char) : Option Int × List Char :=
  match s with
  | e :: r =>
    if e = 'e' ∨ e = 'E' then
      let (negative, t) := Chars.spanSign r
      let (digits, rest) := Chars.spanDigits t
      if digits.isEmpty then (none, s)
      else
        let n : Int := Chars.digitsValue digits
        (some (if negative then -n else n), rest)
    else (none, s)
  | [] => (none, [])

/-- The integer part of a number: a single zero, or digits that do not start with one. -/
def spanInteger : List Char → List Char × List Char
  | '0' :: r => (['0'], r)
  | s => Chars.spanDigits s

/-- Reads a number. -/
def readNumber (s : List Char) : Except Fault (Json × Rest s) :=
  let (negative, t) :=
    match s with
    | '-' :: t => (true, t)
    | t => (false, t)
  let (whole, afterWhole) := spanInteger t
  if whole.isEmpty then .error (.malformed s)
  else
    let (fraction, afterFraction) := spanFraction afterWhole
    let (exponent, rest) := spanExponent afterFraction
    if h : rest.length < s.length then
      if fraction.isEmpty && exponent.isNone then
        if maxIntegerDigits < whole.length then .error .oversized
        else
          let n : Int := Chars.digitsValue whole
          .ok (.int (if negative then -n else n), ⟨rest, h⟩)
      else
        let digits := Chars.digitsValue (whole ++ fraction)
        let x := Binary64.ofDecimal negative digits (exponent.getD 0 - fraction.length)
        .ok (.float x, ⟨rest, h⟩)
    else .error (.malformed s)

/-- The words that stand for a value of their own.  None begins with another one. -/
def words : List (List Char × Json) :=
  [("null".toList, .null), ("true".toList, .bool true), ("false".toList, .bool false),
    ("NaN".toList, .float (Binary64.quietNaN false)),
    ("Infinity".toList, .float (Binary64.infinity false)),
    ("-Infinity".toList, .float (Binary64.infinity true))]

/-- Reads a word or a number. -/
def readScalar (s : List Char) : Except Fault (Json × Rest s) :=
  match words.find? fun w => w.1.isPrefixOf s with
  | some (w, v) =>
    if h : (s.drop w.length).length < s.length then .ok (v, ⟨s.drop w.length, h⟩)
    else .error (.malformed s)
  | none => readNumber s

/-! ### Values -/

mutual

/-- Reads a value that starts at the first character.  Arrays and objects may be nested `room`
deep. -/
def readValue (room : Nat) (s : List Char) : Except Fault (Json × Rest s) :=
  match s with
  | '"' :: t =>
    (readText ('"' :: t) t []).map fun p => (.text p.1, p.2.lift (by simp))
  | '[' :: t =>
    have ht := length_skip_le t
    if room = 0 then .error .tooDeep
    else
      match hs : skip t with
      | ']' :: r => .ok (.list [], ⟨r, by have := length_lt_of_skip hs; simp; omega⟩)
      | _ =>
        (readItems (room - 1) (skip t) []).map fun p => (.list p.1, p.2.lift (by simp; omega))
  | '{' :: t =>
    have ht := length_skip_le t
    if room = 0 then .error .tooDeep
    else
      match hs : skip t with
      | '}' :: r => .ok (.object [], ⟨r, by have := length_lt_of_skip hs; simp; omega⟩)
      | _ =>
        (readMembers (room - 1) (skip t) []).map fun p => (.object p.1, p.2.lift (by simp; omega))
  | s => readScalar s
termination_by (s.length, 0)

/-- Reads the items of an array up to its closing bracket; `done` are those before, in
reverse. -/
def readItems (room : Nat) (s : List Char) (done : List Json) :
    Except Fault (List Json × Rest s) :=
  match readValue room s with
  | .error e => .error e
  | .ok (v, ⟨t, ht⟩) =>
    match hs : skip t with
    | ']' :: r =>
      .ok ((v :: done).reverse, ⟨r, by have := length_lt_of_skip hs; omega⟩)
    | ',' :: r =>
      have hr := length_lt_of_skip hs
      have hu := length_skip_le r
      (readItems room (skip r) (v :: done)).map fun p => (p.1, p.2.lift (by omega))
    | u => .error (.malformed u)
termination_by (s.length, 1)

/-- Reads the members of an object up to its closing brace. -/
def readMembers (room : Nat) (s : List Char) (done : Members) :
    Except Fault (Members × Rest s) :=
  match s with
  | '"' :: k =>
    match readText ('"' :: k) k [] with
    | .error e => .error e
    | .ok (key, ⟨t, ht⟩) =>
      match hs : skip t with
      | ':' :: r =>
        have hr := length_lt_of_skip hs
        have hu := length_skip_le r
        match readValue room (skip r) with
        | .error e => .error e
        | .ok (v, ⟨t', ht'⟩) =>
          match hs' : skip t' with
          | '}' :: r' =>
            .ok (done.put key v, ⟨r', by have := length_lt_of_skip hs'; simp; omega⟩)
          | ',' :: r' =>
            have hr' := length_lt_of_skip hs'
            have hu' := length_skip_le r'
            (readMembers room (skip r') (done.put key v)).map fun p =>
              (p.1, p.2.lift (by simp; omega))
          | u' => .error (.malformed u')
      | u => .error (.malformed u)
  | s => .error (.malformed s)
termination_by (s.length, 1)

end

end Reader

open Reader in
/-- The value of a text whose arrays and objects are nested at most `room` deep. -/
def readWithin (room : Nat) (s : String) : Except ReadError Json :=
  let cs := s.toList
  let locate : Fault → ReadError
    | .malformed rest => .malformed (cs.length - rest.length)
    | .oversized => .oversized
    | .tooDeep => .tooDeep
  match readValue room (skip cs) with
  | .error e => .error (locate e)
  | .ok (v, rest) =>
    match skip rest.1 with
    | [] => .ok v
    | extra => .error (locate (.malformed extra))

/-- The value of a text. -/
def read (s : String) : Except ReadError Json := readWithin Reader.maxDepth s

end Json

end AgentFlow
