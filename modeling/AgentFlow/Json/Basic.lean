import AgentFlow.Number.Binary64

/-!
# JSON values

Integers and binary64 numbers are kept apart, and an object keeps its members in the order in
which their keys first occurred.

## Main definitions

* `Json`: a value.
* `Members`, `Members.get?`, `Members.put`: the members of an object.
-/

namespace AgentFlow

/-- A JSON value. -/
inductive Json where
  /-- The value `null`. -/
  | null
  /-- A truth value. -/
  | bool (b : Bool)
  /-- A number written without point and exponent. -/
  | int (n : Int)
  /-- A number written with a point or an exponent, or one that is not finite. -/
  | float (x : Binary64)
  /-- A text. -/
  | text (s : String)
  /-- An array. -/
  | list (items : List Json)
  /-- An object. -/
  | object (members : List (String × Json))
  deriving Repr, Inhabited

/-- The members of an object, in order. -/
abbrev Members := List (String × Json)

namespace Members

/-- The value of a key. -/
def get? (m : Members) (key : String) : Option Json :=
  m.lookup key

/-- Whether a key occurs. -/
def has (m : Members) (key : String) : Bool :=
  (m.get? key).isSome

/-- Gives a key a value: in place if the key occurs, else at the end. -/
def put : Members → String → Json → Members
  | [], key, v => [(key, v)]
  | (k, old) :: m, key, v => if k = key then (k, v) :: m else (k, old) :: put m key v

@[simp] theorem get?_nil (key : String) : get? [] key = none := rfl

/-- The value put last is the value of its key. -/
@[simp] theorem get?_put_self (m : Members) (key : String) (v : Json) :
    (m.put key v).get? key = some v := by
  induction m with
  | nil => simp [put, get?]
  | cons entry m ih =>
    obtain ⟨k, old⟩ := entry
    by_cases h : k = key
    · simp [put, get?, h]
    · have h' : (key == k) = false := by simpa using fun e => h e.symm
      simpa [put, get?, List.lookup_cons, h, h'] using ih

/-- The other keys keep their values. -/
theorem get?_put_of_ne (m : Members) {key other : String} (v : Json) (h : other ≠ key) :
    (m.put key v).get? other = m.get? other := by
  have h' : (other == key) = false := by simpa using h
  induction m with
  | nil => simp [put, get?, List.lookup_cons, h']
  | cons entry m ih =>
    obtain ⟨k, old⟩ := entry
    by_cases hk : k = key
    · subst hk
      simp [put, get?, List.lookup_cons, h']
    · cases hok : (other == k) <;> simp_all [put, get?, List.lookup_cons]

end Members

/-- The value is `null`. -/
def Json.isNull : Json → Bool
  | .null => true
  | _ => false

end AgentFlow
