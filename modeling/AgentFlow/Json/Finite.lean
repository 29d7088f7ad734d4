import AgentFlow.Json.Basic

/-!
# Finite numbers

Standard JSON has no spelling for infinities and NaN, so a value with one of them cannot be sent.

## Main definitions

* `Json.isFinite`: every number of a value is finite.
* `Json.finite`: the value with `null` in place of the others.
-/

namespace AgentFlow

namespace Json

mutual

/-- Every number of a value is finite. -/
def isFinite : Json → Bool
  | .float x => x.isFinite
  | .list items => isFiniteItems items
  | .object members => isFiniteMembers members
  | _ => true

/-- Every number of the items is finite. -/
def isFiniteItems : List Json → Bool
  | [] => true
  | v :: vs => isFinite v && isFiniteItems vs

/-- Every number of the members is finite. -/
def isFiniteMembers : List (String × Json) → Bool
  | [] => true
  | (_, v) :: ms => isFinite v && isFiniteMembers ms

end

mutual

/-- The value with `null` in place of numbers that are not finite. -/
def finite : Json → Json
  | .float x => if x.isFinite then .float x else .null
  | .list items => .list (finiteItems items)
  | .object members => .object (finiteMembers members)
  | v => v

/-- The items with `null` in place of numbers that are not finite. -/
def finiteItems : List Json → List Json
  | [] => []
  | v :: vs => finite v :: finiteItems vs

/-- The members with `null` in place of numbers that are not finite. -/
def finiteMembers : List (String × Json) → List (String × Json)
  | [] => []
  | (k, v) :: ms => (k, finite v) :: finiteMembers ms

end

mutual

/-- What is left has finite numbers only. -/
theorem isFinite_finite (v : Json) : v.finite.isFinite = true := by
  match v with
  | .null | .bool _ | .int _ | .text _ => simp [finite, isFinite]
  | .float x =>
    by_cases h : x.isFinite <;> simp [finite, isFinite, h]
  | .list items => simp [finite, isFinite, isFiniteItems_finiteItems items]
  | .object members => simp [finite, isFinite, isFiniteMembers_finiteMembers members]

theorem isFiniteItems_finiteItems (vs : List Json) : isFiniteItems (finiteItems vs) = true := by
  match vs with
  | [] => simp [finiteItems, isFiniteItems]
  | v :: vs =>
    simp [finiteItems, isFiniteItems, isFinite_finite v, isFiniteItems_finiteItems vs]

theorem isFiniteMembers_finiteMembers (ms : List (String × Json)) :
    isFiniteMembers (finiteMembers ms) = true := by
  match ms with
  | [] => simp [finiteMembers, isFiniteMembers]
  | (k, v) :: ms =>
    simp [finiteMembers, isFiniteMembers, isFinite_finite v, isFiniteMembers_finiteMembers ms]

end

end Json

end AgentFlow
