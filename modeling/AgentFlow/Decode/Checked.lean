import AgentFlow.Decode.Issue

/-!
# Checked results

The result of checking a value: what it stands for, or every issue that was found.  Parts are
checked independently of each other, so that `f <$> a <*> b` reports the issues of both.

## Main definitions

* `Checked`, its `Applicative` instance and `Checked.andThen`.
* `Checked.under`: moves the places of issues one step out.
-/

namespace AgentFlow

/-- What a value stands for, or the issues found in it. -/
inductive Checked (α : Type) where
  /-- The value fits. -/
  | valid (value : α)
  /-- The value does not fit. -/
  | invalid (issues : List Issue)
  deriving Repr

namespace Checked

variable {α β : Type}

/-- The result with its value changed. -/
def map (f : α → β) : Checked α → Checked β
  | .valid a => .valid (f a)
  | .invalid is => .invalid is

/-- Two results together; the issues of both are reported. -/
def apply : Checked (α → β) → Checked α → Checked β
  | .valid f, .valid a => .valid (f a)
  | .valid _, .invalid is => .invalid is
  | .invalid is, .valid _ => .invalid is
  | .invalid is, .invalid js => .invalid (is ++ js)

instance : Applicative Checked where
  map := map
  pure := .valid
  seq f a := apply f (a ())

/-- A check on a value that has fitted so far. -/
def andThen : Checked α → (α → Checked β) → Checked β
  | .valid a, f => f a
  | .invalid is, _ => .invalid is

/-- The result seen from one step further out. -/
def under (s : Step) : Checked α → Checked α
  | .valid a => .valid a
  | .invalid is => .invalid (is.map (Issue.under s))

/-- The result as an exception. -/
def toExcept : Checked α → Except (List Issue) α
  | .valid a => .ok a
  | .invalid is => .error is

/-- One complaint about a value itself. -/
def refuse (c : Cause) (v : Json) : Checked α := .invalid [{ cause := c, part := v }]

@[simp] theorem map_valid (f : α → β) (a : α) : f <$> (valid a) = valid (f a) := rfl

@[simp] theorem seq_valid (f : α → β) (a : α) : (valid f) <*> (valid a) = valid (f a) := rfl

@[simp] theorem under_valid (s : Step) (a : α) : (valid a).under s = valid a := rfl

@[simp] theorem andThen_valid (a : α) (f : α → Checked β) : (valid a).andThen f = f a := rfl

/-- A combined result is valid exactly if both parts are. -/
theorem seq_eq_valid_iff {f : Checked (α → β)} {a : Checked α} {b : β} :
    f <*> a = valid b ↔ ∃ g x, f = valid g ∧ a = valid x ∧ g x = b := by
  cases f <;> cases a <;> simp [Seq.seq, apply]

theorem map_eq_valid_iff {f : α → β} {a : Checked α} {b : β} :
    f <$> a = valid b ↔ ∃ x, a = valid x ∧ f x = b := by
  cases a <;> simp [Functor.map, map]

theorem under_eq_valid_iff {s : Step} {a : Checked α} {x : α} :
    a.under s = valid x ↔ a = valid x := by
  cases a <;> simp [under]

end Checked

end AgentFlow
