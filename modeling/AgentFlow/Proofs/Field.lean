import AgentFlow.Proofs.Member
import AgentFlow.Proofs.Resync
import AgentFlow.Store.Basic

/-!
# Edits of one member

Editing a member of a payload writes the payload out, puts the value in and reads it back.  The kind
survives, and so do the members that were not edited.

## Main results

* `Store.editedPayload_kind`: the payload stays of its kind.
* `Store.editedPayload_eq_valid_iff`: **an edit changes the member that it names, and fails only if
  the value does not fit.**
* `Store.editedPayload_message?`, `Store.editedPayload_input?`: the messages that were not edited
  stay.
-/

namespace AgentFlow

/-! ### Overwriting a member -/

namespace Members

variable {m : Members} {f g : FieldName} {v : Json}

/-- What was put under the plain spelling is found, unless something stands under the other one. -/
theorem find?_put_self (h : m.get? f.editor = none ∨ f.editor = f.plain) :
    (m.put f.plain v).find? f = some (f.plain, v) := by
  unfold find?
  by_cases hsame : f.editor = f.plain
  · rw [hsame, get?_put_self]
  · rw [get?_put_of_ne m v hsame, h.resolve_right hsame, get?_put_self]
    rfl

/-- Other members are found as before. -/
theorem find?_put_of_apart (h : g.Apart f) : (m.put f.plain v).find? g = m.find? g := by
  have heditor : g.editor ≠ f.plain := h.spell_ne .editor .plain
  have hplain : g.plain ≠ f.plain := h.spell_ne .plain .plain
  unfold find?
  rw [get?_put_of_ne m v heditor, get?_put_of_ne m v hplain]

end Members

namespace Member

variable {a b : Member} {p q : Payload} {v : Json}

theorem holdsAll_members (p : Payload) : (p.members .plain).HoldsAll (p.entries .plain) := by
  rw [Payload.members_eq_spelled]
  apply Members.holdsAll_spelled
  rw [Payload.map_fst_entries]
  exact Payload.apart_fieldNames p.kind

/-- In the plain form of a payload nothing stands under the editor's spelling of a member. -/
theorem get?_editor (ha : a ∈ ofKind p.kind) :
    (p.members .plain).get? a.fieldName.editor = none ∨ a.fieldName.editor = a.fieldName.plain := by
  by_cases hsame : a.fieldName.editor = a.fieldName.plain
  · exact Or.inr hsame
  refine Or.inl (Option.eq_none_iff_forall_ne_some.2 fun w hw => hsame ?_)
  -- what stands there has this spelling as its plain one, so it is the member itself
  rw [Payload.members_eq_spelled] at hw
  obtain ⟨y, hy, heq⟩ := List.mem_map.1 (Members.mem_of_get? hw)
  have hfields := Payload.map_fst_entries .plain p
  have hmem : a.fieldName ∈ (p.entries .plain).map (·.1) := hfields ▸ fieldName_mem ha
  obtain ⟨x, hx, hname⟩ := List.mem_map.1 hmem
  have hspell : x.1.spell .editor = y.1.spell .plain := by
    rw [hname]
    exact (Prod.mk.inj heq).1.symm
  have hxy := Members.eq_of_spell_eq (hfields ▸ Payload.apart_fieldNames p.kind) hx hy hspell
  rw [← hxy, hname] at hspell
  exact hspell

theorem find_put_self (ha : a ∈ ofKind p.kind) (v : Json) :
    a.find ((p.members .plain).put a.fieldName.plain v) =
      (a.read v).under (.key a.fieldName.plain) := by
  rw [find, Read.optional, Members.find?_put_self (get?_editor ha)]

theorem find_put_of_ne (hne : b ≠ a) (m : Members) (v : Json) :
    b.find (m.put a.fieldName.plain v) = b.find m := by
  rw [find, Read.optional, Members.find?_put_of_apart (apart_fieldName hne)]
  rfl

theorem readTag_put (a : Member) (p : Payload) (v : Json) :
    Payload.readTag ((p.members .plain).put a.fieldName.plain v) p.kind = .valid () := by
  have htag : Payload.readTag (p.members .plain) p.kind = .valid () :=
    Payload.readTag_of_holds (holdsAll_members p (.nodeType, _) (by simp [Payload.entries]))
  rw [Payload.readTag, Read.optional, Members.find?_put_of_apart (apart_nodeType a)]
  exact htag

end Member

/-! ### Reading what was written -/

namespace Read

/-- A member with a single spelling is read from its value. -/
theorem optional_same {α : Type} {m : Members} {key : String} {v : Json} (hv : m.get? key = some v)
    (default : α) (read : Json → Checked α) :
    optional m (.same key) default read = (read v).under (.key key) := by
  simp [optional, Members.find?, FieldName.same, hv]

/-- A text that was written is read back. -/
theorem eq_of_optional_text {m : Members} {key s t : String} (hv : m.get? key = some (.text s))
    {default : String} (h : optional m (.same key) default text = .valid t) : t = s := by
  rw [optional_same hv, Checked.under_eq_valid_iff, text, Checked.valid.injEq] at h
  exact h.symm

end Read

namespace Payload

/-- A payload that is read as one of a kind has the kind. -/
theorem kind_of_read {ch : Channel} {m : Members} {k : Kind} {p : Payload}
    (h : read ch m k = .valid p) : p.kind = k := by
  cases k <;>
  · obtain ⟨d, -, rfl⟩ := Checked.map_eq_valid_iff.1 h
    rfl

/-- The message of an input is read from its member. -/
theorem message?_of_read {m : Members} {p : Payload} {s : String}
    (hv : m.get? "message" = some (.text s)) (h : read .document m .input = .valid p) :
    p.message? = some s := by
  have hkind := kind_of_read h
  cases p with
  | input d =>
    have hfind := Member.find_of_read (a := .message) h rfl
    exact congrArg some (Read.eq_of_optional_text hv hfind)
  | _ => simp [kind] at hkind

/-- The start message of a runner is read from its member. -/
theorem input?_of_read {m : Members} {p : Payload} {s : String}
    (hv : m.get? "input" = some (.text s)) (h : read .document m .runner = .valid p) :
    p.input? = some s := by
  have hkind := kind_of_read h
  cases p with
  | runner d =>
    have hfind := Member.find_of_read (a := .input) h rfl
    exact congrArg some (Read.eq_of_optional_text hv hfind)
  | _ => simp [kind] at hkind

end Payload

/-! ### Editing -/

namespace Store

variable {p q : Payload} {f : FieldName} {v : Json}

theorem read_of_editedPayload (h : editedPayload p f v = .valid q) :
    Payload.read .document ((p.members .plain).put f.plain v) p.kind = .valid q := h

/-- The payload stays of its kind. -/
theorem editedPayload_kind (h : editedPayload p f v = .valid q) : q.kind = p.kind :=
  Payload.kind_of_read (read_of_editedPayload h)

/-- **An edit changes the member that it names, and fails only if the value does not fit.** -/
theorem editedPayload_eq_valid_iff {a : Member} (ha : a ∈ Member.ofKind p.kind) :
    editedPayload p a.fieldName v = .valid q ↔ ∃ x, a.read v = .valid x ∧ q = a.put x p := by
  have hread : ∀ x, a.read v = .valid x →
      Payload.read .document ((p.members .plain).put a.fieldName.plain v) p.kind =
        .valid (a.put x p) := by
    intro x hx
    rw [← Member.kind_put x p]
    apply Member.read_of_find
    · rw [Member.kind_put]
      exact Member.readTag_put a p v
    intro b y hy
    by_cases hb : b = a
    · subst hb
      rw [Member.get?_put_self ha, Option.some.injEq] at hy
      rw [Member.find_put_self ha, hx, hy]
      rfl
    · -- another member is found where the payload was written, and it was written as it is
      rw [Member.get?_put_of_ne hb] at hy
      rw [Member.find_put_of_ne hb]
      exact Member.find_of_read (Payload.read_of_holdsAll (Member.holdsAll_members p) _) hy
  constructor
  · intro h
    have hq := editedPayload_kind h
    obtain ⟨x, hx⟩ := Member.exists_get? (p := q) (hq ▸ ha)
    have hfind := Member.find_of_read (read_of_editedPayload h) hx
    rw [Member.find_put_self ha, Checked.under_eq_valid_iff] at hfind
    have hboth := (read_of_editedPayload h).symm.trans (hread x hfind)
    exact ⟨x, hfind, Checked.valid.inj hboth⟩
  · rintro ⟨x, hx, rfl⟩
    exact hread x hx

/-- Editing another member keeps the message of an input, since members are read independently of
each other. -/
theorem editedPayload_message? (h : editedPayload p f v = .valid q)
    (hf : p.kind = .input → f.plain ≠ "message") : q.message? = p.message? := by
  have hkind := editedPayload_kind h
  have hread := read_of_editedPayload h
  cases p with
  | input d =>
    refine Payload.message?_of_read ?_ hread
    rw [Members.get?_put_of_ne _ _ (hf rfl).symm]
    rfl
  | _ => cases q <;> simp_all [Payload.kind, Payload.message?]

/-- Editing another member keeps the start message of a runner, since members are read independently
of each other. -/
theorem editedPayload_input? (h : editedPayload p f v = .valid q)
    (hf : p.kind = .runner → f.plain ≠ "input") : q.input? = p.input? := by
  have hkind := editedPayload_kind h
  have hread := read_of_editedPayload h
  cases p with
  | runner d =>
    refine Payload.input?_of_read ?_ hread
    rw [Members.get?_put_of_ne _ _ (hf rfl).symm]
    rfl
  | _ => cases q <;> simp_all [Payload.kind, Payload.input?]

end Store

end AgentFlow
