import AgentFlow.Format.Document
import AgentFlow.Program.Render
import AgentFlow.Validation
import Mathlib.Data.List.Pairwise

/-!
# Saving and restoring

A document that was saved is read back as it was, with its `null` members or without them.  Reading
finds members by either of their spellings and puts defaults where members are missing, so two
things matter: no spelling belongs to two members of a record, and a member that is saved as `null`
has the default that is put in its place.

## Main definitions

* `Members.Holds`: a member has a value, as it was saved or without `null` members.
* `Restores`: a reader makes the same of a value with and without its `null` members.
* `FieldName.Apart`: two members that cannot be taken for each other.

## Main results

* `restores_object`: a record is read back if its members are apart and each of them is.
* `Document.decode_encode`: **every document is restored from its saved form.**
-/

namespace AgentFlow

/-! ### Values without `null` members -/

namespace Json

mutual

/-- Some member is `null`, at some depth. -/
def hasNullMember : Json → Bool
  | .list items => hasNullMemberItems items
  | .object members => hasNullMemberMembers members
  | _ => false

/-- Some item has a member that is `null`. -/
def hasNullMemberItems : List Json → Bool
  | [] => false
  | v :: vs => hasNullMember v || hasNullMemberItems vs

/-- Some member is `null` or has such a member. -/
def hasNullMemberMembers : List (String × Json) → Bool
  | [] => false
  | (_, v) :: ms => v.isNull || hasNullMember v || hasNullMemberMembers ms

end

theorem isNull_withoutNulls (v : Json) : v.withoutNulls.isNull = v.isNull := by
  cases v <;> simp [withoutNulls, isNull]

theorem isNull_eq_false_iff {v : Json} : v.isNull = false ↔ v ≠ .null := by
  cases v <;> simp [isNull]

mutual

/-- No member that is left is `null`. -/
theorem hasNullMember_withoutNulls (v : Json) : v.withoutNulls.hasNullMember = false := by
  match v with
  | .null | .bool _ | .int _ | .float _ | .text _ => simp [withoutNulls, hasNullMember]
  | .list items =>
    simp [withoutNulls, hasNullMember, hasNullMemberItems_withoutNullsItems items]
  | .object members =>
    simp [withoutNulls, hasNullMember, hasNullMemberMembers_withoutNullsMembers members]

theorem hasNullMemberItems_withoutNullsItems (vs : List Json) :
    hasNullMemberItems (withoutNullsItems vs) = false := by
  match vs with
  | [] => simp [withoutNullsItems, hasNullMemberItems]
  | v :: vs =>
    simp [withoutNullsItems, hasNullMemberItems, hasNullMember_withoutNulls v,
      hasNullMemberItems_withoutNullsItems vs]

/-- Without `null`s there is no member that is `null`, at any depth. -/
theorem hasNullMemberMembers_withoutNullsMembers (ms : List (String × Json)) :
    hasNullMemberMembers (withoutNullsMembers ms) = false := by
  match ms with
  | [] => simp [withoutNullsMembers, hasNullMemberMembers]
  | (k, v) :: ms =>
    have ih := hasNullMemberMembers_withoutNullsMembers ms
    cases hv : v.isNull with
    | true => simpa [withoutNullsMembers, hv] using ih
    | false =>
      simp [withoutNullsMembers, hv, hasNullMemberMembers, isNull_withoutNulls,
        hasNullMember_withoutNulls v, ih]

end

theorem withoutNullsItems_eq_map (vs : List Json) :
    withoutNullsItems vs = vs.map withoutNulls := by
  induction vs with
  | nil => simp [withoutNullsItems]
  | cons v vs ih => simp [withoutNullsItems, ih]

/-- The members that are left are those that were not `null`, with the `null`s inside them taken out
as well. -/
theorem mem_withoutNullsMembers {m : Members} {key : String} {w : Json} :
    (key, w) ∈ withoutNullsMembers m ↔ ∃ v, (key, v) ∈ m ∧ v ≠ .null ∧ w = v.withoutNulls := by
  induction m with
  | nil => simp [withoutNullsMembers]
  | cons entry m ih =>
    obtain ⟨k, u⟩ := entry
    cases hu : u.isNull with
    | true =>
      have hnull : u = .null := by
        by_contra hne
        simp [isNull_eq_false_iff.2 hne] at hu
      rw [withoutNullsMembers, if_pos hu, ih]
      constructor
      · rintro ⟨v, hmem, hv⟩
        exact ⟨v, List.mem_cons_of_mem _ hmem, hv⟩
      · rintro ⟨v, hmem, hne, hw⟩
        rcases List.mem_cons.1 hmem with heq | hmem
        · exact absurd ((Prod.mk.inj heq).2.trans hnull) hne
        · exact ⟨v, hmem, hne, hw⟩
    | false =>
      have hne := isNull_eq_false_iff.1 hu
      rw [withoutNullsMembers, if_neg (by simp [hu]), List.mem_cons, ih]
      constructor
      · rintro (heq | ⟨v, hmem, hv⟩)
        · obtain ⟨rfl, rfl⟩ := Prod.mk.inj heq
          exact ⟨u, List.mem_cons_self, hne, rfl⟩
        · exact ⟨v, List.mem_cons_of_mem _ hmem, hv⟩
      · rintro ⟨v, hmem, hv, hw⟩
        rcases List.mem_cons.1 hmem with heq | hmem
        · obtain ⟨rfl, rfl⟩ := Prod.mk.inj heq
          exact Or.inl (by rw [hw])
        · exact Or.inr ⟨v, hmem, hv, hw⟩

theorem ofText?_eq_null_iff {o : Option String} : ofText? o = .null ↔ o = none := by
  cases o <;> simp [ofText?]

end Json

/-! ### Members that cannot be taken for each other -/

/-- No spelling of the one member is a spelling of the other. -/
def FieldName.Apart (f g : FieldName) : Prop :=
  f.editor ∉ [g.editor, g.plain] ∧ f.plain ∉ [g.editor, g.plain]

instance : DecidableRel FieldName.Apart := fun _ _ => inferInstanceAs (Decidable (_ ∧ _))

theorem FieldName.Apart.spell_ne {f g : FieldName} (h : f.Apart g) (sp sp' : Spelling) :
    f.spell sp ≠ g.spell sp' := by
  obtain ⟨heditor, hplain⟩ := h
  cases sp <;> cases sp' <;> simp_all [FieldName.spell]

theorem FieldName.Apart.symm {f g : FieldName} (h : f.Apart g) : g.Apart f := by
  obtain ⟨heditor, hplain⟩ := h
  simp only [List.mem_cons, List.not_mem_nil, or_false, not_or] at heditor hplain
  simp [FieldName.Apart, Ne.symm heditor.1, Ne.symm heditor.2, Ne.symm hplain.1, Ne.symm hplain.2]

namespace Members

/-- The members with these values, as they are written. -/
def spelled (sp : Spelling) (fields : List (FieldName × Json)) : Members :=
  fields.map fun x => (x.1.spell sp, x.2)

/-- The member has the value, as it was saved or without `null` members, under whichever spelling it
is looked up.  It may be missing only if it is `null`. -/
structure Holds (m : Members) (f : FieldName) (v : Json) : Prop where
  /-- What is found is the value. -/
  eq_or : ∀ sp w, m.get? (f.spell sp) = some w → w = v ∨ w = v.withoutNulls
  /-- Something is found. -/
  exists_spelling : v ≠ .null → ∃ sp w, m.get? (f.spell sp) = some w

/-- All of the members have their values. -/
def HoldsAll (m : Members) (fields : List (FieldName × Json)) : Prop :=
  ∀ x ∈ fields, m.Holds x.1 x.2

variable {m : Members} {f : FieldName} {v : Json} {sp : Spelling} {fields : List (FieldName × Json)}

theorem mem_of_get? {key : String} {w : Json} (h : m.get? key = some w) : (key, w) ∈ m := by
  obtain ⟨l₁, l₂, rfl, -⟩ := List.lookup_eq_some_iff.1 h
  simp

theorem exists_get?_of_mem {key : String} {w : Json} (h : (key, w) ∈ m) :
    ∃ u, m.get? key = some u := by
  cases hget : m.get? key with
  | some u => exact ⟨u, rfl⟩
  | none =>
    have hne := List.lookup_eq_none_iff.1 hget (key, w) h
    simp at hne

/-- A member of a record is known by any of its spellings. -/
theorem eq_of_spell_eq (hapart : (fields.map (·.1)).Pairwise FieldName.Apart)
    {x y : FieldName × Json} (hx : x ∈ fields) (hy : y ∈ fields) {sp sp' : Spelling}
    (h : x.1.spell sp = y.1.spell sp') : x = y := by
  have : Std.Symm fun x y : FieldName × Json => x.1.Apart y.1 := ⟨fun _ _ h => h.symm⟩
  by_contra hne
  exact ((List.pairwise_map.1 hapart).forall hx hy hne).spell_ne sp sp' h

/-- Written members have their values. -/
theorem holdsAll_spelled (hapart : (fields.map (·.1)).Pairwise FieldName.Apart) :
    (spelled sp fields).HoldsAll fields := by
  intro x hx
  refine ⟨fun sp' w hw => ?_, fun _ => ⟨sp, exists_get?_of_mem (List.mem_map_of_mem hx)⟩⟩
  obtain ⟨y, hy, heq⟩ := List.mem_map.1 (mem_of_get? hw)
  obtain ⟨hspell, rfl⟩ := Prod.mk.inj heq
  rw [eq_of_spell_eq hapart hy hx hspell]
  exact Or.inl rfl

/-- Written members still have their values when those that are `null` are left out. -/
theorem holdsAll_withoutNulls (hapart : (fields.map (·.1)).Pairwise FieldName.Apart) :
    HoldsAll (Json.withoutNullsMembers (spelled sp fields)) fields := by
  intro x hx
  refine ⟨fun sp' w hw => ?_, fun hne => ⟨sp, ?_⟩⟩
  · obtain ⟨v, hv, -, rfl⟩ := Json.mem_withoutNullsMembers.1 (mem_of_get? hw)
    obtain ⟨y, hy, heq⟩ := List.mem_map.1 hv
    obtain ⟨hspell, rfl⟩ := Prod.mk.inj heq
    rw [eq_of_spell_eq hapart hy hx hspell]
    exact Or.inr rfl
  · have hmem : (x.1.spell sp, x.2) ∈ spelled sp fields := List.mem_map_of_mem hx
    exact exists_get?_of_mem (Json.mem_withoutNullsMembers.2 ⟨x.2, hmem, hne, rfl⟩)

/-- What a lookup of the member finds: its value, possibly without `null`s, or nothing if the value
is `null`. -/
theorem Holds.find? (h : m.Holds f v) :
    (m.find? f = none ∧ v = .null) ∨
      ∃ key w, m.find? f = some (key, w) ∧ (w = v ∨ w = v.withoutNulls) := by
  unfold Members.find?
  cases heditor : m.get? f.editor with
  | some w => exact Or.inr ⟨_, _, rfl, h.eq_or .editor w heditor⟩
  | none =>
    cases hplain : m.get? f.plain with
    | some w => exact Or.inr ⟨_, _, rfl, h.eq_or .plain w hplain⟩
    | none =>
      refine Or.inl ⟨rfl, ?_⟩
      by_contra hne
      obtain ⟨sp, w, hw⟩ := h.exists_spelling hne
      cases sp with
      | editor => exact absurd (heditor.symm.trans hw) (by simp)
      | plain => exact absurd (hplain.symm.trans hw) (by simp)

/-- A member with a single spelling is there unless it is `null`. -/
theorem Holds.get?_same {name : String} (h : m.Holds (.same name) v) (hv : v ≠ .null) :
    ∃ w, m.get? name = some w ∧ (w = v ∨ w = v.withoutNulls) := by
  obtain ⟨sp, w, hw⟩ := h.exists_spelling hv
  have hvalue := h.eq_or sp w hw
  cases sp <;> exact ⟨w, hw, hvalue⟩

/-- A text is found whichever of the two spellings is tried first. -/
theorem Holds.get?_text {s : String} (h : m.Holds f (.text s)) :
    (m.get? f.editor = some (.text s) ∧ m.get? f.plain = none) ∨
    (m.get? f.editor = none ∧ m.get? f.plain = some (.text s)) ∨
    (m.get? f.editor = some (.text s) ∧ m.get? f.plain = some (.text s)) := by
  have hvalue : ∀ sp w, m.get? (f.spell sp) = some w → w = .text s :=
    fun sp w hw => (h.eq_or sp w hw).elim id fun hw => hw.trans (by simp [Json.withoutNulls])
  cases heditor : m.get? f.editor with
  | none =>
    obtain ⟨sp, w, hw⟩ := h.exists_spelling (by simp)
    cases sp with
    | editor => exact absurd (heditor.symm.trans hw) (by simp)
    | plain => exact Or.inr (Or.inl ⟨rfl, hw.trans (congrArg some (hvalue .plain w hw))⟩)
  | some u =>
    rw [hvalue .editor u heditor]
    cases hplain : m.get? f.plain with
    | none => exact Or.inl ⟨rfl, rfl⟩
    | some w => exact Or.inr (Or.inr ⟨rfl, congrArg some (hvalue .plain w hplain)⟩)

end Members

/-! ### Reading back -/

/-- The reader makes `a` of the value, and also of the value without its `null` members. -/
def Restores {α : Type} (read : Json → Checked α) (v : Json) (a : α) : Prop :=
  read v = .valid a ∧ read v.withoutNulls = .valid a

section Readers

variable {α : Type} {m : Members} {f : FieldName} {v : Json} {a default : α}
  {read : Json → Checked α}

theorem Restores.of_eq_or {w : Json} (h : Restores read v a) (hw : w = v ∨ w = v.withoutNulls) :
    read w = .valid a := by
  rcases hw with rfl | rfl
  · exact h.1
  · exact h.2

/-- A member that may be left out is read back.  If it is `null`, it may have been left out, and the
default must stand for it. -/
theorem Members.Holds.optional (h : m.Holds f v) (hv : Restores read v a)
    (hnull : v = .null → default = a) : Read.optional m f default read = .valid a := by
  unfold Read.optional
  rcases h.find? with ⟨hnone, hv'⟩ | ⟨key, w, hfind, hw⟩
  · rw [hnone, hnull hv']
  · rw [hfind]
    exact congrArg (Checked.under (.key key)) (hv.of_eq_or hw)

/-- A member that must be there is read back. -/
theorem Members.Holds.required (h : m.Holds f v) (hv : Restores read v a) (hne : v ≠ .null) :
    Read.required m f read = .valid a := by
  unfold Read.required
  rcases h.find? with ⟨-, hv'⟩ | ⟨key, w, hfind, hw⟩
  · exact absurd hv' hne
  · rw [hfind]
    exact congrArg (Checked.under (.key key)) (hv.of_eq_or hw)

/-- A record is read back if its members cannot be taken for each other and each has its value. -/
theorem restores_object {fields : List (FieldName × Json)} (sp : Spelling)
    (hapart : (fields.map (·.1)).Pairwise FieldName.Apart)
    (hread : ∀ m : Members, m.HoldsAll fields → read (.object m) = .valid a) :
    Restores read (.object (Members.spelled sp fields)) a := by
  refine ⟨hread _ (Members.holdsAll_spelled hapart), ?_⟩
  rw [Json.withoutNulls]
  exact hread _ (Members.holdsAll_withoutNulls hapart)

/-- A value without members is read back if it is read. -/
theorem restores_of_eq (hv : v.withoutNulls = v) (h : read v = .valid a) : Restores read v a :=
  ⟨h, by rw [hv]; exact h⟩

theorem restores_text (s : String) : Restores Read.text (.text s) s :=
  restores_of_eq (by simp [Json.withoutNulls]) rfl

theorem restores_truth (b : Bool) : Restores Read.truth (.bool b) b :=
  restores_of_eq (by simp [Json.withoutNulls]) rfl

theorem restores_number (x : Binary64) : Restores Read.number (.float x) x :=
  restores_of_eq (by simp [Json.withoutNulls]) rfl

theorem restores_literal (s : String) : Restores (Read.literal s) (.text s) () :=
  restores_of_eq (by simp [Json.withoutNulls]) (by simp [Read.literal])

theorem restores_choice [Choice α] {name : String} (hname : Choice.ofName? name = some a) :
    Restores (Read.choice α) (.text name) a :=
  restores_of_eq (by simp [Json.withoutNulls]) (by simp [Read.choice, hname])

theorem restores_null (read : Json → Checked α) : Restores (Read.nullable read) .null none :=
  restores_of_eq (by simp [Json.withoutNulls]) rfl

/-- What is not `null` is read back as before where `null` is allowed. -/
theorem Restores.nullable (h : Restores read v a) (hne : v ≠ .null) :
    Restores (Read.nullable read) v (some a) := by
  have hread : ∀ w, w ≠ .null → read w = .valid a → Read.nullable read w = .valid (some a) := by
    intro w hw hr
    cases w <;> simp_all [Read.nullable]
  refine ⟨hread v hne h.1, hread _ ?_ h.2⟩
  rw [← Json.isNull_eq_false_iff, Json.isNull_withoutNulls]
  exact Json.isNull_eq_false_iff.2 hne

theorem restores_ofText? (o : Option String) :
    Restores (Read.nullable Read.text) (.ofText? o) o := by
  cases o with
  | none => exact restores_null _
  | some s => exact (restores_text s).nullable (by simp)

/-- A list is read back if each of its items is. -/
theorem itemsFrom_map {xs : List α} {encode : α → Json} (h : ∀ x ∈ xs, read (encode x) = .valid x)
    (i : Nat) : Read.itemsFrom read i (xs.map encode) = .valid xs := by
  induction xs generalizing i with
  | nil => rfl
  | cons x xs ih =>
    rw [List.map_cons, Read.itemsFrom, h x List.mem_cons_self,
      ih (fun y hy => h y (List.mem_cons_of_mem _ hy))]
    rfl

theorem restores_items {xs : List α} {encode : α → Json}
    (h : ∀ x ∈ xs, Restores read (encode x) x) :
    Restores (Read.items read) (.list (xs.map encode)) xs := by
  refine ⟨itemsFrom_map (fun x hx => (h x hx).1) 0, ?_⟩
  rw [Json.withoutNulls, Json.withoutNullsItems_eq_map, List.map_map]
  exact itemsFrom_map (fun x hx => (h x hx).2) 0

/-! ### Members of the usual types -/

theorem Members.Holds.text {s : String} (h : m.Holds f (.text s)) (default : String) :
    Read.optional m f default Read.text = .valid s :=
  h.optional (restores_text s) (by simp)

theorem Members.Holds.text? {o : Option String} (h : m.Holds f (.ofText? o)) :
    Read.optional m f none (Read.nullable Read.text) = .valid o :=
  h.optional (restores_ofText? o) fun hnull => (Json.ofText?_eq_null_iff.1 hnull).symm

theorem Members.Holds.truth {b : Bool} (h : m.Holds f (.bool b)) (default : Bool) :
    Read.optional m f default Read.truth = .valid b :=
  h.optional (restores_truth b) (by simp)

theorem Members.Holds.choice [Choice α] {name : String} (h : m.Holds f (.text name))
    (hname : Choice.ofName? name = some a) (default : α) :
    Read.optional m f default (Read.choice α) = .valid a :=
  h.optional (restores_choice hname) (by simp)

theorem Members.Holds.items {xs : List α} {encode : α → Json}
    (h : m.Holds f (.list (xs.map encode))) (hxs : ∀ x ∈ xs, Restores read (encode x) x)
    (default : List α) : Read.optional m f default (Read.items read) = .valid xs :=
  h.optional (restores_items hxs) (by simp)

theorem Members.Holds.requiredText {s : String} (h : m.Holds f (.text s)) :
    Read.required m f Read.text = .valid s :=
  h.required (restores_text s) (by simp)

end Readers

/-! ### Schemas and parameters -/

namespace SchemaField

/-- The members of a schema field with their values. -/
def entries (f : SchemaField) : List (FieldName × Json) :=
  [(.same "id", .ofText? f.id), (.same "name", .text f.name), (.same "type", .text f.type.name),
    (⟨"isOptional", "is_optional"⟩, .bool f.isOptional),
    (.same "description", .ofText? f.description)]

/-- A field is restored under either spelling and on either channel. -/
theorem restores_encode (ch : Channel) (sp : Spelling) (f : SchemaField) :
    Restores (decode ch) (f.encode sp) f := by
  have hencode : f.encode sp = .object (Members.spelled sp f.entries) := by cases sp <;> rfl
  have hapart : (f.entries.map (·.1)).Pairwise FieldName.Apart := by
    simp only [entries, List.map_cons, List.map_nil]
    decide
  rw [hencode]
  refine restores_object sp hapart fun m hm => ?_
  simp only [Members.HoldsAll, entries, List.forall_mem_cons] at hm
  obtain ⟨hid, hname, htype, hoptional, hdescription, -⟩ := hm
  show _ <$> _ <*> _ <*> _ <*> _ <*> _ = _
  rw [hid.text?, hname.text, htype.choice f.type.ofName?_name, hoptional.truth, hdescription.text?]
  rfl

end SchemaField

namespace StructuredSchema

/-- The members of a structured schema with their values. -/
def entries (sp : Spelling) (s : StructuredSchema) : List (FieldName × Json) :=
  [(⟨"modelName", "model_name"⟩, .text s.modelName), (.same "description", .ofText? s.description),
    (.same "fields", .list (s.fields.map (SchemaField.encode sp)))]

theorem restores_encode (ch : Channel) (sp : Spelling) (s : StructuredSchema) :
    Restores (decode ch) (s.encode sp) s := by
  have hencode : s.encode sp = .object (Members.spelled sp (s.entries sp)) := by cases sp <;> rfl
  have hapart : ((s.entries sp).map (·.1)).Pairwise FieldName.Apart := by
    simp only [entries, List.map_cons, List.map_nil]
    decide
  rw [hencode]
  refine restores_object sp hapart fun m hm => ?_
  simp only [Members.HoldsAll, entries, List.forall_mem_cons] at hm
  obtain ⟨hname, hdescription, hfields, -⟩ := hm
  show _ <$> _ <*> _ <*> _ = _
  rw [hname.text, hdescription.text?,
    hfields.items fun f _ => SchemaField.restores_encode ch sp f]
  rfl

/-- A schema that may be absent is read back. -/
theorem optional_encode? {m : Members} {f : FieldName} {sp : Spelling} {o : Option StructuredSchema}
    (h : m.Holds f (encode? sp o)) (ch : Channel) :
    Read.optional m f none (Read.nullable (decode ch)) = .valid o := by
  cases o with
  | none => exact h.optional (restores_null _) fun _ => rfl
  | some s =>
    have hne : s.encode sp ≠ .null := by simp [encode]
    exact h.optional ((restores_encode ch sp s).nullable hne) fun hnull => absurd hnull hne

end StructuredSchema

namespace ToolParameter

/-- The members of a tool parameter with their values. -/
def entries (p : ToolParameter) : List (FieldName × Json) :=
  [(.same "id", .ofText? p.id), (.same "name", .text p.name), (.same "type", .text p.type.name)]

theorem restores_encode (ch : Channel) (p : ToolParameter) :
    Restores (decode ch) p.encode p := by
  have hapart : (p.entries.map (·.1)).Pairwise FieldName.Apart := by
    simp only [entries, List.map_cons, List.map_nil]
    decide
  refine restores_object .editor hapart fun m hm => ?_
  simp only [Members.HoldsAll, entries, List.forall_mem_cons] at hm
  obtain ⟨hid, hname, htype, -⟩ := hm
  show _ <$> _ <*> _ <*> _ = _
  rw [hid.text?, hname.text, htype.choice p.type.ofName?_name]
  rfl

end ToolParameter

/-! ### Payloads -/

namespace Payload

/-- The values of the members that only payloads of this kind have. -/
def ownEntries (sp : Spelling) : Payload → List (FieldName × Json)
  | .agent d => [
      (.same "instructions", .text d.instructions),
      (.same "handoff_description", .ofText? d.handoffDescription),
      (.outputSchema, StructuredSchema.encode? sp d.outputSchema)]
  | .runner d => [
      (.same "input", .text d.input),
      (.same "execution_mode", .text d.executionMode.name),
      (.same "context", .ofText? d.context)]
  | .functionTool d => [
      (.same "description", .ofText? d.description),
      (.same "parameters", .list (d.parameters.map ToolParameter.encode)),
      (.returnType, .text d.returnType.name),
      (.same "implementation", .text d.implementation)]
  | .input d => [(.same "message", .text d.message)]
  | .guardrail d => [
      (.guardrailType, .text d.side.name),
      (.same "description", .ofText? d.description),
      (.checkerName, .text d.checkerName),
      (.checkerInstructions, .text d.checkerInstructions),
      (.checkerSchema, StructuredSchema.encode? sp d.checkerSchema),
      (.tripwireLogic, .text d.tripwireLogic)]

/-- The members of a payload with their values. -/
def entries (sp : Spelling) (p : Payload) : List (FieldName × Json) :=
  (.same "name", .text p.heading.name) :: (.isExpanded, .bool p.heading.isExpanded) ::
    (.nodeType, .text p.kind.name) :: p.ownEntries sp

theorem members_eq_spelled (sp : Spelling) (p : Payload) :
    p.members sp = Members.spelled sp (p.entries sp) := by
  cases sp <;> cases p <;> rfl

theorem map_fst_entries (sp : Spelling) (p : Payload) :
    (p.entries sp).map (·.1) = fieldNames p.kind := by
  cases p <;> rfl

/-- No two members of a payload can be taken for each other. -/
theorem apart_fieldNames (k : Kind) : (fieldNames k).Pairwise FieldName.Apart := by
  cases k <;> decide

variable {m : Members} {sp : Spelling} {p : Payload}

theorem readTag_of_holds {k : Kind} (h : m.Holds .nodeType (.text k.name)) :
    readTag m k = .valid () :=
  h.optional (restores_literal _) fun _ => rfl

/-- The members of a payload make up the payload.  A member that was left out had the value that is
the default. -/
theorem read_of_holdsAll (h : m.HoldsAll (p.entries sp)) (ch : Channel) :
    read ch m p.kind = .valid p := by
  simp only [Members.HoldsAll, entries, List.forall_mem_cons] at h
  obtain ⟨hname, hexpanded, htag, hown⟩ := h
  have hheading : Heading.read m = .valid p.heading := by
    unfold Heading.read
    rw [hname.text, hexpanded.truth]
    rfl
  -- the reader of the kind asks for its fields one by one, and each is among the entries
  cases p with
  | agent d =>
    simp only [ownEntries, List.forall_mem_cons] at hown
    obtain ⟨hinstructions, hhandoff, hschema, -⟩ := hown
    have hread : readAgent ch m = .valid d := by
      unfold readAgent
      rw [hheading, readTag_of_holds (k := .agent) htag, hinstructions.text, hhandoff.text?,
        StructuredSchema.optional_encode? hschema]
      rfl
    exact congrArg (Checked.map Payload.agent) hread
  | runner d =>
    simp only [ownEntries, List.forall_mem_cons] at hown
    obtain ⟨hinput, hmode, hcontext, -⟩ := hown
    have hread : readRunner m = .valid d := by
      unfold readRunner
      rw [hheading, readTag_of_holds (k := .runner) htag, hinput.text,
        hmode.choice d.executionMode.ofName?_name, hcontext.text?]
      rfl
    exact congrArg (Checked.map Payload.runner) hread
  | functionTool d =>
    simp only [ownEntries, List.forall_mem_cons] at hown
    obtain ⟨hdescription, hparameters, hreturn, himplementation, -⟩ := hown
    have hread : readTool ch m = .valid d := by
      unfold readTool
      rw [hheading, readTag_of_holds (k := .functionTool) htag, hdescription.text?,
        hparameters.items fun q _ => ToolParameter.restores_encode ch q,
        hreturn.choice d.returnType.ofName?_name, himplementation.text]
      rfl
    exact congrArg (Checked.map Payload.functionTool) hread
  | input d =>
    simp only [ownEntries, List.forall_mem_cons] at hown
    obtain ⟨hmessage, -⟩ := hown
    have hread : readInput m = .valid d := by
      unfold readInput
      rw [hheading, readTag_of_holds (k := .input) htag, hmessage.text]
      rfl
    exact congrArg (Checked.map Payload.input) hread
  | guardrail d =>
    simp only [ownEntries, List.forall_mem_cons] at hown
    obtain ⟨hside, hdescription, hchecker, hinstructions, hschema, hlogic, -⟩ := hown
    have hread : readGuardrail ch m = .valid d := by
      unfold readGuardrail
      rw [hheading, readTag_of_holds (k := .guardrail) htag,
        hside.choice d.side.ofName?_name, hdescription.text?, hchecker.text, hinstructions.text,
        StructuredSchema.optional_encode? hschema, hlogic.text]
      rfl
    exact congrArg (Checked.map Payload.guardrail) hread

/-- The kind is found by either order of the spellings. -/
theorem tags_of_holdsAll (h : m.HoldsAll (p.entries sp)) :
    tag? m = some (.text p.kind.name) ∧ Node.payloadTag? m = some (.text p.kind.name) := by
  have htag : m.Holds .nodeType (.text p.kind.name) := h (.nodeType, _) (by simp [entries])
  unfold tag? Node.payloadTag?
  rcases htag.get?_text with ⟨heditor, hplain⟩ | ⟨heditor, hplain⟩ | ⟨heditor, hplain⟩ <;>
    rw [heditor, hplain] <;> exact ⟨rfl, rfl⟩

/-- What is left of a payload, with or without `null` members, still has all members. -/
theorem exists_holdsAll {v : Json} (hv : v = p.encode sp ∨ v = (p.encode sp).withoutNulls) :
    ∃ m : Members, v = .object m ∧ m.HoldsAll (p.entries sp) := by
  have hapart : ((p.entries sp).map (·.1)).Pairwise FieldName.Apart := by
    rw [map_fst_entries]
    exact apart_fieldNames p.kind
  rw [encode, members_eq_spelled, Json.withoutNulls] at hv
  rcases hv with rfl | rfl
  · exact ⟨_, rfl, Members.holdsAll_spelled hapart⟩
  · exact ⟨_, rfl, Members.holdsAll_withoutNulls hapart⟩

theorem restores_encode (ch : Channel) (sp : Spelling) (p : Payload) :
    Restores (decode ch) (p.encode sp) p := by
  have hread : ∀ v, v = p.encode sp ∨ v = (p.encode sp).withoutNulls → decode ch v = .valid p := by
    intro v hv
    obtain ⟨m, rfl, hm⟩ := exists_holdsAll hv
    simp only [decode, (tags_of_holdsAll hm).1, kindOf?, Kind.ofName?_name]
    rw [read_of_holdsAll hm, Checked.under_valid]
  exact ⟨hread _ (Or.inl rfl), hread _ (Or.inr rfl)⟩

end Payload

/-! ### Nodes and edges -/

namespace Position

/-- The members of a position with their values. -/
def entries (p : Position) : List (FieldName × Json) :=
  [(.same "x", .float p.x), (.same "y", .float p.y)]

theorem restores_encode (ch : Channel) (p : Position) : Restores (decode ch) p.encode p := by
  have hapart : (p.entries.map (·.1)).Pairwise FieldName.Apart := by
    simp only [entries, List.map_cons, List.map_nil]
    decide
  refine restores_object .editor hapart fun m hm => ?_
  simp only [Members.HoldsAll, entries, List.forall_mem_cons] at hm
  obtain ⟨hx, hy, -⟩ := hm
  show _ <$> _ <*> _ = _
  rw [hx.required (restores_number _) (by simp), hy.required (restores_number _) (by simp)]
  rfl

theorem optional_encode? {m : Members} {f : FieldName} {o : Option Position}
    (h : m.Holds f (encode? o)) (ch : Channel) :
    Read.optional m f none (Read.nullable (decode ch)) = .valid o := by
  cases o with
  | none => exact h.optional (restores_null _) fun _ => rfl
  | some p =>
    have hne : p.encode ≠ .null := by simp [encode]
    exact h.optional ((restores_encode ch p).nullable hne) fun hnull => absurd hnull hne

end Position

namespace Node

/-- The members of a node with their values. -/
def entries (sp : Spelling) (n : Node) : List (FieldName × Json) :=
  [(.same "id", .text n.id), (.same "type", .text n.kind.name),
    (.same "position", Position.encode? n.position), (.same "data", n.payload.encode sp)]

/-- A saved node names its kind twice, so there is nothing to fill in. -/
theorem align_of_holdsAll {m : Members} {sp : Spelling} {n : Node} (h : m.HoldsAll (n.entries sp)) :
    align m = m := by
  have htype : m.Holds (.same "type") (.text n.kind.name) := h (.same "type", _) (by simp [entries])
  have hdata : m.Holds (.same "data") (n.payload.encode sp) :=
    h (.same "data", n.payload.encode sp) (by simp [entries])
  obtain ⟨t, ht, htext⟩ := htype.get?_same (by simp)
  obtain ⟨v, hv, hpayload⟩ := hdata.get?_same (by simp [Payload.encode])
  obtain ⟨payload, rfl, hall⟩ := Payload.exists_holdsAll hpayload
  obtain rfl : t = .text n.kind.name := by simpa [Json.withoutNulls] using htext
  simp only [align, hv, ht, present?, (Payload.tags_of_holdsAll hall).2]

/-- A node is restored, and alignment finds nothing to fill in, as the kind is given twice. -/
theorem restores_encode (ch : Channel) (sp : Spelling) (n : Node) :
    Restores (decode ch) (n.encode sp) n := by
  have hencode : n.encode sp = .object (Members.spelled sp (n.entries sp)) := by cases sp <;> rfl
  have hapart : ((n.entries sp).map (·.1)).Pairwise FieldName.Apart := by
    simp only [entries, List.map_cons, List.map_nil]
    decide
  rw [hencode]
  refine restores_object sp hapart fun m hm => ?_
  show read ch (.object m) (align m) = _
  rw [align_of_holdsAll hm]
  simp only [Members.HoldsAll, entries, List.forall_mem_cons] at hm
  obtain ⟨hid, htype, hposition, hdata, -⟩ := hm
  unfold read
  rw [hid.requiredText, htype.required (restores_choice n.kind.ofName?_name) (by simp),
    Position.optional_encode? hposition,
    hdata.required (Payload.restores_encode ch sp n.payload) (by simp [Payload.encode])]
  show ofParts _ n.id n.payload.kind n.position n.payload = _
  rw [ofParts, if_pos rfl]

end Node

namespace Edge

/-- The members of an edge with their values. -/
def entries (e : Edge) : List (FieldName × Json) :=
  [(.same "id", .text e.id), (.same "source", .text e.source), (.same "target", .text e.target)]

theorem restores_encode (ch : Channel) (e : Edge) : Restores (decode ch) e.encode e := by
  have hapart : (e.entries.map (·.1)).Pairwise FieldName.Apart := by
    simp only [entries, List.map_cons, List.map_nil]
    decide
  refine restores_object .editor hapart fun m hm => ?_
  simp only [Members.HoldsAll, entries, List.forall_mem_cons] at hm
  obtain ⟨hid, hsource, htarget, -⟩ := hm
  show _ <$> _ <*> _ <*> _ = _
  rw [hid.requiredText, hsource.requiredText, htarget.requiredText]
  rfl

end Edge

/-! ### Documents -/

namespace Document

/-- The members of a document with their values. -/
def entries (sp : Spelling) (d : Document) : List (FieldName × Json) :=
  [(.same "nodes", .list (d.graph.nodes.map (Node.encode sp))),
    (.same "edges", .list (d.graph.edges.map Edge.encode)),
    (.workflowName, .text d.name), (.workflowDescription, .text d.description)]

/-- **A document is restored**, with all its nodes and edges, under either spelling and on either
channel. -/
theorem restores_encode (ch : Channel) (sp : Spelling) (d : Document) :
    Restores (decode ch) (d.encode sp) d := by
  have hencode : d.encode sp = .object (Members.spelled sp (d.entries sp)) := by cases sp <;> rfl
  have hapart : ((d.entries sp).map (·.1)).Pairwise FieldName.Apart := by
    simp only [entries, List.map_cons, List.map_nil]
    decide
  rw [hencode]
  refine restores_object sp hapart fun m hm => ?_
  simp only [Members.HoldsAll, entries, List.forall_mem_cons] at hm
  obtain ⟨hnodes, hedges, hname, hdescription, -⟩ := hm
  have hgraph : Graph.read ch m = .valid d.graph := by
    unfold Graph.read
    rw [hnodes.items fun n _ => Node.restores_encode ch sp n,
      hedges.items fun e _ => Edge.restores_encode ch e]
    rfl
  show _ <$> _ <*> _ <*> _ = _
  rw [hgraph, hname.text, hdescription.text]
  rfl

/-- **Every document is restored from its saved form**, in either spelling, with its `null` members
or without them; the latter form has no `null` member at any depth.  What is restored makes the same
program and gives rise to the same findings. -/
theorem decode_encode (ch : Channel) (sp : Spelling) (d : Document) :
    decode ch (d.encode sp) = .valid d ∧
    decode ch (d.encode sp).withoutNulls = .valid d ∧
    (d.encode sp).withoutNulls.hasNullMember = false ∧
    let results := fun r : Document => (r.compile, r.graph.findings)
    results <$> decode ch (d.encode sp) = .valid (results d) ∧
    results <$> decode ch (d.encode sp).withoutNulls = .valid (results d) := by
  have hrestores := restores_encode ch sp d
  refine ⟨hrestores.1, hrestores.2, Json.hasNullMember_withoutNulls _, ?_, ?_⟩
  · rw [hrestores.1, Checked.map_valid]
  · rw [hrestores.2, Checked.map_valid]

end Document

end AgentFlow
