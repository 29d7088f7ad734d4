import AgentFlow.Format.Document
import AgentFlow.Proofs.Field

/-!
# Both names of a kind

A node names its kind beside its payload and inside of it, and either name may be left out.  Before
a node is read, the name that is missing is filled in, so it does not matter which of them a file
has; and where it has both, they must agree.

## Main definitions

* `Node.Aligned`: a value and the node that was read from it agree on the kind.
* `Node.Gives`: the members of a value that make up a node.
* `Node.Tells`: the ways to give a node with a payload of some kind.

## Main results

* `Node.aligned_of_decode`: a node is only read where all names of its kind agree.
* `Node.Tells.align`: alignment brings all ways to give a node to one.
* `Node.decode_aligned`: **what is read agrees on the kind, and is the same in whichever way the
  kind is given.**
-/

namespace AgentFlow

/-! ### Names of kinds -/

/-- Only the name of a kind stands for it. -/
theorem Kind.ofName?_eq_some_iff {s : String} {k : Kind} :
    Choice.ofName? s = some k ↔ s = k.name := by
  constructor
  · intro h
    have hname : decide (k.name = s) = true :=
      List.find?_some (p := fun a : Kind => decide (a.name = s)) h
    exact (of_decide_eq_true hname).symm
  · rintro rfl
    exact k.ofName?_name

namespace Read

/-- A kind is read exactly from the text of its name. -/
theorem choice_kind_eq_valid_iff {v : Json} {k : Kind} :
    choice Kind v = .valid k ↔ v = .text k.name := by
  cases v with
  | text s =>
    rw [Json.text.injEq, ← Kind.ofName?_eq_some_iff, choice]
    split
    · next a ha => rw [ha, Checked.valid.injEq, Option.some.injEq]
    · next hnone => simp [hnone, Checked.refuse]
  | _ => simp [choice, Checked.refuse]

/-- A fixed text is read where that text stands, and nowhere else. -/
theorem literal_eq_valid_iff {s : String} {v : Json} : literal s v = .valid () ↔ v = .text s := by
  cases v with
  | text t =>
    rw [literal, Json.text.injEq]
    split
    · next h => simp [h]
    · next h => simp [h, Checked.refuse]
  | _ => simp [literal, Checked.refuse]

end Read

namespace Payload

variable {ch : Channel} {m : Members} {k : Kind} {p : Payload} {v : Json}

theorem kindOf?_eq_some_iff : kindOf? v = some k ↔ v = .text k.name := by
  cases v with
  | text s => rw [kindOf?, Kind.ofName?_eq_some_iff, Json.text.injEq]
  | _ => simp [kindOf?]

/-- A payload is only read where its name of the kind is the right one. -/
theorem readTag_of_read (h : read ch m k = .valid p) : readTag m k = .valid () := by
  cases k <;>
  · simp only [read, readAgent, readRunner, readTool, readInput, readGuardrail,
      Checked.map_eq_valid_iff, Checked.seq_eq_valid_iff] at h
    grind

/-- The editor's spelling is looked at where a payload of a kind is read. -/
theorem eq_of_readTag (hv : m.get? FieldName.nodeType.editor = some v)
    (h : readTag m k = .valid ()) : v = .text k.name := by
  rw [readTag, Read.optional, Members.find?, hv] at h
  exact Read.literal_eq_valid_iff.1 (Checked.under_eq_valid_iff.1 h)

/-- The plain spelling is looked at where the kind is found. -/
theorem tag?_of_plain (hv : m.get? FieldName.nodeType.plain = some v) : tag? m = some v := by
  rw [tag?, hv]

/-- A payload is read as one of the kind that it names. -/
theorem decode_eq_valid_iff : decode ch v = .valid p ↔
    ∃ m : Members, v = .object m ∧ tag? m = some (.text p.kind.name) ∧
      read ch m p.kind = .valid p := by
  constructor
  · intro h
    unfold decode at h
    split at h
    · next m =>
      split at h
      · simp [Checked.refuse] at h
      · next tag htag =>
        split at h
        · next k hk =>
          have hread := Checked.under_eq_valid_iff.1 h
          -- what is read as a payload of a kind has that kind, so the tag that chose the reader
          -- names it
          obtain rfl := kind_of_read hread
          rw [kindOf?_eq_some_iff.1 hk] at htag
          exact ⟨m, rfl, htag, hread⟩
        · simp [Checked.refuse] at h
    · simp [Checked.refuse] at h
  · rintro ⟨m, rfl, htag, hread⟩
    simp only [decode, htag, kindOf?_eq_some_iff.2 rfl]
    exact Checked.under_eq_valid_iff.2 hread

end Payload

namespace Members

theorem find?_same (m : Members) (key : String) :
    m.find? (.same key) = (m.get? key).map (key, ·) := by
  cases h : m.get? key <;> simp [find?, FieldName.same, h]

end Members

namespace Read

variable {α : Type} {m : Members} {key : String} {read : Json → Checked α}

theorem required_same {v : Json} (h : m.get? key = some v) :
    required m (.same key) read = (read v).under (.key key) := by
  rw [required, Members.find?_same, h]
  rfl

theorem required_same_eq_valid_iff {a : α} :
    required m (.same key) read = .valid a ↔ ∃ v, m.get? key = some v ∧ read v = .valid a := by
  cases h : m.get? key with
  | some v => simp [required_same h, Checked.under_eq_valid_iff]
  | none => simp [required, Members.find?_same, h]

end Read

namespace Node

variable {ch : Channel} {m m' d p : Members} {n : Node} {id k v : Json} {position : Option Json}

/-! ### Reading the parts -/

/-- The parts of a node, read one by one. -/
def parts (ch : Channel) (m : Members) : Checked (NodeId × Kind × Option Position × Payload) :=
  (fun id kind position payload => (id, kind, position, payload)) <$>
    Read.required m (.same "id") Read.text <*>
    Read.required m (.same "type") (Read.choice Kind) <*>
    Read.optional m (.same "position") none (Read.nullable (Position.decode ch)) <*>
    Read.required m (.same "data") (Payload.decode ch)

theorem decode_object (ch : Channel) (m : Members) :
    decode ch (.object m) = (parts ch (align m)).andThen fun x =>
      ofParts (.object m) x.1 x.2.1 x.2.2.1 x.2.2.2 := rfl

/-- The parts of a node are read independently of each other: all of them are there exactly if each
one is. -/
theorem parts_eq_valid_iff {i : NodeId} {kind : Kind} {place : Option Position}
    {payload : Payload} :
    parts ch m = .valid (i, kind, place, payload) ↔
      Read.required m (.same "id") Read.text = .valid i ∧
      Read.required m (.same "type") (Read.choice Kind) = .valid kind ∧
      Read.optional m (.same "position") none (Read.nullable (Position.decode ch)) =
        .valid place ∧
      Read.required m (.same "data") (Payload.decode ch) = .valid payload := by
  constructor
  · intro h
    obtain ⟨_, _, h₁, hdata, heq⟩ := Checked.seq_eq_valid_iff.1 h
    obtain ⟨_, _, h₂, hposition, rfl⟩ := Checked.seq_eq_valid_iff.1 h₁
    obtain ⟨_, _, h₃, htype, rfl⟩ := Checked.seq_eq_valid_iff.1 h₂
    obtain ⟨_, hid, rfl⟩ := Checked.map_eq_valid_iff.1 h₃
    cases heq
    exact ⟨hid, htype, hposition, hdata⟩
  · rintro ⟨hid, htype, hposition, hdata⟩
    rw [parts, hid, htype, hposition, hdata]
    rfl

/-- A node is read where its parts are, and the kind beside the payload is that of the payload. -/
theorem decode_eq_valid_iff : decode ch v = .valid n ↔
    ∃ m, v = .object m ∧ parts ch (align m) = .valid (n.id, n.kind, n.position, n.payload) := by
  cases v with
  | object m =>
    simp only [Json.object.injEq, exists_eq_left']
    rw [decode_object]
    cases parts ch (align m) with
    | invalid is => simp [Checked.andThen]
    | valid x =>
      obtain ⟨i, kind, place, payload⟩ := x
      obtain ⟨j, place', payload'⟩ := n
      simp only [Checked.andThen_valid, ofParts, Checked.valid.injEq, Prod.mk.injEq, Node.kind]
      -- all parts are read; what is left to check is that the two kinds agree
      split
      · next hkind =>
        simp only [Checked.valid.injEq, Node.mk.injEq]
        grind
      · next hkind =>
        simp only [Checked.refuse, reduceCtorEq, false_iff]
        rintro ⟨-, rfl, -, rfl⟩
        exact hkind rfl
  | _ => simp [decode, Read.record, Checked.refuse]

/-! ### Nodes that were read -/

/-- A value and the node that was read from it agree on the kind. -/
structure Aligned (ch : Channel) (m : Members) (n : Node) : Prop where
  /-- The kind beside the payload, given or filled in. -/
  kind : (align m).get? "type" = some (.text n.kind.name)
  /-- The kind that the payload names, given or filled in; the payload is read as one of this
  kind. -/
  payload : ∃ p : Members, (align m).get? "data" = some (.object p) ∧
    Payload.tag? p = some (.text n.kind.name) ∧ Payload.readTag p n.kind = .valid () ∧
    Payload.decodeAs ch n.kind (.object p) = .valid n.payload
  /-- A kind that was given beside the payload. -/
  beside : ∀ v, m.get? "type" = some v → v = .null ∨ v = .text n.kind.name
  /-- A kind that was given inside the payload, in either spelling. -/
  inside : ∀ p : Members, m.get? "data" = some (.object p) → ∀ sp v,
    p.get? (FieldName.nodeType.spell sp) = some v → v = .null ∨ v = .text n.kind.name

@[simp] theorem present?_none : present? none = none := rfl

@[simp] theorem present?_null : present? (some .null) = none := rfl

theorem present?_some (hv : v ≠ .null) : present? (some v) = some v := by
  cases v <;> first | rfl | exact absurd rfl hv

theorem eq_null_of_present? (h : present? (some v) = none) : v = .null := by
  by_contra hv
  rw [present?_some hv] at h
  exact absurd h (by simp)

/-- A kind that is given beside the payload is left as it is. -/
theorem get?_type_align (h : m.get? "type" = some v) (hv : v ≠ .null) :
    (align m).get? "type" = some v := by
  rw [align, h, present?_some hv]
  split
  · split
    · rw [Members.get?_put_of_ne _ _ (by decide), h]
    · exact h
  · next hnone => simp at hnone
  · rw [Members.get?_put_of_ne _ _ (by decide), h]
  · rw [Members.get?_put_of_ne _ _ (by decide), h]
  · exact h

/-- The payload of a node is left as it is, or gets the name of its kind. -/
theorem get?_data_align (h : m.get? "data" = some (.object p)) :
    (align m).get? "data" = some (.object p) ∨
      present? (payloadTag? p) = none ∧
        ∃ k, (align m).get? "data" = some (.object (p.put FieldName.nodeType.editor k)) := by
  rw [align, h]
  split
  · next payload kind heq _ =>
    obtain rfl : p = payload := by simpa using heq
    split
    · next hnone => exact Or.inr ⟨hnone, kind, Members.get?_put_self _ _ _⟩
    · exact Or.inl h
  · split
    · exact Or.inl (by rw [Members.get?_put_of_ne _ _ (by decide), h])
    · exact Or.inl h
  · next heq _ => simp at heq
  · next heq _ => simp at heq
  · exact Or.inl h

/-- A node is only read where all names of its kind agree. -/
theorem aligned_of_decode (h : decode ch v = .valid n) : ∃ m, v = .object m ∧ Aligned ch m n := by
  obtain ⟨m, rfl, hparts⟩ := decode_eq_valid_iff.1 h
  obtain ⟨-, htype, -, hdata⟩ := parts_eq_valid_iff.1 hparts
  obtain ⟨t, ht, hchoice⟩ := Read.required_same_eq_valid_iff.1 htype
  obtain rfl := Read.choice_kind_eq_valid_iff.1 hchoice
  obtain ⟨w, hw, hpayload⟩ := Read.required_same_eq_valid_iff.1 hdata
  obtain ⟨p, rfl, htag, hread⟩ := Payload.decode_eq_valid_iff.1 hpayload
  have hreadTag := Payload.readTag_of_read hread
  refine ⟨m, rfl, ht, ⟨p, hw, htag, hreadTag, hread⟩, fun v hv => ?_, fun q hq sp v hv => ?_⟩
  · by_cases hnull : v = .null
    · exact Or.inl hnull
    · rw [get?_type_align hv hnull] at ht
      exact Or.inr (Option.some.inj ht)
  · rcases get?_data_align hq with hsame | ⟨hnone, k, hput⟩
    · obtain rfl : p = q := by simpa [hw] using hsame
      cases sp with
      | editor => exact Or.inr (Payload.eq_of_readTag hv hreadTag)
      | plain => exact Or.inr (Option.some.inj ((Payload.tag?_of_plain hv).symm.trans htag))
    · -- the kind was only filled in because the editor's spelling was missing or `null`
      obtain rfl : p = q.put FieldName.nodeType.editor k := by simpa [hw] using hput
      cases sp with
      | editor =>
        have hgiven : payloadTag? q = some v := by
          rw [payloadTag?, show q.get? FieldName.nodeType.editor = some v from hv]
        exact Or.inl (eq_null_of_present? (hgiven ▸ hnone))
      | plain =>
        have hother : FieldName.nodeType.plain ≠ FieldName.nodeType.editor := by decide
        rw [Payload.tag?_of_plain ((Members.get?_put_of_ne q k hother).trans hv)] at htag
        exact Or.inr (Option.some.inj htag)

/-! ### Ways to give a node -/

/-- The members of a value that make up a node.  Nothing is said about their order, nor about
others. -/
structure Gives (m : Members) (id : Json) (position kind payload : Option Json) : Prop where
  id : m.get? "id" = some id
  position : m.get? "position" = position
  kind : m.get? "type" = kind
  payload : m.get? "data" = payload

/-- The ways to give a node with a payload of some kind: the kind is named beside the payload,
inside of it, or in both places, and an empty payload may be left out. -/
inductive Tells (id : Json) (position : Option Json) (k : Json) : Members → Members → Prop
  | beside {d m : Members} (h : Gives m id position (some k) (some (.object d))) :
      Tells id position k d m
  | both {d m : Members} (h : Gives m id position (some k)
      (some (.object (d.put FieldName.nodeType.editor k)))) : Tells id position k d m
  | inside {d m : Members} (h : Gives m id position none
      (some (.object (d.put FieldName.nodeType.editor k)))) : Tells id position k d m
  | insideOnly {d m : Members} (h : Gives m id position (some .null)
      (some (.object (d.put FieldName.nodeType.editor k)))) : Tells id position k d m
  | absent {m : Members} (h : Gives m id position (some k) none) : Tells id position k [] m
  | null {m : Members} (h : Gives m id position (some k) (some .null)) : Tells id position k [] m

theorem Gives.put_kind {kind payload : Option Json} (h : Gives m id position kind payload)
    (v : Json) : Gives (m.put "type" v) id position (some v) payload where
  id := by rw [Members.get?_put_of_ne _ _ (by decide), h.id]
  position := by rw [Members.get?_put_of_ne _ _ (by decide), h.position]
  kind := Members.get?_put_self _ _ _
  payload := by rw [Members.get?_put_of_ne _ _ (by decide), h.payload]

theorem Gives.put_payload {kind payload : Option Json} (h : Gives m id position kind payload)
    (v : Json) : Gives (m.put "data" v) id position kind (some v) where
  id := by rw [Members.get?_put_of_ne _ _ (by decide), h.id]
  position := by rw [Members.get?_put_of_ne _ _ (by decide), h.position]
  kind := by rw [Members.get?_put_of_ne _ _ (by decide), h.kind]
  payload := Members.get?_put_self _ _ _

/-- Alignment brings all ways to give a node to one.  Whichever of the two places named the kind,
and whether or not there was a payload, the kind is in both places afterwards. -/
theorem Tells.align (h : Tells id position k d m) (hk : k ≠ .null)
    (heditor : d.get? FieldName.nodeType.editor = none)
    (hplain : d.get? FieldName.nodeType.plain = none) :
    Gives (align m) id position (some k)
      (some (.object (d.put FieldName.nodeType.editor k))) := by
  have hkind : present? (some k) = some k := present?_some hk
  have hbare : present? (payloadTag? d) = none := by
    rw [payloadTag?, heditor, hplain]
    rfl
  have hnamed : present? (payloadTag? (d.put FieldName.nodeType.editor k)) = some k := by
    rw [payloadTag?, Members.get?_put_self, hkind]
  unfold Node.align
  -- three ways lack the tag in the payload and two the kind beside it; alignment fills in the one
  -- that is missing
  cases h with
  | beside h =>
    simp only [h.payload, h.kind, hkind, hbare]
    exact h.put_payload _
  | both h =>
    simp only [h.payload, h.kind, hkind, hnamed]
    exact h
  | inside h =>
    simp only [h.payload, h.kind, present?_none, hnamed]
    exact h.put_kind _
  | insideOnly h =>
    simp only [h.payload, h.kind, present?_null, hnamed]
    exact h.put_kind _
  | absent h =>
    simp only [h.payload, h.kind, hkind]
    exact h.put_payload _
  | null h =>
    simp only [h.payload, h.kind, hkind]
    exact h.put_payload _

/-- The parts of a node depend on its members only. -/
theorem Gives.parts_eq (h : Gives m id position (some k) (some v))
    (h' : Gives m' id position (some k) (some v)) (ch : Channel) : parts ch m = parts ch m' := by
  have hposition : m.get? "position" = m'.get? "position" := h.position.trans h'.position.symm
  unfold parts Read.optional
  rw [Read.required_same h.id, Read.required_same h'.id, Read.required_same h.kind,
    Read.required_same h'.kind, Read.required_same h.payload, Read.required_same h'.payload,
    Members.find?_same, Members.find?_same, hposition]

/-- A payload that names a kind is of the kind that the name is read as. -/
theorem Gives.kind_eq (h : Gives m id position (some k) (some (.object p)))
    (htag : Payload.tag? p = some k) {i : NodeId} {kind : Kind} {place : Option Position}
    {payload : Payload} (hparts : parts ch m = .valid (i, kind, place, payload)) :
    payload.kind = kind := by
  obtain ⟨-, htype, -, hdata⟩ := parts_eq_valid_iff.1 hparts
  obtain ⟨t, ht, hchoice⟩ := Read.required_same_eq_valid_iff.1 htype
  obtain ⟨w, hw, hpayload⟩ := Read.required_same_eq_valid_iff.1 hdata
  obtain rfl : k = t := by simpa [h.kind] using ht
  obtain rfl : Json.object p = w := by simpa [h.payload] using hw
  obtain ⟨q, hq, hname, -⟩ := Payload.decode_eq_valid_iff.1 hpayload
  obtain rfl : p = q := by simpa using hq
  have hkind : Payload.kindOf? k = some kind :=
    Payload.kindOf?_eq_some_iff.2 (Read.choice_kind_eq_valid_iff.1 hchoice)
  have hpayloadKind : Payload.kindOf? k = some payload.kind :=
    Payload.kindOf?_eq_some_iff.2 (Option.some.inj (htag.symm.trans hname))
  exact Option.some.inj (hpayloadKind.symm.trans hkind)

/-- What is read does not depend on the way in which a node is given. -/
theorem Tells.decode_eq (h : Tells id position k d m) (h' : Tells id position k d m')
    (hk : k ≠ .null) (heditor : d.get? FieldName.nodeType.editor = none)
    (hplain : d.get? FieldName.nodeType.plain = none) (ch : Channel) :
    decode ch (.object m) = decode ch (.object m') := by
  have hgives := h.align hk heditor hplain
  have hgives' := h'.align hk heditor hplain
  have htag : Payload.tag? (d.put FieldName.nodeType.editor k) = some k := by
    rw [Payload.tag?, Members.get?_put_of_ne _ _ (by decide), hplain]
    exact Members.get?_put_self _ _ _
  rw [decode_object, decode_object, hgives.parts_eq hgives' ch]
  cases hparts : parts ch (Node.align m') with
  | invalid is => rfl
  | valid x =>
    -- the value as it was given only shows where the kinds differ, and they do not
    have hkind : x.2.2.2.kind = x.2.1 := hgives'.kind_eq htag hparts
    simp only [Checked.andThen_valid, ofParts, if_pos hkind]

/-- **What is read agrees on the kind, and is the same in whichever way the kind is given.** -/
theorem decode_aligned (ch : Channel) :
    (∀ v n, decode ch v = .valid n → ∃ m, v = .object m ∧ Aligned ch m n) ∧
      ∀ id position k d, k ≠ .null → d.get? FieldName.nodeType.editor = none →
        d.get? FieldName.nodeType.plain = none →
        ∀ m m', Tells id position k d m → Tells id position k d m' →
          decode ch (.object m) = decode ch (.object m') :=
  ⟨fun _ _ h => aligned_of_decode h, fun _ _ _ _ hk heditor hplain _ _ h h' =>
    h.decode_eq h' hk heditor hplain ch⟩

/-- A node that names its kind inside its payload only. -/
def terse : Members :=
  [("data", .object [("name", .text "Ann"), ("nodeType", .text "agent")]), ("id", .text "a")]

/-- The same node with the name of its kind beside the payload, and a member that is not read. -/
def usual : Members :=
  [("id", .text "a"), ("selected", .bool true), ("type", .text "agent"),
    ("data", .object [("name", .text "Ann")])]

/-- Both values are read as the same agent, and a kind that is none is refused alike without a
payload and with `null` for it. -/
theorem decode_aligned_terse :
    decode .document (.object terse) = .valid ⟨"a", none, .agent { name := "Ann" }⟩ ∧
      (∃ m, Json.object terse = .object m ∧
        Aligned .document m ⟨"a", none, .agent { name := "Ann" }⟩) ∧
      decode .document (.object terse) = decode .document (.object usual) ∧
      decode .request (.object [("id", .text "a"), ("type", .int 7)]) =
        decode .request (.object [("type", .int 7), ("data", .null), ("id", .text "a")]) := by
  have hread : decode .document (.object terse) = .valid ⟨"a", none, .agent { name := "Ann" }⟩ :=
    rfl
  refine ⟨hread, (decode_aligned .document).1 _ _ hread, ?_, ?_⟩
  · exact (decode_aligned .document).2 (.text "a") none (.text "agent") [("name", .text "Ann")]
      (by simp) rfl rfl terse usual (.inside ⟨rfl, rfl, rfl, rfl⟩) (.beside ⟨rfl, rfl, rfl, rfl⟩)
  · exact (decode_aligned .request).2 (.text "a") none (.int 7) [] (by simp) rfl rfl _ _
      (.absent ⟨rfl, rfl, rfl, rfl⟩) (.null ⟨rfl, rfl, rfl, rfl⟩)

end Node
end AgentFlow
