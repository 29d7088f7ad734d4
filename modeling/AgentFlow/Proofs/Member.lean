import AgentFlow.Proofs.RoundTrip

/-!
# Members of payloads

The members of all payloads, each with its spellings, the type of its values, the value that stands
for it where it is missing, and how a value is read.  Reading a payload is reading its members one
by one.

## Main definitions

* `Member`, `Member.Value`, `Member.read`: a member, what it holds, and how that is read.
* `Member.get?`, `Member.put`: the value of a member, and the payload with another value.
* `Member.find`: a member as it is found in an object.

## Main results

* `Member.get?_put_self`, `Member.get?_put_of_ne`: another value changes one member.
* `Member.find_of_read`, `Member.read_of_find`: **a payload is read member by member.**
-/

namespace AgentFlow

/-- A member of payloads.  The kind is not one of them, since it never changes. -/
inductive Member where
  | name
  | isExpanded
  | instructions
  | handoffDescription
  | outputSchema
  | input
  | executionMode
  | context
  | description
  | parameters
  | returnType
  | implementation
  | message
  | side
  | checkerName
  | checkerInstructions
  | checkerSchema
  | tripwireLogic
  deriving DecidableEq, Repr

namespace Member

/-- What a member holds. -/
abbrev Value : Member → Type
  | name | instructions | input | implementation | message => String
  | checkerName | checkerInstructions | tripwireLogic => String
  | handoffDescription | context | description => Option String
  | outputSchema | checkerSchema => Option StructuredSchema
  | isExpanded => Bool
  | executionMode => ExecutionMode
  | parameters => List ToolParameter
  | returnType => ValueType
  | side => GuardrailSide

/-- The spellings of a member. -/
def fieldName : Member → FieldName
  | name => .same "name"
  | isExpanded => .isExpanded
  | instructions => .same "instructions"
  | handoffDescription => .same "handoff_description"
  | outputSchema => .outputSchema
  | input => .same "input"
  | executionMode => .same "execution_mode"
  | context => .same "context"
  | description => .same "description"
  | parameters => .same "parameters"
  | returnType => .returnType
  | implementation => .same "implementation"
  | message => .same "message"
  | side => .guardrailType
  | checkerName => .checkerName
  | checkerInstructions => .checkerInstructions
  | checkerSchema => .checkerSchema
  | tripwireLogic => .tripwireLogic

/-- The value of a member that is missing. -/
def default : (a : Member) → a.Value
  | name | instructions | input | implementation | message => ("" : String)
  | checkerName | checkerInstructions | tripwireLogic => ("" : String)
  | handoffDescription | context | description => (none : Option String)
  | outputSchema | checkerSchema => (none : Option StructuredSchema)
  | isExpanded => false
  | executionMode => ExecutionMode.sync
  | parameters => ([] : List ToolParameter)
  | returnType => ValueType.string
  | side => GuardrailSide.input

/-- Reads the value of a member. -/
def read : (a : Member) → Json → Checked a.Value
  | name | instructions | input | implementation | message => Read.text
  | checkerName | checkerInstructions | tripwireLogic => Read.text
  | handoffDescription | context | description => Read.nullable Read.text
  | outputSchema | checkerSchema => Read.nullable (StructuredSchema.decode .document)
  | isExpanded => Read.truth
  | executionMode => Read.choice ExecutionMode
  | parameters => Read.items (ToolParameter.decode .document)
  | returnType => Read.choice ValueType
  | side => Read.choice GuardrailSide

/-- The members of a payload of a kind. -/
def ofKind (k : Kind) : List Member :=
  [name, isExpanded] ++
    match k with
    | .agent => [instructions, handoffDescription, outputSchema]
    | .runner => [input, executionMode, context]
    | .functionTool => [description, parameters, returnType, implementation]
    | .input => [message]
    | .guardrail =>
      [side, description, checkerName, checkerInstructions, checkerSchema, tripwireLogic]

/-- The value of a member, if the payload has it. -/
def get? : (a : Member) → Payload → Option a.Value
  | name, p => some p.heading.name
  | isExpanded, p => some p.heading.isExpanded
  | instructions, .agent d => some d.instructions
  | handoffDescription, .agent d => some d.handoffDescription
  | outputSchema, .agent d => some d.outputSchema
  | input, .runner d => some d.input
  | executionMode, .runner d => some d.executionMode
  | context, .runner d => some d.context
  | description, .functionTool d => some d.description
  | parameters, .functionTool d => some d.parameters
  | returnType, .functionTool d => some d.returnType
  | implementation, .functionTool d => some d.implementation
  | message, .input d => some d.message
  | side, .guardrail d => some d.side
  | description, .guardrail d => some d.description
  | checkerName, .guardrail d => some d.checkerName
  | checkerInstructions, .guardrail d => some d.checkerInstructions
  | checkerSchema, .guardrail d => some d.checkerSchema
  | tripwireLogic, .guardrail d => some d.tripwireLogic
  | _, _ => none

/-- The payload with another value of the member; one that does not have the member stays as it
is. -/
def put : (a : Member) → a.Value → Payload → Payload
  | name, x, p => p.withHeading { p.heading with name := x }
  | isExpanded, x, p => p.withHeading { p.heading with isExpanded := x }
  | instructions, x, .agent d => .agent { d with instructions := x }
  | handoffDescription, x, .agent d => .agent { d with handoffDescription := x }
  | outputSchema, x, .agent d => .agent { d with outputSchema := x }
  | input, x, .runner d => .runner { d with input := x }
  | executionMode, x, .runner d => .runner { d with executionMode := x }
  | context, x, .runner d => .runner { d with context := x }
  | description, x, .functionTool d => .functionTool { d with description := x }
  | parameters, x, .functionTool d => .functionTool { d with parameters := x }
  | returnType, x, .functionTool d => .functionTool { d with returnType := x }
  | implementation, x, .functionTool d => .functionTool { d with implementation := x }
  | message, x, .input d => .input { d with message := x }
  | side, x, .guardrail d => .guardrail { d with side := x }
  | description, x, .guardrail d => .guardrail { d with description := x }
  | checkerName, x, .guardrail d => .guardrail { d with checkerName := x }
  | checkerInstructions, x, .guardrail d => .guardrail { d with checkerInstructions := x }
  | checkerSchema, x, .guardrail d => .guardrail { d with checkerSchema := x }
  | tripwireLogic, x, .guardrail d => .guardrail { d with tripwireLogic := x }
  | _, _, p => p

variable {a b : Member} {p q : Payload}

/-! ### Values -/

@[simp] theorem kind_put (x : a.Value) (p : Payload) : (a.put x p).kind = p.kind := by
  cases a <;> cases p <;> rfl

theorem exists_get? (ha : a ∈ ofKind p.kind) : ∃ x, a.get? p = some x := by
  cases a <;> cases p <;> first | exact ⟨_, rfl⟩ | simp [ofKind, Payload.kind] at ha

theorem get?_put_self (ha : a ∈ ofKind p.kind) (x : a.Value) : a.get? (a.put x p) = some x := by
  cases a <;> cases p <;> first | rfl | simp [ofKind, Payload.kind] at ha

theorem get?_put_of_ne (hne : b ≠ a) (x : a.Value) (p : Payload) :
    b.get? (a.put x p) = b.get? p := by
  cases a <;> cases p <;> first | rfl | (cases b <;> first | rfl | exact absurd rfl hne)

/-! ### Spellings -/

/-- No two members can be taken for each other. -/
theorem apart_fieldName (hne : a ≠ b) : a.fieldName.Apart b.fieldName := by
  cases a <;> cases b <;> first | exact absurd rfl hne | decide

/-- No member can be taken for the kind. -/
theorem apart_nodeType (a : Member) : FieldName.nodeType.Apart a.fieldName := by
  cases a <;> decide

theorem map_fieldName_ofKind (k : Kind) :
    (ofKind k).map fieldName = (Payload.fieldNames k).filter (· ≠ .nodeType) := by
  cases k <;> decide

theorem fieldName_mem {k : Kind} (ha : a ∈ ofKind k) : a.fieldName ∈ Payload.fieldNames k := by
  have hmem := List.mem_map_of_mem (f := fieldName) ha
  rw [map_fieldName_ofKind] at hmem
  exact (List.mem_filter.1 hmem).1

/-! ### Reading member by member -/

/-- A member as it is found in an object. -/
def find (a : Member) (m : Members) : Checked a.Value :=
  Read.optional m a.fieldName a.default a.read

variable {m : Members} {k : Kind}

/-- The heading that all payloads share is read from two members of its own. -/
theorem heading_eq_valid_iff {h : Heading} :
    Heading.read m = .valid h ↔
      name.find m = .valid h.name ∧ isExpanded.find m = .valid h.isExpanded := by
  unfold Heading.read
  rw [Checked.seq_eq_valid_iff]
  constructor
  · rintro ⟨f, e, hf, he, rfl⟩
    obtain ⟨n, hn, rfl⟩ := Checked.map_eq_valid_iff.1 hf
    exact ⟨hn, he⟩
  · rintro ⟨hn, he⟩
    exact ⟨_, h.isExpanded, Checked.map_eq_valid_iff.2 ⟨h.name, hn, rfl⟩, he, rfl⟩

/-- What every payload begins with. -/
theorem exists_heading_of_seq {β : Type} {f : Heading → Unit → β} {g : β}
    (h : f <$> Heading.read m <*> Payload.readTag m k = .valid g) :
    ∃ heading, name.find m = .valid heading.name ∧
      isExpanded.find m = .valid heading.isExpanded ∧ f heading () = g := by
  obtain ⟨_, _, hf, -, rfl⟩ := Checked.seq_eq_valid_iff.1 h
  obtain ⟨heading, hheading, rfl⟩ := Checked.map_eq_valid_iff.1 hf
  obtain ⟨hname, hexpanded⟩ := heading_eq_valid_iff.1 hheading
  exact ⟨heading, hname, hexpanded, rfl⟩

/-- A payload that was read holds what its members were read as. -/
theorem find_of_read (h : Payload.read .document m k = .valid q) {x : a.Value}
    (hx : a.get? q = some x) : a.find m = .valid x := by
  -- what was read is taken apart from its last field back to the heading
  cases k with
  | agent =>
    obtain ⟨d, hd, rfl⟩ := Checked.map_eq_valid_iff.1 h
    obtain ⟨f₁, schema, h₁, hschema, rfl⟩ := Checked.seq_eq_valid_iff.1 hd
    obtain ⟨f₂, handoff, h₂, hhandoff, rfl⟩ := Checked.seq_eq_valid_iff.1 h₁
    obtain ⟨f₃, instructions, h₃, hinstructions, rfl⟩ := Checked.seq_eq_valid_iff.1 h₂
    obtain ⟨heading, hname, hexpanded, rfl⟩ := exists_heading_of_seq h₃
    cases a <;> cases hx <;> assumption
  | runner =>
    obtain ⟨d, hd, rfl⟩ := Checked.map_eq_valid_iff.1 h
    obtain ⟨f₁, context, h₁, hcontext, rfl⟩ := Checked.seq_eq_valid_iff.1 hd
    obtain ⟨f₂, mode, h₂, hmode, rfl⟩ := Checked.seq_eq_valid_iff.1 h₁
    obtain ⟨f₃, input, h₃, hinput, rfl⟩ := Checked.seq_eq_valid_iff.1 h₂
    obtain ⟨heading, hname, hexpanded, rfl⟩ := exists_heading_of_seq h₃
    cases a <;> cases hx <;> assumption
  | functionTool =>
    obtain ⟨d, hd, rfl⟩ := Checked.map_eq_valid_iff.1 h
    obtain ⟨f₁, implementation, h₁, himplementation, rfl⟩ := Checked.seq_eq_valid_iff.1 hd
    obtain ⟨f₂, type, h₂, htype, rfl⟩ := Checked.seq_eq_valid_iff.1 h₁
    obtain ⟨f₃, parameters, h₃, hparameters, rfl⟩ := Checked.seq_eq_valid_iff.1 h₂
    obtain ⟨f₄, description, h₄, hdescription, rfl⟩ := Checked.seq_eq_valid_iff.1 h₃
    obtain ⟨heading, hname, hexpanded, rfl⟩ := exists_heading_of_seq h₄
    cases a <;> cases hx <;> assumption
  | input =>
    obtain ⟨d, hd, rfl⟩ := Checked.map_eq_valid_iff.1 h
    obtain ⟨f₁, message, h₁, hmessage, rfl⟩ := Checked.seq_eq_valid_iff.1 hd
    obtain ⟨heading, hname, hexpanded, rfl⟩ := exists_heading_of_seq h₁
    cases a <;> cases hx <;> assumption
  | guardrail =>
    obtain ⟨d, hd, rfl⟩ := Checked.map_eq_valid_iff.1 h
    obtain ⟨f₁, logic, h₁, hlogic, rfl⟩ := Checked.seq_eq_valid_iff.1 hd
    obtain ⟨f₂, schema, h₂, hschema, rfl⟩ := Checked.seq_eq_valid_iff.1 h₁
    obtain ⟨f₃, instructions, h₃, hinstructions, rfl⟩ := Checked.seq_eq_valid_iff.1 h₂
    obtain ⟨f₄, checker, h₄, hchecker, rfl⟩ := Checked.seq_eq_valid_iff.1 h₃
    obtain ⟨f₅, description, h₅, hdescription, rfl⟩ := Checked.seq_eq_valid_iff.1 h₄
    obtain ⟨f₆, side, h₆, hside, rfl⟩ := Checked.seq_eq_valid_iff.1 h₅
    obtain ⟨heading, hname, hexpanded, rfl⟩ := exists_heading_of_seq h₆
    cases a <;> cases hx <;> assumption

/-- One more field is read behind fields that were read. -/
theorem seq_of_valid {α β : Type} {f : Checked (α → β)} {g : α → β} {c : Checked α} {x : α}
    (hf : f = .valid g) (hc : c = .valid x) : f <*> c = .valid (g x) :=
  Checked.seq_eq_valid_iff.2 ⟨g, x, hf, hc, rfl⟩

/-- A payload is read if each of its members is.  The tag is no member, and has to fit besides. -/
theorem read_of_find (htag : Payload.readTag m q.kind = .valid ())
    (h : ∀ (a : Member) (x : a.Value), a.get? q = some x → a.find m = .valid x) :
    Payload.read .document m q.kind = .valid q := by
  have hheading : Heading.read m = .valid q.heading :=
    heading_eq_valid_iff.2 ⟨h name _ rfl, h isExpanded _ rfl⟩
  have hstart : ∀ {β : Type} (f : Heading → Unit → β),
      f <$> Heading.read m <*> Payload.readTag m q.kind = .valid (f q.heading ()) :=
    fun f => seq_of_valid (Checked.map_eq_valid_iff.2 ⟨_, hheading, rfl⟩) htag
  -- from the heading on, member by member in the order in which the reader of the kind has them
  cases q with
  | agent d =>
    have h₁ := seq_of_valid (hstart fun h _ x y z => AgentData.mk h x y z) (h instructions _ rfl)
    have h₂ := seq_of_valid h₁ (h handoffDescription _ rfl)
    have h₃ := seq_of_valid h₂ (h outputSchema _ rfl)
    exact congrArg (Checked.map Payload.agent) h₃
  | runner d =>
    have h₁ := seq_of_valid (hstart fun h _ x y z => RunnerData.mk h x y z) (h input _ rfl)
    have h₂ := seq_of_valid h₁ (h executionMode _ rfl)
    have h₃ := seq_of_valid h₂ (h context _ rfl)
    exact congrArg (Checked.map Payload.runner) h₃
  | functionTool d =>
    have h₁ := seq_of_valid (hstart fun h _ w x y z => ToolData.mk h w x y z) (h description _ rfl)
    have h₂ := seq_of_valid h₁ (h parameters _ rfl)
    have h₃ := seq_of_valid h₂ (h returnType _ rfl)
    have h₄ := seq_of_valid h₃ (h implementation _ rfl)
    exact congrArg (Checked.map Payload.functionTool) h₄
  | input d =>
    have h₁ := seq_of_valid (hstart fun h _ x => InputData.mk h x) (h message _ rfl)
    exact congrArg (Checked.map Payload.input) h₁
  | guardrail d =>
    have h₁ := seq_of_valid (hstart fun h _ u v w x y z => GuardrailData.mk h u v w x y z)
      (h side _ rfl)
    have h₂ := seq_of_valid h₁ (h description _ rfl)
    have h₃ := seq_of_valid h₂ (h checkerName _ rfl)
    have h₄ := seq_of_valid h₃ (h checkerInstructions _ rfl)
    have h₅ := seq_of_valid h₄ (h checkerSchema _ rfl)
    have h₆ := seq_of_valid h₅ (h tripwireLogic _ rfl)
    exact congrArg (Checked.map Payload.guardrail) h₆

end Member

end AgentFlow
