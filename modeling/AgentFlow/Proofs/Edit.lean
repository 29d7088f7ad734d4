import AgentFlow.Proofs.Change
import AgentFlow.Proofs.UpToDate

/-!
# Editing a member of a node

An edit names a member by either of its spellings.  It succeeds if the node has the member and the
value fits, except that the input of a runner cannot be edited.  Then this member of this node is
changed and nothing else, with one exception: the runners downstream of an input follow its message.

## Main definitions

* `Node.withMember`: a node with another value of a member.
* `Graph.withMember`: a graph with another value of a member of a node.

## Main results

* `Store.setField_eq`: what an edit does, under either spelling.
* `Store.setField_exact`: **when an edit succeeds, and that it changes one member of one node.**
-/

namespace AgentFlow

/-- The node with another value of a member. -/
def Node.withMember (n : Node) (a : Member) (x : a.Value) : Node :=
  { n with payload := a.put x n.payload }

/-- What becomes of a node when a member of another node is edited: the runners downstream follow a
message, and nothing follows the other members. -/
def Node.following (n : Node) (runners : List NodeId) : (a : Member) → a.Value → Node
  | .message, x => if n.id ∈ runners then n.withMember .input x else n
  | _, _ => n

/-- The graph with another value of a member of a node.  The runners that are named follow a
message. -/
def Graph.withMember (g : Graph) (id : NodeId) (a : Member) (x : a.Value)
    (runners : List NodeId) : Graph :=
  { g with
    nodes := g.nodes.map fun n =>
      if n.id = id then n.withMember a x else n.following runners a x }

variable {a : Member} {n : Node} {s : Store} {v : Json}

/-! ### Finding a member by its name -/

namespace Member

/-- A member is found by both of its spellings. -/
theorem resolve?_spell {k : Kind} (ha : a ∈ ofKind k) (sp : Spelling) :
    Payload.resolve? k (a.fieldName.spell sp) = some a.fieldName := by
  have hall : ∀ b ∈ ofKind k, ∀ sp ∈ [Spelling.editor, .plain],
      Payload.resolve? k (b.fieldName.spell sp) = some b.fieldName := by
    cases k <;> decide
  exact hall a ha sp (by cases sp <;> simp)

/-- No spelling of a member is that of something fixed. -/
theorem spell_not_mem_fixedFields (a : Member) (sp : Spelling) :
    a.fieldName.spell sp ∉ Store.fixedFields := by
  cases a <;> cases sp <;> decide

/-- What is found by a name is a member, or it is fixed. -/
theorem exists_of_resolve? {k : Kind} {field : String} {f : FieldName}
    (hf : Payload.resolve? k field = some f) (hfixed : field ∉ Store.fixedFields) :
    ∃ a ∈ ofKind k, a.fieldName = f ∧ ∃ sp, field = a.fieldName.spell sp := by
  obtain ⟨hmem, hspelling⟩ := Store.mem_of_resolve? hf
  have hne : f ≠ .nodeType := by
    rintro rfl
    rcases hspelling with rfl | rfl
    · exact hfixed (by decide)
    · exact hfixed (by decide)
  have hmember : f ∈ (ofKind k).map fieldName := by
    rw [map_fieldName_ofKind]
    exact List.mem_filter.2 ⟨hmem, by simpa using hne⟩
  obtain ⟨a, ha, rfl⟩ := List.mem_map.1 hmember
  refine ⟨a, ha, rfl, ?_⟩
  rcases hspelling with rfl | rfl
  · exact ⟨.plain, rfl⟩
  · exact ⟨.editor, rfl⟩

theorem plain_eq_input_iff : a.fieldName.plain = "input" ↔ a = .input := by
  cases a <;> decide

theorem plain_eq_message_iff : a.fieldName.plain = "message" ↔ a = .message := by
  cases a <;> decide

theorem kind_of_message_mem {k : Kind} (h : message ∈ ofKind k) : k = .input := by
  cases k <;> simp [ofKind] at h ⊢

theorem kind_of_input_mem {k : Kind} (h : input ∈ ofKind k) : k = .runner := by
  cases k <;> simp [ofKind] at h ⊢

end Member

/-! ### What an edit does -/

namespace Graph

/-- Nothing follows a member that is no message. -/
theorem withMember_of_ne (hne : a ≠ .message) (g : Graph) (id : NodeId) (x : a.Value)
    (runners : List NodeId) :
    g.withMember id a x runners =
      { g with nodes := g.nodes.map fun n => if n.id = id then n.withMember a x else n } := by
  have hfollowing : ∀ n : Node, n.following runners a x = n := by
    intro n
    cases a <;> first | rfl | exact absurd rfl hne
  simp only [withMember, hfollowing]

/-- Propagating a message edits the member of the input and, with it, what the runners start with.
-/
theorem withMember_message (g : Graph) (id : NodeId) (x : String) (runners : List NodeId) :
    g.withMember id .message x runners =
      { g with nodes := g.nodes.map (received id x runners) } := by
  have hmessage : ∀ n : Node,
      n.withMember .message x = ⟨n.id, n.position, n.payload.withMessage x⟩ := by
    rintro ⟨i, position, payload⟩
    cases payload <;> rfl
  have hinput : ∀ n : Node, n.withMember .input x = ⟨n.id, n.position, n.payload.withInput x⟩ := by
    rintro ⟨i, position, payload⟩
    cases payload <;> rfl
  simp only [withMember, Node.following, hmessage, hinput]
  rfl

end Graph

namespace Store

/-- Putting an edited payload in place edits the node, and as ids are not repeated it edits no other
one. -/
theorem replacePayload_put (hnodup : s.graph.nodeIds.Nodup) (hn : n ∈ s.graph.nodes)
    (hne : a ≠ .message) (x : a.Value) (runners : List NodeId) :
    s.replacePayload n (a.put x n.payload) =
      ⟨s.withGraph (s.graph.withMember n.id a x runners), .ok (n.withMember a x)⟩ := by
  have hnodes : s.graph.nodes.map (fun m =>
        if m.id = n.id then { n with payload := a.put x n.payload } else m) =
      s.graph.nodes.map fun m => if m.id = n.id then m.withMember a x else m := by
    apply List.map_congr_left
    intro m hm
    by_cases hid : m.id = n.id
    · obtain rfl := Graph.eq_of_id_eq hnodup hm hn hid
      rfl
    · rw [if_neg hid, if_neg hid]
  rw [Graph.withMember_of_ne hne, replacePayload, hnodes]
  rfl

/-- Setting the message of an input succeeds, and brings it to the runners that hear it. -/
theorem setInputMessage_eq (hnodup : s.graph.nodeIds.Nodup) (hclosed : s.graph.Closed)
    (hn : n ∈ s.graph.nodes) (hkind : n.kind = .input) (m : String) :
    s.setInputMessage n.id (.text m) =
      ⟨s.withGraph { s.graph with
        nodes := s.graph.nodes.map (Graph.received n.id m (s.graph.heard n.id)) }, .ok ()⟩ := by
  have hfirst : s.graph.firstNode? n.id = some n :=
    (Graph.firstNode?_eq_some_iff hnodup).2 ⟨hn, rfl⟩
  rw [setInputMessage, node_eq_ok_iff.2 hfirst]
  simp only [hkind, ne_eq, not_true_eq_false, if_false, Graph.propagate_eq hclosed hfirst hkind]
  rfl

/-- Setting the message of an input edits it, and the runners downstream follow. -/
theorem setInputMessage_put (hnodup : s.graph.nodeIds.Nodup) (hclosed : s.graph.Closed)
    (hn : n ∈ s.graph.nodes) (hkind : n.kind = .input) (x : Member.message.Value) :
    let t := s.withGraph (s.graph.withMember n.id .message x (s.graph.heard n.id))
    s.setInputMessage n.id (.text x) = ⟨t, .ok ()⟩ ∧
      t.node n.id = .ok (n.withMember .message x) := by
  intro t
  have hset := setInputMessage_eq hnodup hclosed hn hkind x
  have hshape := Graph.sameShape_received s.graph n.id x (s.graph.heard n.id)
  rw [← Graph.withMember_message] at hset hshape
  have hnodup' : t.graph.nodeIds.Nodup := by
    show (s.graph.withMember n.id .message x (s.graph.heard n.id)).nodeIds.Nodup
    rwa [hshape.nodeIds_eq]
  refine ⟨hset, node_eq_ok_iff.2 ((Graph.firstNode?_eq_some_iff hnodup').2 ⟨?_, rfl⟩)⟩
  exact List.mem_map.2 ⟨n, hn, if_pos rfl⟩

/-- **What an edit does, under either spelling.**  The resulting store and the reply are given in
full, so two spellings that lead to the same member cannot differ. -/
theorem setField_eq (hnodup : s.graph.nodeIds.Nodup) (hclosed : s.graph.Closed)
    (hn : n ∈ s.graph.nodes) (ha : a ∈ Member.ofKind n.kind) (hinput : a ≠ .input) {x : a.Value}
    (hx : a.read v = .valid x) (sp : Spelling) :
    s.setField n.id (a.fieldName.spell sp) v =
      ⟨s.withGraph (s.graph.withMember n.id a x (s.graph.heard n.id)),
        .ok (n.withMember a x)⟩ := by
  have hfirst : s.graph.firstNode? n.id = some n :=
    (Graph.firstNode?_eq_some_iff hnodup).2 ⟨hn, rfl⟩
  have hderived : ¬ (n.kind = .runner ∧ a.fieldName.plain = "input") := fun h =>
    hinput (Member.plain_eq_input_iff.1 h.2)
  have hedited : editedPayload n.payload a.fieldName v = .valid (a.put x n.payload) :=
    (editedPayload_eq_valid_iff ha).2 ⟨x, hx, rfl⟩
  rw [setField, node_eq_ok_iff.2 hfirst]
  simp only [if_neg (a.spell_not_mem_fixedFields sp), Member.resolve?_spell ha sp,
    if_neg hderived, hedited]
  -- the message of an input is passed on to runners; every other member stays in its node
  by_cases hmessage : a = .message
  · subst hmessage
    have hkind := Member.kind_of_message_mem ha
    obtain ⟨hset, hnode⟩ := setInputMessage_put hnodup hclosed hn hkind x
    obtain ⟨d, hd⟩ : ∃ d, n.payload = .input d := by
      unfold Node.kind at hkind
      cases hp : n.payload with
      | input d => exact ⟨d, rfl⟩
      | _ => simp [hp, Payload.kind] at hkind
    have hput : Member.message.put x n.payload = .input { d with message := x } := by
      rw [hd]
      rfl
    simp only [hput, if_pos (Member.plain_eq_message_iff.2 rfl), hset]
    exact congrArg (Outcome.mk _) hnode
  · have hplain : a.fieldName.plain ≠ "message" := mt Member.plain_eq_message_iff.1 hmessage
    rw [← replacePayload_put hnodup hn hmessage x]
    split
    · next d hd => rw [if_neg hplain, hd]
    · rfl

/-- An edit that succeeds names a member that can be edited, and its value fits. -/
theorem exists_member_of_setField (hfirst : s.graph.firstNode? n.id = some n) {field : String}
    {m : Node} (h : (s.setField n.id field v).result = .ok m) :
    ∃ a ∈ Member.ofKind n.kind, a ≠ .input ∧ (∃ sp, field = a.fieldName.spell sp) ∧
      ∃ x, a.read v = .valid x := by
  rw [setField, node_eq_ok_iff.2 hfirst] at h
  -- the ways to be refused, in order: a fixed field, an unknown one, the input of a runner, a value
  -- that does not fit
  by_cases hfixed : field ∈ fixedFields
  · simp [hfixed, fail] at h
  simp only [if_neg hfixed] at h
  cases hf : Payload.resolve? n.kind field with
  | none => simp [hf, fail] at h
  | some f =>
    obtain ⟨a, ha, rfl, hspelled⟩ := Member.exists_of_resolve? hf hfixed
    simp only [hf] at h
    by_cases hderived : n.kind = .runner ∧ a.fieldName.plain = "input"
    · simp [if_pos hderived, fail] at h
    rw [if_neg hderived] at h
    have hinput : a ≠ .input := by
      rintro rfl
      exact hderived ⟨Member.kind_of_input_mem ha, rfl⟩
    cases hedited : editedPayload n.payload a.fieldName v with
    | invalid issues => simp [hedited, fail] at h
    | valid p =>
      obtain ⟨x, hx, -⟩ := (editedPayload_eq_valid_iff ha).1 hedited
      exact ⟨a, ha, hinput, hspelled, x, hx⟩

/-- **When an edit succeeds, and that it changes one member of one node.**  In a graph whose ids are
all different and whose edges all have their ends, an edit of a node succeeds exactly if it names a
member of the node by one of its spellings, the input of a runner apart, and the value fits the
member.  Then, whichever spelling is used, the member of the node holds the value as it was read and
the node has its kind and its other members as before.  No other node is changed, except that the
runners that are found downstream of an input follow its message, and edges, name and description of
the workflow stay. -/
theorem setField_exact (hnodup : s.graph.nodeIds.Nodup) (hclosed : s.graph.Closed)
    (hn : n ∈ s.graph.nodes) (v : Json) :
    (∀ field, (∃ m, (s.setField n.id field v).result = .ok m) ↔
      ∃ a ∈ Member.ofKind n.kind, a ≠ .input ∧ (∃ sp, field = a.fieldName.spell sp) ∧
        ∃ x, a.read v = .valid x) ∧
    ∀ a ∈ Member.ofKind n.kind, a ≠ .input → ∀ x, a.read v = .valid x →
      ∃ runners, s.graph.downstream n.id = .ok runners ∧
        (∀ m ∈ s.graph.nodes, m.id ∈ runners → m.kind = .runner) ∧
        (∀ sp, s.setField n.id (a.fieldName.spell sp) v =
          ⟨s.withGraph (s.graph.withMember n.id a x runners), .ok (n.withMember a x)⟩) ∧
        (n.withMember a x).kind = n.kind ∧ a.get? (n.withMember a x).payload = some x ∧
        ∀ b, b ≠ a → b.get? (n.withMember a x).payload = b.get? n.payload := by
  have hfirst : s.graph.firstNode? n.id = some n :=
    (Graph.firstNode?_eq_some_iff hnodup).2 ⟨hn, rfl⟩
  have hid := Graph.id_mem_nodeIds hn
  refine ⟨fun field => ⟨?_, ?_⟩, fun a ha hinput x hx => ?_⟩
  · rintro ⟨m, hm⟩
    exact exists_member_of_setField hfirst hm
  · rintro ⟨a, ha, hinput, ⟨sp, rfl⟩, x, hx⟩
    exact ⟨_, congrArg Outcome.result (setField_eq hnodup hclosed hn ha hinput hx sp)⟩
  · refine ⟨s.graph.heard n.id, Graph.downstream_eq_heard hclosed hid, fun m hm hmem => ?_,
      setField_eq hnodup hclosed hn ha hinput hx, Member.kind_put x n.payload,
      Member.get?_put_self ha x, fun b hb => Member.get?_put_of_ne hb x n.payload⟩
    -- what is found downstream is a runner by its id, and ids are not repeated
    obtain ⟨r, hr, heq, hkind⟩ :=
      (Graph.hasKind_iff hnodup).1 ((Graph.mem_heard_iff hclosed hid).1 hmem).2
    rwa [Graph.eq_of_id_eq hnodup hr hm heq] at hkind

/-- An input with an agent and a runner behind it, and a runner that is joined to nothing. -/
def parlour : Store :=
  { document := { graph := {
      nodes := [⟨"i", none, .input { message := "hello" }⟩, ⟨"a", none, .agent { name := "Ann" }⟩,
        ⟨"r", none, .runner { input := "hello" }⟩, ⟨"q", none, .runner { input := "old" }⟩]
      edges := [⟨"1", "i", "a"⟩, ⟨"2", "a", "r"⟩] } } }

/-- The runner behind the agent follows the message and the other one does not.  A text that stands
for a truth value is taken under either spelling.  The input of a runner cannot be edited. -/
theorem setField_exact_parlour :
    parlour.graph.nodeIds.Nodup ∧ parlour.graph.Closed ∧
      (∃ t, parlour.setField "i" "message" (.text "goodbye") =
          ⟨t, .ok ⟨"i", none, .input { message := "goodbye" }⟩⟩ ∧
        t.graph.nodes.map (·.payload.input?) = [none, none, some "goodbye", some "old"]) ∧
      (∀ sp, (parlour.setField "a" (FieldName.isExpanded.spell sp) (.text "Yes")).result =
        .ok ⟨"a", none, .agent { name := "Ann", isExpanded := true }⟩) ∧
      ¬ ∃ m, (parlour.setField "r" "input" (.text "new")).result = .ok m := by
  have hnodup : parlour.graph.nodeIds.Nodup := by decide
  have hclosed : parlour.graph.Closed := by unfold Graph.Closed; decide
  have hi : ⟨"i", none, .input { message := "hello" }⟩ ∈ parlour.graph.nodes := by decide
  have ha : ⟨"a", none, .agent { name := "Ann" }⟩ ∈ parlour.graph.nodes := by decide
  have hr : ⟨"r", none, .runner { input := "hello" }⟩ ∈ parlour.graph.nodes := by decide
  obtain ⟨runners, hrunners, -, htold, -⟩ := (setField_exact hnodup hclosed hi (.text "goodbye")).2
    .message (by decide) (by decide) "goodbye" rfl
  obtain ⟨_, -, -, hshown, -⟩ := (setField_exact hnodup hclosed ha (.text "Yes")).2
    .isExpanded (by decide) (by decide) true rfl
  have hderived := (setField_exact hnodup hclosed hr (.text "new")).1 "input"
  have hdownstream : parlour.graph.downstream "i" = .ok ["r"] := by decide +kernel
  obtain rfl : ["r"] = runners := Except.ok.inj (hdownstream.symm.trans hrunners)
  refine ⟨hnodup, hclosed, ⟨_, htold .plain, by decide⟩, fun sp => ?_, ?_⟩
  · exact congrArg Outcome.result (hshown sp)
  · rw [hderived]
    rintro ⟨b, hb, hne, ⟨sp, hspelled⟩, -⟩
    have hnone : ∀ b ∈ Member.ofKind .runner, b ≠ .input → ∀ sp ∈ [Spelling.editor, .plain],
        "input" ≠ b.fieldName.spell sp := by
      decide
    exact hnone b hb hne sp (by cases sp <;> simp) hspelled

end Store
end AgentFlow
