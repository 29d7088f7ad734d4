import AgentFlow.Proofs.Dangling
import AgentFlow.Proofs.History
import AgentFlow.Service.Endpoint

/-!
# The status of an answer

Each endpoint for workflows has an answer to every document that can be read, however the document
is made: ids may be repeated, edges may run in circles or join kinds that do not fit.  Which answer
it is depends on which of a few things is missing, and the endpoints agree on what an edge that ends
nowhere is.  A status of 500 would tell of a fault in the service itself.

## Main definitions

* `Response.errorCodes`: the codes of the errors that a response lists.

## Main results

* `Graph.exists_code_mem_findings_iff`: the check of a whole graph finds an unknown end exactly if
  some edge ends nowhere.
* `Endpoint.status_compileAnswer`, `Endpoint.status_connectionAnswer`,
  `Endpoint.status_messageAnswer`: the status of an answer, endpoint by endpoint.
* `Endpoint.status_of_answers`: **what is answered to a document, and that no request fails.**
-/

namespace AgentFlow

/-! ### Edges that end nowhere, as they are found -/

namespace Graph

variable {g : Graph}

/-- An unknown end is found at an edge exactly if the edge ends nowhere. -/
theorem exists_code_mem_edgeFindings_iff {e : Edge} :
    (∃ f ∈ g.edgeFindings e, f.code ∈ ["INVALID_EDGE_SOURCE", "INVALID_EDGE_TARGET"]) ↔
      g.Dangles e := by
  rw [Dangles, ← node?_eq_none_iff, ← node?_eq_none_iff]
  cases hs : g.node? e.source with
  | none => cases ht : g.node? e.target <;> simp [edgeFindings, hs, ht, Finding.code]
  | some s =>
    cases ht : g.node? e.target with
    | none => simp [edgeFindings, hs, ht, Finding.code]
    | some t =>
      simp only [edgeFindings, hs, ht]
      split <;> simp [Finding.code, Reason.code]

/-- The check of a whole graph finds an unknown end exactly if some edge ends nowhere. -/
theorem exists_code_mem_findings_iff :
    (∃ f ∈ g.findings, f.code ∈ ["INVALID_EDGE_SOURCE", "INVALID_EDGE_TARGET"]) ↔
      ∃ e ∈ g.edges, g.Dangles e := by
  simp only [← exists_code_mem_edgeFindings_iff]
  constructor
  · rintro ⟨f, hf, hcode⟩
    simp only [findings, inputFans, runnerFans, List.mem_append, List.mem_map,
      List.mem_flatMap] at hf
    -- the other parts of the check have other codes
    rcases hf with ((((⟨_, -, rfl⟩ | ⟨_, -, rfl⟩) | ⟨e, he, hf⟩) | ⟨_, -, rfl⟩) | ⟨_, -, rfl⟩) |
      ⟨_, -, rfl⟩
    · simp [Finding.code] at hcode
    · simp [Finding.code] at hcode
    · exact ⟨e, he, f, hf, hcode⟩
    · simp [Finding.code, Reason.code] at hcode
    · simp [Finding.code, Reason.code] at hcode
    · simp [Finding.code, Reason.code] at hcode
  · rintro ⟨e, he, f, hf, hcode⟩
    refine ⟨f, ?_, hcode⟩
    simp only [findings, List.mem_append, List.mem_flatMap]
    exact Or.inl (Or.inl (Or.inl (Or.inr ⟨e, he, hf⟩)))

end Graph

/-! ### Findings in a response -/

/-- The text of a member of an object. -/
def Json.textAt? (key : String) : Json → Option String
  | .object m =>
    match Members.get? m key with
    | some (.text s) => some s
    | _ => none
  | _ => none

/-- The codes of the errors that a response lists. -/
def Response.errorCodes (r : Response) : List String :=
  match r.content with
  | .json (.object m) =>
    match Members.get? m "errors" with
    | some (.list items) => items.filterMap (Json.textAt? "code")
    | _ => []
  | _ => []

namespace Endpoint

variable {d : Document} {id : NodeId}

/-- All findings are reported, with their codes. -/
theorem errorCodes_validateAnswer (d : Document) :
    (validateAnswer d).errorCodes = d.graph.findings.map Finding.code := by
  have hcode : ∀ f : Finding, f.encode.textAt? "code" = some f.code := fun _ => rfl
  have hcodes : (validateAnswer d).errorCodes =
      (d.graph.findings.map Finding.encode).filterMap (Json.textAt? "code") := rfl
  rw [hcodes, List.filterMap_map]
  simp [hcode]

/-! ### Opening a document -/

theorem ofDocument_of_not_dangles (h : ¬ ∃ e ∈ d.graph.edges, d.graph.Dangles e) :
    d.graph.Closed ∧ Store.ofDocument d = .ok { document := d } := by
  have hclosed : d.graph.Closed := not_not.1 (mt Graph.not_closed_iff.1 h)
  exact ⟨hclosed, Store.ofDocument_eq_ok_iff.2 ⟨hclosed, rfl⟩⟩

/-- A document with an edge that ends nowhere is not opened. -/
theorem exists_ofDocument_eq_error (h : ∃ e ∈ d.graph.edges, d.graph.Dangles e) :
    ∃ r, Store.ofDocument d = .error r := by
  cases hs : Store.ofDocument d with
  | error r => exact ⟨r, rfl⟩
  | ok s => exact absurd (Store.ofDocument_eq_ok_iff.1 hs).1 (Graph.not_closed_iff.2 h)

theorem node_of_not_mem {s : Store} (h : id ∉ s.graph.nodeIds) :
    s.node id = .error (.nodeNotFound id) := by
  rw [Store.node, Graph.firstNode?_eq_none_iff.2 h]

theorem exists_node_of_mem {s : Store} (h : id ∈ s.graph.nodeIds) : ∃ n, s.node id = .ok n := by
  obtain ⟨n, hn⟩ := Graph.exists_firstNode? h
  exact ⟨n, Store.node_eq_ok_iff.2 hn⟩

/-- Setting a message fails for want of a node, or because the first node with the id is no input,
and for no other reason. -/
theorem result_setInputMessage {s : Store} (hclosed : s.graph.Closed) (id : NodeId) (m : String) :
    (s.setInputMessage id (.text m)).result =
      match s.graph.firstNode? id with
      | none => .error (.nodeNotFound id)
      | some n => if n.kind ≠ .input then .error (.messageOnNonInput id) else .ok () := by
  unfold Store.setInputMessage
  cases hfirst : s.graph.firstNode? id with
  | none =>
    rw [node_of_not_mem (Graph.firstNode?_eq_none_iff.1 hfirst)]
    rfl
  | some n =>
    rw [Store.node_eq_ok_iff.2 hfirst]
    by_cases hkind : n.kind = .input
    · -- the message is propagated from the node that was looked at
      simp only [hkind, ne_eq, not_true_eq_false, if_false]
      rw [Graph.propagate_eq hclosed hfirst hkind]
      rfl
    · simp only [ne_eq, hkind, not_false_eq_true, if_true]
      rfl

/-! ### One endpoint after the other -/

/-- Every program that is asked for is given, unless an edge ends nowhere. -/
theorem status_compileAnswer (d : Document) : (compileAnswer d).status =
    if ∃ e ∈ d.graph.edges, d.graph.Dangles e then 422 else 200 := by
  unfold compileAnswer
  split_ifs with hdangles
  · obtain ⟨r, hr⟩ := exists_ofDocument_eq_error hdangles
    rw [hr]
    rfl
  · obtain ⟨hclosed, hopen⟩ := ofDocument_of_not_dangles hdangles
    obtain ⟨_, p, -, hgenerate⟩ := Graph.exists_complete hclosed
      ⟨some d.name, some d.description⟩
    have hcompile : d.compile = .ok p.render := hgenerate
    rw [hopen]
    simp only [hcompile]
    rfl

/-- An edge is checked between any two nodes that are there.  Whether it may be drawn is part of the
answer and not of its status. -/
theorem status_connectionAnswer (q : ConnectionQuestion) : (connectionAnswer q).status =
    if ∃ e ∈ q.workflow.graph.edges, q.workflow.graph.Dangles e then 422
    else if q.source ∉ q.workflow.graph.nodeIds ∨ q.target ∉ q.workflow.graph.nodeIds then 404
    else 200 := by
  unfold connectionAnswer
  split_ifs with hdangles hmissing
  · obtain ⟨r, hr⟩ := exists_ofDocument_eq_error hdangles
    rw [hr]
    rfl
  · rw [(ofDocument_of_not_dangles hdangles).2]
    -- the source is looked up first, and the target only if that is there
    by_cases hsource : q.source ∈ q.workflow.graph.nodeIds
    · obtain ⟨a, ha⟩ := exists_node_of_mem (s := { document := q.workflow }) hsource
      have hb := node_of_not_mem (s := { document := q.workflow })
        (hmissing.resolve_left (not_not.2 hsource))
      simp only [ha, hb]
      rfl
    · simp only [node_of_not_mem (s := { document := q.workflow }) hsource]
      rfl
  · rw [not_or, not_not, not_not] at hmissing
    obtain ⟨a, ha⟩ := exists_node_of_mem (s := { document := q.workflow }) hmissing.1
    obtain ⟨b, hb⟩ := exists_node_of_mem (s := { document := q.workflow }) hmissing.2
    rw [(ofDocument_of_not_dangles hdangles).2]
    simp only [ha, hb]
    rfl

/-- A message is set at any input, found as the first node with its id. -/
theorem status_messageAnswer (e : MessageEdit) : (messageAnswer e).status =
    if ∃ x ∈ e.workflow.graph.edges, e.workflow.graph.Dangles x then 422
    else
      match e.workflow.graph.firstNode? e.inputId with
      | none => 404
      | some n => if n.kind ≠ .input then 400 else 200 := by
  unfold messageAnswer
  split_ifs with hdangles
  · obtain ⟨r, hr⟩ := exists_ofDocument_eq_error hdangles
    rw [hr]
    rfl
  · -- once every edge has its ends, passing the message on cannot fail
    obtain ⟨hclosed, hopen⟩ := ofDocument_of_not_dangles hdangles
    rw [hopen]
    simp only [result_setInputMessage (s := { document := e.workflow }) hclosed, Store.graph]
    cases e.workflow.graph.firstNode? e.inputId with
    | none => rfl
    | some n =>
      by_cases hkind : n.kind ≠ .input
      · simp only [if_pos hkind]
        rfl
      · simp only [if_neg hkind]
        rfl

/-! ### All requests -/

/-- A request whose body cannot be read is refused, and every other one is answered. -/
theorem status_withBody_ne {α : Type} {answer : α → Response}
    (h : ∀ a, (answer a).status ≠ 500) (r : Request) (decode : Json → Checked α) :
    (withBody r decode answer).status ≠ 500 := by
  unfold withBody
  split
  · simp [refused]
  · split
    · simp [unreadable, Response.detail]
    · split
      · simp [malformed]
      · simp [unreadable, Response.detail]
      · simp [unreadable, Response.detail]
      · split
        · simp [refused]
        · next a _ => exact h a

/-- No request whatever makes an endpoint fail, be its body no document at all. -/
theorem status_handle_ne (e : Endpoint) (r : Request) : (e.handle r).status ≠ 500 := by
  cases e with
  | health => simp [handle, Response.ok]
  | nodeKinds => simp [handle, Response.ok]
  | compile =>
    refine status_withBody_ne (fun d => ?_) r _
    rw [status_compileAnswer]
    split <;> simp
  | validate => exact status_withBody_ne (fun d => by simp [validateAnswer, Response.ok]) r _
  | connection =>
    refine status_withBody_ne (fun q => ?_) r _
    rw [status_connectionAnswer]
    split_ifs <;> simp
  | inputMessage =>
    refine status_withBody_ne (fun e => ?_) r _
    rw [status_messageAnswer]
    split
    · simp
    · split
      · simp
      · split <;> simp

/-- **What is answered to a document, and that no request fails.**  The program of a document, the
check of an edge and the edit of a message are refused with 422 exactly if some edge of the document
ends nowhere, and exactly then the check of the whole document reports an unknown end.  Apart from
that only a node that is not there, or that is no input, stands in the way of an answer. -/
theorem status_of_answers (d : Document) (source target id : NodeId) (message : String) :
    (compileAnswer d).status =
        (if ∃ e ∈ d.graph.edges, d.graph.Dangles e then 422 else 200) ∧
      (connectionAnswer ⟨d, source, target⟩).status =
        (if ∃ e ∈ d.graph.edges, d.graph.Dangles e then 422
        else if source ∉ d.graph.nodeIds ∨ target ∉ d.graph.nodeIds then 404
        else 200) ∧
      (messageAnswer ⟨d, id, message⟩).status =
        (if ∃ e ∈ d.graph.edges, d.graph.Dangles e then 422
        else
          match d.graph.firstNode? id with
          | none => 404
          | some n => if n.kind ≠ .input then 400 else 200) ∧
      (validateAnswer d).status = 200 ∧
      ((∃ code ∈ (validateAnswer d).errorCodes,
          code ∈ ["INVALID_EDGE_SOURCE", "INVALID_EDGE_TARGET"]) ↔
        ∃ e ∈ d.graph.edges, d.graph.Dangles e) ∧
      ∀ (e : Endpoint) (r : Request), (e.handle r).status ≠ 500 := by
  refine ⟨status_compileAnswer d, status_connectionAnswer ⟨d, source, target⟩,
    status_messageAnswer ⟨d, id, message⟩, rfl, ?_, status_handle_ne⟩
  rw [errorCodes_validateAnswer, ← Graph.exists_code_mem_findings_iff]
  simp only [List.mem_map, exists_exists_and_eq_and]

end Endpoint
end AgentFlow
