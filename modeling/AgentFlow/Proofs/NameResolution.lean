import AgentFlow.Proofs.Build
import AgentFlow.Proofs.Definition

/-!
# Names in programs resolve

In the program of a graph every name that is referred to is bound, once, by a definition of the
right kind, and unless agents hand off to each other in a circle it is bound before it is used.
This is about the definitions of a program; what their blocks of text define and mention is read
off the text elsewhere.

## Main definitions

* `Program.subjects`: what the definitions of a program are definitions of, in order.
* `Graph.handoffEdges`: the edges between two agents.

## Main results

* `Program.Built.forall₂_binds`: definitions have the names of what they define.
* `Program.Built.nodup_names`: no name is bound twice.
* `Program.Built.exists_definition`: what is needed is defined.
* `Program.Built.known`: what is referred to is known.
* `Program.Built.ordered`: **without circles, names are bound before they are used.**
-/

namespace AgentFlow

variable {g : Graph} {links : List Link} {p : Program} {x r : Role × String} {s : String}

namespace Program

open Definition

/-! ### What is defined -/

/-- What the definitions of a program are definitions of, in order. -/
def subjects (g : Graph) (links : List Link) : List (Role × String) :=
  (Naming.ofGraph g).schemas.map (fun e => (Role.record, e.schema.modelName)) ++
    (toolNodes g).map (fun x => (Role.tool, x.1)) ++
    (guardrailNodes g).flatMap (fun x => [(Role.checker, x.1), (Role.guard, x.1)]) ++
    (agentOrder g links).map (fun x => (Role.agent, x.1))

/-- The definition is what it should be, and has the name it should have. -/
def Binds (names : Naming) (x : Role × String) (d : Definition) : Prop :=
  d.role = x.1 ∧ names.nameOf? x = some d.name

/-- Definitions have the names of what they define, in the order in which a program defines them. -/
theorem Built.forall₂_binds (hb : Built g links p) :
    List.Forall₂ (Binds (Naming.ofGraph g)) (subjects g links) p.definitions := by
  unfold subjects definitions
  refine List.rel_append (List.rel_append (List.rel_append ?_ ?_) ?_) ?_
  · rw [hb.classes, List.map_map, List.forall₂_map_left_iff, List.forall₂_map_right_iff,
      List.forall₂_same]
    exact fun e he => ⟨rfl, (Naming.apart_ofGraph g).nameOf?_record he⟩
  · rw [List.forall₂_map_left_iff, List.forall₂_map_right_iff]
    exact hb.tools.imp fun x t h => ⟨rfl, nameOf?_of_toolFunction h⟩
  · refine List.rel_flatMap hb.guardrails fun x q h => ?_
    obtain ⟨hchecker, hguard, -⟩ := nameOf?_of_guardrail h
    exact .cons ⟨rfl, hchecker⟩ (.cons ⟨rfl, hguard⟩ .nil)
  · rw [List.forall₂_map_left_iff, List.forall₂_map_right_iff]
    exact hb.agents.imp fun x a h => ⟨rfl, (nameOf?_of_agentDefinition h).1⟩

theorem nodup_map_role {α : Type} {ids : α → String} {l : List α} (h : (l.map ids).Nodup)
    (role : Role) : (l.map fun x => (role, ids x)).Nodup := by
  have hcomp : l.map (fun x => (role, ids x)) = (l.map ids).map (Prod.mk role) := by
    rw [List.map_map]
    rfl
  rw [hcomp]
  exact h.map fun _ _ heq => (Prod.mk.inj heq).2

theorem disjoint_of_roles {xs ys : List (Role × String)} (h : ∀ x ∈ xs, ∀ y ∈ ys, x.1 ≠ y.1) :
    List.Disjoint xs ys :=
  fun x hx hy => h x hx x hy rfl

/-- Nothing is defined twice: ids are different within a role, and roles are told apart. -/
theorem nodup_subjects (hnodup : g.nodeIds.Nodup) (links : List Link) :
    (subjects g links).Nodup := by
  have hguardrails : ((guardrailNodes g).map (·.1)).Nodup :=
    hnodup.sublist (selects_guardrail.sublist g.nodes)
  have hagents : ((agentOrder g links).map (·.1)).Nodup :=
    ((agentOrder_perm hnodup links).map _).nodup_iff.2
      (hnodup.sublist (selects_agent.sublist g.nodes))
  unfold subjects
  -- ids tell apart what has one role, and roles tell apart the rest
  refine (((nodup_map_role (Naming.apart_ofGraph g).models .record).append
    (nodup_map_role (hnodup.sublist (selects_tool.sublist g.nodes)) .tool) ?_).append ?_ ?_).append
    (nodup_map_role hagents .agent) ?_
  · exact disjoint_of_roles (by grind)
  · rw [List.nodup_flatMap]
    refine ⟨fun x _ => by simp, (List.pairwise_map.1 hguardrails).imp fun hne => ?_⟩
    simp [Function.onFun, Ne.symm hne]
  · exact disjoint_of_roles (by grind)
  · exact disjoint_of_roles (by grind)

/-- No name is bound twice, since different things get different names and nothing is defined twice.
-/
theorem Built.nodup_names (hb : Built g links p) (hnodup : g.nodeIds.Nodup) :
    (p.definitions.map (·.name)).Nodup := by
  have hkeys := nodup_subjects hnodup links
  have hbinds := hb.forall₂_binds
  generalize subjects g links = xs at hkeys hbinds
  generalize p.definitions = ds at hbinds
  induction hbinds with
  | nil => exact List.nodup_nil
  | @cons x d xs ds hd hrest ih =>
    rw [List.nodup_cons] at hkeys
    rw [List.map_cons, List.nodup_cons]
    refine ⟨fun hmem => ?_, ih hkeys.2⟩
    -- two definitions with one name would define the same
    obtain ⟨e, he, hname⟩ := List.mem_map.1 hmem
    obtain ⟨y, hy, -, hname'⟩ := exists_left_of_forall₂ hrest he
    have hxy : x = y := (Naming.apart_ofGraph g).injective x y d.name hd.2 (hname ▸ hname')
    exact hkeys.1 (hxy ▸ hy)

/-- Names that are bound are usable, and the program has no other use for them. -/
theorem Built.usable_name (hb : Built g links p) {d : Definition} (hd : d ∈ p.definitions) :
    Identifier.Usable d.name ∧ d.name ∉ Identifier.moduleNames := by
  obtain ⟨x, -, -, hx⟩ := exists_left_of_forall₂ hb.forall₂_binds hd
  obtain ⟨husable, -, hmodule⟩ := (Naming.apart_ofGraph g).given x d.name hx
  exact ⟨husable, hmodule⟩

/-! ### What is needed is defined -/

theorem role_of_mem_needs {schema : Option StructuredSchema}
    (hx : x ∈ StructuredSchema.needs schema) : x.1 = .record := by
  cases schema with
  | none => simp [StructuredSchema.needs] at hx
  | some d =>
    rw [StructuredSchema.needs] at hx
    split at hx
    · simp at hx
    · rw [List.mem_singleton.1 hx]

/-- A schema that some node needs has an entry, and every entry makes a class. -/
theorem mem_subjects_of_record (hx : g.Needs x) (hrole : x.1 = .record) : x ∈ subjects g links := by
  obtain ⟨role, a⟩ := x
  obtain rfl : role = .record := hrole
  obtain ⟨s, hs⟩ := hx.exists_nameOf?
  obtain ⟨e, he, -⟩ := Option.map_eq_some_iff.1 hs
  have hname : e.schema.modelName = a := by simpa using List.find?_some he
  simp only [subjects, List.mem_append, List.mem_map]
  exact Or.inl (Or.inl (Or.inl ⟨e, List.mem_of_find?_eq_some he, by rw [hname]⟩))

/-- What needs a name is defined: tools, agents, and guardrails with their checkers by their own
parts of the program, and schemas by the classes. -/
theorem mem_subjects_of_needs (hnodup : g.nodeIds.Nodup) (hx : g.Needs x) :
    x ∈ subjects g links := by
  have hrecord : x.1 = .record → x ∈ subjects g links := mem_subjects_of_record hx
  obtain ⟨n, hn, hx⟩ := hx
  rw [Node.needs] at hx
  -- classes are shared between nodes and were found above; the rest depends on the kind
  cases hp : n.payload with
  | functionTool d =>
    have hmem : (n.id, d) ∈ toolNodes g := selects_tool.mem_iff.2 ⟨n, hn, rfl, hp⟩
    rw [hp] at hx
    obtain rfl := List.mem_singleton.1 hx
    simp only [subjects, List.mem_append, List.mem_map]
    exact Or.inl (Or.inl (Or.inr ⟨_, hmem, rfl⟩))
  | agent d =>
    have hmem : (n.id, d) ∈ agentOrder g links :=
      (agentOrder_perm hnodup links).mem_iff.2 (selects_agent.mem_iff.2 ⟨n, hn, rfl, hp⟩)
    rw [hp] at hx
    rcases List.mem_cons.1 hx with rfl | hx
    · simp only [subjects, List.mem_append, List.mem_map]
      exact Or.inr ⟨_, hmem, rfl⟩
    · exact hrecord (role_of_mem_needs hx)
  | guardrail d =>
    have hmem : (n.id, d) ∈ guardrailNodes g := selects_guardrail.mem_iff.2 ⟨n, hn, rfl, hp⟩
    have hboth : ∀ y ∈ [(Role.checker, n.id), (Role.guard, n.id)], y ∈ subjects g links := by
      intro y hy
      simp only [subjects, List.mem_append, List.mem_flatMap]
      exact Or.inl (Or.inr ⟨_, hmem, hy⟩)
    rw [hp] at hx
    rcases List.mem_cons.1 hx with rfl | hx
    · exact hboth _ (by simp)
    · rcases List.mem_cons.1 hx with rfl | hx
      · exact hboth _ (by simp)
      · exact hrecord (role_of_mem_needs hx)
  | runner d => simp [hp] at hx
  | input d => simp [hp] at hx

/-- The name of something that is needed. -/
def Known (g : Graph) (r : Role × String) : Prop :=
  ∃ a, g.Needs (r.1, a) ∧ (Naming.ofGraph g).nameOf? (r.1, a) = some r.2

/-- What is needed is defined under its name. -/
theorem Built.exists_definition (hb : Built g links p) (hnodup : g.nodeIds.Nodup) (hr : Known g r) :
    ∃ d ∈ p.definitions, d.key = r := by
  obtain ⟨a, hneeds, hname⟩ := hr
  obtain ⟨d, hd, hrole, hname'⟩ :=
    exists_right_of_forall₂ hb.forall₂_binds (mem_subjects_of_needs hnodup hneeds)
  refine ⟨d, hd, ?_⟩
  rw [key, hrole, Option.some.inj (hname'.symm.trans hname)]

/-! ### What is referred to is needed -/

theorem known_of_className? {schema : Option StructuredSchema}
    (hneeds : ∀ y ∈ StructuredSchema.needs schema, g.Needs y)
    (hs : (Naming.ofGraph g).className? schema = some s) : Known g (.record, s) := by
  obtain ⟨a, ha, hname⟩ := Naming.nameOf?_of_className? hs
  exact ⟨a, hneeds _ ha, hname⟩

/-- The references of a checker agent are to record classes. -/
theorem known_of_checker {y : NodeId × GuardrailData} {q : Checker × Guard}
    (hy : y ∈ guardrailNodes g) (h : guardrail (Naming.ofGraph g) y.1 y.2 = .ok q)
    (hr : r ∈ (Definition.checker q.1).references) : Known g r ∧ r.1 = .record := by
  obtain ⟨-, -, htype, -⟩ := nameOf?_of_guardrail h
  obtain ⟨s, hs, rfl⟩ := List.mem_map.1 hr
  rw [htype, Option.mem_toList] at hs
  exact ⟨known_of_className? (needs_of_mem_guardrailNodes hy).2.2 hs, rfl⟩

/-- The references of an agent are to what it is joined to. -/
theorem known_of_agent (hlinks : g.links = .ok links) {y : NodeId × AgentData}
    {a : AgentDefinition} (hy : y ∈ agentNodes g)
    (h : agentDefinition (Naming.ofGraph g) links y.1 y.2 = .ok a)
    (hr : r ∈ (Definition.agent a).references) :
    Known g r ∧ (r.1 = .agent → ∃ t ∈ Wiring.handoffs links y.1,
      (Naming.ofGraph g).nameOf? (.agent, t) = some r.2) := by
  obtain ⟨-, htools, hhandoffs, htype, hguards⟩ := nameOf?_of_agentDefinition h
  simp only [Definition.references, List.mem_append, List.mem_map] at hr
  rcases hr with ((⟨s, hs, rfl⟩ | ⟨s, hs, rfl⟩) | ⟨s, hs, rfl⟩) | ⟨s, hs, rfl⟩
  · obtain ⟨n, hn, hname⟩ := htools s hs
    exact ⟨⟨n.id, needs_of_mem_sources hlinks hn .tool (by decide), hname⟩, by simp⟩
  · obtain ⟨t, ht, hname⟩ := hhandoffs s hs
    exact ⟨⟨t, needs_of_mem_handoffs hlinks ht, hname⟩, fun _ => ⟨t, ht, hname⟩⟩
  · rw [htype, Option.mem_toList] at hs
    exact ⟨known_of_className? (needs_of_mem_agentNodes hy).2 hs, by simp⟩
  · obtain ⟨n, hn, hname⟩ := hguards s (List.mem_append.2 hs)
    exact ⟨⟨n.id, needs_of_mem_sources hlinks hn .guard (by decide), hname⟩, by simp⟩

/-- Every name that a program refers to is that of something needed. -/
theorem Built.known (hb : Built g links p) (hlinks : g.links = .ok links)
    (hr : r ∈ p.references) : Known g r := by
  rw [Program.references, List.mem_append, List.mem_flatMap, List.mem_flatMap] at hr
  rcases hr with ⟨d, hd, hr⟩ | ⟨c, hc, hr⟩
  · -- the reference of a definition: classes and tools have none
    simp only [definitions, List.mem_append, List.mem_map, List.mem_flatMap] at hd
    rcases hd with ((⟨c, -, rfl⟩ | ⟨t, -, rfl⟩) | ⟨q, hq, hd⟩) | ⟨a, ha, rfl⟩
    · simp [Definition.references] at hr
    · simp [Definition.references] at hr
    · obtain ⟨y, hy, hguardrail⟩ := exists_left_of_forall₂ hb.guardrails hq
      rcases List.mem_cons.1 hd with rfl | hd
      · exact (known_of_checker hy hguardrail hr).1
      · obtain rfl := List.mem_singleton.1 hd
        obtain ⟨hname, -, -, hchecker⟩ := nameOf?_of_guardrail hguardrail
        rw [List.mem_singleton.1 hr, hchecker]
        exact ⟨y.1, (needs_of_mem_guardrailNodes hy).1, hname⟩
    · obtain ⟨y, hy, hagent⟩ := exists_left_of_forall₂ hb.agents ha
      exact (known_of_agent hlinks (Wiring.mem_of_mem_arrange hy) hagent hr).1
  · obtain ⟨y, hy, hstanza⟩ := exists_left_of_forall₂ hb.stanzas hc
    cases c with
    | call agent input context mode =>
      obtain ⟨a, ha, hname⟩ := nameOf?_of_stanza hstanza
      rw [List.mem_singleton.1 hr]
      exact ⟨a, needs_of_runnerAgent? hlinks ha, hname⟩
    | idle label => simp [Stanza.references] at hr

end Program

/-! ### Order -/

/-- The edges between two agents, those from an agent to itself excepted. -/
def Graph.handoffEdges (g : Graph) : List Edge :=
  g.edges.filter fun e => e.source ≠ e.target ∧
    (∃ n ∈ g.nodes, n.id = e.source ∧ n.kind = .agent) ∧
    ∃ n ∈ g.nodes, n.id = e.target ∧ n.kind = .agent

namespace Program

open Definition Relation

/-- Agents that wait for each other in a circle hand off to each other in a circle. -/
theorem not_transGen_awaited (hlinks : g.links = .ok links) (h : Edge.Acyclic g.handoffEdges)
    (a : NodeId) :
    ¬ TransGen (Wiring.Awaited (Wiring.handoffs links) ((agentNodes g).map (·.1))) a a := by
  intro hcircle
  -- whoever is awaited is the target of an edge, so the circle is run through backwards
  have hjoins : ∀ x y, Wiring.Awaited (Wiring.handoffs links) ((agentNodes g).map (·.1)) x y →
      Edge.Joins g.handoffEdges y x := by
    rintro x y ⟨hy, hx⟩
    obtain ⟨z, hz, rfl⟩ := List.mem_map.1 hy
    obtain ⟨n, hn, hid, hpayload⟩ := selects_agent.mem_iff.1 hz
    obtain ⟨l, hl, ⟨hsource, htarget, hkind⟩, rfl⟩ := Wiring.mem_handoffs.1 hx
    obtain ⟨he, -, hmem, hid'⟩ := Graph.mem_of_mem_links hlinks hl
    refine ⟨l.edge, ?_, hsource, hid'.symm⟩
    rw [Graph.handoffEdges, List.mem_filter, decide_eq_true_eq]
    refine ⟨he, ?_, ⟨n, hn, hid.trans hsource.symm, ?_⟩, l.target, hmem, hid', hkind⟩
    · rw [hsource]
      exact Ne.symm htarget
    · rw [Node.kind, hpayload]
      rfl
  exact h a (transGen_swap.1 (TransGen.mono hjoins _ _ hcircle))

/-- Without circles, an agent comes after those it hands off to. -/
theorem mem_before_agentOrder (hlinks : g.links = .ok links) (h : Edge.Acyclic g.handoffEdges)
    {before after : List (NodeId × AgentData)} {y : NodeId × AgentData}
    (horder : agentOrder g links = before ++ y :: after) {t : NodeId}
    (ht : t ∈ Wiring.handoffs links y.1) : t ∈ before.map (·.1) := by
  have htargets : ∀ z ∈ agentNodes g, ∀ t ∈ Wiring.handoffs links z.1,
      t ∈ [] ∨ t ∈ (agentNodes g).map (·.1) := by
    intro z _ t ht
    obtain ⟨l, hl, ⟨-, -, hkind⟩, rfl⟩ := Wiring.mem_handoffs.1 ht
    obtain ⟨-, -, hmem, -⟩ := Graph.mem_of_mem_links hlinks hl
    cases hp : l.target.payload with
    | agent d =>
      have hagent : (l.target.id, d) ∈ agentNodes g :=
        selects_agent.mem_iff.2 ⟨l.target, hmem, rfl, hp⟩
      exact Or.inr (List.mem_map_of_mem hagent)
    | _ => simp [Node.kind, hp, Payload.kind] at hkind
  have hbefore := Wiring.mem_before_arrange (not_transGen_awaited hlinks h)
    (fun z hz => List.mem_map_of_mem hz) htargets horder t ht
  exact hbefore.resolve_left List.not_mem_nil

/-- Guardrails are in order once all record classes are known, as each checker stands right before
the function that asks it. -/
theorem ordered_guardrails {known : List (Role × String)} {qs : List (Checker × Guard)}
    (h : ∀ q ∈ qs, (∀ r ∈ (Definition.checker q.1).references, r ∈ known) ∧
      q.2.checker = q.1.name) :
    Ordered known (qs.flatMap fun (c, g) => [.checker c, .guard g]) := by
  induction qs generalizing known with
  | nil => trivial
  | cons q qs ih =>
    rw [List.forall_mem_cons] at h
    obtain ⟨⟨hchecker, hguard⟩, hrest⟩ := h
    refine ⟨hchecker, ?_, ?_⟩
    · intro r hr
      rw [List.mem_singleton.1 hr, hguard]
      exact List.mem_append_right _ (List.mem_singleton.2 rfl)
    · refine ih fun q' hq' => ⟨fun r hr => ?_, (hrest q' hq').2⟩
      exact List.mem_append_left _ (List.mem_append_left _ ((hrest q' hq').1 r hr))

theorem mem_classes_of_role {d : Definition} (hd : d ∈ p.definitions) (hrole : d.role = .record) :
    d ∈ p.classes.map Definition.record := by
  simp only [definitions, List.mem_append, List.mem_map, List.mem_flatMap] at hd ⊢
  rcases hd with ((hc | ⟨t, -, rfl⟩) | ⟨q, -, hd⟩) | ⟨a, -, rfl⟩
  · exact hc
  · exact absurd hrole (by simp [role])
  · rcases List.mem_cons.1 hd with rfl | hd
    · exact absurd hrole (by simp [role])
    · exact absurd hrole (by simp [List.mem_singleton.1 hd, role])
  · exact absurd hrole (by simp [role])

/-- Agents are in order once everything else is known, unless there is a circle. -/
theorem Built.ordered_agents (hb : Built g links p) (hlinks : g.links = .ok links)
    (hnodup : g.nodeIds.Nodup) (hacyclic : Edge.Acyclic g.handoffEdges)
    {known : List (Role × String)} (hknown : ∀ r, Known g r → r.1 ≠ .agent → r ∈ known) :
    Ordered known (p.agents.map .agent) := by
  refine ordered_iff.2 fun before d after hsplit r hr => ?_
  obtain ⟨as, rest, hagents, rfl, hrest⟩ := List.map_eq_append_iff.1 hsplit
  obtain ⟨a, cs, rfl, rfl, -⟩ := List.map_eq_cons_iff.1 hrest
  have hforall := hb.agents
  rw [hagents] at hforall
  obtain ⟨ys, y, zs, horder, hbefore, hagent⟩ := exists_split_of_forall₂ hforall
  have hy : y ∈ agentNodes g :=
    (agentOrder_perm hnodup links).mem_iff.1 (horder ▸ List.mem_append_right _ List.mem_cons_self)
  obtain ⟨hr, htarget⟩ := known_of_agent hlinks hy hagent hr
  by_cases hrole : r.1 = .agent
  · -- a handoff: its target was taken before
    obtain ⟨t, ht, hname⟩ := htarget hrole
    obtain ⟨z, hz, rfl⟩ := List.mem_map.1 (mem_before_agentOrder hlinks hacyclic horder ht)
    obtain ⟨b, hmem, hdefinition⟩ := exists_right_of_forall₂ hbefore hz
    have heq := (nameOf?_of_agentDefinition hdefinition).1.symm.trans hname
    exact Or.inr ⟨.agent b, List.mem_map_of_mem hmem, Prod.ext hrole.symm (Option.some.inj heq)⟩
  · exact Or.inl (hknown r hr hrole)

/-- Without circles, names are bound before they are used: classes first, then tools and guardrails,
and agents after those they hand off to. -/
theorem Built.ordered (hb : Built g links p) (hlinks : g.links = .ok links)
    (hnodup : g.nodeIds.Nodup) (hacyclic : Edge.Acyclic g.handoffEdges) :
    Ordered [] p.definitions := by
  rw [definitions, ordered_append, ordered_append, ordered_append]
  refine ⟨⟨⟨?_, ?_⟩, ?_⟩, ?_⟩
  · exact ordered_of_forall_mem (by simp [Definition.references])
  · exact ordered_of_forall_mem (by simp [Definition.references])
  · -- checkers refer to classes only, and guards to the checker right before them
    refine ordered_guardrails fun q hq => ?_
    obtain ⟨y, hy, hguardrail⟩ := exists_left_of_forall₂ hb.guardrails hq
    refine ⟨fun r hr => ?_, (nameOf?_of_guardrail hguardrail).2.2.2⟩
    obtain ⟨hknown, hrole⟩ := known_of_checker hy hguardrail hr
    obtain ⟨d, hd, rfl⟩ := hb.exists_definition hnodup hknown
    rw [List.nil_append, List.map_append]
    exact List.mem_append_left _ (List.mem_map_of_mem (mem_classes_of_role hd hrole))
  · -- agents come last
    refine hb.ordered_agents hlinks hnodup hacyclic fun r hr hrole => ?_
    obtain ⟨d, hd, rfl⟩ := hb.exists_definition hnodup hr
    rcases List.mem_append.1 hd with hd | hd
    · exact List.mem_map_of_mem hd
    · obtain ⟨b, -, rfl⟩ := List.mem_map.1 hd
      exact absurd rfl hrole

end Program
end AgentFlow
