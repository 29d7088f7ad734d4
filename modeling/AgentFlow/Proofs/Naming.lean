import AgentFlow.Program.Naming
import AgentFlow.Proofs.Bookkeeping
import AgentFlow.Proofs.Identifier

/-!
# Names are given apart

Whatever a graph looks like, naming its definitions is a matter of giving one fresh name after the
other.  So two definitions never share a name, even where nodes share an id and the later name of an
id replaces the earlier one.

## Main definitions

* `Role`, `Naming.nameOf?`: what is named, and its name.
* `Naming.Assigns`: one more name was given.
* `Naming.Grows`: some more names were given, each of them fresh.
* `Naming.Apart`: no name is given twice or belongs to the program itself.
* `Naming.issued`: all names that were given, also those that later names replaced.
* `Node.needs`: what a node needs names for.

## Main results

* `Naming.Grows.apart`: giving fresh names keeps them apart.
* `Naming.apart_ofGraph`: **the names in a graph are apart.**
* `Naming.exists_nameOf?_ofGraph`: **everything in a graph has a name.**
* `Naming.usable_of_mem_issued`: **names that were given are usable and not the program's own.**
-/

namespace AgentFlow

/-- What a definition is. -/
inductive Role where
  | record
  | tool
  | checker
  | guard
  | agent
  deriving DecidableEq, Repr

/-- The schema of a record class, as something to be named. -/
def StructuredSchema.needs : Option StructuredSchema → List (Role × String)
  | none => []
  | some s => if s.modelName = "" then [] else [(.record, s.modelName)]

/-- What a node needs names for. -/
def Node.needs (n : Node) : List (Role × String) :=
  match n.payload with
  | .functionTool _ => [(.tool, n.id)]
  | .agent d => (.agent, n.id) :: StructuredSchema.needs d.outputSchema
  | .guardrail d => (.checker, n.id) :: (.guard, n.id) :: StructuredSchema.needs d.checkerSchema
  | .runner _ => []
  | .input _ => []

namespace Naming

open Identifier

/-- The name of a definition: of a record class by its model name, of all others by the id of their
node. -/
def nameOf? (n : Naming) : Role × String → Option String
  | (.record, modelName) => (n.entry? modelName).map (·.className)
  | (.tool, id) => n.tool? id
  | (.checker, id) => n.checker? id
  | (.guard, id) => n.guard? id
  | (.agent, id) => n.agent? id

variable {n m k : Naming} {x y : Role × String} {s : String}

/-! ### Giving one name -/

/-- One more name was given. -/
structure Assigns (n m : Naming) (x : Role × String) (s : String) : Prop where
  /-- The name is taken from now on. -/
  taken : m.taken = n.taken ++ [s]
  /-- The definition has the name. -/
  same : m.nameOf? x = some s
  /-- All others have the names they had. -/
  other : ∀ y, y ≠ x → m.nameOf? y = n.nameOf? y
  /-- No model name was entered twice. -/
  models : (n.schemas.map (·.schema.modelName)).Nodup → (m.schemas.map (·.schema.modelName)).Nodup

/-- A name that is put in front of a table is found for its id, and what was found for others still
is. -/
theorem assigns_of_lookup {role : Role} {id : NodeId} {table : List (NodeId × String)}
    (htaken : m.taken = n.taken ++ [s]) (hschemas : m.schemas = n.schemas)
    (hold : ∀ a, n.nameOf? (role, a) = table.lookup a)
    (hnew : ∀ a, m.nameOf? (role, a) = ((id, s) :: table).lookup a)
    (hother : ∀ r a, r ≠ role → m.nameOf? (r, a) = n.nameOf? (r, a)) :
    Assigns n m (role, id) s where
  taken := htaken
  same := (hnew id).trans List.lookup_cons_self
  other := by
    rintro ⟨r, a⟩ hne
    by_cases hr : r = role
    · subst hr
      have ha : (a == id) = false := by simpa using fun h : a = id => hne (h ▸ rfl)
      rw [hold, hnew, List.lookup_cons, ha]
    · exact hother r a hr
  models h := by rwa [hschemas]

theorem assigns_tool (n : Naming) (id : NodeId) (s : String) :
    Assigns n { n with taken := n.taken ++ [s], tools := (id, s) :: n.tools } (.tool, id) s :=
  assigns_of_lookup rfl rfl (fun _ => rfl) (fun _ => rfl) fun r _ hr => by
    cases r with
    | tool => exact absurd rfl hr
    | _ => rfl

theorem assigns_agent (n : Naming) (id : NodeId) (s : String) :
    Assigns n { n with taken := n.taken ++ [s], agents := (id, s) :: n.agents } (.agent, id) s :=
  assigns_of_lookup rfl rfl (fun _ => rfl) (fun _ => rfl) fun r _ hr => by
    cases r with
    | agent => exact absurd rfl hr
    | _ => rfl

theorem assigns_checker (n : Naming) (id : NodeId) (s : String) :
    Assigns n { n with taken := n.taken ++ [s], checkers := (id, s) :: n.checkers }
      (.checker, id) s :=
  assigns_of_lookup rfl rfl (fun _ => rfl) (fun _ => rfl) fun r _ hr => by
    cases r with
    | checker => exact absurd rfl hr
    | _ => rfl

theorem assigns_guard (n : Naming) (id : NodeId) (s : String) :
    Assigns n { n with taken := n.taken ++ [s], guards := (id, s) :: n.guards } (.guard, id) s :=
  assigns_of_lookup rfl rfl (fun _ => rfl) (fun _ => rfl) fun r _ hr => by
    cases r with
    | guard => exact absurd rfl hr
    | _ => rfl

theorem entry?_eq_none_iff {modelName : String} :
    n.entry? modelName = none ↔ modelName ∉ n.schemas.map (·.schema.modelName) := by
  unfold entry?
  simp

/-- Entering a schema whose model name is new gives a name to this model name and leaves all other
names as they are. -/
theorem assigns_record (n : Naming) {e : SchemaEntry} (hnew : n.entry? e.schema.modelName = none) :
    Assigns n { n with taken := n.taken ++ [e.className], schemas := n.schemas ++ [e] }
      (.record, e.schema.modelName) e.className where
  taken := rfl
  same := by
    unfold entry? at hnew
    simp [nameOf?, entry?, List.find?_append, hnew]
  other := by
    rintro ⟨role, a⟩ hne
    cases role with
    | record =>
      have hne' : e.schema.modelName ≠ a := fun h => hne (h ▸ rfl)
      simp [nameOf?, entry?, List.find?_append, hne']
    | _ => rfl
  models h := by
    rw [List.map_append, List.map_singleton]
    exact h.append (List.nodup_singleton _) (by simpa using entry?_eq_none_iff.1 hnew)

/-! ### Giving names one after the other -/

/-- Some more names were given, one after the other, each of them usable and fresh. -/
inductive Grows (n : Naming) : Naming → Prop where
  | refl : Grows n n
  | assign {m k : Naming} {x : Role × String} {s : String} (h : Grows n m) (husable : Usable s)
    (hfresh : s ∉ m.taken) (hassigns : Assigns m k x s) : Grows n k

/-- No name is given twice or belongs to the program itself. -/
structure Apart (n : Naming) : Prop where
  /-- The names of the program itself are taken. -/
  reserved : ∀ s ∈ moduleNames, s ∈ n.taken
  /-- The names that were given are usable and taken, and none is one of the program itself. -/
  given : ∀ x s, n.nameOf? x = some s → Usable s ∧ s ∈ n.taken ∧ s ∉ moduleNames
  /-- No two definitions have the same name. -/
  injective : ∀ x y s, n.nameOf? x = some s → n.nameOf? y = some s → x = y
  /-- No model name is entered twice. -/
  models : (n.schemas.map (·.schema.modelName)).Nodup

theorem Grows.trans (hnm : n.Grows m) (hmk : m.Grows k) : n.Grows k := by
  induction hmk with
  | refl => exact hnm
  | assign _ husable hfresh hassigns ih => exact ih.assign husable hfresh hassigns

/-- A fresh name keeps the names apart.  It is none of those that are taken, so it stands for
nothing else. -/
theorem Apart.assign (h : n.Apart) (husable : Usable s) (hfresh : s ∉ n.taken)
    (hassigns : Assigns n m x s) : m.Apart := by
  have hmem : ∀ t, t ∈ m.taken ↔ t ∈ n.taken ∨ t = s := fun t => by rw [hassigns.taken]; simp
  -- a name is the fresh one, or one that was given before
  have hcases : ∀ y t, m.nameOf? y = some t → (y = x ∧ t = s) ∨ (y ≠ x ∧ n.nameOf? y = some t) := by
    intro y t hy
    by_cases hyx : y = x
    · subst hyx
      exact Or.inl ⟨rfl, (Option.some.inj (hassigns.same.symm.trans hy)).symm⟩
    · exact Or.inr ⟨hyx, (hassigns.other y hyx).symm.trans hy⟩
  refine ⟨fun t ht => (hmem t).2 (Or.inl (h.reserved t ht)), ?_, ?_, hassigns.models h.models⟩
  · intro y t hy
    rw [hmem]
    rcases hcases y t hy with ⟨-, rfl⟩ | ⟨-, hy⟩
    · exact ⟨husable, Or.inr rfl, fun ht => hfresh (h.reserved t ht)⟩
    · obtain ⟨ht, htaken, hmodule⟩ := h.given y t hy
      exact ⟨ht, Or.inl htaken, hmodule⟩
  · intro y z t hy hz
    rcases hcases y t hy with ⟨rfl, rfl⟩ | ⟨-, hy⟩
    · rcases hcases z t hz with ⟨rfl, -⟩ | ⟨-, hz⟩
      · rfl
      · exact absurd (h.given z t hz).2.1 hfresh
    · rcases hcases z t hz with ⟨-, rfl⟩ | ⟨-, hz⟩
      · exact absurd (h.given y t hy).2.1 hfresh
      · exact h.injective y z t hy hz

/-- Giving fresh names keeps them apart. -/
theorem Grows.apart (hgrows : n.Grows m) (h : n.Apart) : m.Apart := by
  induction hgrows with
  | refl => exact h
  | assign _ husable hfresh hassigns ih => exact ih.assign husable hfresh hassigns

/-- What has a name keeps one. -/
theorem Grows.exists_nameOf? (hgrows : n.Grows m) (h : ∃ s, n.nameOf? x = some s) :
    ∃ s, m.nameOf? x = some s := by
  induction hgrows with
  | refl => exact h
  | @assign _ _ y t _ _ _ hassigns ih =>
    by_cases hxy : x = y
    · -- a node with the same id came later, and its name took the place of the old one
      subst hxy
      exact ⟨t, hassigns.same⟩
    · rw [hassigns.other x hxy]
      exact ih

/-- The names that are taken from now on are usable, and were free. -/
theorem Grows.exists_taken (hgrows : n.Grows m) :
    ∃ ss, m.taken = n.taken ++ ss ∧ ∀ s ∈ ss, Usable s ∧ s ∉ n.taken := by
  induction hgrows with
  | refl => exact ⟨[], by simp, by simp⟩
  | @assign _ _ _ t _ husable hfresh hassigns ih =>
    obtain ⟨ss, htaken, hss⟩ := ih
    refine ⟨ss ++ [t], by rw [hassigns.taken, htaken, List.append_assoc], fun s hs => ?_⟩
    rcases List.mem_append.1 hs with hs | hs
    · exact hss s hs
    · rw [List.mem_singleton.1 hs]
      exact ⟨husable, fun hmem => hfresh (htaken ▸ List.mem_append_left _ hmem)⟩

/-! ### Naming the definitions of a graph -/

/-- Naming a schema gives it a fresh name, unless it has one. -/
theorem addSchema_grows (n : Naming) (schema : Option StructuredSchema) (stem : String)
    (hstem : isLegal stem.toList = true) (seed : String) :
    n.Grows (n.addSchema schema stem seed) ∧
      ∀ x ∈ StructuredSchema.needs schema,
        ∃ s, (n.addSchema schema stem seed).nameOf? x = some s := by
  cases schema with
  | none => exact ⟨.refl, by simp [StructuredSchema.needs]⟩
  | some d =>
    by_cases hvoid : d.modelName = ""
    · simp only [addSchema, StructuredSchema.needs, if_pos hvoid]
      exact ⟨.refl, by simp⟩
    · simp only [addSchema, StructuredSchema.needs, if_neg hvoid, List.mem_singleton, forall_eq]
      -- the first schema with a model name makes the class, later ones share it
      cases hentry : n.entry? d.modelName with
      | some e => exact ⟨.refl, e.className, by simp [nameOf?, hentry]⟩
      | none =>
        obtain ⟨s, hs, husable, hfresh⟩ :=
          issue_spec stem hstem n.taken (some d.modelName) (some seed)
        simp only [hs]
        have hassigns := assigns_record n (e := ⟨s, d⟩) hentry
        exact ⟨Grows.refl.assign husable hfresh hassigns, s, hassigns.same⟩

/-- Naming a node gives fresh names to all it needs names for. -/
theorem addNode_grows (n : Naming) (node : Node) :
    n.Grows (n.addNode node) ∧ ∀ x ∈ node.needs, ∃ s, (n.addNode node).nameOf? x = some s := by
  unfold addNode Node.needs
  cases node.payload with
  | functionTool d =>
    obtain ⟨s, hs, husable, hfresh⟩ :=
      issue_spec "tool" (by decide) n.taken (some d.name) (some node.id)
    simp only [hs, List.mem_singleton, forall_eq]
    have hassigns := assigns_tool n node.id s
    exact ⟨Grows.refl.assign husable hfresh hassigns, s, hassigns.same⟩
  | agent d =>
    obtain ⟨s, hs, husable, hfresh⟩ :=
      issue_spec "agent" (by decide) n.taken (some d.name) (some node.id)
    simp only [hs, List.forall_mem_cons]
    have hassigns := assigns_agent n node.id s
    obtain ⟨hgrows, hschema⟩ := addSchema_grows
      { n with taken := n.taken ++ [s], agents := (node.id, s) :: n.agents } d.outputSchema "model"
      (by decide) (node.id ++ "_model")
    refine ⟨(Grows.refl.assign husable hfresh hassigns).trans hgrows, ?_, hschema⟩
    exact hgrows.exists_nameOf? ⟨s, hassigns.same⟩
  | guardrail d =>
    obtain ⟨s, hs, husable, hfresh⟩ := issue_spec "guard_agent" (by decide) n.taken
      (some d.checkerName) (some (node.id ++ "_internal_agent"))
    obtain ⟨t, ht, husable', hfresh'⟩ := issue_spec "guard_func" (by decide) (n.taken ++ [s])
      (some d.name) (some (node.id ++ "_guard_func"))
    simp only [hs, ht, List.forall_mem_cons]
    have hchecker := assigns_checker n node.id s
    have hguard := assigns_guard
      { n with taken := n.taken ++ [s], checkers := (node.id, s) :: n.checkers } node.id t
    obtain ⟨hgrows, hschema⟩ := addSchema_grows
      { n with
        taken := n.taken ++ [s] ++ [t]
        checkers := (node.id, s) :: n.checkers
        guards := (node.id, t) :: n.guards } d.checkerSchema "guard_model" (by decide)
      (node.id ++ "_internal_model")
    have hboth := (Grows.refl.assign husable hfresh hchecker).assign husable' hfresh' hguard
    refine ⟨hboth.trans hgrows, hgrows.exists_nameOf? ⟨s, ?_⟩,
      hgrows.exists_nameOf? ⟨t, hguard.same⟩, hschema⟩
    -- the guard was named after the checker, which has its name still
    rw [hguard.other _ (by simp)]
    exact hchecker.same
  | runner d => exact ⟨.refl, by simp⟩
  | input d => exact ⟨.refl, by simp⟩

/-- Naming nodes one after the other takes no name back, and gives a name to everything that any of
them needs. -/
theorem foldl_addNode_grows (nodes : List Node) (n : Naming) :
    n.Grows (nodes.foldl addNode n) ∧
      ∀ node ∈ nodes, ∀ x ∈ node.needs, ∃ s, (nodes.foldl addNode n).nameOf? x = some s := by
  induction nodes generalizing n with
  | nil => exact ⟨.refl, by simp⟩
  | cons node nodes ih =>
    obtain ⟨hgrows, hnamed⟩ := n.addNode_grows node
    obtain ⟨hmore, hrest⟩ := ih (n.addNode node)
    rw [List.foldl_cons, List.forall_mem_cons]
    exact ⟨hgrows.trans hmore, fun x hx => hmore.exists_nameOf? (hnamed x hx), hrest⟩

theorem apart_empty : Apart {} where
  reserved _ hs := hs
  given := by
    rintro ⟨role, a⟩ s hs
    cases role <;> simp [nameOf?, entry?, tool?, agent?, checker?, guard?] at hs
  injective := by
    rintro ⟨role, a⟩ y s hs
    cases role <;> simp [nameOf?, entry?, tool?, agent?, checker?, guard?] at hs
  models := List.nodup_nil

/-- **The names in a graph are apart.** -/
theorem apart_ofGraph (g : Graph) : (ofGraph g).Apart :=
  (foldl_addNode_grows g.nodes {}).1.apart apart_empty

/-- Names that were given are identifiers. -/
theorem isLegal_of_nameOf? {g : Graph} (hs : (ofGraph g).nameOf? x = some s) :
    isLegal s.toList = true :=
  ((apart_ofGraph g).given x s hs).1.1

/-- **Everything in a graph has a name.** -/
theorem exists_nameOf?_ofGraph {g : Graph} {node : Node} (hnode : node ∈ g.nodes)
    (hx : x ∈ node.needs) : ∃ s, (ofGraph g).nameOf? x = some s :=
  (foldl_addNode_grows g.nodes {}).2 node hnode x hx

/-- All names that were given, also those that later names replaced. -/
def issued (n : Naming) : List String := n.taken.drop moduleNames.length

/-- The names that are taken in the end are those of the module and those that were given, and the
given ones are usable and none of the module's. -/
theorem taken_ofGraph (g : Graph) :
    (ofGraph g).taken = moduleNames ++ (ofGraph g).issued ∧
      ∀ s ∈ (ofGraph g).issued, Usable s ∧ s ∉ moduleNames := by
  obtain ⟨ss, htaken, hss⟩ := (foldl_addNode_grows g.nodes {}).1.exists_taken
  have hissued : (ofGraph g).issued = ss := by
    rw [issued, ofGraph, htaken, List.drop_left]
  rw [hissued]
  exact ⟨htaken, hss⟩

/-- **Names that were given are usable and not the program's own.** -/
theorem usable_of_mem_issued {g : Graph} (hs : s ∈ (ofGraph g).issued) :
    Usable s ∧ s ∉ moduleNames :=
  (taken_ofGraph g).2 s hs

/-- What has a name was given it. -/
theorem mem_issued_of_nameOf? {g : Graph} (hs : (ofGraph g).nameOf? x = some s) :
    s ∈ (ofGraph g).issued := by
  obtain ⟨-, htaken, hmodule⟩ := (apart_ofGraph g).given x s hs
  rw [(taken_ofGraph g).1, List.mem_append] at htaken
  exact htaken.resolve_left hmodule

/-- A schema that was entered is found again, under the name of its class. -/
theorem Apart.nameOf?_record (h : n.Apart) {e : SchemaEntry} (he : e ∈ n.schemas) :
    n.nameOf? (.record, e.schema.modelName) = some e.className := by
  have hfind : n.entry? e.schema.modelName = some e :=
    find?_eq_some_of_nodup h.models he
  rw [nameOf?, hfind, Option.map_some]

/-- The class of a schema is what the schema needs a name for. -/
theorem nameOf?_of_className? {schema : Option StructuredSchema}
    (h : n.className? schema = some s) :
    ∃ a, (Role.record, a) ∈ StructuredSchema.needs schema ∧ n.nameOf? (.record, a) = some s := by
  cases schema with
  | none => simp [className?] at h
  | some d =>
    rw [className?] at h
    split at h
    · simp at h
    · next hvoid => exact ⟨d.modelName, by simp [StructuredSchema.needs, hvoid], h⟩

end Naming
end AgentFlow
