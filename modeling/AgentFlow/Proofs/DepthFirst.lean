import AgentFlow.Proofs.Downstream

/-!
# The search by recursion

The search for the runners downstream keeps a stack of the edges still to be followed.  The same
search is written here as a recursion, which follows the edges of a node one after the other and
follows those of an agent before it goes on.  Each list on the stack is a call of the recursion that
waits for those before it, and all calls go on from one trail.

## Main definitions

* `Trail`, `Trail.Onward`: how far a search has come, and the trails that go on from there.
* `Graph.follow`: the recursion.
* `Graph.depthFirst`: the runners downstream of a node, as the recursion finds them.

## Main results

* `Graph.walk_eq_foldlM`: **the lists on the stack are calls that wait.**
* `Graph.downstream_eq_depthFirst`: the search and the recursion agree.
-/

namespace AgentFlow

/-- How far a search has come. -/
structure Trail where
  /-- The nodes that were visited. -/
  visited : List NodeId
  /-- The runners that were met, in the order in which they were met first. -/
  runners : List NodeId
  deriving DecidableEq, Repr

namespace Trail

/-- The trail with a runner noted, unless it was met before. -/
def note (s : Trail) (id : NodeId) : Trail :=
  { s with runners := if id ∈ s.runners then s.runners else s.runners ++ [id] }

/-- The trail with an agent visited. -/
def enter (s : Trail) (id : NodeId) : Trail := { s with visited := id :: s.visited }

/-- A trail that goes on from another. -/
structure Onward (s : Trail) extends Trail where
  /-- What was visited stays visited. -/
  kept : s.visited ⊆ visited

end Trail

namespace Graph

variable {g : Graph} {s : Trail} {e : Edge} {es : List Edge} {n : Node}

/-! ### The recursion -/

/-- Having visited more leaves fewer nodes that were not visited. -/
theorem length_unvisited_le {visited visited' : List NodeId} (h : visited ⊆ visited') :
    (g.unvisited visited').length ≤ (g.unvisited visited).length := by
  refine (List.monotone_filter_right _ fun n hn => ?_).length_le
  simp only [decide_eq_true_eq] at hn ⊢
  exact fun hmem => hn (h hmem)

/-- Follows edges one after the other.  A runner is noted where it is met first.  The edges of an
agent that was not visited before are followed at once, before the next edge. -/
def follow (g : Graph) (s : Trail) : List Edge → Except UnresolvedReference s.Onward
  | [] => return { s with kept := List.Subset.refl _ }
  | e :: es =>
    match _h : g.node? e.target with
    | none => throw { node := e.target, edge := some e.id }
    | some n =>
      if n.kind = .runner then do
        let t ← follow g (s.note n.id) es
        return { t.toTrail with kept := t.kept }
      else if _fresh : n.kind = .agent ∧ n.id ∉ s.visited then do
        let t ← follow g (s.enter n.id) (g.outgoing n.id)
        let u ← follow g t.toTrail es
        return { u.toTrail with kept := fun _ ha => u.kept (t.kept (List.mem_cons_of_mem _ ha)) }
      else follow g s es
termination_by es => ((g.unvisited s.visited).length, es.length)
decreasing_by
  · exact Prod.Lex.right _ (by simp)
  · exact Prod.Lex.left _ _ (length_unvisited_cons_lt (mem_of_node? _h) _fresh.2)
  -- the agent stays visited, however far the search goes from there
  · exact Prod.Lex.left _ _ (lt_of_le_of_lt (length_unvisited_le t.kept)
      (length_unvisited_cons_lt (mem_of_node? _h) _fresh.2))
  · exact Prod.Lex.right _ (by simp)

/-- The trail after edges were followed. -/
def trail (g : Graph) (s : Trail) (es : List Edge) : Except UnresolvedReference Trail :=
  Trail.Onward.toTrail <$> g.follow s es

/-- The runners downstream of a node, as the recursion finds them. -/
def depthFirst (g : Graph) (id : NodeId) : Except UnresolvedReference (List NodeId) := do
  let _ ← g.requireNode id
  let t ← g.trail ⟨[id], []⟩ (g.outgoing id)
  return t.runners

/-! ### One edge after the other -/

@[simp] theorem trail_nil : g.trail s [] = .ok s := by
  rw [trail, follow]
  rfl

/-- The search fails at an edge that ends nowhere. -/
theorem trail_cons_of_none (hn : g.node? e.target = none) :
    g.trail s (e :: es) = .error { node := e.target, edge := some e.id } := by
  rw [trail, follow]
  split
  · rfl
  · next hsome => simp [hn] at hsome

/-- What an edge to a node does depends on the kind of the node. -/
theorem trail_cons_of_some (hn : g.node? e.target = some n) :
    g.trail s (e :: es) =
      if n.kind = .runner then g.trail (s.note n.id) es
      else if n.kind = .agent ∧ n.id ∉ s.visited then
        g.trail (s.enter n.id) (g.outgoing n.id) >>= (g.trail · es)
      else g.trail s es := by
  -- unfolding one step leaves the same searches on both sides, up to the laws of the monad
  rw [trail, follow]
  split
  · next hnone => simp [hn] at hnone
  · next m hm =>
    obtain rfl : n = m := Option.some.inj (hn.symm.trans hm)
    split
    · rw [map_bind, trail, map_eq_pure_bind]
      rfl
    · split
      · rw [map_bind, trail, bind_map_left]
        refine bind_congr fun t => ?_
        rw [map_bind, trail, map_eq_pure_bind]
        rfl
      · rfl

/-! ### The stack -/

/-- **The lists on the stack are calls that wait.**  Each goes on from the trail on which the one
before it came back. -/
theorem walk_eq_foldlM (g : Graph) (visited runners : List NodeId) (stack : List (List Edge)) :
    g.walk visited runners stack = Trail.runners <$> stack.foldlM g.trail ⟨visited, runners⟩ := by
  -- one case for each step of the search; entering an agent adds a call before those that wait
  fun_induction walk g visited runners stack with
  | case1 visited runners => rfl
  | case2 visited runners stack ih =>
    rw [ih, List.foldlM_cons, trail_nil]
    rfl
  | case3 visited runners e es stack hnone =>
    rw [List.foldlM_cons, trail_cons_of_none hnone]
    rfl
  | case4 visited runners e es stack n hn hkind ih =>
    simp only [dite_eq_ite] at ih
    rw [ih, List.foldlM_cons, List.foldlM_cons, trail_cons_of_some hn, if_pos hkind]
    rfl
  | case5 visited runners e es stack n hn hrunner hagent ih =>
    simp only [ih, List.foldlM_cons, trail_cons_of_some hn, if_neg hrunner, if_pos hagent,
      bind_assoc]
    rfl
  | case6 visited runners e es stack n hn hrunner hagent ih =>
    rw [ih, List.foldlM_cons, List.foldlM_cons, trail_cons_of_some hn, if_neg hrunner,
      if_neg hagent]

/-- **The search and the recursion agree**, in every graph and from every id.  They find the same
runners in the same order, or complain about the same edge. -/
theorem downstream_eq_depthFirst (g : Graph) (id : NodeId) :
    g.downstream id = g.depthFirst id := by
  rw [downstream, depthFirst]
  simp only [walk_eq_foldlM, List.foldlM_cons, List.foldlM_nil, bind_pure]
  rfl

end Graph
end AgentFlow
