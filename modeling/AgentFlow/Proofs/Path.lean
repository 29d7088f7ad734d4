import AgentFlow.Connection.Cycle
import Mathlib.Data.Set.Finite.Basic
import Mathlib.Logic.Relation
import Mathlib.Order.WellFounded

/-!
# Paths along edges

A path is a chain of edges, each of which starts where the one before it ends.  The relations only
look at where edges start and end, never at their ids.

## Main definitions

* `Edge.Joins`: some edge leads from one node to another.
* `Edge.Leads`: a path, possibly without any edge.
* `Edge.Acyclic`: no path with an edge in it returns to where it started.

## Main results

* `exists_circle_of_forall_exists`: in a finite set where everything has a predecessor, everything
  lies behind a circle.
* `Edge.leads_append_singleton`: the paths that one more edge makes.
* `Edge.acyclic_append_singleton`: **one more edge closes a circle exactly if its target leads to
  its source.**
-/

namespace AgentFlow

open Relation

/-- In a finite set where everything has a predecessor, everything lies behind a circle. -/
theorem exists_circle_of_forall_exists {α : Type} {r : α → α → Prop} {l : List α}
    (h : ∀ a ∈ l, ∃ b ∈ l, r b a) {a : α} (ha : a ∈ l) :
    ∃ c, TransGen r c c ∧ ReflTransGen r c a := by
  by_contra hnone
  -- what lies behind no circle is finite and has no circle in it, so one of it comes first
  let Spared := { x : α // x ∈ l ∧ ¬ ∃ c, TransGen r c c ∧ ReflTransGen r c x }
  have : Finite Spared := (l.finite_toSet.subset fun _ hx => hx.1).to_subtype
  let before : Spared → Spared → Prop := fun x y => TransGen r x.1 y.1
  have : IsTrans Spared before := ⟨fun _ _ _ hxy hyz => hxy.trans hyz⟩
  have : Std.Irrefl before := ⟨fun x hx => x.2.2 ⟨x.1, hx, .refl⟩⟩
  have hwf : WellFounded before := Finite.wellFounded_of_trans_of_irrefl before
  obtain ⟨⟨m, hm, hspared⟩, -, hfirst⟩ := hwf.has_min Set.univ ⟨⟨a, ha, hnone⟩, trivial⟩
  obtain ⟨b, hb, hbm⟩ := h m hm
  have hb' : ¬ ∃ c, TransGen r c c ∧ ReflTransGen r c b := by
    rintro ⟨c, hc, hcb⟩
    exact hspared ⟨c, hc, hcb.tail hbm⟩
  exact hfirst ⟨b, hb, hb'⟩ trivial (TransGen.single hbm)

namespace Edge

/-- Some edge leads from the first node to the second. -/
def Joins (edges : List Edge) (a b : NodeId) : Prop :=
  ∃ e ∈ edges, e.source = a ∧ e.target = b

/-- A path leads from the first node to the second. -/
def Leads (edges : List Edge) : NodeId → NodeId → Prop :=
  ReflTransGen (Joins edges)

/-- No path with an edge in it returns to where it started. -/
def Acyclic (edges : List Edge) : Prop :=
  ∀ a, ¬ TransGen (Joins edges) a a

@[simp] theorem mem_targetsOf {edges : List Edge} {a b : NodeId} :
    b ∈ targetsOf edges a ↔ Joins edges a b := by
  simp [targetsOf, Joins, and_assoc]

theorem Joins.mono {edges more : List Edge} (h : ∀ e ∈ edges, e ∈ more) {a b : NodeId}
    (hab : Joins edges a b) : Joins more a b := by
  obtain ⟨e, he, hs, ht⟩ := hab
  exact ⟨e, h e he, hs, ht⟩

/-- Taking edges away makes no circle. -/
theorem Acyclic.of_subset {edges fewer : List Edge} (h : Acyclic edges)
    (hsub : ∀ e ∈ fewer, e ∈ edges) : Acyclic fewer := by
  intro a ha
  exact h a (TransGen.mono (fun _ _ => Joins.mono hsub) _ _ ha)

theorem joins_append_singleton {edges : List Edge} {e : Edge} {a b : NodeId} :
    Joins (edges ++ [e]) a b ↔ Joins edges a b ∨ (a = e.source ∧ b = e.target) := by
  constructor
  · rintro ⟨x, hx, hs, ht⟩
    rcases List.mem_append.1 hx with hx | hx
    · exact Or.inl ⟨x, hx, hs, ht⟩
    · obtain rfl := List.mem_singleton.1 hx
      exact Or.inr ⟨hs.symm, ht.symm⟩
  · rintro (⟨x, hx, hs, ht⟩ | ⟨rfl, rfl⟩)
    · exact ⟨x, List.mem_append_left _ hx, hs, ht⟩
    · exact ⟨e, by simp, rfl, rfl⟩

theorem Leads.append_right {edges : List Edge} {e : Edge} {a b : NodeId} (h : Leads edges a b) :
    Leads (edges ++ [e]) a b :=
  ReflTransGen.mono (fun _ _ => Joins.mono fun _ => List.mem_append_left _) _ _ h

/-- A path along one more edge either does without it, or reaches its source without it and goes
on from its target without it. -/
theorem leads_append_singleton {edges : List Edge} {e : Edge} {a b : NodeId} :
    Leads (edges ++ [e]) a b ↔
      Leads edges a b ∨ (Leads edges a e.source ∧ Leads edges e.target b) := by
  constructor
  · intro h
    -- on the path; if the new edge comes last, what the path did since its first use is dropped
    induction h with
    | refl => exact Or.inl .refl
    | tail _ hlast ih =>
      rcases joins_append_singleton.1 hlast with hlast | ⟨rfl, rfl⟩
      · rcases ih with ih | ⟨ih₁, ih₂⟩
        · exact Or.inl (ih.tail hlast)
        · exact Or.inr ⟨ih₁, ih₂.tail hlast⟩
      · rcases ih with ih | ⟨ih₁, -⟩
        · exact Or.inr ⟨ih, .refl⟩
        · exact Or.inr ⟨ih₁, .refl⟩
  · rintro (h | ⟨h₁, h₂⟩)
    · exact h.append_right
    · have hmid : Joins (edges ++ [e]) e.source e.target :=
        joins_append_singleton.2 (Or.inr ⟨rfl, rfl⟩)
      exact (h₁.append_right.tail hmid).trans h₂.append_right

/-- A circle is an edge with a path from its target back to its source. -/
theorem acyclic_iff {edges : List Edge} :
    Acyclic edges ↔ ∀ e ∈ edges, ¬ Leads edges e.target e.source := by
  constructor
  · intro h e he hback
    exact h e.source (TransGen.head' ⟨e, he, rfl, rfl⟩ hback)
  · intro h a ha
    obtain ⟨b, ⟨e, he, rfl, rfl⟩, hback⟩ := TransGen.head'_iff.1 ha
    exact h e he hback

/-- **One more edge closes a circle exactly if its target leads to its source.** -/
theorem acyclic_append_singleton {edges : List Edge} {e : Edge} :
    Acyclic (edges ++ [e]) ↔ Acyclic edges ∧ ¬ Leads edges e.target e.source := by
  constructor
  · intro h
    refine ⟨h.of_subset fun _ => List.mem_append_left _, fun hback => ?_⟩
    exact acyclic_iff.1 h e (by simp) hback.append_right
  · rintro ⟨h, hback⟩
    refine acyclic_iff.2 fun x hx hcircle => ?_
    rcases List.mem_append.1 hx with hx | hx
    · rcases leads_append_singleton.1 hcircle with hc | ⟨hc₁, hc₂⟩
      · exact acyclic_iff.1 h x hx hc
      · -- the old edge closes the way from the new target back to the new source
        exact hback ((hc₂.tail ⟨x, hx, rfl, rfl⟩).trans hc₁)
    · obtain rfl := List.mem_singleton.1 hx
      rcases leads_append_singleton.1 hcircle with hc | ⟨hc₁, -⟩
      · exact hback hc
      · exact hback hc₁

end Edge
end AgentFlow
