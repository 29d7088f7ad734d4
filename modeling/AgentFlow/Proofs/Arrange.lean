import AgentFlow.Program.Wiring
import AgentFlow.Proofs.Path
import Mathlib.Data.List.Perm.Basic
import Mathlib.Data.List.Nodup

/-!
# The order of agents

Agents are arranged so that those an agent hands off to come first.  Nothing is lost or repeated,
and unless agents hand off to each other in a circle every agent finds its targets before it.

## Main results

* `Wiring.arrange_perm`: arranging only changes the order.
* `Wiring.mem_ids_arrange_iff`: even where ids are repeated, no id is left out.
* `Wiring.mem_before_arrange`: **without circles, targets come first.**
-/

namespace AgentFlow
namespace Wiring

open Relation

variable {α : Type} {targets : NodeId → List NodeId} {done : List NodeId}
  {pending : List (NodeId × α)}

/-- Where no id is repeated, the others of the first entry are the rest. -/
theorem others_cons_self {p : NodeId × α} (hnodup : ((p :: pending).map (·.1)).Nodup) :
    others (p :: pending) p.1 = pending := by
  rw [others, List.filter_cons_of_neg (by simp), List.filter_eq_self]
  intro q hq
  rw [List.map_cons, List.nodup_cons] at hnodup
  simpa using fun heq : q.1 = p.1 => hnodup.1 (heq ▸ List.mem_map_of_mem hq)

/-- Where no id is repeated, taking an entry away leaves the others. -/
theorem cons_others_perm (hnodup : (pending.map (·.1)).Nodup) {p : NodeId × α}
    (hp : p ∈ pending) : (p :: others pending p.1).Perm pending := by
  induction pending with
  | nil => simp at hp
  | cons q pending ih =>
    rcases List.mem_cons.1 hp with rfl | hp
    · rw [others_cons_self hnodup]
    · rw [List.map_cons, List.nodup_cons] at hnodup
      have hne : q.1 ≠ p.1 := fun heq => hnodup.1 (heq ▸ List.mem_map_of_mem hp)
      rw [others, List.filter_cons_of_pos (by simpa using hne)]
      exact (List.Perm.swap q p _).trans ((ih hnodup.2 hp).cons q)

theorem nodup_others (hnodup : (pending.map (·.1)).Nodup) (id : NodeId) :
    ((others pending id).map (·.1)).Nodup :=
  hnodup.sublist (List.filter_sublist.map _)

theorem arrange_of_find?_eq_none
    (h : pending.find? (fun p => (targets p.1).all (· ∈ done)) = none) :
    arrange targets done pending = pending := by
  rw [arrange]
  split
  · rfl
  · next p hp => exact absurd (h.symm.trans hp) (by simp)

/-- If some entry has all its targets done, the first such entry comes next, and the rest is
arranged with that entry done. -/
theorem arrange_of_find?_eq_some {p : NodeId × α}
    (h : pending.find? (fun p => (targets p.1).all (· ∈ done)) = some p) :
    arrange targets done pending =
      p :: arrange targets (p.1 :: done) (others pending p.1) := by
  rw [arrange]
  split
  · next hp => exact absurd (h.symm.trans hp) (by simp)
  · next q hq =>
    obtain rfl := Option.some.inj (h.symm.trans hq)
    rfl

/-- Arranging only changes the order. -/
theorem arrange_perm (hnodup : (pending.map (·.1)).Nodup) :
    (arrange targets done pending).Perm pending := by
  fun_induction arrange targets done pending with
  | case1 done pending _ => exact .refl _
  | case2 done pending p hfind ih =>
    have hp := List.mem_of_find?_eq_some hfind
    exact ((ih (nodup_others hnodup p.1)).cons p).trans (cons_others_perm hnodup hp)

/-- Arranging brings nothing in, also where ids are repeated. -/
theorem mem_of_mem_arrange {p : NodeId × α} (hp : p ∈ arrange targets done pending) :
    p ∈ pending := by
  fun_induction arrange targets done pending with
  | case1 done pending _ => exact hp
  | case2 done pending q hfind ih =>
    rcases List.mem_cons.1 hp with rfl | hp
    · exact List.mem_of_find?_eq_some hfind
    · exact (List.mem_filter.1 (ih hp)).1

/-- Arranging leaves no id out, also where ids are repeated.  Of entries with one id only the first
is kept when it is taken. -/
theorem mem_ids_arrange_iff {id : NodeId} :
    id ∈ (arrange targets done pending).map (·.1) ↔ id ∈ pending.map (·.1) := by
  constructor
  · intro hid
    obtain ⟨p, hp, rfl⟩ := List.mem_map.1 hid
    exact List.mem_map_of_mem (mem_of_mem_arrange hp)
  · intro hid
    fun_induction arrange targets done pending with
    | case1 done pending _ => exact hid
    | case2 done pending q hfind ih =>
      rw [List.map_cons, List.mem_cons]
      by_cases heq : id = q.1
      · exact Or.inl heq
      · obtain ⟨p, hp, rfl⟩ := List.mem_map.1 hid
        exact Or.inr (ih (List.mem_map_of_mem (List.mem_filter.2 ⟨hp, by simpa using heq⟩)))

/-- The first id is a target of the second, which is one of the ids that count. -/
def Awaited (targets : NodeId → List NodeId) (ids : List NodeId) (a b : NodeId) : Prop :=
  b ∈ ids ∧ a ∈ targets b

variable {ids : List NodeId}

/-- Without circles some entry can be taken, as long as there are any. -/
theorem find?_ne_none (hcircle : ∀ a, ¬ TransGen (Awaited targets ids) a a)
    (hids : ∀ p ∈ pending, p.1 ∈ ids)
    (htargets : ∀ p ∈ pending, ∀ t ∈ targets p.1, t ∈ done ∨ t ∈ pending.map (·.1))
    (hne : pending ≠ []) : (pending.find? fun p => (targets p.1).all (· ∈ done)) ≠ none := by
  intro hnone
  rw [List.find?_eq_none] at hnone
  -- every entry waits for another one, so there is a circle
  have hwaits : ∀ a ∈ pending.map (·.1), ∃ b ∈ pending.map (·.1), Awaited targets ids b a := by
    intro a ha
    obtain ⟨p, hp, rfl⟩ := List.mem_map.1 ha
    have hstuck := hnone p hp
    rw [List.all_eq_true] at hstuck
    push Not at hstuck
    obtain ⟨t, ht, hdone⟩ := hstuck
    exact ⟨t, (htargets p hp t ht).resolve_left (by simpa using hdone), hids p hp, ht⟩
  obtain ⟨p, hp⟩ := List.exists_mem_of_ne_nil _ hne
  obtain ⟨c, hc, -⟩ := exists_circle_of_forall_exists hwaits (List.mem_map_of_mem hp)
  exact hcircle c hc

/-- **Without circles, targets come first.**  As long as entries are pending some of them has all
its targets done, for otherwise one could go from target to target forever among finitely many ids.
-/
theorem mem_before_arrange (hcircle : ∀ a, ¬ TransGen (Awaited targets ids) a a)
    (hids : ∀ p ∈ pending, p.1 ∈ ids)
    (htargets : ∀ p ∈ pending, ∀ t ∈ targets p.1, t ∈ done ∨ t ∈ pending.map (·.1))
    {before after : List (NodeId × α)} {p : NodeId × α}
    (h : arrange targets done pending = before ++ p :: after) :
    ∀ t ∈ targets p.1, t ∈ done ∨ t ∈ before.map (·.1) := by
  fun_induction arrange targets done pending generalizing before with
  | case1 done pending hfind =>
    -- the rest follows as it stands only if there is none
    exact absurd hfind (find?_ne_none hcircle hids htargets (by simp [h]))
  | case2 done pending q hfind ih =>
    have hsub : ∀ p ∈ others pending q.1, p ∈ pending := fun _ hp => (List.mem_filter.1 hp).1
    cases before with
    | nil =>
      obtain ⟨rfl, -⟩ := List.cons.inj h
      have hready := List.find?_some hfind
      intro t ht
      exact Or.inl (by simpa using List.all_eq_true.1 hready t ht)
    | cons b before =>
      obtain ⟨rfl, hrest⟩ := List.cons.inj h
      -- a target that was pending is the entry taken now, or it is still pending
      have htargets' : ∀ p ∈ others pending q.1, ∀ t ∈ targets p.1,
          t ∈ q.1 :: done ∨ t ∈ (others pending q.1).map (·.1) := by
        intro p hp t ht
        rcases htargets p (hsub p hp) t ht with hdone | hpending
        · exact Or.inl (List.mem_cons_of_mem _ hdone)
        · obtain ⟨r, hr, rfl⟩ := List.mem_map.1 hpending
          by_cases hrq : r.1 = q.1
          · exact Or.inl (hrq ▸ List.mem_cons_self)
          · exact Or.inr (List.mem_map_of_mem (List.mem_filter.2 ⟨hr, by simpa using hrq⟩))
      intro t ht
      rcases ih (fun p hp => hids p (hsub p hp)) htargets' hrest t ht with hdone | hbefore
      · rcases List.mem_cons.1 hdone with rfl | hdone
        · exact Or.inr List.mem_cons_self
        · exact Or.inl hdone
      · exact Or.inr (List.mem_cons_of_mem _ hbefore)

end Wiring
end AgentFlow
