import Mathlib.Data.List.Forall2
import Mathlib.Data.List.Nodup

/-!
# Bookkeeping

Facts about lists, tables and results that may be errors, as the other proofs use them.

## Main results

* `find?_eq_some_of_nodup`, `lookup_map_pair`: looking up in lists without repeated keys.
* `eq_of_map_eq_of_subset`: lists without repeated keys are the same if keys and entries are.
* `infix_intercalate`, `exists_intercalate_append_append`: pieces of a joined list or text stand in
  it.
* `exists_split_of_forall₂`, `exists_filter_zip_of_forall₂`: lists that stand side by side are split
  together, and entries have partners.
* `bind_eq_ok_iff`, `mapError_eq_ok_iff`, `forM_eq_ok_iff`, `mapM_eq_ok_iff`, `mapM_eq_some_iff`:
  when a computation that may fail succeeds.
* `mapM_eq_error_iff`: where a computation on a list fails.
-/

namespace AgentFlow

/-! ### Lists -/

theorem nodup_eraseDups {α : Type} [DecidableEq α] : ∀ l : List α, l.eraseDups.Nodup
  | [] => by simp
  | a :: l => by
    rw [List.eraseDups_cons, List.nodup_cons]
    exact ⟨by simp [List.mem_eraseDups], nodup_eraseDups (l.filter fun b => !b == a)⟩
termination_by l => l.length
decreasing_by exact Nat.lt_succ_of_le (List.length_filter_le _ l)

theorem eraseDups_append_singleton {α : Type} [DecidableEq α] (l : List α) (a : α) :
    (l ++ [a]).eraseDups = l.eraseDups ++ if a ∈ l then [] else [a] := by
  rw [List.eraseDups_append, List.removeAll, List.filter_singleton]
  by_cases h : a ∈ l <;> simp [h, List.eraseDups_cons]

/-- In a table with one row for each id, the row that is found for an id is the one that was made
for it. -/
theorem lookup_map_pair {α : Type} {β : Type} [DecidableEq β] (f : β → α) (ids : List β) {v : β}
    (hv : v ∈ ids) : (ids.map fun id => (id, f id)).lookup v = some (f v) := by
  induction ids with
  | nil => simp at hv
  | cons id ids ih =>
    by_cases h : v = id
    · subst h
      simp
    · have h' : (v == id) = false := by simpa using h
      simpa [List.lookup_cons, h'] using ih ((List.mem_cons.1 hv).resolve_left h)

/-- Where no key is repeated, an entry is found under its key. -/
theorem find?_eq_some_of_nodup {α β : Type} [DecidableEq β] {key : α → β} {l : List α}
    (h : (l.map key).Nodup) {a : α} (ha : a ∈ l) : l.find? (key · = key a) = some a := by
  induction l with
  | nil => simp at ha
  | cons b l ih =>
    rw [List.map_cons, List.nodup_cons] at h
    rcases List.mem_cons.1 ha with rfl | ha
    · simp
    · have hne : key b ≠ key a := fun heq => h.1 (heq ▸ List.mem_map_of_mem ha)
      rw [List.find?_cons_of_neg (by simpa using hne)]
      exact ih h.2 ha

/-- Where no two entries have something in common, an entry is the only one with what it has. -/
theorem filter_mem_eq_singleton {α β : Type} [DecidableEq β] {f : α → List β} {l : List α}
    (h : (l.flatMap f).Nodup) {a : α} (ha : a ∈ l) {x : β} (hx : x ∈ f a) :
    l.filter (x ∈ f ·) = [a] := by
  induction l with
  | nil => simp at ha
  | cons b l ih =>
    rw [List.flatMap_cons, List.nodup_append] at h
    obtain ⟨-, hrest, hapart⟩ := h
    rcases List.mem_cons.1 ha with rfl | ha
    · rw [List.filter_cons_of_pos (by simpa using hx), List.filter_eq_nil_iff.2]
      intro c hc hmem
      exact hapart x hx x (List.mem_flatMap.2 ⟨c, hc, of_decide_eq_true hmem⟩) rfl
    · have hne : x ∉ f b := fun hmem => hapart x hmem x (List.mem_flatMap.2 ⟨a, ha, hx⟩) rfl
      rw [List.filter_cons_of_neg (by simpa using hne)]
      exact ih hrest ha

/-- Where no key is repeated, a list with the same keys and no other entries is the same list. -/
theorem eq_of_map_eq_of_subset {α β : Type} {key : α → β} {l l' : List α}
    (hkeys : l'.map key = l.map key) (hnodup : (l.map key).Nodup) (hsub : ∀ a ∈ l', a ∈ l) :
    l' = l := by
  induction l generalizing l' with
  | nil => exact List.map_eq_nil_iff.1 hkeys
  | cons b l ih =>
    obtain ⟨a, l', rfl, hkey, hrest⟩ := List.map_eq_cons_iff.1 hkeys
    obtain rfl : a = b :=
      List.inj_on_of_nodup_map hnodup (hsub a List.mem_cons_self) List.mem_cons_self hkey
    rw [List.map_cons, List.nodup_cons] at hnodup
    rw [ih hrest hnodup.2 fun c hc => ?_]
    rcases List.mem_cons.1 (hsub c (List.mem_cons_of_mem _ hc)) with rfl | hmem
    · -- the key of the first entry would come a second time
      exact absurd (hrest ▸ List.mem_map_of_mem hc) hnodup.1
    · exact hmem

/-- Every piece stands in the whole, with the separator before it. -/
theorem infix_intercalate {α : Type} {sep l : List α} {ls : List (List α)} (hl : l ∈ ls) :
    sep ++ l <:+: sep ++ sep.intercalate ls := by
  induction ls with
  | nil => exact absurd hl List.not_mem_nil
  | cons k ls ih =>
    cases ls with
    | nil =>
      obtain rfl := List.mem_singleton.1 hl
      simp
    | cons k' ls =>
      rw [List.intercalate_cons_cons, List.append_assoc, ← List.append_assoc]
      rcases List.mem_cons.1 hl with rfl | hl
      · exact (List.prefix_append _ _).isInfix
      · exact (ih hl).trans (List.suffix_append _ _).isInfix

/-- What stands in the whole stands in the separator or in a piece. -/
theorem mem_or_mem_of_mem_intercalate {α : Type} {a : α} {sep : List α} {ls : List (List α)}
    (ha : a ∈ sep.intercalate ls) : a ∈ sep ∨ ∃ l ∈ ls, a ∈ l := by
  induction ls with
  | nil => exact absurd ha List.not_mem_nil
  | cons l ls ih =>
    cases ls with
    | nil => exact Or.inr ⟨l, List.mem_cons_self, by simpa using ha⟩
    | cons l' ls =>
      rw [List.intercalate_cons_cons, List.mem_append, List.mem_append] at ha
      rcases ha with (ha | ha) | ha
      · exact Or.inr ⟨l, List.mem_cons_self, ha⟩
      · exact Or.inl ha
      · exact (ih ha).imp_right fun ⟨k, hk, hmem⟩ => ⟨k, List.mem_cons_of_mem _ hk, hmem⟩

/-! ### Joined texts -/

section Intercalate

variable {sep last more : String} {ls : List String}

/-- The last pieces of a joined text stand in it, with the separator before them. -/
theorem exists_intercalate_append (sep : String) (xs : List String) (hne : ls ≠ []) :
    ∃ before, sep ++ String.intercalate sep (xs ++ ls) =
      before ++ (sep ++ String.intercalate sep ls) := by
  by_cases hxs : xs = []
  · exact ⟨"", by rw [hxs, List.nil_append, String.empty_append]⟩
  · refine ⟨sep ++ String.intercalate sep xs, ?_⟩
    rw [String.intercalate_append_of_ne_nil hxs hne]
    simp only [String.append_assoc]

/-- Pieces that follow each other stand in the whole, with the separator before them and the
beginning of it behind them.  Whether the separator or the end of the text comes behind them makes
no difference where the text ends like the separator begins. -/
theorem exists_intercalate_append_append (hsep : sep = last ++ more) (xs ys : List String)
    (hne : ls ≠ []) :
    ∃ before after, sep ++ String.intercalate sep (xs ++ ls ++ ys) ++ last =
      before ++ (sep ++ String.intercalate sep ls ++ last) ++ after := by
  have hboth : ls ++ ys ≠ [] := List.append_ne_nil_of_left_ne_nil hne ys
  obtain ⟨before, hbefore⟩ := exists_intercalate_append sep xs hboth
  obtain ⟨after, hafter⟩ : ∃ after, String.intercalate sep (ls ++ ys) ++ last =
      String.intercalate sep ls ++ last ++ after := by
    by_cases hys : ys = []
    · exact ⟨"", by rw [hys, List.append_nil, String.append_empty]⟩
    · refine ⟨more ++ String.intercalate sep ys ++ last, ?_⟩
      rw [String.intercalate_append_of_ne_nil hne hys]
      nth_rewrite 2 [hsep]
      simp only [String.append_assoc]
  refine ⟨before, after, ?_⟩
  rw [List.append_assoc, hbefore, String.append_assoc, String.append_assoc, hafter]
  simp only [String.append_assoc]

end Intercalate

/-! ### Lists side by side -/

section Forall₂

variable {α β : Type} {R : α → β → Prop} {as : List α} {bs : List β}

theorem exists_left_of_forall₂ (h : List.Forall₂ R as bs) {b : β} (hb : b ∈ bs) :
    ∃ a ∈ as, R a b := by
  induction h with
  | nil => simp at hb
  | @cons a c _ _ hac _ ih =>
    rcases List.mem_cons.1 hb with rfl | hb
    · exact ⟨a, List.mem_cons_self, hac⟩
    · obtain ⟨a', ha', hab⟩ := ih hb
      exact ⟨a', List.mem_cons_of_mem _ ha', hab⟩

theorem exists_right_of_forall₂ (h : List.Forall₂ R as bs) {a : α} (ha : a ∈ as) :
    ∃ b ∈ bs, R a b :=
  exists_left_of_forall₂ h.flip ha

/-- Where the second list is split, so is the first. -/
theorem exists_split_of_forall₂ {cs : List β} {b : β} (h : List.Forall₂ R as (bs ++ b :: cs)) :
    ∃ before a after, as = before ++ a :: after ∧ List.Forall₂ R before bs ∧ R a b := by
  induction bs generalizing as with
  | nil =>
    obtain ⟨a, rest, hab, -, rfl⟩ := List.forall₂_cons_right_iff.1 h
    exact ⟨[], a, rest, rfl, .nil, hab⟩
  | cons c bs ih =>
    obtain ⟨d, rest, hdc, hrest, rfl⟩ := List.forall₂_cons_right_iff.1 h
    obtain ⟨before, a, after, rfl, hbefore, hab⟩ := ih hrest
    exact ⟨d :: before, a, after, rfl, hbefore.cons hdc, hab⟩

end Forall₂

/-! ### Results that may be errors -/

section Except

variable {ε ε' α β : Type}

/-- One step after the other succeeds exactly if each does. -/
theorem bind_eq_ok_iff {x : Except ε α} {f : α → Except ε β} {b : β} :
    x >>= f = .ok b ↔ ∃ a, x = .ok a ∧ f a = .ok b := by
  cases x <;> simp [bind, Except.bind]

theorem mapError_eq_ok_iff {x : Except ε α} {f : ε → ε'} {a : α} :
    x.mapError f = .ok a ↔ x = .ok a := by
  cases x <;> simp [Except.mapError]

/-- A list is checked without complaint exactly if each entry is. -/
theorem forM_eq_ok_iff {l : List α} {f : α → Except ε PUnit} :
    l.forM f = .ok () ↔ ∀ a ∈ l, f a = .ok () := by
  induction l with
  | nil => exact iff_of_true rfl (by simp)
  | cons a l ih =>
    have hcons : (a :: l).forM f = f a >>= fun _ => l.forM f := rfl
    rw [hcons, bind_eq_ok_iff, List.forall_mem_cons]
    simp only [ih]
    constructor
    · rintro ⟨⟨⟩, ha, hl⟩
      exact ⟨ha, hl⟩
    · rintro ⟨ha, hl⟩
      exact ⟨⟨⟩, ha, hl⟩

/-- A list is worked through without an error exactly if each entry is. -/
theorem mapM_eq_ok_iff {l : List α} {f : α → Except ε β} {bs : List β} :
    l.mapM f = .ok bs ↔ List.Forall₂ (fun a b => f a = .ok b) l bs := by
  induction l generalizing bs with
  | nil =>
    rw [List.mapM_nil, List.forall₂_nil_left_iff]
    exact ⟨fun h => (Except.ok.inj h).symm, fun h => h ▸ rfl⟩
  | cons a l ih =>
    rw [List.mapM_cons, bind_eq_ok_iff, List.forall₂_cons_left_iff]
    constructor
    · rintro ⟨b, hb, hrest⟩
      obtain ⟨cs, hcs, heq⟩ := bind_eq_ok_iff.1 hrest
      exact ⟨b, cs, hb, ih.1 hcs, (Except.ok.inj heq).symm⟩
    · rintro ⟨b, cs, hb, hcs, rfl⟩
      exact ⟨b, hb, bind_eq_ok_iff.2 ⟨cs, ih.2 hcs, rfl⟩⟩

/-- What is read off an answer is the answer; reasons to fail need not be compared for it. -/
theorem eq_ok_of_toOption {ε : Type} {x : Except ε α} {a : α} (h : x.toOption = some a) :
    x = .ok a := by
  cases x with
  | error e => exact absurd h (by simp [Except.toOption])
  | ok b => exact congrArg Except.ok (Option.some.inj h)

/-- A list is read exactly if each entry is. -/
theorem mapM_eq_some_iff {l : List α} {f : α → Option β} {bs : List β} :
    l.mapM f = some bs ↔ List.Forall₂ (fun a b => f a = some b) l bs := by
  induction l generalizing bs with
  | nil =>
    rw [List.mapM_nil, List.forall₂_nil_left_iff]
    exact ⟨fun h => (Option.some.inj h).symm, fun h => h ▸ rfl⟩
  | cons a l ih =>
    rw [List.mapM_cons, List.forall₂_cons_left_iff]
    constructor
    · intro h
      obtain ⟨b, hb, hrest⟩ := Option.bind_eq_some_iff.1 h
      obtain ⟨cs, hcs, heq⟩ := Option.bind_eq_some_iff.1 hrest
      exact ⟨b, cs, hb, ih.1 hcs, (Option.some.inj heq).symm⟩
    · rintro ⟨b, cs, hb, hcs, rfl⟩
      exact Option.bind_eq_some_iff.2 ⟨b, hb, Option.bind_eq_some_iff.2 ⟨cs, ih.2 hcs, rfl⟩⟩

/-- A list that is worked through fails at the first entry that fails. -/
theorem mapM_eq_error_iff {l : List α} {f : α → Except ε β} {e : ε} :
    l.mapM f = .error e ↔ ∃ before a after, l = before ++ a :: after ∧
      (∀ b ∈ before, ∃ c, f b = .ok c) ∧ f a = .error e := by
  induction l with
  | nil =>
    rw [List.mapM_nil]
    exact iff_of_false (by simp [pure, Except.pure]) (by simp)
  | cons x l ih =>
    cases hx : f x with
    | error e' =>
      -- the head fails, so it is the entry, and nothing can stand before it
      have hfails : (x :: l).mapM f = .error e' := by
        rw [List.mapM_cons, hx]
        rfl
      rw [hfails]
      constructor
      · intro h
        obtain rfl := Except.error.inj h
        exact ⟨[], x, l, rfl, by simp, hx⟩
      · rintro ⟨before, a, after, hl, hbefore, ha⟩
        cases before with
        | nil =>
          obtain ⟨rfl, -⟩ := List.cons.inj hl
          rw [Except.error.inj (hx.symm.trans ha)]
        | cons b before =>
          obtain ⟨rfl, -⟩ := List.cons.inj hl
          obtain ⟨c, hc⟩ := hbefore x List.mem_cons_self
          exact absurd (hx.symm.trans hc) (by simp)
    | ok c =>
      -- the head is done, so the entry is in the tail, and the head stands before it
      have hrest : (x :: l).mapM f = .error e ↔ l.mapM f = .error e := by
        rw [List.mapM_cons, hx]
        cases l.mapM f <;> simp [bind, Except.bind, pure, Except.pure]
      rw [hrest, ih]
      constructor
      · rintro ⟨before, a, after, rfl, hbefore, ha⟩
        exact ⟨x :: before, a, after, rfl, List.forall_mem_cons.2 ⟨⟨c, hx⟩, hbefore⟩, ha⟩
      · rintro ⟨before, a, after, hl, hbefore, ha⟩
        cases before with
        | nil =>
          obtain ⟨rfl, -⟩ := List.cons.inj hl
          exact absurd (hx.symm.trans ha) (by simp)
        | cons b before =>
          obtain ⟨rfl, rfl⟩ := List.cons.inj hl
          exact ⟨before, a, after, rfl, fun y hy => hbefore y (List.mem_cons_of_mem _ hy), ha⟩

/-- A list can be worked through if each of its entries can. -/
theorem exists_mapM_eq_ok {l : List α} {f : α → Except ε β} (h : ∀ a ∈ l, ∃ b, f a = .ok b) :
    ∃ bs, l.mapM f = .ok bs := by
  induction l with
  | nil => exact ⟨[], rfl⟩
  | cons a l ih =>
    rw [List.forall_mem_cons] at h
    obtain ⟨b, hb⟩ := h.1
    obtain ⟨bs, hbs⟩ := ih h.2
    exact ⟨b :: bs, mapM_eq_ok_iff.2 ((mapM_eq_ok_iff.1 hbs).cons hb)⟩

end Except

end AgentFlow
