import AgentFlow.Identifier
import Mathlib.Data.List.Nodup
import Mathlib.Data.List.Perm.Subperm

/-!
# Issued identifiers

An issued name is an identifier in small letters, it is no keyword, and it was not taken before.
Names made of a stem and a seed are cut short, so that they are no keyword needs an argument: either
the underscore behind the stem survives, and keywords have none, or the name is longer than any of
them.

## Main definitions

* `Identifier.isLegal`: the shape of an identifier in small letters.
* `Identifier.Usable`: an identifier that is no keyword.

## Main results

* `Identifier.usable_base`: the name that is asked for is usable, whatever the display name.
* `Identifier.firstFree_eq_candidate`: the search for a free name succeeds, at the first candidate
  that is free.
* `Identifier.issue_spec`: **what is issued is usable and new.**
-/

namespace AgentFlow
namespace Identifier

/-! ### The shape of identifiers -/

/-- Characters that an identifier may start with. -/
def isNameStart (c : Char) : Bool :=
  ('a' ≤ c && c ≤ 'z') || c = '_'

/-- Identifiers in small letters. -/
def isLegal : List Char → Bool
  | [] => false
  | c :: cs => isNameStart c && cs.all isNameChar

/-- An identifier in small letters that is no keyword. -/
def Usable (s : String) : Prop :=
  isLegal s.toList = true ∧ s ∉ keywords

instance (s : String) : Decidable (Usable s) :=
  inferInstanceAs (Decidable (_ ∧ _))

variable {c : Char} {cs ds : List Char} {s : String}

theorem between_iff {a b : Char} :
    (decide (a ≤ c) && decide (c ≤ b)) = true ↔ a.toNat ≤ c.toNat ∧ c.toNat ≤ b.toNat := by
  rw [Bool.and_eq_true, decide_eq_true_eq, decide_eq_true_eq]
  exact Iff.rfl

theorem isNameChar_of_isNameStart (h : isNameStart c = true) : isNameChar c = true := by
  simp only [isNameStart, isNameChar, Bool.or_eq_true] at h ⊢
  rcases h with h | h
  · exact Or.inl (Or.inl h)
  · exact Or.inr h

/-- Without its digits, what may stand in a name may stand at its beginning. -/
theorem isNameStart_of_not_isDigit (h : isNameChar c = true) (hdigit : isDigit c = false) :
    isNameStart c = true := by
  simp only [isNameStart, isNameChar, Bool.or_eq_true] at h ⊢
  rcases h with (h | h) | h
  · exact Or.inl h
  · have hin : isDigit c = true := by
      exact Ranges.has_eq_true_iff.2 ⟨(0x30, 0x39), by decide, between_iff.1 h⟩
    rw [hin] at hdigit
    exact absurd hdigit (by decide)
  · exact Or.inr h

theorem all_isNameChar_of_isLegal (h : isLegal cs = true) :
    cs ≠ [] ∧ cs.all isNameChar = true := by
  cases cs with
  | nil => simp [isLegal] at h
  | cons c cs =>
    rw [isLegal, Bool.and_eq_true] at h
    rw [List.all_cons, isNameChar_of_isNameStart h.1, h.2]
    exact ⟨List.cons_ne_nil _ _, rfl⟩

theorem isLegal_append (hcs : isLegal cs = true) (hds : ds.all isNameChar = true) :
    isLegal (cs ++ ds) = true := by
  cases cs with
  | nil => simp [isLegal] at hcs
  | cons c cs =>
    simp only [isLegal, List.cons_append, List.all_append, Bool.and_eq_true] at hcs ⊢
    exact ⟨hcs.1, hcs.2, hds⟩

/-- A text of name characters is an identifier once a digit in front is guarded by an underscore. -/
theorem isLegal_guardDigit (hne : cs ≠ []) (hcs : cs.all isNameChar = true) :
    isLegal (guardDigit cs) = true := by
  cases cs with
  | nil => exact absurd rfl hne
  | cons c cs =>
    rw [guardDigit]
    split
    · simpa [isLegal, isNameStart] using hcs
    · next hdigit =>
      rw [List.all_cons, Bool.and_eq_true] at hcs
      rw [isLegal, Bool.and_eq_true]
      exact ⟨isNameStart_of_not_isDigit hcs.1 (by simpa using hdigit), hcs.2⟩

/-! ### What remains of a display name -/

theorem toNat_toLower (h : 'A' ≤ c ∧ c ≤ 'Z') : c.toLower.toNat = c.toNat + 32 := by
  have hz : c.toNat ≤ 90 := h.2
  have hlower : c.toLower.toNat = (c.val + ('a'.val - 'A'.val)).toNat :=
    congrArg Char.toNat (dif_pos (show c.val ≥ 'A'.val ∧ c.val ≤ 'Z'.val from h))
  rw [hlower, UInt32.toNat_add]
  exact Nat.mod_eq_of_lt (by show c.toNat + 32 < _; omega)

/-- What remains of a character when a name is made of it may stand in a name. -/
theorem all_isNameChar_remains (c : Char) : (remains c).all isNameChar = true := by
  unfold remains
  split
  · next h => simpa using h
  · split
    · next h =>
      have hletter : (decide ('a' ≤ c.toLower) && decide (c.toLower ≤ 'z')) = true := by
        have ha : 65 ≤ c.toNat := h.1
        have hz : c.toNat ≤ 90 := h.2
        rw [between_iff, toNat_toLower h]
        exact ⟨Nat.add_le_add_right ha 32, Nat.add_le_add_right hz 32⟩
      simp [isNameChar, hletter]
    · split
      · decide
      · split <;> decide

theorem all_dropWhile {p q : Char → Bool} (h : cs.all p = true) :
    (cs.dropWhile q).all p = true := by
  rw [List.all_eq_true] at h ⊢
  exact fun d hd => h d ((List.dropWhile_sublist q).subset hd)

theorem all_trim {p q : Char → Bool} (h : cs.all p = true) : (Chars.trim q cs).all p = true := by
  rw [Chars.trim, Chars.trimRight, Chars.trimLeft, List.all_reverse]
  refine all_dropWhile ?_
  rw [List.all_reverse]
  exact all_dropWhile h

/-- What remains of a display name may stand in an identifier. -/
theorem all_isNameChar_sanitizeChars (cs : List Char) :
    (sanitizeChars cs).all isNameChar = true := by
  refine all_trim ?_
  rw [List.all_flatMap, List.all_eq_true]
  exact fun c _ => all_isNameChar_remains c

/-! ### No keyword -/

theorem keywords_short : ∀ k ∈ keywords, '_' ∉ k.toList ∧ k.toList.length < fallbackLength := by
  decide

theorem not_mem_keywords_of_underscore (h : '_' ∈ s.toList) : s ∉ keywords :=
  fun hs => (keywords_short s hs).1 h

theorem not_mem_keywords_of_length (h : fallbackLength ≤ s.toList.length) : s ∉ keywords :=
  fun hs => absurd (keywords_short s hs).2 (Nat.not_lt.2 h)

/-! ### The name that is asked for -/

theorem sublist_guardDigit (cs : List Char) : List.Sublist cs (guardDigit cs) := by
  cases cs with
  | nil => exact .slnil
  | cons c cs =>
    rw [guardDigit]
    split
    · exact List.sublist_cons_self _ _
    · exact List.Sublist.refl _

/-- A stem with what follows it, cut short, has its underscore or is long. -/
theorem underscore_mem_or_length (stem tail : List Char) :
    '_' ∈ (stem ++ '_' :: tail).take fallbackLength ∨
      fallbackLength ≤ ((stem ++ '_' :: tail).take fallbackLength).length := by
  by_cases hlong : fallbackLength ≤ stem.length
  · right
    rw [List.length_take, List.length_append]
    omega
  · left
    rw [List.take_append, List.mem_append]
    right
    obtain ⟨k, hk⟩ : ∃ k, fallbackLength - stem.length = k + 1 :=
      ⟨_, (Nat.succ_pred (by omega)).symm⟩
    rw [hk, List.take_succ_cons]
    exact List.mem_cons_self

theorem usable_ofList (hlegal : isLegal cs = true)
    (hlong : '_' ∈ cs ∨ fallbackLength ≤ cs.length) : Usable (String.ofList cs) := by
  refine ⟨by rwa [String.toList_ofList], ?_⟩
  rcases hlong with h | h
  · exact not_mem_keywords_of_underscore (by rwa [String.toList_ofList])
  · exact not_mem_keywords_of_length (by rwa [String.toList_ofList])

/-- A name made of a stem and a seed is usable, even if nothing that may stand in a name is left of
the seed. -/
theorem usable_fallback {stem : String} (hstem : isLegal stem.toList = true)
    (seed : Option String) : Usable (fallback stem seed) := by
  obtain ⟨hne, hchars⟩ := all_isNameChar_of_isLegal hstem
  simp only [fallback]
  split
  · have hlist : stem ++ "_fallback" = String.ofList (stem.toList ++ "_fallback".toList) := by
      rw [← String.toList_append, String.ofList_toList]
    rw [hlist]
    exact usable_ofList (isLegal_append hstem (by decide)) (Or.inl (by simp))
  · -- the letter in front of a digit neither removes the underscore nor makes the name shorter
    have hsub := sublist_guardDigit ((stem.toList ++ '_' ::
      sanitizeChars (seed.getD "").toList).take fallbackLength)
    refine usable_ofList (isLegal_guardDigit ?_ ?_) ?_
    · simp [fallbackLength, hne]
    · rw [List.all_eq_true]
      intro d hd
      have hall : (stem.toList ++ '_' :: sanitizeChars (seed.getD "").toList).all isNameChar := by
        rw [List.all_append, hchars, List.all_cons, all_isNameChar_sanitizeChars]
        decide
      exact List.all_eq_true.1 hall d (List.mem_of_mem_take hd)
    · rcases underscore_mem_or_length stem.toList (sanitizeChars (seed.getD "").toList) with h | h
      · exact Or.inl (hsub.subset h)
      · exact Or.inr (Nat.le_trans h hsub.length_le)

/-- The name that is asked for is usable, whatever the display name. -/
theorem usable_base {stem : String} (hstem : isLegal stem.toList = true)
    (name seed : Option String) : Usable (base name stem seed) := by
  simp only [base]
  split
  · exact usable_fallback hstem seed
  · next h =>
    -- something remains of the display name, and it is no keyword
    rw [Bool.or_eq_true, not_or, decide_eq_true_eq] at h
    refine ⟨?_, h.2⟩
    rw [String.toList_ofList]
    refine isLegal_guardDigit ?_ (all_isNameChar_sanitizeChars _)
    intro hnil
    rw [hnil] at h
    exact h.1 (by decide)

/-! ### Numbered names -/

theorem toList_candidate_succ (base : String) (k : Nat) :
    (candidate base (k + 1)).toList = base.toList ++ '_' :: Nat.toDigits 10 (k + 1) := by
  simp [candidate]

theorem all_isNameChar_toDigits (n : Nat) : (Nat.toDigits 10 n).all isNameChar = true := by
  rw [List.all_eq_true]
  intro d hd
  have hdigit : (decide ('0' ≤ d) && decide (d ≤ '9')) = true :=
    Nat.isDigit_of_mem_toDigits (by decide) (by decide) hd
  simp [isNameChar, hdigit]

theorem toDigits_injective {m n : Nat} (h : Nat.toDigits 10 m = Nat.toDigits 10 n) : m = n := by
  rw [← Nat.ofDigitChars_ten_toDigits (n := m), h, Nat.ofDigitChars_ten_toDigits]

/-- All candidates for a name can be used: a number behind a name makes neither a keyword of it nor
breaks it. -/
theorem usable_candidate {base : String} (h : Usable base) (k : Nat) :
    Usable (candidate base k) := by
  cases k with
  | zero => exact h
  | succ k =>
    refine ⟨?_, not_mem_keywords_of_underscore ?_⟩
    · rw [toList_candidate_succ]
      refine isLegal_append h.1 ?_
      rw [List.all_cons, all_isNameChar_toDigits]
      decide
    · rw [toList_candidate_succ]
      simp

/-- No two candidates are the same, so among finitely many taken names there is always one that is
free. -/
theorem candidate_injective (base : String) : Function.Injective (candidate base) := by
  intro j k h
  have hlist := congrArg String.toList h
  -- a numbered name is longer than the name itself, and two numbers have different digits
  cases j with
  | zero =>
    cases k with
    | zero => rfl
    | succ k => simp [candidate] at hlist
  | succ j =>
    cases k with
    | zero => simp [candidate] at hlist
    | succ k =>
      rw [toList_candidate_succ, toList_candidate_succ, List.append_cancel_left_eq] at hlist
      exact toDigits_injective (List.cons.inj hlist).2

/-- Among the first candidates, one more than there are names taken, one is free. -/
theorem exists_free (taken : Namespace) (base : String) :
    ∃ k ∈ List.range (taken.length + 1), candidate base k ∉ taken := by
  by_contra hnone
  have hsub : ∀ s ∈ (List.range (taken.length + 1)).map (candidate base), s ∈ taken := by
    intro s hs
    obtain ⟨k, hk, rfl⟩ := List.mem_map.1 hs
    by_contra hfree
    exact hnone ⟨k, hk, hfree⟩
  have hnodup : ((List.range (taken.length + 1)).map (candidate base)).Nodup :=
    List.nodup_range.map (candidate_injective base)
  -- the candidates are all different, and too many for the names that are taken
  have hlength := (List.subperm_of_subset hnodup hsub).length_le
  rw [List.length_map, List.length_range] at hlength
  omega

/-- The search for a free name succeeds, and all candidates before the one it finds are taken. -/
theorem firstFree_eq_candidate (taken : Namespace) (base : String) :
    ∃ k, firstFree taken base = candidate base k ∧ candidate base k ∉ taken ∧
      ∀ j < k, candidate base j ∈ taken := by
  obtain ⟨j, hj, hfree⟩ := exists_free taken base
  have hsome :
      ((List.range (taken.length + 1)).find? fun k => candidate base k ∉ taken).isSome := by
    rw [List.find?_isSome]
    exact ⟨j, hj, decide_eq_true hfree⟩
  obtain ⟨k, hk⟩ := Option.isSome_iff_exists.1 hsome
  obtain ⟨hk', -, hbelow⟩ := List.find?_range_eq_some.1 hk
  refine ⟨k, by simp only [firstFree, hk, Option.getD_some], by simpa using hk', ?_⟩
  intro j hj
  simpa using hbelow j hj

/-- **What is issued is usable and new.** -/
theorem issue_spec (stem : String) (hstem : isLegal stem.toList = true) (taken : Namespace)
    (name seed : Option String) :
    ∃ s, issue taken name stem seed = (s, taken ++ [s]) ∧ Usable s ∧ s ∉ taken := by
  obtain ⟨k, hk, hfree, -⟩ := firstFree_eq_candidate taken (base name stem seed)
  refine ⟨_, rfl, ?_, ?_⟩
  · rw [hk]
    exact usable_candidate (usable_base hstem name seed) k
  · rw [hk]
    exact hfree

end Identifier
end AgentFlow
