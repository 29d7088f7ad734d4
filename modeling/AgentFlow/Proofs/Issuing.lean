import AgentFlow.Proofs.Identifier
import Mathlib.Data.List.Forall2

/-!
# Names that are issued

The search for a free name sets itself no bound.  It ends because the candidates are all different
and only so many names are taken, and what it ends with is the first candidate that is free.  Names
that are issued one after the other are therefore apart from each other and from those that were
taken before.

## Main definitions

* `Identifier.Search`: the search for a free name, candidate by candidate.
* `Identifier.NameRequest`, `Identifier.issueAll`: names are issued one after the other.

## Main results

* `Identifier.search_iff`: the search ends, and with one name only.
* `Identifier.issueAll_spec`: names that are issued one after the other are apart.
* `Identifier.issue_first_free`: **the first free candidate is issued, and none twice.**
-/

namespace AgentFlow
namespace Identifier

variable {taken : Namespace} {base s t : String} {j k : Nat}

/-! ### The search -/

/-- The search for a free name from a candidate on: a candidate that is free ends it, and after one
that is taken it goes on with the next. -/
inductive Search (taken : Namespace) (base : String) : Nat → String → Prop where
  | free {k : Nat} (hfree : candidate base k ∉ taken) : Search taken base k (candidate base k)
  | next {k : Nat} {s : String} (htaken : candidate base k ∈ taken)
    (hrest : Search taken base (k + 1) s) : Search taken base k s

/-- From wherever it starts, the search ends with one name only: at each candidate it either stops
or goes on, and never both. -/
theorem Search.unique (hs : Search taken base k s) (ht : Search taken base k t) : s = t := by
  induction hs with
  | free hfree =>
    cases ht with
    | free _ => rfl
    | next htaken _ => exact absurd htaken hfree
  | next htaken _ ih =>
    cases ht with
    | free hfree => exact absurd htaken hfree
    | next _ hrest => exact ih hrest

/-- The search passes over candidates that are taken, up to the first that is free. -/
theorem search_of_forall_lt (hfree : candidate base k ∉ taken)
    (hbelow : ∀ j < k, candidate base j ∈ taken) (hj : j ≤ k) :
    Search taken base j (candidate base k) := by
  -- by induction on how many candidates are left before the free one
  obtain ⟨d, hd⟩ := Nat.exists_eq_add_of_le hj
  induction d generalizing j with
  | zero =>
    obtain rfl : k = j := by omega
    exact .free hfree
  | succ d ih =>
    apply Search.next (hbelow j (by omega))
    exact ih (by omega) (by omega)

/-- The search ends, with the name that is issued and with no other. -/
theorem search_iff : Search taken base 0 s ↔ s = firstFree taken base := by
  obtain ⟨k, hk, hfree, hbelow⟩ := firstFree_eq_candidate taken base
  have hsearch : Search taken base 0 (firstFree taken base) := by
    rw [hk]
    exact search_of_forall_lt hfree hbelow (Nat.zero_le k)
  constructor
  · intro hs
    exact hs.unique hsearch
  · rintro rfl
    exact hsearch

/-! ### One name after the other -/

/-- What a name is asked for with: a display name, a stem and a seed. -/
structure NameRequest where
  name : Option String
  stem : String
  seed : Option String

/-- The candidates of a request. -/
def NameRequest.candidate (r : NameRequest) (k : Nat) : String :=
  Identifier.candidate (Identifier.base r.name r.stem r.seed) k

/-- Issues a name for each request, one after the other. -/
def issueAll (taken : Namespace) : List NameRequest → List String × Namespace
  | [] => ([], taken)
  | r :: rs =>
    let (s, taken) := issue taken r.name r.stem r.seed
    let (ss, taken) := issueAll taken rs
    (s :: ss, taken)

/-- Names that are issued one after the other are apart from each other and from those that were
taken before.  Each is a candidate of its request. -/
theorem issueAll_spec (taken : Namespace) (rs : List NameRequest) :
    ∃ ss, issueAll taken rs = (ss, taken ++ ss) ∧
      List.Forall₂ (fun r s => ∃ k, s = r.candidate k) rs ss ∧
      ss.Nodup ∧ ∀ s ∈ ss, s ∉ taken := by
  induction rs generalizing taken with
  | nil => exact ⟨[], by simp [issueAll], .nil, List.nodup_nil, by simp⟩
  | cons r rs ih =>
    obtain ⟨k, hk, hfree, -⟩ :=
      firstFree_eq_candidate taken (Identifier.base r.name r.stem r.seed)
    obtain ⟨ss, hissue, hcandidates, hnodup, hfresh⟩ := ih (taken ++ [r.candidate k])
    have hfirst : issue taken r.name r.stem r.seed = (r.candidate k, taken ++ [r.candidate k]) := by
      rw [issue, hk]
      rfl
    refine ⟨r.candidate k :: ss, ?_, hcandidates.cons ⟨k, rfl⟩, ?_, ?_⟩
    · simp only [issueAll, hfirst, hissue, List.append_assoc, List.singleton_append]
    · -- the first name is taken when the others are issued
      apply List.nodup_cons.2
      refine ⟨fun hmem => hfresh _ hmem ?_, hnodup⟩
      exact List.mem_append_right _ (List.mem_singleton.2 rfl)
    · intro s hs
      rcases List.mem_cons.1 hs with rfl | hs
      · exact hfree
      · intro hmem
        exact hfresh s hs (List.mem_append_left _ hmem)

/-- **The first free candidate is issued, and none twice.**  Whatever the display name and the seed,
the search for a free name ends, with one name only.  That name is an identifier and no keyword, it
was free, the candidates before it were not, and from then on it is taken besides those that were.
Names that are issued one after the other, for whatever requests, are therefore all different, and
none of them was taken before. -/
theorem issue_first_free (taken : Namespace) :
    (∀ (name : Option String) (stem : String) (seed : Option String),
      isLegal stem.toList = true →
      ∃ s k, issue taken name stem seed = (s, taken ++ [s]) ∧
        (∀ t, Search taken (Identifier.base name stem seed) 0 t ↔ t = s) ∧
        isLegal s.toList = true ∧ s ∉ keywords ∧ s ∉ taken ∧
        s = candidate (Identifier.base name stem seed) k ∧
        ∀ j < k, candidate (Identifier.base name stem seed) j ∈ taken) ∧
    ∀ requests : List NameRequest, ∃ ss, issueAll taken requests = (ss, taken ++ ss) ∧
      ss.length = requests.length ∧ ss.Nodup ∧ ∀ s ∈ ss, s ∉ taken := by
  constructor
  · intro name stem seed hstem
    obtain ⟨k, hk, hfree, hbelow⟩ :=
      firstFree_eq_candidate taken (Identifier.base name stem seed)
    -- every candidate is usable, not only the one that is free
    have husable : Usable (candidate (Identifier.base name stem seed) k) :=
      usable_candidate (usable_base hstem name seed) k
    refine ⟨_, k, rfl, fun t => search_iff, ?_⟩
    rw [hk]
    exact ⟨husable.1, husable.2, hfree, rfl, hbelow⟩
  · intro requests
    obtain ⟨ss, hissue, hcandidates, hnodup, hfresh⟩ := issueAll_spec taken requests
    exact ⟨ss, hissue, hcandidates.length_eq.symm, hnodup, hfresh⟩

/-- A namespace in which the first candidates are taken. -/
def crowded : Namespace := ["bot", "bot_1", "agent_n2", "bot_3"]

/-- A keyword, nothing at all, a name that begins with a digit, and one that is taken. -/
def awkward : List NameRequest :=
  [⟨some "class", "agent", some "n2"⟩, ⟨none, "agent", none⟩, ⟨some "2nd Bot", "agent", none⟩,
    ⟨some "bot", "agent", none⟩]

/-- The third candidate is issued.  A keyword gives way to the stem and the seed, and so does a name
of which nothing remains. -/
theorem issue_first_free_crowded :
    isLegal "agent".toList = true ∧ Identifier.base (some " Bot! ") "agent" none = "bot" ∧
    (∀ t, Search crowded "bot" 0 t ↔ t = "bot_2") ∧
    issue crowded (some " Bot! ") "agent" none = ("bot_2", crowded ++ ["bot_2"]) ∧
    ∃ ss, issueAll crowded awkward = (ss, crowded ++ ss) ∧ ss.Nodup ∧
      ss = ["agent_n2_1", "agent_fallback", "_2nd_bot", "bot_2"] := by
  obtain ⟨hone, hall⟩ := issue_first_free crowded
  have hstem : isLegal "agent".toList = true := by decide
  have hbase : Identifier.base (some " Bot! ") "agent" none = "bot" := by decide +kernel
  obtain ⟨s, k, hissue, hsearch, -⟩ := hone (some " Bot! ") "agent" none hstem
  have hs : (issue crowded (some " Bot! ") "agent" none).1 = "bot_2" := by decide +kernel
  rw [hbase] at hsearch
  obtain rfl : s = "bot_2" := by
    rw [hissue] at hs
    exact hs
  obtain ⟨ss, hissueAll, -, hnodup, -⟩ := hall awkward
  have hss : (issueAll crowded awkward).1 =
      ["agent_n2_1", "agent_fallback", "_2nd_bot", "bot_2"] := by
    decide +kernel
  refine ⟨hstem, hbase, hsearch, hissue, ss, hissueAll, hnodup, ?_⟩
  rw [hissueAll] at hss
  exact hss

end Identifier
end AgentFlow
