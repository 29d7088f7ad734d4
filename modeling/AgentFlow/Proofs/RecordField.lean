import AgentFlow.Program.Render
import AgentFlow.Proofs.Issuing
import AgentFlow.Proofs.Lines

/-!
# Names of record fields

Each field of a structured schema becomes a field of its record class, under a name that is issued
for it.  A class takes a name that begins with an underscore for one of its own and not for a field.
Underscores are trimmed off display names, but one is put in front of a leading digit, so the fields
that are lost are those of whose names a digit is left in front.

## Main definitions

* `Identifier.IsPrivate`: the name begins with an underscore.
* `Identifier.LeadsWithDigit`: what remains of a display name begins with a digit.

## Main results

* `Identifier.isPrivate_base_iff`: when the name that is asked for is private.
* `Program.forall₂_recordFields`: the fields of a class are those of its schema.
* `Program.recordClass_public_iff`: **the fields of a class that are lost are those whose display
  names begin with a digit.**
-/

namespace AgentFlow

namespace Identifier

variable {c : Char} {cs : List Char} {stem : String}

/-! ### First characters -/

/-- The name begins with an underscore. -/
def IsPrivate (s : String) : Prop := s.toList.head? = some '_'

instance (s : String) : Decidable (IsPrivate s) := inferInstanceAs (Decidable (_ = _))

/-- What remains of a display name begins with a digit. -/
def LeadsWithDigit (name : String) : Prop :=
  ∃ c, (sanitizeChars name.toList).head? = some c ∧ isDigit c = true

/-- A digit in front is guarded by an underscore, and any other character stays in front. -/
theorem head?_guardDigit (h : cs.head? = some c) :
    (guardDigit cs).head? = some (if isDigit c then '_' else c) := by
  cases cs with
  | nil => simp at h
  | cons d ds =>
    obtain rfl : d = c := by simpa using h
    rw [guardDigit]
    split
    · simp
    · simp

/-- A name made of a stem and a seed begins like the stem. -/
theorem head?_fallback (hstem : stem.toList.head? = some c) (hdigit : isDigit c = false)
    (seed : Option String) : (fallback stem seed).toList.head? = some c := by
  simp only [fallback]
  split
  · rw [String.toList_append, List.head?_append, hstem, Option.some_or]
  · rw [String.toList_ofList]
    have hhead : ((stem.toList ++ '_' :: sanitizeChars (seed.getD "").toList).take
        fallbackLength).head? = some c := by
      rw [List.head?_take, if_neg (by decide), List.head?_append, hstem, Option.some_or]
    rw [head?_guardDigit hhead, hdigit]
    rfl

/-- A leading digit is guarded by an underscore, and what is guarded is a name of its own. -/
theorem base_of_leadsWithDigit {name : String} (h : LeadsWithDigit name) (stem : String)
    (seed : Option String) :
    ∃ cs, base (some name) stem seed = String.ofList ('_' :: cs) := by
  obtain ⟨c, hc, hdigit⟩ := h
  cases hown : sanitizeChars name.toList with
  | nil => simp [hown] at hc
  | cons d ds =>
    obtain rfl : d = c := by simpa [hown] using hc
    have hguard : guardDigit (sanitizeChars name.toList) = '_' :: d :: ds := by
      rw [hown, guardDigit, if_pos hdigit]
    have hkeyword : String.ofList ('_' :: d :: ds) ∉ keywords :=
      not_mem_keywords_of_underscore (by simp)
    refine ⟨d :: ds, ?_⟩
    simp only [base, Option.getD_some, hguard]
    apply if_neg
    rw [Bool.or_eq_true, decide_eq_true_eq, not_or]
    exact ⟨by simp [isVoid], hkeyword⟩

/-- The name that is asked for begins with an underscore exactly if a digit is left in front of the
display name. -/
theorem isPrivate_base_iff (hstem : stem.toList.head? = some c) (hdigit : isDigit c = false)
    (hc : c ≠ '_') (name : String) (seed : Option String) :
    IsPrivate (base (some name) stem seed) ↔ LeadsWithDigit name := by
  constructor
  · intro hprivate
    unfold IsPrivate at hprivate
    simp only [base, Option.getD_some] at hprivate
    split at hprivate
    · -- the name begins like the stem
      rw [head?_fallback hstem hdigit, Option.some.injEq] at hprivate
      exact absurd hprivate hc
    · rw [String.toList_ofList] at hprivate
      cases hown : sanitizeChars name.toList with
      | nil => simp [hown, guardDigit] at hprivate
      | cons d ds =>
        have hhead : (sanitizeChars name.toList).head? = some d := by rw [hown, List.head?_cons]
        refine ⟨d, hhead, ?_⟩
        by_contra hnot
        rw [head?_guardDigit hhead, if_neg hnot, Option.some.injEq] at hprivate
        -- underscores were trimmed off
        have htrimmed := Chars.not_of_head?_trim hhead
        simp [hprivate] at htrimmed
  · intro h
    obtain ⟨cs, hcs⟩ := base_of_leadsWithDigit h stem seed
    show (base (some name) stem seed).toList.head? = some '_'
    rw [hcs, String.toList_ofList, List.head?_cons]

/-- A number behind a name changes nothing in front of it. -/
theorem isPrivate_candidate_iff {base : String} (hbase : base.toList ≠ []) (k : Nat) :
    IsPrivate (candidate base k) ↔ IsPrivate base := by
  cases k with
  | zero => exact Iff.rfl
  | succ k =>
    obtain ⟨d, ds, hcons⟩ := List.exists_cons_of_ne_nil hbase
    unfold IsPrivate
    rw [toList_candidate_succ, hcons, List.cons_append, List.head?_cons, List.head?_cons]

end Identifier

/-! ### The fields of a class -/

namespace Program

open Identifier

variable {taken : Namespace} {i : Nat} {fs : List SchemaField}

/-- What the names of fields are asked for with, from an index on. -/
def fieldRequests : Nat → List SchemaField → List NameRequest
  | _, [] => []
  | i, f :: fs => ⟨some f.name, "field", some (seedOr f.id i)⟩ :: fieldRequests (i + 1) fs

theorem map_name_recordFields (taken : Namespace) (i : Nat) (fs : List SchemaField) :
    (recordFields taken i fs).map (·.name) = (issueAll taken (fieldRequests i fs)).1 := by
  induction fs generalizing taken i with
  | nil => rfl
  | cons f fs ih =>
    simp only [recordFields, fieldRequests, issueAll, List.map_cons]
    rw [ih]

/-- The fields of a class are those of its schema, in order, and each has a usable name.  The name
is private exactly if a digit is left in front of the display name. -/
theorem forall₂_recordFields (taken : Namespace) (i : Nat) (fs : List SchemaField) :
    List.Forall₂ (fun f r => (r.type = f.type ∧ r.isOptional = f.isOptional ∧
        r.description = f.description) ∧ Usable r.name ∧
        (IsPrivate r.name ↔ LeadsWithDigit f.name)) fs (recordFields taken i fs) := by
  induction fs generalizing taken i with
  | nil => exact .nil
  | cons f fs ih =>
    have hbase : Usable (Identifier.base (some f.name) "field" (some (seedOr f.id i))) :=
      usable_base (by decide) _ _
    obtain ⟨k, hk, -⟩ :=
      firstFree_eq_candidate taken (Identifier.base (some f.name) "field" (some (seedOr f.id i)))
    refine .cons ⟨⟨rfl, rfl, rfl⟩, ?_⟩ (ih _ _)
    show Usable (firstFree taken _) ∧ (IsPrivate (firstFree taken _) ↔ _)
    rw [hk, isPrivate_candidate_iff (all_isNameChar_of_isLegal hbase.1).1]
    exact ⟨usable_candidate hbase k, isPrivate_base_iff rfl (by decide) (by decide) _ _⟩

/-- No two fields of a class have the same name, and none has a name that was taken. -/
theorem nodup_map_name_recordFields (taken : Namespace) (i : Nat) (fs : List SchemaField) :
    ((recordFields taken i fs).map (·.name)).Nodup ∧
      ∀ r ∈ recordFields taken i fs, r.name ∉ taken := by
  obtain ⟨ss, hissue, -, hnodup, hfresh⟩ := issueAll_spec taken (fieldRequests i fs)
  have hnames : (recordFields taken i fs).map (·.name) = ss := by
    rw [map_name_recordFields, hissue]
  rw [hnames]
  refine ⟨hnodup, ?_⟩
  intro r hr
  apply hfresh
  rw [← hnames]
  exact List.mem_map_of_mem hr

/-- The line of a field begins with its name. -/
theorem exists_fieldLine_eq (r : RecordField) :
    ∃ rest, fieldLine r = Literal.indent ++ r.name ++ ": " ++ rest := by
  have hoptional : ∀ s type : String, s ++ ": Optional[" ++ type ++ "] = None" =
      s ++ ": " ++ ("Optional[" ++ type ++ "] = None") := by
    intro s type
    rw [show ": Optional[" = ": " ++ "Optional[" from rfl]
    simp only [String.append_assoc]
  -- a field that may be left out has another type and a default, but its line begins alike
  have hcode : ∃ rest, (if r.isOptional then
      Literal.indent ++ r.name ++ ": Optional[" ++ r.type.fieldType ++ "] = None"
      else Literal.indent ++ r.name ++ ": " ++ r.type.fieldType) =
        Literal.indent ++ r.name ++ ": " ++ rest := by
    split
    · exact ⟨_, hoptional _ _⟩
    · exact ⟨_, rfl⟩
  obtain ⟨rest, hrest⟩ := hcode
  simp only [fieldLine]
  split
  · exact ⟨rest, hrest⟩
  · next s _ =>
    rw [hrest]
    exact ⟨rest ++ "  # " ++ Literal.comment s, by simp only [String.append_assoc]⟩

/-- The last lines of a class are those of its fields. -/
theorem map_fieldLine_suffix (c : RecordClass) : c.fields.map fieldLine <:+ classBlock c := by
  unfold classBlock
  split
  · next hempty =>
    rw [List.isEmpty_iff.1 hempty]
    exact List.nil_suffix
  · exact List.suffix_append _ _

/-- **The fields of a class that are lost are those whose display names begin with a digit.**  A
class has the fields of its schema in order, with a line for each.  Their names are all different,
each is an identifier, no keyword and not `model_config`.  A name begins with an underscore exactly
if a digit is left in front of the display name. -/
theorem recordClass_public_iff (e : SchemaEntry) :
    List.Forall₂ (fun f r => r.type = f.type ∧ r.isOptional = f.isOptional ∧
        r.description = f.description) e.schema.fields (recordClass e).fields ∧
      (∃ lines, lines <:+ classBlock (recordClass e) ∧ List.Forall₂
        (fun r line => ∃ rest, line = Literal.indent ++ r.name ++ ": " ++ rest)
        (recordClass e).fields lines) ∧
      ((recordClass e).fields.map (·.name)).Nodup ∧
      (∀ r ∈ (recordClass e).fields, isLegal r.name.toList = true ∧ r.name ∉ keywords ∧
        r.name ≠ "model_config") ∧
      List.Forall₂ (fun f r => IsPrivate r.name ↔ LeadsWithDigit f.name) e.schema.fields
        (recordClass e).fields ∧
      ((∀ r ∈ (recordClass e).fields, ¬ IsPrivate r.name) ↔
        ∀ f ∈ e.schema.fields, ¬ LeadsWithDigit f.name) := by
  have hfields := forall₂_recordFields reservedFieldNames 0 e.schema.fields
  obtain ⟨hnodup, hfresh⟩ := nodup_map_name_recordFields reservedFieldNames 0 e.schema.fields
  have hprivate := hfields.imp fun f r h => h.2.2
  refine ⟨hfields.imp fun f r h => h.1, ?_, hnodup, ?_, hprivate, ?_⟩
  · refine ⟨_, map_fieldLine_suffix _, ?_⟩
    rw [List.forall₂_map_right_iff, List.forall₂_same]
    exact fun r _ => exists_fieldLine_eq r
  · intro r hr
    obtain ⟨f, -, -, husable, -⟩ := exists_left_of_forall₂ hfields hr
    refine ⟨husable.1, husable.2, fun heq => hfresh r hr ?_⟩
    rw [heq]
    exact List.mem_singleton.2 rfl
  · constructor
    · intro h f hf hdigit
      obtain ⟨r, hr, hiff⟩ := exists_right_of_forall₂ hprivate hf
      exact h r hr (hiff.2 hdigit)
    · intro h r hr hunderscore
      obtain ⟨f, hf, hiff⟩ := exists_left_of_forall₂ hprivate hr
      exact h f hf (hiff.1 hunderscore)

/-- A schema with a field whose display name begins with a digit. -/
def podium : SchemaEntry :=
  ⟨"podium", { modelName := "Podium", fields := [{ name := "Winner" }, { name := "2nd place" }] }⟩

/-- The second field is lost. -/
theorem not_public_podium :
    (recordClass podium).fields.map (·.name) = ["winner", "_2nd_place"] ∧
      ¬ ∀ r ∈ (recordClass podium).fields, ¬ IsPrivate r.name := by
  decide +kernel

end Program

end AgentFlow
