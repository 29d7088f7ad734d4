import AgentFlow.Program.Literal
import AgentFlow.Proofs.Bookkeeping
import Mathlib.Data.List.DropRight

/-!
# Texts on one line

What is taken apart at its line ends has none left in its parts, and stripping adds none.  So a text
that is folded onto one line is on one line, and every line of a body stays a line.

## Main definitions

* `Text.OneLine`: no line ends inside a text.

## Main results

* `Chars.not_of_head?_trim`: a trimmed text does not begin with what was trimmed off.
* `Chars.lines_intercalate`: lines that are put together with line feeds are found again.
* `Text.strippedLines_ne_nil`: a text that is not blank has lines.
* `Literal.oneLine_comment`: **a text that is folded is on one line.**
* `Literal.mem_block`: **the lines of a body are empty or indented.**
-/

namespace AgentFlow

variable {c : Char} {cs line rest : List Char}

/-! ### Stripped texts -/

namespace Chars

theorem trim_sublist (p : Char → Bool) (cs : List Char) : List.Sublist (trim p cs) cs :=
  (List.rdropWhile_prefix p _).sublist.trans (List.dropWhile_sublist p)

/-- A text that was trimmed does not begin with what was trimmed off. -/
theorem not_of_head?_trim {p : Char → Bool} (h : (trim p cs).head? = some c) : p c = false := by
  -- trimming on the right leaves the beginning of the text as it is
  obtain ⟨ds, hds⟩ : trim p cs <+: cs.dropWhile p := List.rdropWhile_prefix p _
  have hhead : (cs.dropWhile p).head? = some c := by
    rw [← hds, List.head?_append, h, Option.some_or]
  have hfirst := List.head?_dropWhile_not p cs
  rwa [hhead] at hfirst

/-- Nothing is left of a text exactly if it is blank. -/
theorem stripRight_eq_nil_iff : stripRight cs = [] ↔ ∀ c ∈ cs, isBlank c = true := by
  simp only [stripRight, trimRight, List.reverse_eq_nil_iff, List.dropWhile_eq_nil_iff,
    List.mem_reverse]

/-- Nothing is left of a text exactly if all of it is blank. -/
theorem strip_eq_nil_iff : strip cs = [] ↔ ∀ c ∈ cs, isBlank c = true := by
  rw [strip, trim, ← stripRight, stripRight_eq_nil_iff]
  constructor
  · intro h
    cases hrest : trimLeft isBlank cs with
    | nil => exact List.dropWhile_eq_nil_iff.1 hrest
    | cons d ds =>
      -- the first character that was left is no blank, although all of them should be
      have hfirst := List.head?_dropWhile_not isBlank cs
      rw [show cs.dropWhile isBlank = _ from hrest] at hfirst
      have hblank := h d (by rw [hrest]; simp)
      rw [show isBlank d = false from hfirst] at hblank
      exact absurd hblank (by decide)
  · intro h d hd
    exact h d ((List.dropWhile_sublist isBlank).subset hd)

/-! ### Lines -/

theorem mem_consFirst {ls : List (List Char)} (h : line ∈ consFirst c ls) :
    line ∈ ls ∨ ∃ l, (l = [] ∨ l ∈ ls) ∧ line = c :: l := by
  cases ls with
  | nil => exact Or.inr ⟨[], Or.inl rfl, List.mem_singleton.1 h⟩
  | cons l ls =>
    rcases List.mem_cons.1 h with rfl | h
    · exact Or.inr ⟨l, Or.inr List.mem_cons_self, rfl⟩
    · exact Or.inl (List.mem_cons_of_mem _ h)

/-- No line ends inside a line, whichever of the line ends the text uses. -/
theorem not_isLineEnd_of_mem_lines (h : line ∈ lines cs) : ∀ c ∈ line, isLineEnd c = false := by
  fun_induction lines cs generalizing line with
  | case1 => exact absurd h List.not_mem_nil
  | case2 rest ih =>
    rcases List.mem_cons.1 h with rfl | h
    · simp
    · exact ih h
  | case3 c rest _ _ ih =>
    rcases List.mem_cons.1 h with rfl | h
    · simp
    · exact ih h
  | case4 c rest _ hend ih =>
    rcases mem_consFirst h with h | ⟨l, hl, rfl⟩
    · exact ih h
    · rw [List.forall_mem_cons]
      refine ⟨by simpa using hend, ?_⟩
      rcases hl with rfl | hl
      · simp
      · exact ih hl

theorem lines_ne_nil (h : cs ≠ []) : lines cs ≠ [] := by
  rw [lines.eq_def]
  split
  · exact absurd rfl h
  · simp
  · split
    · simp
    · next rest _ _ => cases lines rest <;> simp [consFirst]

theorem lines_cons (h : isLineEnd c = false) (cs : List Char) :
    lines (c :: cs) = consFirst c (lines cs) := by
  have hreturn : c ≠ '\r' := by
    rintro rfl
    exact absurd h (by decide)
  rw [lines, if_neg (by simp [h])]
  exact fun _ hc => absurd hc hreturn

/-- The first line of a text is what stands before the first line feed. -/
theorem lines_append_feed (h : ∀ c ∈ line, isLineEnd c = false) (rest : List Char) :
    lines (line ++ '\n' :: rest) = line :: lines rest := by
  induction line with
  | nil =>
    rw [List.nil_append, lines, if_pos (by decide)]
    simp
  | cons c line ih =>
    rw [List.forall_mem_cons] at h
    rw [List.cons_append, lines_cons h.1, ih h.2]
    rfl

/-- A text without a line end is one line, unless it is empty: then it has none. -/
theorem lines_of_not_isLineEnd (h : ∀ c ∈ line, isLineEnd c = false) (hne : line ≠ []) :
    lines line = [line] := by
  induction line with
  | nil => exact absurd rfl hne
  | cons c line ih =>
    rw [List.forall_mem_cons] at h
    rw [lines_cons h.1]
    cases line with
    | nil => simp [consFirst]
    | cons d line => rw [ih h.2 (List.cons_ne_nil _ _), consFirst]

/-- Lines that are put together with line feeds are found again, in order and without any left over.
-/
theorem lines_intercalate {ls : List (List Char)}
    (h : ∀ l ∈ ls, l ≠ [] ∧ ∀ c ∈ l, isLineEnd c = false) : lines (['\n'].intercalate ls) = ls := by
  induction ls with
  | nil => simp
  | cons l ls ih =>
    rw [List.forall_mem_cons] at h
    cases ls with
    | nil => rw [List.intercalate_singleton, lines_of_not_isLineEnd h.1.2 h.1.1]
    | cons l' ls =>
      rw [List.intercalate_cons_cons, List.append_assoc, List.singleton_append,
        lines_append_feed h.1.2, ih h.2]

end Chars

namespace Text

variable {s t sep : String}

/-- No line ends inside the text. -/
def OneLine (s : String) : Prop := ∀ c ∈ s.toList, isLineEnd c = false

instance (s : String) : Decidable (OneLine s) :=
  List.decidableBAll _ s.toList

theorem oneLine_ofList {cs : List Char} (h : ∀ c ∈ cs, isLineEnd c = false) :
    OneLine (String.ofList cs) := by
  rwa [OneLine, String.toList_ofList]

/-- This is how to evaluate it for a literal: nothing is encoded on the way. -/
theorem oneLine_literal {cs : List Char} (h : cs.any isLineEnd = false) :
    OneLine (String.ofList cs) :=
  oneLine_ofList (by simpa using h)

theorem OneLine.not_mem (h : OneLine s) (hend : isLineEnd c = true) : c ∉ s.toList := by
  intro hc
  rw [h c hc] at hend
  exact absurd hend (by decide)

theorem oneLine_append_iff : OneLine (s ++ t) ↔ OneLine s ∧ OneLine t := by
  rw [OneLine, String.toList_append, List.forall_mem_append]
  rfl

theorem OneLine.append (hs : OneLine s) (ht : OneLine t) : OneLine (s ++ t) :=
  oneLine_append_iff.2 ⟨hs, ht⟩

theorem OneLine.literal (hs : OneLine s) {cs : List Char} (h : cs.any isLineEnd = false) :
    OneLine (s ++ String.ofList cs) :=
  hs.append (oneLine_literal h)

theorem oneLine_intercalate {ls : List String} (hsep : OneLine sep) (hls : ∀ l ∈ ls, OneLine l) :
    OneLine (String.intercalate sep ls) := by
  intro c hc
  rw [String.toList_intercalate] at hc
  rcases mem_or_mem_of_mem_intercalate hc with hc | ⟨l, hl, hc⟩
  · exact hsep c hc
  · obtain ⟨s, hs, rfl⟩ := List.mem_map.1 hl
    exact hls s hs c hc

theorem oneLine_strip (h : OneLine s) : OneLine (strip s) := by
  intro c hc
  rw [toList_strip] at hc
  exact h c ((Chars.trim_sublist isBlank _).subset hc)

theorem oneLine_of_mem_lines (h : t ∈ lines s) : OneLine t := by
  obtain ⟨line, hline, rfl⟩ := List.mem_map.1 h
  exact oneLine_ofList (Chars.not_isLineEnd_of_mem_lines hline)

theorem oneLine_of_mem_strippedLines (h : t ∈ strippedLines s) : OneLine t := by
  obtain ⟨line, hline, rfl⟩ := List.mem_map.1 h
  exact oneLine_strip (oneLine_of_mem_lines hline)

theorem not_isBlank_of_mem_strippedLines (h : t ∈ strippedLines s)
    (hhead : t.toList.head? = some c) : isBlank c = false := by
  obtain ⟨line, -, rfl⟩ := List.mem_map.1 h
  rw [toList_strip] at hhead
  exact Chars.not_of_head?_trim hhead

theorem lines_ne_nil (h : s ≠ "") : lines s ≠ [] := by
  rw [lines, Ne, List.map_eq_nil_iff]
  exact Chars.lines_ne_nil (mt String.toList_eq_nil_iff.1 h)

theorem not_forall_isBlank (h : isBlankText s = false) : ¬ ∀ c ∈ s.toList, isBlank c = true := by
  rw [← List.all_eq_true]
  simpa [isBlankText] using h

/-- A text that is not blank has lines. -/
theorem strippedLines_ne_nil (h : isBlankText s = false) : strippedLines s ≠ [] := by
  rw [strippedLines, Ne, List.map_eq_nil_iff]
  refine lines_ne_nil fun hempty => not_forall_isBlank h ?_
  rwa [← Chars.strip_eq_nil_iff, ← toList_strip, String.toList_eq_nil_iff]

/-- Lines that are put together with line feeds are found again. -/
theorem lines_intercalate {ls : List String} (h : ∀ l ∈ ls, l ≠ "" ∧ OneLine l) :
    lines (String.intercalate "\n" ls) = ls := by
  have hchars : Chars.lines (['\n'].intercalate (ls.map String.toList)) = ls.map String.toList := by
    refine Chars.lines_intercalate fun l hl => ?_
    obtain ⟨s, hs, rfl⟩ := List.mem_map.1 hl
    exact ⟨by simpa using (h s hs).1, (h s hs).2⟩
  rw [lines, String.toList_intercalate, show "\n".toList = ['\n'] from rfl, hchars]
  simp

end Text

namespace Literal

open Text

variable {s ind line : String}

/-- An indentation by a number of spaces. -/
def spaces (n : ℕ) : String := String.ofList (List.replicate n ' ')

theorem oneLine_spaces (n : ℕ) : OneLine (spaces n) := by
  intro c hc
  rw [spaces, String.toList_ofList] at hc
  rw [List.eq_of_mem_replicate hc]
  decide

/-- **A text that is folded is on one line.** -/
theorem oneLine_comment (s : String) : OneLine (comment s) :=
  oneLine_intercalate (by decide) fun _ hl => oneLine_of_mem_strippedLines hl

/-- **The lines of a body are empty or indented**, and nothing else is added to them. -/
theorem mem_block (h : line ∈ block ind s) :
    line = "" ∨ ∃ l ∈ lines (stripRight s), line = ind ++ l := by
  obtain ⟨l, hl, rfl⟩ := List.mem_map.1 h
  split
  · exact Or.inl rfl
  · exact Or.inr ⟨l, hl, rfl⟩

theorem block_ne_nil (h : isBlankText s = false) : block ind s ≠ [] := by
  rw [block, Ne, List.map_eq_nil_iff]
  refine lines_ne_nil fun hempty => not_forall_isBlank h ?_
  rwa [← Chars.stripRight_eq_nil_iff, ← toList_stripRight, String.toList_eq_nil_iff]

end Literal
end AgentFlow
