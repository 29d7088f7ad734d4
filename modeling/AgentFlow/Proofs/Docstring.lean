import AgentFlow.Proofs.Lines
import AgentFlow.Proofs.Scanning

/-!
# Docstrings read back

A docstring of several lines is escaped as a whole, taken apart at its line feeds, and put together
again with every line indented.  A line is escaped without regard to the line behind it, so the
lines can be moved apart: the scan goes through one line after the other, each with its indentation,
and reaches the closing quotes.

## Main definitions

* `Source.EscapedAs`: what stands for a line inside triple quotes.
* `Source.readDocstring`: reads an indented docstring, and gives its lines.

## Main results

* `Source.exists_escaped`: a text is escaped line by line.
* `Source.scanTriple_indented`: the scan goes through indented lines.
* `Source.readDocstring_docstring`: **a description stays inside its docstring and is read back.**
-/

namespace AgentFlow
namespace Source

open Literal Text

variable {c : Char} {cs line body : List Char} {ls bs : List (List Char)}

/-! ### Line by line -/

theorem tripleBody_eq_nil_iff : tripleBody cs = [] ↔ cs = [] := by
  rw [tripleBody.eq_def]
  split <;> simp

/-- Nothing comes in but backslashes. -/
theorem mem_of_mem_tripleBody (h : c ∈ tripleBody cs) : c ∈ cs ∨ c = '\\' := by
  fun_induction tripleBody cs with
  | case1 => exact absurd h List.not_mem_nil
  | case2 cs ih => grind
  | case3 cs ih => grind
  | case4 => grind
  | case5 d cs _ _ _ ih => grind

/-- What stands for a line inside triple quotes: the scan takes it for the line, if a line feed is
behind it, and it has no characters but those of the line and backslashes. -/
structure EscapedAs (line body : List Char) : Prop where
  scan : ∀ rest, scanTriple (body ++ '\n' :: rest) =
    (scanTriple rest).map fun r => (line ++ '\n' :: r.1, r.2)
  subset : ∀ c ∈ body, c ∈ line ∨ c = '\\'
  nil_iff : body = [] ↔ line = []

/-- What stands for a line does not depend on what is behind the line. -/
theorem exists_tripleBody_append (line : List Char) :
    ∃ body, (∀ rest, tripleBody (line ++ '\n' :: rest) = body ++ '\n' :: tripleBody rest) ∧
      (∀ c ∈ body, c ∈ line ∨ c = '\\') ∧ (body = [] ↔ line = []) := by
  fun_induction tripleBody line with
  | case1 => exact ⟨[], fun rest => by simp [tripleBody], by simp, by simp⟩
  | case2 cs ih =>
    obtain ⟨body, hbody, hsub, -⟩ := ih
    exact ⟨'\\' :: '\\' :: body, fun rest => by simp [tripleBody, hbody], by grind, by simp⟩
  | case3 cs ih =>
    obtain ⟨body, hbody, hsub, -⟩ := ih
    exact ⟨'\\' :: '"' :: '\\' :: '"' :: '\\' :: '"' :: body,
      fun rest => by simp [tripleBody, hbody], by grind, by simp⟩
  | case4 => exact ⟨['"'], fun rest => by simp [tripleBody], by simp, by simp⟩
  | case5 c cs hslash htriple hlast ih =>
    obtain ⟨body, hbody, hsub, -⟩ := ih
    refine ⟨c :: body, fun rest => ?_, by grind, by simp⟩
    rw [List.cons_append, tripleBody_cons ⟨hslash, fun hc => ⟨by simp, fun ds hds => ?_⟩⟩, hbody]
    · rfl
    · -- two quotes behind this one would be quotes of the line
      cases cs with
      | nil => exact hlast hc rfl
      | cons d cs =>
        cases cs with
        | nil => simp at hds
        | cons d' es => exact htriple es hc (by simp_all)

theorem escapedAs_tripleBody (line : List Char) : EscapedAs line (tripleBody line) where
  scan rest := by
    rw [scanTriple_tripleBody, scanTriple_cons (by decide) (by simp), Option.map_map]
    rfl
  subset _ := mem_of_mem_tripleBody
  nil_iff := tripleBody_eq_nil_iff

/-- A text is escaped line by line: the escaped text has as many lines, and each of them is read as
the line it comes from. -/
theorem exists_escaped (ls : List (List Char)) (hne : ls ≠ []) :
    ∃ bs, tripleBody (['\n'].intercalate ls) = ['\n'].intercalate bs ∧
      List.Forall₂ EscapedAs ls bs := by
  induction ls with
  | nil => exact absurd rfl hne
  | cons l ls ih =>
    cases ls with
    | nil =>
      refine ⟨[tripleBody l], by simp, .cons (escapedAs_tripleBody l) .nil⟩
    | cons l' ls =>
      obtain ⟨bs, hbs, hescaped⟩ := ih (List.cons_ne_nil _ _)
      -- a quote at the end of the text is escaped but not one before a feed, so the line is escaped
      -- together with the feed behind it
      obtain ⟨body, hbody, hsub, hnil⟩ := exists_tripleBody_append l
      refine ⟨body :: bs, ?_, .cons ⟨fun rest => ?_, hsub, hnil⟩ hescaped⟩
      · cases hescaped with
        | cons _ _ =>
          rw [List.intercalate_cons_cons, List.append_assoc, List.singleton_append, hbody, hbs,
            List.intercalate_cons_cons, List.append_assoc, List.singleton_append]
      · have hline := scanTriple_tripleBody (l ++ ['\n']) rest
        rw [hbody, tripleBody, List.append_assoc, List.singleton_append] at hline
        simpa using hline

/-! ### Indentation -/

/-- A line behind an indentation; an empty line stays empty. -/
def shift (ind line : List Char) : List Char :=
  if line = [] then [] else ind ++ line

theorem toList_indented (ind line : String) :
    (indented ind line).toList = shift ind.toList line.toList := by
  unfold indented shift
  split <;> simp_all

/-- The line without its indentation; what is not indented stays as it is. -/
def unshift (ind line : List Char) : List Char :=
  (behind? ind line).getD line

theorem unshift_shift (ind line : List Char) : unshift ind (shift ind line) = line := by
  unfold shift
  split
  · next h =>
    rw [h, unshift, behind?]
    split <;> simp
  · rw [unshift, behind?_append, Option.getD_some]

theorem scanTriple_spaces (n : ℕ) (rest : List Char) :
    scanTriple (List.replicate n ' ' ++ rest) =
      (scanTriple rest).map fun r => (List.replicate n ' ' ++ r.1, r.2) := by
  induction n with
  | zero => simp
  | succ n ih =>
    rw [List.replicate_succ, List.cons_append, scanTriple_cons (by decide) (by simp), ih,
      Option.map_map]
    rfl

/-- What stands for a line stands for it behind an indentation, too. -/
theorem EscapedAs.scan_shift (h : EscapedAs line body) (n : ℕ) (rest : List Char) :
    scanTriple (shift (List.replicate n ' ') body ++ '\n' :: rest) =
      (scanTriple rest).map fun r => (shift (List.replicate n ' ') line ++ '\n' :: r.1, r.2) := by
  by_cases hline : line = []
  · have hscan := h.scan rest
    rw [h.nil_iff.2 hline, hline] at hscan
    rw [shift, if_pos (h.nil_iff.2 hline), shift, if_pos hline, hscan]
  · rw [shift, if_neg (mt h.nil_iff.1 hline), shift, if_neg hline, List.append_assoc,
      scanTriple_spaces, h.scan, Option.map_map]
    simp [Function.comp_def]

theorem intercalate_cons_append_singleton (x z : List Char) (ys : List (List Char)) :
    ['\n'].intercalate (x :: (ys ++ [z])) = x ++ '\n' :: ['\n'].intercalate (ys ++ [z]) := by
  cases ys <;> simp

/-- The scan goes through indented lines, up to the closing quotes.  What it reads are the lines
with their indentation. -/
theorem scanTriple_indented (n : ℕ) (h : List.Forall₂ EscapedAs ls bs) (rest : List Char) :
    scanTriple (['\n'].intercalate (bs.map (shift (List.replicate n ' ')) ++
        [List.replicate n ' ' ++ tripleMark.toList]) ++ rest) =
      some (['\n'].intercalate (ls.map (shift (List.replicate n ' ')) ++ [List.replicate n ' ']),
        rest) := by
  induction h with
  | nil =>
    rw [List.map_nil, List.nil_append, List.intercalate_singleton, List.append_assoc,
      scanTriple_spaces]
    simp [tripleMark, scanTriple]
  | cons hbody _ ih =>
    rw [List.map_cons, List.cons_append, intercalate_cons_append_singleton, List.map_cons,
      List.cons_append, intercalate_cons_append_singleton, List.append_assoc, List.cons_append,
      hbody.scan_shift, ih]
    rfl

/-! ### Docstrings -/

/-- The lines between an empty first line and an empty last one.  A single line has no frame. -/
def unframe : List (List Char) → Option (List (List Char))
  | [] => none
  | [line] => some [line]
  | first :: lines =>
    if first = [] ∧ lines.getLast? = some [] then some lines.dropLast else none

theorem unframe_framed (ls : List (List Char)) : unframe ([] :: (ls ++ [[]])) = some ls := by
  cases ls with
  | nil => rfl
  | cons l ls =>
    rw [List.cons_append, unframe, ← List.cons_append, if_pos ⟨rfl, List.getLast?_concat⟩,
      List.dropLast_concat]
    simp

/-- Reads an indented docstring: behind the indentation there is one literal in triple quotes, and
nothing behind the literal.  The lines are given without indentation and without their frame. -/
def readDocstring (ind cs : List Char) : Option (List String) :=
  ((behind? ind (withFeeds cs)).bind readTriple).bind fun r =>
    if r.2 = [] then
      (unframe ((r.1.splitOn '\n').map (unshift ind))).map (List.map String.ofList)
    else none

/-- A docstring is read in two steps: the literal behind the indentation first, and then the lines
of its value without the frame. -/
theorem readDocstring_append {literal value : List Char} {lines : List String} (n : ℕ)
    (hreturn : '\r' ∉ literal) (hread : readTriple literal = some (value, []))
    (hlines : unframe ((value.splitOn '\n').map (unshift (spaces n).toList)) =
      some (lines.map String.toList)) :
    readDocstring (spaces n).toList ((spaces n).toList ++ literal) = some lines := by
  have hsame : withFeeds ((spaces n).toList ++ literal) = (spaces n).toList ++ literal :=
    withFeeds_of_not_mem (by simp [spaces, hreturn])
  rw [readDocstring, hsame, behind?_append, Option.bind_some, hread, Option.bind_some, if_pos rfl,
    hlines]
  simp

theorem oneLine_tripleQuoted {s : String} (h : OneLine s) : OneLine (tripleQuoted s) := by
  refine (OneLine.append (by decide) fun c hc => ?_).append (by decide)
  rw [String.toList_ofList] at hc
  rcases mem_of_mem_tripleBody hc with hc | rfl
  · exact h c hc
  · decide

/-- A stripped line is not indented, so taking an indentation away leaves it as it is. -/
theorem unshift_of_mem_strippedLines (n : ℕ) {s line : String} (hline : line ∈ strippedLines s) :
    unshift (spaces n).toList line.toList = line.toList := by
  rw [unshift, behind?]
  split
  · next hprefix =>
    cases n with
    | zero => simp [spaces]
    | succ n =>
      obtain ⟨rest, hrest⟩ := hprefix
      have hblank := not_isBlank_of_mem_strippedLines (c := ' ') hline
        (by rw [← hrest]; simp [spaces, List.replicate_succ])
      exact absurd hblank (by decide)
  · rfl

/-- A description of a single line is read back from between the marks on that line. -/
theorem readDocstring_single (n : ℕ) {s line : String} (hline : line ∈ strippedLines s) :
    readDocstring (spaces n).toList (spaces n ++ tripleQuoted line).toList = some [line] := by
  have hone := oneLine_of_mem_strippedLines hline
  have hreturn : '\r' ∉ (tripleQuoted line).toList :=
    (oneLine_tripleQuoted hone).not_mem (by decide)
  have hread := readTriple_tripleQuoted line []
  rw [List.append_nil, withFeeds_of_not_mem hreturn,
    withFeeds_of_not_mem (hone.not_mem (by decide)), withFeeds] at hread
  have hsplit : (['\n'].intercalate [line.toList]).splitOn '\n' = [line.toList] :=
    List.splitOn_intercalate '\n' (by simpa using hone.not_mem (by decide)) (by simp)
  rw [List.intercalate_singleton] at hsplit
  rw [String.toList_append]
  exact readDocstring_append n hreturn hread (by
    rw [hsplit, List.map_singleton, unshift_of_mem_strippedLines n hline]
    rfl)

/-- The literal of several lines, between its frame. -/
def framed (ind : List Char) (bs : List (List Char)) : List Char :=
  tripleMark.toList ++ ['\n'].intercalate ([] :: (bs.map (shift ind) ++ [ind ++ tripleMark.toList]))

/-- The frame around the escaped lines is read back as a literal, with the indentation in front of
every line that is not empty. -/
theorem readTriple_framed (n : ℕ) (h : List.Forall₂ EscapedAs ls bs) :
    readTriple (framed (spaces n).toList bs) =
      some (['\n'].intercalate ([] :: (ls.map (shift (spaces n).toList) ++ [(spaces n).toList])),
        []) := by
  have hscan := scanTriple_indented n h []
  rw [List.append_nil] at hscan
  rw [framed, readTriple, behind?_append, Option.bind_some, spaces, String.toList_ofList,
    intercalate_cons_append_singleton, List.nil_append, scanTriple_cons (by decide) (by simp),
    hscan, intercalate_cons_append_singleton]
  rfl

theorem not_mem_shift {ind : List Char} (hind : c ∉ ind) (hline : c ∉ line) :
    c ∉ shift ind line := by
  unfold shift
  split
  · exact List.not_mem_nil
  · exact List.not_mem_append hind hline

theorem return_not_mem_framed (n : ℕ) (h : ∀ b ∈ bs, '\r' ∉ b) :
    '\r' ∉ framed (spaces n).toList bs := by
  have hspaces : '\r' ∉ (spaces n).toList := (oneLine_spaces n).not_mem (by decide)
  refine List.not_mem_append (by decide) fun hmem => ?_
  rcases mem_or_mem_of_mem_intercalate hmem with hmem | ⟨x, hx, hmem⟩
  · exact absurd hmem (by decide)
  · simp only [List.mem_cons, List.mem_append, List.mem_map, List.not_mem_nil, or_false] at hx
    rcases hx with rfl | ⟨b, hb, rfl⟩ | rfl
    · exact absurd hmem List.not_mem_nil
    · exact not_mem_shift hspaces (h b hb) hmem
    · exact List.not_mem_append hspaces (by decide) hmem

/-- Without its frame and its indentation, what was read is the lines. -/
theorem unframe_splitOn (n : ℕ) (h : ∀ l ∈ ls, '\n' ∉ l) :
    unframe (((['\n'].intercalate ([] :: (ls.map (shift (spaces n).toList) ++
      [(spaces n).toList]))).splitOn '\n').map (unshift (spaces n).toList)) = some ls := by
  have hspaces : '\n' ∉ (spaces n).toList := (oneLine_spaces n).not_mem (by decide)
  rw [List.splitOn_intercalate '\n' ?_ (List.cons_ne_nil _ _), List.map_cons, List.map_append,
    List.map_map, List.map_singleton]
  · -- the first line is the empty one behind the opening mark, the last is the indentation of the
    -- closing mark
    have hlines : ls.map (unshift (spaces n).toList ∘ shift (spaces n).toList) = ls :=
      List.map_id'' (fun l => unshift_shift _ l) ls
    have hempty : unshift (spaces n).toList [] = [] := unshift_shift _ []
    have hlast : unshift (spaces n).toList (spaces n).toList = [] := by
      have hself := behind?_append (spaces n).toList []
      rw [List.append_nil] at hself
      rw [unshift, hself, Option.getD_some]
    rw [hlines, hempty, hlast, unframe_framed]
  · -- splitting undoes joining because no line has a feed in it
    intro x hx
    simp only [List.mem_cons, List.mem_append, List.mem_map, List.not_mem_nil, or_false] at hx
    rcases hx with rfl | ⟨l, hl, rfl⟩ | rfl
    · simp
    · exact not_mem_shift hspaces (h l hl)
    · exact hspaces

/-- The lines of a docstring that are not a single one are put together to such a literal. -/
theorem toList_docstring (n : ℕ) (hbs : ∀ b ∈ bs, '\n' ∉ b) (hnil : bs ≠ []) :
    (String.intercalate "\n" ((spaces n ++ tripleMark) ::
      (splitFeeds (['\n'].intercalate bs)).map (indented (spaces n)) ++
        [spaces n ++ tripleMark])).toList =
      (spaces n).toList ++ framed (spaces n).toList bs := by
  have hlines : (splitFeeds (['\n'].intercalate bs)).map
      (String.toList ∘ indented (spaces n)) = bs.map (shift (spaces n).toList) := by
    rw [splitFeeds, List.splitOn_intercalate '\n' hbs hnil, List.map_map]
    refine List.map_congr_left fun b _ => ?_
    simp [toList_indented]
  rw [String.toList_intercalate, List.cons_append, List.map_cons, List.map_append, List.map_map,
    hlines, List.map_singleton, String.toList_append, framed, intercalate_cons_append_singleton,
    List.nil_append, ← List.append_assoc]
  exact intercalate_cons_append_singleton _ _ _

/-- Lines that are put together are escaped line by line, and what stands for them has no line
ends. -/
theorem exists_bodies {lines : List String} (hne : lines ≠ []) (hlines : ∀ l ∈ lines, OneLine l) :
    ∃ bs, tripleBody (String.intercalate "\n" lines).toList = ['\n'].intercalate bs ∧ bs ≠ [] ∧
      (∀ b ∈ bs, ∀ c ∈ b, isLineEnd c = false) ∧
      List.Forall₂ EscapedAs (lines.map String.toList) bs := by
  obtain ⟨bs, hbs, hescaped⟩ := exists_escaped (lines.map String.toList) (by simpa using hne)
  refine ⟨bs, ?_, ?_, fun b hb c hc => ?_, hescaped⟩
  · rw [String.toList_intercalate]
    exact hbs
  · rintro rfl
    simp [List.forall₂_nil_right_iff, hne] at hescaped
  · obtain ⟨l, hl, hbody⟩ := exists_left_of_forall₂ hescaped hb
    obtain ⟨s, hs, rfl⟩ := List.mem_map.1 hl
    rcases hbody.subset c hc with hc | rfl
    · exact hlines s hs c hc
    · decide

/-- A description of several lines is read back from the lines between the two marks. -/
theorem readDocstring_framed (n : ℕ) {lines : List String} (hne : lines ≠ [])
    (hlines : ∀ l ∈ lines, OneLine l) :
    readDocstring (spaces n).toList (String.intercalate "\n" ((spaces n ++ tripleMark) ::
      (splitFeeds (tripleBody (String.intercalate "\n" lines).toList)).map (indented (spaces n)) ++
        [spaces n ++ tripleMark])).toList = some lines := by
  obtain ⟨bs, hbs, hnil, hbodies, hescaped⟩ := exists_bodies hne hlines
  rw [hbs, toList_docstring n (fun b hb hfeed => absurd (hbodies b hb _ hfeed) (by decide)) hnil]
  refine readDocstring_append n ?_ (readTriple_framed n hescaped) (unframe_splitOn n ?_)
  · exact return_not_mem_framed n fun b hb hreturn => absurd (hbodies b hb _ hreturn) (by decide)
  · intro l hl
    obtain ⟨s, hs, rfl⟩ := List.mem_map.1 hl
    exact (hlines s hs).not_mem (by decide)

/-- No line ends inside a line of a docstring.  What the generated text shows as a line is therefore
a line of the list. -/
theorem oneLine_of_mem_docstring {ind s line : String} (hind : OneLine ind)
    (h : isBlankText s = false) (hline : line ∈ docstring ind s) : OneLine line := by
  have hmark : OneLine (ind ++ tripleMark) := hind.append (by decide)
  unfold docstring at hline
  -- a text of one line is quoted in place; a longer one stands between two marks
  split at hline
  · next l hlines =>
    rw [List.mem_singleton.1 hline]
    exact hind.append (oneLine_tripleQuoted
      (oneLine_of_mem_strippedLines (hlines ▸ List.mem_cons_self)))
  · obtain ⟨bs, hbs, hnil, hbodies, -⟩ := exists_bodies (strippedLines_ne_nil h)
      fun _ hl => oneLine_of_mem_strippedLines hl
    simp only [List.cons_append, List.mem_cons, List.mem_append, List.mem_map, List.not_mem_nil,
      or_false, splitFeeds, hbs] at hline
    rw [List.splitOn_intercalate '\n' (fun b hb hfeed => absurd (hbodies b hb _ hfeed) (by decide))
      hnil] at hline
    rcases hline with rfl | ⟨_, ⟨b, hb, rfl⟩, rfl⟩ | rfl
    · exact hmark
    · unfold indented
      split
      · decide
      · exact hind.append (oneLine_ofList (hbodies b hb))
    · exact hmark

/-- **A description stays inside its docstring and is read back**, line by line, whatever quotes,
backslashes and line ends it has. -/
theorem readDocstring_docstring (n : ℕ) {s : String} (h : isBlankText s = false) :
    readDocstring (spaces n).toList (String.intercalate "\n" (docstring (spaces n) s)).toList =
      some (strippedLines s) := by
  unfold docstring
  split
  · next line hlines =>
    rw [hlines, String.intercalate_singleton]
    exact readDocstring_single n (hlines ▸ List.mem_cons_self)
  · exact readDocstring_framed n (strippedLines_ne_nil h) fun _ hl =>
      oneLine_of_mem_strippedLines hl

/-- A description with quotes and backslashes at the ends of lines, an empty line, and line ends of
several kinds. -/
def ragged : String := "\n  \"\"\"Quote\"\n\n C:\\\u2028\"\"\r\n\"last\" \n"

theorem readDocstring_docstring_ragged :
    isBlankText ragged = false ∧
      readDocstring (spaces 4).toList
          (String.intercalate "\n" (docstring (spaces 4) ragged)).toList =
        some ["\"\"\"Quote\"", "", "C:\\", "\"\"", "\"last\""] := by
  have hblank : isBlankText ragged = false := by decide +kernel
  have hlines : strippedLines ragged = ["\"\"\"Quote\"", "", "C:\\", "\"\"", "\"last\""] := by
    decide +kernel
  exact ⟨hblank, hlines ▸ readDocstring_docstring 4 hblank⟩

end Source
end AgentFlow
