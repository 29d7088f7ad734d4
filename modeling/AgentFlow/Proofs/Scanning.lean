import AgentFlow.Program.Literal

/-!
# Literals read back

A text in triple double quotes is read back as the text.  The reader sees a line feed for every line
end, takes a backslash together with the character behind it, and stops at the first three quotes in
a row.

## Main definitions

* `Source.withFeeds`, `Source.seen`: a text with its line ends as a reader of source text sees them.
* `Source.scanTriple`, `Source.readTriple`: reads a literal in triple quotes up to its end.
* `Source.Piece`, `Source.piecesTriple`: takes such a literal apart, whatever it escapes.

## Main results

* `Source.scanTriple_tripleBody`: what was written inside quotes is read.
* `Source.readTriple_tripleQuoted`: **a text in triple quotes is read back.**
* `Source.piecesTriple_tripleQuoted`: **a text in triple quotes is closed and faithful.**
-/

namespace AgentFlow
namespace Source

open Literal

/-! ### Line ends -/

/-- The text with a line feed for every line end: a carriage return counts as one, together with the
line feed behind it if there is one. -/
def withFeeds : List Char → List Char
  | [] => []
  | c :: cs =>
    if c = '\r' then if cs.head? = some '\n' then withFeeds cs else '\n' :: withFeeds cs
    else c :: withFeeds cs

/-- The text as a reader of source text sees it, with a line feed for every line end. -/
def seen (s : String) : String := String.ofList (withFeeds s.toList)

variable {c d : Char} {cs ds rest : List Char}

theorem withFeeds_cons_of_ne (h : c ≠ '\r') (cs : List Char) :
    withFeeds (c :: cs) = c :: withFeeds cs := by
  rw [withFeeds, if_neg h]

/-- A piece without carriage returns is seen as it is. -/
theorem withFeeds_append_of_not_mem (h : '\r' ∉ cs) (ds : List Char) :
    withFeeds (cs ++ ds) = cs ++ withFeeds ds := by
  induction cs with
  | nil => rfl
  | cons c cs ih =>
    rw [List.mem_cons, not_or] at h
    rw [List.cons_append, withFeeds_cons_of_ne (Ne.symm h.1), ih h.2, List.cons_append]

theorem withFeeds_of_not_mem (h : '\r' ∉ cs) : withFeeds cs = cs := by
  have happend := withFeeds_append_of_not_mem h []
  rwa [List.append_nil, withFeeds, List.append_nil] at happend

/-- Line ends are seen piece by piece, unless a piece begins with a line feed. -/
theorem withFeeds_append (h : ds.head? ≠ some '\n') :
    withFeeds (cs ++ ds) = withFeeds cs ++ withFeeds ds := by
  induction cs with
  | nil => rfl
  | cons c cs ih =>
    have hhead : (cs ++ ds).head? = some '\n' ↔ cs.head? = some '\n' := by
      cases cs with
      | nil => simp [h]
      | cons x xs => simp
    rw [List.cons_append, withFeeds, withFeeds, ih]
    simp only [hhead]
    split
    · split <;> rfl
    · rfl

/-- What is no line end is seen where it is written. -/
theorem head?_withFeeds (h : c ≠ '\r') (hfeed : c ≠ '\n') :
    (withFeeds cs).head? = some c ↔ cs.head? = some c := by
  induction cs with
  | nil => rfl
  | cons d cs ih =>
    rw [withFeeds]
    split
    · next hd =>
      split
      · next hcs =>
        rw [ih, hcs, hd]
        simp [Ne.symm h, Ne.symm hfeed]
      · simp [hd, Ne.symm h, Ne.symm hfeed]
    · simp

theorem withFeeds_eq_nil_iff : withFeeds cs = [] ↔ cs = [] := by
  induction cs with
  | nil => simp [withFeeds]
  | cons c cs ih =>
    rw [withFeeds]
    split
    · split
      · next hcs =>
        rw [ih]
        cases cs <;> simp_all
      · simp
    · simp

/-! ### The inside of a literal -/

/-- Reads what is inside triple quotes, up to the closing ones, and gives the text and what is
behind them.  Only backslashes and quotes may be escaped. -/
def scanTriple : List Char → Option (List Char × List Char)
  | [] => none
  | '\\' :: '\\' :: cs => (scanTriple cs).map fun r => ('\\' :: r.1, r.2)
  | '\\' :: '"' :: cs => (scanTriple cs).map fun r => ('"' :: r.1, r.2)
  | '\\' :: _ => none
  | '"' :: '"' :: '"' :: cs => some ([], cs)
  | c :: cs => (scanTriple cs).map fun r => (c :: r.1, r.2)

/-- The character can be written as it is in front of the text: it is no backslash, and no quote
that is the last character or the first of three. -/
def Verbatim (c : Char) (cs : List Char) : Prop :=
  c ≠ '\\' ∧ (c = '"' → cs ≠ [] ∧ ∀ ds, cs ≠ '"' :: '"' :: ds)

theorem tripleBody_cons (h : Verbatim c cs) : tripleBody (c :: cs) = c :: tripleBody cs := by
  obtain ⟨hslash, hquote⟩ := h
  rw [tripleBody.eq_def]
  split <;> simp_all

theorem scanTriple_cons (hslash : c ≠ '\\') (hquote : c = '"' → ∀ ds, cs ≠ '"' :: '"' :: ds) :
    scanTriple (c :: cs) = (scanTriple cs).map fun r => (c :: r.1, r.2) := by
  rw [scanTriple.eq_def]
  split <;> simp_all

/-- What is no quote is written first, if it is first. -/
theorem exists_tripleBody_cons (h : c ≠ '"') (cs : List Char) :
    ∃ ds, tripleBody (c :: cs) = c :: ds := by
  by_cases hslash : c = '\\'
  · subst hslash
    exact ⟨_, by rw [tripleBody]⟩
  · exact ⟨_, tripleBody_cons ⟨hslash, fun hc => absurd hc h⟩⟩

/-- Escaping leaves a character in front alone unless it is a quote or a backslash. -/
theorem head?_tripleBody (h : c ≠ '"') (hslash : c ≠ '\\') :
    (tripleBody cs).head? = some c ↔ cs.head? = some c := by
  cases cs with
  | nil => simp [tripleBody]
  | cons d cs =>
    by_cases hd : d = '"'
    · -- a quote is written as it is or behind a backslash
      subst hd
      rw [tripleBody.eq_def]
      split <;> grind
    · obtain ⟨ds, hds⟩ := exists_tripleBody_cons hd cs
      rw [hds]
      simp

/-- Behind a quote that is written as it is there are never two more. -/
theorem tripleBody_append_ne (hne : cs ≠ []) (hquotes : ∀ ds, cs ≠ '"' :: '"' :: ds)
    (rest ds : List Char) : tripleBody cs ++ rest ≠ '"' :: '"' :: ds := by
  cases cs with
  | nil => exact absurd rfl hne
  | cons d cs =>
    by_cases hd : d = '"'
    · subst hd
      cases cs with
      | nil => simp [tripleBody]
      | cons e es =>
        have he : e ≠ '"' := fun heq => hquotes es (by rw [heq])
        obtain ⟨xs, hxs⟩ := exists_tripleBody_cons he es
        have hverbatim : Verbatim '"' (e :: es) :=
          ⟨by decide, fun _ => ⟨by simp, fun ds => by simp [he]⟩⟩
        rw [tripleBody_cons hverbatim, hxs]
        simp [he]
    · obtain ⟨xs, hxs⟩ := exists_tripleBody_cons hd cs
      rw [hxs]
      simp [hd]

/-- No line inside a literal begins with three quotes, as these would end it. -/
theorem not_infix_tripleBody (cs : List Char) :
    ¬ ['\n', '"', '"', '"'] <:+: '\n' :: tripleBody cs := by
  rw [List.infix_cons_iff, List.cons_prefix_cons, not_or, not_and]
  fun_induction tripleBody cs with
  | case1 => simp
  | case2 cs ih => simpa [List.infix_cons_iff] using ih.2
  | case3 cs ih => simpa [List.infix_cons_iff] using ih.2
  | case4 => simp [List.infix_cons_iff]
  | case5 c cs hslash htriple hlast ih =>
    refine ⟨fun _ => ?_, ?_⟩
    · rw [List.cons_prefix_cons]
      rintro ⟨rfl, ds, hds⟩
      exact tripleBody_append_ne (hlast rfl) (fun ds => htriple ds rfl) [] ds (by simp [← hds])
    · rw [List.infix_cons_iff, List.cons_prefix_cons, not_or]
      exact ⟨fun h => ih.1 rfl h.2, ih.2⟩

/-- What was written inside quotes is read, and the scan goes on behind it. -/
theorem scanTriple_tripleBody (cs rest : List Char) :
    scanTriple (tripleBody cs ++ rest) = (scanTriple rest).map fun r => (cs ++ r.1, r.2) := by
  -- one case for each way of writing the next character
  fun_induction tripleBody cs with
  | case1 => simp
  | case2 cs ih => simp [scanTriple, ih, Function.comp_def]
  | case3 cs ih => simp [scanTriple, ih, Function.comp_def]
  | case4 => simp [scanTriple]
  | case5 c cs hslash htriple hlast ih =>
    rw [List.cons_append, scanTriple_cons hslash, ih]
    · simp [Function.comp_def]
    · intro hc
      exact tripleBody_append_ne (hlast hc) (fun ds => htriple ds hc) _

/-- Line ends are the same inside a literal: whether they are unified before or after escaping makes
no difference. -/
theorem withFeeds_tripleBody (cs : List Char) :
    withFeeds (tripleBody cs) = tripleBody (withFeeds cs) := by
  fun_induction tripleBody cs with
  | case1 => rfl
  | case2 cs ih => simp [withFeeds, tripleBody, ih]
  | case3 cs ih => simp [withFeeds, tripleBody, ih]
  | case4 => simp [withFeeds, tripleBody]
  | case5 c cs hslash htriple hlast ih =>
    by_cases hc : c = '\r'
    · subst hc
      have hhead : (tripleBody cs).head? = some '\n' ↔ cs.head? = some '\n' :=
        head?_tripleBody (by decide) (by decide)
      rw [withFeeds, if_pos rfl, withFeeds, if_pos rfl, ih]
      simp only [hhead]
      split
      · rfl
      · rw [tripleBody_cons ⟨by decide, by simp⟩]
    · rw [withFeeds_cons_of_ne hc, withFeeds_cons_of_ne hc, ih, tripleBody_cons]
      refine ⟨hslash, fun hquote => ⟨fun hnil => ?_, fun ds hds => ?_⟩⟩
      · exact hlast hquote (withFeeds_eq_nil_iff.1 hnil)
      · -- two quotes are seen only where two quotes are written
        have hfirst : cs.head? = some '"' := by
          rw [← head?_withFeeds (by decide) (by decide), hds]
          rfl
        obtain ⟨es, rfl⟩ : ∃ es, cs = '"' :: es := by
          cases cs <;> simp_all
        rw [withFeeds_cons_of_ne (by decide), List.cons.injEq] at hds
        have hsecond : es.head? = some '"' := by
          rw [← head?_withFeeds (by decide) (by decide), hds.2]
          rfl
        obtain ⟨xs, rfl⟩ : ∃ xs, es = '"' :: xs := by
          cases es <;> simp_all
        exact htriple xs hquote rfl

/-! ### Whole literals -/

/-- What is behind the beginning of a text, if the text begins so. -/
def behind? (start cs : List Char) : Option (List Char) :=
  if start <+: cs then some (cs.drop start.length) else none

@[simp] theorem behind?_append (start cs : List Char) : behind? start (start ++ cs) = some cs := by
  rw [behind?, if_pos (List.prefix_append _ _), List.drop_left]

/-- Reads a literal in triple quotes, and gives the text and what is behind the literal. -/
def readTriple (cs : List Char) : Option (List Char × List Char) :=
  (behind? tripleMark.toList cs).bind scanTriple

/-- **A text in triple quotes is read back**, with a line feed for every line end, and the literal
ends where its quotes are closed. -/
theorem readTriple_tripleQuoted (s : String) (rest : List Char) :
    readTriple (withFeeds ((tripleQuoted s).toList ++ rest)) =
      some (withFeeds s.toList, withFeeds rest) := by
  have hmark : ∀ rest, withFeeds (tripleMark.toList ++ rest) =
      tripleMark.toList ++ withFeeds rest :=
    withFeeds_append_of_not_mem (by decide)
  have hseen : withFeeds ((tripleQuoted s).toList ++ rest) =
      tripleMark.toList ++
        (tripleBody (withFeeds s.toList) ++ tripleMark.toList ++ withFeeds rest) := by
    rw [tripleQuoted, String.toList_append, String.toList_append, String.toList_ofList,
      List.append_assoc, List.append_assoc, hmark, withFeeds_append (by simp [tripleMark]), hmark,
      withFeeds_tripleBody, List.append_assoc]
  rw [hseen, readTriple, behind?_append, Option.bind_some, List.append_assoc,
    scanTriple_tripleBody]
  simp [tripleMark, scanTriple]

/-! ### Pieces -/

/-- A piece of what is inside quotes: a character as it is, or one behind a backslash. -/
inductive Piece where
  | plain (c : Char)
  | escape (c : Char)
  deriving DecidableEq, Repr

/-- What a piece stands for, if backslashes and quotes are all that is escaped. -/
def Piece.char : Piece → Char
  | .plain c => c
  | .escape c => c

/-- Takes what is inside triple quotes apart, up to the first three quotes in a row of which none is
escaped, and gives the pieces and what is behind the quotes.  A backslash escapes any character. -/
def splitTriple : List Char → Option (List Piece × List Char)
  | [] => none
  | '\\' :: c :: cs => (splitTriple cs).map fun r => (.escape c :: r.1, r.2)
  | ['\\'] => none
  | '"' :: '"' :: '"' :: cs => some ([], cs)
  | c :: cs => (splitTriple cs).map fun r => (.plain c :: r.1, r.2)

/-- The pieces of a literal in triple quotes, and what is behind the literal. -/
def piecesTriple (cs : List Char) : Option (List Piece × List Char) :=
  (behind? tripleMark.toList cs).bind splitTriple

/-- What is scanned without complaint has no pieces but those that can be read. -/
theorem exists_split_of_scanTriple {r : List Char × List Char} (h : scanTriple cs = some r) :
    ∃ pieces, splitTriple cs = some (pieces, r.2) ∧
      (∀ c, .escape c ∈ pieces → c = '\\' ∨ c = '"') ∧ pieces.map Piece.char = r.1 := by
  -- along the scanner, which fails at all escapes but those of a backslash and a quote
  fun_induction scanTriple cs generalizing r with
  | case1 => simp at h
  | case2 cs ih =>
    obtain ⟨r', hr', rfl⟩ := Option.map_eq_some_iff.1 h
    obtain ⟨pieces, hsplit, hescape, hchars⟩ := ih hr'
    exact ⟨.escape '\\' :: pieces, by simp [splitTriple, hsplit], by simpa using hescape,
      by simp [Piece.char, hchars]⟩
  | case3 cs ih =>
    obtain ⟨r', hr', rfl⟩ := Option.map_eq_some_iff.1 h
    obtain ⟨pieces, hsplit, hescape, hchars⟩ := ih hr'
    exact ⟨.escape '"' :: pieces, by simp [splitTriple, hsplit], by simpa using hescape,
      by simp [Piece.char, hchars]⟩
  | case4 => simp at h
  | case5 cs =>
    obtain rfl := Option.some.inj h
    exact ⟨[], by simp [splitTriple], by simp, rfl⟩
  | case6 c cs hslash hquote hother htriple ih =>
    obtain ⟨r', hr', rfl⟩ := Option.map_eq_some_iff.1 h
    obtain ⟨pieces, hsplit, hescape, hchars⟩ := ih hr'
    refine ⟨.plain c :: pieces, ?_, by simpa using hescape, by simp [Piece.char, hchars]⟩
    rw [splitTriple.eq_def]
    split <;> simp_all

/-- **A text in triple quotes is closed and faithful.**  The literal ends at its last character,
whatever follows it, it escapes nothing but backslashes and quotes, and its pieces spell the text
with a line feed for every line end, so the text itself if it has no carriage returns. -/
theorem piecesTriple_tripleQuoted (s : String) (rest : List Char) :
    ∃ pieces, piecesTriple (withFeeds ((tripleQuoted s).toList ++ rest)) =
        some (pieces, withFeeds rest) ∧
      (∀ c, .escape c ∈ pieces → c = '\\' ∨ c = '"') ∧
      pieces.map Piece.char = withFeeds s.toList ∧
      ('\r' ∉ s.toList → pieces.map Piece.char = s.toList) := by
  obtain ⟨inside, hinside, hscan⟩ := Option.bind_eq_some_iff.1 (readTriple_tripleQuoted s rest)
  obtain ⟨pieces, hsplit, hescape, hchars⟩ := exists_split_of_scanTriple hscan
  refine ⟨pieces, ?_, hescape, hchars, fun hreturn => ?_⟩
  · rw [piecesTriple, hinside]
    exact hsplit
  · rw [hchars, withFeeds_of_not_mem hreturn]

end Source
end AgentFlow
