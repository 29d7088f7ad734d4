import AgentFlow.Proofs.Scanning
import Mathlib.Data.List.Basic

/-!
# Literals on one line

A literal in double quotes is written by the rules of JSON and read by the rules of the language of
programs.  The two agree on what is written: a reader that knows no other escapes, and to which the
end of a line is an error, finds the text and stops behind the closing quote.

## Main definitions

* `Source.escapes`: the escapes of one letter.
* `Source.scanQuoted`, `Source.readQuoted`: reads a literal in double quotes up to its end.

## Main results

* `Source.scanQuoted_escapeChar`: a character is read from the way it is written.
* `Source.readQuoted_string`: **a literal on one line is read back.**
-/

namespace AgentFlow

/-! ### Hexadecimal digits -/

/-- A digit has its value, and does not end a line. -/
theorem hexDigit_spec : ∀ n < 16, hexValue? (hexDigit n) = some n ∧
    hexDigit n ≠ '\n' ∧ hexDigit n ≠ '\r' := by
  decide

/-- Four digits give a number back up to a multiple of 65536, and none of them ends the line. -/
theorem exists_hexDigits_four (n : Nat) : ∃ a b c d, hexDigits 4 n = [a, b, c, d] ∧
    hexQuad? a b c d = some (n % 65536) ∧ ∀ x ∈ [a, b, c, d], x ≠ '\n' ∧ x ≠ '\r' := by
  have hdigit : ∀ k, hexValue? (hexDigit (k % 16)) = some (k % 16) ∧
      hexDigit (k % 16) ≠ '\n' ∧ hexDigit (k % 16) ≠ '\r' :=
    fun k => hexDigit_spec _ (Nat.mod_lt _ (by decide))
  refine ⟨_, _, _, _, rfl, ?_, ?_⟩
  · simp only [hexQuad?, (hdigit _).1, Option.bind_eq_bind, Option.bind_some, Option.pure_def,
      Option.some.injEq]
    omega
  · simp only [List.forall_mem_cons, List.not_mem_nil, IsEmpty.forall_iff, implies_true, and_true]
    exact ⟨(hdigit _).2, (hdigit _).2, (hdigit _).2, (hdigit _).2⟩

namespace Source

open Json

/-! ### Reading -/

/-- The letters that a backslash makes an escape of, each with what the escape stands for. -/
def escapes : List (Char × Char) :=
  [('\\', '\\'), ('"', '"'), ('n', '\n'), ('r', '\r'), ('t', '\t'), ('b', '\x08'), ('f', '\x0c')]

/-- The character with a code point; half of a surrogate pair is none. -/
def charAt? (n : Nat) : Option Char :=
  if n.isValidChar then some (Char.ofNat n) else none

/-- Reads what is inside double quotes, up to the closing one, and gives the text and what is behind
it.  A line may not end before. -/
def scanQuoted : List Char → Option (List Char × List Char)
  | [] => none
  | '"' :: cs => some ([], cs)
  | '\\' :: 'u' :: a :: b :: c :: d :: cs =>
    ((hexQuad? a b c d).bind charAt?).bind fun x => (scanQuoted cs).map fun r => (x :: r.1, r.2)
  | '\\' :: e :: cs => (escapes.lookup e).bind fun x => (scanQuoted cs).map fun r => (x :: r.1, r.2)
  | c :: cs =>
    if c = '\\' ∨ c = '\n' ∨ c = '\r' then none
    else (scanQuoted cs).map fun r => (c :: r.1, r.2)

/-- Reads a literal in double quotes, and gives the text and what is behind the literal. -/
def readQuoted (cs : List Char) : Option (List Char × List Char) :=
  (behind? ['"'] cs).bind scanQuoted

variable {c x : Char}

/-- The escapes of the table are read. -/
theorem scanQuoted_escape {p : Char × Char} (hp : p ∈ escapes) (cs : List Char) :
    scanQuoted ('\\' :: p.1 :: cs) = (scanQuoted cs).map fun r => (p.2 :: r.1, r.2) := by
  have hletter : ∀ p ∈ escapes, p.1 ≠ 'u' ∧ escapes.lookup p.1 = some p.2 := by decide
  rw [scanQuoted, (hletter p hp).2, Option.bind_some]
  exact fun _ _ _ _ _ hu => absurd hu (hletter p hp).1

theorem scanQuoted_plain (hquote : c ≠ '"') (h : ¬ (c = '\\' ∨ c = '\n' ∨ c = '\r'))
    (cs : List Char) : scanQuoted (c :: cs) = (scanQuoted cs).map fun r => (c :: r.1, r.2) := by
  rw [scanQuoted.eq_def]
  split <;> simp_all

/-! ### Writing -/

/-- A character is written as one of the escapes that are read, as a number, or as it is. -/
theorem escapeChar_cases (c : Char) :
    (∃ p ∈ escapes, p.2 = c ∧ escapeChar c = ['\\', p.1]) ∨
      (escapeChar c = '\\' :: 'u' :: hexDigits 4 c.toNat ∧ c.toNat < 0x20) ∨
      (escapeChar c = [c] ∧ c ≠ '"' ∧ ¬ (c = '\\' ∨ c = '\n' ∨ c = '\r')) := by
  have hnamed : ∀ p ∈ escapes, escapeChar p.2 = ['\\', p.1] := by decide
  by_cases hmem : ∃ p ∈ escapes, p.2 = c
  · obtain ⟨p, hp, rfl⟩ := hmem
    exact Or.inl ⟨p, hp, rfl, hnamed p hp⟩
  · have hne : ∀ p ∈ escapes, c ≠ p.2 := fun p hp heq => hmem ⟨p, hp, heq.symm⟩
    simp only [escapes, List.forall_mem_cons] at hne
    obtain ⟨hslash, hquote, hfeed, hreturn, htab, hback, hform, -⟩ := hne
    right
    simp only [escapeChar, if_neg hslash, if_neg hquote, if_neg hfeed, if_neg hreturn, if_neg htab,
      if_neg hback, if_neg hform]
    split
    · next hcontrol => exact Or.inl ⟨rfl, hcontrol⟩
    · exact Or.inr ⟨rfl, hquote, by simp [hslash, hfeed, hreturn]⟩

/-- A character is read from the way it is written, be it written as itself, by a letter or by
digits. -/
theorem scanQuoted_escapeChar (c : Char) (rest : List Char) :
    scanQuoted (escapeChar c ++ rest) = (scanQuoted rest).map fun r => (c :: r.1, r.2) := by
  rcases escapeChar_cases c with ⟨p, hp, rfl, hc⟩ | ⟨hc, hcontrol⟩ | ⟨hc, hquote, hplain⟩
  · rw [hc]
    exact scanQuoted_escape hp rest
  · obtain ⟨a, b, x, d, hdigits, hquad, -⟩ := exists_hexDigits_four c.toNat
    rw [Nat.mod_eq_of_lt (by omega)] at hquad
    have hchar : charAt? c.toNat = some c := by
      rw [charAt?, if_pos (show c.toNat.isValidChar from c.valid), Char.ofNat_toNat]
    rw [hc, hdigits]
    simp only [List.cons_append, List.nil_append]
    rw [scanQuoted, hquad, Option.bind_some, hchar, Option.bind_some]
  · rw [hc]
    exact scanQuoted_plain hquote hplain rest

theorem scanQuoted_flatMap (cs rest : List Char) :
    scanQuoted (cs.flatMap escapeChar ++ '"' :: rest) = some (cs, rest) := by
  induction cs with
  | nil => rfl
  | cons c cs ih =>
    rw [List.flatMap_cons, List.append_assoc, scanQuoted_escapeChar, ih]
    rfl

/-- No line ends inside the way a character is written. -/
theorem ne_of_mem_escapeChar (hx : x ∈ escapeChar c) : x ≠ '\n' ∧ x ≠ '\r' := by
  rcases escapeChar_cases c with ⟨p, hp, rfl, hc⟩ | ⟨hc, -⟩ | ⟨hc, -, hplain⟩
  · have hletter : ∀ p ∈ escapes, p.1 ≠ '\n' ∧ p.1 ≠ '\r' := by decide
    rw [hc, List.mem_pair] at hx
    rcases hx with rfl | rfl
    · decide
    · exact hletter p hp
  · obtain ⟨a, b, y, d, hdigits, -, hdigit⟩ := exists_hexDigits_four c.toNat
    rw [hc, hdigits, List.mem_cons, List.mem_cons] at hx
    rcases hx with rfl | rfl | hx
    · decide
    · decide
    · exact hdigit x hx
  · rw [hc, List.mem_singleton] at hx
    subst hx
    simpa [not_or] using fun h => hplain (Or.inr h)

/-- **A literal on one line is read back.**  No line ends inside it, and whatever follows it, it is
read up to its closing quote and gives the text. -/
theorem readQuoted_string (s : String) :
    (∀ c ∈ (Literal.string s).toList, c ≠ '\n' ∧ c ≠ '\r') ∧
      ∀ rest, readQuoted ((Literal.string s).toList ++ rest) = some (s.toList, rest) := by
  have hliteral : (Literal.string s).toList = ['"'] ++ (s.toList.flatMap escapeChar ++ ['"']) :=
    String.toList_ofList
  refine ⟨fun c hc => ?_, fun rest => ?_⟩
  · rw [hliteral, List.mem_append, List.mem_append, List.mem_flatMap, List.mem_singleton] at hc
    rcases hc with rfl | ⟨x, -, hx⟩ | rfl
    · decide
    · exact ne_of_mem_escapeChar hx
    · decide
  · rw [hliteral, readQuoted, List.append_assoc, behind?_append, Option.bind_some,
      List.append_assoc]
    exact scanQuoted_flatMap _ _

end Source
end AgentFlow
