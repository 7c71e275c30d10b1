import LibraryCatalog.Json.Reader
import LibraryCatalog.Proofs.Text.Numeral

/-!
# `LibraryCatalog.Proofs.Json.Grammar` — which texts are written for which tree

One tree has many texts: blanks may stand between any two tokens, and a character of a string may be escaped or not.
The grammar says which texts these are without saying how to read them.

## Contents
- **Tokens.** `Blanks`, `Literal` for numbers, `StringText` for what stands between quotes.
- **Values.** `Written`, with `WrittenElements` and `WrittenMembers` for what stands between brackets.
- **First characters.** `exists_cons` for numbers, values and what stands between brackets.
-/

namespace LibraryCatalog.Json

open Text

/-! ## Tokens -/

/-- A text of blanks. -/
def Blanks (ws : List Char) : Prop := ∀ c ∈ ws, Reader.isBlank c = true

theorem blanks_nil : Blanks [] := nofun

/-- Digits without a leading zero, or a zero alone. -/
structure IsWhole (ds : List Char) : Prop where
  isDigits : IsDigits ds
  no_leading_zero : ds.length = 1 ∨ ds.head? ≠ some '0'

/-- A fraction with its point, or nothing. -/
inductive IsFraction : List Char → Prop where
  | none : IsFraction []
  | some {ds : List Char} : IsDigits ds → IsFraction ('.' :: ds)

/-- An exponent with its letter, or nothing. -/
inductive IsExponent : List Char → Prop where
  | none : IsExponent []
  | unsigned {e : Char} {ds : List Char} : e = 'e' ∨ e = 'E' → IsDigits ds → IsExponent (e :: ds)
  | signed {e sign : Char} {ds : List Char} : e = 'e' ∨ e = 'E' → sign = '+' ∨ sign = '-' → IsDigits ds →
      IsExponent (e :: sign :: ds)

/-- The text of a number. -/
inductive Literal : List Char → Prop where
  | positive {ds fs es : List Char} : IsWhole ds → IsFraction fs → IsExponent es → Literal (ds ++ fs ++ es)
  | negative {ds fs es : List Char} : IsWhole ds → IsFraction fs → IsExponent es →
      Literal ('-' :: (ds ++ fs ++ es))

/-- The text of one piece of a string. -/
inductive PieceText : Piece → List Char → Prop where
  /-- A character that stands for itself. -/
  | plain {c : Char} : c ≠ '"' → c ≠ '\\' → ¬c < ' ' → PieceText (.char c) [c]
  | escape {c e : Char} : escaped? e = some c → PieceText (.char c) ['\\', e]
  | code {a b c d : Char} {n : Nat} : hex? [a, b, c, d] = some n →
      PieceText (.ofCode n) ['\\', 'u', a, b, c, d]

/-- The text of the pieces of a string, between its quotes. -/
inductive StringText : List Piece → List Char → Prop where
  | nil : StringText [] []
  | cons {p : Piece} {ps : List Piece} {cs ds : List Char} : PieceText p cs → StringText ps ds →
      StringText (p :: ps) (cs ++ ds)

/-! ## Values -/

mutual

/-- The texts of a value, without blanks around them. -/
inductive Written : Json → List Char → Prop where
  | null : Written .null ['n', 'u', 'l', 'l']
  | yes : Written (.bool true) ['t', 'r', 'u', 'e']
  | no : Written (.bool false) ['f', 'a', 'l', 's', 'e']
  | number {literal : List Char} : Literal literal → Written (.number literal) literal
  | string {ps : List Piece} {cs : List Char} : StringText ps cs → Written (.string ps) ('"' :: (cs ++ ['"']))
  | emptyArray {ws : List Char} : Blanks ws → Written (.array []) ('[' :: (ws ++ [']']))
  | array {js : List Json} {ws cs : List Char} : Blanks ws → WrittenElements js cs →
      Written (.array js) ('[' :: (ws ++ cs ++ [']']))
  | emptyObject {ws : List Char} : Blanks ws → Written (.object []) ('{' :: (ws ++ ['}']))
  | object {ms : List (List Piece × Json)} {ws cs : List Char} : Blanks ws → WrittenMembers ms cs →
      Written (.object ms) ('{' :: (ws ++ cs ++ ['}']))

/-- The texts of one or more elements, with commas between them and blanks after each. -/
inductive WrittenElements : List Json → List Char → Prop where
  | last {j : Json} {cs ws : List Char} : Written j cs → Blanks ws → WrittenElements [j] (cs ++ ws)
  | cons {j : Json} {js : List Json} {cs ws ws' ds : List Char} : Written j cs → Blanks ws → Blanks ws' →
      WrittenElements js ds → WrittenElements (j :: js) (cs ++ ws ++ ',' :: (ws' ++ ds))

/-- The texts of a key and its value, with a colon and blanks between them. -/
inductive WrittenMember : List Piece × Json → List Char → Prop where
  | intro {key : List Piece} {j : Json} {ks ws ws' cs : List Char} : StringText key ks → Blanks ws → Blanks ws' →
      Written j cs → WrittenMember (key, j) ('"' :: (ks ++ '"' :: (ws ++ ':' :: (ws' ++ cs))))

/-- The texts of one or more members, with commas between them and blanks after each. -/
inductive WrittenMembers : List (List Piece × Json) → List Char → Prop where
  | last {m : List Piece × Json} {cs ws : List Char} : WrittenMember m cs → Blanks ws →
      WrittenMembers [m] (cs ++ ws)
  | cons {m : List Piece × Json} {ms : List (List Piece × Json)} {cs ws ws' ds : List Char} :
      WrittenMember m cs → Blanks ws → Blanks ws' → WrittenMembers ms ds →
      WrittenMembers (m :: ms) (cs ++ ws ++ ',' :: (ws' ++ ds))

end

/-! ## First characters -/

section

variable {cs : List Char}

/-- A number starts with its sign or with a digit. -/
theorem Literal.exists_cons (h : Literal cs) : ∃ c t, cs = c :: t ∧ (c = '-' ∨ c.isDigit = true) := by
  cases h with
  | @positive ds fs es hds _ _ =>
    obtain ⟨d, ds', rfl⟩ := List.exists_cons_of_ne_nil hds.isDigits.1
    exact ⟨d, ds' ++ fs ++ es, rfl, .inr (hds.isDigits.2 d List.mem_cons_self)⟩
  | negative _ _ _ => exact ⟨'-', _, rfl, .inl rfl⟩

/-- The first character of a value is no blank, and it closes nothing. -/
theorem Written.exists_cons {j : Json} (h : Written j cs) :
    ∃ c t, cs = c :: t ∧ Reader.isBlank c = false ∧ c ≠ ']' := by
  cases h with
  | number h =>
    obtain ⟨c, t, rfl, hc⟩ := h.exists_cons
    refine ⟨c, t, rfl, ?_, ?_⟩
    · refine Bool.eq_false_iff.mpr fun hblank => ?_
      simp only [Reader.isBlank, Bool.or_eq_true, beq_iff_eq] at hblank
      rcases hblank with ((rfl | rfl) | rfl) | rfl <;> exact absurd hc (by decide)
    · rintro rfl
      exact absurd hc (by decide)
  | _ => exact ⟨_, _, rfl, by decide, by decide⟩

theorem WrittenElements.exists_cons {js : List Json} (h : WrittenElements js cs) :
    ∃ c t, cs = c :: t ∧ Reader.isBlank c = false ∧ c ≠ ']' := by
  cases h with
  | last h =>
    obtain ⟨c, t, rfl, hc⟩ := h.exists_cons
    exact ⟨c, t ++ _, rfl, hc⟩
  | cons h _ _ _ =>
    obtain ⟨c, t, rfl, hc⟩ := h.exists_cons
    exact ⟨c, t ++ _ ++ _, rfl, hc⟩

theorem WrittenMembers.exists_cons {ms : List (List Piece × Json)} (h : WrittenMembers ms cs) :
    ∃ t, cs = '"' :: t := by
  cases h with
  | last h => cases h with | intro => exact ⟨_, rfl⟩
  | cons h _ _ _ => cases h with | intro => exact ⟨_, rfl⟩

end

end LibraryCatalog.Json
