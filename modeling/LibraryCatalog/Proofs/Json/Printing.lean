import Mathlib.Tactic.SplitIfs
import LibraryCatalog.Json.Printer
import LibraryCatalog.Proofs.Json.Reading

/-!
# `LibraryCatalog.Proofs.Json.Printing` — a printed tree is read back

Printing a tree gives one of its texts, in both layouts. Not every tree has a text at all: the literal of a number
must be one, and a lone half of a surrogate pair must be such a half.

## Contents
- **Sound trees.** `Json.Sound`; trees of texts and integers are sound.
- **Tokens.** `pieceText_escape`, `literal_showInt`.
- **Documents.** `written_renderAt`, by induction on the tree; `read?_render`.
-/

namespace LibraryCatalog

open Text

namespace Json

/-! ## Sound trees -/

/-- A piece of a string is a character, or a number that is half of a surrogate pair. -/
inductive Piece.Sound : Piece → Prop where
  | char (c : Char) : Sound (.char c)
  | surrogate {n : Nat} : isHigh n = true ∨ isLow n = true → Sound (.surrogate n)

/-- A tree has literals for its numbers, and sound pieces in its strings and keys. -/
inductive Sound : Json → Prop where
  | null : Sound .null
  | bool (b : Bool) : Sound (.bool b)
  | number {literal : List Char} : Literal literal → Sound (.number literal)
  | string {ps : List Piece} : (∀ p ∈ ps, p.Sound) → Sound (.string ps)
  | array {js : List Json} : (∀ j ∈ js, Sound j) → Sound (.array js)
  | object {ms : List (List Piece × Json)} : (∀ m ∈ ms, ∀ p ∈ m.1, p.Sound) → (∀ m ∈ ms, Sound m.2) →
      Sound (.object ms)

theorem sound_pieces (cs : List Char) : ∀ p ∈ cs.map Piece.char, p.Sound := by
  intro p hp
  obtain ⟨c, -, rfl⟩ := List.mem_map.mp hp
  exact .char c

theorem sound_ofText (s : String) : (ofText s).Sound := .string (sound_pieces s.toList)

theorem sound_members {ms : List (String × Json)} (h : ∀ m ∈ ms, m.2.Sound) :
    Sound (.object (ms.map fun m => member m.1 m.2)) := by
  refine .object (fun m hm => ?_) (fun m hm => ?_)
  · obtain ⟨m, -, rfl⟩ := List.mem_map.mp hm
    exact sound_pieces m.1.toList
  · obtain ⟨m, hmem, rfl⟩ := List.mem_map.mp hm
    exact h m hmem

/-! ## Tokens -/

theorem isWhole_showNat (n : Nat) : IsWhole (showNat n) where
  isDigits := isDigits_showNat n
  no_leading_zero := by
    cases n with
    | zero => exact .inl rfl
    | succ n => exact .inr (head?_showNat_ne n.succ_pos)

theorem literal_showInt (n : Int) : Literal (showInt n) := by
  have hplain : ∀ ds : List Char, ds ++ [] ++ [] = ds := by simp
  cases n with
  | ofNat n =>
    rw [showInt, ← hplain (showNat n)]
    exact .positive (isWhole_showNat n) .none .none
  | negSucc n =>
    rw [showInt, ← hplain (showNat (n + 1))]
    exact .negative (isWhole_showNat (n + 1)) .none .none

theorem sound_ofInt (n : Int) : (ofInt n).Sound := .number (literal_showInt n)

/-- The escape of a 16-bit number. -/
theorem pieceText_hex4 {n : Nat} (h : n < 65536) : PieceText (.ofCode n) ('\\' :: 'u' :: hex4 n) :=
  .code (hex?_hex4 h)

/-- A code below the blank is no half of a surrogate pair. -/
theorem ofCode_of_control {c : Char} (hc : c < ' ') : Piece.ofCode c.toNat = .char c := by
  have hlt : c.toNat < 32 := hc
  have hhigh : isHigh c.toNat = false := by simp [isHigh]; omega
  have hlow : isLow c.toNat = false := by simp [isLow]; omega
  rw [Piece.ofCode, hhigh, hlow, Char.ofNat_toNat]
  rfl

/-- **A sound piece is written as one of its texts.** -/
theorem pieceText_escape {p : Piece} (h : p.Sound) : PieceText p p.escape := by
  cases h with
  | char c =>
    simp only [Piece.escape]
    split_ifs with hquote hbackslash hb ht hn hf hr hcontrol
    · exact .escape (by rw [hquote]; rfl)
    · exact .escape (by rw [hbackslash]; rfl)
    · exact .escape (by rw [hb]; rfl)
    · exact .escape (by rw [ht]; rfl)
    · exact .escape (by rw [hn]; rfl)
    · exact .escape (by rw [hf]; rfl)
    · exact .escape (by rw [hr]; rfl)
    · rw [← ofCode_of_control hcontrol]
      have hlt : c.toNat < 32 := hcontrol
      exact pieceText_hex4 (by omega)
    · exact .plain hquote hbackslash hcontrol
  | @surrogate n hn =>
    have hcode : Piece.ofCode n = .surrogate n := if_pos (Bool.or_eq_true_iff.mpr hn)
    have hlt : n < 65536 := by
      simp only [isHigh, isLow, Bool.and_eq_true, decide_eq_true_eq] at hn
      omega
    have htext := pieceText_hex4 hlt
    rw [hcode] at htext
    exact htext

theorem stringText_escape {ps : List Piece} (h : ∀ p ∈ ps, p.Sound) : StringText ps (ps.flatMap Piece.escape) := by
  induction ps with
  | nil => exact .nil
  | cons p ps ih =>
    rw [List.flatMap_cons]
    exact .cons (pieceText_escape (h p List.mem_cons_self)) (ih fun q hq => h q (List.mem_cons_of_mem p hq))

/-! ## Documents -/

section

variable (layout : Layout) (depth : Nat)

theorem blanks_newline : Blanks (layout.newline depth) := by
  cases layout with
  | compact => exact blanks_nil
  | pretty =>
    intro c hc
    rcases List.mem_cons.mp hc with rfl | hc
    · rfl
    · rw [(List.mem_replicate.mp hc).2]
      rfl

theorem exists_colon : ∃ ws, layout.colon = ':' :: ws ∧ Blanks ws := by
  cases layout with
  | compact => exact ⟨[], rfl, blanks_nil⟩
  | pretty => exact ⟨[' '], rfl, by simp [Blanks, Reader.isBlank]⟩

/-- The elements of an array are written if each of them is. -/
theorem writtenElements_render {j : Json} {js : List Json}
    (h : ∀ i ∈ j :: js, Written i (renderAt layout depth i)) {ws : List Char} (hws : Blanks ws) :
    WrittenElements (j :: js) (renderAt layout depth j ++ renderElements layout depth js ++ ws) := by
  induction js generalizing j with
  | nil =>
    rw [renderElements, List.append_nil]
    exact .last (h j List.mem_cons_self) hws
  | cons j' js ih =>
    have hrest := ih fun i hi => h i (List.mem_cons_of_mem j hi)
    have hall := WrittenElements.cons (h j List.mem_cons_self) blanks_nil (blanks_newline layout depth) hrest
    simpa only [renderElements, List.append_nil, List.append_assoc, List.cons_append] using hall

/-- A member is written if its value is. -/
theorem writtenMember_render {key : List Piece} {j : Json} (hkey : ∀ p ∈ key, p.Sound)
    (hj : Written j (renderAt layout depth j)) :
    WrittenMember (key, j) (quote key ++ layout.colon ++ renderAt layout depth j) := by
  obtain ⟨ws, hcolon, hws⟩ := exists_colon layout
  have hmember := WrittenMember.intro (stringText_escape hkey) blanks_nil hws hj
  simpa only [quote, hcolon, List.nil_append, List.append_assoc, List.cons_append] using hmember

/-- The members of an object are written if each of their values is. -/
theorem writtenMembers_render {m : List Piece × Json} {ms : List (List Piece × Json)}
    (hkeys : ∀ i ∈ m :: ms, ∀ p ∈ i.1, p.Sound) (h : ∀ i ∈ m :: ms, Written i.2 (renderAt layout depth i.2))
    {ws : List Char} (hws : Blanks ws) :
    WrittenMembers (m :: ms)
      (quote m.1 ++ layout.colon ++ renderAt layout depth m.2 ++ renderMembers layout depth ms ++ ws) := by
  have hfirst := writtenMember_render layout depth (hkeys m List.mem_cons_self) (h m List.mem_cons_self)
  induction ms generalizing m with
  | nil =>
    rw [renderMembers, List.append_nil]
    exact .last hfirst hws
  | cons m' ms ih =>
    have hsecond := writtenMember_render layout depth (hkeys m' (by simp)) (h m' (by simp))
    have hrest := ih (fun i hi => hkeys i (List.mem_cons_of_mem m hi)) (fun i hi => h i (List.mem_cons_of_mem m hi))
      hsecond
    have hall := WrittenMembers.cons hfirst blanks_nil (blanks_newline layout depth) hrest
    simpa only [renderMembers, List.append_nil, List.append_assoc, List.cons_append] using hall

/-- **A sound tree is printed as one of its texts**, at every level of either layout. -/
theorem written_renderAt {j : Json} (h : j.Sound) : Written j (renderAt layout depth j) := by
  induction h generalizing depth with
  | null => exact .null
  | bool b =>
    cases b with
    | true => exact .yes
    | false => exact .no
  | number hliteral => exact .number hliteral
  | string hps => exact .string (stringText_escape hps)
  | @array js _ ih =>
    cases js with
    | nil => exact .emptyArray blanks_nil
    | cons j js =>
      have helements := writtenElements_render layout (depth + 1) (fun i hi => ih i hi (depth + 1))
        (blanks_newline layout depth)
      have harray := Written.array (blanks_newline layout (depth + 1)) helements
      simpa only [renderAt, List.append_assoc, List.cons_append] using harray
  | @object ms hkeys _ ih =>
    cases ms with
    | nil => exact .emptyObject blanks_nil
    | cons m ms =>
      have hmembers := writtenMembers_render layout (depth + 1) hkeys (fun i hi => ih i hi (depth + 1))
        (blanks_newline layout depth)
      have hobject := Written.object (blanks_newline layout (depth + 1)) hmembers
      simpa only [renderAt, List.append_assoc, List.cons_append] using hobject

/-- **Reading undoes printing**, in both layouts. -/
theorem read?_render {j : Json} (h : j.Sound) : read? (render layout j) = some j := by
  have hread := ofChars?_of_written (written_renderAt layout 0 h) blanks_nil blanks_nil
  rw [List.nil_append, List.append_nil] at hread
  rw [read?, render, String.toList_ofList, hread]

end

end Json

end LibraryCatalog
