import Mathlib.Data.List.Forall2
import LibraryCatalog.Proofs.Text.Numeral
import LibraryCatalog.Location

/-!
# `LibraryCatalog.Proofs.Location.Language` — which texts are locations

A location is written as three positive numbers between slashes. Every number may have white space around it, a plus
sign in front and any number of leading zeros; its value is computed exactly, and only then held against the 32-bit
range. Whatever is wrong with a text, and with whichever of its parts, it is refused as a whole.

## Contents
- **Parts.** `Location.Part`, the number that stands between two slashes; `number?_eq_some_iff`.
- **Texts.** `Location.Legible`, and `ofChars?_eq_some_iff`, which location a text is written for.
- **Result.** `read_accepts_legible`.
-/

namespace LibraryCatalog.Location

open Text

/-! ## Parts -/

/-- A part of a written location: a positive number of the 32-bit range, perhaps with white space around it. -/
structure Part (cs : List Char) (n : Nat) : Prop where
  written : Unsigned (trim cs) n
  pos : 1 ≤ n
  le_limit : n ≤ 4294967295

/-- **A part is read** as the number that it is written for. -/
theorem number?_eq_some_iff {cs : List Char} {n : UInt32} : number? cs = some n ↔ Part cs n.toNat := by
  rw [number?, Option.filter_eq_some_iff, uint32?_eq_some_iff, decide_eq_true_eq]
  constructor
  · rintro ⟨hwritten, hpos⟩
    exact ⟨hwritten, hpos, Nat.le_of_lt_succ n.toNat_lt⟩
  · intro h
    exact ⟨h.written, h.pos⟩

/-- The number of a part is one of the type. -/
theorem Part.exists_eq_toNat {cs : List Char} {n : Nat} (h : Part cs n) : ∃ i : UInt32, i.toNat = n :=
  ⟨.ofNat n, UInt32.toNat_ofNat_of_lt' (Nat.lt_succ_of_le h.le_limit)⟩

/-! ## Texts -/

/-- A text is legible as a location: slashes divide it into three parts, and each of them is a number. -/
structure Legible (cs : List Char) : Prop where
  three : (cs.splitOn '/').length = 3
  parts : ∀ part ∈ cs.splitOn '/', ∃ n, Part part n

/-- The numbers of a location in the order in which they are written. -/
def numbers (l : Location) : List Nat := [l.room.toNat, l.row.toNat, l.shelf.toNat]

/-- **A text is read as the location whose numbers its parts are written for.** -/
theorem ofChars?_eq_some_iff {cs : List Char} {l : Location} :
    ofChars? cs = some l ↔ List.Forall₂ Part (cs.splitOn '/') l.numbers := by
  unfold ofChars?
  split
  · next room row shelf hsplit =>
    rw [hsplit, numbers]
    simp only [Option.bind_eq_bind, Option.bind_eq_some_iff, Option.pure_def, Option.some.injEq, number?_eq_some_iff,
      List.forall₂_cons, List.forall₂_nil_left_iff, and_true]
    constructor
    · rintro ⟨_, hroom, _, hrow, _, hshelf, rfl⟩
      exact ⟨hroom, hrow, hshelf⟩
    · rintro ⟨hroom, hrow, hshelf⟩
      exact ⟨_, hroom, _, hrow, _, hshelf, rfl⟩
  · next hsplit =>
    refine iff_of_false nofun fun h => ?_
    obtain ⟨room, row, shelf, hthree⟩ := List.length_eq_three.mp h.length_eq
    exact hsplit room row shelf hthree

/-- A text is legible exactly if it is written for some location. -/
theorem exists_ofChars?_iff {cs : List Char} : (∃ l, ofChars? cs = some l) ↔ Legible cs := by
  constructor
  · rintro ⟨l, hl⟩
    have hparts := ofChars?_eq_some_iff.mp hl
    refine ⟨hparts.length_eq, fun part hpart => ?_⟩
    obtain ⟨i, hi, rfl⟩ := List.getElem_of_mem hpart
    exact ⟨_, hparts.get hi (hparts.length_eq ▸ hi)⟩
  · rintro ⟨hthree, hparts⟩
    obtain ⟨room, row, shelf, hsplit⟩ := List.length_eq_three.mp hthree
    rw [hsplit] at hparts
    obtain ⟨_, hroom⟩ := hparts room (by simp)
    obtain ⟨_, hrow⟩ := hparts row (by simp)
    obtain ⟨_, hshelf⟩ := hparts shelf (by simp)
    obtain ⟨r, rfl⟩ := hroom.exists_eq_toNat
    obtain ⟨w, rfl⟩ := hrow.exists_eq_toNat
    obtain ⟨s, rfl⟩ := hshelf.exists_eq_toNat
    refine ⟨⟨r, w, s⟩, ofChars?_eq_some_iff.mpr ?_⟩
    rw [hsplit]
    exact .cons hroom (.cons hrow (.cons hshelf .nil))

/-! ## Result -/

/-- **Exactly the legible texts are read as locations**, each as the one whose numbers its parts are written for, in
their order. Every other text is refused with a report that quotes the whole of it. -/
theorem read_accepts_legible (text : String) :
    ((∃ l, read text = .ok l) ↔ Legible text.toList) ∧
      (∀ l, read text = .ok l ↔ List.Forall₂ Part (text.toList.splitOn '/') l.numbers) ∧
      ∀ m, read text = .error m ↔ ¬Legible text.toList ∧ m = ⟨text⟩ := by
  rw [← exists_ofChars?_iff]
  simp only [← ofChars?_eq_some_iff, read]
  cases ofChars? text.toList with
  | some l => simp
  | none => simp [eq_comm]

/-- White space, a sign and leading zeros around the largest number. -/
example : read "\u00a0+001 /2/ 4294967295" = .ok ⟨1, 2, 4294967295⟩ := by decide +kernel

end LibraryCatalog.Location
