import LibraryCatalog.Configuration.Basic
import LibraryCatalog.Proofs.Text.Numeral

/-!
# `LibraryCatalog.Proofs.Location.Numbers` — locations and the texts that are written for them

Every location can be written, also one with a zero in it; only locations of positive numbers can be read. So what
is written is read back exactly when there is no zero.

## Contents
- **Positive locations.** `Location.Positive`; what is read is positive: `positive_of_ofChars?`.
- **Written locations.** `splitOn_chars`, `ofChars?_chars`.
- **Configurations.** `Configuration.Positive`; `mapM_shelves`, where every shelf is written as its location allows.
-/

namespace LibraryCatalog

open Text

namespace Location

/-! ## Positive locations -/

/-- A location whose numbers are all positive. -/
structure Positive (l : Location) : Prop where
  room : 0 < l.room
  row : 0 < l.row
  shelf : 0 < l.shelf

theorem positive_iff {l : Location} : l.Positive ↔ 0 < l.room ∧ 0 < l.row ∧ 0 < l.shelf :=
  ⟨fun h => ⟨h.room, h.row, h.shelf⟩, fun h => ⟨h.1, h.2.1, h.2.2⟩⟩

instance (l : Location) : Decidable l.Positive := decidable_of_iff' _ positive_iff

theorem pos_of_number? {cs : List Char} {n : UInt32} (h : number? cs = some n) : 0 < n := by
  rw [number?, Option.filter_eq_some_iff] at h
  exact of_decide_eq_true h.2

/-- **What is read is positive.** -/
theorem positive_of_ofChars? {cs : List Char} {l : Location} (h : ofChars? cs = some l) : l.Positive := by
  unfold ofChars? at h
  split at h
  · simp only [Option.bind_eq_bind, Option.bind_eq_some_iff, Option.pure_def, Option.some.injEq] at h
    obtain ⟨room, hroom, row, hrow, shelf, hshelf, rfl⟩ := h
    exact ⟨pos_of_number? hroom, pos_of_number? hrow, pos_of_number? hshelf⟩
  · cases h

/-! ## Written locations -/

/-- A written number is read if it is positive. -/
theorem number?_showNat (n : UInt32) : number? (showNat n.toNat) = if 0 < n then some n else none := by
  rw [number?, trim_showNat, uint32?_showNat, Option.filter_some]
  simp only [decide_eq_true_eq]

theorem slash_not_mem_showNat (n : Nat) : '/' ∉ showNat n := by
  intro h
  exact absurd (isDigit_of_mem_showNat h) (by decide)

/-- Slashes divide a written location into its numbers. -/
theorem splitOn_chars (l : Location) :
    l.chars.splitOn '/' = [showNat l.room.toNat, showNat l.row.toNat, showNat l.shelf.toNat] := by
  rw [chars, List.append_assoc, List.cons_append, List.splitOn_append_cons_self_of_not_mem (slash_not_mem_showNat _),
    List.splitOn_append_cons_self_of_not_mem (slash_not_mem_showNat _),
    List.splitOn_eq_singleton (slash_not_mem_showNat _)]

/-- **A written location is read back exactly when its numbers are positive.** -/
theorem ofChars?_chars (l : Location) : ofChars? l.chars = if l.Positive then some l else none := by
  rw [ofChars?, splitOn_chars]
  simp only [number?_showNat]
  by_cases hroom : 0 < l.room <;> by_cases hrow : 0 < l.row <;> by_cases hshelf : 0 < l.shelf <;>
    simp [positive_iff, hroom, hrow, hshelf]

end Location

/-! ## Configurations -/

namespace Configuration

/-- A configuration whose locations are all positive. -/
def Positive (c : Configuration) : Prop := ∀ s ∈ c.shelves, s.location.Positive

instance (c : Configuration) : Decidable c.Positive := inferInstanceAs (Decidable (∀ s ∈ c.shelves, _))

/-- If record files of positive location are read back from what is written for them and no others are, then so are
    the record files of a configuration. -/
theorem mapM_shelves {β : Type} {encode : ShelfSource → β} {decode : β → Option ShelfSource} (c : Configuration)
    (h : ∀ s, decode (encode s) = if s.location.Positive then some s else none) :
    (c.shelves.map encode).mapM decode = if c.Positive then some c.shelves else none := by
  obtain ⟨filter, shelves⟩ := c
  induction shelves with
  | nil => rfl
  | cons s shelves ih =>
    have hcons : Positive ⟨filter, s :: shelves⟩ ↔ s.location.Positive ∧ Positive ⟨filter, shelves⟩ :=
      List.forall_mem_cons
    rw [List.map_cons, List.mapM_cons, h s, ih]
    simp only [hcons]
    by_cases hs : s.location.Positive
    · by_cases hrest : Positive ⟨filter, shelves⟩
      · rw [if_pos hs, if_pos hrest, if_pos ⟨hs, hrest⟩]
        rfl
      · rw [if_pos hs, if_neg hrest, if_neg (not_and_of_not_right _ hrest)]
        rfl
    · rw [if_neg hs, if_neg (not_and_of_not_left _ hs)]
      rfl

end Configuration

end LibraryCatalog
