import LibraryCatalog.Proofs.Library.Log
import Mathlib.Data.List.Permutation

/-!
# `LibraryCatalog.Proofs.Library.Selection` — the indexes select what a search through all shelves finds

An inventory does not look at every shelf. It goes to the room, from there to one row or to all rows of the room, and
from each row to one shelf or to all shelves of the row: by an index where a number is given, and through an array where
none is. The plain way to the same shelves is to locate each of them and to keep those that stand where the question
asks. It needs no index, but it goes through three arrays for every shelf of the library.

## Contents
- **Plain way.** `scanShelves`, and `mem_scanShelves_iff`, which shelves it finds.
- **Once each.** `nodup_shelvesMatching`: no shelf is reached on two ways.
- **Agreement.** `InventoryQuery.admits_iff`, what a question asks for number by number, and
  `Reachable.shelvesMatching_agrees`.
-/

namespace LibraryCatalog

/-- What a question asks for: its room, and the row and the shelf of which it gives the numbers. -/
theorem InventoryQuery.admits_iff {q : InventoryQuery} {loc : Location} :
    q.admits loc = true ↔ loc.room = q.room ∧ (∀ n, q.row = some n → loc.row = n) ∧
      ∀ n, q.shelf = some n → loc.shelf = n := by
  have hgiven : ∀ (number? : Option UInt32) (number : UInt32),
      number?.all (· == number) = true ↔ ∀ n, number? = some n → number = n := by
    intro number? number
    cases number? with
    | none => simp
    | some given =>
      rw [Option.all_some, beq_iff_eq]
      constructor
      · rintro rfl n hn
        exact Option.some.inj hn
      · intro h
        exact (h given rfl).symm
  unfold InventoryQuery.admits
  rw [Bool.and_eq_true, Bool.and_eq_true, beq_iff_eq, hgiven, hgiven, and_assoc]

namespace Library

variable {l : Library} {q : InventoryQuery} {id : ShelfId}

/-! ## Plain way -/

/-- All shelves in the order of their creation, of which those are kept that stand at an admitted location. -/
def scanShelves (l : Library) (q : InventoryQuery) : List ShelfId :=
  (l.shelves.toList.map Shelf.id).filter fun id => (l.locationOf id).any q.admits

/-- An identifier that leads to a location is that of a shelf. -/
theorem exists_shelf_of_locationOf {loc : Location} (h : l.Linked) (hlim : l.WithinLimit)
    (hloc : l.locationOf id = some loc) : ∃ s ∈ l.shelves, s.id = id := by
  obtain ⟨room, row, -, -, hshelf⟩ := (locationOf_eq_some_iff h hlim).mp hloc
  exact ⟨_, hshelf, rfl⟩

theorem mem_scanShelves_iff (h : l.Linked) (hlim : l.WithinLimit) :
    id ∈ l.scanShelves q ↔ ∃ loc, l.locationOf id = some loc ∧ q.admits loc = true := by
  unfold scanShelves
  rw [List.mem_filter, Option.any_eq_true, List.mem_map]
  constructor
  · rintro ⟨-, loc, hloc, hadmits⟩
    exact ⟨loc, hloc, hadmits⟩
  · rintro ⟨loc, hloc, hadmits⟩
    obtain ⟨s, hs, hid⟩ := exists_shelf_of_locationOf h hlim hloc
    exact ⟨⟨s, Array.mem_toList_iff.mpr hs, hid⟩, loc, hloc, hadmits⟩

/-! ## Once each -/

/-- What is kept of entries with different values has different values. -/
theorem nodup_map_filter {α β : Type} {as : List α} {f : α → β} (h : (as.map f).Nodup) (p : α → Bool) :
    ((as.filter p).map f).Nodup :=
  h.sublist (List.filter_sublist.map f)

theorem nodup_rowsMatching (h : l.Linked) (hlim : l.WithinLimit) (room : RoomId) (number? : Option UInt32) :
    (l.rowsMatching room number?).Nodup := by
  cases number? with
  | some number => exact Option.toList_nodup _
  | none => exact nodup_map_filter (h.rows.nodup_ident_iff.mpr hlim.rows) _

theorem nodup_shelvesOfRow (h : l.Linked) (hlim : l.WithinLimit) (row : RowId) (number? : Option UInt32) :
    (l.shelvesOfRow row number?).Nodup := by
  cases number? with
  | some number => exact Option.toList_nodup _
  | none => exact nodup_map_filter (h.shelves.nodup_ident_iff.mpr hlim.shelves) _

/-- A shelf is reached from its own row only, as long as identifiers suffice. -/
theorem row_eq_of_mem_shelvesOfRow (h : l.Linked) (hlim : l.WithinLimit) {row row' : RowId}
    {number? : Option UInt32} (hid : id ∈ l.shelvesOfRow row number?) (hid' : id ∈ l.shelvesOfRow row' number?) :
    row = row' := by
  obtain ⟨number, hshelf, -⟩ := (mem_shelvesOfRow_iff h).mp hid
  obtain ⟨number', hshelf', -⟩ := (mem_shelvesOfRow_iff h).mp hid'
  exact congrArg Shelf.row (h.shelves.eq_of_ident_eq hlim.shelves hshelf hshelf' rfl)

/-- **No shelf is selected twice**, neither within a row nor through two rows. -/
theorem nodup_shelvesMatching (h : l.Linked) (hlim : l.WithinLimit) (q : InventoryQuery) :
    (l.shelvesMatching q).Nodup := by
  unfold shelvesMatching
  cases l.roomIndex[q.room]? with
  | none => exact List.nodup_nil
  | some room =>
    dsimp only
    rw [List.nodup_flatMap]
    constructor
    · intro row _
      exact nodup_shelvesOfRow h hlim row q.shelf
    · refine (nodup_rowsMatching h hlim room q.row).imp ?_
      intro row row' hne id hid hid'
      exact hne (row_eq_of_mem_shelvesOfRow h hlim hid hid')

/-! ## Agreement -/

/-- **The indexes select the shelves that stand where a question asks**, as they are found by locating all of them:
    in every reachable library within the limit, and for every combination of numbers. -/
theorem Reachable.shelvesMatching_agrees (h : l.Reachable) (hlim : l.WithinLimit) (q : InventoryQuery) :
    (l.shelvesMatching q).Perm (l.scanShelves q) ∧
    ∀ id, id ∈ l.shelvesMatching q ↔ (∃ s ∈ l.shelves, s.id = id) ∧
      ∃ loc, l.locationOf id = some loc ∧ loc.room = q.room ∧
        (∀ n, q.row = some n → loc.row = n) ∧ ∀ n, q.shelf = some n → loc.shelf = n := by
  have hmem : ∀ id, id ∈ l.shelvesMatching q ↔ ∃ loc, l.locationOf id = some loc ∧ q.admits loc = true := by
    intro id
    simp only [mem_shelvesMatching_iff h.linked, locationOf_eq_some_iff h.linked hlim]
  constructor
  · have hscan : (l.scanShelves q).Nodup := (h.linked.shelves.nodup_ident_iff.mpr hlim.shelves).filter _
    rw [List.perm_ext_iff_of_nodup (nodup_shelvesMatching h.linked hlim q) hscan]
    intro id
    rw [hmem, mem_scanShelves_iff h.linked hlim]
  · intro id
    simp only [hmem, InventoryQuery.admits_iff]
    constructor
    · rintro ⟨loc, hloc, hasked⟩
      exact ⟨exists_shelf_of_locationOf h.linked hlim hloc, loc, hloc, hasked⟩
    · rintro ⟨-, hfound⟩
      exact hfound

/-- A shelf without a row is asked for in every row of the room. -/
theorem sample_shelvesMatching :
    (empty.run Operation.sample).Reachable ∧ (empty.run Operation.sample).WithinLimit ∧
      ((empty.run Operation.sample).shelvesMatching ⟨1, none, some 1⟩).Perm [.ofPosition 0, .ofPosition 2] := by
  have hreach : (empty.run Operation.sample).Reachable := ⟨_, rfl⟩
  have hlim := withinLimit_run Operation.sample (by decide +kernel)
  have hscan : (empty.run Operation.sample).scanShelves ⟨1, none, some 1⟩ = [.ofPosition 0, .ofPosition 2] := by
    cbv
  obtain ⟨hperm, -⟩ := hreach.shelvesMatching_agrees hlim ⟨1, none, some 1⟩
  rw [hscan] at hperm
  exact ⟨hreach, hlim, hperm⟩

end Library

end LibraryCatalog
