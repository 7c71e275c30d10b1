import LibraryCatalog.Proofs.Library.Allocation
import LibraryCatalog.Proofs.Library.Saturation
import Mathlib.Data.List.Permutation

/-!
# `LibraryCatalog.Proofs.Library.Stability` — what has been answered stays answered

A library only grows, and so what has once been found in it is found again later, in the same place. This holds of
the look-ups by position, of the first book with an ISBN and of searches whatever is done. An inventory goes through
the identifiers of shelves: that it, too, only gets longer takes that the shelves which are new to its question hold
no earlier book, and therefore that identifiers suffice. They have to suffice after the run: a library that has just
used up the last one does not keep its inventories.

## Contents
- **Growth.** `entries_prefix_entries`, and what every growth keeps: `Grows.book?`, `Grows.findIsbn`,
  `Grows.searchWith`.
- **Inventories.** `Grows.inventory`: no earlier book joins an inventory or leaves it.
- **Runs.** `KeepsAnswers`, and `Reachable.keepsAnswers`.
- **Beyond the limit.** `inventory_not_kept_of_full`: one shelf more than identifiers puts an earlier book before what an
  inventory has listed. `brimming`, a library to which this happens.
-/

namespace LibraryCatalog

/-! ## Growth -/

/-- The books of a longer list have the positions that they have in the shorter one. -/
theorem entries_prefix_entries {bs bs' : List Book} (h : bs <+: bs') : entries bs <+: entries bs' := by
  obtain ⟨rest, rfl⟩ := h
  rw [entries, entries, List.zipIdx_append, List.map_append]
  exact List.prefix_append _ _

namespace Library

variable {l l' : Library}

theorem Grows.book? (h : l.Grows l') {n : Nat} {b : Book} (hb : l.book? n = some b) : l'.book? n = some b :=
  getElem?_of_toList_prefix h.books hb

/-- The first book with an ISBN stays the first one. -/
theorem Grows.findIsbn (h : l.Grows l') {isbn : String} {b : Book} (hb : l.findIsbn isbn = some b) :
    l'.findIsbn isbn = some b := by
  rw [Library.findIsbn, ← Array.find?_toList] at hb ⊢
  obtain ⟨rest, hbooks⟩ := h.books
  rw [← hbooks, List.find?_append, hb, Option.some_or]

theorem Grows.catalog (h : l.Grows l') : l.catalog <+: l'.catalog := entries_prefix_entries h.books

/-- What a query selects is selected first among more books. -/
theorem Grows.searchWith (h : l.Grows l') (q : Search.Query) : l.searchWith q <+: l'.searchWith q :=
  h.catalog.filter _

/-! ## Inventories -/

/-- A book of a library stands on a shelf of it. -/
theorem exists_standsAt_of_mem_catalog (h : l.Linked) {e : Entry} (he : e ∈ l.catalog) :
    ∃ id loc, e.book.shelf = some id ∧ l.StandsAt id loc := by
  have hbook : l.books[e.position]? = some e.book := by
    rw [← Array.getElem?_toList]
    exact mem_entries.mp he
  obtain ⟨s, hs, hshelf⟩ := h.book_shelf e.book (Array.mem_of_getElem? hbook)
  obtain ⟨loc, hstands⟩ := exists_standsAt h hs
  exact ⟨s.id, loc, hshelf, hstands⟩

/-- **No earlier book joins an inventory or leaves it**, as long as identifiers suffice. -/
theorem Grows.inventory (h : l.Grows l') (hl : l.Linked) (hl' : l'.Linked) (hlim : l.WithinLimit)
    (hlim' : l'.WithinLimit) {q : InventoryQuery} {es : List Entry} (hes : l.inventory q = .ok es) :
    ∃ es', l'.inventory q = .ok es' ∧ es <+: es' := by
  obtain ⟨hq, rfl⟩ := inventory_eq_ok_iff.mp hes
  refine ⟨_, inventory_eq_ok hq, ?_⟩
  -- an earlier book is asked for by the location of its shelf, before and after
  have hsame : ∀ e ∈ l.catalog, e.book.shelf.any (l.shelvesMatching q).contains =
      e.book.shelf.any (l'.shelvesMatching q).contains := by
    intro e he
    obtain ⟨id, loc, hshelf, hstands⟩ := exists_standsAt_of_mem_catalog hl he
    rw [hshelf, Option.any_some, Option.any_some, contains_shelvesMatching hl hlim hstands,
      contains_shelvesMatching hl' hlim' (hstands.of_grows h)]
  rw [entriesOn, entriesOn, List.filter_congr hsame]
  exact h.catalog.filter _

/-! ## Runs -/

/-- Whatever has been answered by a library is answered by another one in the same way. -/
structure KeepsAnswers (l l' : Library) : Prop where
  /-- Rooms, rows, shelves, books and the entries of the indexes are still there, each as it was. -/
  grows : l.Grows l'
  locationOf : ∀ id loc, l.locationOf id = some loc → l'.locationOf id = some loc
  book? : ∀ n b, l.book? n = some b → l'.book? n = some b
  findIsbn : ∀ isbn b, l.findIsbn isbn = some b → l'.findIsbn isbn = some b
  search : ∀ expression, l.search expression <+: l'.search expression
  searchWith : ∀ q, l.searchWith q <+: l'.searchWith q
  /-- Above the limit two shelves can share an identifier, and then books of the one are listed for the other. -/
  inventory : l'.WithinLimit → ∀ q es, l.inventory q = .ok es → ∃ es', l'.inventory q = .ok es' ∧ es <+: es'

/-- **A run keeps all answers that were given before it**, whatever its operations are and whether or not they fail. -/
theorem Reachable.keepsAnswers (h : l.Reachable) (ops : List Operation) : l.KeepsAnswers (l.run ops) where
  grows := grows_run l ops
  locationOf := fun _ _ => (grows_run l ops).locationOf
  book? := fun _ _ => (grows_run l ops).book?
  findIsbn := fun _ _ => (grows_run l ops).findIsbn
  search := fun expression => (grows_run l ops).searchWith (Search.Query.ofText expression)
  searchWith := (grows_run l ops).searchWith
  inventory := fun hlim _ _ hes =>
    (grows_run l ops).inventory h.linked (h.run ops).linked (hlim.of_grows (grows_run l ops)) hlim hes

theorem sample_keepsAnswers :
    (empty.run Operation.sample).Reachable ∧ ((empty.run Operation.sample).run Operation.sample).WithinLimit ∧
      (empty.run Operation.sample).KeepsAnswers ((empty.run Operation.sample).run Operation.sample) := by
  have hreach : (empty.run Operation.sample).Reachable := ⟨_, rfl⟩
  have hlim := withinLimit_run (Operation.sample ++ Operation.sample) (by decide +kernel)
  rw [run, List.foldl_append] at hlim
  exact ⟨hreach, hlim, hreach.keepsAnswers Operation.sample⟩

/-! ## Beyond the limit -/

theorem mem_entriesOn_iff {e : Entry} {id : ShelfId} (hshelf : e.book.shelf = some id) {ids : List ShelfId} :
    e ∈ l.entriesOn ids ↔ e ∈ l.catalog ∧ id ∈ ids := by
  rw [entriesOn, List.mem_filter, hshelf, Option.any_some, List.contains_iff_mem]

theorem catalog_step_resolve (l : Library) (loc : Location) : (l.step (.resolve loc)).catalog = l.catalog := by
  rw [step, catalog, books_resolveShelf, ← catalog]

/-- **A library that has used up its identifiers does not keep its inventories.** One shelf more shares the last
    identifier, and its inventories list the books of that one, be it before books that they have listed already. -/
theorem inventory_not_kept_of_full (h : l.Linked) (hlim : l.WithinLimit) (hfull : Identifier.limit ≤ l.shelves.size)
    {id : ShelfId} {loc last : Location} {number : UInt32} (hs : l.StandsAt id loc)
    (hnew : ∀ id, ¬l.StandsAt id { loc with shelf := number }) (hlast : l.StandsAt .last last) {q : InventoryQuery}
    (hasked : q.admits { loc with shelf := number } = true) (hother : q.admits last = false) {e e₀ : Entry}
    (he : e ∈ l.catalog) (hshelf : e.book.shelf = some .last) {es : List Entry} (hes : l.inventory q = .ok es)
    (he₀ : e₀ ∈ es) (hlt : e.position < e₀.position) :
    ∃ es', (l.step (.resolve { loc with shelf := number })).inventory q = .ok es' ∧ ¬es <+: es' := by
  obtain ⟨hq, rfl⟩ := inventory_eq_ok_iff.mp hes
  refine ⟨_, inventory_eq_ok hq, ?_⟩
  rintro ⟨rest, hrest⟩
  have hbefore : e ∉ l.entriesOn (l.shelvesMatching q) := by
    have hunasked : Identifier.last ∉ l.shelvesMatching q := by
      rw [← List.contains_iff_mem, contains_shelvesMatching h hlim hlast, hother]
      exact Bool.false_ne_true
    intro hlisted
    exact hunasked ((mem_entriesOn_iff hshelf).mp hlisted).2
  have hnow : e ∈ l.entriesOn (l.shelvesMatching q) ++ rest := by
    rw [hrest, mem_entriesOn_iff hshelf, catalog_step_resolve, mem_shelvesMatching_iff (linked_step h _)]
    exact ⟨he, _, standsAt_last_of_new h hs hnew hfull, hasked⟩
  have hsorted : ((l.entriesOn (l.shelvesMatching q) ++ rest).map Entry.position).Pairwise (· < ·) := by
    rw [hrest]
    exact pairwise_position_filter_entries _ _
  rw [List.map_append, List.pairwise_append] at hsorted
  rcases List.mem_append.mp hnow with hold | hadded
  · exact hbefore hold
  · -- what comes after the earlier list has been placed after all that it lists
    exact Nat.lt_asymm hlt (hsorted.2.2 _ (List.mem_map_of_mem he₀) _ (List.mem_map_of_mem hadded))

end Library

/-- A shelf in one room, a row of `n + 1` shelves in another one, and then two books: the first on the last shelf of the
    row, the second on the shelf in the other room. -/
def Operation.brimming (n : Nat) (a b : Book) : List Operation :=
  .resolve ⟨2, 1, 1⟩ :: Operation.fillingRow 1 1 ((List.range (n + 1)).map UInt32.ofNat) ++
    [.place a ⟨1, 1, .ofNat n⟩, .place b ⟨2, 1, 1⟩]

theorem Operation.locations_fillingRow (room row : UInt32) (numbers : List UInt32) :
    Operation.locations (Operation.fillingRow room row numbers) = numbers.map (Location.mk room row) := by
  induction numbers with
  | nil => rfl
  | cons number numbers ih => exact congrArg (_ :: ·) ih

theorem Log.ofOperations_fillingRow (room row : UInt32) (numbers : List UInt32) :
    Log.ofOperations (Operation.fillingRow room row numbers) = [] := by
  induction numbers with
  | nil => rfl
  | cons number numbers ih => exact ih

theorem Log.ofOperations_brimming (n : Nat) (a b : Book) :
    Log.ofOperations (Operation.brimming n a b) = [(a, ⟨1, 1, .ofNat n⟩), (b, ⟨2, 1, 1⟩)] := by
  have hrow := Log.ofOperations_fillingRow 1 1 ((List.range (n + 1)).map UInt32.ofNat)
  rw [Log.ofOperations] at hrow
  simp [Operation.brimming, Log.ofOperations, Operation.steps, Step.placement?, List.filterMap_cons, hrow]

namespace Library

variable {n : Nat} {a b : Book}

/-- The library of that run, which has `n + 2` shelves. -/
def brimming (n : Nat) (a b : Book) : Library := empty.run (Operation.brimming n a b)

theorem reachable_brimming (n : Nat) (a b : Book) : (brimming n a b).Reachable := ⟨_, rfl⟩

/-- The locations of its shelves in the order of their creation. -/
def brimLocations (n : Nat) : List Location :=
  ⟨2, 1, 1⟩ :: ((List.range (n + 1)).map UInt32.ofNat).map (Location.mk 1 1)

theorem length_brimLocations (n : Nat) : (brimLocations n).length = n + 2 := by
  rw [brimLocations, List.length_cons, List.length_map, List.length_map, List.length_range]

theorem getElem?_brimLocations (n : Nat) : (brimLocations n)[n + 1]? = some ⟨1, 1, .ofNat n⟩ := by
  rw [brimLocations, List.getElem?_cons_succ, List.getElem?_map, List.getElem?_map,
    List.getElem?_range (Nat.lt_succ_self n)]
  rfl

theorem nodup_brimLocations (hn : n ≤ Identifier.limit) : (brimLocations n).Nodup := by
  refine List.nodup_cons.mpr ⟨?_, ?_⟩
  · intro hmem
    obtain ⟨number, -, heq⟩ := List.mem_map.mp hmem
    exact absurd (Location.mk.inj heq).1 (by decide)
  · refine List.Pairwise.map _ ?_ (nodup_map_ofNat (Nat.succ_le_succ hn))
    intro number number' hne heq
    exact hne (Location.mk.inj heq).2.2

/-- Both books come to shelves that are there already. -/
theorem eraseDups_locations_brimming (hn : n ≤ Identifier.limit) :
    (Operation.locations (Operation.brimming n a b)).eraseDups = brimLocations n := by
  have hlocations : Operation.locations (Operation.brimming n a b) =
      brimLocations n ++ [⟨1, 1, .ofNat n⟩] ++ [⟨2, 1, 1⟩] := by
    rw [brimLocations, ← Operation.locations_fillingRow, Operation.brimming]
    simp [Operation.locations, Operation.steps, Step.location]
  have hlast := List.mem_of_getElem? (getElem?_brimLocations n)
  have hfirst : ⟨2, 1, 1⟩ ∈ brimLocations n ++ [⟨1, 1, .ofNat n⟩] := List.mem_append_left _ List.mem_cons_self
  rw [hlocations, eraseDups_concat_of_mem hfirst, eraseDups_concat_of_mem hlast,
    eraseDups_of_nodup (nodup_brimLocations hn)]

theorem withinLimit_brimming (hn : n + 2 ≤ Identifier.limit) : (brimming n a b).WithinLimit := by
  rw [brimming, run_eq_foldl_step]
  refine withinLimit_foldl_step ?_
  rw [← Operation.locations, eraseDups_locations_brimming (by omega), length_brimLocations]
  exact hn

theorem allocates_brimming (hn : n + 2 ≤ Identifier.limit) :
    (brimming n a b).Allocates (Operation.locations (Operation.brimming n a b)) := by
  have hlim := withinLimit_brimming (a := a) (b := b) hn
  exact (followsUses_run _ hlim).allocates (reachable_brimming n a b).linked hlim

/-- Where the books are, with the identifiers of these shelves. -/
theorem standsAt_brimming (hn : n + 2 ≤ Identifier.limit) :
    (brimming n a b).StandsAt (.ofPosition 0) ⟨2, 1, 1⟩ ∧
    (brimming n a b).StandsAt (.ofPosition (n + 1)) ⟨1, 1, .ofNat n⟩ := by
  have hdistinct := eraseDups_locations_brimming (a := a) (b := b) (n := n) (by omega)
  constructor
  · refine (allocates_brimming hn).standsAt 0 _ ?_
    rw [hdistinct]
    rfl
  · refine (allocates_brimming hn).standsAt (n + 1) _ ?_
    rw [hdistinct, getElem?_brimLocations]

theorem not_standsAt_brimming (hn : n + 2 ≤ Identifier.limit) (id : ShelfId) :
    ¬(brimming n a b).StandsAt id ⟨2, 1, 2⟩ := by
  intro hs
  have hmem := (allocates_brimming hn).mem_of_standsAt (reachable_brimming n a b).linked (withinLimit_brimming hn) hs
  rw [← List.mem_eraseDups, eraseDups_locations_brimming (by omega), brimLocations, List.mem_cons] at hmem
  rcases hmem with heq | hmem
  · exact absurd (Location.mk.inj heq).2.2 (by decide)
  · obtain ⟨number, -, heq⟩ := List.mem_map.mp hmem
    exact absurd (Location.mk.inj heq).1 (by decide)

/-- **With as many shelves as identifiers, one shelf more changes what the inventory of a room has listed.** -/
theorem inventory_brimming_not_kept (hn : n + 2 = Identifier.limit) :
    ∃ es es', (brimming n a b).inventory ⟨2, none, none⟩ = .ok es ∧
      ((brimming n a b).run [.resolve ⟨2, 1, 2⟩]).inventory ⟨2, none, none⟩ = .ok es' ∧ ¬es <+: es' := by
  have hle := Nat.le_of_eq hn
  have hlinked := (reachable_brimming n a b).linked
  have hfull : Identifier.limit ≤ (brimming n a b).shelves.size := by
    rw [(allocates_brimming hle).size, eraseDups_locations_brimming (by omega), length_brimLocations, hn]
  obtain ⟨hroom, hlast⟩ := standsAt_brimming (a := a) (b := b) hle
  rw [Identifier.ofPosition_eq_last_iff.mpr (by omega)] at hlast
  have hrep : (brimming n a b).Represents [(a, ⟨1, 1, .ofNat n⟩), (b, ⟨2, 1, 1⟩)] := by
    rw [← Log.ofOperations_brimming]
    exact represents_run _
  -- before, the second book is listed, and the first one comes before it in the catalog
  have hes : (brimming n a b).inventory ⟨2, none, none⟩ = .ok _ := inventory_eq_ok (by simp)
  have hshelf : .ofPosition 0 ∈ (brimming n a b).shelvesMatching ⟨2, none, none⟩ :=
    (mem_shelvesMatching_iff hlinked).mpr ⟨⟨2, 1, 1⟩, hroom, rfl⟩
  have hlisted := (mem_entriesOn_iff rfl).mpr ⟨hrep.mem_catalog hlinked (n := 1) rfl hroom, hshelf⟩
  have hearlier := hrep.mem_catalog hlinked (n := 0) rfl hlast
  obtain ⟨es', hes', hchanged⟩ := inventory_not_kept_of_full hlinked (withinLimit_brimming hle) hfull hroom
    (not_standsAt_brimming hle) hlast rfl rfl hearlier rfl hes hlisted Nat.zero_lt_one
  exact ⟨_, es', hes, hes', hchanged⟩

/-- It is not enough that identifiers suffice before a run, nor is it an answer that something is not there yet. -/
theorem answers_not_kept :
    (brimming (Identifier.limit - 2) Book.blank Book.blank).Reachable ∧
    (brimming (Identifier.limit - 2) Book.blank Book.blank).WithinLimit ∧
    (∃ es es', (brimming (Identifier.limit - 2) Book.blank Book.blank).inventory ⟨2, none, none⟩ = .ok es ∧
      ((brimming (Identifier.limit - 2) Book.blank Book.blank).run [.resolve ⟨2, 1, 2⟩]).inventory ⟨2, none, none⟩ =
        .ok es' ∧ ¬es <+: es') ∧
    empty.locationOf (.ofPosition 0) = none ∧
    (empty.run [.place Book.blank ⟨1, 1, 1⟩]).locationOf (.ofPosition 0) = some ⟨1, 1, 1⟩ ∧
    empty.book? 0 = none ∧
    (empty.run [.place Book.blank ⟨1, 1, 1⟩]).book? 0 = some { Book.blank with shelf := some (.ofPosition 0) } := by
  refine ⟨reachable_brimming _ _ _, withinLimit_brimming ?_, inventory_brimming_not_kept ?_, rfl, by cbv, rfl, by cbv⟩
  · exact Nat.le_refl _
  · exact rfl

end Library

end LibraryCatalog
