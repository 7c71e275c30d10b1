import LibraryCatalog.Proofs.Library.Populating
import Mathlib.Data.Multiset.Defs
import Mathlib.Data.Set.Function

/-!
# `LibraryCatalog.Proofs.Library.Reordering` — the order of loading changes only the order

Two libraries that are filled from the same record files in different orders have their rooms, rows and shelves
created in different orders, too, and therefore with different identifiers. What they hold is a log each, and the one
log is a rearrangement of the other. All that does not look at the order is the same in both; what looks at the
identifiers of shelves is the same up to the one renumbering that keeps every shelf at its location.

## Contents
- **Multiplicities.** `contents`, what is left of some entries without their order and their shelves;
  `perm_eraseDups`, the distinct entries of a rearranged list.
- **Renumbering.** `counterpart`, the shelf at the same location in another library; `Holds.bijOn_counterpart`.
- **Rearranged logs.** What two libraries that hold them have in common: `Holds.contents_inventory_eq`,
  `Holds.contents_search_eq`, `FollowsUses.counts_eq_of_perm`.
- **Result.** `SameInAnotherOrder`, and `populate_of_perm`.
-/

namespace LibraryCatalog

/-! ## Multiplicities -/

/-- The books of some entries with their multiplicities, apart from their order and from their shelves. -/
def contents (es : List Entry) : Multiset Book := es.map fun e => e.book.unplaced

/-- The distinct entries of a rearranged list are the same in another order. -/
theorem perm_eraseDups {α : Type} [BEq α] [LawfulBEq α] {as bs : List α} (h : as.Perm bs) :
    as.eraseDups.Perm bs.eraseDups := by
  rw [List.perm_ext_iff_of_nodup (nodup_eraseDups as) (nodup_eraseDups bs)]
  intro a
  rw [List.mem_eraseDups, List.mem_eraseDups]
  exact h.mem_iff

/-- A rearranged log has the same locations. -/
theorem mem_locations_of_perm {log log' : Log} {loc : Location} (h : log.Perm log') :
    loc ∈ log.locations ↔ loc ∈ log'.locations :=
  (perm_eraseDups (h.map Prod.snd)).mem_iff

/-- A book on the shelf that has taken the place of its own. -/
def Book.renumber (σ : ShelfId → ShelfId) (b : Book) : Book := { b with shelf := b.shelf.map σ }

namespace Library

variable {l l' : Library} {log log' : Log} {id : ShelfId} {loc : Location}

/-! ## Renumbering -/

/-- The identifiers of the shelves of a library. -/
def shelfIds (l : Library) : Set ShelfId := {id | ∃ s ∈ l.shelves, s.id = id}

/-- The shelf of another library that stands at the location of a shelf. -/
def counterpart (l l' : Library) (id : ShelfId) : ShelfId :=
  match l.locationOf id with
  | some loc => (l'.resolveShelf loc).1
  | none => id

theorem StandsAt.mem_shelfIds (h : l.StandsAt id loc) : id ∈ l.shelfIds := by
  obtain ⟨room, row, -, -, hshelf⟩ := h
  exact ⟨_, hshelf, rfl⟩

theorem exists_standsAt_of_mem_shelfIds (h : l.Linked) (hid : id ∈ l.shelfIds) : ∃ loc, l.StandsAt id loc := by
  obtain ⟨s, hs, rfl⟩ := hid
  exact exists_standsAt h hs

/-- **The counterpart of a shelf** stands where the shelf does, if the logs differ by their order only. -/
theorem Holds.standsAt_counterpart (h : l.Holds log) (h' : l'.Holds log') (hperm : log.Perm log')
    (hstands : l.StandsAt id loc) : l'.StandsAt (counterpart l l' id) loc := by
  have hlogged := (mem_locations_of_perm hperm).mp (h.standsAt_iff.mp ⟨id, hstands⟩)
  obtain ⟨id', hstands'⟩ := h'.standsAt_iff.mpr hlogged
  have hloc := (locationOf_eq_some_iff h.linked h.withinLimit).mpr hstands
  have hresolve := resolveShelf_of_standsAt h'.linked hstands'
  simp only [counterpart, hloc, hresolve]
  exact hstands'

/-- **Counterparts are a renumbering of the shelves.** -/
theorem Holds.bijOn_counterpart (h : l.Holds log) (h' : l'.Holds log') (hperm : log.Perm log') :
    Set.BijOn (counterpart l l') l.shelfIds l'.shelfIds := by
  have hforth {id : ShelfId} {loc : Location} (hid : l.StandsAt id loc) :=
    h.standsAt_counterpart h' hperm hid
  have hback {id : ShelfId} {loc : Location} (hid : l'.StandsAt id loc) :=
    h'.standsAt_counterpart h hperm.symm hid
  refine ⟨?_, ?_, ?_⟩
  · intro id hid
    obtain ⟨loc, hstands⟩ := exists_standsAt_of_mem_shelfIds h.linked hid
    exact (hforth hstands).mem_shelfIds
  · intro id hid id' hid' heq
    obtain ⟨loc, hstands⟩ := exists_standsAt_of_mem_shelfIds h.linked hid
    obtain ⟨loc', hstands'⟩ := exists_standsAt_of_mem_shelfIds h.linked hid'
    -- one counterpart stands at one location, and there is one shelf
    have hcounterpart := hforth hstands
    rw [heq] at hcounterpart
    obtain rfl := hcounterpart.loc_unique h'.linked h'.withinLimit (hforth hstands')
    exact hstands.id_unique h.linked hstands'
  · intro id hid
    obtain ⟨loc, hstands⟩ := exists_standsAt_of_mem_shelfIds h'.linked hid
    exact ⟨_, (hback hstands).mem_shelfIds, (hforth (hback hstands)).id_unique h'.linked hstands⟩

/-! ## Rearranged logs -/

/-- Apart from shelves, entries with the books of a log have the logged books. -/
theorem map_unplaced_of_map_book {es : List Entry} {placed : Log} (h : es.map Entry.book = placed.map log.shelve) :
    (es.map fun e => e.book.unplaced) = placed.map fun x => x.1.unplaced := by
  have hunplaced := congrArg (List.map Book.unplaced) h
  rwa [List.map_map, List.map_map] at hunplaced

/-- Entries with the books of rearranged logs, in whatever libraries they stand, have the same contents. -/
theorem contents_eq_of_perm {es es' : List Entry} {placed placed' : Log} (h : es.map Entry.book = placed.map log.shelve)
    (h' : es'.map Entry.book = placed'.map log'.shelve) (hperm : placed.Perm placed') : contents es = contents es' := by
  rw [contents, contents, map_unplaced_of_map_book h, map_unplaced_of_map_book h']
  exact Multiset.coe_eq_coe.mpr (hperm.map _)

theorem Holds.contents_inventory_eq (h : l.Holds log) (h' : l'.Holds log') (hperm : log.Perm log')
    (q : InventoryQuery) : (l.inventory q).map contents = (l'.inventory q).map contents := by
  by_cases hq : q.shelf.isSome ∧ q.row = none
  · rw [(inventory_eq_error_iff l q).mpr hq, (inventory_eq_error_iff l' q).mpr hq]
  · rw [inventory_eq_ok hq, inventory_eq_ok hq]
    exact congrArg Except.ok
      (contents_eq_of_perm (h.map_book_entriesOn q) (h'.map_book_entriesOn q) (hperm.filter _))

theorem Holds.contents_search_eq (h : l.Holds log) (h' : l'.Holds log') (hperm : log.Perm log')
    (expression : String) : contents (l.search expression) = contents (l'.search expression) := by
  -- a query looks at no shelf
  have hbooks {l : Library} {log : Log} (h : l.Holds log) : (l.search expression).map Entry.book =
      (log.filter fun x => (Search.Query.ofText expression).selects x.1).map log.shelve :=
    h.map_book_filter (p := (Search.Query.ofText expression).selects) fun _ _ => rfl
  exact contents_eq_of_perm (hbooks h) (hbooks h') (hperm.filter _)

/-- Rearranged uses need as many places of each level. -/
theorem FollowsUses.counts_eq_of_perm {uses uses' : List Location} (h : l.FollowsUses uses)
    (h' : l'.FollowsUses uses') (hperm : uses.Perm uses') (hbooks : l.books.size = l'.books.size) :
    l.counts = l'.counts := by
  rw [h.counts_eq, h'.counts_eq, hbooks, (perm_eraseDups hperm).length_eq,
    (perm_eraseDups (hperm.map Location.room)).length_eq,
    (perm_eraseDups (hperm.map fun loc => (loc.room, loc.row))).length_eq]

/-! ## Result -/

/-- A renumbering of the shelves of a library leads to those of another one, each to the shelf at its location. -/
structure Renumbers (σ : ShelfId → ShelfId) (l l' : Library) : Prop where
  bijOn : Set.BijOn σ l.shelfIds l'.shelfIds
  locationOf : ∀ id ∈ l.shelfIds, ∃ loc, l.locationOf id = some loc ∧ l'.locationOf (σ id) = some loc

/-- Some books are the records of a file, on the shelf of a library that stands at the location of the file. -/
structure StandsFor (l : Library) (records : List Book) (loc : Location) (bs : List Book) : Prop where
  records : bs.map Book.unplaced = records.map Book.unplaced
  shelf : ∀ b ∈ bs, ∃ id ∈ l.shelfIds, b.shelf = some id ∧ l.locationOf id = some loc

/-- Two libraries that have been filled from the same files differ by the order of their books and by the numbers of
    their shelves only. -/
structure SameInAnotherOrder (content : String → List Book) (sources sources' : List ShelfSource)
    (l l' : Library) : Prop where
  counts : l.counts = l'.counts
  inventory : ∀ q, (l.inventory q).map contents = (l'.inventory q).map contents
  search : ∀ expression, contents (l.search expression) = contents (l'.search expression)
  /-- One renumbering of the shelves leads from every book to the one of the same file and record. -/
  renumbered : ∃ σ, Renumbers σ l l' ∧ ∃ placed : ShelfSource → List Book,
    (∀ s ∈ sources, l.StandsFor (content s.file) s.location (placed s)) ∧
    l.books.toList = sources.flatMap placed ∧
    l'.books.toList = sources'.flatMap fun s => (placed s).map (Book.renumber σ)

variable {files : Files} {content : String → List Book} {sources sources' : List ShelfSource}

/-- The same files in another order give the same records in another order. -/
theorem perm_ofSources (content : String → List Book) (h : sources.Perm sources') :
    (Log.ofSources content sources).Perm (Log.ofSources content sources') := h.flatMap_right _

/-- The shelf of a logged location is renumbered to that of the same location. -/
theorem Holds.counterpart_rankId (h : l.Holds log) (h' : l'.Holds log') (hperm : log.Perm log') {b : Book}
    (hmem : (b, loc) ∈ log) : counterpart l l' (rankId log.locations loc) = rankId log'.locations loc := by
  have hstands := h.allocates.standsAt_rankId (List.mem_map_of_mem hmem)
  have hstands' := h'.allocates.standsAt_rankId (List.mem_map_of_mem (hperm.mem_iff.mp hmem))
  exact (h.standsAt_counterpart h' hperm hstands).id_unique h'.linked hstands'

theorem Holds.renumbers_counterpart (h : l.Holds log) (h' : l'.Holds log') (hperm : log.Perm log') :
    Renumbers (counterpart l l') l l' where
  bijOn := h.bijOn_counterpart h' hperm
  locationOf := by
    intro id hid
    obtain ⟨loc, hstands⟩ := exists_standsAt_of_mem_shelfIds h.linked hid
    have hstands' := h.standsAt_counterpart h' hperm hstands
    exact ⟨loc, (locationOf_eq_some_iff h.linked h.withinLimit).mpr hstands,
      (locationOf_eq_some_iff h'.linked h'.withinLimit).mpr hstands'⟩

/-- **Libraries that hold rearranged records** differ by order and numbers only. -/
theorem Holds.sameInAnotherOrder (h : l.Holds (Log.ofSources content sources))
    (h' : l'.Holds (Log.ofSources content sources')) (hsources : sources.Perm sources')
    (hcounts : l.counts = l'.counts) : SameInAnotherOrder content sources sources' l l' where
  counts := hcounts
  inventory := h.contents_inventory_eq h' (perm_ofSources content hsources)
  search := h.contents_search_eq h' (perm_ofSources content hsources)
  renumbered := by
    have hperm := perm_ofSources content hsources
    refine ⟨_, h.renumbers_counterpart h' hperm, fun s => (content s.file).map
      (onShelf (rankId (Log.ofSources content sources).locations s.location)), ?_, ?_, ?_⟩
    · intro s hs
      refine ⟨?_, ?_⟩
      · rw [List.map_map]
        rfl
      · intro b hb
        obtain ⟨record, hrecord, rfl⟩ := List.mem_map.mp hb
        have hmem : (record, s.location) ∈ Log.ofSources content sources :=
          List.mem_flatMap.mpr ⟨s, hs, List.mem_map_of_mem hrecord⟩
        have hstands := h.allocates.standsAt_rankId (List.mem_map_of_mem (f := Prod.snd) hmem)
        exact ⟨_, hstands.mem_shelfIds, rfl, h.locationOf_rankId hmem⟩
    · rw [h.toList_books, Log.map_shelve_ofSources]
      rfl
    · rw [h'.toList_books, Log.map_shelve_ofSources, List.flatMap_def, List.flatMap_def]
      refine congrArg List.flatten (List.map_congr_left fun s hs => ?_)
      rw [List.map_map]
      refine List.map_congr_left fun record hrecord => ?_
      have hmem : (record, s.location) ∈ Log.ofSources content sources :=
        List.mem_flatMap.mpr ⟨s, hsources.mem_iff.mpr hs, List.mem_map_of_mem hrecord⟩
      rw [← h.counterpart_rankId h' hperm hmem]
      rfl

/-- **The order of good files changes the order of the books and the numbers of the shelves, and nothing else.** -/
theorem populate_of_perm (c c' : Configuration) (content : String → List Book)
    (hperm : c.shelves.Perm c'.shelves) (hgood : ∀ s ∈ c.shelves, files.Yields s.file (.ok (content s.file)))
    (hlim : (empty.populate files c).1.WithinLimit) :
    ∃ l l', empty.populate files c = (l, .ok ()) ∧ empty.populate files c' = (l', .ok ()) ∧
      SameInAnotherOrder content c.shelves c'.shelves l l' := by
  simp only [Files.yields_iff] at hgood
  have hgood' : ∀ s ∈ c'.shelves, files.books s.file = .ok (content s.file) := fun s hs =>
    hgood s (hperm.mem_iff.mpr hs)
  have hlog := perm_ofSources content hperm
  have h := holds_loadAll hgood hlim
  have hlim' : (empty.loadAll files c'.shelves).1.WithinLimit := by
    refine withinLimit_loadAll hgood' ?_
    rw [Log.locations, ← (perm_eraseDups (hlog.map Prod.snd)).length_eq]
    exact h.size_shelves ▸ hlim.shelves
  have h' := holds_loadAll hgood' hlim'
  have hbooks := h.represents.size.trans (hlog.length_eq.trans h'.represents.size.symm)
  have hcounts := (followsUses_loadAll hgood hlim).counts_eq_of_perm (followsUses_loadAll hgood' hlim')
    (hlog.map Prod.snd) hbooks
  have hok : (empty.loadAll files c.shelves).2 = .ok () := loadAll_snd_eq_ok_iff.mpr fun s hs => ⟨_, hgood s hs⟩
  have hok' : (empty.loadAll files c'.shelves).2 = .ok () := loadAll_snd_eq_ok_iff.mpr fun s hs => ⟨_, hgood' s hs⟩
  exact ⟨_, _, Prod.ext rfl hok, Prod.ext rfl hok', h.sameInAnotherOrder h' hperm hcounts⟩

/-- Files that hold a book each, which is named like its file. -/
def sampleTitled : Files := ⟨fun path => .ok ("Book\nTitle: " ++ path), fun _ => true⟩

/-- Files on two shelves of different rooms. From behind, the rooms and the shelves are numbered the other way. -/
def sampleOrder : Configuration := ⟨none, [⟨⟨1, 1, 1⟩, "a"⟩, ⟨⟨2, 1, 1⟩, "b"⟩, ⟨⟨2, 1, 1⟩, "a"⟩]⟩

theorem sample_populate_of_reverse :
    sampleOrder.shelves.Perm sampleOrder.shelves.reverse ∧
      (∀ s ∈ sampleOrder.shelves, sampleTitled.Yields s.file (.ok [{ Book.blank with title := s.file }])) ∧
      (empty.populate sampleTitled sampleOrder).1.WithinLimit ∧
      ∃ l l', empty.populate sampleTitled sampleOrder = (l, .ok ()) ∧
        empty.populate sampleTitled ⟨none, sampleOrder.shelves.reverse⟩ = (l', .ok ()) ∧
        SameInAnotherOrder (fun path => [{ Book.blank with title := path }]) sampleOrder.shelves
          sampleOrder.shelves.reverse l l' := by
  have hperm := (List.reverse_perm sampleOrder.shelves).symm
  have hgood : ∀ s ∈ sampleOrder.shelves, sampleTitled.Yields s.file (.ok [{ Book.blank with title := s.file }]) := by
    simp only [sampleOrder, List.forall_mem_cons]
    exact ⟨.books rfl rfl, .books rfl rfl, .books rfl rfl, nofun⟩
  have hlim : (empty.populate sampleTitled sampleOrder).1.WithinLimit :=
    withinLimit_run [.populate sampleTitled sampleOrder] (by decide +kernel)
  exact ⟨hperm, hgood, hlim,
    populate_of_perm sampleOrder ⟨none, sampleOrder.shelves.reverse⟩ (fun path => [{ Book.blank with title := path }])
      hperm hgood hlim⟩

end Library

end LibraryCatalog
