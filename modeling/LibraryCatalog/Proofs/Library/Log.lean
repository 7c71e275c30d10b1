import LibraryCatalog.Library.Inventory
import LibraryCatalog.Proofs.Library.Address

/-!
# `LibraryCatalog.Proofs.Library.Log` — a library answers like the log of its placements

Arrays, indexes and identifiers are there to answer quickly. What they answer is determined by much less: by the
list of the books that were placed, each with its location, in the order of placing. A log is written down without
looking at the library, and every question can be answered from it by going through it from the start.

## Contents
- **Log.** `Log`, `Log.ofOperations`, and the answers that a log gives: `Log.positions`, `Log.Lists`.
- **Shelves.** `mem_shelvesMatching_iff`: the indexes lead to the shelves that stand at an admitted location.
- **Representation.** `Represents`: the `n`-th book of the library is the `n`-th of the log, on a shelf that stands
  at its location. Kept by every step.
- **Answers.** `AnswersLike`, and `run_answersLike_log` within the limit.
-/

namespace LibraryCatalog

/-! ## Log -/

/-- The placed books, each with its location, in the order of placing. -/
abbrev Log := List (Book × Location)

/-- What a step adds to the log. Resolving a location places nothing. -/
def Step.placement? : Step → Option (Book × Location)
  | .resolve _ => none
  | .place b loc => some (b, loc)

/-- The log of a run. -/
def Log.ofOperations (ops : List Operation) : Log := (ops.flatMap Operation.steps).filterMap Step.placement?

/-- A book apart from the shelf on which it has been placed. -/
def Book.unplaced (b : Book) : Book := { b with shelf := none }

/-- Whether a location is one that a question asks for. -/
def InventoryQuery.admits (q : InventoryQuery) (loc : Location) : Bool :=
  loc.room == q.room && q.row.all (· == loc.row) && q.shelf.all (· == loc.shelf)

namespace Log

/-- The positions whose placement passes a test, each once and in their order. -/
def positions (log : Log) (p : Book → Location → Bool) : List Nat :=
  (List.range log.length).filter fun n => log[n]?.any fun (b, loc) => p b loc

/-- Entries are exactly the placements that pass a test, in their order, with the books as they were logged. -/
def Lists (log : Log) (es : List Entry) (p : Book → Location → Bool) : Prop :=
  es.map Entry.position = log.positions p ∧
    ∀ e ∈ es, ∃ b loc, log[e.position]? = some (b, loc) ∧ e.book.unplaced = b.unplaced

end Log

namespace Library

variable {l : Library} {log : Log}

/-! ## Shelves -/

theorem mem_rowsMatching_iff (h : l.Linked) {room : RoomId} {row : RowId} {number? : Option UInt32} :
    row ∈ l.rowsMatching room number? ↔
      ∃ number, (⟨row, number, room⟩ : Row) ∈ l.rows ∧ number?.all (· == number) = true := by
  cases number? with
  | some number =>
    rw [rowsMatching, Option.mem_toList, h.rowIndex_iff]
    simp
  | none =>
    simp only [rowsMatching, List.mem_map, List.mem_filter, Array.mem_toList_iff, beq_iff_eq,
      Option.all_none, and_true]
    constructor
    · rintro ⟨r, ⟨hr, rfl⟩, rfl⟩
      exact ⟨r.number, hr⟩
    · rintro ⟨number, hr⟩
      exact ⟨_, ⟨hr, rfl⟩, rfl⟩

theorem mem_shelvesOfRow_iff (h : l.Linked) {row : RowId} {id : ShelfId} {number? : Option UInt32} :
    id ∈ l.shelvesOfRow row number? ↔
      ∃ number, (⟨id, number, row⟩ : Shelf) ∈ l.shelves ∧ number?.all (· == number) = true := by
  cases number? with
  | some number =>
    rw [shelvesOfRow, Option.mem_toList, h.shelfIndex_iff]
    simp
  | none =>
    simp only [shelvesOfRow, List.mem_map, List.mem_filter, Array.mem_toList_iff, beq_iff_eq,
      Option.all_none, and_true]
    constructor
    · rintro ⟨s, ⟨hs, rfl⟩, rfl⟩
      exact ⟨s.number, hs⟩
    · rintro ⟨number, hs⟩
      exact ⟨_, ⟨hs, rfl⟩, rfl⟩

/-- **The indexes lead to the shelves that stand at an admitted location**, whichever numbers are given. -/
theorem mem_shelvesMatching_iff (h : l.Linked) {q : InventoryQuery} {id : ShelfId} :
    id ∈ l.shelvesMatching q ↔ ∃ loc, l.StandsAt id loc ∧ q.admits loc = true := by
  constructor
  · intro hid
    cases hroom : l.roomIndex[q.room]? with
    | none => rw [shelvesMatching, hroom] at hid; exact absurd hid List.not_mem_nil
    | some room =>
      rw [shelvesMatching, hroom, List.mem_flatMap] at hid
      obtain ⟨row, hrow, hshelf⟩ := hid
      obtain ⟨rowNumber, hr, hrowNumber⟩ := (mem_rowsMatching_iff h).mp hrow
      obtain ⟨shelfNumber, hs, hshelfNumber⟩ := (mem_shelvesOfRow_iff h).mp hshelf
      refine ⟨⟨q.room, rowNumber, shelfNumber⟩, ⟨room, row, h.roomIndex_iff.mp hroom, hr, hs⟩, ?_⟩
      simp [InventoryQuery.admits, hrowNumber, hshelfNumber]
  · rintro ⟨loc, ⟨room, row, hroom, hrow, hshelf⟩, hadmits⟩
    simp only [InventoryQuery.admits, Bool.and_eq_true, beq_iff_eq] at hadmits
    obtain ⟨⟨hnumber, hrowNumber⟩, hshelfNumber⟩ := hadmits
    rw [shelvesMatching, ← hnumber, h.roomIndex_iff.mpr hroom, List.mem_flatMap]
    exact ⟨row, (mem_rowsMatching_iff h).mpr ⟨_, hrow, hrowNumber⟩,
      (mem_shelvesOfRow_iff h).mpr ⟨_, hshelf, hshelfNumber⟩⟩

/-! ## Representation -/

/-- The books of a library are those of a log, each on a shelf that stands at its location. -/
structure Represents (l : Library) (log : Log) : Prop where
  size : l.books.size = log.length
  book_at : ∀ (n : Nat) (b : Book) (loc : Location), log[n]? = some (b, loc) →
    ∃ id, l.books[n]? = some { b with shelf := some id } ∧ l.StandsAt id loc

theorem represents_empty : empty.Represents [] where
  size := rfl
  book_at := by intro n b loc h; simp at h

/-- A shelf keeps standing where the log has put a book. -/
theorem Represents.of_grows {l' : Library} (h : l.Represents log) (hgrows : l.Grows l')
    (hbooks : l'.books = l.books) : l'.Represents log where
  size := hbooks ▸ h.size
  book_at := by
    intro n b loc hlog
    obtain ⟨id, hbook, hstands⟩ := h.book_at n b loc hlog
    exact ⟨id, hbooks ▸ hbook, hstands.of_grows hgrows⟩

theorem Represents.addBook (h : l.Represents log) {b : Book} {loc : Location} {id : ShelfId}
    (hstands : l.StandsAt id loc) :
    (l.addBook { b with shelf := some id }).Represents (log ++ [(b, loc)]) where
  size := by
    rw [List.length_append, ← h.size]
    exact Array.size_push _
  book_at := by
    intro n b' loc' hlog
    show ∃ id', (l.books.push _)[n]? = _ ∧ l.StandsAt id' loc'
    rw [Array.getElem?_push, h.size]
    by_cases hn : n = log.length
    · -- the new book is the last of the catalog and of the log
      rw [hn, List.getElem?_concat_length] at hlog
      obtain ⟨rfl, rfl⟩ := Prod.mk.inj (Option.some.inj hlog)
      exact ⟨id, if_pos hn, hstands⟩
    · have hlt : n < log.length := by
        have hle := (List.getElem?_eq_some_iff.mp hlog).1
        rw [List.length_append, List.length_singleton] at hle
        omega
      rw [List.getElem?_append_left hlt] at hlog
      rw [if_neg hn]
      exact h.book_at n b' loc' hlog

/-- **A step represents the log with its placement added.** -/
theorem Represents.step (h : l.Represents log) (hl : l.Linked) (s : Step) :
    (l.step s).Represents (log ++ s.placement?.toList) := by
  cases s with
  | resolve loc =>
    rw [Step.placement?, Option.toList_none, List.append_nil]
    exact h.of_grows (grows_resolveShelf l loc) (books_resolveShelf l loc)
  | place b loc =>
    obtain ⟨-, -, hstands⟩ := resolveShelf_spec hl loc
    rw [Library.step, place_eq]
    exact (h.of_grows (grows_resolveShelf l loc) (books_resolveShelf l loc)).addBook hstands

/-- **Steps represent the log of their placements.** -/
theorem represents_foldl_step (ss : List Step) :
    (ss.foldl Library.step empty).Represents (ss.filterMap Step.placement?) := by
  -- the log so far is a prefix, and so the induction is over any library that represents some log
  suffices hfold : ∀ l log, l.Linked → l.Represents log →
      (ss.foldl Library.step l).Represents (log ++ ss.filterMap Step.placement?) from
    hfold empty [] linked_empty represents_empty
  induction ss with
  | nil =>
    intro l log _ h
    rw [List.filterMap_nil, List.append_nil]
    exact h
  | cons s ss ih =>
    intro l log hl h
    have hrest := ih (l.step s) _ (linked_step hl s) (h.step hl s)
    rw [List.append_assoc] at hrest
    rw [List.foldl_cons, List.filterMap_cons]
    cases hs : s.placement? with
    | none => rw [hs] at hrest; exact hrest
    | some p => rw [hs] at hrest; exact hrest

/-- **A run represents its log.** -/
theorem represents_run (ops : List Operation) : (empty.run ops).Represents (Log.ofOperations ops) := by
  rw [run_eq_foldl_step]
  exact represents_foldl_step _

/-- What is selected from the catalog is what the log lists, if the tests agree on placed books. -/
theorem Represents.lists (h : l.Represents log) {p : Book → Bool} {q : Book → Location → Bool}
    (hpq : ∀ b loc id, l.StandsAt id loc → p { b with shelf := some id } = q b loc) :
    log.Lists (l.catalog.filter fun e => p e.book) q := by
  constructor
  · -- both sides go through the same positions
    rw [catalog, map_position_filter_entries, Array.length_toList, h.size, Log.positions]
    apply List.filter_congr
    intro n hn
    obtain ⟨⟨b, loc⟩, hlog⟩ : ∃ entry, log[n]? = some entry :=
      ⟨_, List.getElem?_eq_getElem (List.mem_range.mp hn)⟩
    obtain ⟨id, hbook, hstands⟩ := h.book_at n b loc hlog
    rw [hlog, Array.getElem?_toList, hbook]
    exact hpq b loc id hstands
  · intro e he
    have hmem := mem_entries.mp (List.mem_filter.mp he).1
    obtain ⟨hlt, -⟩ := List.getElem?_eq_some_iff.mp hmem
    rw [Array.length_toList, h.size] at hlt
    obtain ⟨⟨b, loc⟩, hlog⟩ : ∃ entry, log[e.position]? = some entry := ⟨_, List.getElem?_eq_getElem hlt⟩
    obtain ⟨id, hbook, -⟩ := h.book_at _ b loc hlog
    rw [Array.getElem?_toList, hbook] at hmem
    exact ⟨b, loc, hlog, by rw [← Option.some.inj hmem]; rfl⟩

/-- A logged book is in the catalog with the shelf at its location. -/
theorem Represents.mem_catalog (h : l.Represents log) (hl : l.Linked) {n : Nat} {b : Book} {loc : Location}
    {id : ShelfId} (hn : log[n]? = some (b, loc)) (hs : l.StandsAt id loc) :
    ⟨n, { b with shelf := some id }⟩ ∈ l.catalog := by
  obtain ⟨id', hbook, hs'⟩ := h.book_at n b loc hn
  rw [hs'.id_unique hl hs, ← Array.getElem?_toList] at hbook
  exact mem_entries.mpr hbook

/-- Apart from shelves, the books of the library are those of the log. -/
theorem Represents.map_unplaced (h : l.Represents log) :
    l.books.toList.map Book.unplaced = log.map fun (b, _) => b.unplaced := by
  apply List.ext_getElem?
  intro n
  rw [List.getElem?_map, List.getElem?_map, Array.getElem?_toList]
  cases hlog : log[n]? with
  | none =>
    rw [List.getElem?_eq_none_iff, ← h.size] at hlog
    rw [Array.getElem?_eq_none hlog]
    rfl
  | some entry =>
    obtain ⟨b, loc⟩ := entry
    obtain ⟨id, hbook, -⟩ := h.book_at n b loc hlog
    rw [hbook]
    rfl

/-! ## Answers -/

/-- Every question gets the answer that a log gives. -/
structure AnswersLike (l : Library) (log : Log) : Prop where
  size : l.books.size = log.length
  /-- A shelf without a row is refused, and nothing else is. -/
  inventory_error_iff : ∀ q, l.inventory q = .error .shelfWithoutRow ↔ q.shelf.isSome ∧ q.row = none
  /-- Otherwise an inventory lists what was placed at an admitted location. -/
  inventory_lists : ∀ q, ¬(q.shelf.isSome ∧ q.row = none) →
    ∃ es, l.inventory q = .ok es ∧ log.Lists es fun _ loc => q.admits loc
  /-- A search lists the logged books that match, wherever they were placed. -/
  search_lists : ∀ expression,
    log.Lists (l.search expression) fun b _ => (Search.Query.ofText expression).selects b
  searchWith_eq : ∀ expression, l.searchWith (Search.Query.ofText expression) = l.search expression
  /-- The book with an ISBN is the first logged one, and there is one only if one was logged. -/
  findIsbn_eq : ∀ isbn, (l.findIsbn isbn).map Book.unplaced =
    (log.find? fun (b, _) => b.isbn == isbn).map fun (b, _) => b.unplaced

/-- A shelf is among those of an inventory exactly when the location where it stands is admitted. -/
theorem contains_shelvesMatching (h : l.Linked) (hlim : l.WithinLimit) {q : InventoryQuery} {id : ShelfId}
    {loc : Location} (hstands : l.StandsAt id loc) :
    (l.shelvesMatching q).contains id = q.admits loc := by
  rw [Bool.eq_iff_iff, List.contains_iff_mem, mem_shelvesMatching_iff h]
  constructor
  · rintro ⟨loc', hstands', hadmits⟩
    -- only here the limit matters: above it one identifier could stand for two shelves
    rwa [hstands.loc_unique h hlim hstands']
  · intro hadmits
    exact ⟨loc, hstands, hadmits⟩

/-- An inventory is refused for its question alone, whatever the library holds. -/
theorem inventory_eq_error_iff (l : Library) (q : InventoryQuery) :
    l.inventory q = .error .shelfWithoutRow ↔ q.shelf.isSome ∧ q.row = none := by
  rw [inventory, ← Option.isNone_iff_eq_none, ← Bool.and_eq_true]
  by_cases hq : (q.shelf.isSome && q.row.isNone) = true
  · rw [if_pos hq]
    exact iff_of_true rfl hq
  · rw [if_neg hq]
    exact iff_of_false (by simp) hq

/-- An inventory that is not refused selects from the catalog by shelf. -/
theorem inventory_eq_ok {q : InventoryQuery} (hq : ¬(q.shelf.isSome ∧ q.row = none)) :
    l.inventory q = .ok (l.entriesOn (l.shelvesMatching q)) := by
  rw [← Option.isNone_iff_eq_none, ← Bool.and_eq_true] at hq
  exact if_neg hq

/-- An inventory that is not refused has what it selects for a result, and only such a one has any. -/
theorem inventory_eq_ok_iff {q : InventoryQuery} {es : List Entry} :
    l.inventory q = .ok es ↔ ¬(q.shelf.isSome ∧ q.row = none) ∧ l.entriesOn (l.shelvesMatching q) = es := by
  constructor
  · intro hes
    have hq : ¬(q.shelf.isSome ∧ q.row = none) := by
      intro hrefused
      rw [(inventory_eq_error_iff l q).mpr hrefused] at hes
      cases hes
    rw [inventory_eq_ok hq] at hes
    exact ⟨hq, Except.ok.inj hes⟩
  · rintro ⟨hq, rfl⟩
    exact inventory_eq_ok hq

/-- The first book with an ISBN is the first logged one. -/
theorem Represents.findIsbn_eq (h : l.Represents log) (isbn : String) :
    (l.findIsbn isbn).map Book.unplaced =
      (log.find? fun (b, _) => b.isbn == isbn).map fun (b, _) => b.unplaced := by
  -- the test looks at no shelf, and so it commutes with forgetting shelves
  have hunplaced : (fun b : Book => b.isbn == isbn) = (fun b => b.isbn == isbn) ∘ Book.unplaced := rfl
  rw [findIsbn, ← Array.find?_toList, hunplaced, ← List.find?_map, h.map_unplaced, List.find?_map]
  rfl

/-- **Within the limit, a library answers every question like the log of its run.** -/
theorem run_answersLike_log (ops : List Operation) (hlim : (empty.run ops).WithinLimit) :
    (empty.run ops).AnswersLike (Log.ofOperations ops) := by
  have hrep := represents_run ops
  have hlinked : (empty.run ops).Linked := Reachable.linked ⟨ops, rfl⟩
  refine ⟨hrep.size, inventory_eq_error_iff _, ?_, ?_, fun _ => rfl, hrep.findIsbn_eq⟩
  · intro q hq
    refine ⟨_, inventory_eq_ok hq, ?_⟩
    apply hrep.lists (p := fun b => b.shelf.any ((empty.run ops).shelvesMatching q).contains)
    intro b loc id hstands
    exact contains_shelvesMatching hlinked hlim hstands
  · intro expression
    exact hrep.lists fun _ _ _ _ => rfl

theorem sample_answersLike_log :
    (empty.run Operation.sample).WithinLimit ∧
      (empty.run Operation.sample).AnswersLike (Log.ofOperations Operation.sample) := by
  have hlim := withinLimit_run Operation.sample (by decide +kernel)
  exact ⟨hlim, run_answersLike_log Operation.sample hlim⟩

end Library

end LibraryCatalog
