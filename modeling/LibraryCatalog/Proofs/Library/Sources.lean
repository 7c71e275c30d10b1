import LibraryCatalog.Proofs.Library.Allocation

/-!
# `LibraryCatalog.Proofs.Library.Sources` — record files, one after the other

Whether record files can be loaded depends on the files alone: the first that fails, in their order, is reported,
and if there is none, every record is placed. What the library then holds is the log of all records with the
location of their file.

## Contents
- **Failing.** `Files.FirstFails`, and `loadAll_snd_eq_error_iff`, `loadAll_snd_eq_ok_iff`.
- **Dividing.** `loadAll_append`, two lists of record files one after the other, and `loadAll_congr`.
- **Records.** `Log.ofSources`, the records of some files, and `firstUses`, the locations of the files with records.
- **Holding.** `represents_loadAll` for the books; `Holds`, a library that holds a log and nothing else, and
  `holds_loadAll`, `loadAll_empty_holds`.
-/

namespace LibraryCatalog

/-! ## Failing -/

/-- Some record file fails, and all before it are good. -/
def Files.FirstFails (files : Files) (sources : List ShelfSource) (e : LoadError) : Prop :=
  ∃ before s after, sources = before ++ s :: after ∧ (∀ s' ∈ before, ∃ bs, files.books s'.file = .ok bs) ∧
    files.books s.file = .error e

namespace Library

variable {l : Library} {files files' : Files} {s : ShelfSource} {ss : List ShelfSource} {e : LoadError}

theorem loadAll_cons_of_ok {bs : List Book} (h : files.books s.file = .ok bs) :
    l.loadAll files (s :: ss) = (l.placeAll s.location bs).2.loadAll files ss := by
  rw [loadAll, loadFile_eq_map, h]
  rfl

theorem loadAll_cons_of_error (h : files.books s.file = .error e) :
    l.loadAll files (s :: ss) = (l, .error e) := by
  rw [loadAll, loadFile_eq_map, h]
  rfl

/-- **Good record files are all loaded**, into whatever library. -/
theorem loadAll_snd_eq_ok_iff : (l.loadAll files ss).2 = .ok () ↔ ∀ s ∈ ss, ∃ bs, files.books s.file = .ok bs := by
  induction ss generalizing l with
  | nil => exact iff_of_true rfl nofun
  | cons s ss ih =>
    rw [List.forall_mem_cons]
    cases h : files.books s.file with
    | error e =>
      rw [loadAll_cons_of_error h]
      exact iff_of_false nofun (fun hall => nomatch hall.1)
    | ok bs =>
      rw [loadAll_cons_of_ok h, ih]
      exact (and_iff_right ⟨bs, rfl⟩).symm

/-- **The first record file that fails is reported**, whatever the library holds. -/
theorem loadAll_snd_eq_error_iff : (l.loadAll files ss).2 = .error e ↔ files.FirstFails ss e := by
  induction ss generalizing l with
  | nil =>
    refine iff_of_false nofun ?_
    rintro ⟨before, s, after, hsplit, -, -⟩
    exact absurd hsplit.symm (by simp)
  | cons s ss ih =>
    cases h : files.books s.file with
    | error e' =>
      rw [loadAll_cons_of_error h]
      constructor
      · intro he
        obtain rfl := Except.error.inj he
        exact ⟨[], s, ss, rfl, nofun, h⟩
      · rintro ⟨before, s', after, hsplit, hgood, hbad⟩
        cases before with
        | nil =>
          obtain ⟨rfl, rfl⟩ := List.cons.inj hsplit
          rw [h] at hbad
          exact congrArg Except.error (Except.error.inj hbad)
        | cons s'' before =>
          -- the file that fails here would be one of the good ones
          obtain ⟨rfl, -⟩ := List.cons.inj hsplit
          obtain ⟨bs, hbs⟩ := hgood s List.mem_cons_self
          rw [h] at hbs
          cases hbs
    | ok bs =>
      rw [loadAll_cons_of_ok h, ih]
      constructor
      · rintro ⟨before, s', after, rfl, hgood, hbad⟩
        exact ⟨s :: before, s', after, rfl, List.forall_mem_cons.mpr ⟨⟨bs, h⟩, hgood⟩, hbad⟩
      · rintro ⟨before, s', after, hsplit, hgood, hbad⟩
        cases before with
        | nil =>
          obtain ⟨rfl, rfl⟩ := List.cons.inj hsplit
          rw [h] at hbad
          cases hbad
        | cons s'' before =>
          obtain ⟨rfl, rfl⟩ := List.cons.inj hsplit
          exact ⟨before, s', after, rfl, (List.forall_mem_cons.mp hgood).2, hbad⟩

/-! ## Dividing -/

/-- **Two lists of record files** are loaded one after the other, the second only if the first does not fail. -/
theorem loadAll_append (l : Library) (files : Files) (ss ss' : List ShelfSource) :
    l.loadAll files (ss ++ ss') =
      match l.loadAll files ss with
      | (l', .ok _) => l'.loadAll files ss'
      | (l', .error e) => (l', .error e) := by
  induction ss generalizing l with
  | nil => rfl
  | cons s ss ih =>
    rw [List.cons_append]
    cases h : files.books s.file with
    | error e => rw [loadAll_cons_of_error h, loadAll_cons_of_error h]
    | ok bs => rw [loadAll_cons_of_ok h, loadAll_cons_of_ok h, ih]

/-- Loading depends on what the record files hold and on nothing else of the file system. -/
theorem loadAll_congr (h : ∀ s ∈ ss, files.books s.file = files'.books s.file) :
    l.loadAll files ss = l.loadAll files' ss := by
  induction ss generalizing l with
  | nil => rfl
  | cons s ss ih =>
    obtain ⟨hs, hss⟩ := List.forall_mem_cons.mp h
    rw [loadAll, loadAll, loadFile_eq_map, loadFile_eq_map, hs]
    cases files'.books s.file with
    | error e => rfl
    | ok bs => exact ih hss

end Library

/-! ## Records -/

/-- The records of some files, each with the location of its file. -/
def Log.ofSources (content : String → List Book) (sources : List ShelfSource) : Log :=
  sources.flatMap fun s => (content s.file).map fun b => (b, s.location)

/-- The locations of a log, each once, in the order of their first use. -/
def Log.locations (log : Log) : List Location := (log.map Prod.snd).eraseDups

/-- The locations of the files that hold a record, each once, in the order of the first such file. -/
def firstUses (content : String → List Book) (sources : List ShelfSource) : List Location :=
  ((sources.filter fun s => !(content s.file).isEmpty).map ShelfSource.location).eraseDups

variable {files : Files} {content : String → List Book} {sources : List ShelfSource}

/-- Good record files have contents, which depend on their paths alone. -/
theorem Files.exists_content (h : ∀ s ∈ sources, ∃ bs, files.books s.file = .ok bs) :
    ∃ content : String → List Book, ∀ s ∈ sources, files.books s.file = .ok (content s.file) := by
  refine ⟨fun path => (files.books path).toOption.getD [], fun s hs => ?_⟩
  obtain ⟨bs, hbs⟩ := h s hs
  simp only [hbs]
  rfl

/-- Good record files are loaded by placing their records. -/
theorem Step.loading_eq_map (h : ∀ s ∈ sources, files.books s.file = .ok (content s.file)) :
    Step.loading files sources = (Log.ofSources content sources).map fun (b, loc) => .place b loc := by
  induction sources with
  | nil => rfl
  | cons s ss ih =>
    obtain ⟨hs, hss⟩ := List.forall_mem_cons.mp h
    rw [loading, hs, Log.ofSources, List.flatMap_cons, List.map_append, List.map_map]
    exact congrArg (Step.placing s.location (content s.file) ++ ·) (ih hss)

/-- **The distinct locations of a log** are those of the files with records. -/
theorem locations_ofSources (content : String → List Book) (sources : List ShelfSource) :
    (Log.ofSources content sources).locations = firstUses content sources := by
  -- what stands before does not matter, and so the induction is over any two fronts with the same entries
  suffices hfront : ∀ as as' : List Location, as.eraseDups = as'.eraseDups →
      (as ++ (Log.ofSources content sources).map Prod.snd).eraseDups =
        (as' ++ (sources.filter fun s => !(content s.file).isEmpty).map ShelfSource.location).eraseDups from
    hfront [] [] rfl
  induction sources with
  | nil =>
    intro as as' h
    exact eraseDups_append_congr h []
  | cons s ss ih =>
    intro as as' h
    rw [Log.ofSources, List.flatMap_cons, List.map_append, ← List.append_assoc]
    cases hrecords : content s.file with
    | nil =>
      rw [List.filter_cons, hrecords, List.map_nil, List.map_nil, List.append_nil]
      exact ih as as' h
    | cons b bs =>
      have hsame : ∀ loc ∈ ((b :: bs).map fun b => (b, s.location)).map Prod.snd, loc = s.location := by
        simp
      have hkept : ((s :: ss).filter fun s => !(content s.file).isEmpty).map ShelfSource.location =
          [s.location] ++ (ss.filter fun s => !(content s.file).isEmpty).map ShelfSource.location := by
        rw [List.filter_cons, hrecords]
        rfl
      rw [hkept, ← List.append_assoc]
      refine ih _ _ ?_
      rw [eraseDups_append_of_forall_eq hsame (by simp)]
      exact eraseDups_append_congr h _

theorem length_firstUses_le (content : String → List Book) (sources : List ShelfSource) :
    (firstUses content sources).length ≤ sources.length := by
  refine Nat.le_trans (length_eraseDups_le _) ?_
  rw [List.length_map]
  exact List.length_filter_le _ _

/-! ## Holding -/

/-- A book of a log on the shelf whose number is the rank of its location. -/
def Log.shelve (log : Log) : Book × Location → Book
  | (b, loc) => { b with shelf := some (Library.rankId log.locations loc) }

/-- The records of some files on the shelves of a log. -/
theorem Log.map_shelve_ofSources (log : Log) (content : String → List Book) (sources : List ShelfSource) :
    (Log.ofSources content sources).map log.shelve =
      sources.flatMap fun s => (content s.file).map fun b =>
        { b with shelf := some (Library.rankId log.locations s.location) } := by
  rw [ofSources, List.map_flatMap]
  simp only [List.map_map]
  rfl

namespace Library

variable {l : Library} {log : Log}

/-- A library holds a log and nothing else: its books are the logged ones, its shelves stand at their locations in the
    order of first use, and there are identifiers for all of them. -/
structure Holds (l : Library) (log : Log) : Prop where
  linked : l.Linked
  withinLimit : l.WithinLimit
  represents : l.Represents log
  allocates : l.Allocates (log.map Prod.snd)

/-- **The catalog is the log**, with every book on its shelf. -/
theorem Holds.toList_books (h : l.Holds log) : l.books.toList = log.map log.shelve := by
  refine h.represents.toList_books h.allocates h.linked fun p hp => ?_
  exact List.mem_map_of_mem hp

theorem Holds.size_shelves (h : l.Holds log) : l.shelves.size = log.locations.length := h.allocates.size

/-- **Shelves stand at the logged locations** and nowhere else. -/
theorem Holds.standsAt_iff (h : l.Holds log) {loc : Location} : (∃ id, l.StandsAt id loc) ↔ loc ∈ log.locations := by
  rw [Log.locations, List.mem_eraseDups]
  exact ⟨fun ⟨_, hid⟩ => h.allocates.mem_of_standsAt h.linked h.withinLimit hid,
    fun hloc => ⟨_, h.allocates.standsAt_rankId hloc⟩⟩

/-- The shelf of a logged book is found where the book was placed. -/
theorem Holds.locationOf_rankId (h : l.Holds log) {b : Book} {loc : Location} (hmem : (b, loc) ∈ log) :
    l.locationOf (rankId log.locations loc) = some loc := by
  rw [locationOf_eq_some_iff h.linked h.withinLimit]
  exact h.allocates.standsAt_rankId (List.mem_map_of_mem hmem)

/-- **What is selected from the catalog** is what is selected from the log, if the tests agree on placed books. -/
theorem Holds.map_book_filter (h : l.Holds log) {p : Book → Bool} {q : Book × Location → Bool}
    (hpq : ∀ x ∈ log, p (log.shelve x) = q x) :
    (l.catalog.filter fun e => p e.book).map Entry.book = (log.filter q).map log.shelve := by
  rw [catalog, map_book_filter_entries, h.toList_books, List.filter_map]
  exact congrArg (List.map log.shelve) (List.filter_congr hpq)

/-- The books that an inventory asks for are those that were logged at an admitted location. -/
theorem Holds.map_book_entriesOn (h : l.Holds log) (q : InventoryQuery) :
    (l.entriesOn (l.shelvesMatching q)).map Entry.book = (log.filter fun x => q.admits x.2).map log.shelve := by
  refine h.map_book_filter (p := fun b => b.shelf.any (l.shelvesMatching q).contains) ?_
  rintro ⟨b, loc⟩ hx
  have hstands := h.allocates.standsAt_rankId (List.mem_map_of_mem hx)
  exact contains_shelvesMatching h.linked h.withinLimit hstands

/-- Loading good record files is placing their records. -/
theorem loadAll_eq_foldl_place (h : ∀ s ∈ sources, files.books s.file = .ok (content s.file)) :
    (empty.loadAll files sources).1 =
      ((Log.ofSources content sources).map fun (b, loc) => Step.place b loc).foldl step empty := by
  rw [loadAll_eq_foldl_step, Step.loading_eq_map h]

theorem filterMap_placement (log : Log) :
    (log.map fun (b, loc) => Step.place b loc).filterMap Step.placement? = log := by
  rw [List.filterMap_map]
  exact List.filterMap_some

/-- **The books of good record files** are those that a library holds after loading them. -/
theorem represents_loadAll (h : ∀ s ∈ sources, files.books s.file = .ok (content s.file)) :
    (empty.loadAll files sources).1.Represents (Log.ofSources content sources) := by
  have hrepresents := represents_foldl_step ((Log.ofSources content sources).map fun (b, loc) => Step.place b loc)
  rwa [filterMap_placement, ← loadAll_eq_foldl_place h] at hrepresents

/-- No book has an ISBN exactly if no good record file holds one that has it. -/
theorem findIsbn_loadAll_eq_none_iff (h : ∀ s ∈ sources, files.books s.file = .ok (content s.file)) (isbn : String) :
    (empty.loadAll files sources).1.findIsbn isbn = none ↔ ∀ s ∈ sources, ∀ b ∈ content s.file, b.isbn ≠ isbn := by
  rw [← Option.map_eq_none_iff, (represents_loadAll h).findIsbn_eq, Option.map_eq_none_iff, List.find?_eq_none]
  simp only [Log.ofSources, List.mem_flatMap, List.mem_map, beq_iff_eq]
  constructor
  · intro hnone s hs b hb
    exact hnone (b, s.location) ⟨s, hs, b, hb, rfl⟩
  · rintro hnone _ ⟨s, hs, b, hb, rfl⟩
    exact hnone s hs b hb

/-- Good record files use the locations of their records. -/
theorem followsUses_loadAll (h : ∀ s ∈ sources, files.books s.file = .ok (content s.file))
    (hlim : (empty.loadAll files sources).1.WithinLimit) :
    (empty.loadAll files sources).1.FollowsUses ((Log.ofSources content sources).map Prod.snd) := by
  rw [loadAll_eq_foldl_place h] at hlim ⊢
  have huses := followsUses_empty.foldl_step linked_empty hlim
  rw [List.nil_append, List.map_map] at huses
  exact huses

/-- Loading keeps the links of a library, also when it fails. -/
theorem linked_loadAll (files : Files) (sources : List ShelfSource) : (empty.loadAll files sources).1.Linked := by
  rw [loadAll_eq_foldl_step]
  exact linked_foldl_step linked_empty _

/-- **Good record files fill a library** with their records, if there are identifiers for all places. -/
theorem holds_loadAll (h : ∀ s ∈ sources, files.books s.file = .ok (content s.file))
    (hlim : (empty.loadAll files sources).1.WithinLimit) :
    (empty.loadAll files sources).1.Holds (Log.ofSources content sources) := by
  have hlinked := linked_loadAll files sources
  exact ⟨hlinked, hlim, represents_loadAll h, (followsUses_loadAll h hlim).allocates hlinked hlim⟩

/-- There are identifiers for all places if there are as many as locations of the records. -/
theorem withinLimit_loadAll (h : ∀ s ∈ sources, files.books s.file = .ok (content s.file))
    (hcount : (Log.ofSources content sources).locations.length ≤ Identifier.limit) :
    (empty.loadAll files sources).1.WithinLimit := by
  rw [loadAll_eq_foldl_place h]
  refine withinLimit_foldl_step ?_
  rw [List.map_map]
  exact hcount

/-- Good record files fill a library with their records, if there are identifiers for as many locations. -/
theorem loadAll_empty_holds (h : ∀ s ∈ sources, files.books s.file = .ok (content s.file))
    (hcount : sources.length ≤ Identifier.limit) :
    ∃ l, empty.loadAll files sources = (l, .ok ()) ∧ l.Holds (Log.ofSources content sources) := by
  have hok : (empty.loadAll files sources).2 = .ok () :=
    loadAll_snd_eq_ok_iff.mpr fun s hs => ⟨content s.file, h s hs⟩
  have hlength := Nat.le_trans (length_firstUses_le content sources) hcount
  rw [← locations_ofSources] at hlength
  exact ⟨_, Prod.ext rfl hok, holds_loadAll h (withinLimit_loadAll h hlength)⟩

end Library

end LibraryCatalog
