import LibraryCatalog.Proofs.Library.Address

/-!
# `LibraryCatalog.Proofs.Library.Ingestion` — a text of books is placed as a whole or not at all

Whether a text can be read is settled before anything is placed. If it can, its books go to one location, which is
resolved for the first of them and found again for the others: so the library is the one with the location resolved
and the books appended, and a text without books does not even resolve the location.

## Contents
- **Appending.** `addBooks`.
- **Placing.** `placeAll_of_standsAt` where the shelf is there, `placeAll_of_ne_nil` wherever it is, `placeAll_spec`.
- **One by one.** `run_place`: placing a list is a run of placing its books.
- **Ingesting.** `Reachable.ingest_all_or_nothing`.
-/

namespace LibraryCatalog.Library

variable {l : Library} {id : ShelfId} {loc : Location} {bs : List Book}

/-! ## Appending -/

/-- A book on a shelf. -/
def onShelf (id : ShelfId) (b : Book) : Book := { b with shelf := some id }

/-- The library with more books. -/
def addBooks (l : Library) (bs : List Book) : Library := { l with books := l.books ++ bs.toArray }

theorem addBooks_nil (l : Library) : l.addBooks [] = l := by
  rw [addBooks, Array.append_empty]

theorem addBooks_cons (l : Library) (b : Book) (bs : List Book) : l.addBooks (b :: bs) = (l.addBook b).addBooks bs := by
  have hbooks : l.books ++ (b :: bs).toArray = l.books.push b ++ bs.toArray := by
    rw [← Array.toList_inj]
    simp
  rw [addBooks, hbooks]
  rfl

theorem getElem?_addBooks (l : Library) (bs : List Book) (k : Nat) :
    (l.addBooks bs).book? (l.books.size + k) = bs[k]? := by
  rw [book?, addBooks, Array.getElem?_append_right (Nat.le_add_right _ _), Nat.add_sub_cancel_left]
  exact List.getElem?_toArray

/-- More books leave the shelves where they stand. -/
theorem StandsAt.addBooks (hs : l.StandsAt id loc) (bs : List Book) : (l.addBooks bs).StandsAt id loc := hs

/-! ## Placing -/

theorem place_of_standsAt (h : l.Linked) (hs : l.StandsAt id loc) (b : Book) :
    l.place b loc = (l.books.size, l.addBook (onShelf id b)) := by
  have hresolve := resolveShelf_of_standsAt h hs
  rw [place, hresolve]
  rfl

/-- **Books that go where a shelf stands** are appended to the catalog, on that shelf, and nothing else changes. -/
theorem placeAll_of_standsAt (h : l.Linked) (hs : l.StandsAt id loc) (bs : List Book) :
    l.placeAll loc bs = (List.range' l.books.size bs.length, l.addBooks (bs.map (onShelf id))) := by
  induction bs generalizing l with
  | nil => rw [placeAll, List.map_nil, addBooks_nil, List.length_nil, List.range'_zero]
  | cons b bs ih =>
    obtain ⟨room, row, hroom, hrow, hshelf⟩ := hs
    have hlinked : (l.addBook (onShelf id b)).Linked := h.addBook ⟨_, hshelf, rfl⟩
    have hstands : (l.addBook (onShelf id b)).StandsAt id loc := ⟨room, row, hroom, hrow, hshelf⟩
    have hsize : (l.addBook (onShelf id b)).books.size = l.books.size + 1 := Array.size_push _
    rw [placeAll, place_of_standsAt h ⟨room, row, hroom, hrow, hshelf⟩]
    show (l.books.size :: ((l.addBook (onShelf id b)).placeAll loc bs).1,
      ((l.addBook (onShelf id b)).placeAll loc bs).2) = _
    rw [ih hlinked hstands, hsize, List.map_cons, addBooks_cons, List.length_cons, List.range'_succ]

/-- **Books that go to one location** find it as the first of them leaves it. -/
theorem placeAll_of_ne_nil (h : l.Linked) (loc : Location) (hne : bs ≠ []) :
    l.placeAll loc bs = (List.range' l.books.size bs.length,
      (l.resolveShelf loc).2.addBooks (bs.map (onShelf (l.resolveShelf loc).1))) := by
  obtain ⟨b, bs, rfl⟩ := List.exists_cons_of_ne_nil hne
  obtain ⟨hlinked, -, hstands⟩ := resolveShelf_spec h loc
  have hbooks := books_resolveShelf l loc
  obtain ⟨id, l', hresolve⟩ : ∃ id l', l.resolveShelf loc = (id, l') := ⟨_, _, rfl⟩
  rw [hresolve] at hlinked hstands hbooks ⊢
  -- placing the first book from here or from the resolved library is the same
  have hsame : l.place b loc = l'.place b loc := by
    rw [place, hresolve, place_of_standsAt hlinked hstands]
    rfl
  rw [placeAll, hsame, ← hbooks, ← placeAll_of_standsAt hlinked hstands (b :: bs), placeAll]

/-- What placing books gives, whether there are any: their positions follow those of the catalog, and there they stand
on the shelf of the location. -/
theorem placeAll_spec (h : l.Linked) (loc : Location) (bs : List Book) :
    (l.placeAll loc bs).1 = List.range' l.books.size bs.length ∧
      ∀ k, (l.placeAll loc bs).2.book? (l.books.size + k) = bs[k]?.map (onShelf (l.resolveShelf loc).1) := by
  by_cases hnil : bs = []
  · subst hnil
    refine ⟨rfl, fun k => ?_⟩
    rw [placeAll, book?, Array.getElem?_eq_none (Nat.le_add_right _ _)]
    rfl
  · rw [placeAll_of_ne_nil h loc hnil]
    refine ⟨rfl, fun k => ?_⟩
    rw [← books_resolveShelf l loc, getElem?_addBooks, List.getElem?_map]

/-! ## One by one -/

/-- **Placing a list of books** is a run of placing each of them. -/
theorem run_place (l : Library) (loc : Location) (bs : List Book) :
    l.run (bs.map (.place · loc)) = (l.placeAll loc bs).2 := by
  rw [placeAll_eq_foldl_step, run_eq_foldl_step, Step.placing, List.flatMap_map, ← List.flatMap_singleton' (bs.map _)]
  rw [List.flatMap_map]
  rfl

/-! ## Ingesting -/

/-- **A text with an offence changes nothing, and a text of books places them all.** The library is then the one after
placing them one by one. The positions follow those of the catalog, and the books there are those of the text on the
shelf of the location, which is the shelf that the location has from then on. A text without books changes nothing
either. -/
theorem Reachable.ingest_all_or_nothing (h : l.Reachable) (text : String) (loc : Location) :
    (∀ e, Book.read text = .error e →
      l.ingest text loc = .error e ∧ l.apply (.ingest text loc) = l) ∧
    ∀ bs, Book.read text = .ok bs →
      ∃ l', l.ingest text loc = .ok (List.range' l.books.size bs.length, l') ∧
        l.apply (.ingest text loc) = l' ∧
        l' = l.run (bs.map (.place · loc)) ∧
        (∀ k, l'.book? (l.books.size + k) = bs[k]?.map fun b => { b with shelf := some (l.resolveShelf loc).1 }) ∧
        (bs ≠ [] → l'.StandsAt (l.resolveShelf loc).1 loc ∧ l'.resolveShelf loc = ((l.resolveShelf loc).1, l')) ∧
        (bs = [] → l' = l) := by
  constructor
  · intro e he
    have hingest : l.ingest text loc = .error e := by
      rw [ingest, he]
      rfl
    refine ⟨hingest, ?_⟩
    rw [apply, hingest]
  · intro bs hbs
    have hingest : l.ingest text loc = .ok (l.placeAll loc bs) := by
      rw [ingest, hbs]
      rfl
    have hrun := run_place l loc bs
    have hlinked : (l.placeAll loc bs).2.Linked := by
      rw [← hrun]
      exact (h.run _).linked
    obtain ⟨hpositions, hbooks⟩ := placeAll_spec h.linked loc bs
    refine ⟨(l.placeAll loc bs).2, ?_, ?_, hrun.symm, hbooks, ?_, ?_⟩
    · rw [hingest, ← hpositions]
    · rw [apply, hingest]
    · intro hne
      have hstands : (l.placeAll loc bs).2.StandsAt (l.resolveShelf loc).1 loc := by
        rw [placeAll_of_ne_nil h.linked loc hne]
        exact (resolveShelf_spec h.linked loc).2.2.addBooks _
      exact ⟨hstands, resolveShelf_of_standsAt hlinked hstands⟩
    · rintro rfl
      rw [placeAll]

/-- A library with a shelf at the location already, a text with an offence in its second book, and a text of two
books. -/
theorem sample_ingest :
    (empty.run Operation.sample).Reachable ∧
      (empty.run Operation.sample).apply (.ingest "Book\nTitle: A\nBook\nTitel: B" ⟨2, 1, 0⟩) =
        empty.run Operation.sample ∧
      (empty.run Operation.sample).apply (.ingest "Book\nTitle: A\nBook\nTitle: B" ⟨2, 1, 0⟩) =
        (empty.run Operation.sample).run
          [.place { Book.blank with title := "A" } ⟨2, 1, 0⟩, .place { Book.blank with title := "B" } ⟨2, 1, 0⟩] := by
  have hreach : (empty.run Operation.sample).Reachable := ⟨_, rfl⟩
  have hbad : Book.read "Book\nTitle: A\nBook\nTitel: B" = .error ⟨4, .unknownKey "Titel"⟩ := by rfl
  have hgood : Book.read "Book\nTitle: A\nBook\nTitle: B" =
      .ok [{ Book.blank with title := "A" }, { Book.blank with title := "B" }] := by rfl
  obtain ⟨l', -, happly, hrun, -⟩ := (hreach.ingest_all_or_nothing _ ⟨2, 1, 0⟩).2 _ hgood
  exact ⟨hreach, ((hreach.ingest_all_or_nothing _ ⟨2, 1, 0⟩).1 _ hbad).2, happly.trans hrun⟩

end LibraryCatalog.Library
