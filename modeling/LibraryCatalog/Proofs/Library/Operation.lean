import LibraryCatalog.Library.Loading

/-!
# `LibraryCatalog.Proofs.Library.Operation` — runs of a library, taken apart into steps

A library changes through five operations, some of which can fail. Whether one fails, and after which books,
depends on texts and files alone and never on the library. An operation is therefore a list of **steps**, each of
which resolves one location or places one book, and what every step keeps is kept by every run.

## Contents
- **Operations.** `Operation`, `Library.apply`, and runs of them: `Library.run`, `Library.Reachable`.
- **Steps.** `Step`, `Library.step`, and `Operation.steps`, the steps of an operation.
- **Taking apart.** `apply_eq_foldl_step`, `run_eq_foldl_step`, and the induction `run_induction`.
-/

namespace LibraryCatalog

/-! ## Operations -/

/-- A call that can change a library. -/
inductive Operation where
  | resolve (loc : Location)
  | place (b : Book) (loc : Location)
  | ingest (text : String) (loc : Location)
  | loadFile (files : Files) (s : ShelfSource)
  | populate (files : Files) (c : Configuration)

/-- A short run: a book that comes with a shelf from elsewhere, a text with an offence, a further room, and two
    files of which only the first can be read. -/
def Operation.sample : List Operation :=
  let files : Files := ⟨fun path => if path = "a" then .ok "Book\nTitle: A" else .error .notFound, fun _ => true⟩
  [.place { Book.blank with shelf := some (.ofPosition 6) } ⟨1, 1, 1⟩, .ingest "Title: A" ⟨5, 5, 5⟩,
    .resolve ⟨2, 1, 0⟩, .populate files ⟨none, [⟨⟨1, 2, 1⟩, "a"⟩, ⟨⟨7, 7, 7⟩, "b"⟩]⟩]

namespace Library

/-- The library after an operation. A failure leaves what was done before it. -/
def apply (l : Library) : Operation → Library
  | .resolve loc => (l.resolveShelf loc).2
  | .place b loc => (l.place b loc).2
  | .ingest text loc =>
    match l.ingest text loc with
    | .ok (_, l') => l'
    | .error _ => l
  | .loadFile files s =>
    match l.loadFile files s with
    | .ok (_, l') => l'
    | .error _ => l
  | .populate files c => (l.populate files c).1

/-- The library after operations, one after the other. -/
def run (l : Library) (ops : List Operation) : Library := ops.foldl apply l

/-- A library that some run brings about. -/
def Reachable (l : Library) : Prop := ∃ ops, empty.run ops = l

end Library

/-! ## Steps -/

/-- The smallest change of a library: a location is resolved, or one book is placed. -/
inductive Step where
  | resolve (loc : Location)
  | place (b : Book) (loc : Location)

/-- The location that a step resolves. -/
def Step.location : Step → Location
  | .resolve loc => loc
  | .place _ loc => loc

/-- The library after a step. -/
def Library.step (l : Library) : Step → Library
  | .resolve loc => (l.resolveShelf loc).2
  | .place b loc => (l.place b loc).2

/-- The steps that place books at one location. -/
def Step.placing (loc : Location) (bs : List Book) : List Step := bs.map (.place · loc)

/-- The books of a text; none if the text has an offence. -/
def Book.ofText (text : String) : List Book := (Book.read text).toOption.getD []

/-- The books of a record file, or why they cannot be had. -/
def Files.books (files : Files) (path : String) : Except LoadError (List Book) := do
  let text ← files.recordText path
  (Book.read text).mapError .format

theorem Files.books_congr {files files' : Files} {path : String} (h : files.read path = files'.read path) :
    files.books path = files'.books path := by
  rw [books, books, recordText, recordText, h]

/-- The steps of loading record files: those of all files before the first that fails. -/
def Step.loading (files : Files) : List ShelfSource → List Step
  | [] => []
  | s :: ss =>
    match files.books s.file with
    | .ok bs => Step.placing s.location bs ++ Step.loading files ss
    | .error _ => []

/-- The steps of an operation. -/
def Operation.steps : Operation → List Step
  | .resolve loc => [.resolve loc]
  | .place b loc => [.place b loc]
  | .ingest text loc => Step.placing loc (Book.ofText text)
  | .loadFile files s => Step.loading files [s]
  | .populate files c => Step.loading files c.shelves

/-! ## Taking apart -/

namespace Library

variable {l : Library}

/-- Placing a list of books takes one step for each. -/
theorem placeAll_eq_foldl_step (l : Library) (loc : Location) (bs : List Book) :
    (l.placeAll loc bs).2 = (Step.placing loc bs).foldl step l := by
  induction bs generalizing l with
  | nil => rfl
  | cons b bs ih => exact ih (l.place b loc).2

/-- Loading a file places the books that it holds. -/
theorem loadFile_eq_map (l : Library) (files : Files) (s : ShelfSource) :
    l.loadFile files s = (files.books s.file).map (l.placeAll s.location) := by
  unfold loadFile Files.books ingest
  cases files.recordText s.file with
  | error e => rfl
  | ok text =>
    -- placing concerns the books alone and wrapping the offence alone, in either order
    show ((Book.read text).map _).mapError _ = ((Book.read text).mapError _).map _
    cases Book.read text <;> rfl

/-- Loading record files takes the steps of loading. -/
theorem loadAll_eq_foldl_step (l : Library) (files : Files) (ss : List ShelfSource) :
    (l.loadAll files ss).1 = (Step.loading files ss).foldl step l := by
  induction ss generalizing l with
  | nil => rfl
  | cons s ss ih =>
    rw [loadAll, loadFile_eq_map, Step.loading]
    cases files.books s.file with
    | error e => rfl
    | ok bs =>
      rw [List.foldl_append, ← placeAll_eq_foldl_step]
      exact ih _

/-- **An operation is the list of its steps**, whatever the library is and whether or not it fails. -/
theorem apply_eq_foldl_step (l : Library) (op : Operation) :
    l.apply op = op.steps.foldl step l := by
  cases op with
  | resolve loc => rfl
  | place b loc => rfl
  | ingest text loc =>
    rw [apply, ingest, Operation.steps, Book.ofText]
    cases Book.read text with
    | error e => rfl
    | ok bs => exact placeAll_eq_foldl_step l loc bs
  | loadFile files s =>
    rw [Operation.steps, ← loadAll_eq_foldl_step, apply, loadAll]
    cases l.loadFile files s with
    | error e => rfl
    | ok r => rfl
  | populate files c => exact loadAll_eq_foldl_step l files c.shelves

/-- **A run is the list of the steps of its operations.** -/
theorem run_eq_foldl_step (l : Library) (ops : List Operation) :
    l.run ops = (ops.flatMap Operation.steps).foldl step l := by
  induction ops generalizing l with
  | nil => rfl
  | cons op ops ih =>
    rw [List.flatMap_cons, List.foldl_append, ← apply_eq_foldl_step, ← ih]
    rfl

/-- What every step keeps is kept by every run. -/
theorem run_induction {P : Library → Prop} (hstep : ∀ l s, P l → P (l.step s)) (h : P l)
    (ops : List Operation) : P (l.run ops) := by
  rw [run_eq_foldl_step]
  generalize ops.flatMap Operation.steps = ss
  induction ss generalizing l with
  | nil => exact h
  | cons s ss ih => exact ih (hstep l s h)

/-- A run from a reachable library ends in a reachable library. -/
theorem Reachable.run (h : l.Reachable) (ops : List Operation) : (l.run ops).Reachable := by
  obtain ⟨before, rfl⟩ := h
  exact ⟨before ++ ops, List.foldl_append⟩

/-- What holds at the start and is kept by every step holds in every reachable library. -/
theorem Reachable.induction {P : Library → Prop} (hempty : P empty)
    (hstep : ∀ l s, P l → P (l.step s)) (h : l.Reachable) : P l := by
  obtain ⟨ops, rfl⟩ := h
  exact run_induction hstep hempty ops

end Library

end LibraryCatalog
