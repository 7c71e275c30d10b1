import LibraryCatalog.Proofs.Library.Ingestion
import LibraryCatalog.Proofs.Library.Sources

/-!
# `LibraryCatalog.Proofs.Library.Populating` — populating loads the files before the first that fails

A library that is populated takes the books of one record file after the other. What it holds in the end is told by
the files alone: if all are good, the books of all of them in their order; otherwise the library is the one after the
files before the first that fails, exactly, and nothing behind that file has been looked at.

## Contents
- **Files.** `Files.Yields`, what becomes of a record file.
- **Receiving.** `Receives`, a library to which the books of a log have been added; `receives_foldl_place`.
- **Failing.** `loadAll_of_first`, the first file that fails.
- **Result.** `PopulatesInOrder`, `populates_in_order`.
-/

namespace LibraryCatalog

/-! ## Files -/

/-- What becomes of a record file: it cannot be read, or else its text has an offence, or else it holds books. -/
inductive Files.Yields (files : Files) (path : String) : Except LoadError (List Book) → Prop where
  | unreadable {cause : ReadFailure} :
      files.read path = .error cause → Yields files path (.error (.unreadable path cause))
  | malformed {text : String} {offence : Record.FormatError} :
      files.read path = .ok text → Book.read text = .error offence → Yields files path (.error (.format offence))
  | books {text : String} {bs : List Book} :
      files.read path = .ok text → Book.read text = .ok bs → Yields files path (.ok bs)

/-- Nothing else becomes of it. -/
theorem Files.yields_iff {files : Files} {path : String} {r : Except LoadError (List Book)} :
    files.Yields path r ↔ files.books path = r := by
  rw [Files.books, recordText]
  constructor
  · rintro (hread | ⟨hread, hbooks⟩ | ⟨hread, hbooks⟩)
    · rw [hread]
      rfl
    · rw [hread]
      exact congrArg (Except.mapError LoadError.format) hbooks
    · rw [hread]
      exact congrArg (Except.mapError LoadError.format) hbooks
  · rintro rfl
    cases hread : files.read path with
    | error cause => exact .unreadable hread
    | ok text =>
      show files.Yields path ((Book.read text).mapError .format)
      cases hbooks : Book.read text with
      | error offence => exact .malformed hread hbooks
      | ok bs => exact .books hread hbooks

namespace Library

variable {l l' l'' : Library} {files : Files} {content : String → List Book}

/-! ## Receiving -/

/-- What a location has been resolved to, it is resolved to later. -/
theorem Grows.resolveShelf (h : l.Grows l') {loc : Location} {id : ShelfId} (hid : l.resolveShelf loc = (id, l)) :
    l'.resolveShelf loc = (id, l') := by
  obtain ⟨room, row, hresolved⟩ := resolveShelf_resolved l loc
  rw [hid] at hresolved
  exact (hresolved.toLeads.of_grows h).resolveShelf_eq

/-- The books of a log have been added to a library, each on the shelf that its location has from then on. -/
structure Receives (l : Library) (log : Log) (l' : Library) : Prop where
  grows : l.Grows l'
  books : l'.books.toList = l.books.toList ++ log.map fun x => onShelf (l'.resolveShelf x.2).1 x.1
  /-- The shelves are there: asking for them changes nothing. -/
  settled : ∀ x ∈ log, (l'.resolveShelf x.2).2 = l'

theorem receives_nil (l : Library) : l.Receives [] l := ⟨Grows.refl l, (List.append_nil _).symm, nofun⟩

/-- **Books that are added later** leave those that have been added on their shelves. -/
theorem Receives.trans {log log' : Log} (h : l.Receives log l') (h' : l'.Receives log' l'') :
    l.Receives (log ++ log') l'' := by
  have hlater : ∀ x ∈ log, l''.resolveShelf x.2 = ((l'.resolveShelf x.2).1, l'') := by
    intro x hx
    exact h'.grows.resolveShelf (Prod.ext rfl (h.settled x hx))
  refine ⟨h.grows.trans h'.grows, ?_, fun x hx => ?_⟩
  · have hsame : (log.map fun x => onShelf (l'.resolveShelf x.2).1 x.1) =
        log.map fun x => onShelf (l''.resolveShelf x.2).1 x.1 :=
      List.map_congr_left fun x hx => by rw [hlater x hx]
    rw [h'.books, h.books, hsame, List.map_append, List.append_assoc]
  · rcases List.mem_append.mp hx with hx | hx
    · rw [hlater x hx]
    · exact h'.settled x hx

theorem receives_place (l : Library) (b : Book) (loc : Location) : l.Receives [(b, loc)] (l.place b loc).2 := by
  obtain ⟨room, row, hresolved⟩ := resolveShelf_resolved l loc
  have hplace : (l.place b loc).2 = (l.resolveShelf loc).2.addBook (onShelf (l.resolveShelf loc).1 b) := place_eq l b loc
  have hgrows := grows_place l b loc
  have hbooks := books_resolveShelf l loc
  have hsettled := (hresolved.addBook (onShelf (l.resolveShelf loc).1 b)).resolveShelf_eq
  rw [hplace] at hgrows ⊢
  generalize l.resolveShelf loc = r at *
  refine ⟨hgrows, ?_, fun x hx => ?_⟩
  · rw [List.map_singleton, hsettled, ← hbooks]
    exact Array.toList_push
  · obtain rfl := List.mem_singleton.mp hx
    rw [hsettled]

/-- **Placing the books of a log** adds them in their order, to whatever library. -/
theorem receives_foldl_place (l : Library) (log : Log) :
    l.Receives log ((log.map fun (b, loc) => Step.place b loc).foldl step l) := by
  induction log generalizing l with
  | nil => exact receives_nil l
  | cons x log ih => exact (receives_place l x.1 x.2).trans (ih _)

/-! ## Failing -/

/-- Good files are loaded by adding their books. -/
theorem loadAll_of_good (l : Library) {ss : List ShelfSource}
    (h : ∀ s ∈ ss, files.books s.file = .ok (content s.file)) :
    ∃ l', l.loadAll files ss = (l', .ok ()) ∧ l.Receives (Log.ofSources content ss) l' := by
  have hok : (l.loadAll files ss).2 = .ok () := loadAll_snd_eq_ok_iff.mpr fun s hs => ⟨_, h s hs⟩
  refine ⟨(l.loadAll files ss).1, Prod.ext rfl hok, ?_⟩
  rw [loadAll_eq_foldl_step, Step.loading_eq_map h]
  exact receives_foldl_place l _

/-- **The first file that fails** ends loading with its failure, and leaves the library as the files before it do. -/
theorem loadAll_of_first (l : Library) {before : List ShelfSource} {s : ShelfSource} {e : LoadError}
    (hgood : ∀ s' ∈ before, ∃ bs, files.books s'.file = .ok bs) (hbad : files.books s.file = .error e)
    (after : List ShelfSource) :
    ∃ l', l.loadAll files before = (l', .ok ()) ∧ l.loadAll files (before ++ s :: after) = (l', .error e) := by
  have hok : l.loadAll files before = ((l.loadAll files before).1, .ok ()) :=
    Prod.ext rfl (loadAll_snd_eq_ok_iff.mpr hgood)
  refine ⟨_, hok, ?_⟩
  rw [loadAll_append, hok]
  exact loadAll_cons_of_error hbad

/-- Every file is good, or there is a first one that fails. -/
theorem good_or_first (files : Files) (ss : List ShelfSource) :
    (∀ s ∈ ss, ∃ bs, files.Yields s.file (.ok bs)) ∨
    ∃ before s after e, ss = before ++ s :: after ∧ (∀ s' ∈ before, ∃ bs, files.Yields s'.file (.ok bs)) ∧
      files.Yields s.file (.error e) := by
  simp only [Files.yields_iff]
  cases h : (empty.loadAll files ss).2 with
  | ok _ => exact .inl (loadAll_snd_eq_ok_iff.mp h)
  | error e =>
    obtain ⟨before, s, after, hsplit⟩ := loadAll_snd_eq_error_iff.mp h
    exact .inr ⟨before, s, after, e, hsplit⟩

/-! ## Result -/

/-- A library is populated in order: file after file until one fails. -/
structure PopulatesInOrder (l : Library) (files : Files) (c : Configuration) : Prop where
  /-- Every file is good, or there is a first one that fails. -/
  good_or_first : (∃ content : String → List Book, ∀ s ∈ c.shelves, files.Yields s.file (.ok (content s.file))) ∨
    ∃ before s after e, c.shelves = before ++ s :: after ∧ (∀ s' ∈ before, ∃ bs, files.Yields s'.file (.ok bs)) ∧
      files.Yields s.file (.error e)
  /-- Good files are all loaded, and the library holds their books behind its own. -/
  of_good : ∀ content : String → List Book, (∀ s ∈ c.shelves, files.Yields s.file (.ok (content s.file))) →
    ∃ l', l.populate files c = (l', .ok ()) ∧ l.Receives (Log.ofSources content c.shelves) l'
  /-- The first file that fails is reported, and the library is the one after the files before it, whatever stands
      behind that file and whatever the other files hold. -/
  of_first : ∀ before s after e, c.shelves = before ++ s :: after →
    (∀ s' ∈ before, ∃ bs, files.Yields s'.file (.ok bs)) → files.Yields s.file (.error e) →
    ∃ l', l.populate files { c with shelves := before } = (l', .ok ()) ∧ l.populate files c = (l', .error e) ∧
      ∀ files' after', (∀ s' ∈ before ++ [s], files'.read s'.file = files.read s'.file) →
        l.populate files' { c with shelves := before ++ s :: after' } = (l', .error e)
  /-- Two lists are loaded one after the other, the second if the first does not fail. -/
  append : ∀ front rest, c.shelves = front ++ rest →
    ((l.populate files { c with shelves := front }).2 = .ok () →
      l.populate files c = (l.populate files { c with shelves := front }).1.populate files { c with shelves := rest }) ∧
    ∀ e, (l.populate files { c with shelves := front }).2 = .error e →
      l.populate files c = ((l.populate files { c with shelves := front }).1, .error e)

/-- **Every library is populated in order**, from every file system and by every configuration. -/
theorem populates_in_order (l : Library) (files : Files) (c : Configuration) : l.PopulatesInOrder files c where
  good_or_first := by
    refine (good_or_first files c.shelves).imp (fun hgood => ?_) id
    simp only [Files.yields_iff] at hgood ⊢
    exact Files.exists_content hgood
  of_good := by
    intro content hgood
    simp only [Files.yields_iff] at hgood
    exact loadAll_of_good l hgood
  of_first := by
    intro before s after e hsplit hgood hbad
    simp only [Files.yields_iff] at hgood hbad
    obtain ⟨l', hbefore, hfails⟩ := loadAll_of_first l hgood hbad after
    refine ⟨l', hbefore, by rw [populate, hsplit, hfails], ?_⟩
    intro files' after' hread
    have hsame : ∀ s' ∈ before ++ [s], files'.books s'.file = files.books s'.file := fun s' hs' =>
      Files.books_congr (hread s' hs')
    obtain ⟨hsame, hsame_s⟩ := List.forall_mem_append.mp hsame
    have hgood' : ∀ s' ∈ before, ∃ bs, files'.books s'.file = .ok bs := fun s' hs' => hsame s' hs' ▸ hgood s' hs'
    have hbad' := (List.forall_mem_singleton.mp hsame_s).trans hbad
    obtain ⟨l'', hbefore', hfails'⟩ := loadAll_of_first l hgood' hbad' after'
    rw [loadAll_congr hsame, hbefore] at hbefore'
    rw [populate, hfails', (Prod.mk.inj hbefore').1]
  append := by
    intro front rest hsplit
    simp only [populate, hsplit, loadAll_append]
    constructor
    · intro hok
      rw [← Prod.eta (l.loadAll files front), hok]
    · intro e he
      rw [← Prod.eta (l.loadAll files front), he]

end Library

end LibraryCatalog
