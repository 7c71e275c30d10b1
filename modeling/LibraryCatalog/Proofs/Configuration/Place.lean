import Mathlib.Data.List.Forall2
import LibraryCatalog.Configuration.Document
import LibraryCatalog.Proofs.Files.Directory

/-!
# `LibraryCatalog.Proofs.Configuration.Place` — a configuration means the same wherever it is kept

Whether a document is a configuration does not depend on the path at which it is read, and neither do its filter and
the locations that it lists. Only relative files do: they are looked for in the directory of that path.

## Contents
- **One place.** `Configuration.LoadedAt`, a configuration as it is loaded from a path; `loadedAt_under`, and
  `load_of_read`.
- **Two places.** `load_at_two_places`.
-/

namespace LibraryCatalog

namespace Configuration

open LibraryCatalog.Path

variable {files files' : Files} {path path' text : String} {c listed : Configuration}

/-! ## One place -/

/-- A configuration as it is loaded from a path: the filter and the locations are those that the document lists, and
    the files are seen from that path. -/
structure LoadedAt (path : List Char) (listed loaded : Configuration) : Prop where
  logFilter : loaded.logFilter = listed.logFilter
  shelves : List.Forall₂ (fun s t => t.location = s.location ∧ SeenFrom path s.file.toList t.file.toList)
    listed.shelves loaded.shelves

theorem loadedAt_self {path : List Char} (h : parent? path = none) (listed : Configuration) :
    listed.LoadedAt path listed :=
  ⟨rfl, List.forall₂_same.mpr fun s _ => ⟨rfl, seenFrom_self s.file.toList h⟩⟩

/-- **Files taken from the parent of a path** are seen from the path. -/
theorem loadedAt_under {path dir : List Char} (h : parent? path = some dir) (listed : Configuration) :
    listed.LoadedAt path (listed.under dir) := by
  refine ⟨rfl, ?_⟩
  rw [under, List.forall₂_map_right_iff, List.forall₂_same]
  intro s _
  refine ⟨rfl, ?_⟩
  rw [String.toList_ofList]
  exact seenFrom_under s.file.toList h

theorem LoadedAt.locations {path : List Char} (h : listed.LoadedAt path c) :
    c.shelves.map ShelfSource.location = listed.shelves.map ShelfSource.location := by
  rw [← List.forall₂_eq_eq_eq, List.forall₂_map_left_iff, List.forall₂_map_right_iff]
  exact h.shelves.flip.imp fun _ _ hst => hst.1

/-- From a path without a slash every file is taken as it is listed. -/
theorem LoadedAt.eq_of_bare {path : List Char} (h : listed.LoadedAt path c) (hbare : '/' ∉ path) : c = listed := by
  have hshelves : List.Forall₂ (· = ·) listed.shelves c.shelves := by
    refine h.shelves.imp fun s t ⟨hlocation, hseen⟩ => ?_
    have hfile : t.file = s.file := String.toList_inj.mp (hseen.eq_of_bare hbare)
    obtain ⟨location, file⟩ := s
    exact (congr (congrArg ShelfSource.mk hlocation) hfile).symm
  rw [List.forall₂_eq_eq_eq] at hshelves
  obtain ⟨filter, shelves⟩ := c
  exact congr (congrArg Configuration.mk h.logFilter) hshelves.symm

/-- **Reading a document decides what is loaded**, up to the place from which its files are seen. -/
theorem load_of_read (h : files.read path = .ok text) :
    (ofToml? text = none ∧ load files path = .error (.malformed path)) ∨
      ∃ listed c, ofToml? text = some listed ∧ load files path = .ok c ∧ listed.LoadedAt path.toList c := by
  cases hlisted : ofToml? text with
  | none =>
    have hload : load files path = .error (.malformed path) := by
      rw [load, h]
      simp only [hlisted]
    exact .inl ⟨rfl, hload⟩
  | some listed =>
    cases hparent : parent? path.toList with
    | none =>
      have hload : load files path = .ok listed := by
        rw [load, h]
        simp only [hlisted, hparent]
      exact .inr ⟨listed, listed, rfl, hload, loadedAt_self hparent listed⟩
    | some dir =>
      have hload : load files path = .ok (listed.under dir) := by
        rw [load, h]
        simp only [hlisted, hparent]
      exact .inr ⟨listed, listed.under dir, rfl, hload, loadedAt_under hparent listed⟩

/-! ## Two places -/

/-- **A document means the same at any two paths, but for the base of its relative files.** It is malformed at both or
    a configuration at both, and then with the filter and the locations that it lists, in their order. An absolute file
    stays as it is listed, and a relative one goes below the directory part of the path, with one slash between them; a
    path without a slash has no directory part, and leaves every file as it is listed. -/
theorem load_at_two_places (h : files.read path = .ok text) (h' : files'.read path' = .ok text) :
    (ofToml? text = none ∧ load files path = .error (.malformed path) ∧
        load files' path' = .error (.malformed path')) ∨
      ∃ listed c c', ofToml? text = some listed ∧ load files path = .ok c ∧ load files' path' = .ok c' ∧
        c.logFilter = c'.logFilter ∧
        c.shelves.map ShelfSource.location = c'.shelves.map ShelfSource.location ∧
        listed.LoadedAt path.toList c ∧ listed.LoadedAt path'.toList c' ∧
        ('/' ∉ path.toList → c = listed) := by
  rcases load_of_read h with ⟨hnone, hload⟩ | ⟨listed, c, hlisted, hload, hat⟩
  · rcases load_of_read h' with ⟨-, hload'⟩ | ⟨_, _, hsome, -, -⟩
    · exact .inl ⟨hnone, hload, hload'⟩
    · cases hnone.symm.trans hsome
  · rcases load_of_read h' with ⟨hnone, -⟩ | ⟨listed', c', hlisted', hload', hat'⟩
    · cases hnone.symm.trans hlisted
    · obtain rfl := Option.some.inj (hlisted'.symm.trans hlisted)
      refine .inr ⟨listed', c, c', hlisted, hload, hload', ?_, ?_, hat, hat', hat.eq_of_bare⟩
      · rw [hat.logFilter, hat'.logFilter]
      · rw [hat.locations, hat'.locations]

/-- A document with a relative file, an absolute one and an empty one. -/
def sampleDocument : String :=
  "log_filter = \"x\"\nshelves = [[\"1/2/3\", \"a//b\"], [\"4/5/6\", \"/c\"], [\"1/1/1\", \"\"]]"

/-- What it lists. -/
def sampleListed : Configuration := ⟨some "x", [⟨⟨1, 2, 3⟩, "a//b"⟩, ⟨⟨4, 5, 6⟩, "/c"⟩, ⟨⟨1, 1, 1⟩, ""⟩]⟩

/-- The document is kept at two paths. -/
def samplePlaces : Files where
  read path := if path = "c" ∨ path = "./d/.//c" then .ok sampleDocument else .error .notFound
  isFile path := path = "c" ∨ path = "./d/.//c"

theorem sample_two_places :
    load samplePlaces "c" = .ok sampleListed ∧
      ∃ c, load samplePlaces "./d/.//c" = .ok c ∧ sampleListed.LoadedAt "./d/.//c".toList c ∧
        c.logFilter = some "x" := by
  have hread : samplePlaces.read "c" = .ok sampleDocument := by decide +kernel
  have hread' : samplePlaces.read "./d/.//c" = .ok sampleDocument := by decide +kernel
  have hlisted : ofToml? sampleDocument = some sampleListed := by decide +kernel
  rcases load_at_two_places hread hread' with
    ⟨hnone, -, -⟩ | ⟨listed, c, c', hsome, hload, hload', hfilter, -, -, hat', hbare⟩
  · cases hnone.symm.trans hlisted
  · obtain rfl := Option.some.inj (hsome.symm.trans hlisted)
    obtain rfl := hbare (by decide +kernel)
    exact ⟨hload, c', hload', hat', hfilter.symm⟩

/-- One slash stands before each relative file, also before the empty one. -/
example : load samplePlaces "./d/.//c" =
    .ok ⟨some "x", [⟨⟨1, 2, 3⟩, "./d/a//b"⟩, ⟨⟨4, 5, 6⟩, "/c"⟩, ⟨⟨1, 1, 1⟩, "./d/"⟩]⟩ := by decide +kernel

end Configuration

end LibraryCatalog
