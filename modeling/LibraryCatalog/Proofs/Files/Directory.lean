import LibraryCatalog.Files.Path
import LibraryCatalog.Proofs.Text.Division

/-!
# `LibraryCatalog.Proofs.Files.Directory` — the directory part of a path, as its text shows it

A path ends in a name, and its directory part is what stands before that name, without the slashes between the two.
Slashes that lead nowhere do not count: those behind the name are no part of it, and those before it are no part of
the directory. So a directory part ends in a slash only if it is the root, and a file is put below it with one slash.

## Contents
- **Pieces.** `slashed`, pieces with a slash before each of them, and the texts that slashes divide into them.
- **Void pieces.** `dropVoid_append` and `exists_dropVoid`: what is left when the void pieces at the end are dropped.
- **Directories.** `Path.DirectoryOf`, and `parent?_eq_some_iff`.
- **Files.** `Path.SeenFrom`, a file as it is seen from a path; `seenFrom_under`, and `SeenFrom.eq_of_bare` for paths
  without a slash.
-/

namespace LibraryCatalog.Path

variable {path dir file first name : List Char} {pieces kept upper gap tail : List (List Char)}

/-! ## Pieces -/

/-- Pieces with a slash before each of them. -/
def slashed (pieces : List (List Char)) : List Char := pieces.flatMap ('/' :: ·)

theorem slashed_append (pieces pieces' : List (List Char)) :
    slashed (pieces ++ pieces') = slashed pieces ++ slashed pieces' := List.flatMap_append

theorem slashed_cons (piece : List Char) (pieces : List (List Char)) :
    slashed (piece :: pieces) = '/' :: (piece ++ slashed pieces) := List.flatMap_cons

theorem intercalate_cons (first : List Char) (pieces : List (List Char)) :
    List.intercalate ['/'] (first :: pieces) = first ++ slashed pieces := by
  induction pieces generalizing first with
  | nil => rw [List.intercalate_singleton, slashed, List.flatMap_nil, List.append_nil]
  | cons piece pieces ih =>
    rw [List.intercalate_cons_cons, ih, slashed_cons, List.append_assoc, List.singleton_append]

/-- Slashes divide a text into the pieces of which it is made. -/
theorem splitOn_slashed (hpieces : ∀ piece ∈ first :: pieces, '/' ∉ piece) :
    (first ++ slashed pieces).splitOn '/' = first :: pieces := by
  rw [← intercalate_cons, List.splitOn_intercalate '/' hpieces (List.cons_ne_nil first pieces)]

/-- Every text is made of the pieces between its slashes. -/
theorem exists_pieces (path : List Char) :
    ∃ first pieces, path = first ++ slashed pieces ∧ ∀ piece ∈ first :: pieces, '/' ∉ piece := by
  obtain ⟨first, pieces, hsplit⟩ := List.exists_cons_of_ne_nil (List.splitOn_ne_nil '/' path)
  refine ⟨first, pieces, ?_, hsplit ▸ (Text.divided_splitOn '/' path).not_mem⟩
  rw [← intercalate_cons, ← hsplit, List.intercalate_splitOn]

/-! ## Void pieces -/

theorem slash_not_mem_of_isVoid {piece : List Char} (h : isVoid piece = true) : '/' ∉ piece := by
  rw [isVoid, Bool.or_eq_true, List.isEmpty_iff, beq_iff_eq] at h
  rcases h with rfl | rfl <;> decide

/-- Void pieces at the end are dropped, and nothing else. -/
theorem dropVoid_append (hkept : ∀ piece ∈ kept.getLast?, isVoid piece = false)
    (htail : ∀ piece ∈ tail, isVoid piece = true) : dropVoid (kept ++ tail) = kept := by
  rw [dropVoid, List.reverse_append, List.dropWhile_append_of_pos (by simpa using htail)]
  rw [← List.head?_reverse] at hkept
  cases hreverse : kept.reverse with
  | nil => rw [← List.reverse_reverse kept, hreverse]; rfl
  | cons last rest =>
    have hlast : isVoid last = false := hkept last (hreverse ▸ rfl)
    rw [List.dropWhile_cons, hlast, if_neg Bool.false_ne_true, ← hreverse, List.reverse_reverse]

/-- Behind the last piece that is not void there are void pieces only. -/
theorem exists_dropVoid (pieces : List (List Char)) :
    ∃ kept tail, pieces = kept ++ tail ∧ (∀ piece ∈ kept.getLast?, isVoid piece = false) ∧
      ∀ piece ∈ tail, isVoid piece = true := by
  refine ⟨(pieces.reverse.dropWhile isVoid).reverse, (pieces.reverse.takeWhile isVoid).reverse, ?_, ?_, ?_⟩
  · rw [← List.reverse_append, List.takeWhile_append_dropWhile, List.reverse_reverse]
  · intro piece hpiece
    rw [List.getLast?_reverse, Option.mem_def] at hpiece
    have hhead := List.head?_dropWhile_not isVoid pieces.reverse
    rw [hpiece] at hhead
    exact hhead
  · intro piece hpiece
    exact List.all_eq_true.mp List.all_takeWhile piece (List.mem_reverse.mp hpiece)

/-- Pieces with a last name: `upper` ends in the name before it, and the pieces around it are void. -/
structure LastName (upper gap : List (List Char)) (name : List Char) (tail : List (List Char)) : Prop where
  upper_ends : ∀ piece ∈ upper.getLast?, isVoid piece = false
  gap_void : ∀ piece ∈ gap, isVoid piece = true
  not_void : isVoid name = false
  tail_void : ∀ piece ∈ tail, isVoid piece = true

/-- Pieces are all void unless they have a last name. -/
theorem void_or_lastName (pieces : List (List Char)) :
    (∀ piece ∈ pieces, isVoid piece = true) ∨
      ∃ upper gap name tail, pieces = upper ++ gap ++ name :: tail ∧ LastName upper gap name tail := by
  obtain ⟨kept, tail, rfl, hkept, htail⟩ := exists_dropVoid pieces
  rcases List.eq_nil_or_concat kept with rfl | ⟨names, name, rfl⟩
  · exact .inl htail
  · obtain ⟨upper, gap, rfl, hupper, hgap⟩ := exists_dropVoid names
    rw [List.concat_eq_append] at hkept ⊢
    exact .inr ⟨upper, gap, name, tail, by simp, hupper, hgap, hkept name (by simp), htail⟩

/-- A path of one piece has the empty path for a directory. -/
theorem parent?_of_void (hsplit : path.splitOn '/' = first :: tail) (htail : ∀ piece ∈ tail, isVoid piece = true) :
    parent? path = if first.isEmpty then none else some [] := by
  have hnothing : dropVoid ([] ++ tail) = [] := dropVoid_append nofun htail
  rw [List.nil_append] at hnothing
  rw [parent?, hsplit]
  simp only [hnothing, List.isEmpty_nil, if_true]

/-- A path with a last name has what stands before that name for a directory, or the root. -/
theorem parent?_of_lastName (hsplit : path.splitOn '/' = first :: (upper ++ gap ++ name :: tail))
    (h : LastName upper gap name tail) :
    parent? path = some (if first.isEmpty && upper.isEmpty then ['/'] else first ++ slashed upper) := by
  have hlast : ∀ piece ∈ (upper ++ gap ++ [name]).getLast?, isVoid piece = false := by
    rw [List.getLast?_concat]
    rintro _ ⟨⟩
    exact h.not_void
  have hpieces : dropVoid (upper ++ gap ++ name :: tail) = upper ++ gap ++ [name] := by
    rw [← List.singleton_append, ← List.append_assoc, dropVoid_append hlast h.tail_void]
  have hsome : (upper ++ gap ++ [name]).isEmpty = false := by simp
  rw [parent?, hsplit]
  simp only [hpieces, hsome, if_neg Bool.false_ne_true, List.dropLast_concat,
    dropVoid_append h.upper_ends h.gap_void, intercalate_cons]
  split <;> rfl

/-! ## Directories -/

/-- Slashes that lead nowhere: what stands behind each of them is void. -/
def Idle (text : List Char) : Prop := ∃ pieces, (∀ piece ∈ pieces, isVoid piece = true) ∧ text = slashed pieces

/-- A piece that leads somewhere. -/
structure IsName (piece : List Char) : Prop where
  no_slash : '/' ∉ piece
  not_void : isVoid piece = false

/-- A text that ends in a name, or else is a single piece, such as a dot. -/
inductive EndsInName : List Char → Prop where
  | alone {piece : List Char} : piece ≠ [] → '/' ∉ piece → EndsInName piece
  | below {upper name : List Char} : IsName name → EndsInName (upper ++ '/' :: name)

/-- The directory part of a path. -/
inductive DirectoryOf : List Char → List Char → Prop where
  /-- A path of one piece has an empty one. -/
  | here {name tail : List Char} : name ≠ [] → '/' ∉ name → Idle tail → DirectoryOf (name ++ tail) []
  /-- Before the name there is nothing but slashes. -/
  | root {gap name tail : List Char} : Idle gap → IsName name → Idle tail →
      DirectoryOf (gap ++ '/' :: name ++ tail) ['/']
  /-- What ends in a name itself is the directory part, however it goes on to the last name. -/
  | below {dir gap name tail : List Char} : EndsInName dir → Idle gap → IsName name → Idle tail →
      DirectoryOf (dir ++ gap ++ '/' :: name ++ tail) dir

/-- What ends in a name is made of pieces of which the last one is not void, if there is more than one. -/
theorem endsInName_iff :
    EndsInName dir ↔ ∃ first upper, dir = first ++ slashed upper ∧ (∀ piece ∈ first :: upper, '/' ∉ piece) ∧
      (∀ piece ∈ upper.getLast?, isVoid piece = false) ∧ (first.isEmpty && upper.isEmpty) = false := by
  constructor
  · intro h
    cases h with
    | alone hne hslash =>
      refine ⟨dir, [], (List.append_nil dir).symm, List.forall_mem_singleton.mpr hslash, nofun, ?_⟩
      rw [List.isEmpty_eq_false_iff.mpr hne, Bool.false_and]
    | @below text name hname =>
      obtain ⟨first, pieces, rfl, hpieces⟩ := exists_pieces text
      refine ⟨first, pieces ++ [name], ?_, ?_, ?_, by simp⟩
      · rw [slashed_append, slashed_cons, List.append_assoc]
        simp [slashed]
      · rw [← List.cons_append]
        exact List.forall_mem_append.mpr ⟨hpieces, List.forall_mem_singleton.mpr hname.no_slash⟩
      · rw [List.getLast?_concat]
        rintro _ ⟨⟩
        exact hname.not_void
  · rintro ⟨first, upper, rfl, hslash, hlast, hne⟩
    obtain ⟨hfirst, hupper⟩ := List.forall_mem_cons.mp hslash
    rcases List.eq_nil_or_concat upper with rfl | ⟨pieces, name, rfl⟩
    · rw [slashed, List.flatMap_nil, List.append_nil]
      exact .alone (by simpa using hne) hfirst
    · rw [List.concat_eq_append] at hupper hlast ⊢
      rw [slashed_append, ← List.append_assoc, slashed_cons]
      have hname : IsName name := ⟨hupper name (by simp), hlast name (by simp)⟩
      have hends : EndsInName (first ++ slashed pieces ++ '/' :: name) := .below hname
      simpa [slashed] using hends

/-- The text of pieces among which a last name stands. -/
theorem slashed_of_name (upper gap tail : List (List Char)) (name : List Char) :
    slashed (upper ++ gap ++ name :: tail) = slashed upper ++ slashed gap ++ '/' :: name ++ slashed tail := by
  rw [slashed_append, slashed_append, slashed_cons, List.append_assoc _ ('/' :: name), List.cons_append]

/-- Slashes divide a path with a last name into its pieces. -/
theorem splitOn_of_lastName (hfirst : ∀ piece ∈ first :: upper, '/' ∉ piece) (h : LastName upper gap name tail)
    (hname : '/' ∉ name) :
    (first ++ slashed upper ++ slashed gap ++ '/' :: name ++ slashed tail).splitOn '/' =
      first :: (upper ++ gap ++ name :: tail) := by
  have hvoid {pieces : List (List Char)} (hpieces : ∀ piece ∈ pieces, isVoid piece = true) :
      ∀ piece ∈ pieces, '/' ∉ piece := fun piece hpiece => slash_not_mem_of_isVoid (hpieces piece hpiece)
  have hpieces : ∀ piece ∈ first :: (upper ++ gap ++ name :: tail), '/' ∉ piece := by
    rw [← List.cons_append, ← List.cons_append]
    exact List.forall_mem_append.mpr ⟨List.forall_mem_append.mpr ⟨hfirst, hvoid h.gap_void⟩,
      List.forall_mem_cons.mpr ⟨hname, hvoid h.tail_void⟩⟩
  rw [← splitOn_slashed hpieces, slashed_of_name]
  simp only [List.append_assoc]

/-- A path with a last name has for its directory part what stands before that name, or the root. -/
theorem LastName.directoryOf (h : LastName upper gap name tail)
    (hslash : ∀ piece ∈ first :: (upper ++ gap ++ name :: tail), '/' ∉ piece) :
    DirectoryOf (first ++ slashed (upper ++ gap ++ name :: tail))
      (if first.isEmpty && upper.isEmpty then ['/'] else first ++ slashed upper) := by
  have hgap : Idle (slashed gap) := ⟨gap, h.gap_void, rfl⟩
  have htail : Idle (slashed tail) := ⟨tail, h.tail_void, rfl⟩
  have hname : IsName name := ⟨hslash name (by simp), h.not_void⟩
  rw [slashed_of_name]
  by_cases hroot : (first.isEmpty && upper.isEmpty) = true
  · rw [if_pos hroot]
    rw [Bool.and_eq_true, List.isEmpty_iff, List.isEmpty_iff] at hroot
    obtain ⟨rfl, rfl⟩ := hroot
    exact .root hgap hname htail
  · rw [if_neg hroot]
    have hupper : ∀ piece ∈ first :: upper, '/' ∉ piece := by
      intro piece hpiece
      refine hslash piece ?_
      rw [← List.cons_append, ← List.cons_append, List.append_assoc]
      exact List.mem_append_left _ hpiece
    have hends : EndsInName (first ++ slashed upper) :=
      endsInName_iff.mpr ⟨first, upper, rfl, hupper, h.upper_ends, Bool.eq_false_iff.mpr hroot⟩
    simpa only [List.append_assoc] using DirectoryOf.below hends hgap hname htail

theorem directoryOf_of_parent? (h : parent? path = some dir) : DirectoryOf path dir := by
  obtain ⟨first, pieces, rfl, hslash⟩ := exists_pieces path
  have hsplit := splitOn_slashed hslash
  rcases void_or_lastName pieces with htail | ⟨upper, gap, name, tail, rfl, hlast⟩
  · rw [parent?_of_void hsplit htail] at h
    split at h
    · cases h
    · next hfirst =>
      obtain rfl := Option.some.inj h
      exact .here (mt List.isEmpty_iff.mpr hfirst) (List.forall_mem_cons.mp hslash).1 ⟨pieces, htail, rfl⟩
  · rw [parent?_of_lastName hsplit hlast] at h
    obtain rfl := Option.some.inj h
    exact hlast.directoryOf hslash

theorem DirectoryOf.parent?_eq (h : DirectoryOf path dir) : parent? path = some dir := by
  cases h with
  | @here name _ hne hslash hidle =>
    obtain ⟨tail, htail, rfl⟩ := hidle
    have hpieces : ∀ piece ∈ name :: tail, '/' ∉ piece :=
      List.forall_mem_cons.mpr ⟨hslash, fun piece hpiece => slash_not_mem_of_isVoid (htail piece hpiece)⟩
    rw [parent?_of_void (splitOn_slashed hpieces) htail, if_neg (mt List.isEmpty_iff.mp hne)]
  | @root _ name _ hgap hname hidle =>
    obtain ⟨gap, hgap, rfl⟩ := hgap
    obtain ⟨tail, htail, rfl⟩ := hidle
    have hlast : LastName [] gap name tail := ⟨nofun, hgap, hname.not_void, htail⟩
    have hnil : ∀ piece ∈ [([] : List Char)], '/' ∉ piece := List.forall_mem_singleton.mpr List.not_mem_nil
    exact parent?_of_lastName (splitOn_of_lastName hnil hlast hname.no_slash) hlast
  | @below _ _ name _ hends hgap hname hidle =>
    obtain ⟨gap, hgap, rfl⟩ := hgap
    obtain ⟨tail, htail, rfl⟩ := hidle
    obtain ⟨first, upper, rfl, hslash, hupper, hroot⟩ := endsInName_iff.mp hends
    have hlast : LastName upper gap name tail := ⟨hupper, hgap, hname.not_void, htail⟩
    rw [parent?_of_lastName (splitOn_of_lastName hslash hlast hname.no_slash) hlast, hroot,
      if_neg Bool.false_ne_true]

/-- **The parent of a path is its directory part.** -/
theorem parent?_eq_some_iff : parent? path = some dir ↔ DirectoryOf path dir :=
  ⟨directoryOf_of_parent?, DirectoryOf.parent?_eq⟩

/-! ## Files -/

/-- **A directory part ends in a slash only if it is the root.** -/
theorem DirectoryOf.ends (h : DirectoryOf path dir) : dir = [] ∨ dir = ['/'] ∨ dir ≠ [] ∧ dir.getLast? ≠ some '/' := by
  cases h with
  | here => exact .inl rfl
  | root => exact .inr (.inl rfl)
  | below hends =>
    refine .inr (.inr ?_)
    cases hends with
    | alone hne hslash => exact ⟨hne, fun hlast => hslash (List.mem_of_mem_getLast? hlast)⟩
    | @below upper name hname =>
      refine ⟨by simp, fun hlast => hname.no_slash ?_⟩
      have hne : name ≠ [] := by
        rintro rfl
        cases hname.not_void
      rw [List.getLast?_append, List.getLast?_cons_of_ne_nil hne, Option.or_eq_some_iff,
        List.getLast?_eq_none_iff] at hlast
      exact List.mem_of_mem_getLast? (hlast.resolve_right fun h => hne h.1)

/-- A file as it is seen from a path, in whose directory a relative one is looked for. -/
inductive SeenFrom (path file : List Char) : List Char → Prop where
  | absolute : file.head? = some '/' → SeenFrom path file file
  /-- The path has no directory part. -/
  | here : file.head? ≠ some '/' → (∀ dir, DirectoryOf path dir → dir = []) → SeenFrom path file file
  | root : file.head? ≠ some '/' → DirectoryOf path ['/'] → SeenFrom path file ('/' :: file)
  /-- One slash stands between the directory part and the file. -/
  | below {dir : List Char} : file.head? ≠ some '/' → DirectoryOf path dir → dir ≠ [] → dir.getLast? ≠ some '/' →
      SeenFrom path file (dir ++ '/' :: file)

/-- A path without a slash has no directory part. -/
theorem DirectoryOf.eq_nil (h : DirectoryOf path dir) (hbare : '/' ∉ path) : dir = [] := by
  cases h with
  | here => rfl
  | root => exact absurd (by simp) hbare
  | below => exact absurd (by simp) hbare

/-- From a path without a slash every file is seen unchanged. -/
theorem SeenFrom.eq_of_bare {seen : List Char} (h : SeenFrom path file seen) (hbare : '/' ∉ path) : seen = file := by
  cases h with
  | absolute => rfl
  | here => rfl
  | root _ hdir => cases hdir.eq_nil hbare
  | below _ hdir hne => exact absurd (hdir.eq_nil hbare) hne

/-- A file is seen unchanged from a path that has no parent. -/
theorem seenFrom_self (file : List Char) (h : parent? path = none) : SeenFrom path file file := by
  by_cases hfile : file.head? = some '/'
  · exact .absolute hfile
  · refine .here hfile fun dir hdir => ?_
    rw [hdir.parent?_eq] at h
    cases h

/-- **A file taken from the parent of a path** is that file as it is seen from the path. -/
theorem seenFrom_under (file : List Char) (h : parent? path = some dir) : SeenFrom path file (under dir file) := by
  have hdir := parent?_eq_some_iff.mp h
  by_cases hfile : file.head? = some '/'
  · rw [under, isAbsolute, if_pos (beq_iff_eq.mpr hfile)]
    exact .absolute hfile
  · rw [under, isAbsolute, if_neg (mt beq_iff_eq.mp hfile), join]
    rcases hdir.ends with rfl | rfl | ⟨hne, hlast⟩
    · refine .here hfile fun dir hdir' => ?_
      rw [hdir'.parent?_eq] at h
      exact Option.some.inj h
    · exact .root hfile hdir
    · rw [List.isEmpty_eq_false_iff.mpr hne, beq_false_of_ne hlast, Bool.or_self, if_neg Bool.false_ne_true]
      exact .below hfile hdir hne hlast

end LibraryCatalog.Path
