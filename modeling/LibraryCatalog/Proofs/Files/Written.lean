import LibraryCatalog.Files.Path
import LibraryCatalog.Files.Tree

/-!
# `LibraryCatalog.Proofs.Files.Written` — a file that has been written is read

A bare name is a path of one name that stands for a file of the tree itself. Whatever the tree holds, a text that is
written under a bare name is the text that is read there, and its directory is the empty path.

Writing something else in its place changes nothing at the paths that lead elsewhere.

## Contents
- **Names.** `BareName`; its pieces and its directory.
- **Files.** `read_write`, and `read_of_resolve` for all paths that lead to the file.
- **Elsewhere.** `read_put_of_resolve_ne`: two trees that differ in one file of their own.
-/

namespace LibraryCatalog

/-- A path of one name, of a length that file systems allow. -/
structure BareName (name : String) : Prop where
  ne_empty : name ≠ ""
  ne_dot : name ≠ "."
  ne_parent : name ≠ ".."
  no_slash : '/' ∉ name.toList
  no_nul : '\x00' ∉ name.toList
  short : name.utf8ByteSize ≤ FileTree.nameLimit

namespace BareName

variable {name : String}

theorem splitOn (h : BareName name) : name.toList.splitOn '/' = [name.toList] :=
  List.splitOn_eq_singleton h.no_slash

theorem piecesOf (h : BareName name) : FileTree.piecesOf name = [name] := by
  rw [FileTree.piecesOf, h.splitOn, List.map_singleton, String.ofList_toList]

/-- The directory of a bare name is the empty path. -/
theorem parent? (h : BareName name) : Path.parent? name.toList = some [] := by
  have hname : name.toList.isEmpty = false := by
    rw [List.isEmpty_eq_false_iff]
    exact fun hnil => h.ne_empty (String.toList_eq_nil_iff.mp hnil)
  rw [Path.parent?, h.splitOn]
  simp only [Path.dropVoid, List.reverse_nil, List.dropWhile_nil, List.isEmpty_nil, if_true, hname]
  rfl

end BareName

namespace FileTree

variable {name : String} (t : FileTree) (bytes : ByteArray)

/-- Writing under a bare name puts a file into the tree itself. -/
theorem write_bareName (h : BareName name) : t.write name bytes = t.put [name] (.file bytes) := by
  rw [write, h.piecesOf]
  rfl

theorem node?_put (name : String) (n : Node) : (t.put [name] n).node? [name] = some n := by
  rw [node?, put, List.lookup_cons_self]
  all_goals nofun

/-- A bare name leads to its node. -/
theorem resolve_bareName (h : BareName name) {n : Node} (hnode : t.node? [name] = some n) :
    t.resolve name = .ok (.inside [name]) := by
  have hnul : name.toList.contains '\x00' = false := by
    rw [← Bool.not_eq_true, List.contains_iff_mem]
    exact h.no_nul
  have hpath : ¬pathLimit < name.utf8ByteSize := by
    have hshort := h.short
    simp only [nameLimit, pathLimit] at hshort ⊢
    omega
  have hpiece : ¬(name = "" ∨ name = ".") := not_or.mpr ⟨h.ne_empty, h.ne_dot⟩
  have hstep : t.step (.inside []) name = .ok (.inside [name]) := by
    have hroot : t.node? [] = some .directory := rfl
    rw [step]
    simp only [hroot, if_neg hpiece, if_neg h.ne_parent, if_neg (Nat.not_lt.mpr h.short), hnode,
      Option.isNone_some, if_neg Bool.false_ne_true]
  rw [resolve, if_neg h.ne_empty, hnul, if_neg Bool.false_ne_true, if_neg hpath, h.piecesOf]
  split
  · next heq => exact absurd (List.cons.inj heq).1 h.ne_empty
  · rw [List.foldlM_cons, hstep]
    rfl

/-- A text is read at every path that leads to its file. -/
theorem read_of_resolve {path : String} {names : List String} {text : String} (h : t.resolve path = .ok (.inside names))
    (hnode : t.node? names = some (.file text.toUTF8)) : t.read path = .ok text := by
  have hbytes : t.bytes path = .ok text.toUTF8 := by
    rw [FileTree.bytes, h]
    simp only [hnode]
  have htext : String.fromUTF8? text.toUTF8 = some text := dif_pos text.isValidUTF8
  rw [FileTree.read, hbytes]
  simp only [htext]

/-- **A text that is written under a bare name is read there.** -/
theorem read_write (h : BareName name) (text : String) : (t.write name text.toUTF8).read name = .ok text := by
  have hnode := t.node?_put name (.file text.toUTF8)
  rw [write_bareName t _ h]
  exact read_of_resolve _ (resolve_bareName _ h hnode) hnode

/-! ## Elsewhere -/

variable {t bytes} {bytes' : ByteArray}

theorem node?_put_of_ne {names : List String} (h : names ≠ [name]) (n n' : Node) :
    (t.put [name] n).node? names = (t.put [name] n').node? names := by
  cases names with
  | nil => rfl
  | cons first names =>
    have hne : (first :: names == [name]) = false := beq_false_of_ne h
    simp only [node?, put, List.lookup_cons, hne]

/-- A walk cannot tell which file it passes. -/
theorem step_put : (t.put [name] (.file bytes)).step = (t.put [name] (.file bytes')).step := by
  funext here piece
  cases here with
  | outside => rfl
  | inside names =>
    by_cases hhere : names = [name]
    · subst hhere
      simp only [step, node?_put]
    · have hnext : ((t.put [name] (.file bytes)).node? (piece :: names)).isNone =
          ((t.put [name] (.file bytes')).node? (piece :: names)).isNone := by
        by_cases hpiece : piece :: names = [name]
        · simp only [hpiece, node?_put, Option.isNone_some]
        · rw [node?_put_of_ne hpiece]
      simp only [step, node?_put_of_ne hhere (.file bytes) (.file bytes'), hnext]

theorem resolve_put (path : String) :
    (t.put [name] (.file bytes)).resolve path = (t.put [name] (.file bytes')).resolve path := by
  unfold resolve
  rw [step_put]

/-- **What stands in a file of the tree itself matters for no path that leads elsewhere.** -/
theorem read_put_of_resolve_ne {path : String} (h : (t.put [name] (.file bytes)).resolve path ≠ .ok (.inside [name])) :
    (t.put [name] (.file bytes)).read path = (t.put [name] (.file bytes')).read path := by
  have hsame : (t.put [name] (.file bytes')).resolve path = (t.put [name] (.file bytes)).resolve path :=
    resolve_put path
  have hbytes : (t.put [name] (.file bytes)).bytes path = (t.put [name] (.file bytes')).bytes path := by
    rw [FileTree.bytes, FileTree.bytes, hsame]
    cases hresolve : (t.put [name] (.file bytes)).resolve path with
    | error e => rfl
    | ok place =>
      cases place with
      | outside => rfl
      | inside names =>
        have hnames : names ≠ [name] := by
          rintro rfl
          exact h hresolve
        simp only [node?_put_of_ne hnames (.file bytes) (.file bytes')]
  rw [FileTree.read, FileTree.read, hbytes]

end FileTree

end LibraryCatalog
