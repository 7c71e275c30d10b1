import LibraryCatalog.Proofs.Library.Operation

/-!
# `LibraryCatalog.Proofs.Library.Growth` — a library only grows

Nothing is ever taken out of a library, and no entry is changed: whatever is done, arrays are extended at their end
and what an index knows it keeps. Resolving a location is three allocations, each of which either finds its place
in the index or adds one.

## Contents
- **Changes.** `addRoom`, `addRow`, `addShelf`, made by an allocation that finds nothing, and `addBook`.
- **Frames.** What an allocation leaves alone: `ensureRoom_frame`, `ensureRow_frame`, `ensureShelf_frame`; and
  resolving as three of them, `resolveShelf_eq`.
- **Growth.** The order `Grows`, and that steps and runs lead upwards in it: `grows_step`, `grows_run`.
- **Resolving.** `Leads`, from a location through the indexes to a shelf, and `Resolved`, all that a step does to the
  places: `resolveShelf_resolved`, `step_resolved`.
- **Number.** How many places are created at most: `sizes_step_le`, `sizes_run_le`.
-/

namespace LibraryCatalog.Library

variable {l l' l'' : Library}

/-! ## Changes -/

/-- The library with one more room. -/
def addRoom (l : Library) (number : UInt32) : Library :=
  { l with
    rooms := l.rooms.push ⟨.ofPosition l.rooms.size, number⟩
    roomIndex := l.roomIndex.insert number (.ofPosition l.rooms.size) }

/-- The library with one more row. -/
def addRow (l : Library) (room : RoomId) (number : UInt32) : Library :=
  { l with
    rows := l.rows.push ⟨.ofPosition l.rows.size, number, room⟩
    rowIndex := l.rowIndex.insert (room, number) (.ofPosition l.rows.size) }

/-- The library with one more shelf. -/
def addShelf (l : Library) (row : RowId) (number : UInt32) : Library :=
  { l with
    shelves := l.shelves.push ⟨.ofPosition l.shelves.size, number, row⟩
    shelfIndex := l.shelfIndex.insert (row, number) (.ofPosition l.shelves.size) }

/-- The library with one more book. -/
def addBook (l : Library) (b : Book) : Library := { l with books := l.books.push b }

theorem ensureRoom_of_some {number : UInt32} {id : RoomId} (h : l.roomIndex[number]? = some id) :
    l.ensureRoom number = (id, l) := by
  rw [ensureRoom, h]

theorem ensureRoom_of_none {number : UInt32} (h : l.roomIndex[number]? = none) :
    l.ensureRoom number = (.ofPosition l.rooms.size, l.addRoom number) := by
  rw [ensureRoom, h]
  rfl

theorem ensureRow_of_some {room : RoomId} {number : UInt32} {id : RowId}
    (h : l.rowIndex[(room, number)]? = some id) : l.ensureRow room number = (id, l) := by
  rw [ensureRow, h]

theorem ensureRow_of_none {room : RoomId} {number : UInt32} (h : l.rowIndex[(room, number)]? = none) :
    l.ensureRow room number = (.ofPosition l.rows.size, l.addRow room number) := by
  rw [ensureRow, h]
  rfl

theorem ensureShelf_of_some {row : RowId} {number : UInt32} {id : ShelfId}
    (h : l.shelfIndex[(row, number)]? = some id) : l.ensureShelf row number = (id, l) := by
  rw [ensureShelf, h]

theorem ensureShelf_of_none {row : RowId} {number : UInt32} (h : l.shelfIndex[(row, number)]? = none) :
    l.ensureShelf row number = (.ofPosition l.shelves.size, l.addShelf row number) := by
  rw [ensureShelf, h]
  rfl

/-- Allocating a room concerns rooms only. -/
theorem ensureRoom_frame (l : Library) (number : UInt32) :
    (l.ensureRoom number).2.rows = l.rows ∧ (l.ensureRoom number).2.shelves = l.shelves ∧
    (l.ensureRoom number).2.books = l.books := by
  cases h : l.roomIndex[number]? with
  | some id => rw [ensureRoom_of_some h]; exact ⟨rfl, rfl, rfl⟩
  | none => rw [ensureRoom_of_none h]; exact ⟨rfl, rfl, rfl⟩

/-- Allocating a row concerns rows only. -/
theorem ensureRow_frame (l : Library) (room : RoomId) (number : UInt32) :
    (l.ensureRow room number).2.rooms = l.rooms ∧ (l.ensureRow room number).2.shelves = l.shelves ∧
    (l.ensureRow room number).2.books = l.books := by
  cases h : l.rowIndex[(room, number)]? with
  | some id => rw [ensureRow_of_some h]; exact ⟨rfl, rfl, rfl⟩
  | none => rw [ensureRow_of_none h]; exact ⟨rfl, rfl, rfl⟩

/-- Allocating a shelf concerns shelves only. -/
theorem ensureShelf_frame (l : Library) (row : RowId) (number : UInt32) :
    (l.ensureShelf row number).2.rooms = l.rooms ∧ (l.ensureShelf row number).2.rows = l.rows ∧
    (l.ensureShelf row number).2.books = l.books := by
  cases h : l.shelfIndex[(row, number)]? with
  | some id => rw [ensureShelf_of_some h]; exact ⟨rfl, rfl, rfl⟩
  | none => rw [ensureShelf_of_none h]; exact ⟨rfl, rfl, rfl⟩

/-- Resolving a location is three allocations, each in the place that the one before it gave. -/
theorem resolveShelf_eq (l : Library) (loc : Location) :
    ∃ room row l₁ l₂, l.ensureRoom loc.room = (room, l₁) ∧ l₁.ensureRow room loc.row = (row, l₂) ∧
      l.resolveShelf loc = l₂.ensureShelf row loc.shelf :=
  ⟨_, _, _, _, rfl, rfl, rfl⟩

/-- Resolving a location places no book. -/
theorem books_resolveShelf (l : Library) (loc : Location) : (l.resolveShelf loc).2.books = l.books := by
  obtain ⟨room, row, l₁, l₂, h₁, h₂, h₃⟩ := resolveShelf_eq l loc
  have hbooks₁ := (ensureRoom_frame l loc.room).2.2
  have hbooks₂ := (ensureRow_frame l₁ room loc.row).2.2
  have hbooks₃ := (ensureShelf_frame l₂ row loc.shelf).2.2
  rw [h₁] at hbooks₁
  rw [h₂] at hbooks₂
  rw [h₃]
  exact hbooks₃.trans (hbooks₂.trans hbooks₁)

/-- Placing a book resolves its location and then adds the book with the shelf that was found. -/
theorem place_eq (l : Library) (b : Book) (loc : Location) :
    (l.place b loc).2 =
      (l.resolveShelf loc).2.addBook { b with shelf := some (l.resolveShelf loc).1 } := rfl

/-! ## Growth -/

/-- A library that has come from another by adding to it. -/
structure Grows (l l' : Library) : Prop where
  rooms : l.rooms.toList <+: l'.rooms.toList
  rows : l.rows.toList <+: l'.rows.toList
  shelves : l.shelves.toList <+: l'.shelves.toList
  books : l.books.toList <+: l'.books.toList
  roomIndex : ∀ (k : UInt32) (i : RoomId), l.roomIndex[k]? = some i → l'.roomIndex[k]? = some i
  rowIndex : ∀ (k : RoomId × UInt32) (i : RowId), l.rowIndex[k]? = some i → l'.rowIndex[k]? = some i
  shelfIndex : ∀ (k : RowId × UInt32) (i : ShelfId), l.shelfIndex[k]? = some i → l'.shelfIndex[k]? = some i

theorem Grows.refl (l : Library) : l.Grows l where
  rooms := List.prefix_rfl
  rows := List.prefix_rfl
  shelves := List.prefix_rfl
  books := List.prefix_rfl
  roomIndex := fun _ _ h => h
  rowIndex := fun _ _ h => h
  shelfIndex := fun _ _ h => h

theorem Grows.trans (h : l.Grows l') (h' : l'.Grows l'') : l.Grows l'' where
  rooms := h.rooms.trans h'.rooms
  rows := h.rows.trans h'.rows
  shelves := h.shelves.trans h'.shelves
  books := h.books.trans h'.books
  roomIndex := fun k i hk => h'.roomIndex k i (h.roomIndex k i hk)
  rowIndex := fun k i hk => h'.rowIndex k i (h.rowIndex k i hk)
  shelfIndex := fun k i hk => h'.shelfIndex k i (h.shelfIndex k i hk)

/-- What is in an array is in each extension of it. -/
theorem mem_of_prefix {α : Type} {xs ys : Array α} (h : xs.toList <+: ys.toList) {x : α} (hx : x ∈ xs) :
    x ∈ ys :=
  Array.mem_toList_iff.mp (h.subset (Array.mem_toList_iff.mpr hx))

/-- What stands at a position of an array stands there in every extension of it. -/
theorem getElem?_of_toList_prefix {α : Type} {xs ys : Array α} (h : xs.toList <+: ys.toList) {n : Nat} {x : α}
    (hx : xs[n]? = some x) : ys[n]? = some x := by
  obtain ⟨rest, hys⟩ := h
  rw [← Array.getElem?_toList] at hx ⊢
  obtain ⟨hn, -⟩ := List.getElem?_eq_some_iff.mp hx
  rw [← hys, List.getElem?_append_left hn, hx]

theorem prefix_toList_push {α : Type} (xs : Array α) (x : α) : xs.toList <+: (xs.push x).toList := by
  rw [Array.toList_push]
  exact List.prefix_append _ _

/-- Entering a key that an index does not know leaves what it knows. -/
theorem getElem?_insert_of_getElem?_eq_none {κ β : Type} [BEq κ] [LawfulBEq κ] [Hashable κ]
    [LawfulHashable κ] {m : Std.HashMap κ β} {key k : κ} {v i : β} (hnew : m[key]? = none)
    (h : m[k]? = some i) : (m.insert key v)[k]? = some i := by
  rw [Std.HashMap.getElem?_insert, if_neg, h]
  -- a key that is known is not the new one
  intro hbeq
  rw [← beq_iff_eq.mp hbeq, hnew] at h
  exact absurd h (by simp)

theorem grows_addRoom {number : UInt32} (hnew : l.roomIndex[number]? = none) :
    l.Grows (l.addRoom number) :=
  { Grows.refl l with
    rooms := prefix_toList_push _ _
    roomIndex := fun _ _ => getElem?_insert_of_getElem?_eq_none hnew }

theorem grows_addRow {room : RoomId} {number : UInt32} (hnew : l.rowIndex[(room, number)]? = none) :
    l.Grows (l.addRow room number) :=
  { Grows.refl l with
    rows := prefix_toList_push _ _
    rowIndex := fun _ _ => getElem?_insert_of_getElem?_eq_none hnew }

theorem grows_addShelf {row : RowId} {number : UInt32} (hnew : l.shelfIndex[(row, number)]? = none) :
    l.Grows (l.addShelf row number) :=
  { Grows.refl l with
    shelves := prefix_toList_push _ _
    shelfIndex := fun _ _ => getElem?_insert_of_getElem?_eq_none hnew }

theorem grows_addBook (l : Library) (b : Book) : l.Grows (l.addBook b) :=
  { Grows.refl l with books := prefix_toList_push _ _ }

theorem grows_ensureRoom (l : Library) (number : UInt32) : l.Grows (l.ensureRoom number).2 := by
  cases h : l.roomIndex[number]? with
  | some id => rw [ensureRoom_of_some h]; exact Grows.refl l
  | none => rw [ensureRoom_of_none h]; exact grows_addRoom h

theorem grows_ensureRow (l : Library) (room : RoomId) (number : UInt32) :
    l.Grows (l.ensureRow room number).2 := by
  cases h : l.rowIndex[(room, number)]? with
  | some id => rw [ensureRow_of_some h]; exact Grows.refl l
  | none => rw [ensureRow_of_none h]; exact grows_addRow h

theorem grows_ensureShelf (l : Library) (row : RowId) (number : UInt32) :
    l.Grows (l.ensureShelf row number).2 := by
  cases h : l.shelfIndex[(row, number)]? with
  | some id => rw [ensureShelf_of_some h]; exact Grows.refl l
  | none => rw [ensureShelf_of_none h]; exact grows_addShelf h

theorem grows_resolveShelf (l : Library) (loc : Location) : l.Grows (l.resolveShelf loc).2 := by
  obtain ⟨room, row, l₁, l₂, h₁, h₂, h₃⟩ := resolveShelf_eq l loc
  have hgrows₁ := grows_ensureRoom l loc.room
  have hgrows₂ := grows_ensureRow l₁ room loc.row
  rw [h₁] at hgrows₁
  rw [h₂] at hgrows₂
  rw [h₃]
  exact hgrows₁.trans (hgrows₂.trans (grows_ensureShelf l₂ row loc.shelf))

theorem grows_place (l : Library) (b : Book) (loc : Location) : l.Grows (l.place b loc).2 := by
  rw [place_eq]
  exact (grows_resolveShelf l loc).trans (grows_addBook _ _)

theorem grows_step (l : Library) (s : Step) : l.Grows (l.step s) := by
  cases s with
  | resolve loc => exact grows_resolveShelf l loc
  | place b loc => exact grows_place l b loc

theorem grows_foldl_step (l : Library) (ss : List Step) : l.Grows (ss.foldl step l) := by
  induction ss generalizing l with
  | nil => exact Grows.refl l
  | cons s ss ih => exact (grows_step l s).trans (ih (l.step s))

/-- **A library only grows**, whatever is done with it. -/
theorem grows_run (l : Library) (ops : List Operation) : l.Grows (l.run ops) :=
  run_induction (P := l.Grows) (fun l' s h => h.trans (grows_step l' s)) (Grows.refl l) ops

/-! ## Resolving -/

/-- The indexes lead from a location through a room and a row to a shelf. -/
structure Leads (l : Library) (loc : Location) (room : RoomId) (row : RowId) (shelf : ShelfId) : Prop where
  roomIndex : l.roomIndex[loc.room]? = some room
  rowIndex : l.rowIndex[(room, loc.row)]? = some row
  shelfIndex : l.shelfIndex[(row, loc.shelf)]? = some shelf

/-- A location that the indexes lead from is resolved to where they lead, and nothing is created. -/
theorem Leads.resolveShelf_eq {loc : Location} {room : RoomId} {row : RowId} {shelf : ShelfId}
    (h : l.Leads loc room row shelf) : l.resolveShelf loc = (shelf, l) := by
  have hroom := ensureRoom_of_some h.roomIndex
  have hrow := ensureRow_of_some h.rowIndex
  have hshelf := ensureShelf_of_some h.shelfIndex
  simp only [resolveShelf, hroom, hrow, hshelf]

/-- The indexes go on leading where they have led. -/
theorem Leads.of_grows {loc : Location} {room : RoomId} {row : RowId} {shelf : ShelfId}
    (h : l.Leads loc room row shelf) (hgrows : l.Grows l') : l'.Leads loc room row shelf where
  roomIndex := hgrows.roomIndex _ _ h.roomIndex
  rowIndex := hgrows.rowIndex _ _ h.rowIndex
  shelfIndex := hgrows.shelfIndex _ _ h.shelfIndex

/-- A location has been resolved: the indexes of the new library lead from it to a shelf, and no place is new but, as
    far as they were missing, that shelf, its row and its room. -/
structure Resolved (l : Library) (loc : Location) (room : RoomId) (row : RowId) (shelf : ShelfId) (l' : Library) : Prop
    extends l'.Leads loc room row shelf where
  rooms : l'.rooms = l.rooms ∨ l'.rooms = l.rooms.push ⟨room, loc.room⟩
  rows : l'.rows = l.rows ∨ l'.rows = l.rows.push ⟨row, loc.row, room⟩
  shelves : l'.shelves = l.shelves ∨ l'.shelves = l.shelves.push ⟨shelf, loc.shelf, row⟩

theorem Resolved.addBook {loc : Location} {room : RoomId} {row : RowId} {shelf : ShelfId}
    (h : l.Resolved loc room row shelf l') (b : Book) : l.Resolved loc room row shelf (l'.addBook b) :=
  ⟨⟨h.roomIndex, h.rowIndex, h.shelfIndex⟩, h.rooms, h.rows, h.shelves⟩

theorem ensureRoom_allocates (l : Library) (number : UInt32) :
    (l.ensureRoom number).2.roomIndex[number]? = some (l.ensureRoom number).1 ∧
    ((l.ensureRoom number).2.rooms = l.rooms ∨
      (l.ensureRoom number).2.rooms = l.rooms.push ⟨(l.ensureRoom number).1, number⟩) := by
  cases h : l.roomIndex[number]? with
  | some id => rw [ensureRoom_of_some h]; exact ⟨h, .inl rfl⟩
  | none => rw [ensureRoom_of_none h]; exact ⟨Std.HashMap.getElem?_insert_self, .inr rfl⟩

theorem ensureRow_allocates (l : Library) (room : RoomId) (number : UInt32) :
    (l.ensureRow room number).2.rowIndex[(room, number)]? = some (l.ensureRow room number).1 ∧
    ((l.ensureRow room number).2.rows = l.rows ∨
      (l.ensureRow room number).2.rows = l.rows.push ⟨(l.ensureRow room number).1, number, room⟩) := by
  cases h : l.rowIndex[(room, number)]? with
  | some id => rw [ensureRow_of_some h]; exact ⟨h, .inl rfl⟩
  | none => rw [ensureRow_of_none h]; exact ⟨Std.HashMap.getElem?_insert_self, .inr rfl⟩

theorem ensureShelf_allocates (l : Library) (row : RowId) (number : UInt32) :
    (l.ensureShelf row number).2.shelfIndex[(row, number)]? = some (l.ensureShelf row number).1 ∧
    ((l.ensureShelf row number).2.shelves = l.shelves ∨
      (l.ensureShelf row number).2.shelves = l.shelves.push ⟨(l.ensureShelf row number).1, number, row⟩) := by
  cases h : l.shelfIndex[(row, number)]? with
  | some id => rw [ensureShelf_of_some h]; exact ⟨h, .inl rfl⟩
  | none => rw [ensureShelf_of_none h]; exact ⟨Std.HashMap.getElem?_insert_self, .inr rfl⟩

/-- **Resolving a location** finds its room, row and shelf or creates them, and creates nothing else. -/
theorem resolveShelf_resolved (l : Library) (loc : Location) :
    ∃ room row, l.Resolved loc room row (l.resolveShelf loc).1 (l.resolveShelf loc).2 := by
  obtain ⟨room, row, l₁, l₂, h₁, h₂, h₃⟩ := resolveShelf_eq l loc
  have hroom := ensureRoom_allocates l loc.room
  have hframe₁ := ensureRoom_frame l loc.room
  rw [h₁] at hroom hframe₁
  have hrow := ensureRow_allocates l₁ room loc.row
  have hframe₂ := ensureRow_frame l₁ room loc.row
  have hgrows₂ := grows_ensureRow l₁ room loc.row
  rw [h₂] at hrow hframe₂ hgrows₂
  have hshelf := ensureShelf_allocates l₂ row loc.shelf
  have hframe₃ := ensureShelf_frame l₂ row loc.shelf
  have hgrows₃ := grows_ensureShelf l₂ row loc.shelf
  rw [h₃]
  refine ⟨room, row, ⟨?_, ?_, hshelf.1⟩, ?_, ?_, ?_⟩
  · exact hgrows₃.roomIndex _ _ (hgrows₂.roomIndex _ _ hroom.1)
  · exact hgrows₃.rowIndex _ _ hrow.1
  · -- each array is extended by the one allocation that concerns it
    rw [hframe₃.1, hframe₂.1]
    exact hroom.2
  · rw [hframe₃.2.1, ← hframe₁.1]
    exact hrow.2
  · rw [← hframe₁.2.1, ← hframe₂.2.1]
    exact hshelf.2

/-- **A step resolves its location**, and what else it does concerns no place. -/
theorem step_resolved (l : Library) (s : Step) :
    ∃ room row shelf, l.Resolved s.location room row shelf (l.step s) := by
  cases s with
  | resolve loc =>
    obtain ⟨room, row, h⟩ := resolveShelf_resolved l loc
    exact ⟨room, row, _, h⟩
  | place b loc =>
    obtain ⟨room, row, h⟩ := resolveShelf_resolved l loc
    rw [step, place_eq]
    exact ⟨room, row, _, h.addBook _⟩

/-! ## Number -/

/-- An array that has been extended by one entry at most. -/
theorem size_le_of_eq_or_eq_push {α : Type} {xs xs' : Array α} {x : α} (h : xs' = xs ∨ xs' = xs.push x) :
    xs'.size ≤ xs.size + 1 := by
  rcases h with rfl | rfl
  · exact Nat.le_succ _
  · exact Nat.le_of_eq (Array.size_push _)

/-- A step creates at most one room, one row and one shelf. -/
theorem sizes_step_le (l : Library) (s : Step) :
    (l.step s).rooms.size ≤ l.rooms.size + 1 ∧ (l.step s).rows.size ≤ l.rows.size + 1 ∧
    (l.step s).shelves.size ≤ l.shelves.size + 1 := by
  obtain ⟨room, row, shelf, hresolved⟩ := step_resolved l s
  exact ⟨size_le_of_eq_or_eq_push hresolved.rooms, size_le_of_eq_or_eq_push hresolved.rows,
    size_le_of_eq_or_eq_push hresolved.shelves⟩

/-- **A run creates at most one room, one row and one shelf in each of its steps.** -/
theorem sizes_run_le (l : Library) (ops : List Operation) :
    (l.run ops).rooms.size ≤ l.rooms.size + (ops.flatMap Operation.steps).length ∧
    (l.run ops).rows.size ≤ l.rows.size + (ops.flatMap Operation.steps).length ∧
    (l.run ops).shelves.size ≤ l.shelves.size + (ops.flatMap Operation.steps).length := by
  rw [run_eq_foldl_step]
  generalize ops.flatMap Operation.steps = ss
  induction ss generalizing l with
  | nil => exact ⟨Nat.le_refl _, Nat.le_refl _, Nat.le_refl _⟩
  | cons s ss ih =>
    obtain ⟨hrooms, hrows, hshelves⟩ := sizes_step_le l s
    obtain ⟨ihrooms, ihrows, ihshelves⟩ := ih (l.step s)
    rw [List.foldl_cons, List.length_cons]
    refine ⟨?_, ?_, ?_⟩ <;> omega

end LibraryCatalog.Library
