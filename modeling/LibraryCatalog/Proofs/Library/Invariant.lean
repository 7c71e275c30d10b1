import LibraryCatalog.Proofs.Library.Growth
import LibraryCatalog.Proofs.Library.Index

/-!
# `LibraryCatalog.Proofs.Library.Invariant` — what holds of every library

Three arrays of places, three indexes and the shelves that the books name have to agree at all times. `Linked` is
the part of it that each allocation keeps by itself. `Occupied` says that no place is empty: a new room has no row
for a moment, and so only the three allocations together keep it. Neither asks for a bound on the number of places;
the bound is what makes identifiers differ.

## Contents
- **Links.** `Linked`, for an empty library and after every change; `StandsAt`, the chain of entries from a shelf to its
  location, and `standsAt_iff_leads`.
- **Occupation.** `Occupied`, which resolving a location keeps; `linked_step`, `occupied_step`.
- **Reachable libraries.** `Reachable.linked`, `Reachable.occupied`.
- **Limit.** `WithinLimit`, which no short run exceeds, and `WellFormed`, the whole agreement with numbers for
  identifiers.
-/

namespace LibraryCatalog

/-- What the index of rows knows a row by. -/
def Row.key (r : Row) : RoomId × UInt32 := (r.room, r.number)

/-- What the index of shelves knows a shelf by. -/
def Shelf.key (s : Shelf) : RowId × UInt32 := (s.row, s.number)

namespace Library

variable {l l' : Library}

/-! ## Links -/

/-- Every array agrees with its index, and what an entry refers to exists. -/
structure Linked (l : Library) : Prop where
  rooms : Indexed Room.number Room.id l.rooms l.roomIndex
  rows : Indexed Row.key Row.id l.rows l.rowIndex
  shelves : Indexed Shelf.key Shelf.id l.shelves l.shelfIndex
  row_room : ∀ r ∈ l.rows, ∃ room ∈ l.rooms, room.id = r.room
  shelf_row : ∀ s ∈ l.shelves, ∃ r ∈ l.rows, r.id = s.row
  book_shelf : ∀ b ∈ l.books, ∃ s ∈ l.shelves, b.shelf = some s.id

theorem Linked.roomIndex_iff (h : l.Linked) {number : UInt32} {id : RoomId} :
    l.roomIndex[number]? = some id ↔ (⟨id, number⟩ : Room) ∈ l.rooms := by
  rw [h.rooms.index_iff]
  constructor
  · rintro ⟨⟨_, _⟩, hmem, rfl, rfl⟩
    exact hmem
  · intro hmem
    exact ⟨_, hmem, rfl, rfl⟩

theorem Linked.rowIndex_iff (h : l.Linked) {room : RoomId} {number : UInt32} {id : RowId} :
    l.rowIndex[(room, number)]? = some id ↔ (⟨id, number, room⟩ : Row) ∈ l.rows := by
  rw [h.rows.index_iff]
  constructor
  · rintro ⟨⟨_, _, _⟩, hmem, hkey, rfl⟩
    cases hkey
    exact hmem
  · intro hmem
    exact ⟨_, hmem, rfl, rfl⟩

theorem Linked.shelfIndex_iff (h : l.Linked) {row : RowId} {number : UInt32} {id : ShelfId} :
    l.shelfIndex[(row, number)]? = some id ↔ (⟨id, number, row⟩ : Shelf) ∈ l.shelves := by
  rw [h.shelves.index_iff]
  constructor
  · rintro ⟨⟨_, _, _⟩, hmem, hkey, rfl⟩
    cases hkey
    exact hmem
  · intro hmem
    exact ⟨_, hmem, rfl, rfl⟩

theorem linked_empty : empty.Linked where
  rooms := Indexed.empty
  rows := Indexed.empty
  shelves := Indexed.empty
  row_room := by intro r hr; exact absurd hr (Array.not_mem_empty r)
  shelf_row := by intro s hs; exact absurd hs (Array.not_mem_empty s)
  book_shelf := by intro b hb; exact absurd hb (Array.not_mem_empty b)

theorem Linked.addRoom (h : l.Linked) {number : UInt32} (hnew : l.roomIndex[number]? = none) :
    (l.addRoom number).Linked :=
  { h with
    rooms := h.rooms.push (x := ⟨.ofPosition l.rooms.size, number⟩) hnew rfl
    row_room := by
      intro r hr
      obtain ⟨room, hroom, hid⟩ := h.row_room r hr
      exact ⟨room, Array.mem_push_of_mem _ hroom, hid⟩ }

theorem Linked.addRow (h : l.Linked) {room : RoomId} {number : UInt32}
    (hnew : l.rowIndex[(room, number)]? = none) (hroom : ∃ r ∈ l.rooms, r.id = room) :
    (l.addRow room number).Linked :=
  { h with
    rows := h.rows.push (x := ⟨.ofPosition l.rows.size, number, room⟩) hnew rfl
    row_room := by
      intro r hr
      rcases Array.mem_push.mp hr with hold | rfl
      · exact h.row_room r hold
      · exact hroom
    shelf_row := by
      intro s hs
      obtain ⟨r, hr, hid⟩ := h.shelf_row s hs
      exact ⟨r, Array.mem_push_of_mem _ hr, hid⟩ }

theorem Linked.addShelf (h : l.Linked) {row : RowId} {number : UInt32}
    (hnew : l.shelfIndex[(row, number)]? = none) (hrow : ∃ r ∈ l.rows, r.id = row) :
    (l.addShelf row number).Linked :=
  { h with
    shelves := h.shelves.push (x := ⟨.ofPosition l.shelves.size, number, row⟩) hnew rfl
    shelf_row := by
      intro s hs
      rcases Array.mem_push.mp hs with hold | rfl
      · exact h.shelf_row s hold
      · exact hrow
    book_shelf := by
      intro b hb
      obtain ⟨s, hs, hid⟩ := h.book_shelf b hb
      exact ⟨s, Array.mem_push_of_mem _ hs, hid⟩ }

theorem Linked.addBook (h : l.Linked) {b : Book} (hshelf : ∃ s ∈ l.shelves, b.shelf = some s.id) :
    (l.addBook b).Linked :=
  { h with
    book_shelf := by
      intro b' hb'
      rcases Array.mem_push.mp hb' with hold | rfl
      · exact h.book_shelf b' hold
      · exact hshelf }

theorem linked_ensureRoom (h : l.Linked) (number : UInt32) : (l.ensureRoom number).2.Linked := by
  cases hlook : l.roomIndex[number]? with
  | some id => rw [ensureRoom_of_some hlook]; exact h
  | none => rw [ensureRoom_of_none hlook]; exact h.addRoom hlook

theorem linked_ensureRow (h : l.Linked) {room : RoomId} (hroom : ∃ r ∈ l.rooms, r.id = room) (number : UInt32) :
    (l.ensureRow room number).2.Linked := by
  cases hlook : l.rowIndex[(room, number)]? with
  | some id => rw [ensureRow_of_some hlook]; exact h
  | none => rw [ensureRow_of_none hlook]; exact h.addRow hlook hroom

theorem linked_ensureShelf (h : l.Linked) {row : RowId} (hrow : ∃ r ∈ l.rows, r.id = row) (number : UInt32) :
    (l.ensureShelf row number).2.Linked := by
  cases hlook : l.shelfIndex[(row, number)]? with
  | some id => rw [ensureShelf_of_some hlook]; exact h
  | none => rw [ensureShelf_of_none hlook]; exact h.addShelf hlook hrow

/-- **Resolving a location keeps the links**: the room is there when the row is allocated, and the row when the shelf
    is. -/
theorem linked_resolveShelf (h : l.Linked) (loc : Location) : (l.resolveShelf loc).2.Linked := by
  obtain ⟨room, row, l₁, l₂, h₁, h₂, h₃⟩ := resolveShelf_eq l loc
  have hlinked₁ := linked_ensureRoom h loc.room
  have hroom := ensureRoom_allocates l loc.room
  rw [h₁] at hlinked₁ hroom
  have hlinked₂ := linked_ensureRow hlinked₁ ⟨_, hlinked₁.roomIndex_iff.mp hroom.1, rfl⟩ loc.row
  have hrow := ensureRow_allocates l₁ room loc.row
  rw [h₂] at hlinked₂ hrow
  rw [h₃]
  exact linked_ensureShelf hlinked₂ ⟨_, hlinked₂.rowIndex_iff.mp hrow.1, rfl⟩ loc.shelf

/-- The shelf with an identifier stands at a location: a chain of entries leads from it to the three numbers. -/
def StandsAt (l : Library) (id : ShelfId) (loc : Location) : Prop :=
  ∃ room row, (⟨room, loc.room⟩ : Room) ∈ l.rooms ∧ (⟨row, loc.row, room⟩ : Row) ∈ l.rows ∧
    (⟨id, loc.shelf, row⟩ : Shelf) ∈ l.shelves

/-- **A shelf stands where the indexes lead to it from.** -/
theorem standsAt_iff_leads (h : l.Linked) {id : ShelfId} {loc : Location} :
    l.StandsAt id loc ↔ ∃ room row, l.Leads loc room row id := by
  constructor
  · rintro ⟨room, row, hroom, hrow, hshelf⟩
    exact ⟨room, row, h.roomIndex_iff.mpr hroom, h.rowIndex_iff.mpr hrow, h.shelfIndex_iff.mpr hshelf⟩
  · rintro ⟨room, row, hroom, hrow, hshelf⟩
    exact ⟨room, row, h.roomIndex_iff.mp hroom, h.rowIndex_iff.mp hrow, h.shelfIndex_iff.mp hshelf⟩

/-! ## Occupation -/

/-- No room is without a row, and no row without a shelf. -/
structure Occupied (l : Library) : Prop where
  room_row : ∀ room ∈ l.rooms, ∃ r ∈ l.rows, r.room = room.id
  row_shelf : ∀ r ∈ l.rows, ∃ s ∈ l.shelves, s.row = r.id

theorem occupied_empty : empty.Occupied where
  room_row := by intro r hr; exact absurd hr (Array.not_mem_empty r)
  row_shelf := by intro r hr; exact absurd hr (Array.not_mem_empty r)

/-- What is in an array that has been extended by one entry at most. -/
theorem mem_of_eq_or_eq_push {α : Type} {xs xs' : Array α} {x y : α} (h : xs' = xs ∨ xs' = xs.push x)
    (hy : y ∈ xs') : y ∈ xs ∨ y = x := by
  rcases h with rfl | rfl
  · exact .inl hy
  · exact Array.mem_push.mp hy

/-- A location that has been resolved leaves no place empty. -/
theorem Occupied.of_resolved {loc : Location} {room : RoomId} {row : RowId} {shelf : ShelfId} (h : l.Occupied)
    (hl' : l'.Linked) (hgrows : l.Grows l') (hresolved : l.Resolved loc room row shelf l') : l'.Occupied where
  room_row := by
    intro r hr
    rcases mem_of_eq_or_eq_push hresolved.rooms hr with hold | rfl
    · obtain ⟨r', hr', hid⟩ := h.room_row r hold
      exact ⟨r', mem_of_prefix hgrows.rows hr', hid⟩
    · -- the row that was found or created stands in the new room
      exact ⟨_, hl'.rowIndex_iff.mp hresolved.rowIndex, rfl⟩
  row_shelf := by
    intro r hr
    rcases mem_of_eq_or_eq_push hresolved.rows hr with hold | rfl
    · obtain ⟨s, hs, hid⟩ := h.row_shelf r hold
      exact ⟨s, mem_of_prefix hgrows.shelves hs, hid⟩
    · -- and the shelf in the new row
      exact ⟨_, hl'.shelfIndex_iff.mp hresolved.shelfIndex, rfl⟩

/-- **Resolving a location** keeps the links and leaves no place empty, and the shelf that it gives stands there. -/
theorem resolveShelf_spec (h : l.Linked) (loc : Location) :
    (l.resolveShelf loc).2.Linked ∧
    (l.Occupied → (l.resolveShelf loc).2.Occupied) ∧
    (l.resolveShelf loc).2.StandsAt (l.resolveShelf loc).1 loc := by
  obtain ⟨room, row, hresolved⟩ := resolveShelf_resolved l loc
  have hlinked := linked_resolveShelf h loc
  exact ⟨hlinked, fun hocc => hocc.of_resolved hlinked (grows_resolveShelf l loc) hresolved,
    (standsAt_iff_leads hlinked).mpr ⟨room, row, hresolved.toLeads⟩⟩

/-- **A step keeps the links.** -/
theorem linked_step (h : l.Linked) (s : Step) : (l.step s).Linked := by
  cases s with
  | resolve loc => exact (resolveShelf_spec h loc).1
  | place b loc =>
    obtain ⟨hlinked, -, room, row, -, -, hshelf⟩ := resolveShelf_spec h loc
    rw [step, place_eq]
    exact hlinked.addBook ⟨_, hshelf, rfl⟩

theorem linked_foldl_step (h : l.Linked) (ss : List Step) : (ss.foldl step l).Linked := by
  induction ss generalizing l with
  | nil => exact h
  | cons s ss ih => exact ih (linked_step h s)

/-- **A step leaves no place empty.** -/
theorem occupied_step (h : l.Linked) (hocc : l.Occupied) (s : Step) : (l.step s).Occupied := by
  obtain ⟨room, row, shelf, hresolved⟩ := step_resolved l s
  exact hocc.of_resolved (linked_step h s) (grows_step l s) hresolved

/-! ## Reachable libraries -/

theorem Reachable.linked (h : l.Reachable) : l.Linked :=
  h.induction linked_empty fun _ s hl => linked_step hl s

theorem Reachable.occupied (h : l.Reachable) : l.Occupied :=
  (h.induction (P := fun l => l.Linked ∧ l.Occupied) ⟨linked_empty, occupied_empty⟩
    fun _ s hl => ⟨linked_step hl.1 s, occupied_step hl.1 hl.2 s⟩).2

/-! ## Limit -/

/-- There are identifiers for all rooms, rows and shelves. -/
structure WithinLimit (l : Library) : Prop where
  rooms : l.rooms.size ≤ Identifier.limit
  rows : l.rows.size ≤ Identifier.limit
  shelves : l.shelves.size ≤ Identifier.limit

/-- A library has had no more places earlier. -/
theorem WithinLimit.of_grows (h : l'.WithinLimit) (hgrows : l.Grows l') : l.WithinLimit where
  rooms := Nat.le_trans hgrows.rooms.length_le h.rooms
  rows := Nat.le_trans hgrows.rows.length_le h.rows
  shelves := Nat.le_trans hgrows.shelves.length_le h.shelves

/-- A run of no more steps than there are identifiers stays within the limit. -/
theorem withinLimit_run (ops : List Operation)
    (h : (ops.flatMap Operation.steps).length ≤ Identifier.limit) : (empty.run ops).WithinLimit := by
  obtain ⟨hrooms, hrows, hshelves⟩ := sizes_run_le empty ops
  have hempty : empty.rooms.size = 0 ∧ empty.rows.size = 0 ∧ empty.shelves.size = 0 := ⟨rfl, rfl, rfl⟩
  constructor <;> omega

/-- The whole agreement of the collections of a library, with numbers for identifiers. -/
structure WellFormed (l : Library) : Prop where
  room_id : ∀ n r, l.rooms[n]? = some r → r.id.val.toNat = n + 1
  row_id : ∀ n r, l.rows[n]? = some r → r.id.val.toNat = n + 1
  shelf_id : ∀ n s, l.shelves[n]? = some s → s.id.val.toNat = n + 1
  roomIndex_iff : ∀ number id, l.roomIndex[number]? = some id ↔ (⟨id, number⟩ : Room) ∈ l.rooms
  rowIndex_iff : ∀ room number id,
    l.rowIndex[(room, number)]? = some id ↔ (⟨id, number, room⟩ : Row) ∈ l.rows
  shelfIndex_iff : ∀ row number id,
    l.shelfIndex[(row, number)]? = some id ↔ (⟨id, number, row⟩ : Shelf) ∈ l.shelves
  /-- No two rooms share a number. -/
  room_nodup : (l.rooms.toList.map fun r => r.number).Nodup
  /-- No two rows of one room share a number. -/
  row_nodup : (l.rows.toList.map fun r => (r.room, r.number)).Nodup
  /-- No two shelves of one row share a number. -/
  shelf_nodup : (l.shelves.toList.map fun s => (s.row, s.number)).Nodup
  row_room : ∀ r ∈ l.rows, ∃ room ∈ l.rooms, room.id = r.room
  shelf_row : ∀ s ∈ l.shelves, ∃ r ∈ l.rows, r.id = s.row
  room_row : ∀ room ∈ l.rooms, ∃ r ∈ l.rows, r.room = room.id
  row_shelf : ∀ r ∈ l.rows, ∃ s ∈ l.shelves, s.row = r.id
  book_shelf : ∀ b ∈ l.books, ∃ s ∈ l.shelves, b.shelf = some s.id

/-- **Every reachable library within the limit is well-formed.** -/
theorem Reachable.wellFormed (h : l.Reachable) (hlim : l.WithinLimit) : l.WellFormed where
  room_id := fun _ _ hr => h.linked.rooms.toNat_val_ident hlim.rooms hr
  row_id := fun _ _ hr => h.linked.rows.toNat_val_ident hlim.rows hr
  shelf_id := fun _ _ hs => h.linked.shelves.toNat_val_ident hlim.shelves hs
  roomIndex_iff := fun _ _ => h.linked.roomIndex_iff
  rowIndex_iff := fun _ _ _ => h.linked.rowIndex_iff
  shelfIndex_iff := fun _ _ _ => h.linked.shelfIndex_iff
  room_nodup := h.linked.rooms.key_nodup
  row_nodup := h.linked.rows.key_nodup
  shelf_nodup := h.linked.shelves.key_nodup
  row_room := h.linked.row_room
  shelf_row := h.linked.shelf_row
  room_row := h.occupied.room_row
  row_shelf := h.occupied.row_shelf
  book_shelf := h.linked.book_shelf

theorem sample_wellFormed :
    (empty.run Operation.sample).Reachable ∧ (empty.run Operation.sample).WithinLimit ∧
      (empty.run Operation.sample).WellFormed := by
  have hreach : (empty.run Operation.sample).Reachable := ⟨_, rfl⟩
  have hlim := withinLimit_run Operation.sample (by decide +kernel)
  exact ⟨hreach, hlim, hreach.wellFormed hlim⟩

end Library

end LibraryCatalog
