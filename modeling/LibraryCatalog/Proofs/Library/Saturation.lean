import LibraryCatalog.Proofs.Library.Address

/-!
# `LibraryCatalog.Proofs.Library.Saturation` — what happens when identifiers run out

An identifier has 32 bits, and a library does not stop when they are used up: every further place gets the last
identifier once more. Nothing fails at that point. The keys of the indexes go on telling shelves of one row apart, and so
the locations stay different; only the way back is lost, since an identifier is located by its number and the last number
leads to one position.

## Contents
- **Last.** `Identifier.last`, and the positions that have it.
- **One row.** `OneRow`, a library with a shelf for each of some numbers in one row of one room, which a run brings about
  for as many different numbers as there are: `crowded`, `sizes_crowded`.
- **Beyond the limit.** `standsAt_last_of_new`, where identifiers are used up. `Saturates`, what holds of every reachable
  library of any size, and `identifiers_saturate`.
-/

namespace LibraryCatalog

/-! ## Last -/

namespace Identifier

variable {e : Entity}

/-- The identifier with the largest number. -/
def last : Identifier e := ⟨4294967295, by decide⟩

theorem position_last : (last : Identifier e).position = limit - 1 := rfl

/-- The positions with the last identifier are all from one below the limit on. -/
theorem ofPosition_eq_last_iff {n : Nat} : (ofPosition n : Identifier e) = last ↔ limit - 1 ≤ n := by
  have hlast : (last : Identifier e) = ofPosition (limit - 1) := by
    rw [← position_last (e := e), ofPosition_position]
  have hpos : 0 < limit := by decide
  rw [hlast, ofPosition_eq_ofPosition_iff]
  omega

end Identifier

namespace Library

variable {l l' : Library} {room row : UInt32} {numbers : List UInt32}

/-! ## One row -/

/-- All shelves stand in one row of one room, and their numbers are those of a list in the order of creation. -/
structure OneRow (l : Library) (room row : UInt32) (numbers : List UInt32) : Prop where
  rooms : ∀ r ∈ l.rooms, r.number = room
  rows : ∀ r ∈ l.rows, r.number = row
  shelves : l.shelves.toList.map Shelf.number = numbers

theorem oneRow_empty (room row : UInt32) : empty.OneRow room row [] where
  rooms := by intro r hr; exact absurd hr (Array.not_mem_empty r)
  rows := by intro r hr; exact absurd hr (Array.not_mem_empty r)
  shelves := rfl

/-- Resolving a number that the row does not have adds a shelf to it and nothing else. -/
theorem OneRow.step (h : l.OneRow room row numbers) (hl : l.Linked) {number : UInt32} (hnew : number ∉ numbers) :
    (l.step (.resolve ⟨room, row, number⟩)).OneRow room row (numbers ++ [number]) := by
  obtain ⟨roomId, rowId, shelf, hresolved⟩ := step_resolved l (.resolve ⟨room, row, number⟩)
  have hl' := linked_step hl (.resolve ⟨room, row, number⟩)
  constructor
  · intro r hr
    rcases mem_of_eq_or_eq_push hresolved.rooms hr with hold | rfl
    · exact h.rooms r hold
    · rfl
  · intro r hr
    rcases mem_of_eq_or_eq_push hresolved.rows hr with hold | rfl
    · exact h.rows r hold
    · rfl
  · have hmem := hl'.shelfIndex_iff.mp hresolved.shelfIndex
    rcases hresolved.shelves with hsame | hpush
    · -- a shelf that was there already has a number of the list
      rw [hsame] at hmem
      refine absurd ?_ hnew
      rw [← h.shelves]
      exact List.mem_map_of_mem (Array.mem_toList_iff.mpr hmem)
    · rw [hpush, Array.toList_push, List.map_append, h.shelves]
      rfl

/-- There is one room with one row then, as soon as there is a shelf. -/
theorem OneRow.sizes (h : l.OneRow room row numbers) (hl : l.Linked) (hne : numbers ≠ []) :
    l.rooms.size = 1 ∧ l.rows.size = 1 ∧ l.shelves.size = numbers.length := by
  have hshelves : l.shelves.size = numbers.length := by
    rw [← h.shelves, List.length_map, Array.length_toList]
  have hpos : 0 < l.shelves.size := by
    rw [hshelves]
    exact List.length_pos_iff.mpr hne
  -- what a shelf refers to exists
  obtain ⟨r, hr, -⟩ := hl.shelf_row _ (Array.getElem_mem hpos)
  obtain ⟨r', hr', -⟩ := hl.row_room r hr
  have hrooms : l.rooms.size ≤ 1 := by
    refine hl.rooms.size_le_one fun x hx y hy => ?_
    rw [h.rooms x hx, h.rooms y hy]
  have hholder : ∀ x ∈ l.rows, l.roomIndex[room]? = some x.room := by
    intro x hx
    obtain ⟨holder, hholder, hid⟩ := hl.row_room x hx
    rw [hl.roomIndex_iff, ← hid, ← h.rooms holder hholder]
    exact hholder
  have hrows : l.rows.size ≤ 1 := by
    refine hl.rows.size_le_one fun x hx y hy => ?_
    have hsame : x.room = y.room := Option.some.inj ((hholder x hx).symm.trans (hholder y hy))
    rw [Row.key, Row.key, hsame, h.rows x hx, h.rows y hy]
  have hroom := Array.size_pos_of_mem hr'
  have hrow := Array.size_pos_of_mem hr
  exact ⟨by omega, by omega, hshelves⟩

end Library

/-- Every number of a list is resolved as a shelf of one row, one after the other. -/
def Operation.fillingRow (room row : UInt32) (numbers : List UInt32) : List Operation :=
  numbers.map fun number => .resolve ⟨room, row, number⟩

namespace Library

variable {l : Library} {room row : UInt32} {numbers done : List UInt32}

/-- **A row is filled with any numbers that differ**, by induction on those that are left. -/
theorem OneRow.run (h : l.OneRow room row done) (hl : l.Linked) (hnodup : (done ++ numbers).Nodup) :
    (l.run (Operation.fillingRow room row numbers)).OneRow room row (done ++ numbers) := by
  induction numbers generalizing l done with
  | nil =>
    rw [List.append_nil]
    exact h
  | cons number numbers ih =>
    rw [List.append_cons] at hnodup ⊢
    have hnew : number ∉ done := by
      intro hmem
      rw [List.append_assoc] at hnodup
      exact absurd rfl ((List.nodup_append.mp hnodup).2.2 _ hmem _ List.mem_cons_self)
    exact ih (h.step hl hnew) (linked_step hl (.resolve ⟨room, row, number⟩)) hnodup

/-- One row with so many shelves, numbered from zero. -/
def crowded (n : Nat) : Library := empty.run (Operation.fillingRow 1 1 ((List.range n).map UInt32.ofNat))

theorem reachable_crowded (n : Nat) : (crowded n).Reachable := ⟨_, rfl⟩

/-- The numbers below the end of the range are different. -/
theorem nodup_map_ofNat {n : Nat} (hn : n ≤ Identifier.limit + 1) : ((List.range n).map UInt32.ofNat).Nodup := by
  unfold List.Nodup
  rw [List.pairwise_map]
  refine List.nodup_range.imp_of_mem fun {i j} hi hj hne heq => hne ?_
  rw [List.mem_range] at hi hj
  have hlt : ∀ k < n, k % 2 ^ 32 = k := fun k hk => Nat.mod_eq_of_lt (by simp only [Identifier.limit] at hn; omega)
  have hnat := congrArg UInt32.toNat heq
  rw [UInt32.toNat_ofNat', UInt32.toNat_ofNat', hlt i hi, hlt j hj] at hnat
  exact hnat

/-- **One room with one row can hold one shelf more than there are identifiers**, and any smaller number of them. -/
theorem sizes_crowded {n : Nat} (hpos : 0 < n) (hn : n ≤ Identifier.limit + 1) :
    (crowded n).rooms.size = 1 ∧ (crowded n).rows.size = 1 ∧ (crowded n).shelves.size = n := by
  have hrow : (crowded n).OneRow 1 1 ([] ++ (List.range n).map UInt32.ofNat) :=
    (oneRow_empty 1 1).run linked_empty (nodup_map_ofNat hn)
  have hne : (List.range n).map UInt32.ofNat ≠ [] := by
    rw [← List.length_pos_iff, List.length_map, List.length_range]
    exact hpos
  obtain ⟨hrooms, hrows, hshelves⟩ := hrow.sizes (reachable_crowded n).linked hne
  rw [List.nil_append, List.length_map, List.length_range] at hshelves
  exact ⟨hrooms, hrows, hshelves⟩

/-! ## Beyond the limit -/

/-- A further shelf of a row gets the identifier that comes next. -/
theorem resolveShelf_of_new (h : l.Linked) {id : ShelfId} {loc : Location} {number : UInt32} (hs : l.StandsAt id loc)
    (hnew : ∀ id, ¬l.StandsAt id { loc with shelf := number }) :
    (l.resolveShelf { loc with shelf := number }).1 = .ofPosition l.shelves.size := by
  obtain ⟨room, row, hleads⟩ := (standsAt_iff_leads h).mp hs
  have hnone : l.shelfIndex[(row, number)]? = none := by
    cases hget : l.shelfIndex[(row, number)]? with
    | none => rfl
    | some id =>
      have hleads' : l.Leads { loc with shelf := number } room row id := ⟨hleads.roomIndex, hleads.rowIndex, hget⟩
      exact absurd ((standsAt_iff_leads h).mpr ⟨room, row, hleads'⟩) (hnew id)
  have hroom := ensureRoom_of_some hleads.roomIndex
  have hrow := ensureRow_of_some hleads.rowIndex
  have hshelf := ensureShelf_of_none hnone
  simp only [resolveShelf, hroom, hrow, hshelf]

/-- In a library that has used up the identifiers, a further shelf stands at its location with the last one. -/
theorem standsAt_last_of_new (h : l.Linked) {id : ShelfId} {loc : Location} {number : UInt32} (hs : l.StandsAt id loc)
    (hnew : ∀ id, ¬l.StandsAt id { loc with shelf := number }) (hfull : Identifier.limit ≤ l.shelves.size) :
    (l.step (.resolve { loc with shelf := number })).StandsAt .last { loc with shelf := number } := by
  obtain ⟨-, -, hstands⟩ := resolveShelf_spec h { loc with shelf := number }
  have hlast : Identifier.limit - 1 ≤ l.shelves.size := Nat.le_trans (Nat.sub_le _ _) hfull
  rw [resolveShelf_of_new h hs hnew, Identifier.ofPosition_eq_last_iff.mpr hlast] at hstands
  exact hstands

/-- The shelf at one location was created before the one at another location. -/
def CreatedBefore (l : Library) (loc loc' : Location) : Prop := ∃ m n, m < n ∧ l.CreatedAt m loc ∧ l.CreatedAt n loc'

/-- Different locations have the last identifier, and it leads only to the one of them that came first. -/
def SharesLast (l : Library) : Prop :=
  ∃ first second : Location, first ≠ second ∧
    l.resolveShelf first = (.last, l) ∧ l.resolveShelf second = (.last, l) ∧ l.locationOf .last = some first ∧
    ∀ other, l.resolveShelf other = (.last, l) → other ≠ first → l.CreatedBefore first other

/-- Identifiers are counted up to the limit, and all places beyond it get the last one. -/
structure Saturates (l : Library) : Prop where
  room_id : ∀ n r, l.rooms[n]? = some r → r.id.val.toNat = min (n + 1) Identifier.limit
  row_id : ∀ n r, l.rows[n]? = some r → r.id.val.toNat = min (n + 1) Identifier.limit
  shelf_id : ∀ n s, l.shelves[n]? = some s → s.id.val.toNat = min (n + 1) Identifier.limit
  room_ids_nodup_iff : (l.rooms.toList.map Room.id).Nodup ↔ l.rooms.size ≤ Identifier.limit
  row_ids_nodup_iff : (l.rows.toList.map Row.id).Nodup ↔ l.rows.size ≤ Identifier.limit
  shelf_ids_nodup_iff : (l.shelves.toList.map Shelf.id).Nodup ↔ l.shelves.size ≤ Identifier.limit
  /-- With one shelf more than identifiers, two locations have one identifier between them. -/
  sharesLast : l.rooms.size ≤ Identifier.limit → l.rows.size ≤ Identifier.limit →
    Identifier.limit < l.shelves.size → l.SharesLast

/-- A location of the last identifier is that of a shelf from one below the limit on. -/
theorem exists_createdAt_of_resolves_last (h : l.Linked) {loc : Location} (hloc : l.resolveShelf loc = (.last, l)) :
    ∃ n, Identifier.limit - 1 ≤ n ∧ l.CreatedAt n loc := by
  rw [resolveShelf_eq_self_iff h] at hloc
  obtain ⟨n, hid, hc⟩ := exists_createdAt_of_standsAt h hloc
  exact ⟨n, Identifier.ofPosition_eq_last_iff.mp hid.symm, hc⟩

/-- A shelf from one below the limit on is found at its location with the last identifier. -/
theorem CreatedAt.resolves_last (h : l.Linked) {n : Nat} {loc : Location} (hc : l.CreatedAt n loc)
    (hn : Identifier.limit - 1 ≤ n) : l.resolveShelf loc = (.last, l) := by
  have hstands := hc.standsAt
  rw [Identifier.ofPosition_eq_last_iff.mpr hn] at hstands
  exact resolveShelf_of_standsAt h hstands

/-- **The shelf beyond the limit shares its identifier** with the one before it, and cannot be located by it. -/
theorem sharesLast_of_limit_lt (h : l.Linked) (hrooms : l.rooms.size ≤ Identifier.limit)
    (hrows : l.rows.size ≤ Identifier.limit) (hshelves : Identifier.limit < l.shelves.size) : l.SharesLast := by
  obtain ⟨first, hfirst⟩ := exists_createdAt h (n := Identifier.limit - 1) (Array.getElem?_eq_getElem (by omega))
  obtain ⟨second, hsecond⟩ := exists_createdAt h (Array.getElem?_eq_getElem hshelves)
  have hlocation : l.locationOf .last = some first := by
    rw [locationOf_eq_some_iff_createdAt h hrooms hrows, Identifier.position_last]
    exact hfirst
  refine ⟨first, second, ?_, hfirst.resolves_last h (Nat.le_refl _), hsecond.resolves_last h (Nat.sub_le _ _),
    hlocation, ?_⟩
  · rintro rfl
    exact absurd (hfirst.position_unique h hsecond) (by decide)
  · intro other hother hne
    obtain ⟨n, hn, hc⟩ := exists_createdAt_of_resolves_last h hother
    rcases Nat.eq_or_lt_of_le hn with rfl | hlt
    · -- the position of the last identifier has one location
      rw [← Identifier.position_last (e := .shelf), ← locationOf_eq_some_iff_createdAt h hrooms hrows, hlocation] at hc
      exact absurd (Option.some.inj hc).symm hne
    · exact ⟨_, n, hlt, hfirst, hc⟩

/-- **Identifiers run out exactly at the limit**, in every reachable library, and a single row can have shelves
    beyond it. -/
theorem identifiers_saturate :
    (∀ l : Library, l.Reachable → l.Saturates) ∧
    ∀ n, 0 < n → n ≤ Identifier.limit + 1 → ∃ l : Library, l.Reachable ∧
      l.rooms.size = 1 ∧ l.rows.size = 1 ∧ l.shelves.size = n := by
  constructor
  · intro l hreach
    have h := hreach.linked
    exact {
      room_id := fun _ _ => h.rooms.toNat_ident
      row_id := fun _ _ => h.rows.toNat_ident
      shelf_id := fun _ _ => h.shelves.toNat_ident
      room_ids_nodup_iff := h.rooms.nodup_ident_iff
      row_ids_nodup_iff := h.rows.nodup_ident_iff
      shelf_ids_nodup_iff := h.shelves.nodup_ident_iff
      sharesLast := sharesLast_of_limit_lt h }
  · intro n hpos hn
    exact ⟨crowded n, reachable_crowded n, sizes_crowded hpos hn⟩

theorem sample_saturates :
    (crowded (Identifier.limit + 1)).Reachable ∧ (crowded (Identifier.limit + 1)).rooms.size = 1 ∧
      (crowded (Identifier.limit + 1)).rows.size = 1 ∧
      (crowded (Identifier.limit + 1)).shelves.size = Identifier.limit + 1 ∧
      ¬((crowded (Identifier.limit + 1)).shelves.toList.map Shelf.id).Nodup ∧
      (crowded (Identifier.limit + 1)).SharesLast := by
  have hreach := reachable_crowded (Identifier.limit + 1)
  obtain ⟨hrooms, hrows, hshelves⟩ := sizes_crowded (Nat.succ_pos Identifier.limit) (Nat.le_refl _)
  have hsaturates := identifiers_saturate.1 _ hreach
  refine ⟨hreach, hrooms, hrows, hshelves, ?_, hsaturates.sharesLast ?_ ?_ ?_⟩
  · rw [hsaturates.shelf_ids_nodup_iff, hshelves]
    exact Nat.not_succ_le_self _
  · rw [hrooms]
    decide
  · rw [hrows]
    decide
  · rw [hshelves]
    exact Nat.lt_succ_self _

end Library

end LibraryCatalog
