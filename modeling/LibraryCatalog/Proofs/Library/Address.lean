import LibraryCatalog.Proofs.Library.Invariant

/-!
# `LibraryCatalog.Proofs.Library.Address` — locations and the identifiers of shelves

A location is resolved through three indexes, from the room to the shelf; an identifier is located through three
arrays, from the shelf to the room. Both walks follow the same chain of entries, `StandsAt`, and so each undoes the
other, as long as no two places share an identifier.

## Contents
- **One chain.** `resolveShelf_eq_self_iff`, that a location is resolved to the shelf that stands there.
- **Order of creation.** `CreatedAt`, the chain from a position among the shelves, which locating follows however many
  shelves there are: `locationOf_eq_some_iff_createdAt`.
- **Locating.** `locationOf_eq_some_iff`, `locationOf_eq_none_iff`, as long as identifiers suffice.
- **Later.** `StandsAt.of_grows`, `Grows.locationOf`, and how much room one more location needs: `withinLimit_resolveShelf`.
- **Both ways.** `Assigned`, `LocationsBiject`, and `Reachable.locationsBiject` below the limit.
-/

namespace LibraryCatalog.Library

variable {l l' : Library} {id id' : ShelfId} {loc loc' : Location}

/-! ## One chain -/

/-- A location at which a shelf stands is resolved to it, and nothing is created. -/
theorem resolveShelf_of_standsAt (h : l.Linked) (hs : l.StandsAt id loc) :
    l.resolveShelf loc = (id, l) := by
  obtain ⟨room, row, hleads⟩ := (standsAt_iff_leads h).mp hs
  exact hleads.resolveShelf_eq

/-- No two shelves stand at one location. -/
theorem StandsAt.id_unique (h : l.Linked) (hs : l.StandsAt id loc) (hs' : l.StandsAt id' loc) : id = id' := by
  have hsame := (resolveShelf_of_standsAt h hs).symm.trans (resolveShelf_of_standsAt h hs')
  exact (Prod.mk.inj hsame).1

/-- **A location is resolved to a shelf without changing anything** exactly when that shelf stands there already. -/
theorem resolveShelf_eq_self_iff (h : l.Linked) : l.resolveShelf loc = (id, l) ↔ l.StandsAt id loc := by
  constructor
  · intro hresolve
    obtain ⟨-, -, hstands⟩ := resolveShelf_spec h loc
    rw [hresolve] at hstands
    exact hstands
  · exact resolveShelf_of_standsAt h

/-! ## Order of creation -/

/-- The shelf that was created after `n` others stands at a location. -/
def CreatedAt (l : Library) (n : Nat) (loc : Location) : Prop :=
  ∃ room row, (⟨room, loc.room⟩ : Room) ∈ l.rooms ∧ (⟨row, loc.row, room⟩ : Row) ∈ l.rows ∧
    l.shelves[n]? = some ⟨.ofPosition n, loc.shelf, row⟩

theorem CreatedAt.standsAt {n : Nat} (hc : l.CreatedAt n loc) : l.StandsAt (.ofPosition n) loc := by
  obtain ⟨room, row, hroom, hrow, hshelf⟩ := hc
  exact ⟨room, row, hroom, hrow, Array.mem_of_getElem? hshelf⟩

/-- A shelf that stands somewhere was created at some time, which its identifier tells up to the limit. -/
theorem exists_createdAt_of_standsAt (h : l.Linked) (hs : l.StandsAt id loc) :
    ∃ n, id = .ofPosition n ∧ l.CreatedAt n loc := by
  obtain ⟨room, row, hroom, hrow, hshelf⟩ := hs
  obtain ⟨n, hn, hget⟩ := Array.getElem_of_mem hshelf
  have hget' := Array.getElem?_eq_some_iff.mpr ⟨hn, hget⟩
  have hid : id = .ofPosition n := h.shelves.ident_at n _ hget'
  rw [hid] at hget'
  exact ⟨n, hid, room, row, hroom, hrow, hget'⟩

/-- Every shelf was created somewhere. -/
theorem exists_createdAt (h : l.Linked) {n : Nat} {s : Shelf} (hs : l.shelves[n]? = some s) :
    ∃ loc, l.CreatedAt n loc := by
  obtain ⟨r, hr, hrow⟩ := h.shelf_row s (Array.mem_of_getElem? hs)
  obtain ⟨room, hroom, hid⟩ := h.row_room r hr
  refine ⟨⟨room.number, r.number, s.number⟩, room.id, r.id, hroom, hid ▸ hr, ?_⟩
  rw [hs, ← h.shelves.ident_at n s hs, hrow]

/-- A location gets one shelf only. -/
theorem CreatedAt.position_unique (h : l.Linked) {m n : Nat} (hm : l.CreatedAt m loc) (hn : l.CreatedAt n loc) :
    m = n := by
  obtain ⟨room, row, hroom, hrow, hshelf⟩ := hm
  obtain ⟨room', row', hroom', hrow', hshelf'⟩ := hn
  -- the numbers lead to one room, in it to one row, and in that to one shelf
  rw [← h.roomIndex_iff] at hroom hroom'
  obtain rfl := Option.some.inj (hroom.symm.trans hroom')
  rw [← h.rowIndex_iff] at hrow hrow'
  obtain rfl := Option.some.inj (hrow.symm.trans hrow')
  exact h.shelves.position_unique hshelf hshelf' rfl

/-- **Locating an identifier finds the shelf at its position**, if identifiers suffice for rooms and rows. -/
theorem locationOf_eq_some_iff_createdAt (h : l.Linked) (hrooms : l.rooms.size ≤ Identifier.limit)
    (hrows : l.rows.size ≤ Identifier.limit) : l.locationOf id = some loc ↔ l.CreatedAt id.position loc := by
  simp only [locationOf, Option.bind_eq_bind, Option.bind_eq_some_iff, Option.pure_def, Option.some.injEq,
    h.rows.getElem?_position_iff hrows, h.rooms.getElem?_position_iff hrooms]
  constructor
  · rintro ⟨s, hs, r, ⟨hr, hrow⟩, room, ⟨hroom, hid⟩, rfl⟩
    refine ⟨room.id, r.id, hroom, hid ▸ hr, ?_⟩
    rw [hs, ← h.shelves.ident_at _ s hs, hrow]
  · rintro ⟨room, row, hroom, hrow, hshelf⟩
    exact ⟨_, hshelf, _, ⟨hrow, rfl⟩, _, ⟨hroom, rfl⟩, rfl⟩

/-! ## Locating -/

/-- **Locating follows the chain** from the shelf to the room, as long as identifiers suffice. -/
theorem locationOf_eq_some_iff (h : l.Linked) (hlim : l.WithinLimit) :
    l.locationOf id = some loc ↔ l.StandsAt id loc := by
  rw [locationOf_eq_some_iff_createdAt h hlim.rooms hlim.rows]
  constructor
  · intro hc
    have hstands := hc.standsAt
    rw [Identifier.ofPosition_position] at hstands
    exact hstands
  · rintro ⟨room, row, hroom, hrow, hshelf⟩
    refine ⟨room, row, hroom, hrow, ?_⟩
    rw [Identifier.ofPosition_position]
    exact (h.shelves.getElem?_position_iff hlim.shelves).mpr ⟨hshelf, rfl⟩

/-- No shelf stands at two locations, as long as identifiers suffice. -/
theorem StandsAt.loc_unique (h : l.Linked) (hlim : l.WithinLimit) (hs : l.StandsAt id loc)
    (hs' : l.StandsAt id loc') : loc = loc' := by
  rw [← locationOf_eq_some_iff h hlim] at hs hs'
  exact Option.some.inj (hs.symm.trans hs')

/-- Every shelf stands somewhere. -/
theorem exists_standsAt (h : l.Linked) {s : Shelf} (hs : s ∈ l.shelves) : ∃ loc, l.StandsAt s.id loc := by
  obtain ⟨n, hn, hget⟩ := Array.getElem_of_mem hs
  have hget' := Array.getElem?_eq_some_iff.mpr ⟨hn, hget⟩
  obtain ⟨loc, hc⟩ := exists_createdAt h hget'
  rw [h.shelves.ident_at n s hget']
  exact ⟨loc, hc.standsAt⟩

/-- **An identifier leads nowhere** exactly when its number exceeds the number of shelves. -/
theorem locationOf_eq_none_iff (h : l.Linked) (hlim : l.WithinLimit) :
    l.locationOf id = none ↔ l.shelves.size < id.val.toNat := by
  have hpos : id.val.toNat ≠ 0 := fun hzero => id.val_ne_zero (UInt32.toNat_inj.mp hzero)
  rw [Option.eq_none_iff_forall_ne_some]
  constructor
  · intro hnone
    refine Nat.lt_of_not_le fun hle => ?_
    -- a number in range is that of a shelf, and every shelf was created somewhere
    have hlt : id.position < l.shelves.size := by rw [Identifier.position]; omega
    obtain ⟨loc, hc⟩ := exists_createdAt h (Array.getElem?_eq_getElem hlt)
    exact hnone loc ((locationOf_eq_some_iff_createdAt h hlim.rooms hlim.rows).mpr hc)
  · intro hgt loc hloc
    obtain ⟨room, row, -, -, hshelf⟩ := (locationOf_eq_some_iff_createdAt h hlim.rooms hlim.rows).mp hloc
    obtain ⟨hlt, -⟩ := Array.getElem?_eq_some_iff.mp hshelf
    rw [Identifier.position] at hlt
    omega

/-! ## Later -/

/-- A shelf stays where it stands. -/
theorem StandsAt.of_grows (hs : l.StandsAt id loc) (hgrows : l.Grows l') : l'.StandsAt id loc := by
  obtain ⟨room, row, hroom, hrow, hshelf⟩ := hs
  exact ⟨room, row, mem_of_prefix hgrows.rooms hroom, mem_of_prefix hgrows.rows hrow,
    mem_of_prefix hgrows.shelves hshelf⟩

/-- What an identifier leads to, it leads to later. -/
theorem Grows.locationOf (h : l.Grows l') {id : ShelfId} {loc : Location} (hloc : l.locationOf id = some loc) :
    l'.locationOf id = some loc := by
  simp only [Library.locationOf, Option.bind_eq_bind, Option.bind_eq_some_iff] at hloc ⊢
  obtain ⟨shelf, hshelf, row, hrow, room, hroom, hnumbers⟩ := hloc
  exact ⟨shelf, getElem?_of_toList_prefix h.shelves hshelf, row, getElem?_of_toList_prefix h.rows hrow,
    room, getElem?_of_toList_prefix h.rooms hroom, hnumbers⟩

/-- A library below the limit has room for one more location. -/
theorem withinLimit_resolveShelf (hrooms : l.rooms.size < Identifier.limit)
    (hrows : l.rows.size < Identifier.limit) (hshelves : l.shelves.size < Identifier.limit)
    (loc : Location) : (l.resolveShelf loc).2.WithinLimit := by
  obtain ⟨hrooms', hrows', hshelves'⟩ := sizes_step_le l (.resolve loc)
  exact ⟨Nat.le_trans hrooms' hrooms, Nat.le_trans hrows' hrows, Nat.le_trans hshelves' hshelves⟩

/-! ## Both ways -/

/-- An identifier and a location lead to each other, and asking for the location changes nothing. -/
def Assigned (l : Library) (id : ShelfId) (loc : Location) : Prop :=
  l.locationOf id = some loc ∧ l.resolveShelf loc = (id, l)

/-- Locations and the identifiers of shelves correspond one to one, now and after any further run. -/
structure LocationsBiject (l : Library) : Prop where
  /-- Every location gets an identifier that leads back to it, and no other location gets that one ever. -/
  assigned_of_resolve : ∀ loc, ∃ id l', l.resolveShelf loc = (id, l') ∧ l'.Assigned id loc ∧
    ∀ ops, (l'.run ops).WithinLimit → (l'.run ops).Assigned id loc ∧
      ∀ loc', ((l'.run ops).resolveShelf loc').2.WithinLimit →
        ((l'.run ops).resolveShelf loc').1 = id → loc' = loc
  /-- An identifier leads nowhere exactly when its number exceeds the number of shelves. -/
  absent_iff : ∀ id, l.locationOf id = none ↔ l.shelves.size < id.val.toNat
  /-- An identifier that leads to a location is the one that the location gets. -/
  assigned_of_locationOf : ∀ id loc, l.locationOf id = some loc → l.Assigned id loc ∧
    ∀ ops, (l.run ops).WithinLimit → (l.run ops).Assigned id loc

theorem StandsAt.assigned (h : l.Linked) (hlim : l.WithinLimit) (hs : l.StandsAt id loc) :
    l.Assigned id loc :=
  ⟨(locationOf_eq_some_iff h hlim).mpr hs, resolveShelf_of_standsAt h hs⟩

/-- **Below the limit, locations and identifiers of shelves correspond one to one.** -/
theorem Reachable.locationsBiject (h : l.Reachable) (hrooms : l.rooms.size < Identifier.limit)
    (hrows : l.rows.size < Identifier.limit) (hshelves : l.shelves.size < Identifier.limit) :
    l.LocationsBiject where
  assigned_of_resolve := by
    intro loc
    obtain ⟨hlinked, -, hstands⟩ := resolveShelf_spec h.linked loc
    have hlim := withinLimit_resolveShelf hrooms hrows hshelves loc
    refine ⟨(l.resolveShelf loc).1, (l.resolveShelf loc).2, rfl, hstands.assigned hlinked hlim, ?_⟩
    intro ops hlater
    have hgrows := grows_run (l.resolveShelf loc).2 ops
    have hreach := (h.run [.resolve loc]).run ops
    have hstands' := hstands.of_grows hgrows
    refine ⟨hstands'.assigned hreach.linked hlater, ?_⟩
    intro loc' hlim' heq
    -- both locations are those of one shelf once the second is resolved too
    obtain ⟨hlinked', -, hother⟩ := resolveShelf_spec hreach.linked loc'
    have hthis := hstands'.of_grows (grows_resolveShelf _ loc')
    rw [← heq] at hthis
    exact hother.loc_unique hlinked' hlim' hthis
  absent_iff := fun _ =>
    locationOf_eq_none_iff h.linked ⟨Nat.le_of_lt hrooms, Nat.le_of_lt hrows, Nat.le_of_lt hshelves⟩
  assigned_of_locationOf := by
    intro id loc hloc
    have hlim : l.WithinLimit := ⟨Nat.le_of_lt hrooms, Nat.le_of_lt hrows, Nat.le_of_lt hshelves⟩
    have hstands := (locationOf_eq_some_iff h.linked hlim).mp hloc
    refine ⟨hstands.assigned h.linked hlim, ?_⟩
    intro ops hlater
    exact (hstands.of_grows (grows_run l ops)).assigned (h.run ops).linked hlater

theorem sample_locationsBiject :
    (empty.run Operation.sample).Reachable ∧ (empty.run Operation.sample).rooms.size < Identifier.limit ∧
      (empty.run Operation.sample).rows.size < Identifier.limit ∧
      (empty.run Operation.sample).shelves.size < Identifier.limit ∧
      (empty.run Operation.sample).LocationsBiject := by
  have hreach : (empty.run Operation.sample).Reachable := ⟨_, rfl⟩
  obtain ⟨hrooms, hrows, hshelves⟩ := sizes_run_le empty Operation.sample
  have hshort : (Operation.sample.flatMap Operation.steps).length < Identifier.limit := by decide +kernel
  have hempty : empty.rooms.size = 0 ∧ empty.rows.size = 0 ∧ empty.shelves.size = 0 := ⟨rfl, rfl, rfl⟩
  have hrooms' : (empty.run Operation.sample).rooms.size < Identifier.limit := by omega
  have hrows' : (empty.run Operation.sample).rows.size < Identifier.limit := by omega
  have hshelves' : (empty.run Operation.sample).shelves.size < Identifier.limit := by omega
  exact ⟨hreach, hrooms', hrows', hshelves', hreach.locationsBiject hrooms' hrows' hshelves'⟩

end LibraryCatalog.Library
