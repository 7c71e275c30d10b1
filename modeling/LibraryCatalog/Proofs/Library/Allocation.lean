import LibraryCatalog.Proofs.Library.FirstUse

/-!
# `LibraryCatalog.Proofs.Library.Allocation` — the shelf of a location has its rank for a number

The shelves of a library stand, in the order of their creation, at the distinct locations of the steps that have led
to it. A location therefore has the shelf whose number is the rank of the location among these, and so have the
books that are placed there. How many places there can be at most is said without a limit, so that a count of the
distinct locations shows that the limit is kept.

## Contents
- **Number.** `Serves`: every location of a step has a shelf, and there are no more places than distinct locations;
  `withinLimit_foldl_step`.
- **Order.** `Allocates`: the shelves stand at the distinct locations in their order.
- **Books.** `rankId`, and `Represents.toList_books`: the catalog is the log, with ranks for identifiers.
-/

namespace LibraryCatalog

namespace Library

variable {l : Library} {locs : List Location} {id : ShelfId} {loc : Location}

/-- After a step a shelf stands at its location. -/
theorem exists_standsAt_step (h : l.Linked) (s : Step) : ∃ id, (l.step s).StandsAt id s.location := by
  obtain ⟨room, row, shelf, hresolved⟩ := step_resolved l s
  exact ⟨shelf, (standsAt_iff_leads (linked_step h s)).mpr ⟨room, row, hresolved.toLeads⟩⟩

/-- A step at a location with a shelf creates nothing. -/
theorem places_step_of_standsAt (h : l.Linked) {s : Step} (hs : l.StandsAt id s.location) :
    (l.step s).rooms = l.rooms ∧ (l.step s).rows = l.rows ∧ (l.step s).shelves = l.shelves := by
  cases s with
  | resolve loc =>
    have hresolve : l.resolveShelf loc = (id, l) := resolveShelf_of_standsAt h hs
    rw [step, hresolve]
    exact ⟨rfl, rfl, rfl⟩
  | place b loc =>
    have hresolve : l.resolveShelf loc = (id, l) := resolveShelf_of_standsAt h hs
    rw [step, place_eq, hresolve]
    exact ⟨rfl, rfl, rfl⟩

/-! ## Number -/

/-- Every location has a shelf, and there are at most as many rooms, rows and shelves as distinct locations. -/
structure Serves (l : Library) (locs : List Location) : Prop where
  standsAt : ∀ loc ∈ locs, ∃ id, l.StandsAt id loc
  rooms : l.rooms.size ≤ locs.eraseDups.length
  rows : l.rows.size ≤ locs.eraseDups.length
  shelves : l.shelves.size ≤ locs.eraseDups.length

theorem serves_empty : empty.Serves [] where
  standsAt := nofun
  rooms := Nat.le_refl 0
  rows := Nat.le_refl 0
  shelves := Nat.le_refl 0

/-- **A step creates places for a new location only.** -/
theorem Serves.step (h : l.Serves locs) (hl : l.Linked) (s : Step) : (l.step s).Serves (locs ++ [s.location]) := by
  have hstands : ∀ loc ∈ locs ++ [s.location], ∃ id, (l.step s).StandsAt id loc := by
    intro loc hloc
    rcases List.mem_append.mp hloc with hold | hnew
    · obtain ⟨id, hid⟩ := h.standsAt loc hold
      exact ⟨id, hid.of_grows (grows_step l s)⟩
    · obtain rfl := List.mem_singleton.mp hnew
      exact exists_standsAt_step hl s
  by_cases hmem : s.location ∈ locs
  · obtain ⟨id, hid⟩ := h.standsAt _ hmem
    obtain ⟨hrooms, hrows, hshelves⟩ := places_step_of_standsAt hl hid
    refine ⟨hstands, ?_, ?_, ?_⟩ <;> rw [eraseDups_concat_of_mem hmem]
    · exact hrooms ▸ h.rooms
    · exact hrows ▸ h.rows
    · exact hshelves ▸ h.shelves
  · obtain ⟨hrooms, hrows, hshelves⟩ := sizes_step_le l s
    refine ⟨hstands, ?_, ?_, ?_⟩ <;> rw [eraseDups_concat_of_not_mem hmem, List.length_append, List.length_singleton]
    · exact Nat.le_trans hrooms (Nat.add_le_add_right h.rooms 1)
    · exact Nat.le_trans hrows (Nat.add_le_add_right h.rows 1)
    · exact Nat.le_trans hshelves (Nat.add_le_add_right h.shelves 1)

/-- **Steps serve their locations.** -/
theorem Serves.foldl_step (h : l.Serves locs) (hl : l.Linked) (ss : List Step) :
    (ss.foldl Library.step l).Serves (locs ++ ss.map Step.location) := by
  induction ss generalizing l locs with
  | nil =>
    rw [List.map_nil, List.append_nil]
    exact h
  | cons s ss ih =>
    have hrest := ih (h.step hl s) (linked_step hl s)
    rw [List.append_assoc] at hrest
    exact hrest

/-- Steps at no more distinct locations than there are identifiers stay within the limit. -/
theorem withinLimit_foldl_step {ss : List Step}
    (h : (ss.map Step.location).eraseDups.length ≤ Identifier.limit) : (ss.foldl step empty).WithinLimit := by
  have hserves := serves_empty.foldl_step linked_empty ss
  rw [List.nil_append] at hserves
  exact ⟨Nat.le_trans hserves.rooms h, Nat.le_trans hserves.rows h, Nat.le_trans hserves.shelves h⟩

/-! ## Order -/

/-- The shelves stand at the distinct locations, in the order of their first occurrence. -/
structure Allocates (l : Library) (locs : List Location) : Prop where
  size : l.shelves.size = locs.eraseDups.length
  standsAt : ∀ n loc, locs.eraseDups[n]? = some loc → l.StandsAt (.ofPosition n) loc

/-- Shelves that follow the uses within the limit stand at them. -/
theorem FollowsUses.allocates (h : l.FollowsUses locs) (hl : l.Linked) (hlim : l.WithinLimit) : l.Allocates locs where
  size := by
    have hlength := congrArg List.length h.shelves
    rwa [List.length_map, List.length_map, Array.length_toList] at hlength
  standsAt := by
    intro n loc hn
    have hlocation : (l.shelves.toList.map fun s => l.locationOf s.id)[n]? = some (some loc) := by
      rw [h.shelves, List.getElem?_map, hn]
      rfl
    rw [List.getElem?_map, Option.map_eq_some_iff] at hlocation
    obtain ⟨s, hs, hloc⟩ := hlocation
    rw [Array.getElem?_toList] at hs
    rw [← hl.shelves.ident_at n s hs]
    exact (locationOf_eq_some_iff hl hlim).mp hloc

/-- Within the limit no shelf stands anywhere else. -/
theorem Allocates.mem_of_standsAt (h : l.Allocates locs) (hl : l.Linked) (hlim : l.WithinLimit)
    (hs : l.StandsAt id loc) : loc ∈ locs := by
  obtain ⟨n, rfl, room, row, -, -, hget⟩ := exists_createdAt_of_standsAt hl hs
  obtain ⟨hn, -⟩ := Array.getElem?_eq_some_iff.mp hget
  rw [h.size] at hn
  have hthere := h.standsAt n _ (List.getElem?_eq_getElem hn)
  rw [hs.loc_unique hl hlim hthere]
  exact List.mem_eraseDups.mp (List.getElem_mem hn)

/-! ## Books -/

/-- The identifier that has the rank of a location among distinct ones for its number. -/
def rankId (distinct : List Location) (loc : Location) : ShelfId := .ofPosition (distinct.idxOf loc)

/-- A location that has been allocated has the shelf of its rank. -/
theorem Allocates.standsAt_rankId (h : l.Allocates locs) (hloc : loc ∈ locs) :
    l.StandsAt (rankId locs.eraseDups loc) loc := by
  have hlt := List.idxOf_lt_length_of_mem (List.mem_eraseDups.mpr hloc)
  refine h.standsAt _ loc ?_
  rw [List.getElem?_eq_getElem hlt, List.getElem_idxOf]

/-- **The catalog is the log**, each book on the shelf of the rank of its location. -/
theorem Represents.toList_books {log : Log} (h : l.Represents log) (halloc : l.Allocates locs) (hl : l.Linked)
    (hlog : ∀ p ∈ log, p.2 ∈ locs) :
    l.books.toList = log.map fun (b, loc) => { b with shelf := some (rankId locs.eraseDups loc) } := by
  apply List.ext_getElem?
  intro n
  rw [List.getElem?_map, Array.getElem?_toList]
  cases hn : log[n]? with
  | none =>
    rw [List.getElem?_eq_none_iff, ← h.size] at hn
    rw [Array.getElem?_eq_none hn]
    rfl
  | some entry =>
    obtain ⟨b, loc⟩ := entry
    obtain ⟨id, hbook, hstands⟩ := h.book_at n b loc hn
    have hrank := halloc.standsAt_rankId (hlog _ (List.mem_of_getElem? hn))
    rw [hbook, hstands.id_unique hl hrank]
    rfl

end Library

end LibraryCatalog
