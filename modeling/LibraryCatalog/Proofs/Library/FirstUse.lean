import LibraryCatalog.Proofs.Library.Address
import LibraryCatalog.Proofs.Library.Log
import Mathlib.Data.List.Perm.Subperm

/-!
# `LibraryCatalog.Proofs.Library.FirstUse` — places are created in the order of their first use

A location that is resolved uses a room, a row of it and a shelf of that row. At each of the three levels a place is
created exactly when it is used for the first time, so that what a level holds is the list of its uses without
repetitions. The three levels keep different keys in different indexes; what they have in common is a list of keys
without repetitions that ends with the used key if it was missing, `eq_eraseDups_concat`.

## Contents
- **First uses.** The distinct entries of a list in the order of their first occurrence, which is `List.eraseDups`.
- **Numbers.** `rowNumbers?`, and that within the limit no two rows and no two shelves are known by the same numbers.
- **Order.** `FollowsUses`, kept by every step within the limit: `FollowsUses.step`, `FollowsUses.foldl_step`.
- **Runs.** `Operation.locations`, the uses of a run, and `run_allocates_in_order`.
-/

namespace LibraryCatalog

/-! ## First uses -/

section

variable {α β : Type} [BEq α] [LawfulBEq α] {a : α} {as as' bs : List α}

/-- A further occurrence adds nothing to the distinct entries. -/
theorem eraseDups_concat_of_mem (h : a ∈ as) : (as ++ [a]).eraseDups = as.eraseDups := by
  have hnone : [a].removeAll as = [] := by simp [List.removeAll, h]
  rw [List.eraseDups_append, hnone, List.eraseDups_nil, List.append_nil]

/-- A first occurrence is added at the end of the distinct entries. -/
theorem eraseDups_concat_of_not_mem (h : a ∉ as) : (as ++ [a]).eraseDups = as.eraseDups ++ [a] := by
  have hone : [a].removeAll as = [a] := by simp [List.removeAll, h]
  rw [List.eraseDups_append, hone]
  rfl

/-- Only the distinct entries before it matter for what a list adds to them. -/
theorem eraseDups_append_congr (h : as.eraseDups = as'.eraseDups) (bs : List α) :
    (as ++ bs).eraseDups = (as' ++ bs).eraseDups := by
  have hmem (b : α) : b ∈ as ↔ b ∈ as' := by
    rw [← List.mem_eraseDups, h, List.mem_eraseDups]
  have hremove : bs.removeAll as = bs.removeAll as' := by
    simp only [List.removeAll, List.elem_eq_mem, hmem]
  rw [List.eraseDups_append, List.eraseDups_append, h, hremove]

/-- Repeating an entry is adding it once. -/
theorem eraseDups_append_of_forall_eq (hbs : ∀ b ∈ bs, b = a) (hne : bs ≠ []) (as : List α) :
    (as ++ bs).eraseDups = (as ++ [a]).eraseDups := by
  induction bs generalizing as with
  | nil => exact absurd rfl hne
  | cons b bs ih =>
    obtain ⟨rfl, hbs⟩ := List.forall_mem_cons.mp hbs
    by_cases hnil : bs = []
    · rw [hnil]
    · have hrest := ih hbs hnil (as ++ [b])
      rw [List.append_assoc, eraseDups_concat_of_mem (List.mem_append_right _ List.mem_cons_self)] at hrest
      exact hrest

/-- No entry is among the distinct ones twice. -/
theorem nodup_eraseDups (as : List α) : as.eraseDups.Nodup := by
  induction hn : as.length using Nat.strongRecOn generalizing as with
  | ind n ih =>
    cases as with
    | nil => exact List.nodup_nil
    | cons a as =>
      rw [List.length_cons] at hn
      have hfilter := List.length_filter_le (fun b => !b == a) as
      rw [List.eraseDups_cons, List.nodup_cons]
      refine ⟨?_, ih _ (by omega) _ rfl⟩
      simp [List.mem_eraseDups]

/-- A list without repetitions is that of its distinct entries. -/
theorem eraseDups_of_nodup (h : as.Nodup) : as.eraseDups = as := by
  induction as with
  | nil => rfl
  | cons a as ih =>
    obtain ⟨hnew, hrest⟩ := List.nodup_cons.mp h
    have hkept : as.filter (fun b => !b == a) = as := by
      rw [List.filter_eq_self]
      intro b hb
      have hne : b ≠ a := fun heq => hnew (heq ▸ hb)
      simp [hne]
    rw [List.eraseDups_cons, hkept, ih hrest]

theorem length_eraseDups_le (as : List α) : as.eraseDups.length ≤ as.length :=
  ((nodup_eraseDups as).subperm fun _ => List.mem_eraseDups.mp).length_le

/-- The keys of a list that has grown by a key, if that was new, are the distinct keys of all that has been used. -/
theorem eq_eraseDups_concat {f : α → β} {ks ks' : List β} (hf : ∀ a b, f a = f b → a = b)
    (h : ks = as.eraseDups.map f) (hgrown : ks' = ks ∨ ks' = ks ++ [f a]) (hmem : f a ∈ ks') (hnodup : ks'.Nodup) :
    ks' = (as ++ [a]).eraseDups.map f := by
  have hused : f a ∈ ks ↔ a ∈ as := by
    rw [h, List.mem_map, ← List.mem_eraseDups]
    exact ⟨fun ⟨b, hb, heq⟩ => hf b a heq ▸ hb, fun ha => ⟨a, ha, rfl⟩⟩
  by_cases ha : a ∈ as
  · rw [eraseDups_concat_of_mem ha, ← h]
    rcases hgrown with hsame | hnew
    · exact hsame
    · -- a key that has been used would be in the list twice
      rw [hnew] at hnodup
      exact absurd rfl ((List.nodup_append.mp hnodup).2.2 _ (hused.mpr ha) _ List.mem_cons_self)
  · rw [eraseDups_concat_of_not_mem ha, List.map_append, ← h]
    rcases hgrown with hsame | hnew
    · exact absurd (hused.mp (hsame ▸ hmem)) ha
    · exact hnew

end

namespace Library

variable {l l' : Library} {uses : List Location} {loc : Location}

/-! ## Numbers -/

/-- The number of the room of a row, and the number of the row. -/
def rowNumbers? (l : Library) (r : Row) : Option (UInt32 × UInt32) :=
  l.rooms[r.room.position]?.map fun room => (room.number, r.number)

theorem rowNumbers?_eq_some_iff (h : l.Linked) (hlim : l.WithinLimit) {r : Row} {room row : UInt32} :
    l.rowNumbers? r = some (room, row) ↔ (⟨r.room, room⟩ : Room) ∈ l.rooms ∧ r.number = row := by
  simp only [rowNumbers?, Option.map_eq_some_iff, h.rooms.getElem?_position_iff hlim.rooms, Prod.mk.injEq]
  constructor
  · rintro ⟨r', ⟨hmem, hid⟩, rfl, hrow⟩
    exact ⟨hid ▸ hmem, hrow⟩
  · rintro ⟨hmem, hrow⟩
    exact ⟨_, ⟨hmem, rfl⟩, rfl, hrow⟩

/-- Rows are known by the same numbers later. -/
theorem Grows.rowNumbers? (h : l.Grows l') {r : Row} {numbers : UInt32 × UInt32}
    (hr : l.rowNumbers? r = some numbers) : l'.rowNumbers? r = some numbers := by
  rw [Library.rowNumbers?, Option.map_eq_some_iff] at hr ⊢
  obtain ⟨room, hroom, hnumbers⟩ := hr
  exact ⟨room, getElem?_of_toList_prefix h.rooms hroom, hnumbers⟩

/-- Every row is known by its numbers. -/
theorem exists_rowNumbers? (h : l.Linked) (hlim : l.WithinLimit) {r : Row} (hr : r ∈ l.rows) :
    ∃ number, (⟨r.room, number⟩ : Room) ∈ l.rooms ∧ l.rowNumbers? r = some (number, r.number) := by
  obtain ⟨room, hroom, hid⟩ := h.row_room r hr
  have hmem : (⟨r.room, room.number⟩ : Room) ∈ l.rooms := hid ▸ hroom
  exact ⟨room.number, hmem, (rowNumbers?_eq_some_iff h hlim).mpr ⟨hmem, rfl⟩⟩

/-- Entries with different keys have different values, if the value tells the key. -/
theorem nodup_map_of_nodup_map {α β γ : Type} {as : List α} {f : α → β} {g : α → γ} (h : (as.map f).Nodup)
    (hfg : ∀ a ∈ as, ∀ b ∈ as, g a = g b → f a = f b) : (as.map g).Nodup := by
  rw [List.Nodup, List.pairwise_map] at h ⊢
  exact h.imp_of_mem fun ha hb hne heq => hne (hfg _ ha _ hb heq)

/-- Within the limit no two rows have the same numbers. -/
theorem nodup_rowNumbers? (h : l.Linked) (hlim : l.WithinLimit) : (l.rows.toList.map l.rowNumbers?).Nodup := by
  refine nodup_map_of_nodup_map h.rows.key_nodup fun r hr r' hr' heq => ?_
  obtain ⟨number, hroom, hnumbers⟩ := exists_rowNumbers? h hlim (Array.mem_toList_iff.mp hr)
  rw [hnumbers, eq_comm, rowNumbers?_eq_some_iff h hlim] at heq
  obtain ⟨hroom', hrow⟩ := heq
  -- a number leads to one room
  have hid := (h.roomIndex_iff.mpr hroom).symm.trans (h.roomIndex_iff.mpr hroom')
  rw [Row.key, Row.key, Option.some.inj hid, hrow]

/-- Within the limit no two shelves stand at the same location. -/
theorem nodup_locationOf (h : l.Linked) (hlim : l.WithinLimit) :
    (l.shelves.toList.map fun s => l.locationOf s.id).Nodup := by
  refine nodup_map_of_nodup_map h.shelves.key_nodup fun s hs s' hs' heq => ?_
  rw [Array.mem_toList_iff] at hs hs'
  obtain ⟨loc, hstands⟩ := exists_standsAt h hs
  have hstands' := (locationOf_eq_some_iff h hlim).mpr hstands
  rw [heq, locationOf_eq_some_iff h hlim] at hstands'
  -- a location has one shelf, and within the limit an identifier belongs to one entry
  rw [h.shelves.eq_of_ident_eq hlim.shelves hs hs' (hstands.id_unique h hstands')]

/-! ## Order -/

/-- The keys of an array that has not grown, or by one entry. -/
theorem map_toList_grown {α β : Type} {xs xs' : Array α} {x : α} {f f' : α → β} (h : xs' = xs ∨ xs' = xs.push x)
    (hf : ∀ y ∈ xs, f' y = f y) :
    xs'.toList.map f' = xs.toList.map f ∨ xs'.toList.map f' = xs.toList.map f ++ [f' x] := by
  have hkept : xs.toList.map f' = xs.toList.map f :=
    List.map_congr_left fun y hy => hf y (Array.mem_toList_iff.mp hy)
  rcases h with rfl | rfl
  · exact .inl hkept
  · rw [Array.toList_push, List.map_append, hkept]
    exact .inr rfl

/-- The places of each level are those of the uses, in the order in which they were used first. -/
structure FollowsUses (l : Library) (uses : List Location) : Prop where
  rooms : l.rooms.toList.map Room.number = (uses.map Location.room).eraseDups
  rows : l.rows.toList.map l.rowNumbers? = (uses.map fun loc => (loc.room, loc.row)).eraseDups.map some
  shelves : l.shelves.toList.map (fun s => l.locationOf s.id) = uses.eraseDups.map some

theorem followsUses_empty : empty.FollowsUses [] := ⟨rfl, rfl, rfl⟩

/-- **A step creates what it uses for the first time**, within the limit. -/
theorem FollowsUses.step (h : l.FollowsUses uses) (hl : l.Linked) (s : Step) (hlim : (l.step s).WithinLimit) :
    (l.step s).FollowsUses (uses ++ [s.location]) := by
  obtain ⟨room, row, shelf, hresolved⟩ := step_resolved l s
  have hgrows := grows_step l s
  have hl' := linked_step hl s
  have hlim₀ := hlim.of_grows hgrows
  generalize l.step s = l' at *
  generalize s.location = loc at *
  have hroom := hl'.roomIndex_iff.mp hresolved.roomIndex
  have hrow := hl'.rowIndex_iff.mp hresolved.rowIndex
  have hshelf := hl'.shelfIndex_iff.mp hresolved.shelfIndex
  have hnumbers : l'.rowNumbers? ⟨row, loc.row, room⟩ = some (loc.room, loc.row) :=
    (rowNumbers?_eq_some_iff hl' hlim).mpr ⟨hroom, rfl⟩
  have hlocation : l'.locationOf shelf = some loc :=
    (locationOf_eq_some_iff hl' hlim).mpr ⟨room, row, hroom, hrow, hshelf⟩
  constructor
  · have hgrown := map_toList_grown (f := Room.number) hresolved.rooms fun _ _ => rfl
    have hmem := List.mem_map_of_mem (f := Room.number) (Array.mem_toList_iff.mpr hroom)
    have hrooms := h.rooms.trans (List.map_id _).symm
    rw [List.map_append, List.map_singleton, ← List.map_id (List.eraseDups _)]
    exact eq_eraseDups_concat (fun _ _ => id) hrooms hgrown hmem hl'.rooms.key_nodup
  · have hkept : ∀ r ∈ l.rows, l'.rowNumbers? r = l.rowNumbers? r := by
      intro r hr
      obtain ⟨number, -, hr⟩ := exists_rowNumbers? hl hlim₀ hr
      rw [hr, hgrows.rowNumbers? hr]
    have hgrown := map_toList_grown hresolved.rows hkept
    have hmem := List.mem_map_of_mem (f := l'.rowNumbers?) (Array.mem_toList_iff.mpr hrow)
    rw [hnumbers] at hgrown hmem
    rw [List.map_append, List.map_singleton]
    exact eq_eraseDups_concat (fun _ _ => Option.some.inj) h.rows hgrown hmem (nodup_rowNumbers? hl' hlim)
  · have hkept : ∀ s ∈ l.shelves, l'.locationOf s.id = l.locationOf s.id := by
      intro s hs
      obtain ⟨loc, hstands⟩ := exists_standsAt hl hs
      have hloc := (locationOf_eq_some_iff hl hlim₀).mpr hstands
      rw [hloc, hgrows.locationOf hloc]
    have hgrown := map_toList_grown hresolved.shelves hkept
    have hmem := List.mem_map_of_mem (f := fun s => l'.locationOf s.id) (Array.mem_toList_iff.mpr hshelf)
    rw [hlocation] at hgrown hmem
    exact eq_eraseDups_concat (fun _ _ => Option.some.inj) h.shelves hgrown hmem (nodup_locationOf hl' hlim)

/-- **Steps create what they use for the first time**, in their order, within the limit. -/
theorem FollowsUses.foldl_step {ss : List Step} (h : l.FollowsUses uses) (hl : l.Linked)
    (hlim : (ss.foldl Library.step l).WithinLimit) :
    (ss.foldl Library.step l).FollowsUses (uses ++ ss.map Step.location) := by
  induction ss generalizing l uses with
  | nil =>
    rw [List.map_nil, List.append_nil]
    exact h
  | cons s ss ih =>
    have hstep := h.step hl s (hlim.of_grows (grows_foldl_step (l.step s) ss))
    have hrest := ih hstep (linked_step hl s) hlim
    rw [List.append_assoc] at hrest
    exact hrest

/-- There are as many places of each level as different uses. -/
theorem FollowsUses.counts_eq (h : l.FollowsUses uses) :
    l.counts = ⟨(uses.map Location.room).eraseDups.length,
      (uses.map fun loc => (loc.room, loc.row)).eraseDups.length, uses.eraseDups.length, l.books.size⟩ := by
  have hrooms := congrArg List.length h.rooms
  have hrows := congrArg List.length h.rows
  have hshelves := congrArg List.length h.shelves
  simp only [List.length_map, Array.length_toList] at hrooms hrows hshelves
  rw [counts, hrooms, hrows, hshelves]

/-! ## Runs -/

end Library

/-- The locations that operations resolve or place a book at, one for each time and in their order. A text or a file
    that fails is not among them, nor is one without records. -/
def Operation.locations (ops : List Operation) : List Location := (ops.flatMap Operation.steps).map Step.location

namespace Library

/-- Runs create what they use for the first time. -/
theorem followsUses_run (ops : List Operation) (hlim : (empty.run ops).WithinLimit) :
    (empty.run ops).FollowsUses (Operation.locations ops) := by
  rw [run_eq_foldl_step] at hlim ⊢
  exact followsUses_empty.foldl_step linked_empty hlim

/-- **Rooms, rows and shelves are created in the order of their first use**, within the limit: those of a run are the
    distinct rooms, rows of a room and locations that it uses, the `n`-th of each has the number `n` for an identifier,
    and the counts are those of the distinct uses and of the placed books. -/
theorem run_allocates_in_order (ops : List Operation) (hlim : (empty.run ops).WithinLimit) :
    (empty.run ops).FollowsUses (Operation.locations ops) ∧
    (∀ n r, (empty.run ops).rooms[n]? = some r → r.id.val.toNat = n + 1) ∧
    (∀ n r, (empty.run ops).rows[n]? = some r → r.id.val.toNat = n + 1) ∧
    (∀ n s, (empty.run ops).shelves[n]? = some s → s.id.val.toNat = n + 1) ∧
    (empty.run ops).counts =
      ⟨((Operation.locations ops).map Location.room).eraseDups.length,
        ((Operation.locations ops).map fun loc => (loc.room, loc.row)).eraseDups.length,
        (Operation.locations ops).eraseDups.length, (Log.ofOperations ops).length⟩ := by
  have hlinked : (empty.run ops).Linked := Reachable.linked ⟨ops, rfl⟩
  have hsize := (represents_run ops).size
  have huses := followsUses_run ops hlim
  refine ⟨huses, fun n r hr => hlinked.rooms.toNat_val_ident hlim.rooms hr,
    fun n r hr => hlinked.rows.toNat_val_ident hlim.rows hr,
    fun n s hs => hlinked.shelves.toNat_val_ident hlim.shelves hs, ?_⟩
  rw [huses.counts_eq, hsize]

theorem sample_allocates_in_order :
    (empty.run Operation.sample).WithinLimit ∧
      (empty.run Operation.sample).FollowsUses [⟨1, 1, 1⟩, ⟨2, 1, 0⟩, ⟨1, 2, 1⟩] ∧
      (empty.run Operation.sample).counts = ⟨2, 3, 3, 2⟩ := by
  have hlim := withinLimit_run Operation.sample (by decide +kernel)
  have hlocations : Operation.locations Operation.sample = [⟨1, 1, 1⟩, ⟨2, 1, 0⟩, ⟨1, 2, 1⟩] := by decide +kernel
  obtain ⟨huses, -, -, -, hcounts⟩ := run_allocates_in_order Operation.sample hlim
  rw [hlocations] at huses hcounts
  exact ⟨hlim, huses, hcounts.trans (by decide +kernel)⟩

end Library

end LibraryCatalog
