import LibraryCatalog.Identifier
import Std.Data.HashMap

/-!
# `LibraryCatalog.Proofs.Library.Index` — a list with an index by key

Rooms, rows and shelves are kept alike: an array in the order of creation, identifiers counted from its positions,
and an index from a key to the identifier. The key of a room is its number; that of a row or of a shelf is the
identity of what holds it, with its number. This module states once what ties the three parts together.

## Contents
- **Counting.** Which positions share an identifier: `Identifier.ofPosition_eq_ofPosition_iff`, and that none do exactly up
  to the limit, `Identifier.nodup_map_ofPosition_iff`.
- **Agreement.** `Indexed key ident xs index`, that an empty array and a pushed entry have it, and that a key has one
  position: `Indexed.position_unique`.
- **Identifiers.** `Indexed.toNat_ident`, and `Indexed.nodup_ident_iff` for arrays of any size.
- **Below the limit.** An identifier leads back to its entry: `Indexed.getElem?_position_iff`, `Indexed.eq_of_ident_eq`.
-/

namespace LibraryCatalog

/-! ## Counting -/

namespace Identifier

variable {e : Entity}

/-- Two positions have one identifier if they are the same, or if both have reached the limit. -/
theorem ofPosition_eq_ofPosition_iff {m n : Nat} :
    (ofPosition m : Identifier e) = ofPosition n ↔ min (m + 1) limit = min (n + 1) limit := by
  constructor
  · intro h
    rw [← toNat_ofPosition (e := e), ← toNat_ofPosition (e := e), h]
  · intro h
    apply eq_of_val_eq
    apply UInt32.toNat_inj.mp
    rw [toNat_ofPosition, toNat_ofPosition, h]

/-- **The identifiers of so many positions are different** exactly as long as there are no more than the limit. -/
theorem nodup_map_ofPosition_iff {n : Nat} :
    ((List.range n).map (ofPosition : Nat → Identifier e)).Nodup ↔ n ≤ limit := by
  unfold List.Nodup
  rw [List.pairwise_map]
  constructor
  · intro h
    refine Nat.le_of_not_lt fun hn => ?_
    rw [List.pairwise_iff_getElem] at h
    -- the position at which the limit is reached, and the next one
    have hne := h (limit - 1) limit (by rw [List.length_range]; omega) (by rw [List.length_range]; omega) (by decide)
    rw [List.getElem_range, List.getElem_range] at hne
    exact hne (ofPosition_eq_ofPosition_iff.mpr (by decide))
  · intro hn
    refine List.nodup_range.imp_of_mem fun {i j} hi hj hne heq => ?_
    rw [List.mem_range] at hi hj
    have hmin := ofPosition_eq_ofPosition_iff.mp heq
    omega

end Identifier

variable {α κ : Type} [BEq κ] [LawfulBEq κ] [Hashable κ] [LawfulHashable κ] {e : Entity}

/-! ## Agreement -/

/-- An array and its index agree: identifiers are counted from the positions, the index leads from a key to an
    identifier exactly when some entry has both, and no key occurs twice. -/
structure Indexed (key : α → κ) (ident : α → Identifier e) (xs : Array α)
    (index : Std.HashMap κ (Identifier e)) : Prop where
  ident_at : ∀ n x, xs[n]? = some x → ident x = .ofPosition n
  index_iff : ∀ k i, index[k]? = some i ↔ ∃ x ∈ xs, key x = k ∧ ident x = i
  key_nodup : (xs.toList.map key).Nodup

namespace Indexed

variable {key : α → κ} {ident : α → Identifier e} {xs : Array α} {index : Std.HashMap κ (Identifier e)}

theorem empty : Indexed key ident #[] (∅ : Std.HashMap κ (Identifier e)) where
  ident_at := by intro n x h; simp at h
  index_iff := by intro k i; simp
  key_nodup := List.nodup_nil

omit [LawfulBEq κ] [LawfulHashable κ] in
/-- A key that the index does not know belongs to no entry. -/
theorem key_ne_of_index_eq_none (h : Indexed key ident xs index) {k : κ} (hk : index[k]? = none) {x : α}
    (hx : x ∈ xs) : key x ≠ k := by
  intro hkey
  have hsome := (h.index_iff k (ident x)).mpr ⟨x, hx, hkey, rfl⟩
  rw [hk] at hsome
  exact absurd hsome (by simp)

/-- **A new entry keeps the agreement**, if its key is new and its identifier is the next one. -/
theorem push (h : Indexed key ident xs index) {x : α} (hnew : index[key x]? = none)
    (hident : ident x = .ofPosition xs.size) :
    Indexed key ident (xs.push x) (index.insert (key x) (ident x)) where
  ident_at := by
    intro n y hy
    rw [Array.getElem?_push] at hy
    by_cases hn : n = xs.size
    · rw [if_pos hn] at hy
      obtain rfl : x = y := Option.some.inj hy
      rw [hident, hn]
    · rw [if_neg hn] at hy
      exact h.ident_at n y hy
  index_iff := by
    intro k i
    rw [Std.HashMap.getElem?_insert]
    by_cases hk : key x = k
    · rw [if_pos (beq_iff_eq.mpr hk), Option.some.injEq]
      constructor
      · intro hi
        exact ⟨x, Array.mem_push_self, hk, hi⟩
      · rintro ⟨y, hy, hykey, hyi⟩
        rcases Array.mem_push.mp hy with hold | rfl
        · -- no earlier entry has the new key
          exact absurd (hykey.trans hk.symm) (h.key_ne_of_index_eq_none hnew hold)
        · exact hyi
    · rw [if_neg (fun hbeq => hk (beq_iff_eq.mp hbeq)), h.index_iff]
      constructor
      · rintro ⟨y, hy, hyki⟩
        exact ⟨y, Array.mem_push_of_mem x hy, hyki⟩
      · rintro ⟨y, hy, hykey, hyi⟩
        rcases Array.mem_push.mp hy with hold | rfl
        · exact ⟨y, hold, hykey, hyi⟩
        · exact absurd hykey hk
  key_nodup := by
    rw [Array.toList_push, List.map_append, List.nodup_append]
    refine ⟨h.key_nodup, by simp, ?_⟩
    intro a ha b hb
    obtain ⟨y, hy, rfl⟩ := List.mem_map.mp ha
    obtain rfl : b = key x := by simpa using hb
    exact h.key_ne_of_index_eq_none hnew (Array.mem_toList_iff.mp hy)

omit [LawfulBEq κ] [LawfulHashable κ] in
/-- An entry stands at one position only, if its key is taken for it: no two positions have one key. -/
theorem position_unique (h : Indexed key ident xs index) {m n : Nat} {x y : α} (hx : xs[m]? = some x)
    (hy : xs[n]? = some y) (hkey : key x = key y) : m = n := by
  obtain ⟨hm, -⟩ := Array.getElem?_eq_some_iff.mp hx
  have hlength : m < (xs.toList.map key).length := by
    rw [List.length_map, Array.length_toList]
    exact hm
  refine (List.getElem?_inj hlength h.key_nodup).mp ?_
  rw [List.getElem?_map, List.getElem?_map, Array.getElem?_toList, Array.getElem?_toList, hx, hy, Option.map_some,
    Option.map_some, hkey]

omit [LawfulBEq κ] [LawfulHashable κ] in
/-- Entries whose keys are all the same are no more than one. -/
theorem size_le_one (h : Indexed key ident xs index) (hsame : ∀ x ∈ xs, ∀ y ∈ xs, key x = key y) :
    xs.size ≤ 1 := by
  refine Nat.le_of_not_lt fun hlt => ?_
  have hfirst : xs[0]? = some xs[0] := Array.getElem?_eq_getElem (by omega)
  have hnext : xs[1]? = some xs[1] := Array.getElem?_eq_getElem hlt
  have hkey := hsame _ (Array.mem_of_getElem? hfirst) _ (Array.mem_of_getElem? hnext)
  exact absurd (h.position_unique hfirst hnext hkey) Nat.zero_ne_one

/-! ## Identifiers -/

omit [LawfulBEq κ] [LawfulHashable κ] in
/-- **The number of an identifier** is one more than the position of its entry, but never more than the limit. -/
theorem toNat_ident (h : Indexed key ident xs index) {n : Nat} {x : α} (hx : xs[n]? = some x) :
    (ident x).val.toNat = min (n + 1) Identifier.limit := by
  rw [h.ident_at n x hx, Identifier.toNat_ofPosition]

omit [LawfulBEq κ] [LawfulHashable κ] in
/-- The identifiers of the entries are those of the positions, in their order. -/
theorem map_ident (h : Indexed key ident xs index) :
    xs.toList.map ident = (List.range xs.size).map Identifier.ofPosition := by
  apply List.ext_getElem?
  intro n
  rw [List.getElem?_map, List.getElem?_map, Array.getElem?_toList]
  cases hx : xs[n]? with
  | none =>
    rw [Array.getElem?_eq_none_iff] at hx
    rw [List.getElem?_eq_none (by rw [List.length_range]; exact hx)]
    rfl
  | some x =>
    obtain ⟨hn, -⟩ := Array.getElem?_eq_some_iff.mp hx
    rw [List.getElem?_range hn, Option.map_some, Option.map_some, h.ident_at n x hx]

omit [LawfulBEq κ] [LawfulHashable κ] in
/-- **No two entries share an identifier** exactly as long as there are no more entries than the limit. -/
theorem nodup_ident_iff (h : Indexed key ident xs index) :
    (xs.toList.map ident).Nodup ↔ xs.size ≤ Identifier.limit := by
  rw [h.map_ident, Identifier.nodup_map_ofPosition_iff]

/-! ## Below the limit -/

omit [LawfulBEq κ] [LawfulHashable κ] in
/-- The number of an identifier is one more than the position of its entry, as long as identifiers suffice. -/
theorem toNat_val_ident (h : Indexed key ident xs index) (hsize : xs.size ≤ Identifier.limit) {n : Nat}
    {x : α} (hx : xs[n]? = some x) : (ident x).val.toNat = n + 1 := by
  obtain ⟨hn, -⟩ := Array.getElem?_eq_some_iff.mp hx
  rw [h.toNat_ident hx]
  omega

omit [LawfulBEq κ] [LawfulHashable κ] in
/-- The entry at the position of an identifier has that identifier. -/
theorem ident_eq_of_getElem?_position (h : Indexed key ident xs index) {i : Identifier e} {x : α}
    (hx : xs[i.position]? = some x) : ident x = i := by
  rw [h.ident_at i.position x hx, Identifier.ofPosition_position]

omit [LawfulBEq κ] [LawfulHashable κ] in
/-- An identifier leads back to its entry, as long as identifiers suffice. -/
theorem getElem?_position_iff (h : Indexed key ident xs index) (hsize : xs.size ≤ Identifier.limit)
    {i : Identifier e} {x : α} : xs[i.position]? = some x ↔ x ∈ xs ∧ ident x = i := by
  constructor
  · intro hx
    exact ⟨Array.mem_of_getElem? hx, h.ident_eq_of_getElem?_position hx⟩
  · rintro ⟨hmem, rfl⟩
    obtain ⟨n, hn, hx⟩ := Array.getElem_of_mem hmem
    have hget : xs[n]? = some x := by rw [Array.getElem?_eq_getElem hn, hx]
    -- positions below the limit survive being made into an identifier
    rw [h.ident_at n x hget, Identifier.position_ofPosition (by omega)]
    exact hget

omit [LawfulBEq κ] [LawfulHashable κ] in
/-- Two entries with one identifier are the same, as long as identifiers suffice. -/
theorem eq_of_ident_eq (h : Indexed key ident xs index) (hsize : xs.size ≤ Identifier.limit) {x y : α} (hx : x ∈ xs)
    (hy : y ∈ xs) (hident : ident x = ident y) : x = y := by
  have hget := (h.getElem?_position_iff hsize).mpr ⟨hx, hident⟩
  have hget' := (h.getElem?_position_iff hsize).mpr ⟨hy, rfl⟩
  exact Option.some.inj (hget.symm.trans hget')

end Indexed

end LibraryCatalog
