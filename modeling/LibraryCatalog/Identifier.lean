import LibraryCatalog.Text.Decimal

/-!
# `LibraryCatalog.Identifier` — stable identities of rooms, rows and shelves

An identifier is a positive 32-bit number. Rooms, rows and shelves are numbered apart, and an identifier carries
in its type what it identifies, so that one kind cannot stand in for another.

## Contents
- **Kinds.** `Entity`, and `RoomId`, `RowId`, `ShelfId`.
- **Making.** `ofRaw?` refuses zero; `ofPosition` numbers the entries of a list from one.
- **Reading off.** `position` undoes `ofPosition` below the limit and `ofPosition` undoes `position` everywhere;
  `text` is the displayed form.
-/

namespace LibraryCatalog

/-! ## Kinds -/

/-- What an identifier can identify. -/
inductive Entity where
  | room
  | row
  | shelf
deriving Repr, DecidableEq

/-- The word for an entity. -/
def Entity.name : Entity → String
  | .room => "room"
  | .row => "row"
  | .shelf => "shelf"

/-- A positive 32-bit number that identifies an entity of the given kind. -/
structure Identifier (e : Entity) where
  val : UInt32
  val_ne_zero : val ≠ 0
deriving DecidableEq

/-- The identity of a room. -/
abbrev RoomId := Identifier .room

/-- The identity of a row within a room. -/
abbrev RowId := Identifier .row

/-- The identity of a shelf within a row. -/
abbrev ShelfId := Identifier .shelf

namespace Identifier

variable {e : Entity}

instance : Hashable (Identifier e) := ⟨fun i => hash i.val⟩

instance : Repr (Identifier e) := ⟨fun i => reprPrec i.val⟩

instance : Inhabited (Identifier e) := ⟨⟨1, by decide⟩⟩

theorem eq_of_val_eq {i j : Identifier e} (h : i.val = j.val) : i = j := by
  cases i; cases j; cases h; rfl

/-! ## Making -/

/-- The identifier with the given number, if it is not zero. -/
def ofRaw? (n : UInt32) : Option (Identifier e) :=
  if h : n = 0 then none else some ⟨n, h⟩

/-- The largest number that an identifier can have. -/
def limit : Nat := 4294967295

/-- The identifier of the entry at a position, counted from zero. Positions at and beyond the limit share the
    last identifier. -/
def ofPosition (n : Nat) : Identifier e where
  val := UInt32.ofNat (min (n + 1) limit)
  val_ne_zero := by
    intro h
    have := congrArg UInt32.toNat h
    simp only [UInt32.toNat_ofNat', limit] at this
    have hlt : min (n + 1) 4294967295 < 2 ^ 32 := by omega
    rw [Nat.mod_eq_of_lt hlt] at this
    simp at this

/-! ## Reading off -/

/-- The position, counted from zero, of the entry that an identifier belongs to. -/
def position (i : Identifier e) : Nat := i.val.toNat - 1

/-- The displayed form: the word for the entity, a colon and the number. -/
def text (i : Identifier e) : String := e.name ++ ":" ++ Text.natText i.val.toNat

theorem toNat_ofPosition (n : Nat) :
    (ofPosition n : Identifier e).val.toNat = min (n + 1) limit := by
  have hlt : min (n + 1) limit < 2 ^ 32 := by simp only [limit]; omega
  rw [ofPosition, UInt32.toNat_ofNat', Nat.mod_eq_of_lt hlt]

theorem position_ofPosition {n : Nat} (h : n < limit) :
    (ofPosition n : Identifier e).position = n := by
  rw [position, toNat_ofPosition]
  omega

/-- Every identifier belongs to some position. -/
theorem ofPosition_position (i : Identifier e) : ofPosition i.position = i := by
  apply eq_of_val_eq
  apply UInt32.toNat_inj.mp
  have hpos : i.val.toNat ≠ 0 := fun h => i.val_ne_zero (UInt32.toNat_inj.mp h)
  have hlt : i.val.toNat < 4294967296 := i.val.toNat_lt
  rw [toNat_ofPosition, position, limit]
  omega

theorem ofRaw?_val (i : Identifier e) : ofRaw? i.val = some i := by
  simp [ofRaw?, i.val_ne_zero]

end Identifier

end LibraryCatalog
