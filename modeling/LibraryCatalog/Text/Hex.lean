/-!
# `LibraryCatalog.Text.Hex` — numbers in base sixteen

## Contents
- **Reading.** `hexDigit?` for one digit of either case, `hex?` for a run of them.
- **Writing.** `hex4`, four digits in small letters.
-/

namespace LibraryCatalog.Text

/-- The value of a digit of base sixteen, in either case. -/
def hexDigit? (c : Char) : Option Nat :=
  if c.isDigit then some (c.toNat - 48)
  else if 'a' ≤ c && c ≤ 'f' then some (c.toNat - 87)
  else if 'A' ≤ c && c ≤ 'F' then some (c.toNat - 55)
  else none

/-- The value of a run of digits of base sixteen. -/
def hex? (cs : List Char) : Option Nat :=
  cs.foldlM (fun n c => (hexDigit? c).map (16 * n + ·)) 0

/-- The last four digits of a number in base sixteen. -/
def hex4 (n : Nat) : List Char :=
  [Nat.digitChar (n / 4096 % 16), Nat.digitChar (n / 256 % 16), Nat.digitChar (n / 16 % 16),
    Nat.digitChar (n % 16)]

theorem hexDigit?_digitChar {d : Nat} (h : d < 16) : hexDigit? (Nat.digitChar d) = some d := by
  revert d
  decide

/-- Four digits read back as the number, if it has no more. -/
theorem hex?_hex4 {n : Nat} (h : n < 65536) : hex? (hex4 n) = some n := by
  simp only [hex?, hex4, List.foldlM_cons, List.foldlM_nil, hexDigit?_digitChar (Nat.mod_lt _ (by omega)),
    Option.map_some, Option.bind_eq_bind, Option.bind_some, Option.pure_def, Option.some.injEq]
  omega

end LibraryCatalog.Text
