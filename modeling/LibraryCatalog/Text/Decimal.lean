/-!
# `LibraryCatalog.Text.Decimal` — whole numbers written in base ten

A number is a run of ASCII digits of any length, leading zeros included, with at most one sign. Values are
computed exactly and only then held against the range of the 32-bit type, so that nothing wraps.

## Contents
- **Writing.** `showNat` and `showInt`, without leading zeros and without a plus sign; as texts `natText` and
  `intText`.
- **Reading.** `digits?` reads a run of digits, `signed?` and `unsigned?` allow a sign before it.
- **Ranges.** `int32OfInt?` and `uint32OfInt?` keep the numbers that their type holds, `int32?` and `uint32?` read
  them.

Reading undoes writing: `int32?_showInt`, `uint32?_showNat`.
-/

namespace LibraryCatalog.Text

/-! ## Writing -/

/-- The decimal digits of a natural number. -/
def showNat (n : Nat) : List Char := Nat.toDigits 10 n

/-- The decimal digits of an integer, after a minus sign if it is negative. -/
def showInt : Int → List Char
  | .ofNat n => showNat n
  | .negSucc n => '-' :: showNat (n + 1)

/-- A natural number as a text. -/
def natText (n : Nat) : String := String.ofList (showNat n)

/-- An integer as a text. -/
def intText (n : Int) : String := String.ofList (showInt n)

theorem showNat_ne_nil (n : Nat) : showNat n ≠ [] := by
  intro h
  have := Nat.length_toDigits_pos (b := 10) (n := n)
  simp [← showNat.eq_def, h] at this

theorem isDigit_of_mem_showNat {n : Nat} {c : Char} (h : c ∈ showNat n) : c.isDigit = true :=
  Nat.isDigit_of_mem_toDigits (by decide) (by decide) h

/-! ## Reading -/

/-- The value of a text that consists of one or more ASCII digits. -/
def digits? (cs : List Char) : Option Nat :=
  if !cs.isEmpty && cs.all Char.isDigit then some (Nat.ofDigitChars 10 cs 0) else none

/-- The value of a number with at most one sign. -/
def signed? : List Char → Option Int
  | '-' :: cs => (digits? cs).map fun n => -(n : Int)
  | '+' :: cs => (digits? cs).map Int.ofNat
  | cs => (digits? cs).map Int.ofNat

/-- The value of a number with at most a plus sign. -/
def unsigned? : List Char → Option Nat
  | '+' :: cs => digits? cs
  | cs => digits? cs

@[simp] theorem digits?_showNat (n : Nat) : digits? (showNat n) = some n := by
  have hall : (showNat n).all Char.isDigit = true :=
    List.all_eq_true.mpr fun _ => isDigit_of_mem_showNat
  simp [digits?, showNat_ne_nil, hall]
  exact Nat.ofDigitChars_ten_toDigits

/-- A text that starts with a digit has no sign. -/
theorem signed?_of_isDigit {c : Char} {cs : List Char} (h : c.isDigit = true) :
    signed? (c :: cs) = (digits? (c :: cs)).map Int.ofNat := by
  unfold signed?
  split
  · next heq => cases heq; simp [Char.isDigit] at h
  · next heq => cases heq; simp [Char.isDigit] at h
  · rfl

theorem unsigned?_of_isDigit {c : Char} {cs : List Char} (h : c.isDigit = true) :
    unsigned? (c :: cs) = digits? (c :: cs) := by
  unfold unsigned?
  split
  · next heq => cases heq; simp [Char.isDigit] at h
  · rfl

@[simp] theorem unsigned?_showNat (n : Nat) : unsigned? (showNat n) = some n := by
  obtain ⟨c, cs, h⟩ := List.exists_cons_of_ne_nil (showNat_ne_nil n)
  have hc : c.isDigit = true := isDigit_of_mem_showNat (n := n) (by simp [h])
  rw [h, unsigned?_of_isDigit hc, ← h, digits?_showNat]

@[simp] theorem signed?_showInt (n : Int) : signed? (showInt n) = some n := by
  cases n with
  | ofNat n =>
    obtain ⟨c, cs, h⟩ := List.exists_cons_of_ne_nil (showNat_ne_nil n)
    have hc : c.isDigit = true := isDigit_of_mem_showNat (n := n) (by simp [h])
    rw [showInt, h, signed?_of_isDigit hc, ← h, digits?_showNat]
    rfl
  | negSucc n =>
    rw [showInt, signed?, digits?_showNat]
    rfl

/-! ## Ranges -/

/-- An integer of the signed 32-bit range. -/
def int32OfInt? (n : Int) : Option Int32 :=
  if -2147483648 ≤ n ∧ n ≤ 2147483647 then some (Int32.ofInt n) else none

/-- An integer of the unsigned 32-bit range. -/
def uint32OfInt? (n : Int) : Option UInt32 :=
  if 0 ≤ n ∧ n ≤ 4294967295 then some (UInt32.ofNat n.toNat) else none

/-- The value of a number of the signed 32-bit range. -/
def int32? (cs : List Char) : Option Int32 := (signed? cs).bind int32OfInt?

/-- The value of a number of the unsigned 32-bit range. -/
def uint32? (cs : List Char) : Option UInt32 := (unsigned? cs).bind fun n => uint32OfInt? n

theorem int32OfInt?_toInt (n : Int32) : int32OfInt? n.toInt = some n := by
  have hlo : -2147483648 ≤ n.toInt := n.minValue_le_toInt
  have hhi : n.toInt ≤ 2147483647 := n.toInt_le
  simp [int32OfInt?, hlo, hhi]

theorem uint32OfInt?_toNat (n : UInt32) : uint32OfInt? n.toNat = some n := by
  have := n.toNat_lt
  simp [uint32OfInt?]
  omega

theorem int32?_showInt (n : Int32) : int32? (showInt n.toInt) = some n := by
  simp [int32?, int32OfInt?_toInt]

theorem uint32?_showNat (n : UInt32) : uint32? (showNat n.toNat) = some n := by
  simp [uint32?, uint32OfInt?_toNat]

end LibraryCatalog.Text
