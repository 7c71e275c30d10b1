import LibraryCatalog.Text.Blank
import LibraryCatalog.Text.Decimal

/-!
# `LibraryCatalog.Proofs.Text.Numeral` — which texts are numbers, and which numbers they are

A number in base ten is one or more ASCII digits, leading zeros included, after at most one sign. Its value is an
integer without bounds; that a type holds it is a question of its own.

## Contents
- **Language.** `Numeral cs n`: the text `cs` is written for the integer `n`; `Unsigned cs n`, the same without a minus
  sign, for a natural number.
- **Reading.** `digits?_eq_some_iff`, `signed?_eq_some_iff`, `int32?_eq_none_iff`, `int32?_eq_some_iff`,
  `isInt32_iff`; `unsigned?_eq_some_iff`, `uint32?_eq_some_iff`.
- **Writing.** `isDigits_showNat`, no white space: `trim_showNat`, `trim_showInt`, and no leading zero:
  `head?_showNat_ne`.
-/

namespace LibraryCatalog.Text

/-! ## Language -/

/-- A text of one or more ASCII digits. -/
def IsDigits (cs : List Char) : Prop := cs ≠ [] ∧ ∀ c ∈ cs, c.isDigit = true

/-- The value of a text of digits. -/
def digitsValue (cs : List Char) : Nat := Nat.ofDigitChars 10 cs 0

/-- A text that is written for an integer. -/
inductive Numeral : List Char → Int → Prop where
  | unsigned {ds : List Char} : IsDigits ds → Numeral ds (digitsValue ds)
  | plus {ds : List Char} : IsDigits ds → Numeral ('+' :: ds) (digitsValue ds)
  | minus {ds : List Char} : IsDigits ds → Numeral ('-' :: ds) (-(digitsValue ds : Int))

/-- A text that is written for a natural number: digits after at most a plus sign. -/
inductive Unsigned : List Char → Nat → Prop where
  | plain {ds : List Char} : IsDigits ds → Unsigned ds (digitsValue ds)
  | plus {ds : List Char} : IsDigits ds → Unsigned ('+' :: ds) (digitsValue ds)

/-- A text that is written for an integer of the signed 32-bit range. -/
def IsInt32 (cs : List Char) : Prop := ∃ n, Numeral cs n ∧ -2147483648 ≤ n ∧ n ≤ 2147483647

/-! ## Reading -/

theorem digits?_eq_some_iff {cs : List Char} {n : Nat} :
    digits? cs = some n ↔ IsDigits cs ∧ digitsValue cs = n := by
  rw [digits?, IsDigits, digitsValue]
  by_cases h : (!cs.isEmpty && cs.all Char.isDigit) = true
  · rw [if_pos h, Option.some.injEq]
    simp only [Bool.and_eq_true, Bool.not_eq_true', List.isEmpty_eq_false_iff, List.all_eq_true] at h
    exact ⟨fun hn => ⟨h, hn⟩, fun hn => hn.2⟩
  · rw [if_neg h]
    simp only [Bool.and_eq_true, Bool.not_eq_true', List.isEmpty_eq_false_iff, List.all_eq_true] at h
    exact iff_of_false (by simp) fun hn => h hn.1

/-- **Reading a number with a sign** finds exactly the integer that the text is written for. -/
theorem signed?_eq_some_iff {cs : List Char} {n : Int} : signed? cs = some n ↔ Numeral cs n := by
  constructor
  · intro h
    unfold signed? at h
    -- the three ways to start: a minus sign, a plus sign, neither
    split at h
    · obtain ⟨_, hj, rfl⟩ := Option.map_eq_some_iff.mp h
      obtain ⟨k, hk, hkj⟩ := Option.bind_eq_some_iff.mp hj
      obtain ⟨hds, rfl⟩ := digits?_eq_some_iff.mp hk
      rw [← Option.some.inj hkj]
      exact .minus hds
    · obtain ⟨k, hk, rfl⟩ := Option.map_eq_some_iff.mp h
      obtain ⟨hds, rfl⟩ := digits?_eq_some_iff.mp hk
      exact .plus hds
    · obtain ⟨k, hk, rfl⟩ := Option.map_eq_some_iff.mp h
      obtain ⟨hds, rfl⟩ := digits?_eq_some_iff.mp hk
      exact .unsigned hds
  · intro h
    cases h with
    | unsigned hds =>
      -- a text of digits has one in the place of a sign
      obtain ⟨c, cs, rfl⟩ := List.exists_cons_of_ne_nil hds.1
      rw [signed?_of_isDigit (hds.2 c List.mem_cons_self), digits?_eq_some_iff.mpr ⟨hds, rfl⟩]
      rfl
    | plus hds => rw [signed?, digits?_eq_some_iff.mpr ⟨hds, rfl⟩]; rfl
    | minus hds => rw [signed?, digits?_eq_some_iff.mpr ⟨hds, rfl⟩]; rfl

/-- A text is read as a 32-bit integer exactly when it is written for one. -/
theorem int32?_eq_none_iff {cs : List Char} : int32? cs = none ↔ ¬IsInt32 cs := by
  rw [int32?, Option.bind_eq_none_iff]
  constructor
  · rintro h ⟨n, hn, hlo, hhi⟩
    have hnone := h n (signed?_eq_some_iff.mpr hn)
    rw [int32OfInt?, if_pos ⟨hlo, hhi⟩] at hnone
    exact absurd hnone (by simp)
  · intro h n hn
    rw [int32OfInt?, if_neg]
    rintro ⟨hlo, hhi⟩
    exact h ⟨n, signed?_eq_some_iff.mp hn, hlo, hhi⟩

/-- A text is written for one integer only. -/
theorem Numeral.unique {cs : List Char} {n m : Int} (hn : Numeral cs n) (hm : Numeral cs m) : n = m :=
  Option.some.inj ((signed?_eq_some_iff.mpr hn).symm.trans (signed?_eq_some_iff.mpr hm))

/-- An integer within the range is the value of its 32-bit number. -/
theorem int32OfInt?_eq_some_iff {n : Int} {i : Int32} : int32OfInt? n = some i ↔ n = i.toInt := by
  constructor
  · intro h
    unfold int32OfInt? at h
    split at h
    · next hrange =>
      rw [← Option.some.inj h]
      exact (Int32.toInt_ofInt_of_le hrange.1 (by omega)).symm
    · cases h
  · rintro rfl
    exact int32OfInt?_toInt i

/-- **Reading a 32-bit integer** finds exactly the one that the text is written for. -/
theorem int32?_eq_some_iff {cs : List Char} {i : Int32} : int32? cs = some i ↔ Numeral cs i.toInt := by
  rw [int32?, Option.bind_eq_some_iff]
  constructor
  · rintro ⟨n, hn, hi⟩
    rw [← int32OfInt?_eq_some_iff.mp hi]
    exact signed?_eq_some_iff.mp hn
  · intro h
    exact ⟨i.toInt, signed?_eq_some_iff.mpr h, int32OfInt?_toInt i⟩

/-- The integers of the range are those of the 32-bit numbers. -/
theorem isInt32_iff {cs : List Char} : IsInt32 cs ↔ ∃ n : Int32, Numeral cs n.toInt := by
  simp only [← int32?_eq_some_iff, ← Option.isSome_iff_exists, Option.isSome_iff_ne_none]
  rw [Ne, int32?_eq_none_iff, Classical.not_not]

/-- **Reading a number without a minus sign** finds exactly the natural number that the text is written for. -/
theorem unsigned?_eq_some_iff {cs : List Char} {n : Nat} : unsigned? cs = some n ↔ Unsigned cs n := by
  constructor
  · intro h
    unfold unsigned? at h
    split at h <;> obtain ⟨hds, rfl⟩ := digits?_eq_some_iff.mp h
    · exact .plus hds
    · exact .plain hds
  · intro h
    cases h with
    | plain hds =>
      obtain ⟨c, cs, rfl⟩ := List.exists_cons_of_ne_nil hds.1
      rw [unsigned?_of_isDigit (hds.2 c List.mem_cons_self), digits?_eq_some_iff.mpr ⟨hds, rfl⟩]
    | plus hds => rw [unsigned?, digits?_eq_some_iff.mpr ⟨hds, rfl⟩]

theorem uint32OfInt?_eq_some_iff {n : Int} {i : UInt32} : uint32OfInt? n = some i ↔ n = i.toNat := by
  constructor
  · intro h
    unfold uint32OfInt? at h
    split at h
    · next hrange =>
      have hsize : n.toNat < UInt32.size := by
        simp only [UInt32.size]
        omega
      rw [← Option.some.inj h, UInt32.toNat_ofNat_of_lt' hsize]
      omega
    · cases h
  · rintro rfl
    exact uint32OfInt?_toNat i

/-- **Reading an unsigned 32-bit number** finds exactly the one that the text is written for. -/
theorem uint32?_eq_some_iff {cs : List Char} {i : UInt32} : uint32? cs = some i ↔ Unsigned cs i.toNat := by
  rw [uint32?, Option.bind_eq_some_iff]
  constructor
  · rintro ⟨n, hn, hi⟩
    rw [← Int.ofNat_inj.mp (uint32OfInt?_eq_some_iff.mp hi)]
    exact unsigned?_eq_some_iff.mp hn
  · intro h
    exact ⟨i.toNat, unsigned?_eq_some_iff.mpr h, uint32OfInt?_toNat i⟩

/-! ## Writing -/

theorem isDigits_showNat (n : Nat) : IsDigits (showNat n) :=
  ⟨showNat_ne_nil n, fun _ hc => isDigit_of_mem_showNat hc⟩

theorem isBlank_of_isDigit {c : Char} (h : c.isDigit = true) : isBlank c = false := by
  have hall : ∀ n < 58, 48 ≤ n → isBlank (Char.ofNat n) = false := by decide
  simp only [Char.isDigit, Bool.and_eq_true, decide_eq_true_eq] at h
  have hlo : 48 ≤ c.toNat := h.1
  have hhi : c.toNat ≤ 57 := h.2
  rw [← c.ofNat_toNat]
  exact hall c.toNat (by omega) hlo

/-- A text without white space has none around it. -/
theorem trim_of_forall_not_blank {cs : List Char} (h : ∀ c ∈ cs, isBlank c = false) : trim cs = cs :=
  strip_of_ends (fun c hc => h c (List.mem_of_mem_head? hc)) fun c hc => h c (List.mem_of_mem_getLast? hc)

/-- A written number has no white space around it. -/
theorem trim_showNat (n : Nat) : trim (showNat n) = showNat n :=
  trim_of_forall_not_blank fun _ hc => isBlank_of_isDigit (isDigit_of_mem_showNat hc)

theorem isBlank_of_mem_showInt {n : Int} {c : Char} (h : c ∈ showInt n) : isBlank c = false := by
  cases n with
  | ofNat n => exact isBlank_of_isDigit (isDigit_of_mem_showNat h)
  | negSucc n =>
    rcases List.mem_cons.mp h with rfl | hdigit
    · decide
    · exact isBlank_of_isDigit (isDigit_of_mem_showNat hdigit)

/-- A written integer has no white space around it. -/
theorem trim_showInt (n : Int) : trim (showInt n) = showInt n :=
  trim_of_forall_not_blank fun _ => isBlank_of_mem_showInt

/-- The digits of a positive number do not start with a zero. -/
theorem head?_showNat_ne {n : Nat} (h : 0 < n) : (showNat n).head? ≠ some '0' := by
  induction n using Nat.strongRecOn with
  | ind n ih =>
    rw [showNat, Nat.toDigits_eq_if (by decide)]
    split
    · next hlt =>
      have hdigit : ∀ d < 10, 0 < d → Nat.digitChar d ≠ '0' := by decide
      exact fun hzero => hdigit n hlt h (Option.some.inj hzero)
    · next hge =>
      -- the first digit is that of the number without its last digit
      have hrest := ih (n / 10) (by omega) (by omega)
      obtain ⟨c, cs, hcs⟩ := List.exists_cons_of_ne_nil (showNat_ne_nil (n / 10))
      rw [hcs] at hrest
      rw [← showNat, hcs]
      exact hrest

end LibraryCatalog.Text
