import LibraryCatalog.Book

/-!
# `LibraryCatalog.Proofs.Record.Concatenation` — one text put below another

Reading is compositional. An offence of the upper text is reported as it is, whatever stands below. If the lower text
starts afresh, its first marker line closes the record that is open at the seam, so that the records of both texts
follow each other, and an offence of the lower text is reported further down by the lines of the upper one.

## Contents
- **Seams.** `Format.StartsAfresh`, and `FormatError.below` for an offence that stands further down.
- **The loop.** `Format.advance`, the records that some lines close and the one that they leave open;
  `readLines_append` reads on from there. The numbers of lines matter only to a report (`readLines_add`), and the open
  record does not matter to a fresh start (`StartsAfresh.readLines_eq`).
- **Texts.** `read_append`.
-/

namespace LibraryCatalog.Record

open Text

variable {ρ : Type} {f : Format ρ} {lines lines' : List (List Char)} {line : List Char} {current : Option ρ}
  {n : Nat} {rs : List ρ}

/-! ## Seams -/

/-- Lines start afresh: the first of them that opens a record or is not blank, if there is one, opens a record. -/
def Format.StartsAfresh (f : Format ρ) (lines : List (List Char)) : Prop :=
  ∀ line ∈ lines.find? fun l => f.opens l || !isBlankLine l, f.opens line = true

instance (f : Format ρ) (lines : List (List Char)) : Decidable (f.StartsAfresh lines) :=
  inferInstanceAs (Decidable (∀ line ∈ lines.find? fun l => f.opens l || !isBlankLine l, f.opens line = true))

/-- The same offence, with `k` more lines above it. -/
def FormatError.below (k : Nat) (e : FormatError) : FormatError := { e with line := k + e.line }

/-- A blank line that opens no record can be passed over. -/
theorem Format.StartsAfresh.of_blank (h : f.StartsAfresh (line :: lines)) (hopens : ¬f.opens line = true)
    (hblank : isBlankLine line = true) : f.StartsAfresh lines := by
  unfold Format.StartsAfresh at h
  rwa [List.find?_cons_of_neg (by simp [hopens, hblank])] at h

/-- A line that is not blank can only open a record. -/
theorem Format.StartsAfresh.opens_of_not_blank (h : f.StartsAfresh (line :: lines))
    (hblank : ¬isBlankLine line = true) : f.opens line = true := by
  refine h line ?_
  rw [List.find?_cons_of_pos (by simp [hblank])]
  exact rfl

/-! ## The loop -/

/-- What some lines make of the open record: the records that they close, and the one that is open after them. -/
def Format.advance (f : Format ρ) (n : Nat) (current : Option ρ) :
    List (List Char) → Except FormatError (List ρ × Option ρ)
  | [] => .ok ([], current)
  | line :: lines =>
    if f.opens line then
      (f.advance (n + 1) (some f.blank) lines).map fun (rs, last) => (current.toList ++ rs, last)
    else if isBlankLine line then
      f.advance (n + 1) current lines
    else
      match f.step line current with
      | .ok r => f.advance (n + 1) (some r) lines
      | .error offence => .error ⟨n, offence⟩

/-- **Reading goes on** with the record that is open at the seam. -/
theorem Format.readLines_append :
    f.readLines n current (lines ++ lines') =
      f.advance n current lines >>= fun (rs, last) => (f.readLines (lines.length + n) last lines').map (rs ++ ·) := by
  induction lines generalizing n current with
  | nil =>
    rw [List.nil_append, List.length_nil, Nat.zero_add, advance]
    show _ = (f.readLines n current lines').map ([] ++ ·)
    cases f.readLines n current lines' <;> rfl
  | cons line lines ih =>
    have hlength : (line :: lines).length + n = lines.length + (n + 1) := by
      rw [List.length_cons]
      omega
    rw [List.cons_append, readLines, advance, hlength]
    split
    · -- the record that a marker closes goes in front of the rest, whichever side of the seam that is on
      rw [ih]
      cases f.advance (n + 1) (some f.blank) lines with
      | error e => rfl
      | ok st =>
        obtain ⟨rs, last⟩ := st
        show ((f.readLines _ last lines').map _).map _ = (f.readLines _ last lines').map _
        cases f.readLines (lines.length + (n + 1)) last lines' with
        | error e => rfl
        | ok rs' => exact congrArg Except.ok (List.append_assoc ..).symm
    · split
      · exact ih
      · cases f.step line current with
        | ok r => exact ih
        | error o => rfl

/-- At the end the open record is closed as well. -/
theorem Format.readLines_eq_advance :
    f.readLines n current lines = (f.advance n current lines).map fun (rs, last) => rs ++ last.toList := by
  have happend : f.readLines n current (lines ++ []) = _ := readLines_append
  rw [List.append_nil] at happend
  rw [happend]
  cases f.advance n current lines <;> rfl

/-- **The numbers of the lines** matter only to the report of an offence. -/
theorem Format.readLines_add (k : Nat) :
    f.readLines (k + n) current lines = (f.readLines n current lines).mapError (FormatError.below k) := by
  induction lines generalizing n current with
  | nil => rfl
  | cons line lines ih =>
    rw [readLines, readLines, Nat.add_assoc]
    split
    · rw [ih]
      cases f.readLines (n + 1) (some f.blank) lines <;> rfl
    · split
      · exact ih
      · cases f.step line current with
        | ok r => exact ih
        | error o => rfl

/-- **A fresh start closes the open record**, and what follows is read as if none had been open. -/
theorem Format.StartsAfresh.readLines_eq (h : f.StartsAfresh lines) :
    f.readLines n current lines = (f.readLines n none lines).map (current.toList ++ ·) := by
  induction lines generalizing n with
  | nil =>
    rw [readLines, readLines]
    exact congrArg Except.ok (List.append_nil _).symm
  | cons line lines ih =>
    rw [readLines, readLines]
    split
    · -- from the marker on, both sides read the same blank record
      cases f.readLines (n + 1) (some f.blank) lines <;> rfl
    · next hopens =>
      by_cases hblank : isBlankLine line = true
      · rw [if_pos hblank, if_pos hblank]
        exact ih (h.of_blank hopens hblank)
      · exact absurd (h.opens_of_not_blank hblank) hopens

/-- An offence is reported whatever stands below it. -/
theorem Format.readLines_append_of_error {e : FormatError} (h : f.readLines n current lines = .error e) :
    f.readLines n current (lines ++ lines') = .error e := by
  rw [readLines_eq_advance] at h
  rw [readLines_append]
  cases hadvance : f.advance n current lines with
  | ok st => rw [hadvance] at h; cases h
  | error e' =>
    rw [hadvance] at h
    obtain rfl := Except.error.inj h
    rfl

/-- Lines that are read are followed by whatever is read from a fresh start. -/
theorem Format.readLines_append_of_ok (h : f.readLines n current lines = .ok rs) (hfresh : f.StartsAfresh lines') :
    f.readLines n current (lines ++ lines') =
      (f.readLines (lines.length + n) none lines').map (rs ++ ·) := by
  rw [readLines_eq_advance] at h
  rw [readLines_append]
  cases hadvance : f.advance n current lines with
  | error e => rw [hadvance] at h; cases h
  | ok st =>
    obtain ⟨closed, last⟩ := st
    rw [hadvance] at h
    obtain rfl := Except.ok.inj h
    show (f.readLines (lines.length + n) last lines').map (closed ++ ·) = _
    rw [hfresh.readLines_eq]
    cases f.readLines (lines.length + n) none lines' with
    | error e => rfl
    | ok rs' => exact congrArg Except.ok (List.append_assoc ..).symm

/-! ## Texts -/

/-- The lines of two texts with a line feed between them. -/
theorem splitOn_newline_append (a b : String) :
    (a ++ "\n" ++ b).toList.splitOn '\n' = a.toList.splitOn '\n' ++ b.toList.splitOn '\n' := by
  have hchars : (a ++ "\n" ++ b).toList = a.toList ++ '\n' :: b.toList := by simp
  rw [hchars, List.splitOn_append_cons_self]

/-- **Reading is compositional.** What stands below an offence does not matter. A text below one that is read, which
starts afresh, adds its records to those above, or has its offence reported with the lines above counted in. -/
theorem Format.read_append (f : Format ρ) (a b : String) :
    (∀ e, f.read a = .error e → f.read (a ++ "\n" ++ b) = .error e) ∧
      ∀ rs, f.read a = .ok rs → f.StartsAfresh (b.toList.splitOn '\n') →
        (∀ rs', f.read b = .ok rs' → f.read (a ++ "\n" ++ b) = .ok (rs ++ rs')) ∧
          ∀ e, f.read b = .error e →
            f.read (a ++ "\n" ++ b) = .error (e.below (a.toList.splitOn '\n').length) := by
  have hlines : f.read (a ++ "\n" ++ b) = f.readLines 1 none (a.toList.splitOn '\n' ++ b.toList.splitOn '\n') := by
    rw [read, splitOn_newline_append]
  constructor
  · intro e he
    rw [hlines]
    exact readLines_append_of_error he
  · intro rs hrs hfresh
    have hbelow : f.read (a ++ "\n" ++ b) =
        ((f.read b).mapError (FormatError.below (a.toList.splitOn '\n').length)).map (rs ++ ·) := by
      rw [hlines, readLines_append_of_ok hrs hfresh, readLines_add]
      rfl
    constructor
    · intro rs' hrs'
      rw [hbelow, hrs']
      rfl
    · intro e he
      rw [hbelow, he]
      rfl

/-- The upper text ends inside a record, and the third line of the lower one has no colon. -/
theorem sample_read_append :
    Book.format.read "Book\nTitle: A" = .ok [{ Book.blank with title := "A" }] ∧
      Book.format.StartsAfresh (" \nBook\nTitle".toList.splitOn '\n') ∧
      Book.format.read ("Book\nTitle: A" ++ "\n" ++ " \nBook\nTitle") = .error ⟨5, .missingDelimiter⟩ := by
  have habove : Book.format.read "Book\nTitle: A" = .ok [{ Book.blank with title := "A" }] := rfl
  have hfresh : Book.format.StartsAfresh (" \nBook\nTitle".toList.splitOn '\n') := by decide +kernel
  obtain ⟨-, hbelow⟩ := Book.format.read_append "Book\nTitle: A" " \nBook\nTitle"
  exact ⟨habove, hfresh, (hbelow _ habove hfresh).2 _ rfl⟩

end LibraryCatalog.Record
