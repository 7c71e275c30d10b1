import LibraryCatalog.Book
import LibraryCatalog.Proofs.Record.Offence
import LibraryCatalog.Proofs.Record.Section

/-!
# `LibraryCatalog.Proofs.Book.Number` — numbers are those that their lines are written for

A number in a record file has as many digits as its author likes, and an attribute has room for 32 bits. The integer
that a value is written for is compared with the range as it is. So one outside the range is refused with the texts
of the line, however close to an end it is, and no other integer takes its place.

## Contents
- **Trimming.** `head?_trim`: what a text starts with, unless it is blank.
- **Any format.** `Format.ReadsNumber`, what a line for a number does, and `Format.readsNumber`, for every field of
  numbers; `Format.readLines_of_applyLine`, what the loop makes of a line.
- **Books.** `Book.NumberKey`, the keys of numbers with the attributes that they stand for: `numberKey_of_resolve`;
  such a line opens no record.
- **Result.** `reads_numbers_exactly`, with lines at both ends of the range.
-/

namespace LibraryCatalog

open Text

/-! ## Trimming -/

namespace Text

/-- Trimming keeps a first character that is not blank. -/
theorem head?_trim {c : Char} (h : isBlank c = false) (cs : List Char) : (trim (c :: cs)).head? = some c := by
  have hfirst : (c :: cs).dropWhile isBlank = c :: cs := by rw [List.dropWhile_cons, h]; rfl
  have hlast : [c].dropWhile isBlank = [c] := by rw [List.dropWhile_cons, h]; rfl
  rw [trim, strip, hfirst, List.reverse_cons, List.dropWhile_append, List.head?_reverse, hlast]
  split
  · rfl
  · exact List.getLast?_concat

end Text

/-! ## Any format -/

namespace Record

variable {ρ : Type} {f : Format ρ} {line before after : List Char}

/-- What a line for a number does to an open record: it is accepted if its value is written for an integer of the
    range, which is what the attribute holds then, and refused with its key and its value otherwise. -/
structure Format.ReadsNumber (f : Format ρ) (assign : Int32 → ρ → ρ) (before after : List Char) (r : ρ) : Prop where
  accepted_iff : (∃ r', f.applyLine (before ++ ':' :: after) r = .ok r') ↔ IsInt32 (trim after)
  ok_iff : ∀ r', f.applyLine (before ++ ':' :: after) r = .ok r' ↔
    ∃ n : Int32, Numeral (trim after) n.toInt ∧ r' = assign n r
  error_iff : ∀ o, f.applyLine (before ++ ':' :: after) r = .error o ↔
    ¬IsInt32 (trim after) ∧ o = .invalidInteger (String.ofList (trim before)) (String.ofList (trim after))

/-- **A line whose key stands for a field of numbers** is read as one for a number. -/
theorem Format.readsNumber {field : Field ρ} {assign : Int32 → ρ → ρ} (hcolon : ':' ∉ before)
    (hfield : resolve f.fields (String.ofList (trim before)) = some field) (hset : field.setter = .integer assign)
    (after : List Char) (r : ρ) : f.ReadsNumber assign before after r := by
  have hline : f.applyLine (before ++ ':' :: after) r =
      (Setter.integer assign).apply (String.ofList (trim before)) (trim after) r := by
    simp only [applyLine, cut_append hcolon, hfield, hset]
  have hok (r' : ρ) : f.applyLine (before ++ ':' :: after) r = .ok r' ↔
      ∃ n : Int32, Numeral (trim after) n.toInt ∧ r' = assign n r := by
    rw [hline]
    exact Setter.apply_integer_eq_ok_iff
  refine ⟨?_, hok, fun o => ?_⟩
  · rw [isInt32_iff]
    constructor
    · rintro ⟨r', hr'⟩
      obtain ⟨n, hn, -⟩ := (hok r').mp hr'
      exact ⟨n, hn⟩
    · rintro ⟨n, hn⟩
      exact ⟨assign n r, (hok _).mpr ⟨n, hn, rfl⟩⟩
  · rw [hline, Setter.apply_eq_error_iff]
    constructor
    · rintro ⟨-, -, hvalue, rfl⟩
      exact ⟨hvalue, rfl⟩
    · rintro ⟨hvalue, rfl⟩
      exact ⟨assign, rfl, hvalue, rfl⟩

/-- **The loop goes on with what a line makes of the open record**, or stops at the line. -/
theorem Format.readLines_of_applyLine (hopens : ¬f.opens line = true) (hblank : ¬isBlankLine line = true) (r : ρ)
    (k : Nat) (rest : List (List Char)) :
    (∀ r', f.applyLine line r = .ok r' → f.readLines k (some r) (line :: rest) = f.readLines (k + 1) (some r') rest) ∧
    ∀ o, f.applyLine line r = .error o → f.readLines k (some r) (line :: rest) = .error ⟨k, o⟩ := by
  rw [readLines, if_neg hopens, if_neg hblank, step]
  constructor
  · intro r' hline
    rw [hline]
  · intro o hline
    rw [hline]

end Record

/-! ## Books -/

namespace Book

open Record

/-- The keys of numbers, and what another number changes of a book. -/
inductive NumberKey : String → (Int32 → Book → Book) → Prop where
  | publicationYear {key : String} : key ∈ ["PublicationYear", "Published"] →
      NumberKey key fun n b => { b with publicationYear := n }
  | numberOfPages : NumberKey "NumberOfPages" fun n b => { b with numberOfPages := n }

/-- **The fields of numbers** are the year and the number of pages. -/
theorem numberKey_of_resolve {key : String} {field : Record.Field Book} {assign : Int32 → Book → Book}
    (hfield : resolve format.fields key = some field) (hset : field.setter = .integer assign) :
    NumberKey key assign := by
  obtain ⟨hmem, hkey⟩ := mem_of_resolve hfield
  simp only [format, fields, List.mem_cons, List.not_mem_nil, or_false] at hmem
  rcases hmem with rfl | rfl | rfl | rfl | rfl | rfl
  case inr.inr.inr.inr.inl =>
    obtain rfl := Setter.integer.inj hset
    exact .publicationYear hkey
  case inr.inr.inr.inr.inr =>
    obtain rfl := Setter.integer.inj hset
    obtain rfl := List.mem_singleton.mp hkey
    exact .numberOfPages
  -- the other fields hold texts
  all_goals cases hset

/-- No key of numbers starts as the marker does. -/
theorem NumberKey.head?_ne {key : String} {assign : Int32 → Book → Book} (h : NumberKey key assign) :
    key.toList.head? ≠ some 'B' := by
  cases h with
  | publicationYear hkey =>
    simp only [List.mem_cons, List.not_mem_nil, or_false] at hkey
    rcases hkey with rfl | rfl <;> decide +kernel
  | numberOfPages => decide +kernel

variable {before : List Char} {assign : Int32 → Book → Book}

/-- A line for a number opens no record. -/
theorem NumberKey.not_opens (h : NumberKey (String.ofList (trim before)) assign) (after : List Char) :
    ¬format.opens (before ++ ':' :: after) = true := by
  intro hmarker
  obtain ⟨tail, htail⟩ := Format.opens_iff.mp hmarker
  have hfirst : some 'B' = (before ++ ':' :: after).head? := congrArg List.head? htail
  cases before with
  | nil => exact absurd (Option.some.inj hfirst) (by decide)
  | cons c cs =>
    obtain rfl := Option.some.inj hfirst
    have hhead := h.head?_ne
    rw [String.toList_ofList] at hhead
    exact hhead (head?_trim (by decide) cs)

end Book

/-! ## Result -/

open Record Book

/-- **A line for a number is accepted if its value is an optional sign and digits, as many as there are, for an integer
    from -2147483648 to 2147483647.** That integer is what the attribute of the key holds then, and the record is as it
    was otherwise. Every other value is refused, with the key and the value as they stand in the line without the white
    space around them. This holds for all kinds of records. For a book the attribute is the year or the number of
    pages, and the reading of a text goes on with the next line or stops at this one. -/
theorem reads_numbers_exactly :
    (∀ (ρ : Type) (f : Format ρ) (field : Record.Field ρ) (assign : Int32 → ρ → ρ) (before after : List Char) (r : ρ),
      ':' ∉ before → resolve f.fields (String.ofList (trim before)) = some field → field.setter = .integer assign →
      f.ReadsNumber assign before after r) ∧
    ∀ (field : Record.Field Book) (assign : Int32 → Book → Book) (before after : List Char) (b : Book),
      ':' ∉ before → resolve Book.format.fields (String.ofList (trim before)) = some field →
      field.setter = .integer assign →
      NumberKey (String.ofList (trim before)) assign ∧
      ∀ k rest,
        (∀ n : Int32, Numeral (trim after) n.toInt →
          Book.format.readLines k (some b) ((before ++ ':' :: after) :: rest) =
            Book.format.readLines (k + 1) (some (assign n b)) rest) ∧
        (¬IsInt32 (trim after) →
          Book.format.readLines k (some b) ((before ++ ':' :: after) :: rest) =
            .error ⟨k, .invalidInteger (String.ofList (trim before)) (String.ofList (trim after))⟩) := by
  refine ⟨fun ρ f field assign before after r hcolon hfield hset => Format.readsNumber hcolon hfield hset after r, ?_⟩
  intro field assign before after b hcolon hfield hset
  have hkey := numberKey_of_resolve hfield hset
  have hreads := Format.readsNumber hcolon hfield hset after b
  have hblank : ¬isBlankLine (before ++ ':' :: after) = true := by
    intro hall
    exact absurd (List.all_eq_true.mp hall ':' (by simp)) (by decide)
  refine ⟨hkey, fun k rest => ?_⟩
  obtain ⟨hnext, hstop⟩ := Format.readLines_of_applyLine (hkey.not_opens after) hblank b k rest
  constructor
  · intro n hn
    exact hnext _ ((hreads.ok_iff _).mpr ⟨n, hn, rfl⟩)
  · intro hvalue
    exact hstop _ ((hreads.error_iff _).mpr ⟨hvalue, rfl⟩)

theorem sample_numbers :
    Book.format.applyLine "Published:\u00a0-00000000000000000002147483648\t".toList blank =
      .ok { blank with publicationYear := -2147483648 } ∧
    Book.format.applyLine " NumberOfPages : +2147483648".toList blank =
      .error (.invalidInteger "NumberOfPages" "+2147483648") := by
  have hcolon : ':' ∉ "Published".toList ∧ ':' ∉ " NumberOfPages ".toList := by decide +kernel
  have hyear := reads_numbers_exactly.1 Book Book.format _ _ _ "\u00a0-00000000000000000002147483648\t".toList blank
    hcolon.1 (by rfl) rfl
  have hpages := reads_numbers_exactly.1 Book Book.format _ _ _ " +2147483648".toList blank hcolon.2 (by rfl) rfl
  have hyearLine : "Published:\u00a0-00000000000000000002147483648\t".toList =
      "Published".toList ++ ':' :: "\u00a0-00000000000000000002147483648\t".toList := by decide +kernel
  have hpagesLine : " NumberOfPages : +2147483648".toList =
      " NumberOfPages ".toList ++ ':' :: " +2147483648".toList := by decide +kernel
  constructor
  · rw [hyearLine]
    exact (hyear.ok_iff _).mpr ⟨-2147483648, int32?_eq_some_iff.mp (by decide +kernel), rfl⟩
  · rw [hpagesLine]
    exact (hpages.error_iff _).mpr ⟨int32?_eq_none_iff.mp (by decide +kernel), by decide +kernel⟩

end LibraryCatalog
