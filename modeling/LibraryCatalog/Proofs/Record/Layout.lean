import Mathlib.Data.List.Forall2
import LibraryCatalog.Proofs.Record.Concatenation
import LibraryCatalog.Proofs.Record.Offence

/-!
# `LibraryCatalog.Proofs.Record.Layout` — layout that carries no meaning

Some of what a text holds is never looked at: white space at the end of a line, what follows the marker on the line of
a marker, and lines of white space only. A text in another layout gives the same records or the same report; only the
number in a report counts the blank lines that were put in above.

## Contents
- **White space.** `trim_append_blanks`, `isBlankLine_append_blanks`.
- **One line.** `Format.SolidMarker`, a marker that does not end in white space, as that of books; `Format.Relaid`, a
  line in another layout, which is `Format.Alike`: it does the same.
- **Texts.** `readLines_congr` for lines that do the same, and `readLines_insert` for a blank line more.
- **Ends of lines.** `withReturns`, a text whose lines end in a carriage return and a line feed.
- **Result.** `read_ignores_layout`.
-/

namespace LibraryCatalog

/-! ## White space -/

namespace Text

variable {blanks : List Char}

/-- White space at the end of a text is trimmed away. -/
theorem trim_append_blanks (h : ∀ c ∈ blanks, isBlank c = true) (cs : List Char) : trim (cs ++ blanks) = trim cs := by
  have hblanks : blanks.dropWhile isBlank = [] := by
    rw [← List.append_nil blanks, List.dropWhile_append_of_pos h]
    rfl
  rw [trim, trim, strip, strip, List.dropWhile_append]
  split
  · next hnothing => rw [List.isEmpty_iff.mp hnothing, hblanks]
  · rw [List.reverse_append, List.dropWhile_append_of_pos (by simpa using h)]

theorem isBlankLine_append_blanks (h : ∀ c ∈ blanks, isBlank c = true) (cs : List Char) :
    isBlankLine (cs ++ blanks) = isBlankLine cs := by
  have hblanks : blanks.all isBlank = true := List.all_eq_true.mpr h
  rw [isBlankLine, isBlankLine, List.all_append, hblanks, Bool.and_true]

end Text

namespace Record

open Text

variable {ρ : Type} {f : Format ρ} {lines lines' above below : List (List Char)} {line line' blanks : List Char}
  {current : Option ρ} {n : Nat} {e : FormatError}

/-! ## One line -/

/-- A marker that ends in a character that is not blank. -/
def Format.SolidMarker (f : Format ρ) : Prop := ∃ front c, f.marker.toList = front ++ [c] ∧ isBlank c = false

/-- White space at the end of a line does not complete a marker. -/
theorem Format.SolidMarker.opens_append_blanks (hf : f.SolidMarker) (h : ∀ c ∈ blanks, isBlank c = true)
    (line : List Char) : f.opens (line ++ blanks) = f.opens line := by
  rw [Bool.eq_iff_iff, opens_iff, opens_iff]
  constructor
  · intro hpre
    obtain ⟨front, c, hmarker, hc⟩ := hf
    rcases List.prefix_or_prefix_of_prefix hpre (List.prefix_append line blanks) with hshort | ⟨rest, hrest⟩
    · exact hshort
    · -- the marker would end in white space if it went on behind the line
      rcases List.eq_nil_or_concat rest with rfl | ⟨rest, d, rfl⟩
      · exact ⟨[], by rw [← hrest, List.append_nil, List.append_nil]⟩
      · rw [← hrest, List.prefix_append_right_inj] at hpre
        rw [List.concat_eq_append] at hrest hpre
        rw [← hrest, ← List.append_assoc] at hmarker
        obtain ⟨-, hlast⟩ := List.append_inj' hmarker rfl
        have hd : isBlank d = true := h d (hpre.subset (by simp))
        rw [List.cons.inj hlast |>.1, hc] at hd
        cases hd
  · exact fun hpre => hpre.trans (List.prefix_append line blanks)

/-- A blank line opens no record. -/
theorem Format.SolidMarker.not_opens_of_blank (hf : f.SolidMarker) (h : isBlankLine line = true) :
    f.opens line = false := by
  have hopens := hf.opens_append_blanks (List.all_eq_true.mp h) []
  obtain ⟨front, c, hmarker, -⟩ := hf
  rw [List.nil_append] at hopens
  rw [hopens, Format.opens, hmarker]
  cases front <;> rfl

theorem Format.applyLine_append_blanks (h : ∀ c ∈ blanks, isBlank c = true) (line : List Char) (r : ρ) :
    f.applyLine (line ++ blanks) r = f.applyLine line r := by
  cases hcut : cut ':' line with
  | none =>
    have hcolon : ':' ∉ line ++ blanks := by
      rw [List.mem_append, not_or]
      exact ⟨cut_eq_none_iff.mp hcut, fun hmem => absurd (h ':' hmem) (by decide)⟩
    rw [applyLine, applyLine, hcut, cut_eq_none_iff.mpr hcolon]
  | some parts =>
    obtain ⟨key, value⟩ := parts
    obtain ⟨rfl, hkey⟩ := cut_eq_some_iff.mp hcut
    have hlonger : cut ':' (key ++ ':' :: value ++ blanks) = some (key, value ++ blanks) := by
      rw [List.append_assoc, List.cons_append, cut_append hkey]
    rw [applyLine, applyLine, hcut, hlonger]
    simp only [trim_append_blanks h]

/-- A line in another layout: with more white space at its end, or with the same marker in front of anything. -/
inductive Format.Relaid (f : Format ρ) : List Char → List Char → Prop where
  | blanks {line blanks : List Char} : (∀ c ∈ blanks, isBlank c = true) → f.Relaid line (line ++ blanks)
  | marker {rest rest' : List Char} : f.Relaid (f.marker.toList ++ rest) (f.marker.toList ++ rest')

/-- A line does what another one does, whatever record is open. -/
structure Format.Alike (f : Format ρ) (line line' : List Char) : Prop where
  opens : f.opens line' = f.opens line
  blank : f.opens line = false → isBlankLine line' = isBlankLine line
  step : f.opens line = false → ∀ current, f.step line' current = f.step line current

/-- **A line in another layout does the same.** -/
theorem Format.Relaid.alike (h : f.Relaid line line') (hf : f.SolidMarker) : f.Alike line line' := by
  cases h with
  | blanks hblanks =>
    refine ⟨hf.opens_append_blanks hblanks _, fun _ => isBlankLine_append_blanks hblanks _, fun _ current => ?_⟩
    cases current with
    | none => rfl
    | some r => exact applyLine_append_blanks hblanks _ r
  | @marker rest rest' =>
    have hopens (rest : List Char) : f.opens (f.marker.toList ++ rest) = true := opens_iff.mpr (List.prefix_append ..)
    have hnot : ¬f.opens (f.marker.toList ++ rest) = false := by
      rw [hopens]
      exact Bool.noConfusion
    exact ⟨(hopens rest').trans (hopens rest).symm, fun h => absurd h hnot, fun h => absurd h hnot⟩

/-! ## Texts -/

/-- **Lines that do the same are read the same**, by induction on the lines. -/
theorem Format.readLines_congr (h : List.Forall₂ f.Alike lines lines') :
    f.readLines n current lines' = f.readLines n current lines := by
  induction h generalizing n current with
  | nil => rfl
  | @cons line line' lines lines' hline _ ih =>
    rw [readLines, readLines, hline.opens]
    by_cases hopens : f.opens line = true
    · rw [if_pos hopens, if_pos hopens, ih]
    · have hfalse := Bool.eq_false_iff.mpr hopens
      rw [if_neg hopens, if_neg hopens, hline.blank hfalse, hline.step hfalse]
      simp only [ih]

/-- An offence is reported for one of the lines. -/
theorem Format.lt_of_advance_eq_error (h : f.advance n current lines = .error e) : e.line < lines.length + n := by
  induction lines generalizing n current with
  | nil => cases h
  | cons line lines ih =>
    have hnext {current : Option ρ} (h : f.advance (n + 1) current lines = .error e) :
        e.line < (line :: lines).length + n := by
      have hline := ih h
      rw [List.length_cons]
      omega
    rw [advance] at h
    split at h
    · cases hrest : f.advance (n + 1) (some f.blank) lines with
      | ok st => rw [hrest] at h; cases h
      | error e' =>
        rw [hrest] at h
        obtain rfl := Except.error.inj h
        exact hnext hrest
    · split at h
      · exact hnext h
      · split at h
        · exact hnext h
        · obtain rfl := Except.error.inj h
          exact Nat.lt_add_of_pos_left (Nat.zero_lt_succ _)

theorem Format.le_of_readLines_eq_error (h : f.readLines n current lines = .error e) : n ≤ e.line := by
  have hbelow : f.readLines (n + 0) current lines = (f.readLines 0 current lines).mapError (·.below n) :=
    readLines_add n
  rw [Nat.add_zero, h] at hbelow
  cases hread : f.readLines 0 current lines with
  | ok rs => rw [hread] at hbelow; cases hbelow
  | error e' =>
    rw [hread] at hbelow
    rw [Except.error.inj hbelow]
    exact Nat.le_add_right n e'.line

/-- The report of an offence when one more line is put in as line `m`. -/
def FormatError.pushedDown (m : Nat) (e : FormatError) : FormatError := if m ≤ e.line then e.below 1 else e

/-- **A blank line more** only moves the report of an offence at or below it. -/
theorem Format.readLines_insert (hopens : f.opens line = false) (hblank : isBlankLine line = true) :
    f.readLines n current (above ++ line :: below) =
      (f.readLines n current (above ++ below)).mapError (FormatError.pushedDown (above.length + n)) := by
  rw [readLines_append, readLines_append]
  cases hadvance : f.advance n current above with
  | error e =>
    have hline : e.pushedDown (above.length + n) = e :=
      if_neg (Nat.not_le.mpr (lt_of_advance_eq_error hadvance))
    exact congrArg Except.error hline.symm
  | ok st =>
    obtain ⟨rs, last⟩ := st
    show (f.readLines (above.length + n) last (line :: below)).map _ =
      ((f.readLines (above.length + n) last below).map _).mapError _
    rw [readLines, if_neg (Bool.eq_false_iff.mp hopens), if_pos hblank, Nat.add_comm _ 1, readLines_add]
    cases hbelow : f.readLines (above.length + n) last below with
    | ok rs' => rfl
    | error e =>
      have hline : e.pushedDown (above.length + n) = e.below 1 := if_pos (le_of_readLines_eq_error hbelow)
      exact congrArg Except.error hline.symm

/-! ## Ends of lines -/

/-- The text with a carriage return before every line feed. -/
def withReturns (cs : List Char) : List Char := cs.flatMap fun c => if c = '\n' then ['\r', '\n'] else [c]

/-- Every line of that text is a line of the other one, with white space at its end. -/
theorem forall₂_splitOn_withReturns (cs : List Char) :
    List.Forall₂ (fun line line' => ∃ blanks, (∀ c ∈ blanks, isBlank c = true) ∧ line' = line ++ blanks)
      (cs.splitOn '\n') ((withReturns cs).splitOn '\n') := by
  induction cs with
  | nil => exact .cons ⟨[], nofun, rfl⟩ .nil
  | cons c cs ih =>
    rw [withReturns, List.flatMap_cons, ← withReturns]
    by_cases hc : c = '\n'
    · subst hc
      rw [if_pos rfl]
      exact .cons ⟨['\r'], List.forall_mem_singleton.mpr rfl, rfl⟩ ih
    · have hne : ¬(c == '\n') = true := mt beq_iff_eq.mp hc
      rw [if_neg hc, List.singleton_append, List.splitOn_cons_eq_if_modifyHead, List.splitOn_cons_eq_if_modifyHead,
        if_neg hne, if_neg hne]
      -- the character goes in front of the first line of either text
      generalize cs.splitOn '\n' = lines, (withReturns cs).splitOn '\n' = lines' at ih
      cases ih with
      | nil => exact .nil
      | cons hfirst hrest =>
        obtain ⟨blanks, hblanks, rfl⟩ := hfirst
        exact .cons ⟨blanks, hblanks, rfl⟩ hrest

/-! ## Result -/

/-- Lines in another layout are read the same. -/
theorem Format.SolidMarker.read_eq_of_relaid (hf : f.SolidMarker) {text text' : String}
    (h : List.Forall₂ f.Relaid (text.toList.splitOn '\n') (text'.toList.splitOn '\n')) : f.read text' = f.read text :=
  readLines_congr (h.imp fun _ _ hline => hline.alike hf)

end Record

namespace Book

open Text Record

theorem solidMarker : format.SolidMarker := ⟨"Boo".toList, 'k', by decide +kernel, by decide⟩

/-- **Layout carries no meaning.** White space at the ends of lines, a carriage return at each of them for one, and
    whatever follows the marker on a marker line make no difference to the books of a text or to the report of its
    first offence. A line of white space that is put in anywhere makes none to the books, and moves a report one line
    down exactly if it stands at or above the offence. -/
theorem read_ignores_layout (text text' : String) :
    (List.Forall₂ format.Relaid (text.toList.splitOn '\n') (text'.toList.splitOn '\n') →
      Book.read text' = Book.read text) ∧
    Book.read (String.ofList (withReturns text.toList)) = Book.read text ∧
    ∀ above blank below, text.toList.splitOn '\n' = above ++ below → (∀ c ∈ blank, isBlank c = true) →
      text'.toList.splitOn '\n' = above ++ blank :: below →
      (∀ bs, Book.read text = .ok bs → Book.read text' = .ok bs) ∧
        ∀ n o, Book.read text = .error ⟨n, o⟩ →
          Book.read text' = .error ⟨if above.length + 1 ≤ n then n + 1 else n, o⟩ := by
  refine ⟨solidMarker.read_eq_of_relaid, solidMarker.read_eq_of_relaid ?_, ?_⟩
  · rw [String.toList_ofList]
    exact (forall₂_splitOn_withReturns text.toList).imp fun _ _ ⟨_, hblanks, h⟩ => h ▸ .blanks hblanks
  · intro above blank below hlines hblank hlines'
    have hblankLine : isBlankLine blank = true := List.all_eq_true.mpr hblank
    have hinsert : Book.read text' = (Book.read text).mapError (FormatError.pushedDown (above.length + 1)) := by
      rw [Book.read, Book.read, Format.read, Format.read, hlines, hlines']
      exact Format.readLines_insert (solidMarker.not_opens_of_blank hblankLine) hblankLine
    constructor
    · intro bs hbs
      rw [hinsert, hbs]
      rfl
    · intro n o herror
      have hreport : FormatError.pushedDown (above.length + 1) ⟨n, o⟩ =
          ⟨if above.length + 1 ≤ n then n + 1 else n, o⟩ := by
        rw [FormatError.pushedDown]
        split
        · rw [FormatError.below, Nat.add_comm]
        · rfl
      rw [hinsert, herror]
      exact congrArg Except.error hreport

/-- A text whose third line has no colon, in another layout, and with a line of white space above or below that line. -/
theorem sample_layout :
    Book.read "Book\nTitle : A\nx" = .error ⟨3, .missingDelimiter⟩ ∧
      Book.read "Bookcase: 1\nTitle : A \r\nx\t" = .error ⟨3, .missingDelimiter⟩ ∧
      Book.read "Book\nTitle : A\n \nx" = .error ⟨4, .missingDelimiter⟩ ∧
      Book.read "Book\nTitle : A\nx\n" = .error ⟨3, .missingDelimiter⟩ := by
  have hread : Book.read "Book\nTitle : A\nx" = .error ⟨3, .missingDelimiter⟩ := rfl
  have hlines : "Book\nTitle : A\nx".toList.splitOn '\n' =
      [format.marker.toList ++ [], "Title : A".toList, "x".toList] := by decide +kernel
  refine ⟨hread, ?_, ?_, ?_⟩
  · have hlines' : "Bookcase: 1\nTitle : A \r\nx\t".toList.splitOn '\n' =
        [format.marker.toList ++ "case: 1".toList, "Title : A".toList ++ [' ', '\r'], "x".toList ++ ['\t']] := by
      decide +kernel
    rw [← hread]
    refine (read_ignores_layout _ _).1 ?_
    rw [hlines, hlines']
    exact .cons .marker (.cons (.blanks (List.all_eq_true.mp rfl)) (.cons (.blanks (List.all_eq_true.mp rfl)) .nil))
  · obtain ⟨-, -, hinsert⟩ := read_ignores_layout "Book\nTitle : A\nx" "Book\nTitle : A\n \nx"
    exact (hinsert [_, _] [' '] [_] hlines (List.all_eq_true.mp rfl) (by decide +kernel)).2 3 _ hread
  · obtain ⟨-, -, hinsert⟩ := read_ignores_layout "Book\nTitle : A\nx" "Book\nTitle : A\nx\n"
    exact (hinsert [_, _, _] [] [] hlines nofun (by decide +kernel)).2 3 _ hread

end Book

end LibraryCatalog
