import LibraryCatalog.Record.Block
import LibraryCatalog.Proofs.Text.Numeral

/-!
# `LibraryCatalog.Proofs.Record.Offence` — which line of a text is reported

Reading a text keeps an open record and stops at the first line it cannot understand. Whether it stops at a line
does not depend on the records before it, only on whether one of the earlier lines opens a record, so the line that
is reported has a description without any reading in it.

## Contents
- **Description.** `Opened` and `Malformed`, the two sorts of reason; `Refuses` for a line after others and
  `Offends` for a line of a text.
- **One line.** `step_eq_error_iff`: a line is refused exactly for its reasons, of which it has at most one.
- **The loop.** `Scanned`, what holds before each line, and `Reports`, what a reading must say about a text.
- **The result.** `read_reports_first_offence`; before it `read_of_first`, for texts that start outside a record.
-/

namespace LibraryCatalog.Record

open Text

variable {ρ : Type} {f : Format ρ} {lines earlier rest : List (List Char)} {line : List Char}
  {current : Option ρ}

/-! ## Description -/

/-- Some line of a list opens a record. -/
def Format.Opened (f : Format ρ) (earlier : List (List Char)) : Prop :=
  ∃ line ∈ earlier, f.marker.toList <+: line

/-- What is wrong with a line that stands inside a record, whatever that record holds. -/
inductive Format.Malformed (f : Format ρ) : List Char → Offence → Prop where
  | missingDelimiter {line : List Char} : ':' ∉ line → f.Malformed line .missingDelimiter
  /-- The key before the first colon stands for no field. -/
  | unknownKey {key value : List Char} : ':' ∉ key →
      resolve f.fields (String.ofList (trim key)) = none →
      f.Malformed (key ++ ':' :: value) (.unknownKey (String.ofList (trim key)))
  /-- The key before the first colon stands for a field of numbers, and what follows the colon is none. -/
  | invalidInteger {key value : List Char} {field : Field ρ} {assign : Int32 → ρ → ρ} : ':' ∉ key →
      resolve f.fields (String.ofList (trim key)) = some field → field.setter = .integer assign →
      ¬IsInt32 (trim value) →
      f.Malformed (key ++ ':' :: value)
        (.invalidInteger (String.ofList (trim key)) (String.ofList (trim value)))

/-- A line is refused after the lines `earlier`: it neither opens a record nor is blank, and it stands outside
every record or else is malformed. -/
structure Format.Refuses (f : Format ρ) (earlier : List (List Char)) (line : List Char) (o : Offence) :
    Prop where
  not_marker : ¬f.marker.toList <+: line
  not_blank : ¬∀ c ∈ line, isBlank c = true
  cause : ¬f.Opened earlier ∧ o = .missingMarker f.marker ∨ f.Opened earlier ∧ f.Malformed line o

/-- The line with number `n`, counted from one, is refused after the lines above it. -/
def Format.Offends (f : Format ρ) (lines : List (List Char)) (n : Nat) (o : Offence) : Prop :=
  ∃ earlier line later, lines = earlier ++ line :: later ∧ n = earlier.length + 1 ∧ f.Refuses earlier line o

theorem Format.opens_iff : f.opens line = true ↔ f.marker.toList <+: line := List.isPrefixOf_iff_prefix

theorem Format.opened_append_singleton :
    f.Opened (earlier ++ [line]) ↔ f.Opened earlier ∨ f.marker.toList <+: line := by
  simp only [Format.Opened, List.mem_append, List.mem_singleton]
  constructor
  · rintro ⟨l, hl | rfl, hpre⟩
    · exact .inl ⟨l, hl, hpre⟩
    · exact .inr hpre
  · rintro (⟨l, hl, hpre⟩ | hpre)
    · exact ⟨l, .inl hl, hpre⟩
    · exact ⟨line, .inr rfl, hpre⟩

/-- Whether a line offends is decided by the lines above it. -/
theorem Format.offends_iff_refuses {o : Offence} (h : lines = earlier ++ line :: rest) :
    f.Offends lines (earlier.length + 1) o ↔ f.Refuses earlier line o := by
  constructor
  · rintro ⟨earlier', line', later, h', hlen, href⟩
    obtain ⟨rfl, htail⟩ := List.append_inj (h.symm.trans h') (Nat.succ.inj hlen)
    obtain ⟨rfl, -⟩ := List.cons.inj htail
    exact href
  · intro href
    exact ⟨earlier, line, rest, h, rfl, href⟩

/-! ## One line -/

theorem Setter.apply_eq_error_iff {s : Setter ρ} {key : String} {value : List Char} {r : ρ} {o : Offence} :
    s.apply key value r = .error o ↔
      ∃ assign, s = .integer assign ∧ ¬IsInt32 value ∧ o = .invalidInteger key (String.ofList value) := by
  cases s with
  | text assign => simp [Setter.apply]
  | list append => simp [Setter.apply]
  | integer assign =>
    rw [Setter.apply, ← int32?_eq_none_iff]
    cases h : int32? value with
    | some n => simp
    | none => simp [eq_comm]

theorem Format.applyLine_eq_error_iff {r : ρ} {o : Offence} :
    f.applyLine line r = .error o ↔ f.Malformed line o := by
  constructor
  · intro h
    unfold Format.applyLine at h
    split at h
    · next hcut =>
      cases h
      exact .missingDelimiter (cut_eq_none_iff.mp hcut)
    · next key value hcut =>
      obtain ⟨rfl, hkey⟩ := cut_eq_some_iff.mp hcut
      simp only at h
      split at h
      · next hres =>
        cases h
        exact .unknownKey hkey hres
      · next field hres =>
        obtain ⟨assign, hset, hint, rfl⟩ := Setter.apply_eq_error_iff.mp h
        exact .invalidInteger hkey hres hset hint
  · intro h
    cases h with
    | missingDelimiter hmem => rw [Format.applyLine, cut_eq_none_iff.mpr hmem]
    | unknownKey hkey hres => simp only [Format.applyLine, cut_append hkey, hres]
    | invalidInteger hkey hres hset hint =>
      simp only [Format.applyLine, cut_append hkey, hres]
      exact Setter.apply_eq_error_iff.mpr ⟨_, hset, hint, rfl⟩

/-- **A line is refused exactly for its reasons**, when a record is open just as the lines above have it. -/
theorem Format.step_eq_error_iff {o : Offence} (hopen : current.isSome = true ↔ f.Opened earlier) :
    f.step line current = .error o ↔
      (¬f.Opened earlier ∧ o = .missingMarker f.marker ∨ f.Opened earlier ∧ f.Malformed line o) := by
  cases current with
  | none =>
    have hnot : ¬f.Opened earlier := fun h => nomatch hopen.mpr h
    rw [Format.step, Except.error.injEq, eq_comm]
    exact ⟨fun ho => .inl ⟨hnot, ho⟩, fun ho => (ho.resolve_right fun h => hnot h.1).2⟩
  | some r =>
    have hyes : f.Opened earlier := hopen.mp rfl
    rw [Format.step, applyLine_eq_error_iff]
    exact ⟨fun ho => .inr ⟨hyes, ho⟩, fun ho => (ho.resolve_left fun h => h.1 hyes).2⟩

/-- A line is malformed in one way only. -/
theorem Format.Malformed.unique {o o' : Offence} (h : f.Malformed line o) (h' : f.Malformed line o') :
    o = o' := by
  have herr := applyLine_eq_error_iff (r := f.blank).mpr h
  rw [applyLine_eq_error_iff.mpr h'] at herr
  exact (Except.error.inj herr).symm

theorem Format.Refuses.unique {o o' : Offence} (h : f.Refuses earlier line o)
    (h' : f.Refuses earlier line o') : o = o' := by
  rcases h.cause with ⟨hnot, rfl⟩ | ⟨hopen, hmal⟩
  · rcases h'.cause with ⟨-, rfl⟩ | ⟨hopen, -⟩
    · rfl
    · exact absurd hopen hnot
  · rcases h'.cause with ⟨hnot, -⟩ | ⟨-, hmal'⟩
    · exact absurd hopen hnot
    · exact hmal.unique hmal'

theorem Format.Offends.unique {n : Nat} {o o' : Offence} (h : f.Offends lines n o)
    (h' : f.Offends lines n o') : o = o' := by
  obtain ⟨earlier, line, later, hsplit, rfl, href⟩ := h
  exact href.unique ((offends_iff_refuses hsplit).mp h')

/-! ## The loop -/

/-- What holds before a line is read: a text is divided into the lines that were read and the rest, none of the
former offends, and a record is open exactly when one of them opens it. -/
structure Format.Scanned (f : Format ρ) (lines earlier rest : List (List Char)) (current : Option ρ) :
    Prop where
  split : lines = earlier ++ rest
  clean : ∀ n ≤ earlier.length, ∀ o, ¬f.Offends lines n o
  opened : current.isSome = true ↔ f.Opened earlier

/-- What a reading says about a text: that no line offends, or the first one that does. -/
def Format.Reports (f : Format ρ) (lines : List (List Char)) : Except FormatError (List ρ) → Prop
  | .ok _ => ∀ n o, ¬f.Offends lines n o
  | .error e => f.Offends lines e.line e.offence ∧ ∀ n < e.line, ∀ o, ¬f.Offends lines n o

theorem Format.Reports.map {k : Except FormatError (List ρ)} (h : f.Reports lines k)
    (g : List ρ → List ρ) : f.Reports lines (k.map g) := by
  cases k with
  | ok rs => exact h
  | error e => exact h

/-- A line that is not refused joins the lines that were read. -/
theorem Format.Scanned.advance {next : Option ρ} (h : f.Scanned lines earlier (line :: rest) current)
    (hclean : ∀ o, ¬f.Refuses earlier line o)
    (hopen : next.isSome = true ↔ f.Opened earlier ∨ f.marker.toList <+: line) :
    f.Scanned lines (earlier ++ [line]) rest next where
  split := by rw [h.split, List.append_assoc, List.singleton_append]
  clean := by
    intro n hn o
    rw [List.length_append, List.length_singleton] at hn
    rcases Nat.lt_or_ge earlier.length n with hlt | hle
    · -- `n` is the number of the new line
      obtain rfl : n = earlier.length + 1 := Nat.le_antisymm hn hlt
      rw [offends_iff_refuses h.split]
      exact hclean o
    · exact h.clean n hle o
  opened := by rw [opened_append_singleton]; exact hopen

/-- **The loop reports the first offence**, by induction on the lines that are left. -/
theorem Format.readLines_reports (h : f.Scanned lines earlier rest current) :
    f.Reports lines (f.readLines (earlier.length + 1) current rest) := by
  induction rest generalizing earlier current with
  | nil =>
    rintro n o ⟨above, line, below, hsplit, rfl, href⟩
    -- the number of a line is at most the number of lines, and all of them were read
    have hlen : above.length + 1 ≤ earlier.length := by
      have := congrArg List.length (h.split.symm.trans hsplit)
      simp only [List.append_nil, List.length_append, List.length_cons] at this
      omega
    exact h.clean _ hlen o ⟨above, line, below, hsplit, rfl, href⟩
  | cons line rest ih =>
    have hnext : earlier.length + 1 + 1 = (earlier ++ [line]).length + 1 := by
      rw [List.length_append, List.length_singleton]
    rw [readLines, hnext]
    by_cases hmark : f.opens line = true
    · rw [if_pos hmark]
      have hpre := opens_iff.mp hmark
      refine (ih (h.advance (fun o href => href.not_marker hpre) ?_)).map _
      exact ⟨fun _ => .inr hpre, fun _ => rfl⟩
    rw [if_neg hmark]
    have hpre := mt opens_iff.mpr hmark
    have hcurrent : current.isSome = true ↔ f.Opened earlier ∨ f.marker.toList <+: line :=
      h.opened.trans (or_iff_left hpre).symm
    by_cases hblank : isBlankLine line = true
    · rw [if_pos hblank]
      exact ih (h.advance (fun o href => href.not_blank (List.all_eq_true.mp hblank)) hcurrent)
    rw [if_neg hblank]
    have hblank' : ¬∀ c ∈ line, isBlank c = true := mt List.all_eq_true.mpr hblank
    split
    · next r hstep =>
      -- a line that is understood stands inside a record, and leaves it open
      have hsome : current.isSome = true := by
        cases current with
        | none => cases hstep
        | some _ => rfl
      refine ih (h.advance (fun o href => ?_) ⟨fun _ => hcurrent.mp hsome, fun _ => rfl⟩)
      rw [(step_eq_error_iff h.opened).mpr href.cause] at hstep
      cases hstep
    · next o hstep =>
      have href : f.Refuses earlier line o := ⟨hpre, hblank', (step_eq_error_iff h.opened).mp hstep⟩
      exact ⟨(offends_iff_refuses h.split).mpr href, fun n hn => h.clean n (Nat.lt_succ_iff.mp hn)⟩

theorem Format.read_reports (f : Format ρ) (text : String) :
    f.Reports (text.toList.splitOn '\n') (f.read text) := by
  have hstart : f.Scanned (text.toList.splitOn '\n') [] (text.toList.splitOn '\n') none := by
    refine ⟨rfl, ?_, ?_⟩
    · rintro n hn o ⟨earlier, line, later, -, rfl, -⟩
      exact absurd hn (Nat.not_succ_le_zero _)
    · simp [Opened]
  exact readLines_reports hstart

/-- A text starts with an offence if its first character can neither be blank nor start a marker. -/
theorem Format.read_of_first {text : String} {first : Char} {rest : List Char}
    (htext : text.toList = first :: rest) (hblank : isBlank first = false)
    (hmarker : ∀ line, f.opens (first :: line) = false) : f.read text = .error ⟨1, .missingMarker f.marker⟩ := by
  have hnewline : ¬(first == '\n') = true := by
    intro h
    rw [beq_iff_eq.mp h] at hblank
    exact absurd hblank (by decide)
  obtain ⟨line, lines, hsplit⟩ := List.exists_cons_of_ne_nil (List.splitOn_ne_nil '\n' rest)
  have hfirst : isBlankLine (first :: line) = false := by
    rw [isBlankLine, List.all_cons, hblank, Bool.false_and]
  rw [Format.read, htext, List.splitOn_cons_eq_if_modifyHead, if_neg hnewline, hsplit, List.modifyHead_cons,
    Format.readLines, hmarker, if_neg Bool.false_ne_true, hfirst, if_neg Bool.false_ne_true]
  rfl

/-! ## The result -/

/-- **A text is read exactly when none of its lines offends, and the first line that does is reported
otherwise**, with its number and its offence. -/
theorem Format.read_reports_first_offence (f : Format ρ) (text : String) :
    ((∃ rs, f.read text = .ok rs) ↔ ∀ n o, ¬f.Offends (text.toList.splitOn '\n') n o) ∧
      ∀ n o, f.read text = .error ⟨n, o⟩ ↔
        f.Offends (text.toList.splitOn '\n') n o ∧
          ∀ m < n, ∀ o', ¬f.Offends (text.toList.splitOn '\n') m o' := by
  have hrep := f.read_reports text
  cases hread : f.read text with
  | ok rs =>
    rw [hread] at hrep
    refine ⟨⟨fun _ => hrep, fun _ => ⟨rs, rfl⟩⟩, fun n o => ?_⟩
    exact iff_of_false (fun h => nomatch h) fun h => hrep n o h.1
  | error e =>
    rw [hread] at hrep
    obtain ⟨hoff, hfirst⟩ := hrep
    refine ⟨iff_of_false (fun ⟨_, h⟩ => nomatch h) fun h => h _ _ hoff, fun n o => ?_⟩
    constructor
    · intro h
      obtain rfl := Except.error.inj h
      exact ⟨hoff, hfirst⟩
    · rintro ⟨ho, hmin⟩
      -- neither offence stands above the other
      have hline : e.line = n := by
        rcases Nat.lt_trichotomy e.line n with hlt | heq | hgt
        · exact absurd hoff (hmin _ hlt _)
        · exact heq
        · exact absurd ho (hfirst _ hgt _)
      subst hline
      rw [ho.unique hoff]

end LibraryCatalog.Record
