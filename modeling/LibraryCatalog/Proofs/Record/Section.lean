import LibraryCatalog.Record.Block
import LibraryCatalog.Proofs.Text.Numeral

/-!
# `LibraryCatalog.Proofs.Record.Section` — the lines that make one record

A marker line opens a section of a text, which ends before the next marker line. Reading goes through a text once,
with one open record that is replaced at every marker line; all the same a record is made of the lines of its own
section and of nothing else.

## Contents
- **Sections.** `Format.sections`, one for each marker line (`length_sections`), and `getElem?_sections`, which
  section belongs to which marker line.
- **One line.** `Field.keys`, which a field accepts, and `resolve_of_nodup` for tables in which no key occurs twice; what
  an accepted line does to a record: `applyLine_eq_ok_iff`, `Setter.apply_integer_eq_ok_iff`.
- **Making.** `Format.applyLines`, what the lines of a section make of a record; the loop does the same with them
  (`readLines_of_applyLines`), and a text that is read gives what its sections make of a blank record
  (`map_ok_of_read`).
- **Values.** `valuesUnder`, the values that a section gives under some keys.
-/

namespace LibraryCatalog.Record

open Text

variable {ρ : Type} {f : Format ρ}

/-! ## Sections -/

/-- The lines between each marker line and the next one, or the end. -/
def Format.sections (f : Format ρ) : List (List Char) → List (List (List Char))
  | [] => []
  | line :: below =>
    if f.opens line then below.takeWhile (fun l => !f.opens l) :: f.sections below else f.sections below

theorem Format.length_sections (f : Format ρ) (lines : List (List Char)) :
    (f.sections lines).length = lines.countP f.opens := by
  induction lines with
  | nil => rfl
  | cons line below ih =>
    rw [sections, List.countP_cons]
    by_cases hopens : f.opens line = true
    · rw [if_pos hopens, if_pos hopens, List.length_cons, ih]
    · rw [if_neg hopens, if_neg hopens, ih, Nat.add_zero]

/-- Lines above a place account for as many sections as there are marker lines among them. -/
theorem Format.drop_sections (f : Format ρ) (above rest : List (List Char)) :
    (f.sections (above ++ rest)).drop (above.countP f.opens) = f.sections rest := by
  induction above with
  | nil => rfl
  | cons line above ih =>
    rw [List.cons_append, sections, List.countP_cons]
    by_cases hopens : f.opens line = true
    · rw [if_pos hopens, if_pos hopens, List.drop_succ_cons, ih]
    · rw [if_neg hopens, if_neg hopens, Nat.add_zero, ih]

/-- **The section of a marker line** consists of the lines below it down to the next marker line, and its number is
that of the marker lines above. -/
theorem Format.getElem?_sections {above body below : List (List Char)} {marker : List Char}
    (hmarker : f.opens marker = true) (hbody : ∀ line ∈ body, f.opens line = false)
    (hbelow : ∀ line ∈ below.head?, f.opens line = true) :
    (f.sections (above ++ marker :: (body ++ below)))[above.countP f.opens]? = some body := by
  have htake : (body ++ below).takeWhile (fun l => !f.opens l) = body := by
    rw [List.takeWhile_append_of_pos (by simpa using hbody)]
    cases below with
    | nil => exact List.append_nil body
    | cons next below =>
      have hnext : f.opens next = true := hbelow next rfl
      rw [List.takeWhile_cons, hnext]
      exact List.append_nil body
  rw [← Nat.add_zero (above.countP f.opens), ← List.getElem?_drop, f.drop_sections, sections, if_pos hmarker, htake]
  rfl

/-! ## One line -/

/-- The keys of a field. -/
def Field.keys (field : Field ρ) : List String := field.name :: field.alternate.toList

/-- A field accepts its keys and no others. -/
theorem Field.accepts_iff {field : Field ρ} {key : String} : field.accepts key = true ↔ key ∈ field.keys := by
  unfold Field.accepts Field.keys
  rw [Bool.or_eq_true, beq_iff_eq, beq_iff_eq, List.mem_cons, Option.mem_toList, eq_comm]

/-- A key stands for a field of the table to whose keys it belongs. -/
theorem mem_of_resolve {fields : List (Field ρ)} {key : String} {field : Field ρ}
    (h : resolve fields key = some field) : field ∈ fields ∧ key ∈ field.keys := by
  constructor
  · rw [resolve, Option.or_eq_some_iff] at h
    rcases h with h | ⟨-, h⟩ <;> exact List.mem_of_find?_eq_some h
  · exact Field.accepts_iff.mp (accepts_of_resolve h)

/-- A key stands for no field if it belongs to none. -/
theorem resolve_eq_none_iff {fields : List (Field ρ)} {key : String} :
    resolve fields key = none ↔ ∀ field ∈ fields, key ∉ field.keys := by
  rw [resolve, Option.or_eq_none_iff, List.find?_eq_none, List.find?_eq_none]
  simp only [beq_iff_eq, Field.keys, List.mem_cons, Option.mem_toList, not_or]
  constructor
  · rintro ⟨hname, halternate⟩ field hfield
    exact ⟨fun h => hname field hfield h.symm, halternate field hfield⟩
  · intro h
    exact ⟨fun field hfield hname => (h field hfield).1 hname.symm, fun field hfield => (h field hfield).2⟩

/-- Where no key occurs twice, no later field has a key of the first one. -/
theorem not_mem_keys_of_nodup {first field : Field ρ} {fields : List (Field ρ)} {key : String}
    (h : ((first :: fields).flatMap Field.keys).Nodup) (hkey : key ∈ first.keys) (hfield : field ∈ fields) :
    key ∉ field.keys := by
  intro hkey'
  rw [List.flatMap_cons, List.nodup_append] at h
  obtain ⟨-, -, hapart⟩ := h
  exact hapart key hkey key (List.mem_flatMap.mpr ⟨field, hfield, hkey'⟩) rfl

/-- Where no key occurs twice, it belongs to one field only. -/
theorem eq_of_mem_keys {fields : List (Field ρ)} {key : String} {field field' : Field ρ}
    (h : (fields.flatMap Field.keys).Nodup) (hfield : field ∈ fields) (hkey : key ∈ field.keys)
    (hfield' : field' ∈ fields) (hkey' : key ∈ field'.keys) : field = field' := by
  induction fields with
  | nil => cases hfield
  | cons first fields ih =>
    have hrest : (fields.flatMap Field.keys).Nodup := by
      rw [List.flatMap_cons, List.nodup_append] at h
      exact h.2.1
    rcases List.mem_cons.mp hfield with rfl | hmem
    · rcases List.mem_cons.mp hfield' with rfl | hmem'
      · rfl
      · exact absurd hkey' (not_mem_keys_of_nodup h hkey hmem')
    · rcases List.mem_cons.mp hfield' with rfl | hmem'
      · exact absurd hkey (not_mem_keys_of_nodup h hkey' hmem)
      · exact ih hrest hmem hmem'

/-- **Where no key occurs twice**, a key stands for the field to which it belongs. -/
theorem resolve_of_nodup {fields : List (Field ρ)} {key : String} {field : Field ρ}
    (h : (fields.flatMap Field.keys).Nodup) (hfield : field ∈ fields) (hkey : key ∈ field.keys) :
    resolve fields key = some field := by
  cases hres : resolve fields key with
  | none => exact absurd hkey (resolve_eq_none_iff.mp hres field hfield)
  | some found =>
    obtain ⟨hfound, hkey'⟩ := mem_of_resolve hres
    rw [eq_of_mem_keys h hfound hkey' hfield hkey]

/-- An accepted line has a key that stands for a field, and its value goes into that field. -/
theorem Format.applyLine_eq_ok_iff {r r' : ρ} :
    f.applyLine line r = .ok r' ↔ ∃ key value field, cut ':' line = some (key, value) ∧
      resolve f.fields (String.ofList (trim key)) = some field ∧
        field.setter.apply (String.ofList (trim key)) (trim value) r = .ok r' := by
  constructor
  · intro h
    unfold applyLine at h
    split at h
    · cases h
    · next key value hcut =>
      simp only at h
      split at h
      · cases h
      · next field hfield => exact ⟨key, value, field, hcut, hfield, h⟩
  · rintro ⟨key, value, field, hcut, hfield, h⟩
    simp only [applyLine, hcut, hfield, h]

/-- A field of numbers takes the integer that the value is written for. -/
theorem Setter.apply_integer_eq_ok_iff {assign : Int32 → ρ → ρ} {key : String} {value : List Char} {r r' : ρ} :
    (Setter.integer assign).apply key value r = .ok r' ↔ ∃ n, Numeral value n.toInt ∧ r' = assign n r := by
  rw [Setter.apply]
  constructor
  · intro h
    split at h
    · next n hn => exact ⟨n, int32?_eq_some_iff.mp hn, (Except.ok.inj h).symm⟩
    · cases h
  · rintro ⟨n, hn, rfl⟩
    rw [int32?_eq_some_iff.mpr hn]

/-! ## Making -/

/-- What lines make of a record, one after the other; blank lines make nothing. -/
def Format.applyLines (f : Format ρ) (r : ρ) (lines : List (List Char)) : Except Offence ρ :=
  lines.foldlM (fun r line => if isBlankLine line then .ok r else f.applyLine line r) r

theorem Format.applyLines_of_blank {line : List Char} (h : isBlankLine line = true) (r : ρ)
    (lines : List (List Char)) : f.applyLines r (line :: lines) = f.applyLines r lines := by
  rw [applyLines, List.foldlM_cons, if_pos h]
  rfl

theorem Format.applyLines_of_ok {line : List Char} {r r' : ρ} (hblank : ¬isBlankLine line = true)
    (h : f.applyLine line r = .ok r') (lines : List (List Char)) :
    f.applyLines r (line :: lines) = f.applyLines r' lines := by
  rw [applyLines, List.foldlM_cons, if_neg hblank, h]
  rfl

/-- Lines that make a record and open none are read as that record. -/
theorem Format.readLines_of_applyLines {n : Nat} {r r' : ρ} {lines : List (List Char)}
    (hopens : ∀ line ∈ lines, ¬f.opens line = true) (h : f.applyLines r lines = .ok r') :
    f.readLines n (some r) lines = .ok [r'] := by
  induction lines generalizing n r with
  | nil =>
    obtain rfl := Except.ok.inj h
    rfl
  | cons line lines ih =>
    obtain ⟨hline, hlines⟩ := List.forall_mem_cons.mp hopens
    rw [readLines, if_neg hline]
    by_cases hblank : isBlankLine line = true
    · rw [applyLines_of_blank hblank] at h
      rw [if_pos hblank]
      exact ih hlines h
    rw [if_neg hblank, step]
    cases happly : f.applyLine line r with
    | error o => rw [applyLines, List.foldlM_cons, if_neg hblank, happly] at h; cases h
    | ok next =>
      rw [applyLines_of_ok hblank happly] at h
      exact ih hlines h

/-- **The loop makes every record of its own lines**: the record that is open of the lines down to the next marker
line, and each later one of its section. -/
theorem Format.map_ok_of_readLines {n : Nat} {current : Option ρ} {lines : List (List Char)} {rs : List ρ}
    (h : f.readLines n current lines = .ok rs) :
    rs.map .ok = current.toList.map (fun r => f.applyLines r (lines.takeWhile fun l => !f.opens l)) ++
      (f.sections lines).map (f.applyLines f.blank) := by
  induction lines generalizing n current rs with
  | nil =>
    rw [← Except.ok.inj h, sections, List.map_nil, List.append_nil]
    rfl
  | cons line lines ih =>
    rw [readLines] at h
    by_cases hmark : f.opens line = true
    · -- the open record ends here, and a blank one takes its place
      rw [if_pos hmark] at h
      cases hrest : f.readLines (n + 1) (some f.blank) lines with
      | error e => rw [hrest] at h; cases h
      | ok rs' =>
        rw [hrest] at h
        rw [← Except.ok.inj h, List.map_append, ih hrest, sections, if_pos hmark, List.takeWhile_cons, hmark]
        rfl
    rw [if_neg hmark] at h
    have htake : (line :: lines).takeWhile (fun l => !f.opens l) =
        line :: lines.takeWhile fun l => !f.opens l := by
      rw [List.takeWhile_cons, Bool.eq_false_iff.mpr hmark]
      rfl
    rw [sections, if_neg hmark, htake]
    by_cases hblank : isBlankLine line = true
    · rw [if_pos hblank] at h
      simp only [applyLines_of_blank hblank]
      exact ih h
    rw [if_neg hblank] at h
    cases current with
    | none => cases h
    | some r =>
      rw [step] at h
      cases hline : f.applyLine line r with
      | error o => rw [hline] at h; cases h
      | ok r' =>
        rw [hline] at h
        simp only [Option.toList_some, List.map_cons, List.map_nil, applyLines_of_ok hblank hline]
        exact ih h

/-- **A text that is read gives what its sections make of a blank record.** -/
theorem Format.map_ok_of_read {text : String} {rs : List ρ} (h : f.read text = .ok rs) :
    rs.map .ok = (f.sections (text.toList.splitOn '\n')).map (f.applyLines f.blank) :=
  map_ok_of_readLines h

/-! ## Values -/

/-- The values of the lines that have one of some keys, in their order. Key and value are what stands before and
after the first colon, without the white space around it. -/
def valuesUnder (keys : List String) (lines : List (List Char)) : List String :=
  lines.filterMap fun line => (cut ':' line).bind fun (key, value) =>
    if String.ofList (trim key) ∈ keys then some (String.ofList (trim value)) else none

variable {keys : List String} {line key value : List Char}

theorem valuesUnder_append (keys : List String) (lines lines' : List (List Char)) :
    valuesUnder keys (lines ++ lines') = valuesUnder keys lines ++ valuesUnder keys lines' :=
  List.filterMap_append

/-- A line gives its value under the keys to which its own belongs. -/
theorem valuesUnder_singleton (hcut : cut ':' line = some (key, value)) :
    valuesUnder keys [line] =
      if String.ofList (trim key) ∈ keys then [String.ofList (trim value)] else [] := by
  rw [valuesUnder, List.filterMap_cons, hcut, Option.bind_some, List.filterMap_nil]
  by_cases h : String.ofList (trim key) ∈ keys
  · simp only [if_pos h]
  · simp only [if_neg h]

/-- A blank line gives no value. -/
theorem valuesUnder_of_blank (h : isBlankLine line = true) : valuesUnder keys [line] = [] := by
  have hcolon : ':' ∉ line := by
    intro hmem
    exact absurd (List.all_eq_true.mp h ':' hmem) (by decide)
  rw [valuesUnder, List.filterMap_cons, cut_eq_none_iff.mpr hcolon]
  rfl

end LibraryCatalog.Record
