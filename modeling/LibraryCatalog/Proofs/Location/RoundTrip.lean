import LibraryCatalog.Proofs.CommandLine.DefaultPlace

/-!
# `LibraryCatalog.Proofs.Location.RoundTrip` — the written form of a location, read again

A location is written in one way only, and no two locations in the same. What is written is read back unless one of
the numbers is zero: such a location can be made, but no text is read as it. As the value of an option, the path
behind the first sign of equality is taken as it stands, since none can occur in a written location.

## Contents
- **Written locations.** `read_text`; `text_injective`, also for locations that cannot be read.
- **Record files.** `isWord_argument`; `settings?_withValue_load` and `ofArguments_load_append`, an option for a record
  file in front of other arguments.
- **Result.** `Location.read_text_roundtrip`.
-/

namespace LibraryCatalog

open Text

/-! ## Written locations -/

namespace Location

/-- **What is written is read back if all numbers are positive**, and otherwise the report quotes all of it. -/
theorem read_text (l : Location) : read l.text = if l.Positive then .ok l else .error ⟨l.text⟩ := by
  have hread : ofChars? l.text.toList = if l.Positive then some l else none := by
    rw [text, String.toList_ofList, ofChars?_chars]
  rw [read, hread]
  by_cases hpos : l.Positive
  · rw [if_pos hpos, if_pos hpos]
  · rw [if_neg hpos, if_neg hpos]

theorem positive_of_read {s : String} {l : Location} (h : read s = .ok l) : l.Positive := by
  rw [read] at h
  split at h
  · next hread => exact Except.ok.inj h ▸ positive_of_ofChars? hread
  · cases h

theorem showNat_inj {m n : UInt32} (h : showNat m.toNat = showNat n.toNat) : m = n := by
  have hread := congrArg digits? h
  rw [digits?_showNat, digits?_showNat] at hread
  exact UInt32.toNat_inj.mp (Option.some.inj hread)

/-- **No two locations are written in the same way**: slashes divide both texts into the same numbers. -/
theorem text_injective : Function.Injective text := by
  intro l l' h
  have hchars : l.chars = l'.chars := String.ofList_injective h
  have hparts := congrArg (List.splitOn '/') hchars
  rw [splitOn_chars, splitOn_chars] at hparts
  simp only [List.cons.injEq, and_true] at hparts
  obtain ⟨hroom, hrow, hshelf⟩ := hparts
  obtain ⟨room, row, shelf⟩ := l
  obtain ⟨room', row', shelf'⟩ := l'
  rw [Location.mk.injEq]
  exact ⟨showNat_inj hroom, showNat_inj hrow, showNat_inj hshelf⟩

end Location

/-! ## Record files -/

namespace CommandLine

variable {args : List String} {i : Invocation} {level : Level} {g : Given} {s : Settings} {source : ShelfSource}

/-- An argument that starts with a digit is a word. -/
theorem isWord_of_isDigit {arg : String} {c : Char} {cs : List Char} (h : arg.toList = c :: cs)
    (hc : c.isDigit = true) : isWord arg = true := by
  have hminus : c ≠ '-' := fun heq => absurd (heq ▸ hc) (by decide)
  have hword : Token.ofArgument arg = .word arg := by
    unfold Token.ofArgument
    rw [h]
    split
    all_goals first | rfl | next heq => exact absurd (List.cons.inj heq).1 hminus
  rw [isWord, hword]

/-- The value for a record file can be an argument of its own. -/
theorem isWord_argument (source : ShelfSource) : isWord source.argument = true := by
  obtain ⟨c, cs, hcs⟩ := List.exists_cons_of_ne_nil (showNat_ne_nil source.location.room.toNat)
  have hchars : source.argument.toList = c :: (cs ++ ('/' :: showNat source.location.row.toNat ++
      '/' :: showNat source.location.shelf.toNat ++ '=' :: source.file.toList)) := by
    simp [ShelfSource.argument, Location.text, Location.chars, hcs]
  exact isWord_of_isDigit hchars (isDigit_of_mem_showNat (hcs ▸ List.mem_cons_self))

theorem agreesOffLoads_withValue_load (text : String) (attached : Bool) (g : Given) :
    g.AgreesOffLoads (g.withValue ⟨"load", text, attached⟩) := by
  refine ⟨fun name hname => ?_, rfl, rfl⟩
  rw [valuesOf_withValue, if_neg hname.symm, List.nil_append]

/-- A record file in front of other options is read with them. -/
theorem settings?_withValue_load (hpos : source.location.Positive) (attached : Bool)
    (h : g.settings? level = .ok s) :
    (g.withValue ⟨"load", source.argument, attached⟩).settings? level =
      .ok { s with loads := source :: s.loads } := by
  have hloads : g.loads? = .ok s.loads := (settings?_eq_ok_iff.mp h).2.1
  have hloads' : (g.withValue ⟨"load", source.argument, attached⟩).loads? = .ok (source :: s.loads) := by
    rw [Given.loads?, valuesOf_withValue, if_pos rfl, List.singleton_append, List.mapM_cons,
      shelfSource?_argument hpos, ← Given.loads?, hloads]
    rfl
  rw [settings?_of_agreesOffLoads (agreesOffLoads_withValue_load _ _ g) hloads hloads' level, h]
  rfl

/-- **A record file in front** of arguments that give none is the only one. -/
theorem ofArguments_load_append (source : ShelfSource) (hpos : source.location.Positive) (attached : Bool)
    (h : Invocation.ofArguments args = .ok i) (hnone : i.loads = []) :
    Invocation.ofArguments ((Item.value ⟨"load", source.argument, attached⟩).arguments ++ args) =
      .ok { i with loads := [source] } := by
  obtain ⟨given, outer, config, loads, houter, hi, hread⟩ := exists_ofArguments_value_append h
  have hfits : (Item.value ⟨"load", source.argument, attached⟩).FitsAt outerLevel := by
    cases attached with
    | true => exact .attached (by decide)
    | false => exact .separate (by decide) (isWord_argument source)
  -- nothing is given behind the name of the command, and nothing else before it
  rw [hi] at hnone ⊢
  have hloads : loads = [] ∧ outer.loads = [] := by
    cases loads with
    | nil => exact ⟨rfl, hnone⟩
    | cons s loads => cases hnone
  rw [hread _ _ hfits (settings?_withValue_load hpos attached houter), hloads.1, hloads.2]
  rfl

end CommandLine

/-! ## Result -/

namespace Location

open CommandLine

/-- **Reading undoes writing**, for all locations that can be read, and the report of any other quotes what was
    written. No two locations are written in the same way, zeros included. Whatever text a location is read from, it
    is read from its written form, too. So behind the option for record files, a written location, a sign of equality
    and a path are always read as that location and that path, whatever the path holds. -/
theorem read_text_roundtrip :
    (∀ l : Location, read l.text = if l.Positive then .ok l else .error ⟨l.text⟩) ∧
    Function.Injective text ∧
    (∀ s l, read s = .ok l → read l.text = .ok l) ∧
    ∀ (l : Location) (path : String), l.Positive →
      shelfSource? (l.text ++ "=" ++ path) = some ⟨l, path⟩ ∧
      ∀ args i, Invocation.ofArguments args = .ok i → i.loads = [] →
        Invocation.ofArguments (("--load=" ++ (l.text ++ "=" ++ path)) :: args) =
          .ok { i with loads := [⟨l, path⟩] } ∧
        Invocation.ofArguments ("--load" :: (l.text ++ "=" ++ path) :: args) =
          .ok { i with loads := [⟨l, path⟩] } := by
  refine ⟨read_text, text_injective, ?_, ?_⟩
  · intro s l hread
    rw [read_text, if_pos (positive_of_read hread)]
  · intro l path hpos
    refine ⟨shelfSource?_argument (s := ⟨l, path⟩) hpos, fun args i hargs hnone => ⟨?_, ?_⟩⟩
    · exact ofArguments_load_append ⟨l, path⟩ hpos true hargs hnone
    · exact ofArguments_load_append ⟨l, path⟩ hpos false hargs hnone

theorem sample_read_text :
    read "1/0/4294967295" = .error ⟨"1/0/4294967295"⟩ ∧
    text ⟨1, 10, 2⟩ ≠ text ⟨11, 0, 2⟩ ∧
    read "+1/ 007 /2" = .ok ⟨1, 7, 2⟩ ∧ read "1/7/2" = .ok ⟨1, 7, 2⟩ ∧
    Invocation.ofArguments ["--load", "4294967295/1/2=a=b/c", "info"] =
      .ok ⟨none, [⟨⟨4294967295, 1, 2⟩, "a=b/c"⟩], .info⟩ := by
  have hread : read "+1/ 007 /2" = .ok ⟨1, 7, 2⟩ := by decide +kernel
  have hinfo : Invocation.ofArguments ["info"] = .ok ⟨none, [], .info⟩ := rfl
  obtain ⟨hzero, hinjective, hagain, hload⟩ := read_text_roundtrip
  refine ⟨(hzero ⟨1, 0, 4294967295⟩).trans (if_neg (by decide)), ?_, hread, hagain _ _ hread, ?_⟩
  · exact hinjective.ne (by decide)
  · exact ((hload ⟨4294967295, 1, 2⟩ "a=b/c" (by decide)).2 ["info"] _ hinfo rfl).2

end Location

end LibraryCatalog
