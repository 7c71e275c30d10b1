import LibraryCatalog.Proofs.Toml.Quoted
import LibraryCatalog.Toml.Reader

/-!
# `LibraryCatalog.Proofs.Toml.Lines` — documents that are written line by line

A line of a written document holds a key without quotes and a value, or the header of a table in an array, or
nothing. Reading such a line and reading what follows it come apart, whatever bound the length of the text gives.

## Contents
- **Keys.** `IsBareKey`, `dottedKey?_bare`.
- **Values.** `value_quote`.
- **Lines.** `ReadsAs`, with one lemma for each kind of line.
-/

namespace LibraryCatalog.Toml.Reader

variable {key : String} {cs vs rest : List Char} {as : List Assignment} {sections : List Section}

/-! ## Keys -/

/-- A key that needs no quotes. -/
structure IsBareKey (key : String) : Prop where
  ne_nil : key.toList ≠ []
  all_bare : key.toList.all isBare = true

theorem IsBareKey.bare (h : IsBareKey key) : ∀ c ∈ key.toList, isBare c = true := List.all_eq_true.mp h.all_bare

/-- The signs that mean something where a key could start. -/
theorem ne_of_isBare {c d : Char} (hc : isBare c = true) (hd : isBare d = false) : c ≠ d := by
  rintro rfl
  rw [hc] at hd
  cases hd

theorem IsBareKey.exists_cons (h : IsBareKey key) : ∃ c t, key.toList = c :: t ∧ isBare c = true := by
  obtain ⟨c, t, hkey⟩ := List.exists_cons_of_ne_nil h.ne_nil
  exact ⟨c, t, hkey, h.bare c (hkey ▸ List.mem_cons_self)⟩

theorem skipBlanks_cons {c : Char} (hc : isBlank c = false) (cs : List Char) : skipBlanks (c :: cs) = c :: cs := by
  rw [skipBlanks, List.dropWhile_cons, hc]
  rfl

theorem isBlank_of_isBare {c : Char} (hc : isBare c = true) : isBlank c = false := by
  rw [isBlank, beq_eq_false_iff_ne.mpr (ne_of_isBare hc (by decide)),
    beq_eq_false_iff_ne.mpr (ne_of_isBare hc (by decide))]
  rfl

theorem skipBlanks_bare (h : IsBareKey key) (rest : List Char) :
    skipBlanks (key.toList ++ rest) = key.toList ++ rest := by
  obtain ⟨c, t, hkey, hc⟩ := h.exists_cons
  rw [hkey, List.cons_append, skipBlanks_cons (isBlank_of_isBare hc)]

/-- A bare key is read up to the first character that cannot belong to it. -/
theorem simpleKey?_bare (h : IsBareKey key) (hrest : ∀ c ∈ rest.head?, isBare c = false) :
    simpleKey? (key.toList ++ rest) = some (key.toList, rest) := by
  have htake := Text.takeWhile_append_of_head h.bare hrest
  have hdrop := Text.dropWhile_append_of_head h.bare hrest
  obtain ⟨c, t, hkey, hc⟩ := h.exists_cons
  rw [hkey, List.cons_append] at htake hdrop ⊢
  rw [simpleKey?, if_neg (ne_of_isBare hc (by decide)), if_neg (ne_of_isBare hc (by decide)), if_pos hc, htake,
    hdrop]

/-- **A bare key is a dotted key of one part**, if no point follows. -/
theorem dottedKey?_bare {d : Char} {ds : List Char} (h : IsBareKey key) (hrest : ∀ c ∈ rest.head?, isBare c = false)
    (hskip : skipBlanks rest = d :: ds) (hd : d ≠ '.') :
    dottedKey? (key.toList ++ rest) = some ([], key, d :: ds) := by
  have hkeys (bound : Nat) : keys (bound + 1) (key.toList ++ rest) = some ([key], d :: ds) := by
    rw [keys, skipBlanks_bare h, simpleKey?_bare h hrest]
    simp only [Option.bind_eq_bind, Option.bind_some, hskip]
    split
    · next heq => exact absurd (List.cons.inj heq).1 hd
    · rw [String.ofList_toList]
      rfl
  rw [dottedKey?, hkeys]
  rfl

/-! ## Values -/

theorem exists_quote_cons (cs : List Char) : ∃ c t, quote cs = c :: t ∧ (c = '"' ∨ c = apostrophe) := by
  unfold quote
  cases style cs with
  | basic => exact ⟨'"', _, rfl, .inl rfl⟩
  | literal => exact ⟨apostrophe, _, rfl, .inr rfl⟩
  | multiBasic => exact ⟨'"', _, rfl, .inl rfl⟩
  | multiLiteral => exact ⟨apostrophe, _, rfl, .inr rfl⟩

/-- A written string is read as a value. -/
theorem value_quote (depth : Nat) (cs : List Char) (hrest : EndsString rest) :
    value depth (quote cs ++ rest) = some (.string (String.ofList cs), rest) := by
  have hread := string?_quote cs hrest
  obtain ⟨c, t, hquote, hc⟩ := exists_quote_cons cs
  rw [hquote, List.cons_append] at hread ⊢
  unfold value
  split
  · next heq => rcases hc with rfl | rfl <;> exact absurd (List.cons.inj heq).1 (by decide)
  · next heq => rcases hc with rfl | rfl <;> exact absurd (List.cons.inj heq).1 (by decide)
  · next heq =>
    obtain ⟨rfl, rfl⟩ := List.cons.inj heq
    rw [if_pos hc, hread]
    rfl
  · next heq => cases heq

/-! ## Lines -/

/-- A text is read as some assignments and sections, with any bound that its length allows. -/
def ReadsAs (cs : List Char) (as : List Assignment) (sections : List Section) : Prop :=
  ∀ bound, cs.length < bound → statements bound cs = some (as, sections)

theorem readsAs_nil : ReadsAs [] [] [] := by
  intro bound hbound
  obtain ⟨bound, rfl⟩ := Nat.exists_eq_succ_of_ne_zero (Nat.ne_of_gt hbound)
  rfl

/-- An empty line means nothing. -/
theorem ReadsAs.newline (h : ReadsAs cs as sections) : ReadsAs ('\n' :: cs) as sections := by
  intro bound hbound
  obtain ⟨bound, rfl⟩ := Nat.exists_eq_succ_of_ne_zero (Nat.ne_zero_of_lt hbound)
  rw [List.length_cons] at hbound
  rw [statements]
  exact h bound (by omega)

theorem assignment?_bare {v : Value} {item : List Char → Option (Value × List Char)} (hkey : IsBareKey key)
    (hfirst : skipBlanks vs = vs) (hitem : item vs = some (v, rest)) :
    assignment? item (key.toList ++ ([' ', '=', ' '] ++ vs)) = some (⟨[], key, v⟩, rest) := by
  have hequals : skipBlanks ([' ', '=', ' '] ++ vs) = '=' :: ' ' :: vs := rfl
  have hskip : skipBlanks (' ' :: vs) = vs := hfirst
  rw [assignment?, dottedKey?_bare hkey (by simp [isBare]) hequals (by decide)]
  simp only [Option.bind_eq_bind, Option.bind_some, hskip, hitem, Option.pure_def]

/-- A line with a bare key and a value. -/
theorem ReadsAs.assignment {v : Value} (h : ReadsAs cs as sections) (hkey : IsBareKey key)
    (hfirst : skipBlanks (vs ++ '\n' :: cs) = vs ++ '\n' :: cs)
    (hvalue : value (limit - 1) (vs ++ '\n' :: cs) = some (v, '\n' :: cs)) :
    ReadsAs (key.toList ++ ([' ', '=', ' '] ++ (vs ++ '\n' :: cs))) (⟨[], key, v⟩ :: as) sections := by
  intro bound hbound
  obtain ⟨bound, rfl⟩ := Nat.exists_eq_succ_of_ne_zero (Nat.ne_zero_of_lt hbound)
  have hassign := assignment?_bare hkey hfirst hvalue
  have hskip := skipBlanks_bare hkey ([' ', '=', ' '] ++ (vs ++ '\n' :: cs))
  have hrest : statements bound cs = some (as, sections) := h bound (by simp at hbound; omega)
  obtain ⟨c, t, hc, hbare⟩ := hkey.exists_cons
  -- a bare character is none of the signs that tell the other kinds of lines
  have hne (d : Char) (hd : isBare d = false) : c ≠ d := ne_of_isBare hbare hd
  rw [hc, List.cons_append] at hassign hskip ⊢
  rw [statements, hskip]
  have hline : lineEnd? ('\n' :: cs) = some cs := rfl
  simp only [hne '\n' (by decide), hne '\r' (by decide), hne '#' (by decide), hne '[' (by decide), or_self, if_false,
    hassign, Option.bind_eq_bind, Option.bind_some, hline, hrest, Option.pure_def]

/-- The header of the next table in an array. -/
theorem ReadsAs.element (h : ReadsAs cs as sections) (hkey : IsBareKey key) :
    ReadsAs (['[', '['] ++ (key.toList ++ ([']', ']', '\n'] ++ cs))) [] (⟨⟨[], key, true⟩, as⟩ :: sections) := by
  intro bound hbound
  obtain ⟨bound, rfl⟩ := Nat.exists_eq_succ_of_ne_zero (Nat.ne_zero_of_lt hbound)
  have hrest : statements bound cs = some (as, sections) := h bound (by simp at hbound; omega)
  have hskip : skipBlanks (['[', '['] ++ (key.toList ++ ([']', ']', '\n'] ++ cs))) =
      '[' :: '[' :: (key.toList ++ ([']', ']', '\n'] ++ cs)) := rfl
  have hclose : skipBlanks ([']', ']', '\n'] ++ cs) = ']' :: ']' :: '\n' :: cs := rfl
  have hheader : header? ('[' :: '[' :: (key.toList ++ ([']', ']', '\n'] ++ cs))) =
      some (⟨[], key, true⟩, '\n' :: cs) := by
    rw [header?, dottedKey?_bare hkey (by simp [isBare]) hclose (by decide)]
    rfl
  have hline : lineEnd? ('\n' :: cs) = some cs := rfl
  rw [statements, hskip]
  simp only [hheader, Option.bind_eq_bind, Option.bind_some, hline, hrest, Option.pure_def]
  rfl

end LibraryCatalog.Toml.Reader
