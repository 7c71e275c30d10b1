import Mathlib.Tactic.SplitIfs
import LibraryCatalog.Proofs.Text.Division
import LibraryCatalog.Toml.Quoted

/-!
# `LibraryCatalog.Proofs.Toml.Quoted` — every written string is read back

The style of a string is chosen so that nothing needs an escape, if there is such a style. Double quotes can hold any
text at all, single quotes only what the choice has checked before. Quotes within three quotes are the one thing
where a reader looks ahead: it tells the end by the length of the run, which the writer keeps below three.

## Contents
- **Runs.** `longestRunFrom`, and `closing?_append` for the end of a string between three quotes.
- **Escapes.** `CharText`, how a character stands between double quotes; `charText_escapeChar`.
- **Styles.** `basic_escapeLine`, `literal_append`, `multiBasic_escapeLines`, `multiLiteral_append`.
- **Strings.** `string?_quote`.
-/

namespace LibraryCatalog.Toml

open Text

variable {q c : Char} {cs ds rest : List Char} {run : Nat}

/-! ## Runs -/

theorem le_longestRunFrom (q : Char) (run : Nat) (cs : List Char) : run ≤ longestRunFrom q run cs := by
  induction cs generalizing run with
  | nil => exact Nat.le_refl run
  | cons c cs ih =>
    rw [longestRunFrom]
    split
    · exact Nat.le_trans (Nat.le_succ run) (ih (run + 1))
    · exact Nat.le_max_left _ _

/-- Quotes before a text make its longest run longer, if they change it. -/
theorem longestRunFrom_mono (q : Char) (cs : List Char) {run run' : Nat} (h : run ≤ run') :
    longestRunFrom q run cs ≤ longestRunFrom q run' cs := by
  induction cs generalizing run run' with
  | nil => exact h
  | cons c cs ih =>
    rw [longestRunFrom, longestRunFrom]
    split
    · exact ih (Nat.succ_le_succ h)
    · omega

/-- No run is longer in the rest of a text. -/
theorem longestRun_tail (q c : Char) (cs : List Char) : longestRun q cs ≤ longestRun q (c :: cs) := by
  rw [longestRun, longestRun, longestRunFrom]
  split
  · exact longestRunFrom_mono q cs (Nat.zero_le _)
  · exact Nat.le_max_right _ _

theorem not_mem_of_longestRun (h : longestRun q cs = 0) : q ∉ cs := by
  induction cs with
  | nil => exact List.not_mem_nil
  | cons c cs ih =>
    have htail := longestRun_tail q c cs
    rw [List.mem_cons, not_or]
    constructor
    · rintro rfl
      have hone := le_longestRunFrom q (0 + 1) cs
      rw [longestRun, longestRunFrom, if_pos rfl] at h
      omega
    · exact ih (by omega)

/-- The run at the front of a text is no longer than its longest one. -/
theorem length_takeWhile_le (q : Char) (run : Nat) (cs : List Char) :
    run + (cs.takeWhile (· == q)).length ≤ longestRunFrom q run cs := by
  induction cs generalizing run with
  | nil => exact Nat.le_refl run
  | cons c cs ih =>
    rw [longestRunFrom, List.takeWhile_cons]
    by_cases hc : c = q
    · have hrest := ih (run + 1)
      rw [if_pos hc, if_pos (beq_iff_eq.mpr hc), List.length_cons]
      omega
    · rw [if_neg hc, if_neg (fun h => hc (beq_iff_eq.mp h))]
      exact Nat.le_max_left _ _

/-- **Three quotes end a string** only where nothing but quotes stands before them. -/
theorem closing?_append (hfront : (cs.takeWhile (· == q)).length ≤ 2) (hrest : rest.head? ≠ some q) :
    closing? q (cs ++ ([q, q, q] ++ rest)) = if cs.all (· == q) then some (cs, rest) else none := by
  have hlast : ∀ c ∈ rest.head?, (c == q) = false := by
    intro c hc
    rw [beq_eq_false_iff_ne]
    rintro rfl
    exact hrest hc
  -- the run that is counted goes on into the closing quotes exactly if nothing else stands before them
  by_cases hall : cs.all (· == q) = true
  · have hmem := List.all_eq_true.mp hall
    have hquotes : ([q, q, q] ++ rest).takeWhile (· == q) = [q, q, q] := takeWhile_append_of_head (by simp) hlast
    have hrun : (cs ++ ([q, q, q] ++ rest)).takeWhile (· == q) = cs ++ [q, q, q] := by
      rw [List.takeWhile_append_of_pos hmem, hquotes]
    rw [← List.append_nil cs, takeWhile_append_of_head hmem (by simp)] at hfront
    have hlength : (cs ++ [q, q, q]).length = cs.length + 3 := List.length_append
    have hinside : min (cs.length + 3 - 3) 2 = cs.length := by omega
    rw [closing?, hrun, if_pos hall, hlength]
    simp only [if_neg (Nat.not_lt.mpr (Nat.le_add_left 3 cs.length)), hinside]
    rw [← List.append_assoc, List.drop_left' hlength,
      ← List.eq_replicate_of_mem fun c hc => beq_iff_eq.mp (hmem c hc)]
  · have hcs : (cs.takeWhile (· == q)).length ≠ cs.length := by
      intro heq
      refine hall ?_
      rw [← (List.takeWhile_prefix (· == q)).eq_of_length heq]
      exact List.all_takeWhile
    have hrun : (cs ++ ([q, q, q] ++ rest)).takeWhile (· == q) = cs.takeWhile (· == q) := by
      rw [List.takeWhile_append, if_neg hcs]
    rw [closing?, hrun, if_neg hall]
    simp only [if_pos (Nat.lt_succ_of_le hfront)]

/-! ## Escapes -/

/-- How a character stands between double quotes: as itself, or as an escape that leads to it. -/
inductive CharText (c : Char) : List Char → Prop where
  | plain : c ≠ '"' → c ≠ '\\' → isPlain c = true → CharText c [c]
  | escape {es : List Char} : (∀ rest, escape? (es ++ rest) = some (c, es.length)) →
      (∀ rest, gap (es ++ rest) = (0, false)) → CharText c ('\\' :: es)

/-- The text of a character starts with neither a quote nor a line end. -/
theorem CharText.exists_cons (h : CharText c ds) : ∃ d t, ds = d :: t ∧ d ≠ '"' ∧ d ≠ '\n' ∧ d ≠ '\r' := by
  cases h with
  | plain hquote _ hplain =>
    refine ⟨c, [], rfl, hquote, ?_, ?_⟩ <;> rintro rfl <;> exact absurd hplain (by decide)
  | escape _ _ => exact ⟨'\\', _, rfl, by decide, by decide, by decide⟩

theorem hexDigit?_toUpper_digitChar {d : Nat} (h : d < 16) : hexDigit? (Nat.digitChar d).toUpper = some d := by
  revert d
  decide

/-- Digits in capital letters stand for the same number. -/
theorem scalar?_hex4 {n : Nat} (h : n < 0xD800) (rest : List Char) :
    scalar? 4 ((hex4 n).map Char.toUpper ++ rest) = some (Char.ofNat n) := by
  have hread : hex? ((hex4 n).map Char.toUpper) = some n := by
    simp only [hex?, hex4, List.map_cons, List.map_nil, List.foldlM_cons, List.foldlM_nil,
      hexDigit?_toUpper_digitChar (Nat.mod_lt _ (by omega)), Option.map_some, Option.bind_eq_bind,
      Option.bind_some, Option.pure_def, Option.some.injEq]
    omega
  have htake : ((hex4 n).map Char.toUpper ++ rest).take 4 = (hex4 n).map Char.toUpper := List.take_left' rfl
  rw [scalar?, htake]
  simp only [hread, Option.bind_some, if_pos (Or.inl h)]
  rfl

theorem charText_code {n : Nat} (h : n < 0xD800) :
    CharText (Char.ofNat n) ('\\' :: 'u' :: (hex4 n).map Char.toUpper) := by
  refine .escape (fun rest => ?_) (fun rest => rfl)
  rw [List.cons_append]
  simp only [escape?, scalar?_hex4 h rest, Option.map_some]
  rfl

/-- A control character that has no escape of its own is below the surrogates. -/
theorem lt_of_control (h : (c < ' ' || c == '\x7f') = true) : c.toNat < 0xD800 := by
  rw [Bool.or_eq_true, decide_eq_true_eq, beq_iff_eq] at h
  rcases h with h | rfl
  · have hlt : c.toNat < 32 := h
    omega
  · decide

theorem isPlain_of_not_control (h : ¬(c < ' ' || c == '\x7f') = true) : isPlain c = true := by
  rw [Bool.or_eq_true, decide_eq_true_eq, beq_iff_eq, not_or] at h
  rw [isPlain, Bool.or_eq_true, Bool.and_eq_true, decide_eq_true_eq, bne_iff_ne]
  exact .inr ⟨Char.not_lt.mp h.1, h.2⟩

/-- **A character is written as one of its texts.** -/
theorem charText_escapeChar (hquote : c ≠ '"') : CharText c (escapeChar c) := by
  unfold escapeChar
  split_ifs with hbackslash hb ht hf hr hcontrol
  · rw [hbackslash]
    exact .escape (fun _ => rfl) (fun _ => rfl)
  · rw [hb]
    exact .escape (fun _ => rfl) (fun _ => rfl)
  · rw [ht]
    exact .escape (fun _ => rfl) (fun _ => rfl)
  · rw [hf]
    exact .escape (fun _ => rfl) (fun _ => rfl)
  · rw [hr]
    exact .escape (fun _ => rfl) (fun _ => rfl)
  · have htext := charText_code (lt_of_control hcontrol)
    rwa [Char.ofNat_toNat] at htext
  · exact .plain hquote hbackslash (isPlain_of_not_control hcontrol)

/-! ## One line -/

theorem basic_skip (es rest : List Char) : basic es.length (es ++ rest) = basic 0 rest := by
  induction es with
  | nil => rfl
  | cons e es ih => rw [List.length_cons, List.cons_append, basic, ih]

theorem basic_charText (h : CharText c ds) (rest : List Char) :
    basic 0 (ds ++ rest) = (basic 0 rest).map fun (text, rest) => (c :: text, rest) := by
  cases h with
  | plain hquote hbackslash hplain =>
    rw [List.singleton_append, basic, if_neg hquote, if_neg hbackslash, if_pos hplain]
  | @escape es hes _ =>
    rw [List.cons_append, basic, if_neg (by decide), if_pos rfl, hes rest]
    simp only [Option.bind_eq_bind, Option.bind_some, basic_skip, Option.pure_def, Option.map_eq_bind]
    rfl

/-- On one line every character has a text, quotes and line feeds included. -/
theorem charText_escapeLine (c : Char) :
    CharText c (if c = '"' then ['\\', '"'] else if c = '\n' then ['\\', 'n'] else escapeChar c) := by
  split_ifs with hquote hnewline
  · rw [hquote]
    exact .escape (fun _ => rfl) (fun _ => rfl)
  · rw [hnewline]
    exact .escape (fun _ => rfl) (fun _ => rfl)
  · exact charText_escapeChar hquote

/-- **Any text between double quotes is read back.** -/
theorem basic_escapeLine (cs rest : List Char) : basic 0 (escapeLine cs ++ '"' :: rest) = some (cs, rest) := by
  induction cs with
  | nil => rfl
  | cons c cs ih =>
    rw [escapeLine] at ih ⊢
    rw [List.flatMap_cons, List.append_assoc, basic_charText (charText_escapeLine c), ih, Option.map_some]

/-- A text on one line without single quotes is read back between them. -/
theorem literal_append (hquote : apostrophe ∉ cs) (hplain : ∀ c ∈ cs, isPlain c = true) (rest : List Char) :
    literal (cs ++ apostrophe :: rest) = some (cs, rest) := by
  induction cs with
  | nil => rfl
  | cons c cs ih =>
    have hc : c ≠ apostrophe := fun h => hquote (h ▸ List.mem_cons_self)
    have hrest := ih (fun h => hquote (List.mem_cons_of_mem c h)) fun d hd => hplain d (List.mem_cons_of_mem c hd)
    rw [List.cons_append, literal, if_neg hc, if_pos (hplain c List.mem_cons_self), hrest, Option.map_some]

/-! ## Several lines -/

theorem multiBasic_skip (es rest : List Char) : multiBasic es.length (es ++ rest) = multiBasic 0 rest := by
  induction es with
  | nil => rfl
  | cons e es ih => rw [List.length_cons, List.cons_append, multiBasic, ih]

theorem multiBasic_charText (h : CharText c ds) (rest : List Char) :
    multiBasic 0 (ds ++ rest) = (multiBasic 0 rest).map fun (text, rest) => (c :: text, rest) := by
  cases h with
  | plain hquote hbackslash hplain =>
    rw [List.singleton_append, multiBasic, if_neg hquote, if_neg hbackslash, if_pos (by rw [hplain]; rfl)]
  | @escape es hes hgap =>
    rw [List.cons_append, multiBasic, if_neg (by decide), if_pos rfl, hgap rest, hes rest]
    simp only [Option.bind_eq_bind, Option.bind_some, multiBasic_skip, Option.pure_def, Option.map_eq_bind]
    rfl

/-- The quotes at the front of a written text and those before it are no more than two. -/
theorem length_takeWhile_escapeLines (cs : List Char) (hrun : run ≤ 2) :
    ((escapeLines run cs).takeWhile (· == '"')).length + run ≤ 2 := by
  induction cs generalizing run with
  | nil => exact (Nat.zero_add run).symm ▸ hrun
  | cons c cs ih =>
    rw [escapeLines]
    split_ifs with hquote hfull hnewline
    · exact (Nat.zero_add run).symm ▸ hrun
    · have hrest := @ih (run + 1) (by omega)
      rw [List.takeWhile_cons, if_pos (by decide), List.length_cons]
      omega
    · exact (Nat.zero_add run).symm ▸ hrun
    · obtain ⟨d, t, htext, hd, -⟩ := (charText_escapeChar hquote).exists_cons
      rw [htext, List.cons_append, List.takeWhile_cons, if_neg (by rwa [beq_iff_eq])]
      exact (Nat.zero_add run).symm ▸ hrun

/-- A text that is written as quotes consists of these. -/
theorem escapeLines_of_all (h : (escapeLines run cs).all (· == '"') = true) : escapeLines run cs = cs := by
  induction cs generalizing run with
  | nil => rfl
  | cons c cs ih =>
    rw [escapeLines] at h ⊢
    split_ifs at h ⊢ with hquote hfull hnewline
    · exact absurd h (by simp)
    · rw [List.all_cons, Bool.and_eq_true] at h
      rw [ih h.2, hquote]
    · exact absurd h (by simp)
    · obtain ⟨d, t, htext, hd, -⟩ := (charText_escapeChar hquote).exists_cons
      rw [htext, List.cons_append, List.all_cons, Bool.and_eq_true, beq_iff_eq] at h
      exact absurd h.1 hd

/-- **Any text between three double quotes is read back**, unless a fourth quote follows. -/
theorem multiBasic_escapeLines (cs : List Char) (hrun : run ≤ 2) (hrest : rest.head? ≠ some '"') :
    multiBasic 0 (escapeLines run cs ++ (['"', '"', '"'] ++ rest)) = some (cs, rest) := by
  induction cs generalizing run with
  | nil =>
    have hclosing := @closing?_append '"' [] rest (Nat.zero_le 2) hrest
    simp only [escapeLines, List.nil_append, List.cons_append] at hclosing ⊢
    rw [multiBasic, if_pos rfl, hclosing]
    rfl
  | cons c cs ih =>
    by_cases hquote : c = '"'
    · subst hquote
      by_cases hfull : run = 2
      · have htext : CharText '"' ['\\', '"'] := .escape (fun _ => rfl) (fun _ => rfl)
        have hread := multiBasic_charText htext (escapeLines 0 cs ++ (['"', '"', '"'] ++ rest))
        rw [ih (Nat.zero_le 2), Option.map_some] at hread
        rw [escapeLines, if_pos rfl, if_pos hfull]
        exact hread
      · have hfront := length_takeWhile_escapeLines ('"' :: cs) hrun
        have hclosing := closing?_append (Nat.le_trans (Nat.le_add_right _ run) hfront) hrest
        have hall := @escapeLines_of_all ('"' :: cs) run
        rw [escapeLines, if_pos rfl, if_neg hfull] at hclosing hall ⊢
        rw [List.cons_append] at hclosing ⊢
        rw [multiBasic, if_pos rfl, hclosing, ih (by omega)]
        -- the reader ends the string at this quote exactly if only quotes follow
        split
        · next h => rw [Option.some_or, hall h]
        · rfl
    · by_cases hnewline : c = '\n'
      · subst hnewline
        rw [escapeLines, if_neg hquote, if_pos rfl, List.cons_append, multiBasic, if_neg hquote,
          if_neg (by decide), if_pos (by decide), ih (Nat.zero_le 2), Option.map_some]
      · rw [escapeLines, if_neg hquote, if_neg hnewline, List.append_assoc,
          multiBasic_charText (charText_escapeChar hquote), ih (Nat.zero_le 2), Option.map_some]

/-- A text without long runs of single quotes is read back between three of them. -/
theorem multiLiteral_append (hlines : ∀ c ∈ cs, isPlain c = true ∨ c = '\n') (hshort : longestRun apostrophe cs ≤ 2)
    (hrest : rest.head? ≠ some apostrophe) :
    multiLiteral (cs ++ ([apostrophe, apostrophe, apostrophe] ++ rest)) = some (cs, rest) := by
  induction cs with
  | nil =>
    have hclosing := @closing?_append apostrophe [] rest (Nat.zero_le 2) hrest
    simp only [List.nil_append, List.cons_append] at hclosing ⊢
    rw [multiLiteral, if_pos rfl, hclosing]
    rfl
  | cons c cs ih =>
    have htail := ih (fun d hd => hlines d (List.mem_cons_of_mem c hd))
      (Nat.le_trans (longestRun_tail apostrophe c cs) hshort)
    by_cases hquote : c = apostrophe
    · have hfront := length_takeWhile_le apostrophe 0 (c :: cs)
      rw [Nat.zero_add] at hfront
      have hclosing := closing?_append (Nat.le_trans hfront hshort) hrest
      rw [List.cons_append] at hclosing ⊢
      rw [multiLiteral, if_pos hquote, hclosing, htail]
      split <;> rfl
    · have hline : (isPlain c || c == '\n') = true := by
        rw [Bool.or_eq_true, beq_iff_eq]
        exact hlines c List.mem_cons_self
      rw [List.cons_append, multiLiteral, if_neg hquote, if_pos hline, htail, Option.map_some]

/-! ## Strings -/

theorem dropNewline_of_head (h : ∀ c ∈ cs.head?, c ≠ '\n' ∧ c ≠ '\r') : dropNewline cs = cs := by
  unfold dropNewline
  split
  · exact absurd rfl (h '\n' rfl).1
  · exact absurd rfl (h '\r' rfl).2
  · rfl

/-- The line feed after three opening quotes is dropped, and nothing else is. -/
theorem dropNewline_opening (h : '\n' ∉ cs → ∀ c ∈ ds.head?, c ≠ '\n' ∧ c ≠ '\r') :
    dropNewline (opening cs ++ ds) = ds := by
  unfold opening
  by_cases hlines : '\n' ∈ cs
  · rw [if_pos (List.contains_iff_mem.mpr hlines)]
    rfl
  · rw [if_neg (fun hc => hlines (List.contains_iff_mem.mp hc)), List.nil_append, dropNewline_of_head (h hlines)]

/-- What a text between three double quotes starts with, if it has no lines. -/
theorem head?_escapeLines (hlines : '\n' ∉ cs) :
    ∀ c ∈ (escapeLines 0 cs ++ '"' :: ds).head?, c ≠ '\n' ∧ c ≠ '\r' := by
  cases cs with
  | nil =>
    rintro _ ⟨⟩
    decide
  | cons c cs =>
    have hnewline : c ≠ '\n' := fun h => hlines (h ▸ List.mem_cons_self)
    rw [escapeLines]
    split_ifs with hquote hfull
    · exact absurd hfull (by decide)
    · rintro _ ⟨⟩
      decide
    · obtain ⟨d, t, htext, -, hd⟩ := (charText_escapeChar hquote).exists_cons
      rw [htext]
      rintro _ ⟨⟩
      exact hd

/-- What may follow a string: anything but another quote. -/
def EndsString (rest : List Char) : Prop := ∀ c ∈ rest.head?, c ≠ '"' ∧ c ≠ apostrophe

theorem string?_double_cons (h : ¬['"', '"'] <+: cs) : string? ('"' :: cs) = basic 0 cs := by
  have hthree : ¬['"', '"', '"'].isPrefixOf ('"' :: cs) = true := by
    rw [List.isPrefixOf_iff_prefix, List.cons_prefix_cons]
    exact fun hp => h hp.2
  have hsingle : ¬[apostrophe, apostrophe, apostrophe].isPrefixOf ('"' :: cs) = true := by
    rw [List.isPrefixOf_iff_prefix, List.cons_prefix_cons]
    exact fun hp => absurd hp.1 (by decide)
  unfold string?
  simp only [if_neg hthree, if_neg hsingle, if_true]

theorem string?_single_cons (h : ¬[apostrophe, apostrophe] <+: cs) : string? (apostrophe :: cs) = literal cs := by
  have hdouble : ¬['"', '"', '"'].isPrefixOf (apostrophe :: cs) = true := by
    rw [List.isPrefixOf_iff_prefix, List.cons_prefix_cons]
    exact fun hp => absurd hp.1 (by decide)
  have hthree : ¬[apostrophe, apostrophe, apostrophe].isPrefixOf (apostrophe :: cs) = true := by
    rw [List.isPrefixOf_iff_prefix, List.cons_prefix_cons]
    exact fun hp => h hp.2
  have hquote : apostrophe ≠ '"' := by decide
  unfold string?
  simp only [if_neg hdouble, if_neg hthree, if_neg hquote, if_true]

theorem string?_basic (cs : List Char) (hrest : EndsString rest) :
    string? (quoteAs .basic cs ++ rest) = some (cs, rest) := by
  have htwo : ¬['"', '"'] <+: escapeLine cs ++ '"' :: rest := by
    cases cs with
    | nil =>
      rw [escapeLine, List.flatMap_nil, List.nil_append, List.cons_prefix_cons]
      rintro ⟨-, t, rfl⟩
      exact (hrest '"' rfl).1 rfl
    | cons c cs =>
      obtain ⟨d, t, htext, hd, -⟩ := (charText_escapeLine c).exists_cons
      rw [escapeLine, List.flatMap_cons, htext, List.cons_append, List.cons_append, List.cons_prefix_cons]
      exact fun hp => hd hp.1.symm
  rw [quoteAs, List.cons_append, List.cons_append, List.append_assoc, List.singleton_append,
    string?_double_cons htwo]
  exact basic_escapeLine cs rest

theorem string?_literal (hquote : apostrophe ∉ cs) (hplain : ∀ c ∈ cs, isPlain c = true) (hrest : EndsString rest) :
    string? (quoteAs .literal cs ++ rest) = some (cs, rest) := by
  have htwo : ¬[apostrophe, apostrophe] <+: cs ++ apostrophe :: rest := by
    cases cs with
    | nil =>
      rw [List.nil_append, List.cons_prefix_cons]
      rintro ⟨-, t, rfl⟩
      exact (hrest apostrophe rfl).2 rfl
    | cons c cs =>
      rw [List.cons_append, List.cons_prefix_cons]
      exact fun hp => hquote (hp.1 ▸ List.mem_cons_self)
  rw [quoteAs, List.cons_append, List.cons_append, List.append_assoc, List.singleton_append,
    string?_single_cons htwo]
  exact literal_append hquote hplain rest

theorem string?_multiBasic (cs : List Char) (hrest : EndsString rest) :
    string? (quoteAs .multiBasic cs ++ rest) = some (cs, rest) := by
  have hfourth : rest.head? ≠ some '"' := fun h => (hrest '"' h).1 rfl
  have hdrop := @dropNewline_opening cs (escapeLines 0 cs ++ (['"', '"', '"'] ++ rest)) head?_escapeLines
  have hthree (ds : List Char) : string? (['"', '"', '"'] ++ ds) = multiBasic 0 (dropNewline ds) := rfl
  rw [quoteAs, List.append_assoc, List.append_assoc, List.append_assoc, hthree, hdrop,
    multiBasic_escapeLines cs (Nat.zero_le 2) hfourth]

theorem string?_multiLiteral (hlines : ∀ c ∈ cs, isPlain c = true ∨ c = '\n')
    (hshort : longestRun apostrophe cs ≤ 2) (hrest : EndsString rest) :
    string? (quoteAs .multiLiteral cs ++ rest) = some (cs, rest) := by
  have hfourth : rest.head? ≠ some apostrophe := fun h => (hrest apostrophe h).2 rfl
  have hhead : '\n' ∉ cs → ∀ c ∈ (cs ++ ([apostrophe, apostrophe, apostrophe] ++ rest)).head?, c ≠ '\n' ∧ c ≠ '\r' := by
    intro hnewline
    cases cs with
    | nil =>
      rintro _ ⟨⟩
      decide
    | cons c cs =>
      rintro _ ⟨⟩
      refine ⟨fun h => hnewline (h ▸ List.mem_cons_self), ?_⟩
      rintro rfl
      exact absurd (hlines '\r' List.mem_cons_self) (by decide)
  have hthree (ds : List Char) :
      string? ([apostrophe, apostrophe, apostrophe] ++ ds) = multiLiteral (dropNewline ds) := rfl
  rw [quoteAs, List.append_assoc, List.append_assoc, List.append_assoc, hthree, dropNewline_opening hhead,
    multiLiteral_append hlines hshort hfourth]

theorem plain_of_not_needsEscape (h : needsEscape c = false) : isPlain c = true ∨ c = '\n' := by
  by_cases htab : c = '\t'
  · exact .inl (by rw [htab]; decide)
  by_cases hnewline : c = '\n'
  · exact .inr hnewline
  refine .inl (isPlain_of_not_control fun hcontrol => ?_)
  rw [needsEscape, bne_iff_ne.mpr htab, bne_iff_ne.mpr hnewline, Bool.and_true, Bool.and_true, hcontrol] at h
  cases h

/-- **Every written string is read back**, if no quote follows it. -/
theorem string?_quote (cs : List Char) (hrest : EndsString rest) : string? (quote cs ++ rest) = some (cs, rest) := by
  have hlines (hcontrol : (!cs.any needsEscape) = true) : ∀ c ∈ cs, isPlain c = true ∨ c = '\n' := by
    rw [Bool.not_eq_true', List.any_eq_false] at hcontrol
    exact fun c hc => plain_of_not_needsEscape (Bool.eq_false_iff.mpr (hcontrol c hc))
  simp only [quote, style, Bool.and_eq_true]
  split_ifs with hbasic hliteral hmultiBasic hmultiLiteral hnewline
  · exact string?_basic cs hrest
  · obtain ⟨⟨hcontrol, hsingle⟩, hnewline⟩ := hliteral
    refine string?_literal (not_mem_of_longestRun (beq_iff_eq.mp hsingle)) (fun c hc => ?_) hrest
    refine (hlines hcontrol c hc).resolve_right ?_
    rintro rfl
    rw [Bool.not_eq_true', List.contains_iff_mem.mpr hc] at hnewline
    cases hnewline
  · exact string?_multiBasic cs hrest
  · exact string?_multiLiteral (hlines hmultiLiteral.1) (of_decide_eq_true hmultiLiteral.2) hrest
  · exact string?_multiBasic cs hrest
  · exact string?_basic cs hrest

end LibraryCatalog.Toml
