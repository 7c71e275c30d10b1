import LibraryCatalog.Proofs.Text.Casing
import LibraryCatalog.Proofs.Text.Division

/-!
# `LibraryCatalog.Proofs.Text.SmallLetters` — small letters stay as they are

What comes out of a capital is a letter with case that is its own small letter; the table of capitals is checked for
it once, row against row. Hence a text in small letters is left alone when it is put into small letters again, and a
character without case can only come from itself. The second fact is what makes a text fall into the same pieces
before and after.

## Contents
- **Table.** `CapitalRun.Clear`, a row whose small letters are no capitals, and `clear_of_mem`: every row is one.
- **Settled characters.** `Settled`, `small_eq_or_settled`, `lowercase_lowercase`.
- **Neutral characters.** What they come from: `CaseNeutral.eq_of_mem_lowerChar`, `CaseNeutral.count_lowerFrom`, and
  `exists_of_lowercase_eq` for a whole separator.
- **Pieces.** `Divided.lowercase`: the pieces of the small form are the small forms of the pieces, and so they stand in
  it (`Divided.lowercase_infix`).
-/

namespace LibraryCatalog.Text

/-! ## Table -/

namespace CapitalRun

/-- The small letter of the last capital. -/
def smallLast (r : CapitalRun) : Nat := r.small + (r.last - r.first)

/-- Whether the small letters of a run lie at even distances. -/
def even (r : CapitalRun) : Bool := r.step == 2 || r.first == r.last

/-- Whether no small letter of a run is a capital of a table in ascending order. The small letters stand outside each
run of the table, or between its capitals. -/
def avoids (r : CapitalRun) : List CapitalRun → Bool
  | [] => true
  | r' :: rs =>
    r.smallLast.blt r'.first ||
      (r'.last.blt r.small || r.even && r'.step == 2 && (r.small + r'.first) % 2 == 1) && r.avoids rs

/-- Whether all small letters of a run lie in one of the ranges of a table in ascending order. -/
def inside (r : CapitalRun) : List (Nat × Nat) → Bool
  | [] => false
  | (first, last) :: rs => first.ble r.small && (r.smallLast.ble last || r.inside rs)

/-- Whether the small letters of a run are characters, other than the capital whose small form is longer. -/
def valid (r : CapitalRun) : Bool :=
  (r.smallLast < 0x0130 || 0x0130 < r.small) &&
    (r.smallLast < 0xD800 || 0xDFFF < r.small && r.smallLast < 0x110000)

variable {r : CapitalRun} {n : Nat}

/-- The small letter of a capital comes no later than the last, and lies at an even distance if all do. -/
theorem le_smallLast (h : r.holds n = true) :
    r.small + (n - r.first) ≤ r.smallLast ∧ (r.even = true → (n - r.first) % 2 = 0) := by
  simp only [holds, even, Bool.and_eq_true, Bool.or_eq_true, decide_eq_true_eq, beq_iff_eq] at h ⊢
  obtain ⟨⟨hfirst, hlast⟩, hstep⟩ := h
  refine ⟨Nat.add_le_add_left (Nat.sub_le_sub_right hlast _) _, ?_⟩
  rintro (htwo | hone)
  · rwa [htwo] at hstep
  · omega

theorem smallCode_of_avoids (h : r.holds n = true) {rs : List CapitalRun} (havoids : r.avoids rs = true) :
    smallCode (r.small + (n - r.first)) rs = r.small + (n - r.first) := by
  obtain ⟨hle, heven⟩ := le_smallLast h
  induction rs with
  | nil => rfl
  | cons r' rs ih =>
    simp only [avoids, Bool.and_eq_true, Bool.or_eq_true, Nat.blt_eq, beq_iff_eq] at havoids
    rw [smallCode]
    by_cases hbefore : r.small + (n - r.first) < r'.first
    · exact if_pos hbefore
    · obtain hbeyond | ⟨hbetween, hrest⟩ := havoids
      · omega
      · have hmisses : ¬r'.holds (r.small + (n - r.first)) = true := by
          intro hholds
          simp only [holds, Bool.and_eq_true, decide_eq_true_eq, beq_iff_eq] at hholds
          obtain ⟨⟨-, hlast⟩, hstep⟩ := hholds
          obtain hbeyond | ⟨⟨hr, htwo⟩, hodd⟩ := hbetween
          · omega
          · -- an even distance from the one cannot be an even distance from the other
            have hdistance := heven hr
            rw [htwo] at hstep
            omega
        rw [if_neg hbefore, if_neg hmisses]
        exact ih hrest

theorem inRanges_of_inside (h : r.holds n = true) {rs : List (Nat × Nat)} (hinside : r.inside rs = true) :
    inRanges (r.small + (n - r.first)) rs = true := by
  obtain ⟨hle, -⟩ := le_smallLast h
  induction rs with
  | nil => cases hinside
  | cons range rs ih =>
    obtain ⟨first, last⟩ := range
    simp only [inside, Bool.and_eq_true, Bool.or_eq_true, Nat.ble_eq] at hinside
    obtain ⟨hfirst, hrest⟩ := hinside
    rw [inRanges, if_neg (by omega)]
    obtain hlast | hrest := hrest
    · rw [decide_eq_true (by omega : r.small + (n - r.first) ≤ last), Bool.true_or]
    · rw [ih hrest, Bool.or_true]

/-- A run that leads to letters with case that are no capitals themselves. -/
structure Clear (r : CapitalRun) : Prop where
  avoids : r.avoids capitalRuns = true
  inside : r.inside casedRanges = true
  valid : r.valid = true

/-- **Every row of the table is clear.** -/
theorem clear_of_mem (h : r ∈ capitalRuns) : r.Clear := by
  have hall : (capitalRuns.all fun r => r.avoids capitalRuns && r.inside casedRanges && r.valid) = true := by
    decide +kernel
  have hr := List.all_eq_true.mp hall r h
  rw [Bool.and_eq_true, Bool.and_eq_true] at hr
  exact ⟨hr.1.1, hr.1.2, hr.2⟩

end CapitalRun

/-- A code point stays, or it is the code point of a capital in some row. -/
theorem smallCode_eq_or (n : Nat) (rs : List CapitalRun) :
    smallCode n rs = n ∨ ∃ r ∈ rs, r.holds n = true ∧ smallCode n rs = r.small + (n - r.first) := by
  induction rs with
  | nil => exact .inl rfl
  | cons r rs ih =>
    rw [smallCode]
    by_cases hbefore : n < r.first
    · exact .inl (if_pos hbefore)
    · rw [if_neg hbefore]
      by_cases hholds : r.holds n = true
      · rw [if_pos hholds]
        exact .inr ⟨r, List.mem_cons_self, hholds, rfl⟩
      · rw [if_neg hholds]
        obtain hsame | ⟨r', hr', hcode⟩ := ih
        · exact .inl hsame
        · exact .inr ⟨r', List.mem_cons_of_mem r hr', hcode⟩

/-! ## Settled characters -/

variable {b : Bool} {c d : Char} {cs before after sep : List Char} {pieces : List (List Char)}

/-- A character that stays as it is, wherever it stands. -/
structure Settled (c : Char) : Prop where
  not_sigma : c ≠ 'Σ'
  not_dotted : c ≠ 'İ'
  small_eq : small c = c

instance (c : Char) : Decidable (Settled c) :=
  decidable_of_iff (c ≠ 'Σ' ∧ c ≠ 'İ' ∧ small c = c)
    ⟨fun h => ⟨h.1, h.2.1, h.2.2⟩, fun h => ⟨h.not_sigma, h.not_dotted, h.small_eq⟩⟩

theorem Settled.lowerChar_eq (h : Settled c) (before : Bool) (after : List Char) : lowerChar before c after = [c] := by
  rw [lowerChar, if_neg h.not_sigma, if_neg h.not_dotted, h.small_eq]

/-- **The small letter of a capital** has case and stays as it is. -/
theorem small_eq_or_settled (c : Char) : small c = c ∨ Settled (small c) ∧ isCased (small c) = true := by
  obtain hsame | ⟨r, hr, hholds, hcode⟩ := smallCode_eq_or c.toNat capitalRuns
  · left
    rw [small, hsame, Char.ofNat_toNat]
  · right
    have hclear := CapitalRun.clear_of_mem hr
    have hfixed := CapitalRun.smallCode_of_avoids hholds hclear.avoids
    have hcased := CapitalRun.inRanges_of_inside hholds hclear.inside
    have hvalid := hclear.valid
    obtain ⟨hle, -⟩ := CapitalRun.le_smallLast hholds
    simp only [CapitalRun.valid, Bool.and_eq_true, Bool.or_eq_true, decide_eq_true_eq] at hvalid
    obtain ⟨hdotted, hrange⟩ := hvalid
    rw [← hcode] at hfixed hcased
    have hvalid : (smallCode c.toNat capitalRuns).isValidChar := by
      rw [hcode, Nat.isValidChar]
      omega
    have hto : (small c).toNat = smallCode c.toNat capitalRuns := by
      rw [small, Char.ofNat, dif_pos hvalid]
      rfl
    have hsmall : small (small c) = small c := by
      rw [small, hto, hfixed, ← hto, Char.ofNat_toNat]
    refine ⟨⟨?_, ?_, hsmall⟩, ?_⟩
    · -- the capital sigma stands in the table and does not stay
      intro hsigma
      rw [hsigma] at hsmall
      exact absurd hsmall (by decide)
    · intro hcap
      rw [hcap] at hto
      have hcapital : ('İ' : Char).toNat = 0x0130 := rfl
      omega
    · rw [isCased, hto]
      exact hcased

/-- **What comes out of a character** is settled. -/
theorem settled_of_mem_lowerChar (h : d ∈ lowerChar b c after) : Settled d := by
  rw [lowerChar] at h
  by_cases hsigma : c = 'Σ'
  · rw [if_pos hsigma, List.mem_singleton] at h
    rw [h]
    split <;> decide
  · by_cases hdotted : c = 'İ'
    · rw [if_neg hsigma, if_pos hdotted, List.mem_cons, List.mem_singleton] at h
      rcases h with rfl | rfl <;> decide
    · rw [if_neg hsigma, if_neg hdotted, List.mem_singleton] at h
      rw [h]
      obtain hsame | ⟨hsettled, -⟩ := small_eq_or_settled c
      · rw [hsame]
        exact ⟨hsigma, hdotted, hsame⟩
      · exact hsettled

theorem settled_of_mem_lowerFrom (h : d ∈ lowerFrom b cs) : Settled d := by
  induction cs generalizing b with
  | nil => cases h
  | cons c cs ih =>
    rw [lowerFrom, List.mem_append] at h
    rcases h with h | h
    · exact settled_of_mem_lowerChar h
    · exact ih h

theorem lowerFrom_of_settled (h : ∀ c ∈ cs, Settled c) : lowerFrom b cs = cs := by
  induction cs generalizing b with
  | nil => rfl
  | cons c cs ih =>
    obtain ⟨hc, hcs⟩ := List.forall_mem_cons.mp h
    rw [lowerFrom, hc.lowerChar_eq, ih hcs]
    rfl

/-- **A text in small letters** stays as it is. -/
theorem lowercase_lowercase (cs : List Char) : lowercase (lowercase cs) = lowercase cs :=
  lowerFrom_of_settled fun _ => settled_of_mem_lowerFrom

/-! ## Neutral characters -/

/-- **A neutral character comes from itself alone.** -/
theorem CaseNeutral.eq_of_mem_lowerChar (h : CaseNeutral d) (hd : d ∈ lowerChar b c after) : c = d := by
  rw [lowerChar] at hd
  by_cases hsigma : c = 'Σ'
  · rw [if_pos hsigma, List.mem_singleton] at hd
    have hcased : isCased d = true := by
      rw [hd]
      split <;> decide
    rw [h.not_cased] at hcased
    cases hcased
  · by_cases hdotted : c = 'İ'
    · rw [if_neg hsigma, if_pos hdotted, List.mem_cons, List.mem_singleton] at hd
      rcases hd with rfl | rfl
      · exact absurd h.not_cased (by decide)
      · exact absurd h.not_ignorable (by decide)
    · rw [if_neg hsigma, if_neg hdotted, List.mem_singleton] at hd
      obtain hsame | ⟨-, hcased⟩ := small_eq_or_settled c
      · rw [hd, hsame]
      · rw [← hd, h.not_cased] at hcased
        cases hcased

/-- A neutral character occurs in the small form as often as in the text. -/
theorem CaseNeutral.count_lowerFrom (h : CaseNeutral d) (b : Bool) (cs : List Char) :
    (lowerFrom b cs).count d = cs.count d := by
  induction cs generalizing b with
  | nil => rfl
  | cons c cs ih =>
    rw [lowerFrom, List.count_append, ih]
    by_cases hc : c = d
    · rw [hc, h.lowerChar_eq, List.count_singleton_self, List.count_cons_self, Nat.add_comm]
    · have hnone : d ∉ lowerChar b c cs := fun hd => hc (h.eq_of_mem_lowerChar hd)
      rw [List.count_eq_zero_of_not_mem hnone, List.count_cons_of_ne hc, Nat.zero_add]

/-- A neutral character in the small form divides the text as well. -/
theorem CaseNeutral.exists_of_lowerFrom_eq (h : CaseNeutral d) (heq : lowerFrom b cs = before ++ d :: after) :
    ∃ cs₁ cs₂, cs = cs₁ ++ d :: cs₂ ∧ lowerFrom b cs₁ = before ∧ lowercase cs₂ = after := by
  induction cs generalizing b before with
  | nil => exact absurd heq.symm (by simp [lowerFrom])
  | cons c cs ih =>
    rw [lowerFrom, List.append_eq_append_iff] at heq
    obtain ⟨front, hbefore, hrest⟩ | ⟨back, hchar, hrest⟩ := heq
    · obtain ⟨cs₁, cs₂, rfl, rfl, rfl⟩ := ih hrest
      refine ⟨c :: cs₁, cs₂, rfl, ?_, rfl⟩
      rw [hbefore, lowerFrom, h.lowerChar_append_cons]
    · cases back with
      | nil =>
        rw [List.nil_append] at hrest
        obtain ⟨cs₁, cs₂, rfl, hcs₁, rfl⟩ := ih (show _ = [] ++ d :: after from hrest.symm)
        refine ⟨c :: cs₁, cs₂, rfl, ?_, rfl⟩
        rw [lowerFrom, hcs₁, List.append_nil, ← h.lowerChar_append_cons, hchar, List.append_nil]
      | cons d' back =>
        -- the neutral character is what came out of the first one, and so it is the first one
        obtain ⟨rfl, hafter⟩ := List.cons.inj hrest
        have hmem : d ∈ lowerChar b c cs := by
          rw [hchar]
          exact List.mem_append_right _ List.mem_cons_self
        obtain rfl := h.eq_of_mem_lowerChar hmem
        rw [h.lowerChar_eq, List.singleton_eq_append_iff] at hchar
        simp only [List.cons.injEq, reduceCtorEq, and_false, or_false, true_and] at hchar
        obtain ⟨rfl, rfl⟩ := hchar
        refine ⟨[], cs, rfl, rfl, ?_⟩
        rw [hafter, h.endsCased_eq]
        rfl

/-- Neutral characters at the front of the small form stand at the front of the text. -/
theorem exists_of_lowercase_eq_append (hsep : ∀ c ∈ sep, CaseNeutral c) (heq : lowercase cs = sep ++ after) :
    ∃ rest, cs = sep ++ rest ∧ lowercase rest = after := by
  induction sep generalizing cs with
  | nil => exact ⟨cs, rfl, heq⟩
  | cons c sep ih =>
    obtain ⟨hc, hsep⟩ := List.forall_mem_cons.mp hsep
    replace heq : lowercase cs = [] ++ c :: (sep ++ after) := heq
    obtain ⟨front, cs', rfl, hfront, hcs'⟩ := hc.exists_of_lowerFrom_eq heq
    obtain rfl := lowercase_eq_nil_iff.mp hfront
    obtain ⟨rest, rfl, hrest⟩ := ih hsep hcs'
    exact ⟨rest, rfl, hrest⟩

/-- **A separator of neutral characters** in the small form is a separator in the text. -/
theorem exists_of_lowercase_eq (hsep : ∀ c ∈ sep, CaseNeutral c) (hne : sep ≠ [])
    (heq : lowercase cs = before ++ sep ++ after) :
    ∃ cs₁ cs₂, cs = cs₁ ++ sep ++ cs₂ ∧ lowercase cs₁ = before ∧ lowercase cs₂ = after := by
  obtain ⟨c, sep, rfl⟩ := List.exists_cons_of_ne_nil hne
  obtain ⟨hc, hsep⟩ := List.forall_mem_cons.mp hsep
  rw [List.append_assoc, List.cons_append] at heq
  obtain ⟨cs₁, cs', rfl, hcs₁, hcs'⟩ := hc.exists_of_lowerFrom_eq heq
  obtain ⟨cs₂, rfl, hcs₂⟩ := exists_of_lowercase_eq_append hsep hcs'
  exact ⟨cs₁, cs₂, by rw [List.append_assoc, List.cons_append], hcs₁, hcs₂⟩

/-! ## Pieces -/

/-- A text that reaches at least as far as a piece before a separator has a small form that reaches at least as far as
that of the piece. -/
theorem length_lowercase_le {piece rest : List Char} (hsep : ∀ c ∈ sep, CaseNeutral c) (hne : sep ≠ [])
    (heq : piece ++ sep ++ rest = cs ++ after) (hlen : piece.length ≤ cs.length) :
    (lowercase piece).length ≤ (lowercase cs).length := by
  obtain ⟨c, sep, rfl⟩ := List.exists_cons_of_ne_nil hne
  obtain ⟨hc, -⟩ := List.forall_mem_cons.mp hsep
  rw [List.append_assoc] at heq
  have hprefix : piece <+: cs :=
    List.prefix_of_prefix_length_le ⟨_, heq⟩ (List.prefix_append cs after) hlen
  obtain ⟨tail, rfl⟩ := hprefix
  rw [List.append_assoc, List.append_cancel_left_eq] at heq
  cases tail with
  | nil => simp
  | cons d tail =>
    -- the first character beyond the piece is neutral, and so the small form goes on after that of the piece
    obtain ⟨rfl, -⟩ := List.cons.inj heq
    show (lowercase piece).length ≤ (lowerFrom false (piece ++ c :: tail)).length
    rw [hc.lowerFrom_append_cons, List.length_append]
    exact Nat.le_add_right _ _

/-- **The pieces of the small form** are the small forms of the pieces. -/
theorem Divided.lowercase (h : Divided sep cs pieces) (hsep : ∀ c ∈ sep, CaseNeutral c) (hne : sep ≠ []) :
    Divided sep (Text.lowercase cs) (pieces.map Text.lowercase) := by
  induction h with
  | last hnone =>
    refine .last ?_
    rintro ⟨before, after, heq⟩
    obtain ⟨cs₁, cs₂, rfl, -, -⟩ := exists_of_lowercase_eq hsep hne heq.symm
    exact hnone ⟨cs₁, cs₂, rfl⟩
  | @cut piece rest pieces hfirst _ ih =>
    rw [lowercase_append_sep hsep hne, List.map_cons]
    refine .cut ?_ ih
    intro before after heq
    rw [← lowercase_append_sep hsep hne] at heq
    obtain ⟨cs₁, cs₂, htext, rfl, -⟩ := exists_of_lowercase_eq hsep hne heq
    have hlen := hfirst cs₁ cs₂ htext
    rw [List.append_assoc cs₁] at htext
    exact length_lowercase_le hsep hne htext hlen

/-- The small form of a piece stands in the small form of the text that was divided. -/
theorem Divided.lowercase_infix (h : Divided sep cs pieces) (hsep : ∀ c ∈ sep, CaseNeutral c) (hne : sep ≠ []) :
    ∀ piece ∈ pieces, Text.lowercase piece <:+: Text.lowercase cs :=
  fun _ hpiece => (h.lowercase hsep hne).infix_of_mem _ (List.mem_map_of_mem hpiece)

end LibraryCatalog.Text
