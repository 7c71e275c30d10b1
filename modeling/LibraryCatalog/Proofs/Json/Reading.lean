import LibraryCatalog.Proofs.Json.Grammar
import LibraryCatalog.Proofs.Text.Division

/-!
# `LibraryCatalog.Proofs.Json.Reading` — every text of a tree is read as that tree

Each reader takes the text of its token from the front and leaves what follows, whatever that is, as long as it
could not belong to the token. Only numbers could go on: no other token ends without a sign of its own.

## Contents
- **Tokens.** `skipBlanks_append`, `pieces_append`, `number_append`; `EndsNumber`, what may follow a number.
- **Values.** `value_of_written` with the readers of elements and members, by induction on the text.
- **Documents.** `ofChars?_of_written`.
-/

namespace LibraryCatalog.Json

open Text

variable {ws ds fs es cs rest : List Char}

namespace Reader

/-! ## Tokens -/

theorem skipBlanks_append (hws : Blanks ws) (cs : List Char) : skipBlanks (ws ++ cs) = skipBlanks cs :=
  List.dropWhile_append_of_pos hws

theorem skipBlanks_cons {c : Char} (hc : isBlank c = false) (cs : List Char) :
    skipBlanks (c :: cs) = c :: cs := by
  rw [skipBlanks, List.dropWhile_cons, hc]
  rfl

/-- A text that starts with digits starts with one of them. -/
theorem isDigit_of_append_eq {c : Char} (hds : IsDigits ds) (h : ds ++ rest = c :: cs) : c.isDigit = true := by
  obtain ⟨d, ds', rfl⟩ := List.exists_cons_of_ne_nil hds.1
  rw [← (List.cons.inj h).1]
  exact hds.2 d List.mem_cons_self

/-- A text does not start with a digit. -/
def EndsDigits (rest : List Char) : Prop := ∀ c ∈ rest.head?, c.isDigit = false

/-- A text does not go on with a number that ends before it. -/
def EndsNumber (rest : List Char) : Prop :=
  ∀ c ∈ rest.head?, c.isDigit = false ∧ c ≠ '.' ∧ c ≠ 'e' ∧ c ≠ 'E'

theorem EndsNumber.endsDigits (h : EndsNumber rest) : EndsDigits rest := fun c hc => (h c hc).1

theorem digits_append (hds : IsDigits ds) (hrest : EndsDigits rest) :
    digits (ds ++ rest) = some (ds, rest) := by
  simp only [digits, takeWhile_append_of_head hds.2 hrest, dropWhile_append_of_head hds.2 hrest, List.isEmpty_iff,
    hds.1, if_false]

theorem whole_append (hds : IsWhole ds) (hrest : EndsDigits rest) : whole (ds ++ rest) = some (ds, rest) := by
  rw [whole, digits_append hds.isDigits hrest, Option.filter_some, if_pos]
  rw [Bool.or_eq_true, beq_iff_eq, bne_iff_ne]
  exact hds.no_leading_zero

theorem fraction_append (hfs : IsFraction fs) (hrest : EndsDigits rest) (hpoint : rest.head? ≠ some '.') :
    fraction (fs ++ rest) = some (fs, rest) := by
  cases hfs with
  | none =>
    rw [List.nil_append]
    unfold fraction
    split
    · exact absurd rfl hpoint
    · rfl
  | some hds => rw [List.cons_append, fraction, digits_append hds hrest, Option.map_some]

theorem exponent_append (hes : IsExponent es) (hrest : EndsNumber rest) :
    exponent (es ++ rest) = some (es, rest) := by
  cases hes with
  | none =>
    cases rest with
    | nil => rfl
    | cons c rest =>
      obtain ⟨-, -, hsmall, hlarge⟩ := hrest c rfl
      rw [List.nil_append]
      unfold exponent
      simp only [if_neg (not_or.mpr ⟨hsmall, hlarge⟩)]
  | @unsigned e ds he hds =>
    have hread := digits_append hds hrest.endsDigits
    rw [List.cons_append]
    unfold exponent
    simp only [if_pos he]
    split
    · next heq => exact absurd (isDigit_of_append_eq hds heq) (by decide)
    · next heq => exact absurd (isDigit_of_append_eq hds heq) (by decide)
    · rw [hread, Option.map_some]
  | signed he hsign hds =>
    have hread := digits_append hds hrest.endsDigits
    rw [List.cons_append, List.cons_append]
    unfold exponent
    rcases hsign with rfl | rfl <;> simp only [if_pos he, hread, Option.map_some]

theorem magnitude_append (hds : IsWhole ds) (hfs : IsFraction fs) (hes : IsExponent es) (hrest : EndsNumber rest) :
    magnitude (ds ++ fs ++ es ++ rest) = some (ds ++ fs ++ es, rest) := by
  have hafter : ∀ c ∈ (es ++ rest).head?, c.isDigit = false ∧ c ≠ '.' := by
    cases hes with
    | none => exact fun c hc => ⟨(hrest c hc).1, (hrest c hc).2.1⟩
    | unsigned he _ => rcases he with rfl | rfl <;> simp [Char.isDigit]
    | signed he _ _ => rcases he with rfl | rfl <;> simp [Char.isDigit]
  have hends : EndsDigits (fs ++ (es ++ rest)) := by
    cases hfs with
    | none => exact fun c hc => (hafter c hc).1
    | some _ => simp [EndsDigits, Char.isDigit]
  have hpoint : (es ++ rest).head? ≠ some '.' := fun h => (hafter '.' h).2 rfl
  rw [magnitude, List.append_assoc, List.append_assoc, whole_append hds hends]
  simp only [Option.bind_eq_bind, Option.bind_some, fraction_append hfs (fun c hc => (hafter c hc).1) hpoint,
    exponent_append hes hrest, Option.pure_def]

/-- **A number is read to its end.** -/
theorem number_append {literal : List Char} (h : Literal literal) (hrest : EndsNumber rest) :
    number (literal ++ rest) = some (.number literal, rest) := by
  cases h with
  | positive hds hfs hes =>
    have hread := magnitude_append hds hfs hes hrest
    unfold number
    split
    · next heq =>
      rw [List.append_assoc, List.append_assoc] at heq
      exact absurd (isDigit_of_append_eq hds.isDigits heq) (by decide)
    · rw [hread, Option.map_some]
  | negative hds hfs hes =>
    rw [List.cons_append, number, magnitude_append hds hfs hes hrest, Option.map_some]

/-- The text of a piece is read as that piece, whatever follows. -/
theorem pieces_append_of_pieceText {p : Piece} (h : PieceText p cs) (ds : List Char) :
    pieces (cs ++ ds) = (pieces ds).map fun (ps, rest) => (p :: ps, rest) := by
  cases h with
  | plain hquote hbackslash hcontrol =>
    rw [List.singleton_append, pieces]
    · simp only [if_neg hcontrol, Option.bind_eq_bind, Option.pure_def, Option.map_eq_bind]
      rfl
    all_goals grind
  | @escape c e he =>
    have hu : e ≠ 'u' := by rintro rfl; cases he
    rw [List.cons_append, List.singleton_append, pieces]
    · simp only [he, Option.bind_eq_bind, Option.bind_some, Option.pure_def, Option.map_eq_bind]
      rfl
    all_goals grind
  | code hn =>
    simp only [List.cons_append, List.nil_append, pieces, hn, Option.bind_eq_bind, Option.bind_some,
      Option.pure_def, Option.map_eq_bind]
    rfl

/-- **A string is read up to its closing quote.** -/
theorem pieces_append {ps : List Piece} (h : StringText ps cs) (rest : List Char) :
    pieces (cs ++ '"' :: rest) = some (ps, rest) := by
  induction h with
  | nil => rfl
  | cons hp _ ih => rw [List.append_assoc, pieces_append_of_pieceText hp, ih, Option.map_some]

/-! ## Values -/

theorem endsNumber_cons {c : Char} (hc : c = ',' ∨ c = ']' ∨ c = '}') (cs : List Char) : EndsNumber (c :: cs) := by
  rintro _ ⟨⟩
  rcases hc with rfl | rfl | rfl <;> decide

theorem EndsNumber.blanks_append (hws : Blanks ws) (hrest : EndsNumber rest) : EndsNumber (ws ++ rest) := by
  cases ws with
  | nil => exact hrest
  | cons c ws =>
    rintro _ ⟨⟩
    have hc : isBlank c = true := hws c List.mem_cons_self
    simp only [isBlank, Bool.or_eq_true, beq_iff_eq] at hc
    rcases hc with ((rfl | rfl) | rfl) | rfl <;> decide

-- By induction on the derivation of the text. The bound pays two for every character: one step goes from a value to
-- what stands between its brackets and one from there to a value, and the brackets take two characters.
mutual

/-- **A value is read from each of its texts**, if the bound on the nesting is twice its length. -/
theorem value_of_written {j : Json} {ws cs rest : List Char} (bound : Nat) (h : Written j cs) (hws : Blanks ws)
    (hbound : 2 * cs.length ≤ bound) (hrest : EndsNumber rest) :
    value bound (ws ++ (cs ++ rest)) = some (j, rest) := by
  cases bound with
  | zero =>
    obtain ⟨c, t, rfl, -⟩ := h.exists_cons
    simp at hbound
  | succ bound =>
  unfold value
  rw [skipBlanks_append hws]
  cases h with
  | null => rfl
  | yes => rfl
  | no => rfl
  | number hliteral =>
    obtain ⟨c, t, rfl, hblank, -⟩ := (Written.number hliteral).exists_cons
    obtain ⟨_, _, ⟨⟩, hc⟩ := hliteral.exists_cons
    rw [List.cons_append, skipBlanks_cons hblank]
    -- a sign or a digit starts no other kind of value
    split
    case h_7 => exact number_append hliteral hrest
    all_goals
      next heq =>
      obtain rfl := (List.cons.inj heq).1
      exact absurd hc (by decide)
  | string hps =>
    rw [List.cons_append, List.append_assoc, skipBlanks_cons (by decide)]
    simp only [List.singleton_append, pieces_append hps, Option.map_some]
  | emptyArray hblank =>
    rw [List.cons_append, List.append_assoc, skipBlanks_cons (by decide)]
    simp only [skipBlanks_append hblank, List.singleton_append, skipBlanks_cons (c := ']') (by decide)]
  | array hblank hjs =>
    have hread := elements_of_written bound hjs blanks_nil (by simp at hbound; omega) rest
    obtain ⟨c, t, rfl, hc, hclose⟩ := hjs.exists_cons
    rw [List.cons_append, skipBlanks_cons (by decide)]
    simp only [List.append_assoc, skipBlanks_append hblank, List.cons_append, skipBlanks_cons hc,
      List.nil_append] at hread ⊢
    split
    · next heq => exact absurd (List.cons.inj heq).1 hclose
    · rw [hread, Option.map_some]
  | emptyObject hblank =>
    rw [List.cons_append, List.append_assoc, skipBlanks_cons (by decide)]
    simp only [skipBlanks_append hblank, List.singleton_append, skipBlanks_cons (c := '}') (by decide)]
  | object hblank hms =>
    have hread := members_of_written bound hms blanks_nil (by simp at hbound; omega) rest
    obtain ⟨t, rfl⟩ := hms.exists_cons
    rw [List.cons_append, skipBlanks_cons (by decide)]
    simp only [List.append_assoc, skipBlanks_append hblank, List.cons_append,
      skipBlanks_cons (c := '"') (by decide), List.nil_append] at hread ⊢
    split
    · next heq => exact absurd (List.cons.inj heq).1 (by decide)
    · rw [hread, Option.map_some]

/-- **Elements are read up to their bracket.** -/
theorem elements_of_written {js : List Json} {ws cs : List Char} (bound : Nat) (h : WrittenElements js cs)
    (hws : Blanks ws) (hbound : 2 * cs.length + 2 ≤ bound) (rest : List Char) :
    elements bound (ws ++ (cs ++ ']' :: rest)) = some (js, rest) := by
  cases bound with
  | zero => omega
  | succ bound =>
  unfold elements
  cases h with
  | last hj hblank =>
    rw [List.append_assoc, value_of_written bound hj hws (by simp at hbound; omega)
      (.blanks_append hblank (endsNumber_cons (by simp) rest))]
    simp only [Option.bind_eq_bind, Option.bind_some, skipBlanks_append hblank,
      skipBlanks_cons (c := ']') (by decide), Option.pure_def]
  | cons hj hblank hblank' hjs =>
    rw [List.append_assoc, List.append_assoc, List.cons_append, List.append_assoc,
      value_of_written bound hj hws (by simp at hbound; omega) (.blanks_append hblank (endsNumber_cons (by simp) _))]
    have hmore := elements_of_written bound hjs hblank' (by simp at hbound; omega) rest
    simp only [Option.bind_eq_bind, Option.bind_some, skipBlanks_append hblank,
      skipBlanks_cons (c := ',') (by decide), hmore, Option.pure_def]

/-- A member is read, and what follows it tells whether it is the last one. -/
theorem members_of_writtenMember {m : List Piece × Json} {ws cs rest : List Char} (bound : Nat)
    (h : WrittenMember m cs) (hws : Blanks ws) (hbound : 2 * cs.length ≤ bound) (hrest : EndsNumber rest) :
    members (bound + 1) (ws ++ (cs ++ rest)) =
      match skipBlanks rest with
      | ',' :: cs => (members bound cs).map fun (ms, rest) => (m :: ms, rest)
      | '}' :: rest => some ([m], rest)
      | _ => none := by
  cases h with
  | intro hkey hbefore hafter hj =>
    rw [members, skipBlanks_append hws, List.cons_append, skipBlanks_cons (by decide)]
    simp only [List.append_assoc, List.cons_append, pieces_append hkey, Option.bind_eq_bind, Option.bind_some,
      skipBlanks_append hbefore, skipBlanks_cons (c := ':') (by decide)]
    rw [value_of_written bound hj hafter (by simp at hbound; omega) hrest]
    simp only [Option.bind_some, Option.pure_def, Option.map_eq_bind]
    rfl

/-- **Members are read up to their brace.** -/
theorem members_of_written {ms : List (List Piece × Json)} {ws cs : List Char} (bound : Nat)
    (h : WrittenMembers ms cs) (hws : Blanks ws) (hbound : 2 * cs.length + 2 ≤ bound) (rest : List Char) :
    members bound (ws ++ (cs ++ '}' :: rest)) = some (ms, rest) := by
  cases bound with
  | zero => omega
  | succ bound =>
  cases h with
  | last hm hblank =>
    rw [List.append_assoc, members_of_writtenMember bound hm hws (by simp at hbound; omega)
      (.blanks_append hblank (endsNumber_cons (by simp) rest))]
    simp only [skipBlanks_append hblank, skipBlanks_cons (c := '}') (by decide)]
  | cons hm hblank hblank' hms =>
    rw [List.append_assoc, List.append_assoc, List.cons_append, List.append_assoc,
      members_of_writtenMember bound hm hws (by simp at hbound; omega)
        (.blanks_append hblank (endsNumber_cons (by simp) _))]
    have hmore := members_of_written bound hms hblank' (by simp at hbound; omega) rest
    simp only [skipBlanks_append hblank, skipBlanks_cons (c := ',') (by decide), hmore, Option.map_some]

end

end Reader

/-! ## Documents -/

/-- **Every text of a tree is read as that tree**, with any blanks around it. -/
theorem ofChars?_of_written {j : Json} {ws' : List Char} (h : Written j cs) (hws : Blanks ws) (hws' : Blanks ws') :
    ofChars? (ws ++ (cs ++ ws')) = some j := by
  have hends : Reader.EndsNumber ws' := by
    rw [← List.append_nil ws']
    exact .blanks_append hws' nofun
  have hskip : Reader.skipBlanks ws' = [] := by
    rw [← List.append_nil ws', Reader.skipBlanks_append hws']
    rfl
  rw [ofChars?, Reader.value_of_written _ h hws (by simp; omega) hends]
  simp only [hskip, List.isEmpty_nil, if_true]

end LibraryCatalog.Json
