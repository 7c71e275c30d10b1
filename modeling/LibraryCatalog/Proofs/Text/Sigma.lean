import LibraryCatalog.Proofs.Text.SmallLetters

/-!
# `LibraryCatalog.Proofs.Text.Sigma` — where a capital sigma is final

A capital sigma is the one letter whose small form depends on the text around it: it is final when the last character
seen before it has case and the first one seen after it has not. Characters that are passed over are not seen. A piece
of a text is therefore put into small letters in a context, and what another context changes are its sigmas alone.

## Contents
- **Sight.** `firstSeen`, and `FinalBetween`, the condition for a final sigma between two texts.
- **Contexts.** `lowerWithin`, the small form of a piece between two texts; `lowerFrom_append`, `lowerWithin_append`.
- **Changes.** How the numbers of final and other sigmas change with the context: `count_final_mono`,
  `count_final_lt`; and texts whose small form a single letter beside them destroys: `not_infix_lowercase_append`,
  `not_infix_lowercase_cons`.
-/

namespace LibraryCatalog.Text

variable {b b' : Bool} {c : Char} {cs ds before after after' : List Char}

/-! ## Sight -/

/-- The first character of a text that is not passed over. -/
def firstSeen (cs : List Char) : Option Char := cs.find? fun c => !isCaseIgnorable c

theorem firstSeen_append (cs ds : List Char) : firstSeen (cs ++ ds) = (firstSeen cs).or (firstSeen ds) :=
  List.find?_append

theorem firstSeen_cons_of_seen (h : isCaseIgnorable c = false) (cs : List Char) : firstSeen (c :: cs) = some c := by
  rw [firstSeen, List.find?_cons, h]
  rfl

theorem firstSeen_cons_of_ignorable (h : isCaseIgnorable c = true) (cs : List Char) :
    firstSeen (c :: cs) = firstSeen cs := by
  rw [firstSeen, List.find?_cons, h]
  rfl

theorem startsCased_eq (cs : List Char) : startsCased cs = (firstSeen cs).any isCased := by
  induction cs with
  | nil => rfl
  | cons c cs ih =>
    rw [startsCased, List.dropWhile_cons]
    by_cases hc : isCaseIgnorable c = true
    · rw [if_pos hc, firstSeen_cons_of_ignorable hc, ← ih]
      rfl
    · rw [if_neg hc, firstSeen_cons_of_seen (eq_false_of_ne_true hc)]
      rfl

/-- More case after a text is seen through what precedes it, if it is seen at all. -/
theorem startsCased_append_mono (h : startsCased after = true → startsCased after' = true) (cs : List Char) :
    startsCased (cs ++ after) = true → startsCased (cs ++ after') = true := by
  rw [startsCased_eq, startsCased_eq, firstSeen_append, firstSeen_append]
  rw [startsCased_eq, startsCased_eq] at h
  cases firstSeen cs with
  | none => exact h
  | some c => exact id

/-- Whether the last character seen in a text has case; `b` answers for a text in which none is seen. -/
theorem foldl_endsCased (b : Bool) (cs : List Char) :
    cs.foldl endsCased b = (firstSeen cs.reverse).elim b isCased := by
  induction cs generalizing b with
  | nil => rfl
  | cons c cs ih =>
    rw [List.foldl_cons, ih, List.reverse_cons, firstSeen_append]
    cases firstSeen cs.reverse with
    | some d => rfl
    | none =>
      show endsCased b c = (firstSeen [c]).elim b isCased
      rw [endsCased]
      by_cases hc : isCaseIgnorable c = true
      · rw [if_pos hc, firstSeen_cons_of_ignorable hc]
        rfl
      · rw [if_neg hc, firstSeen_cons_of_seen (eq_false_of_ne_true hc)]
        rfl

/-- A capital sigma between two texts is final: a letter with case is seen before it and none after it. -/
def FinalBetween (before after : List Char) : Prop :=
  (firstSeen before.reverse).any isCased = true ∧ (firstSeen after).any isCased = false

instance (before after : List Char) : Decidable (FinalBetween before after) :=
  inferInstanceAs (Decidable (_ ∧ _))

/-- The state in which `lowerFrom` arrives at a character. -/
theorem foldl_endsCased_false (cs : List Char) :
    cs.foldl endsCased false = (firstSeen cs.reverse).any isCased := by
  rw [foldl_endsCased]
  cases firstSeen cs.reverse <;> rfl

theorem finalBetween_iff :
    FinalBetween before after ↔ (before.foldl endsCased false && !startsCased after) = true := by
  rw [FinalBetween, foldl_endsCased_false, startsCased_eq, Bool.and_eq_true, Bool.not_eq_true']

/-- Only the small form of a sigma depends on what is around it. -/
theorem lowerChar_congr (h : c = 'Σ' → (b && !startsCased after) = (b' && !startsCased after')) :
    lowerChar b c after = lowerChar b' c after' := by
  rw [lowerChar, lowerChar]
  by_cases hc : c = 'Σ'
  · rw [if_pos hc, if_pos hc, h hc]
  · rw [if_neg hc, if_neg hc]

/-! ## Contexts -/

/-- The small form of a piece before `after`, reached in the state `before`. -/
def lowerWithin (before : Bool) (cs after : List Char) : List Char :=
  match cs with
  | [] => []
  | c :: cs => lowerChar before c (cs ++ after) ++ lowerWithin (endsCased before c) cs after

/-- **A text is put into small letters piece by piece**, each piece in its context. -/
theorem lowerFrom_append (b : Bool) (cs ds : List Char) :
    lowerFrom b (cs ++ ds) = lowerWithin b cs ds ++ lowerFrom (cs.foldl endsCased b) ds := by
  induction cs generalizing b with
  | nil => rfl
  | cons c cs ih => rw [List.cons_append, lowerFrom, ih, lowerWithin, List.append_assoc, List.foldl_cons]

theorem lowerWithin_nil (b : Bool) (cs : List Char) : lowerWithin b cs [] = lowerFrom b cs := by
  induction cs generalizing b with
  | nil => rfl
  | cons c cs ih => rw [lowerWithin, lowerFrom, ih, List.append_nil]

theorem lowerWithin_append (b : Bool) (cs ds after : List Char) :
    lowerWithin b (cs ++ ds) after =
      lowerWithin b cs (ds ++ after) ++ lowerWithin (cs.foldl endsCased b) ds after := by
  induction cs generalizing b with
  | nil => rfl
  | cons c cs ih =>
    rw [List.cons_append, lowerWithin, lowerWithin, ih, List.append_assoc, List.append_assoc, List.foldl_cons]

/-! ## Changes -/

/-- **With less case before a piece and more after it** there are fewer final sigmas in it, and more others. -/
theorem count_final_mono (hb : b' = true → b = true) (hafter : startsCased after = true → startsCased after' = true)
    (cs : List Char) :
    (lowerWithin b' cs after').count 'ς' ≤ (lowerWithin b cs after).count 'ς' ∧
      (lowerWithin b cs after).count 'σ' ≤ (lowerWithin b' cs after').count 'σ' := by
  induction cs generalizing b b' with
  | nil => exact ⟨Nat.le_refl _, Nat.le_refl _⟩
  | cons c cs ih =>
    have hstate : endsCased b' c = true → endsCased b c = true := by
      rw [endsCased, endsCased]
      by_cases hc : isCaseIgnorable c = true
      · rw [if_pos hc, if_pos hc]
        exact hb
      · rw [if_neg hc, if_neg hc]
        exact id
    have hchar : (lowerChar b' c (cs ++ after')).count 'ς' ≤ (lowerChar b c (cs ++ after)).count 'ς' ∧
        (lowerChar b c (cs ++ after)).count 'σ' ≤ (lowerChar b' c (cs ++ after')).count 'σ' := by
      by_cases hc : c = 'Σ'
      · have hseen := startsCased_append_mono hafter cs
        rw [lowerChar, lowerChar, if_pos hc, if_pos hc]
        generalize startsCased (cs ++ after) = seen at hseen
        generalize startsCased (cs ++ after') = seen' at hseen
        revert hb hseen
        cases b <;> cases b' <;> cases seen <;> cases seen' <;> decide
      · have hsame : lowerChar b' c (cs ++ after') = lowerChar b c (cs ++ after) :=
          lowerChar_congr fun h => absurd h hc
        rw [hsame]
        exact ⟨Nat.le_refl _, Nat.le_refl _⟩
    obtain ⟨hfinal, hother⟩ := ih hstate
    rw [lowerWithin, lowerWithin, List.count_append, List.count_append, List.count_append, List.count_append]
    exact ⟨Nat.add_le_add hchar.1 hfinal, Nat.add_le_add hchar.2 hother⟩

/-- **A sigma that another context makes final no longer** is missing among the final ones, and new among the
others. -/
theorem count_final_lt (hb : b' = true → b = true) (hafter : startsCased after = true → startsCased after' = true)
    (hfinal : (cs.foldl endsCased b && !startsCased (ds ++ after)) = true)
    (hlost : (cs.foldl endsCased b' && !startsCased (ds ++ after')) = false) :
    (lowerWithin b' (cs ++ 'Σ' :: ds) after').count 'ς' < (lowerWithin b (cs ++ 'Σ' :: ds) after).count 'ς' ∧
      (lowerWithin b (cs ++ 'Σ' :: ds) after).count 'σ' < (lowerWithin b' (cs ++ 'Σ' :: ds) after').count 'σ' := by
  obtain ⟨hfront, hfront'⟩ := count_final_mono hb (startsCased_append_mono hafter ('Σ' :: ds)) cs
  -- the sigma has case, so that what follows it is in the same state in both contexts
  obtain ⟨hrest, hrest'⟩ := count_final_mono (fun _ => rfl : true = true → true = true) hafter ds
  have hchar : lowerChar (cs.foldl endsCased b) 'Σ' (ds ++ after) = ['ς'] := by
    rw [lowerChar, if_pos rfl, hfinal, if_pos rfl]
  have hchar' : lowerChar (cs.foldl endsCased b') 'Σ' (ds ++ after') = ['σ'] := by
    rw [lowerChar, if_pos rfl, hlost, if_neg Bool.false_ne_true]
  have hsigma : ∀ state, endsCased state 'Σ' = true := by decide
  rw [lowerWithin_append, lowerWithin_append, lowerWithin, lowerWithin, hchar, hchar', hsigma, hsigma]
  have hfinal' : ['σ'].count 'ς' = 0 ∧ ['ς'].count 'ς' = 1 ∧ ['ς'].count 'σ' = 0 ∧ ['σ'].count 'σ' = 1 := by decide
  simp only [List.count_append]
  omega

/-- **A letter after a text** whose last letter is a final sigma leaves nothing of its small form. -/
theorem not_infix_lowercase_append (hbefore : (firstSeen cs.reverse).any isCased = true)
    (hafter : firstSeen ds = none) :
    ¬lowercase (cs ++ 'Σ' :: ds) <:+: lowercase (cs ++ 'Σ' :: ds ++ ['a']) := by
  intro hin
  have hletter : (firstSeen ['a']).any isCased = true := by decide
  have hlost : (lowerWithin false (cs ++ 'Σ' :: ds) ['a']).count 'ς' <
      (lowerWithin false (cs ++ 'Σ' :: ds) []).count 'ς' := by
    refine (count_final_lt id (fun _ => by decide) ?_ ?_).1
    · rw [foldl_endsCased_false, hbefore, List.append_nil, startsCased_eq, hafter]
      rfl
    · rw [startsCased_eq, firstSeen_append, hafter, Option.none_or, hletter, Bool.not_true, Bool.and_false]
  have hle := hin.sublist.count_le 'ς'
  have hend : ∀ state, lowerFrom state ['a'] = ['a'] := by decide
  have hnone : ['a'].count 'ς' = 0 := by decide
  rw [lowercase, lowercase, lowerFrom_append false _ ['a'], hend, List.count_append, hnone, ← lowerWithin_nil] at hle
  omega

/-- **A letter before a text** whose first letter is a sigma that nothing follows leaves nothing of its small form. -/
theorem not_infix_lowercase_cons (hbefore : firstSeen cs.reverse = none)
    (hafter : (firstSeen ds).any isCased = false) :
    ¬lowercase (cs ++ 'Σ' :: ds) <:+: lowercase ('a' :: (cs ++ 'Σ' :: ds)) := by
  intro hin
  have hnew : (lowerWithin true (cs ++ 'Σ' :: ds) []).count 'σ' <
      (lowerWithin false (cs ++ 'Σ' :: ds) []).count 'σ' := by
    refine (count_final_lt (fun _ => rfl) id ?_ ?_).2
    · rw [foldl_endsCased, hbefore, List.append_nil, startsCased_eq, hafter]
      rfl
    · rw [foldl_endsCased, hbefore]
      rfl
  have hle := hin.sublist.count_le 'σ'
  have hfirst : lowerChar false 'a' (cs ++ 'Σ' :: ds) = ['a'] := rfl
  have hstate : endsCased false 'a' = true := by decide
  have hnone : ['a'].count 'σ' = 0 := by decide
  rw [lowercase, lowercase, lowerFrom, hfirst, hstate, List.count_append, hnone, ← lowerWithin_nil,
    ← lowerWithin_nil] at hle
  omega

end LibraryCatalog.Text
