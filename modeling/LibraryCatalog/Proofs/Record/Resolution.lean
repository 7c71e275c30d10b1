import LibraryCatalog.Book
import LibraryCatalog.Proofs.Record.Section

/-!
# `LibraryCatalog.Proofs.Record.Resolution` — which field of a table a key stands for

A key is looked for twice, first among the names of all fields and then among their alternate keys. A table may use a
key more than once: two fields can have one name or one alternate key, and the alternate key of one can be the name of
another. Then the order of the passes decides before the order of the table does. Where no key is used twice, neither of
the two orders matters.

## Contents
- **Any table.** `IsFirst`, the first entry of its kind, and `StandsFor`, which field has precedence for a key;
  `resolve_eq_some_iff`.
- **Distinct keys.** `countP_accepts_le_one`, and that the only field that accepts a key is found in every order of the
  table: `resolve_eq_of_perm`.
- **The result.** `AnswersByPrecedence`, `AnswersInAnyOrder`, and `resolves_keys`.
-/

namespace LibraryCatalog.Record

variable {ρ : Type} {fields fields' : List (Field ρ)} {field : Field ρ} {key : String}

/-! ## Any table -/

/-- An entry of a list has a property that no earlier entry has. -/
def IsFirst {α : Type} (p : α → Prop) (as : List α) (a : α) : Prop :=
  ∃ above below, as = above ++ a :: below ∧ p a ∧ ∀ b ∈ above, ¬p b

theorem find?_eq_some_iff_isFirst {α : Type} {p : α → Bool} {as : List α} {a : α} :
    as.find? p = some a ↔ IsFirst (fun b => p b = true) as a := by
  rw [List.find?_eq_some_iff_append]
  constructor
  · rintro ⟨ha, above, below, has, hnone⟩
    refine ⟨above, below, has, ha, ?_⟩
    intro b hb
    simpa using hnone b hb
  · rintro ⟨above, below, has, ha, hnone⟩
    refine ⟨ha, above, below, has, ?_⟩
    intro b hb
    simpa using hnone b hb

/-- The field with precedence for a key: the first one with that name, or else, if no field has that name, the first one
with that alternate key. -/
inductive StandsFor (fields : List (Field ρ)) (key : String) : Field ρ → Prop where
  | name {field : Field ρ} : IsFirst (fun f => f.name = key) fields field → StandsFor fields key field
  | alternate {field : Field ρ} : (∀ f ∈ fields, f.name ≠ key) →
      IsFirst (fun f => f.alternate = some key) fields field → StandsFor fields key field

/-- **A key is resolved to the field with precedence for it.** -/
theorem resolve_eq_some_iff : resolve fields key = some field ↔ StandsFor fields key field := by
  unfold resolve
  rw [Option.or_eq_some_iff, find?_eq_some_iff_isFirst, find?_eq_some_iff_isFirst, List.find?_eq_none]
  simp only [beq_iff_eq]
  constructor
  · rintro (hname | ⟨hnone, halternate⟩)
    · exact .name hname
    · exact .alternate hnone halternate
  · intro h
    cases h with
    | name hname => exact .inl hname
    | alternate hnone halternate => exact .inr ⟨hnone, halternate⟩

/-- The name of a field has precedence over the alternate key of a field above it. -/
example (s : Setter ρ) : resolve [⟨"A", some "B", s⟩, ⟨"B", none, s⟩] "B" = some ⟨"B", none, s⟩ := by rfl

/-- **A key is resolved exactly when some field accepts it.** -/
theorem exists_resolve_iff : (∃ field, resolve fields key = some field) ↔ ∃ field ∈ fields, field.accepts key = true := by
  constructor
  · rintro ⟨field, h⟩
    obtain ⟨hfield, hkey⟩ := mem_of_resolve h
    exact ⟨field, hfield, Field.accepts_iff.mpr hkey⟩
  · rintro ⟨field, hfield, hkey⟩
    cases hres : resolve fields key with
    | some found => exact ⟨found, rfl⟩
    | none => exact absurd (Field.accepts_iff.mp hkey) (resolve_eq_none_iff.mp hres field hfield)

/-! ## Distinct keys -/

/-- **Where no key occurs twice, no two fields accept the same one**, by induction on the table. -/
theorem countP_accepts_le_one (h : (fields.flatMap Field.keys).Nodup) (key : String) :
    fields.countP (fun f => f.accepts key) ≤ 1 := by
  induction fields with
  | nil => simp
  | cons first fields ih =>
    have hrest : (fields.flatMap Field.keys).Nodup := by
      rw [List.flatMap_cons, List.nodup_append] at h
      exact h.2.1
    rw [List.countP_cons]
    by_cases hfirst : first.accepts key = true
    · have hnone : fields.countP (fun f => f.accepts key) = 0 := by
        rw [List.countP_eq_zero]
        intro other hother hkey
        exact not_mem_keys_of_nodup h (Field.accepts_iff.mp hfirst) hother (Field.accepts_iff.mp hkey)
      rw [if_pos hfirst]
      omega
    · rw [if_neg hfirst]
      exact ih hrest

/-- The field that accepts a key is the one that is found. -/
theorem resolve_eq_some_iff_accepts (h : (fields.flatMap Field.keys).Nodup) :
    resolve fields key = some field ↔ field ∈ fields ∧ field.accepts key = true := by
  rw [Field.accepts_iff]
  constructor
  · exact mem_of_resolve
  · rintro ⟨hfield, hkey⟩
    exact resolve_of_nodup h hfield hkey

/-- **The order of a table does not matter** where no key occurs twice. -/
theorem resolve_eq_of_perm (h : (fields.flatMap Field.keys).Nodup) (hperm : fields'.Perm fields) (key : String) :
    resolve fields' key = resolve fields key := by
  have h' : (fields'.flatMap Field.keys).Nodup := (hperm.flatMap_right Field.keys).nodup_iff.mpr h
  apply Option.ext
  intro field
  rw [resolve_eq_some_iff_accepts h', resolve_eq_some_iff_accepts h, hperm.mem_iff]

/-! ## The result -/

/-- How any table answers a key. -/
structure AnswersByPrecedence (fields : List (Field ρ)) (key : String) : Prop where
  found_iff : (∃ field, resolve fields key = some field) ↔ ∃ field ∈ fields, field.accepts key = true
  accepts : ∀ field, resolve fields key = some field → field ∈ fields ∧ field.accepts key = true
  standsFor_iff : ∀ field, resolve fields key = some field ↔ StandsFor fields key field

/-- How a table answers a key that at most one of its fields accepts. -/
structure AnswersInAnyOrder (fields : List (Field ρ)) (key : String) : Prop where
  countP_le_one : fields.countP (fun f => f.accepts key) ≤ 1
  found : ∀ field ∈ fields, field.accepts key = true → resolve fields key = some field
  reordered : ∀ fields' : List (Field ρ), fields'.Perm fields → resolve fields' key = resolve fields key

/-- **Every table answers every key by precedence**, and in any order of its fields if no key occurs twice in it, as none
does in the table of books. -/
theorem resolves_keys (fields : List (Field ρ)) :
    (∀ key, AnswersByPrecedence fields key) ∧
    ((fields.flatMap Field.keys).Nodup → ∀ key, AnswersInAnyOrder fields key) ∧
    (Book.fields.flatMap Field.keys).Nodup := by
  refine ⟨?_, ?_, by decide +kernel⟩
  · intro key
    refine ⟨exists_resolve_iff, ?_, fun field => resolve_eq_some_iff⟩
    intro field h
    obtain ⟨hfield, -⟩ := mem_of_resolve h
    exact ⟨hfield, accepts_of_resolve h⟩
  · intro h key
    refine ⟨countP_accepts_le_one h key, ?_, fun fields' hperm => resolve_eq_of_perm h hperm key⟩
    intro field hfield hkey
    exact (resolve_eq_some_iff_accepts h).mpr ⟨hfield, hkey⟩

/-- The table of books the other way round. -/
theorem sample_resolves_keys :
    (Book.fields.flatMap Field.keys).Nodup ∧ Book.fields.reverse.Perm Book.fields ∧
      resolve Book.fields.reverse "Published" = resolve Book.fields "Published" ∧
      (resolve Book.fields "Published").map Field.name = some "PublicationYear" := by
  have hdistinct : (Book.fields.flatMap Field.keys).Nodup := by decide +kernel
  have hperm := List.reverse_perm Book.fields
  have hanswers := (resolves_keys Book.fields).2.1 hdistinct "Published"
  exact ⟨hdistinct, hperm, hanswers.reordered _ hperm, by decide +kernel⟩

end LibraryCatalog.Record
