import LibraryCatalog.Proofs.Interchange.RoundTrip
import Mathlib.Data.List.Perm.Basic

/-!
# `LibraryCatalog.Proofs.Interchange.Arrangement` — books in JSON, however their members are arranged

An object is read as a book by the names of its members. Their order does not matter, and neither do members of other
names, whatever their values are and wherever they stand. What matters is how often each field is given: once, or for
the shelf at most once.

## Contents
- **Fields.** `onlyValue?_eq_some_iff`; `Declared`, the members that give fields their values, and
  `mapM_onlyValue?_eq_some_iff`: a record has these, in any order and among others.
- **Occurrences.** `occurrences`, how many members have a name, and `occurrences_of_fieldValues?`.
- **Books.** `Book.Means`, which values are those of a book, `Book.Arranges`, which objects are, and
  `ofJson?_object_eq_some_iff`.
- **Texts.** `TextOf`, a text of a tree with blanks anywhere between its tokens.
- **Result.** `Book.readJson?_arrangement`, with an object of which a member is left out or given twice.
-/

namespace LibraryCatalog

namespace Json

variable {names : List String} {name : String} {vs : List (Option Json)} {v : Option Json}
  {ms own foreign : List (String × Json)} {members : List (List Piece × Json)}

/-! ## Fields -/

/-- A name has a value if that is all that stands under it. -/
theorem onlyValue?_eq_some_iff :
    onlyValue? ms name = some v ↔ (ms.filter fun m => m.1 == name) = v.toList.map fun j => (name, j) := by
  unfold onlyValue?
  split
  · next h =>
    have hfound : (ms.filter fun m => m.1 == name) = [] := h
    rw [hfound]
    cases v <;> simp
  · next key j h =>
    have hfound : (ms.filter fun m => m.1 == name) = [(key, j)] := h
    have hmem : (key, j) ∈ ms.filter fun m => m.1 == name := by
      rw [hfound]
      exact List.mem_singleton_self _
    have hkey : key = name := beq_iff_eq.mp (List.mem_filter.mp hmem).2
    rw [hfound, hkey]
    cases v <;> simp
  · next hnil hone =>
    refine iff_of_false nofun fun hfound => ?_
    cases v with
    | none => exact hnil hfound
    | some j => exact hone name j hfound

theorem filter_eq_nil_of_ne (h : ∀ m ∈ ms, m.1 ≠ name) : (ms.filter fun m => m.1 == name) = [] :=
  List.filter_eq_nil_iff.mpr fun m hm hkey => h m hm (beq_iff_eq.mp hkey)

/-- The members that give the fields of a record their values, in the declared order of the fields. A field without a
    value has no member. -/
inductive Declared : List String → List (Option Json) → List (String × Json) → Prop where
  | nil : Declared [] [] []
  | missing {name : String} {names : List String} {vs : List (Option Json)} {own : List (String × Json)} :
      Declared names vs own → Declared (name :: names) (none :: vs) own
  | given {name : String} {names : List String} {vs : List (Option Json)} {own : List (String × Json)} {j : Json} :
      Declared names vs own → Declared (name :: names) (some j :: vs) ((name, j) :: own)

theorem Declared.name_mem (h : Declared names vs own) : ∀ m ∈ own, m.1 ∈ names := by
  induction h with
  | nil => nofun
  | missing _ ih => exact fun m hm => List.mem_cons_of_mem _ (ih m hm)
  | given _ ih =>
    intro m hm
    rcases List.mem_cons.mp hm with rfl | hm
    · exact List.mem_cons_self
    · exact List.mem_cons_of_mem _ (ih m hm)

/-- A name that is none of some others is that of no member for these, nor of a foreign one. -/
theorem Declared.name_ne (h : Declared names vs own) (hname : name ∉ names)
    (hforeign : ∀ m ∈ foreign, m.1 ∉ name :: names) : ∀ m ∈ own ++ foreign, m.1 ≠ name := by
  rintro m hm rfl
  rcases List.mem_append.mp hm with hm | hm
  · exact hname (h.name_mem m hm)
  · exact hforeign m hm List.mem_cons_self

/-- What declared members give is read from them, in any order and among members of other names. -/
theorem Declared.mapM_onlyValue? (h : Declared names vs own) (hnames : names.Nodup) (hperm : ms.Perm (own ++ foreign))
    (hforeign : ∀ m ∈ foreign, m.1 ∉ names) : names.mapM (onlyValue? ms) = some vs := by
  induction h generalizing foreign with
  | nil => rfl
  | @missing name names vs own hown ih =>
    obtain ⟨hname, hnames⟩ := List.nodup_cons.mp hnames
    have hfirst : onlyValue? ms name = some none := by
      have hfound := hperm.filter fun m => m.1 == name
      rw [filter_eq_nil_of_ne (hown.name_ne hname hforeign)] at hfound
      exact onlyValue?_eq_some_iff.mpr (List.perm_nil.mp hfound)
    have hrest : names.mapM (onlyValue? ms) = some vs :=
      ih hnames hperm fun m hm hmem => hforeign m hm (List.mem_cons_of_mem _ hmem)
    exact mapM_cons_eq_some_iff.mpr ⟨none, vs, hfirst, hrest, rfl⟩
  | @given name names vs own j hown ih =>
    obtain ⟨hname, hnames⟩ := List.nodup_cons.mp hnames
    have hfirst : onlyValue? ms name = some (some j) := by
      have hfound := hperm.filter fun m => m.1 == name
      rw [List.cons_append, List.filter_cons_of_pos (by simp),
        filter_eq_nil_of_ne (hown.name_ne hname hforeign)] at hfound
      exact onlyValue?_eq_some_iff.mpr (List.perm_singleton.mp hfound)
    -- for the other names this member is one of another name
    have hrest : names.mapM (onlyValue? ms) = some vs := by
      refine ih hnames (hperm.trans List.perm_middle.symm) fun m hm hmem => ?_
      rcases List.mem_cons.mp hm with rfl | hm
      · exact hname hmem
      · exact hforeign m hm (List.mem_cons_of_mem _ hmem)
    exact mapM_cons_eq_some_iff.mpr ⟨some j, vs, hfirst, hrest, rfl⟩

/-- **The fields of a record have values** exactly if its members are those that give them, in any order, and members
    of other names among them. By induction on the names, each of which takes its member out of the others. -/
theorem mapM_onlyValue?_eq_some_iff (hnames : names.Nodup) :
    names.mapM (onlyValue? ms) = some vs ↔
      ∃ own foreign, Declared names vs own ∧ ms.Perm (own ++ foreign) ∧ ∀ m ∈ foreign, m.1 ∉ names := by
  refine ⟨fun h => ?_, fun ⟨_, _, hown, hperm, hforeign⟩ => hown.mapM_onlyValue? hnames hperm hforeign⟩
  induction names generalizing vs with
  | nil =>
    obtain rfl := Option.some.inj h
    exact ⟨[], ms, .nil, .refl ms, fun _ _ => List.not_mem_nil⟩
  | cons name names ih =>
    obtain ⟨hname, hnames⟩ := List.nodup_cons.mp hnames
    obtain ⟨v, vs, hfirst, hrest, rfl⟩ := mapM_cons_eq_some_iff.mp h
    obtain ⟨own, foreign, hown, hperm, hforeign⟩ := ih hnames hrest
    have hnone : (own.filter fun m => m.1 == name) = [] :=
      filter_eq_nil_of_ne fun m hm heq => hname (heq ▸ hown.name_mem m hm)
    have hfound : (foreign.filter fun m => m.1 == name).Perm (v.toList.map fun j => (name, j)) := by
      have hms := hperm.filter fun m => m.1 == name
      rw [onlyValue?_eq_some_iff.mp hfirst, List.filter_append, hnone] at hms
      exact hms.symm
    have htaken := hperm.trans (.append_left own
      ((List.filter_append_perm (fun m => m.1 == name) foreign).symm.trans (hfound.append_right _)))
    have hothers : ∀ m ∈ foreign.filter fun m => !m.1 == name, m.1 ∉ name :: names := by
      intro m hm
      obtain ⟨hm, hne⟩ := List.mem_filter.mp hm
      exact List.not_mem_cons_of_ne_of_not_mem (by simpa using hne) (hforeign m hm)
    cases v with
    | none => exact ⟨own, _, .missing hown, htaken, hothers⟩
    | some j => exact ⟨(name, j) :: own, _, .given hown, htaken.trans List.perm_middle, hothers⟩

/-! ## Occurrences -/

/-- A member has a name if its key is spelled for it. -/
def Named (m : List Piece × Json) (name : String) : Prop := assemble m.1 = some name.toList

instance (m : List Piece × Json) (name : String) : Decidable (Named m name) :=
  inferInstanceAs (Decidable (assemble m.1 = some name.toList))

/-- How many members have a name. -/
def occurrences (members : List (List Piece × Json)) (name : String) : Nat := members.countP fun m => Named m name

theorem named_member (name : String) (j : Json) : Named (member name j) name := assemble_map_char name.toList

theorem occurrences_of_mapM (h : members.mapM namedMember? = some ms) (name : String) :
    occurrences members name = (ms.filter fun m => m.1 == name).length := by
  induction members generalizing ms with
  | nil =>
    obtain rfl := Option.some.inj h
    rfl
  | cons m members ih =>
    obtain ⟨_, ms, hfirst, hms, rfl⟩ := mapM_cons_eq_some_iff.mp h
    obtain ⟨key, hkey, rfl⟩ := Option.map_eq_some_iff.mp hfirst
    have hnamed : Named m name ↔ String.ofList key = name := by
      rw [Named, hkey, Option.some.injEq, ← String.toList_inj, String.toList_ofList]
    rw [occurrences, List.countP_cons, ← occurrences, ih hms, List.filter_cons]
    by_cases hname : String.ofList key = name
    · simp [hnamed, hname]
    · simp [hnamed, hname]

/-- **The fields of an object have values** only if each of them occurs once, or not at all if it has none. -/
theorem occurrences_of_fieldValues? (h : (Json.object members).fieldValues? names = some vs) :
    names.map (occurrences members) = vs.map fun v => v.toList.length := by
  obtain ⟨ms, hms, hvalues⟩ := Option.bind_eq_some_iff.mp h
  clear h
  induction names generalizing vs with
  | nil =>
    obtain rfl := Option.some.inj hvalues
    rfl
  | cons name names ih =>
    obtain ⟨v, vs, hfirst, hrest, rfl⟩ := mapM_cons_eq_some_iff.mp hvalues
    rw [List.map_cons, List.map_cons, ih hrest, occurrences_of_mapM hms, onlyValue?_eq_some_iff.mp hfirst,
      List.length_map]

end Json

open Json

/-! ## Books -/

namespace Book

variable {b : Book} {j : Json} {members : List (List Piece × Json)} {name : String} {text : String}

/-- The values of its fields that a book is read from, in their declared order. -/
inductive Means (b : Book) : List (Option Json) → Prop where
  | intro {isbn title authors publisher year pages : Json} {shelf : Option Json} :
      isbn.text? = some b.isbn → title.text? = some b.title → authors.texts? = some b.authors →
      publisher.text? = some b.publisher → int32OfJson? year = some b.publicationYear →
      int32OfJson? pages = some b.numberOfPages → Json.optional? Identifier.ofJson? shelf = some b.shelf →
      b.Means [some isbn, some title, some authors, some publisher, some year, some pages, shelf]

theorem ofJson?_eq_some_iff : ofJson? j = some b ↔ ∃ vs, j.fieldValues? fieldNames = some vs ∧ b.Means vs := by
  constructor
  · intro h
    obtain ⟨vs, hvs, h⟩ := Option.bind_eq_some_iff.mp h
    refine ⟨vs, hvs, ?_⟩
    split at h
    · simp only [Option.bind_eq_bind, Option.bind_eq_some_iff, Option.pure_def, Option.some.injEq] at h
      obtain ⟨_, rfl, _, hisbn, _, rfl, _, htitle, _, rfl, _, hauthors, _, rfl, _, hpublisher, _, rfl, _, hyear, _, rfl,
        _, hpages, _, hshelf, rfl⟩ := h
      exact ⟨hisbn, htitle, hauthors, hpublisher, hyear, hpages, hshelf⟩
    · cases h
  · rintro ⟨_, hvs, hisbn, htitle, hauthors, hpublisher, hyear, hpages, hshelf⟩
    simp only [ofJson?, hvs, Option.bind_eq_bind, Option.bind_some, hisbn, htitle, hauthors, hpublisher, hyear, hpages,
      hshelf, Option.pure_def]

/-- The members of an object are those of a book, in any order and among members of other names. -/
inductive Arranges (b : Book) (members : List (List Piece × Json)) : Prop where
  | intro {named own foreign : List (String × Json)} {vs : List (Option Json)} :
      members.mapM namedMember? = some named → named.Perm (own ++ foreign) → Declared fieldNames vs own → b.Means vs →
      (∀ m ∈ foreign, m.1 ∉ fieldNames) → b.Arranges members

/-- **An object is read as a book** exactly if its members are those of the book. -/
theorem ofJson?_object_eq_some_iff : ofJson? (.object members) = some b ↔ b.Arranges members := by
  have hnames : fieldNames.Nodup := by decide +kernel
  rw [ofJson?_eq_some_iff]
  constructor
  · rintro ⟨vs, hvs, hmeans⟩
    obtain ⟨named, hnamed, hvalues⟩ := Option.bind_eq_some_iff.mp hvs
    obtain ⟨own, foreign, hown, hperm, hforeign⟩ := (mapM_onlyValue?_eq_some_iff hnames).mp hvalues
    exact ⟨hnamed, hperm, hown, hmeans, hforeign⟩
  · rintro ⟨hnamed, hperm, hown, hmeans, hforeign⟩
    have hvalues := hown.mapM_onlyValue? hnames hperm hforeign
    exact ⟨_, Option.bind_eq_some_iff.mpr ⟨_, hnamed, hvalues⟩, hmeans⟩

/-- The members that are written for a book. A shelf that is not there may be left out or null. -/
inductive WrittenAs (b : Book) : List (String × Json) → Prop where
  | plain : b.WrittenAs b.members
  | nullShelf : b.shelf = none → b.WrittenAs (b.members ++ [("shelf_id", .null)])

theorem WrittenAs.means {own : List (String × Json)} (h : b.WrittenAs own) :
    ∃ vs, Declared fieldNames vs own ∧ b.Means vs := by
  have hmeans (shelf : Option Json) (hshelf : Json.optional? Identifier.ofJson? shelf = some b.shelf) :
      b.Means [some (.ofText b.isbn), some (.ofText b.title), some (.array (b.authors.map .ofText)),
        some (.ofText b.publisher), some (.ofInt b.publicationYear.toInt), some (.ofInt b.numberOfPages.toInt),
        shelf] :=
    ⟨text?_ofText _, text?_ofText _, texts?_ofTexts _, text?_ofText _, int32OfJson?_ofInt _, int32OfJson?_ofInt _,
      hshelf⟩
  have hshelf := optional?_toJson b.shelf
  cases h with
  | plain =>
    refine ⟨_, ?_, hmeans _ hshelf⟩
    rw [members]
    cases b.shelf with
    | none => exact .given (.given (.given (.given (.given (.given (.missing .nil))))))
    | some id => exact .given (.given (.given (.given (.given (.given (.given .nil))))))
  | nullShelf hnone =>
    rw [hnone] at hshelf
    refine ⟨_, ?_, hmeans (some .null) (hnone ▸ hshelf)⟩
    rw [members, hnone]
    exact .given (.given (.given (.given (.given (.given (.given .nil))))))

/-- What is written for a book can stand in any order and among other members. -/
theorem WrittenAs.arranges {own ms foreign : List (String × Json)} (h : b.WrittenAs own)
    (hperm : ms.Perm (own ++ foreign)) (hforeign : ∀ m ∈ foreign, m.1 ∉ fieldNames) :
    b.Arranges (ms.map fun m => member m.1 m.2) := by
  obtain ⟨vs, hown, hmeans⟩ := h.means
  exact ⟨mapM_namedMember? ms, hperm, hown, hmeans, hforeign⟩

/-- **What decides whether an object can be a book**: every field occurs once, but for the shelf, which may be
    missing. -/
theorem occurrences_of_arranges (h : b.Arranges members) (hname : name ∈ fieldNames) :
    occurrences members name ≤ 1 ∧ (name ≠ "shelf_id" → occurrences members name = 1) := by
  obtain ⟨vs, hvs, hmeans⟩ := ofJson?_eq_some_iff.mp (ofJson?_object_eq_some_iff.mpr h)
  have hcounts := occurrences_of_fieldValues? hvs
  cases hmeans with
  | @intro isbn title authors publisher year pages shelf =>
    have hshelf : shelf.toList.length ≤ 1 := by cases shelf <;> simp
    simp only [fieldNames, List.map_cons, List.map_nil, List.cons.injEq, Option.toList_some, List.length_singleton,
      and_true] at hcounts
    simp only [fieldNames, List.mem_cons, List.not_mem_nil, or_false] at hname
    rcases hname with rfl | rfl | rfl | rfl | rfl | rfl | rfl
    case inr.inr.inr.inr.inr.inr => exact ⟨by omega, fun h => absurd rfl h⟩
    all_goals exact ⟨by omega, fun _ => by omega⟩

end Book

/-! ## Texts -/

namespace Json

/-- A text of a tree, with blanks anywhere between its tokens. -/
inductive TextOf (j : Json) (text : String) : Prop where
  | intro {ws cs ws' : List Char} : text.toList = ws ++ (cs ++ ws') → Blanks ws → Blanks ws' → Written j cs →
      TextOf j text

/-- **A text of a tree is read as that tree.** -/
theorem read?_of_textOf {j : Json} {text : String} (h : TextOf j text) : read? text = some j := by
  obtain ⟨htext, hws, hws', hwritten⟩ := h
  rw [read?, htext, ofChars?_of_written hwritten hws hws']

theorem textOf_render {j : Json} (layout : Layout) (h : j.Sound) : TextOf j (render layout j) := by
  refine ⟨?_, blanks_nil, blanks_nil, written_renderAt layout 0 h⟩
  rw [render, String.toList_ofList, List.nil_append, List.append_nil]

end Json

/-! ## Result -/

namespace Book

variable {members before after : List (List Piece × Json)} {m : List Piece × Json} {name : String} {text : String}

theorem readJson?_of_textOf (h : TextOf (.object members) text) : readJson? text = ofJson? (.object members) := by
  rw [readJson?, read?_of_textOf h, Option.bind_some]

/-- An object without a field, or with one twice, is no book. -/
theorem readJson?_eq_none (h : TextOf (.object members) text) (hname : name ∈ fieldNames)
    (hcount : 1 < occurrences members name ∨ name ≠ "shelf_id" ∧ occurrences members name = 0) :
    readJson? text = none := by
  rw [readJson?_of_textOf h, Option.eq_none_iff_forall_ne_some]
  intro b hb
  obtain ⟨hmost, hleast⟩ := occurrences_of_arranges (ofJson?_object_eq_some_iff.mp hb) hname
  rcases hcount with hcount | ⟨hshelf, hcount⟩
  · omega
  · have hone := hleast hshelf
    omega

theorem occurrences_insert (h : Named m name) :
    occurrences (before ++ m :: after) name = occurrences (before ++ after) name + 1 := by
  simp only [occurrences, List.countP_append, List.countP_cons, h, decide_true, if_true]
  omega

/-- **A book is read from its members in any order, among others, and with blanks between any tokens**: whatever
    values members of other names have, they say nothing. More generally an object is read as a book exactly if its
    fields have the values that mean the attributes of the book. If one of them is left out, the shelf apart, or one
    stands twice, no book is read at all. -/
theorem readJson?_arrangement (b : Book) :
    (∀ (own foreign ms : List (String × Json)) (text : String), b.WrittenAs own →
      (∀ m ∈ foreign, m.1 ∉ fieldNames) → ms.Perm (own ++ foreign) →
      TextOf (.object (ms.map fun m => member m.1 m.2)) text → readJson? text = some b) ∧
    (∀ members text, TextOf (.object members) text → (readJson? text = some b ↔ b.Arranges members)) ∧
    (∀ before m after name text, b.Arranges (before ++ m :: after) → Named m name → name ∈ fieldNames →
      name ≠ "shelf_id" → TextOf (.object (before ++ after)) text → readJson? text = none) ∧
    ∀ before m after name text, (∃ other ∈ before ++ after, Named other name) → Named m name → name ∈ fieldNames →
      TextOf (.object (before ++ m :: after)) text → readJson? text = none := by
  refine ⟨?_, ?_, ?_, ?_⟩
  · intro own foreign ms text hown hforeign hperm htext
    rw [readJson?_of_textOf htext]
    exact ofJson?_object_eq_some_iff.mpr (hown.arranges hperm hforeign)
  · intro members text htext
    rw [readJson?_of_textOf htext, ofJson?_object_eq_some_iff]
  · intro before m after name text harranges hm hname hshelf htext
    refine readJson?_eq_none htext hname (.inr ⟨hshelf, ?_⟩)
    have hone := (occurrences_of_arranges harranges hname).2 hshelf
    rw [occurrences_insert hm] at hone
    omega
  · rintro before m after name text ⟨other, hother, hnamed⟩ hm hname htext
    refine readJson?_eq_none htext hname (.inl ?_)
    have hpos : 0 < occurrences (before ++ after) name := List.countP_pos_iff.mpr ⟨other, hother, by simpa using hnamed⟩
    rw [occurrences_insert hm]
    omega

/-- The members of a book without the first, from the last to the second, and another member before them. -/
def sampleMembers : List (String × Json) := [
  ("note", .array [.null, .object [member "isbn" .null]]), ("shelf_id", .null), ("number_of_pages", .ofInt 0),
  ("publication_year", .ofInt (-7)), ("publisher", .ofText ""), ("authors", .array []), ("title", .ofText "T")]

/-- The text of an object with some members. -/
def objectText (ms : List (String × Json)) : String := render .pretty (.object (ms.map fun m => member m.1 m.2))

theorem textOf_objectText {ms : List (String × Json)} (h : ∀ m ∈ ms, m.2.Sound) :
    TextOf (.object (ms.map fun m => member m.1 m.2)) (objectText ms) :=
  textOf_render .pretty (sound_members h)

theorem sound_sampleMembers : ∀ m ∈ sampleMembers, m.2.Sound := by
  have hnote : Json.Sound (.array [.null, .object [member "isbn" .null]]) := by
    refine .array fun j hj => ?_
    simp only [List.mem_cons, List.not_mem_nil, or_false] at hj
    rcases hj with rfl | rfl
    · exact .null
    · have hisbn : ∀ m ∈ [("isbn", Json.null)], m.2.Sound := List.forall_mem_singleton.mpr .null
      exact sound_members hisbn
  intro m hm
  simp only [sampleMembers, List.mem_cons, List.not_mem_nil, or_false] at hm
  rcases hm with rfl | rfl | rfl | rfl | rfl | rfl | rfl
  · exact hnote
  · exact .null
  · exact sound_ofInt 0
  · exact sound_ofInt (-7)
  · exact sound_ofText ""
  · exact .array nofun
  · exact sound_ofText "T"

/-- The book that the members are written for, with a member for its ISBN behind them. -/
def sampleBook : Book := { blank with title := "T", publicationYear := -7 }

theorem sample_arrangement :
    readJson? (objectText (sampleMembers ++ [("isbn", .ofText "")])) = some sampleBook ∧
    readJson? (objectText sampleMembers) = none ∧
    readJson? (objectText (("shelf_id", .ofInt 1) :: (sampleMembers ++ [("isbn", .ofText "")]))) = none := by
  have hwritten : sampleBook.WrittenAs (sampleBook.members ++ [("shelf_id", .null)]) := .nullShelf rfl
  have hforeign : ∀ m ∈ [("note", Json.array [.null, .object [member "isbn" .null]])], m.1 ∉ fieldNames :=
    List.forall_mem_singleton.mpr (by decide +kernel)
  have hperm := (List.reverse_perm (sampleMembers ++ [("isbn", Json.ofText "")])).symm
  have hwhole : ∀ m ∈ sampleMembers ++ [("isbn", Json.ofText "")], m.2.Sound :=
    List.forall_mem_append.mpr ⟨sound_sampleMembers, List.forall_mem_singleton.mpr (sound_ofText "")⟩
  obtain ⟨hread, -, hmissing, htwice⟩ := readJson?_arrangement sampleBook
  refine ⟨hread _ _ _ _ hwritten hforeign hperm (textOf_objectText hwhole), ?_, ?_⟩
  · exact hmissing (sampleMembers.map fun m : String × Json => member m.1 m.2) (member "isbn" (.ofText "")) [] "isbn" _
      (hwritten.arranges hperm hforeign) (named_member "isbn" _) (by decide +kernel) (by decide +kernel)
      (textOf_objectText sound_sampleMembers)
  · have hsound : ∀ m ∈ ("shelf_id", Json.ofInt 1) :: (sampleMembers ++ [("isbn", Json.ofText "")]), m.2.Sound :=
      List.forall_mem_cons.mpr ⟨sound_ofInt 1, hwhole⟩
    exact htwice [] (member "shelf_id" (.ofInt 1)) _ "shelf_id" _ ⟨_, .tail _ (.head _), named_member "shelf_id" .null⟩
      (named_member "shelf_id" _) (by decide +kernel) (textOf_objectText hsound)

end Book

end LibraryCatalog
