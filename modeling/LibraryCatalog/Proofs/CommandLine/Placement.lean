import LibraryCatalog.Proofs.CommandLine.Answer

/-!
# `LibraryCatalog.Proofs.CommandLine.Placement` — where the record files of a command line stand

Record files can be given before the name of a command and after it, and those after it take the place of those
before it. So it makes no difference on which side they stand as long as all of them stand on one. If some stand on
either side, those before the name are passed over, and the command answers as if they had not been given.

## Contents
- **Record files.** `Item.source?`, `sources` of some items.
- **Leaving out.** `Given.AgreesOffLoads`; items say what they say without their record files, and these:
  `settings?_foldr`.
- **Lines.** `Line.rest`, a line without its record files, and `Line.inForce`; `invocation?_eq_rest`.
- **Result.** `outcome_of_one_side`, with a line of which one record file is passed over.
-/

namespace LibraryCatalog.CommandLine

open Text Search

/-! ## Record files -/

/-- Whether an item is an option for a record file. -/
def Item.isLoad : Item → Bool
  | .value v => v.option == "load"
  | _ => false

/-- The record file that an item gives. -/
def Item.source? : Item → Option ShelfSource
  | .value v => if v.option == "load" then shelfSource? v.text else none
  | _ => none

/-- The record files of some items, in their order. -/
def sources (items : List Item) : List ShelfSource := items.filterMap Item.source?

/-- The items that are no options for record files. -/
def withoutLoads (items : List Item) : List Item := items.filter fun item => !item.isLoad

/-- Every option for a record file gives one. -/
def LoadsUnderstood (items : List Item) : Prop := ∀ item ∈ items, item.isLoad = true → item.source?.isSome = true

instance (items : List Item) : Decidable (LoadsUnderstood items) :=
  inferInstanceAs (Decidable (∀ item ∈ items, item.isLoad = true → item.source?.isSome = true))

theorem loadsUnderstood_withoutLoads (items : List Item) : LoadsUnderstood (withoutLoads items) := by
  intro item hitem hload
  have hnot := (List.mem_filter.mp hitem).2
  rw [hload] at hnot
  cases hnot

/-! ## Leaving out -/

/-- The record files that are given. -/
def Given.loads? (g : Given) : Except Stop (List ShelfSource) :=
  (g.valuesOf "load").mapM fun text => understood (shelfSource? text)

/-- The same is given but for record files. -/
structure Given.AgreesOffLoads (g g' : Given) : Prop where
  values : ∀ name, name ≠ "load" → g.valuesOf name = g'.valuesOf name
  flags : g.flags = g'.flags
  words : g.words = g'.words

variable {g g' : Given} {items : List Item}

theorem valuesOf_withValue (v : OptionValue) (g : Given) (name : String) :
    (g.withValue v).valuesOf name = (if v.option = name then [v.text] else []) ++ g.valuesOf name := by
  rw [Given.withValue, Given.valuesOf, List.filter_cons]
  by_cases h : v.option = name <;> simp [h, Given.valuesOf]

/-- **Leaving out record files** leaves everything else, by induction on the items. -/
theorem agreesOffLoads_withoutLoads (items : List Item) (g : Given) :
    ((withoutLoads items).foldr Item.addTo g).AgreesOffLoads (items.foldr Item.addTo g) := by
  induction items with
  | nil => exact ⟨fun _ _ => rfl, rfl, rfl⟩
  | cons item items ih =>
    obtain ⟨hvalues, hflags, hwords⟩ := ih
    cases item with
    | value v =>
      by_cases hload : v.option = "load"
      · have hleft : withoutLoads (.value v :: items) = withoutLoads items :=
          List.filter_cons_of_neg (by simp [Item.isLoad, hload])
        rw [hleft]
        -- the option that is left out is looked up under its own name only
        refine ⟨fun name hname => ?_, hflags, hwords⟩
        have hother : v.option ≠ name := fun h => hname (h.symm.trans hload)
        rw [List.foldr_cons, Item.addTo, valuesOf_withValue, if_neg hother, List.nil_append, hvalues name hname]
      · have hkept : withoutLoads (.value v :: items) = .value v :: withoutLoads items :=
          List.filter_cons_of_pos (by simp [Item.isLoad, hload])
        rw [hkept]
        refine ⟨fun name hname => ?_, hflags, hwords⟩
        rw [List.foldr_cons, List.foldr_cons, Item.addTo, valuesOf_withValue, valuesOf_withValue, hvalues name hname]
    | flag name => exact ⟨hvalues, congrArg (name :: ·) hflags, hwords⟩
    | word w => exact ⟨hvalues, hflags, congrArg (w :: ·) hwords⟩

/-- **The record files of items** are what these give, by induction on the items. -/
theorem loads?_foldr (h : LoadsUnderstood items) (words : List String) :
    (items.foldr Item.addTo ⟨[], [], words⟩).loads? = .ok (sources items) := by
  induction items with
  | nil => rfl
  | cons item items ih =>
    obtain ⟨hitem, hitems⟩ := List.forall_mem_cons.mp h
    have ih := ih hitems
    cases item with
    | flag name => exact ih
    | word w => exact ih
    | value v =>
      rw [List.foldr_cons, Item.addTo, Given.loads?, valuesOf_withValue]
      by_cases hload : v.option = "load"
      · obtain ⟨s, hs⟩ := Option.isSome_iff_exists.mp (hitem (by simp [Item.isLoad, hload]))
        have hread : shelfSource? v.text = some s := by simpa [Item.source?, hload] using hs
        have hsources : sources (.value v :: items) = s :: sources items := List.filterMap_cons_some hs
        rw [if_pos hload, List.singleton_append, List.mapM_cons, hread, ← Given.loads?, ih, hsources]
        rfl
      · have hnone : (Item.value v).source? = none := if_neg (by simpa using hload)
        have hsources : sources (.value v :: items) = sources items := List.filterMap_cons_none hnone
        rw [if_neg hload, List.nil_append, ← Given.loads?, ih, hsources]

/-- What agrees but for record files says the same but for them. -/
theorem settings?_of_agreesOffLoads (h : g.AgreesOffLoads g') {loads loads' : List ShelfSource}
    (hloads : g.loads? = .ok loads) (hloads' : g'.loads? = .ok loads') (level : Level) :
    g'.settings? level = (fun s => { s with loads := loads' }) <$> g.settings? level := by
  have honly {α : Type} (name : String) (read : String → Option α) (hname : name ≠ "load") :
      g'.only? name read = g.only? name read := by
    rw [Given.only?, Given.only?, h.values name hname]
  have hflag : g'.flag? "json" = g.flag? "json" := by
    rw [Given.flag?, Given.flag?, Given.countOf, Given.countOf, h.flags]
  have hword : g'.word? level.word = g.word? level.word := by
    cases level.word <;> simp only [Given.word?, h.words]
  rw [Given.loads?] at hloads hloads'
  simp only [Given.settings?, honly "config" path? (by decide), honly "room" number? (by decide),
    honly "row" number? (by decide), honly "shelf" number? (by decide), hflag, hword, hloads, hloads']
  -- both read the same in the same order, and stop at the same refusal
  simp only [map_bind, map_pure]
  rfl

/-- What items say is what the others say, and their record files. -/
theorem settings?_foldr (h : LoadsUnderstood items) (words : List String) (level : Level) :
    (items.foldr Item.addTo ⟨[], [], words⟩).settings? level =
      (fun s => { s with loads := sources items }) <$>
        ((withoutLoads items).foldr Item.addTo ⟨[], [], words⟩).settings? level :=
  settings?_of_agreesOffLoads (agreesOffLoads_withoutLoads items _)
    (loads?_foldr (loadsUnderstood_withoutLoads items) words) (loads?_foldr h words) level

/-! ## Lines -/

/-- A line without its record files. -/
def Line.rest (line : Line) : Line :=
  { line with before := withoutLoads line.before, after := withoutLoads line.after }

/-- The record files of a line that are not passed over: those after the name, or else those before it. -/
def Line.inForce (line : Line) : List ShelfSource :=
  if (sources line.after).isEmpty then sources line.before else sources line.after

/-- Which command is asked for does not depend on record files. -/
theorem ofSettings?_loads (name : String) (s : Settings) (loads : List ShelfSource) :
    Command.ofSettings? name { s with loads := loads } = Command.ofSettings? name s := by
  unfold Command.ofSettings?
  split <;> rfl

/-- **A line asks for what it asks for without its record files**, and for those that are in force. -/
theorem invocation?_eq_rest {line : Line} (hbefore : LoadsUnderstood line.before)
    (hafter : LoadsUnderstood line.after) :
    line.invocation? = (fun i => { i with loads := line.inForce }) <$> line.rest.invocation? := by
  have houter : line.outer.settings? outerLevel =
      (fun s => { s with loads := sources line.before }) <$> line.rest.outer.settings? outerLevel :=
    settings?_foldr hbefore [] outerLevel
  have hinner : line.inner.settings? (innerLevel line.name) =
      (fun s => { s with loads := sources line.after }) <$> line.rest.inner.settings? (innerLevel line.name) :=
    settings?_foldr hafter (line.words.getD []) (innerLevel line.name)
  rw [Line.invocation?, hinner, houter, Line.invocation?]
  simp only [map_bind, map_pure, bind_map_left, ofSettings?_loads]
  rfl

/-- A line whose items fit, and whose options for record files all give one. -/
structure Line.Sound (line : Line) : Prop extends line.Fits where
  before_understood : LoadsUnderstood line.before
  after_understood : LoadsUnderstood line.after

/-! ## Result -/

variable {files : Files} {env : Configuration.Environment} {line front : Line} {i : Invocation}

theorem ofArguments_eq_rest (h : line.Sound) :
    Invocation.ofArguments line.arguments =
      (fun i => { i with loads := line.inForce }) <$> line.rest.invocation? := by
  rw [Line.ofArguments_arguments h.toFits, invocation?_eq_rest h.before_understood h.after_understood]

/-- A line for showing a record file asks for nothing else. -/
theorem command_of_name_parse (hname : line.name = "parse") (h : line.invocation? = .ok i) :
    ∃ file json, i.command = .parse file json := by
  simp only [Line.invocation?, bind_eq_ok_iff] at h
  obtain ⟨inner, -, command, hcommand, outer, -, ⟨⟩⟩ := h
  rw [hname] at hcommand
  obtain ⟨file, -, ⟨⟩⟩ := bind_eq_ok_iff.mp hcommand
  exact ⟨file, inner.json, rfl⟩

/-- Lines with the same record files in force look the same. -/
theorem outcome_eq_of_inForce (h : line.Sound) (h' : front.Sound) (hrest : line.rest = front.rest)
    (hforce : line.inForce = front.inForce) :
    outcome files env line.arguments = outcome files env front.arguments := by
  rw [outcome, outcome, ofArguments_eq_rest h, ofArguments_eq_rest h', hrest, hforce]

/-- Where a record file is shown, other ones make no difference. -/
theorem outcome_eq_of_parse (h : line.Sound) (h' : front.Sound) (hrest : line.rest = front.rest)
    (hname : line.name = "parse") : outcome files env line.arguments = outcome files env front.arguments := by
  rw [outcome, outcome, ofArguments_eq_rest h, ofArguments_eq_rest h', ← hrest]
  cases hread : line.rest.invocation? with
  | error e => rfl
  | ok i =>
    -- the two invocations have different record files, which the command does not look at
    obtain ⟨config, loads, command⟩ := i
    have hrestName : line.rest.name = "parse" := hname
    obtain ⟨file, json, rfl⟩ := command_of_name_parse hrestName hread
    rfl

/-- What a search prints, however it was asked for. -/
theorem outcome_of_search {content : String → List Book} {args : List String} {loads : List ShelfSource}
    {expression : String} (hargs : Invocation.ofArguments args = .ok ⟨none, loads, .search expression false⟩)
    (hc : resolveConfiguration files env none = .ok .empty) (hcount : loads.length ≤ Identifier.limit)
    (hbooks : ∀ s ∈ loads, files.books s.file = .ok (content s.file)) :
    let placed := Log.ofSources content loads
    let found := placed.filter fun x => (Query.ofText expression).selects x.1
    outcome files env args =
      ⟨0, linesText (found.flatMap searchBlock ++ [searchSummary expression found.length placed.length]), none⟩ := by
  obtain ⟨l, -, hholds, hrun⟩ :=
    run_of_good_files (i := ⟨none, loads, .search expression false⟩) nofun hc hcount hbooks
  exact outcome_of_run_ok hargs (hrun.trans (onLibrary_search hholds expression))

/-- **It makes no difference where record files stand, as long as all stand on one side** of the name of the command:
    the line looks the same with all of them in front. Nor does it if a record file is shown, since no other one is
    read then. But as soon as one stands after the name, the line looks as if those after the name were all that are
    given. -/
theorem outcome_of_one_side (files : Files) (env : Configuration.Environment) (h : line.Sound) (h' : front.Sound)
    (hrest : line.rest = front.rest) (hnone : sources front.after = []) :
    (sources front.before = sources line.before ++ sources line.after →
      line.name = "parse" ∨ sources line.before = [] ∨ sources line.after = [] →
        outcome files env line.arguments = outcome files env front.arguments) ∧
    (sources front.before = sources line.after → sources line.after ≠ [] →
      outcome files env line.arguments = outcome files env front.arguments) := by
  have hfront : front.inForce = sources front.before := by
    rw [Line.inForce, hnone]
    rfl
  constructor
  · rintro hall (hname | hbefore | hafter)
    · exact outcome_eq_of_parse h h' hrest hname
    · refine outcome_eq_of_inForce h h' hrest ?_
      rw [hfront, hall, hbefore, Line.inForce, hbefore]
      cases sources line.after <;> rfl
    · refine outcome_eq_of_inForce h h' hrest ?_
      rw [hfront, hall, hafter, Line.inForce, hafter, List.append_nil]
      rfl
  · intro hlast hne
    refine outcome_eq_of_inForce h h' hrest ?_
    rw [hfront, hlast, Line.inForce, if_neg (by simpa using hne)]

/-- An option for a record file, with its value attached. -/
def loadItem (text : String) : Item := .value ⟨"load", text, true⟩

theorem sample_one_side :
    outcome sampleRecords ⟨none, none⟩ ["inventory", "--room=1", "--load=1/1/1=a"] =
      outcome sampleRecords ⟨none, none⟩ ["--load=1/1/1=a", "inventory", "--room=1"] ∧
    outcome sampleRecords ⟨none, none⟩ ["--load=1/1/1=a", "search", "A", "--load=1/1/2=b"] =
      outcome sampleRecords ⟨none, none⟩ ["--load=1/1/2=b", "search", "A"] := by
  have hinventory : Line.Sound ⟨[], "inventory", [.value ⟨"room", "1", true⟩, loadItem "1/1/1=a"], none⟩ :=
    ⟨⟨⟨.inventory ⟨1, none, none⟩ false, rfl⟩, by decide +kernel, by decide +kernel⟩, by decide +kernel,
      by decide +kernel⟩
  have hinventory' : Line.Sound ⟨[loadItem "1/1/1=a"], "inventory", [.value ⟨"room", "1", true⟩], none⟩ :=
    ⟨⟨⟨.inventory ⟨1, none, none⟩ false, rfl⟩, by decide +kernel, by decide +kernel⟩, by decide +kernel,
      by decide +kernel⟩
  have hsearch : Line.Sound ⟨[loadItem "1/1/1=a"], "search", [.word "A", loadItem "1/1/2=b"], none⟩ :=
    ⟨⟨⟨.search "A" false, rfl⟩, by decide +kernel, by decide +kernel⟩, by decide +kernel, by decide +kernel⟩
  have hsearch' : Line.Sound ⟨[loadItem "1/1/2=b"], "search", [.word "A"], none⟩ :=
    ⟨⟨⟨.search "A" false, rfl⟩, by decide +kernel, by decide +kernel⟩, by decide +kernel, by decide +kernel⟩
  exact ⟨(outcome_of_one_side _ _ hinventory hinventory' rfl rfl).1 rfl (.inr (.inl rfl)),
    (outcome_of_one_side _ _ hsearch hsearch' rfl rfl).2 rfl (by decide +kernel)⟩

/-- **Record files on either side of the name are not the same as all of them in front**: the one before the name is
    passed over, and a book that it holds is not found. -/
theorem sample_passed_over :
    outcome sampleRecords ⟨none, none⟩ ["--load=1/1/1=a", "search", "A", "--load=1/1/2=b"] =
      ⟨0, "0 of 2 books match \"A\"\n", none⟩ ∧
    outcome sampleRecords ⟨none, none⟩ ["--load=1/1/1=a", "--load=1/1/2=b", "search", "A"] =
      ⟨0, "[1/1/1] A\n1 of 3 books match \"A\"\n", none⟩ := by
  have hargs : Invocation.ofArguments ["--load=1/1/1=a", "search", "A", "--load=1/1/2=b"] =
      .ok ⟨none, [⟨⟨1, 1, 2⟩, "b"⟩], .search "A" false⟩ := rfl
  have hargs' : Invocation.ofArguments ["--load=1/1/1=a", "--load=1/1/2=b", "search", "A"] =
      .ok ⟨none, [⟨⟨1, 1, 1⟩, "a"⟩, ⟨⟨1, 1, 2⟩, "b"⟩], .search "A" false⟩ := rfl
  have hb : sampleRecords.books "b" = .ok (sampleContent "b") := rfl
  have ha : sampleRecords.books "a" = .ok (sampleContent "a") := rfl
  constructor
  · exact (outcome_of_search hargs rfl (by decide) (List.forall_mem_singleton.mpr hb)).trans (by decide +kernel)
  · exact (outcome_of_search hargs' rfl (by decide)
      (List.forall_mem_cons.mpr ⟨ha, List.forall_mem_singleton.mpr hb⟩)).trans (by decide +kernel)

end LibraryCatalog.CommandLine
