import LibraryCatalog.CommandLine.Run
import LibraryCatalog.Proofs.Library.Sources

/-!
# `LibraryCatalog.Proofs.CommandLine.Stages` — the first stage that fails is reported

A run reads the configuration, then the record files, and then gives its answer. Each of these is a stage, and
whether it fails is said by the files and by the command alone, without running anything. However many stages would
fail, what can be seen is the failure of the first one, and nothing is printed then.

## Contents
- **Running.** `loadLibrary_eq`, `run_of_usesLibrary`, `outcome_congr`.
- **Stages.** `Stage`, the reasons for which one fails, `Stage.Fails`, and `Invocation.stages` in their order.
- **Reports.** `Reports`, what a computation must say about stages, and `Reports.bind` for one after another.
- **Result.** `stages_run` for what is printed, and `outcome_reports_first_failure`.
-/

namespace LibraryCatalog.CommandLine

variable {files files' : Files} {env : Configuration.Environment} {args args' : List String} {i i' : Invocation}

/-! ## Running -/

theorem eq_ok_of_mapError {ε ε' α : Type} {x : Except ε α} {f : ε → ε'} {a : α} (h : x.mapError f = .ok a) :
    x = .ok a := by
  cases x with
  | error e => cases h
  | ok a' => exact congrArg Except.ok (Except.ok.inj h)

/-- A command that answers from a library. -/
def Command.UsesLibrary (c : Command) : Prop := ∀ file json, c ≠ .parse file json

/-- **The record files of a configuration and further ones** are loaded as one list. -/
theorem loadLibrary_eq (files : Files) (c : Configuration) (loads : List ShelfSource) :
    loadLibrary files c loads =
      (Library.empty.loadAll files (c.shelves ++ loads)).2.map
        fun _ => (Library.empty.loadAll files (c.shelves ++ loads)).1 := by
  rw [Library.loadAll_append, loadLibrary, Library.populate]
  rcases Library.empty.loadAll files c.shelves with ⟨l, _ | _⟩
  · rfl
  · dsimp only
    rcases l.loadAll files loads with ⟨l', _ | _⟩ <;> rfl

/-- A library is loaded if all record files are good, and it holds their books. -/
theorem loadLibrary_eq_ok_iff {c : Configuration} {loads : List ShelfSource} {l : Library} :
    loadLibrary files c loads = .ok l ↔ Library.empty.loadAll files (c.shelves ++ loads) = (l, .ok ()) := by
  rw [loadLibrary_eq]
  rcases Library.empty.loadAll files (c.shelves ++ loads) with ⟨l', e | _⟩
  · exact iff_of_false nofun nofun
  · constructor
    · intro h
      obtain rfl : l' = l := Except.ok.inj h
      rfl
    · intro h
      exact congrArg Except.ok (congrArg Prod.fst h)

theorem loadLibrary_eq_error_iff {c : Configuration} {loads : List ShelfSource} {e : LoadError} :
    loadLibrary files c loads = .error e ↔ files.FirstFails (c.shelves ++ loads) e := by
  rw [loadLibrary_eq, ← Library.loadAll_snd_eq_error_iff (l := .empty)]
  cases (Library.empty.loadAll files (c.shelves ++ loads)).2 with
  | error e' =>
    show (Except.error e' : Except LoadError Library) = .error e ↔ _
    rw [Except.error.injEq, Except.error.injEq]
  | ok _ => exact iff_of_false nofun nofun

theorem run_of_usesLibrary (h : i.command.UsesLibrary) :
    run files env i =
      (resolveConfiguration files env i.config).mapError .configuration >>= fun c =>
        (loadLibrary files c i.loads).mapError .load >>= i.command.onLibrary := by
  obtain ⟨config, loads, command⟩ := i
  cases command with
  | parse file json => exact absurd rfl (h file json)
  | _ => rfl

theorem run_parse (config : Option String) (loads : List ShelfSource) (path : String) (json : Bool) :
    run files env ⟨config, loads, .parse path json⟩ =
      (resolveConfiguration files env config).mapError Failure.configuration >>= fun _ =>
        (showFile files path json).mapError .load := rfl

/-- Showing a record file shows its books. -/
theorem showFile_eq (files : Files) (path : String) (json : Bool) :
    showFile files path json = (files.books path).map (listing none json) := by
  rw [showFile, Files.books]
  cases files.recordText path with
  | error e => rfl
  | ok text =>
    show ((Book.read text).mapError LoadError.format >>= _) = ((Book.read text).mapError LoadError.format).map _
    cases Book.read text <;> rfl

theorem outcome_of_ofArguments (h : Invocation.ofArguments args = .ok i) :
    outcome files env args =
      match (run files env i).mapError Failure.code with
      | .ok stdout => ⟨0, stdout, none⟩
      | .error code => ⟨1, "", code⟩ := by
  rw [outcome, h]
  cases hrun : run files env i <;> simp only [hrun] <;> rfl

theorem outcome_of_run_ok (h : Invocation.ofArguments args = .ok i) {stdout : String}
    (hrun : run files env i = .ok stdout) : outcome files env args = ⟨0, stdout, none⟩ := by
  rw [outcome_of_ofArguments h, hrun]
  rfl

theorem outcome_of_run_error (h : Invocation.ofArguments args = .ok i) {f : Failure}
    (hrun : run files env i = .error f) : outcome files env args = ⟨1, "", f.code⟩ := by
  rw [outcome_of_ofArguments h, hrun]
  rfl

/-- Runs that print the same, or fail with the same code, look the same. -/
theorem outcome_congr {env' : Configuration.Environment} (h : Invocation.ofArguments args = .ok i)
    (h' : Invocation.ofArguments args' = .ok i')
    (hrun : (run files env i).mapError Failure.code = (run files' env' i').mapError Failure.code) :
    outcome files env args = outcome files' env' args' := by
  rw [outcome_of_ofArguments h, outcome_of_ofArguments h', hrun]

/-! ## Stages -/

/-- What a run does, one thing after the other. -/
inductive Stage where
  | readConfiguration (path : String)
  | parseConfiguration (path : String)
  | readRecords (path : String)
  | parseRecords (path : String)
  /-- A command answers from the books of some record files. -/
  | answer (command : Command) (sources : List ShelfSource)
deriving Repr, DecidableEq

/-- A stage fails with a code, or without one. -/
inductive Stage.Fails (files : Files) : Stage → Option String → Prop where
  | readConfiguration {path : String} {cause : ReadFailure} : files.read path = .error cause →
      Fails files (.readConfiguration path) (some "shelfmark::config::read")
  | parseConfiguration {path text : String} : files.read path = .ok text → Configuration.ofToml? text = none →
      Fails files (.parseConfiguration path) (some "shelfmark::config::parse")
  | readRecords {path : String} {cause : ReadFailure} : files.read path = .error cause →
      Fails files (.readRecords path) (some "shelfmark::io")
  | parseRecords {path text : String} {e : Record.FormatError} : files.read path = .ok text →
      Book.read text = .error e → Fails files (.parseRecords path) (some e.offence.code)
  /-- A shelf number without the number of its row. -/
  | inventory {q : InventoryQuery} {json : Bool} {sources : List ShelfSource} : q.shelf.isSome → q.row = none →
      Fails files (.answer (.inventory q json) sources) (some "shelfmark::inventory::shelf_without_row")
  /-- No book of any record file has the ISBN. -/
  | find {isbn : String} {sources : List ShelfSource} :
      (∀ s ∈ sources, ∀ bs, files.books s.file = .ok bs → ∀ b ∈ bs, b.isbn ≠ isbn) →
      Fails files (.answer (.find isbn) sources) none

/-- The configuration that is asked for has to be read and parsed; the one at the default path only if there is a
    file. -/
def configurationStages (files : Files) (env : Configuration.Environment) (asked : Option String) : List Stage :=
  match asked with
  | some path => [.readConfiguration path, .parseConfiguration path]
  | none =>
    match Configuration.defaultPath env with
    | .ok path => if files.isFile path then [.readConfiguration path, .parseConfiguration path] else []
    | .error _ => []

/-- Every record file is read and parsed before the next one. -/
def recordStages (paths : List String) : List Stage := paths.flatMap fun path => [.readRecords path, .parseRecords path]

/-- The record files of the configuration that is in effect, if one is. -/
def configuredSources (files : Files) (env : Configuration.Environment) (asked : Option String) : List ShelfSource :=
  match resolveConfiguration files env asked with
  | .ok c => c.shelves
  | .error _ => []

/-- The stages of an invocation in their order. -/
def Invocation.stages (files : Files) (env : Configuration.Environment) (i : Invocation) : List Stage :=
  configurationStages files env i.config ++
    match i.command with
    | .parse path _ => recordStages [path]
    | command =>
      recordStages ((configuredSources files env i.config ++ i.loads).map ShelfSource.file) ++
        [.answer command (configuredSources files env i.config ++ i.loads)]

/-- Every stage passes. -/
def AllPass (files : Files) (stages : List Stage) : Prop := ∀ s ∈ stages, ∀ code, ¬s.Fails files code

/-- Some stage fails, and all before it pass. -/
def FirstFails (files : Files) (stages : List Stage) (code : Option String) : Prop :=
  ∃ before s after, stages = before ++ s :: after ∧ AllPass files before ∧ s.Fails files code

/-- A stage fails in one way only. -/
theorem Stage.Fails.unique {s : Stage} {code code' : Option String} (h : s.Fails files code)
    (h' : s.Fails files code') : code = code' := by
  cases h with
  | parseRecords htext he =>
    cases h' with
    | parseRecords htext' he' =>
      rw [htext] at htext'
      obtain rfl := Except.ok.inj htext'
      rw [he] at he'
      rw [Except.error.inj he']
  | _ => cases h'; rfl

/-- Two stages that fail first are the same one. -/
theorem FirstFails.unique {stages : List Stage} {code code' : Option String} (h : FirstFails files stages code)
    (h' : FirstFails files stages code') : code = code' := by
  obtain ⟨before, s, after, rfl, hpass, hfails⟩ := h
  obtain ⟨before', s', after', hsplit, hpass', hfails'⟩ := h'
  rcases List.append_eq_append_iff.mp hsplit with ⟨between, rfl, htail⟩ | ⟨between, rfl, htail⟩
  · cases between with
    | nil =>
      obtain ⟨rfl, -⟩ := List.cons.inj htail
      exact hfails.unique hfails'
    | cons t between =>
      obtain ⟨rfl, -⟩ := List.cons.inj htail
      exact absurd hfails (hpass' s (by simp) code)
  · cases between with
    | nil =>
      obtain ⟨rfl, -⟩ := List.cons.inj htail
      exact hfails.unique hfails'
    | cons t between =>
      obtain ⟨rfl, -⟩ := List.cons.inj htail
      exact absurd hfails' (hpass s' (by simp) code')

theorem FirstFails.not_allPass {stages : List Stage} {code : Option String} (h : FirstFails files stages code) :
    ¬AllPass files stages := by
  obtain ⟨before, s, after, rfl, -, hfails⟩ := h
  exact fun hpass => hpass s (by simp) code hfails

/-! ## Reports -/

/-- What a computation says about stages: that all pass, or how the first one fails that does. -/
def Reports {α : Type} (files : Files) (stages : List Stage) : Except Failure α → Prop
  | .ok _ => AllPass files stages
  | .error f => FirstFails files stages f.code

section

variable {α β : Type} {as bs : List Stage} {x : Except Failure α}

/-- **Computations one after the other** report their stages one after the other. -/
theorem Reports.bind {k : α → Except Failure β} (hx : Reports files as x)
    (hk : ∀ a, x = .ok a → Reports files bs (k a)) : Reports files (as ++ bs) (x >>= k) := by
  cases x with
  | error f =>
    obtain ⟨before, s, after, rfl, hpass, hfails⟩ := hx
    exact ⟨before, s, after ++ bs, by simp, hpass, hfails⟩
  | ok a =>
    have hrest := hk a rfl
    show Reports files (as ++ bs) (k a)
    cases hka : k a with
    | error f =>
      rw [hka] at hrest
      obtain ⟨before, s, after, rfl, hpass, hfails⟩ := hrest
      exact ⟨as ++ before, s, after, (List.append_assoc ..).symm, List.forall_mem_append.mpr ⟨hx, hpass⟩, hfails⟩
    | ok b =>
      rw [hka] at hrest
      exact List.forall_mem_append.mpr ⟨hx, hrest⟩

end

theorem allPass_nil : AllPass files [] := nofun

/-- **Loading a configuration** is reading it and then parsing it. -/
theorem reports_load (files : Files) (path : String) :
    Reports files [.readConfiguration path, .parseConfiguration path]
      ((Configuration.load files path).mapError .configuration) := by
  rw [Configuration.load]
  cases hread : files.read path with
  | error cause => exact ⟨[], _, _, rfl, allPass_nil, .readConfiguration hread⟩
  | ok text =>
    have hreads (code : Option String) : ¬(Stage.readConfiguration path).Fails files code := by
      intro hfails
      cases hfails with
      | readConfiguration hread' => cases hread.symm.trans hread'
    cases htoml : Configuration.ofToml? text with
    | none =>
      simp only [htoml]
      exact ⟨[_], _, [], rfl, List.forall_mem_singleton.mpr hreads, .parseConfiguration hread htoml⟩
    | some c =>
      have hparses (code : Option String) : ¬(Stage.parseConfiguration path).Fails files code := by
        intro hfails
        cases hfails with
        | parseConfiguration hread' htoml' =>
          obtain rfl := Except.ok.inj (hread.symm.trans hread')
          cases htoml.symm.trans htoml'
      have hpass : AllPass files [.readConfiguration path, .parseConfiguration path] :=
        List.forall_mem_cons.mpr ⟨hreads, List.forall_mem_singleton.mpr hparses⟩
      simp only [htoml]
      cases Path.parent? path.toList <;> exact hpass

theorem reports_resolveConfiguration (files : Files) (env : Configuration.Environment) (asked : Option String) :
    Reports files (configurationStages files env asked)
      ((resolveConfiguration files env asked).mapError .configuration) := by
  unfold configurationStages resolveConfiguration
  cases asked with
  | some path => exact reports_load files path
  | none =>
    cases Configuration.defaultPath env with
    | error e => exact allPass_nil
    | ok path =>
      cases hfile : files.isFile path with
      | true =>
        simp only [hfile, if_true]
        exact reports_load files path
      | false =>
        simp only [hfile, if_neg Bool.false_ne_true]
        exact allPass_nil

/-- **The books of a record file** are had by reading it and then parsing it. -/
theorem reports_books (files : Files) (path : String) :
    Reports files (recordStages [path]) ((files.books path).mapError .load) := by
  rw [Files.books, Files.recordText]
  cases hread : files.read path with
  | error cause => exact ⟨[], _, _, rfl, allPass_nil, .readRecords hread⟩
  | ok text =>
    have hreads (code : Option String) : ¬(Stage.readRecords path).Fails files code := by
      intro hfails
      cases hfails with
      | readRecords hread' => cases hread.symm.trans hread'
    show Reports files _ (((Book.read text).mapError LoadError.format).mapError .load)
    cases hbooks : Book.read text with
    | error e => exact ⟨[_], _, [], rfl, List.forall_mem_singleton.mpr hreads, .parseRecords hread hbooks⟩
    | ok bs =>
      have hparses (code : Option String) : ¬(Stage.parseRecords path).Fails files code := by
        intro hfails
        cases hfails with
        | parseRecords hread' hbooks' =>
          obtain rfl := Except.ok.inj (hread.symm.trans hread')
          cases hbooks.symm.trans hbooks'
      exact List.forall_mem_cons.mpr ⟨hreads, List.forall_mem_singleton.mpr hparses⟩

/-- **Loading record files** reports them in their order, whatever the library holds, by induction on the files. -/
theorem reports_loadAll (l : Library) (files : Files) (ss : List ShelfSource) :
    Reports files (recordStages (ss.map ShelfSource.file)) ((l.loadAll files ss).2.mapError .load) := by
  induction ss generalizing l with
  | nil => exact allPass_nil
  | cons s ss ih =>
    have hstages : recordStages ((s :: ss).map ShelfSource.file) =
        recordStages [s.file] ++ recordStages (ss.map ShelfSource.file) := by
      simp [recordStages]
    have hload : (l.loadAll files (s :: ss)).2.mapError Failure.load =
        (files.books s.file).mapError .load >>= fun bs =>
          ((l.placeAll s.location bs).2.loadAll files ss).2.mapError .load := by
      cases hbooks : files.books s.file with
      | error e => rw [Library.loadAll_cons_of_error hbooks]; rfl
      | ok bs => rw [Library.loadAll_cons_of_ok hbooks]; rfl
    rw [hstages, hload]
    exact (reports_books files s.file).bind fun bs _ => ih _

theorem reports_loadLibrary (files : Files) (c : Configuration) (loads : List ShelfSource) :
    Reports files (recordStages ((c.shelves ++ loads).map ShelfSource.file))
      ((loadLibrary files c loads).mapError .load) := by
  have hload := reports_loadAll Library.empty files (c.shelves ++ loads)
  rw [loadLibrary_eq]
  cases hresult : (Library.empty.loadAll files (c.shelves ++ loads)).2 <;> (rw [hresult] at hload; exact hload)

/-- **A command answers** unless its question is wrong or nothing has the ISBN that is asked for. -/
theorem reports_onLibrary {l : Library} {sources : List ShelfSource} (command : Command)
    (h : Library.empty.loadAll files sources = (l, .ok ())) :
    Reports files [.answer command sources] (command.onLibrary l) := by
  have hpass (hanswers : ∀ code, ¬(Stage.answer command sources).Fails files code) :
      AllPass files [.answer command sources] := List.forall_mem_singleton.mpr hanswers
  cases command with
  | parse file json => exact hpass nofun
  | search expression json => exact hpass nofun
  | info => exact hpass nofun
  | inventory q json =>
    by_cases hq : q.shelf.isSome ∧ q.row = none
    · have herror := (l.inventory_eq_error_iff q).mpr hq
      simp only [Command.onLibrary, herror]
      exact ⟨[], _, [], rfl, allPass_nil, .inventory hq.1 hq.2⟩
    · simp only [Command.onLibrary, Library.inventory_eq_ok hq]
      exact hpass fun | _, .inventory hshelf hrow => hq ⟨hshelf, hrow⟩
  | find isbn =>
    have hok : (Library.empty.loadAll files sources).2 = .ok () := congrArg Prod.snd h
    obtain ⟨content, hcontent⟩ := Files.exists_content (Library.loadAll_snd_eq_ok_iff.mp hok)
    have hnone := Library.findIsbn_loadAll_eq_none_iff hcontent isbn
    have hmissing : l.findIsbn isbn = none ↔
        ∀ s ∈ sources, ∀ bs, files.books s.file = .ok bs → ∀ b ∈ bs, b.isbn ≠ isbn := by
      rw [h] at hnone
      refine hnone.trans (forall₂_congr fun s hs => ?_)
      rw [hcontent s hs]
      exact ⟨fun hall bs hbs => Except.ok.inj hbs ▸ hall, fun hall => hall _ rfl⟩
    cases hfind : l.findIsbn isbn with
    | none =>
      simp only [Command.onLibrary, hfind]
      exact ⟨[], _, [], rfl, allPass_nil, .find (hmissing.mp hfind)⟩
    | some b =>
      simp only [Command.onLibrary, hfind]
      refine hpass fun | _, .find hall => ?_
      rw [hmissing.mpr hall] at hfind
      cases hfind

/-! ## Result -/

theorem stages_of_usesLibrary (h : i.command.UsesLibrary) :
    i.stages files env =
      configurationStages files env i.config ++
        (recordStages ((configuredSources files env i.config ++ i.loads).map ShelfSource.file) ++
          [.answer i.command (configuredSources files env i.config ++ i.loads)]) := by
  obtain ⟨config, loads, command⟩ := i
  cases command with
  | parse file json => exact absurd rfl (h file json)
  | _ => rfl

/-- **What is printed** is reported by the stages of the invocation. -/
theorem stages_run (files : Files) (env : Configuration.Environment) (i : Invocation) :
    Reports files (i.stages files env) (run files env i) := by
  have hconfiguration := reports_resolveConfiguration files env i.config
  have hlibrary (h : i.command.UsesLibrary) : Reports files (i.stages files env) (run files env i) := by
    rw [stages_of_usesLibrary h, run_of_usesLibrary h]
    refine hconfiguration.bind fun c hc => ?_
    have hsources : configuredSources files env i.config = c.shelves := by
      rw [configuredSources, eq_ok_of_mapError hc]
    rw [hsources]
    refine (reports_loadLibrary files c i.loads).bind fun l hl => reports_onLibrary i.command ?_
    exact loadLibrary_eq_ok_iff.mp (eq_ok_of_mapError hl)
  obtain ⟨config, loads, command⟩ := i
  cases command with
  | parse path json =>
    have hbooks := reports_books files path
    rw [run_parse, showFile_eq]
    refine hconfiguration.bind fun c _ => ?_
    cases hresult : files.books path <;> (rw [hresult] at hbooks; exact hbooks)
  | _ => exact hlibrary nofun

theorem stdout_of_exit_ne (h : (outcome files env args).exit ≠ 0) : (outcome files env args).stdout = "" := by
  rw [outcome] at h ⊢
  cases hargs : Invocation.ofArguments args with
  | error stop => cases stop <;> rfl
  | ok i =>
    rw [hargs] at h
    cases hrun : run files env i with
    | error f => simp only [hrun]
    | ok stdout =>
      simp only [hrun] at h
      exact absurd rfl h

/-- What is shown of a record file depends on that file and on whether the configuration can be had. -/
theorem run_parse_congr {path : String} {json : Bool} {config : Option String} {loads loads' : List ShelfSource}
    (hconfiguration : ∀ code, FirstFails files (configurationStages files env config) code ↔
      FirstFails files' (configurationStages files' env config) code)
    (hread : files.read path = files'.read path) :
    (run files env ⟨config, loads, .parse path json⟩).mapError Failure.code =
      (run files' env ⟨config, loads', .parse path json⟩).mapError Failure.code := by
  have hfile : showFile files path json = showFile files' path json := by
    rw [showFile_eq, showFile_eq, Files.books_congr hread]
  have hreports := reports_resolveConfiguration files env config
  have hreports' := reports_resolveConfiguration files' env config
  rw [run_parse, run_parse, hfile]
  generalize (resolveConfiguration files env config).mapError Failure.configuration = x at hreports ⊢
  generalize (resolveConfiguration files' env config).mapError Failure.configuration = x' at hreports' ⊢
  cases x with
  | error f =>
    have hfails := (hconfiguration f.code).mp hreports
    cases x' with
    | error f' => exact congrArg Except.error (hfails.unique hreports')
    | ok _ => exact absurd hreports' hfails.not_allPass
  | ok _ =>
    cases x' with
    | error f' => exact absurd hreports ((hconfiguration f'.code).mpr hreports').not_allPass
    | ok _ => rfl

/-- **A failing command prints nothing and reports the first stage that fails.** Given arguments that name a command,
    there is an answer exactly if every stage passes, and a failure with a code exactly if the first stage that fails
    does so with that code. Showing a record file gives the same with other record files in the configuration and
    behind it, whatever these hold. -/
theorem outcome_reports_first_failure (files : Files) (env : Configuration.Environment) (args : List String) :
    ((outcome files env args).exit ≠ 0 → (outcome files env args).stdout = "") ∧
    (∀ i, Invocation.ofArguments args = .ok i →
      ((∃ stdout, outcome files env args = ⟨0, stdout, none⟩) ↔ AllPass files (i.stages files env)) ∧
      ∀ code, outcome files env args = ⟨1, "", code⟩ ↔ FirstFails files (i.stages files env) code) ∧
    ∀ files' args' config loads loads' path json,
      Invocation.ofArguments args = .ok ⟨config, loads, .parse path json⟩ →
      Invocation.ofArguments args' = .ok ⟨config, loads', .parse path json⟩ →
      (∀ code, FirstFails files (configurationStages files env config) code ↔
        FirstFails files' (configurationStages files' env config) code) →
      files.read path = files'.read path → outcome files env args = outcome files' env args' := by
  refine ⟨stdout_of_exit_ne, fun i hi => ?_, ?_⟩
  · have hreports := stages_run files env i
    cases hrun : run files env i with
    | ok stdout =>
      rw [hrun] at hreports
      rw [outcome_of_run_ok hi hrun]
      exact ⟨iff_of_true ⟨stdout, rfl⟩ hreports, fun code => iff_of_false nofun fun h => h.not_allPass hreports⟩
    | error f =>
      rw [hrun] at hreports
      rw [outcome_of_run_error hi hrun]
      refine ⟨iff_of_false nofun hreports.not_allPass, fun code => ⟨fun h => ?_, fun h => ?_⟩⟩
      · obtain rfl : f.code = code := congrArg Outcome.code h
        exact hreports
      · rw [hreports.unique h]
  · intro files' args' config loads loads' path json hargs hargs' hconfiguration hread
    exact outcome_congr hargs hargs' (run_parse_congr hconfiguration hread)

/-- A configuration that lists two record files, of which the second one has an offence. -/
def sampleFiles : Files where
  read
    | "c" => .ok "shelves = [[\"1/1/1\", \"a\"], [\"1/1/2\", \"b\"]]"
    | "a" => .ok "Book\nISBN: 1"
    | "b" => .ok "Book\nISBN"
    | _ => .error .notFound
  isFile path := ["c", "a", "b"].contains path

/-- A shelf is asked for without its row, after a record file that is missing. -/
def sampleInvocation : Invocation := ⟨some "c", [⟨⟨1, 1, 3⟩, "missing"⟩], .inventory ⟨1, none, some 1⟩ false⟩

theorem sample_first_failure :
    Invocation.ofArguments ["--config=c", "--load=1/1/3=missing", "inventory", "--room=1", "--shelf=1"] =
        .ok sampleInvocation ∧
      FirstFails sampleFiles (sampleInvocation.stages sampleFiles ⟨none, none⟩)
        (some "shelfmark::format::missing_delimiter") ∧
      outcome sampleFiles ⟨none, none⟩ ["--config=c", "parse", "a"] =
        outcome sampleFiles ⟨none, none⟩ ["--config=c", "--load=1/1/3=missing", "parse", "a"] := by
  have hargs : Invocation.ofArguments ["--config=c", "--load=1/1/3=missing", "inventory", "--room=1", "--shelf=1"] =
      .ok sampleInvocation := rfl
  obtain ⟨-, hstages, -⟩ := outcome_reports_first_failure sampleFiles ⟨none, none⟩
    ["--config=c", "--load=1/1/3=missing", "inventory", "--room=1", "--shelf=1"]
  obtain ⟨-, -, hshown⟩ := outcome_reports_first_failure sampleFiles ⟨none, none⟩ ["--config=c", "parse", "a"]
  refine ⟨hargs, ((hstages _ hargs).2 _).mp (by decide +kernel), ?_⟩
  exact hshown sampleFiles _ (some "c") [] [⟨⟨1, 1, 3⟩, "missing"⟩] "a" false rfl rfl (fun _ => .rfl) rfl

end LibraryCatalog.CommandLine
