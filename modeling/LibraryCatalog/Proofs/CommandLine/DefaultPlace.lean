import LibraryCatalog.Proofs.CommandLine.Placement
import LibraryCatalog.Proofs.CommandLine.Stages

/-!
# `LibraryCatalog.Proofs.CommandLine.DefaultPlace` — which configuration is in effect when none is asked for

The environment has a say in a run only through the file at the default path. So runs in two environments look the
same as soon as the same file is in effect in both, or none.

A variable that is set and empty is not taken for one that is not set. The directory for configurations is then the
current one, and a file that happens to stand at `shelfmark/config.toml` in it is in effect, wherever the home is.

## Contents
- **In effect.** `Configuration.defaultFile?`; `resolveConfiguration_eq`, `run_of_config` and `outcome_of_defaultFile?`.
- **Asking for a configuration.** `ofArguments_eq_ok_iff`, a command line step by step;
  `exists_ofArguments_value_append`, one more option in front, and `ofArguments_config_append`.
- **The empty variable.** `defaultPath_of_empty`, and `defaultPath_of_unset_ne`: the default path without the variable
  is never the same.
- **Result.** `outcome_of_empty_variable`, and a tree in which the empty variable makes a difference.
-/

namespace LibraryCatalog

/-! ## In effect -/

namespace Configuration

/-- The file at the default path, if there is one. -/
def defaultFile? (files : Files) (env : Environment) : Option String := (defaultPath env).toOption.filter files.isFile

end Configuration

namespace CommandLine

open LibraryCatalog.Configuration

variable {files : Files} {env env' : Environment} {args : List String}

theorem defaultFile?_of_ok {path : String} (h : defaultPath env = .ok path) :
    defaultFile? files env = if files.isFile path then some path else none := by
  rw [defaultFile?, h]
  rfl

theorem defaultFile?_eq_none (h : ∀ path, defaultPath env = .ok path → files.isFile path = false) :
    defaultFile? files env = none := by
  cases hpath : defaultPath env with
  | error e =>
    rw [defaultFile?, hpath]
    rfl
  | ok path => rw [defaultFile?_of_ok hpath, h path hpath, if_neg Bool.false_ne_true]

/-- **The configuration in effect** is the one that is asked for, or else the one at the default path. -/
theorem resolveConfiguration_eq (files : Files) (env : Environment) (asked : Option String) :
    resolveConfiguration files env asked =
      ((asked.or (defaultFile? files env)).map (load files)).getD (.ok .empty) := by
  cases asked with
  | some path => rfl
  | none =>
    rw [resolveConfiguration, Option.none_or]
    cases hpath : defaultPath env with
    | error e =>
      rw [defaultFile?, hpath]
      rfl
    | ok path =>
      rw [defaultFile?_of_ok hpath]
      dsimp only
      split <;> rfl

/-- **Where the same configuration is in effect**, a command does the same. -/
theorem run_of_config {config config' : Option String} (loads : List ShelfSource) (command : Command)
    (h : config.or (defaultFile? files env) = config'.or (defaultFile? files env')) :
    run files env ⟨config, loads, command⟩ = run files env' ⟨config', loads, command⟩ := by
  have hresolve : resolveConfiguration files env config = resolveConfiguration files env' config' := by
    rw [resolveConfiguration_eq, resolveConfiguration_eq, h]
  rw [run, run, hresolve]

/-- The environment matters only for the file at the default path. -/
theorem outcome_of_defaultFile? (h : defaultFile? files env = defaultFile? files env') (args : List String) :
    outcome files env args = outcome files env' args := by
  cases hargs : Invocation.ofArguments args with
  | error stop =>
    rw [outcome, outcome, hargs]
    cases stop <;> rfl
  | ok i =>
    have hrun : run files env i = run files env' i := run_of_config i.loads i.command (by rw [h])
    exact outcome_congr hargs hargs (by rw [hrun])

/-! ## Asking for a configuration -/

variable {g : Given} {s : Settings} {level : Level} {i : Invocation}

/-- A command line is read level by level: up to the name of a command, and behind it. -/
theorem ofArguments_eq_ok_iff :
    Invocation.ofArguments args = .ok i ↔
      ∃ given name rest settled command inner outer,
        scan outerLevel args = (given, .command name rest) ∧ given.settled.settings? outerLevel = .ok settled ∧
        name ≠ "help" ∧ Command.ofArguments name rest = .ok (command, inner) ∧
        given.settings? outerLevel = .ok outer ∧
        i = ⟨inner.config.or outer.config, if inner.loads.isEmpty then outer.loads else inner.loads, command⟩ := by
  rw [Invocation.ofArguments]
  rcases scan outerLevel args with ⟨given, ending⟩
  cases ending with
  | finished =>
    refine iff_of_false (fun h => ?_) (by simp)
    cases h
  | stop reason =>
    refine iff_of_false (fun h => ?_) (by simp)
    obtain ⟨_, -, h⟩ := bind_eq_ok_iff.mp h
    cases h
  | command name rest =>
    constructor
    · intro h
      obtain ⟨settled, hsettled, h⟩ := bind_eq_ok_iff.mp h
      split at h
      · cases h
      · next hname =>
        obtain ⟨⟨command, inner⟩, hcommand, h⟩ := bind_eq_ok_iff.mp h
        obtain ⟨outer, houter, h⟩ := bind_eq_ok_iff.mp h
        exact ⟨given, name, rest, settled, command, inner, outer, rfl, hsettled, hname, hcommand, houter,
          (Except.ok.inj h).symm⟩
    · rintro ⟨_, _, _, settled, command, inner, outer, ⟨⟩, hsettled, hname, hcommand, houter, rfl⟩
      simp only [hsettled, bind, Except.bind, if_neg hname, hcommand, houter]
      rfl

/-- An option that gives nothing has no value. -/
theorem valuesOf_of_only?_none {α : Type} {name : String} {read : String → Option α}
    (h : g.only? name read = .ok none) : g.valuesOf name = [] := by
  rw [Given.only?] at h
  obtain ⟨text?, htext, h⟩ := bind_eq_ok_iff.mp h
  cases text? with
  | some text =>
    obtain ⟨_, -, h⟩ := bind_eq_ok_iff.mp h
    cases h
  | none =>
    rcases hvalues : g.valuesOf name with _ | ⟨text, _ | ⟨_, _⟩⟩
    · rfl
    all_goals
      rw [hvalues] at htext
      cases htext

/-- A configuration that is asked for in front of other options is read with them. -/
theorem settings?_withValue_config {path : String} (hpath : path ≠ "") (h : g.settings? level = .ok s)
    (hnone : s.config = none) :
    (g.withValue ⟨"config", path, true⟩).settings? level = .ok { s with config := some path } := by
  obtain ⟨hconfig, hloads, hroom, hrow, hshelf, hjson, hword⟩ := settings?_eq_ok_iff.mp h
  have hother {name : String} (hname : "config" ≠ name) :
      (g.withValue ⟨"config", path, true⟩).valuesOf name = g.valuesOf name := by
    rw [valuesOf_withValue, if_neg hname, List.nil_append]
  have honly {name : String} {read : String → Option UInt32} (hname : "config" ≠ name) :
      (g.withValue ⟨"config", path, true⟩).only? name read = g.only? name read := by
    rw [Given.only?, Given.only?, hother hname]
  have hpath' : (g.withValue ⟨"config", path, true⟩).only? "config" path? = .ok (some path) := by
    refine given_only? id ?_ fun _ h => path?_of_ne (Option.some.inj h ▸ hpath)
    rw [hnone] at hconfig
    rw [valuesOf_withValue, if_pos rfl, valuesOf_of_only?_none hconfig]
    rfl
  -- nothing but the configuration is looked up under its name
  refine settings?_eq_ok_iff.mpr ⟨hpath', ?_, ?_, ?_, ?_, hjson, ?_⟩
  · rw [hother (by decide), hloads]
  · rw [honly (by decide), hroom]
  · rw [honly (by decide), hrow]
  · rw [honly (by decide), hshelf]
  · rw [← hword]
    cases level.word <;> rfl

/-- **One more option in front** of arguments changes what is said before the name of the command. What is said behind
    it still comes first. -/
theorem exists_ofArguments_value_append (h : Invocation.ofArguments args = .ok i) :
    ∃ (given : Given) (outer : Settings) (config : Option String) (loads : List ShelfSource),
      given.settings? outerLevel = .ok outer ∧
      i = ⟨config.or outer.config, if loads.isEmpty then outer.loads else loads, i.command⟩ ∧
      ∀ (v : OptionValue) (outer' : Settings), (Item.value v).FitsAt outerLevel →
        (given.withValue v).settings? outerLevel = .ok outer' →
        Invocation.ofArguments ((Item.value v).arguments ++ args) =
          .ok ⟨config.or outer'.config, if loads.isEmpty then outer'.loads else loads, i.command⟩ := by
  obtain ⟨given, name, rest, _, command, inner, outer, hscan, -, hname, hcommand, houter, rfl⟩ :=
    ofArguments_eq_ok_iff.mp h
  refine ⟨given, outer, inner.config, inner.loads, houter, rfl, fun v outer' hfits houter' => ?_⟩
  obtain ⟨settled, hsettled⟩ := settings?_settled houter'
  refine ofArguments_eq_ok_iff.mpr ⟨given.withValue v, name, rest, settled, command, inner, outer', ?_, hsettled, hname,
    hcommand, houter', rfl⟩
  rw [scan_item wellNamed_outerLevel hfits, hscan]
  rfl

/-- **Asking for a configuration in front** of arguments that ask for none adds that and nothing else. -/
theorem ofArguments_config_append {path : String} (hpath : path ≠ "") (h : Invocation.ofArguments args = .ok i)
    (hnone : i.config = none) :
    Invocation.ofArguments ((Item.value ⟨"config", path, true⟩).arguments ++ args) =
      .ok { i with config := some path } := by
  obtain ⟨given, outer, config, loads, houter, hi, hread⟩ := exists_ofArguments_value_append h
  rw [hi] at hnone ⊢
  obtain ⟨rfl, hconfig⟩ := Option.or_eq_none_iff.mp hnone
  exact hread _ _ (.attached (by decide)) (settings?_withValue_config hpath houter hconfig)

/-! ## The empty variable -/

/-- If the variable is empty, the path is one below the current directory. -/
theorem defaultPath_of_empty (home : Option String) :
    defaultPath ⟨some "", home⟩ = .ok "shelfmark/config.toml" := rfl

theorem length_le_join (directory path : List Char) :
    directory.length + path.length ≤ (Path.join directory path).length := by
  rw [Path.join]
  split <;> simp only [List.length_append, List.length_cons] <;> omega

/-- **If it is not set, the path is another one**, since `.config` stands in it. -/
theorem defaultPath_of_unset_ne (home : Option String) : defaultPath ⟨none, home⟩ ≠ .ok "shelfmark/config.toml" := by
  cases home with
  | none => nofun
  | some home =>
    intro h
    have hchars := congrArg String.toList (Except.ok.inj h)
    have hlength := congrArg List.length hchars
    rw [String.toList_ofList] at hlength
    -- each part of the path can only make it longer, and there is one more of them
    have hlong := length_le_join (Path.join (Path.join home.toList ".config".toList) "shelfmark".toList)
      "config.toml".toList
    have hmiddle := length_le_join (Path.join home.toList ".config".toList) "shelfmark".toList
    have hfront := length_le_join home.toList ".config".toList
    simp at hlength hlong hmiddle hfront
    omega

/-! ## Result -/

/-- **An empty variable is taken for the current directory**, and not for one that is not set. The default path is
    another one then, whatever the home is. Runs look the same with either as long as there is no file at either path.
    But if there is a file at `shelfmark/config.toml`, a run that asks for no configuration looks as if it asked for
    that one, and if there is none, as if there was no home. -/
theorem outcome_of_empty_variable (files : Files) (home : Option String) :
    defaultPath ⟨some "", home⟩ = .ok "shelfmark/config.toml" ∧
    defaultPath ⟨none, home⟩ ≠ .ok "shelfmark/config.toml" ∧
    (files.isFile "shelfmark/config.toml" = false →
      (∀ path, defaultPath ⟨none, home⟩ = .ok path → files.isFile path = false) →
      ∀ args, outcome files ⟨some "", home⟩ args = outcome files ⟨none, home⟩ args) ∧
    (files.isFile "shelfmark/config.toml" = true →
      ∀ args i, Invocation.ofArguments args = .ok i → i.config = none →
        outcome files ⟨some "", home⟩ args =
          outcome files ⟨none, home⟩ ("--config=shelfmark/config.toml" :: args)) ∧
    (files.isFile "shelfmark/config.toml" = false →
      ∀ args, outcome files ⟨some "", home⟩ args = outcome files ⟨none, none⟩ args) := by
  have hempty : defaultFile? files ⟨some "", home⟩ =
      if files.isFile "shelfmark/config.toml" then some "shelfmark/config.toml" else none :=
    defaultFile?_of_ok (defaultPath_of_empty home)
  refine ⟨defaultPath_of_empty home, defaultPath_of_unset_ne home, ?_, ?_, ?_⟩
  · intro hfile hunset args
    refine outcome_of_defaultFile? ?_ args
    rw [hempty, hfile, if_neg Bool.false_ne_true, defaultFile?_eq_none hunset]
  · rintro hfile args ⟨_, loads, command⟩ hargs rfl
    have hpath : "shelfmark/config.toml" ≠ "" := by decide
    have hasked : Invocation.ofArguments ("--config=shelfmark/config.toml" :: args) =
        .ok ⟨some "shelfmark/config.toml", loads, command⟩ := ofArguments_config_append hpath hargs rfl
    have hrun : run files ⟨some "", home⟩ ⟨none, loads, command⟩ =
        run files ⟨none, home⟩ ⟨some "shelfmark/config.toml", loads, command⟩ := by
      refine run_of_config loads command ?_
      rw [hempty, hfile, if_pos rfl, Option.none_or, Option.some_or]
    exact outcome_congr hargs hasked (by rw [hrun])
  · intro hfile args
    refine outcome_of_defaultFile? ?_ args
    rw [hempty, hfile, if_neg Bool.false_ne_true]
    rfl

/-- The one file is no configuration, and stands where the empty variable makes it the one in effect. -/
def strayTree : Files where
  read path := if path = "shelfmark/config.toml" then .ok "Book" else .error .notFound
  isFile path := path = "shelfmark/config.toml"

/-- Nothing can be read. -/
def noFiles : Files := ⟨fun _ => .error .notFound, fun _ => false⟩

theorem sample_empty_variable :
    outcome strayTree ⟨some "", some "/h"⟩ ["info"] =
        outcome strayTree ⟨none, some "/h"⟩ ["--config=shelfmark/config.toml", "info"] ∧
      outcome noFiles ⟨some "", some "/h"⟩ ["info"] = outcome noFiles ⟨none, some "/h"⟩ ["info"] ∧
      outcome noFiles ⟨some "", some "/h"⟩ ["info"] = outcome noFiles ⟨none, none⟩ ["info"] := by
  obtain ⟨-, -, -, hasked, -⟩ := outcome_of_empty_variable strayTree (some "/h")
  obtain ⟨-, -, hneither, -, hnone⟩ := outcome_of_empty_variable noFiles (some "/h")
  exact ⟨hasked rfl ["info"] ⟨none, [], .info⟩ rfl rfl, hneither rfl (fun _ _ => rfl) ["info"], hnone rfl ["info"]⟩

/-- The run fails if the variable is empty, and does not if it is not set. -/
theorem empty_variable_ne_unset :
    defaultPath ⟨some "", some "/h"⟩ ≠ defaultPath ⟨none, some "/h"⟩ ∧
      (outcome strayTree ⟨some "", some "/h"⟩ ["info"]).exit = 1 ∧
      (outcome strayTree ⟨none, some "/h"⟩ ["info"]).exit = 0 := by
  refine ⟨?_, rfl, rfl⟩
  decide +kernel

end CommandLine

end LibraryCatalog
