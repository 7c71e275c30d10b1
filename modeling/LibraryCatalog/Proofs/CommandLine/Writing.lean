import LibraryCatalog.Proofs.CommandLine.Line

/-!
# `LibraryCatalog.Proofs.CommandLine.Writing` — a line for every invocation

Of the many lines that are written for an invocation, one has nothing in front of the name of the command, every
value attached to its option, and the word behind two minus signs. It exists for every invocation whose paths are not
empty and whose locations are positive, and so nothing else has to be asked of an invocation that is to be read from
a command line.

## Contents
- **Items.** `optionItems` and `Settings.items`; what these give is found option by option.
- **Meaning.** `Settings.means_items`.
- **Lines.** `Invocation.line`, and `writes_line`.
-/

namespace LibraryCatalog.CommandLine

/-! ## Items -/

/-- An option with each of some values, which follow signs of equality. -/
def optionItems (option : String) (texts : List String) : List Item := texts.map fun text => .value ⟨option, text, true⟩

/-- Some settings as items. Their word is none of these. -/
def Settings.items (s : Settings) : List Item :=
  optionItems "config" s.config.toList ++ (optionItems "load" (s.loads.map ShelfSource.argument) ++
    (optionItems "room" (s.room.map numberArgument).toList ++ (optionItems "row" (s.row.map numberArgument).toList ++
      (optionItems "shelf" (s.shelf.map numberArgument).toList ++ if s.json then [.flag "json"] else []))))

theorem foldr_optionItems (option : String) (texts : List String) (g : Given) :
    (optionItems option texts).foldr Item.addTo g =
      { g with values := (texts.map fun text => ⟨option, text, true⟩) ++ g.values } := by
  induction texts with
  | nil => rfl
  | cons text texts ih =>
    rw [optionItems, List.map_cons, List.foldr_cons, ← optionItems, ih]
    rfl

/-- An option gives its values to its own name. -/
theorem valuesOf_foldr_optionItems (option name : String) (texts : List String) (g : Given) :
    ((optionItems option texts).foldr Item.addTo g).valuesOf name =
      (if option = name then texts else []) ++ g.valuesOf name := by
  rw [foldr_optionItems, Given.valuesOf, List.filter_append, List.map_append, Given.valuesOf, List.filter_map]
  congr 1
  by_cases h : option = name <;> simp [h, Function.comp_def]

theorem fitsAt_optionItems {level : Level} {option : String} {texts : List String}
    (h : texts ≠ [] → option ∈ level.valued) : ∀ item ∈ optionItems option texts, item.FitsAt level := by
  intro item hitem
  obtain ⟨text, htext, rfl⟩ := List.mem_map.mp hitem
  exact .attached (h (List.ne_nil_of_mem htext))

/-! ## Meaning -/

/-- What the items of settings give means these settings. -/
theorem Settings.means_items {role : WordRole} {s : Settings} (hconfig : s.config ≠ some "")
    (hloads : ∀ source ∈ s.loads, source.location.Positive) (hword : role.Allows s.word) :
    (s.items.foldr Item.addTo ⟨[], [], s.word.toList⟩).Means role s := by
  obtain ⟨config, loads, room, row, shelf, json, word⟩ := s
  have hvalues (name : String) : ((if json then [Item.flag "json"] else []).foldr Item.addTo
      ⟨[], [], word.toList⟩).valuesOf name = [] := by
    cases json <;> rfl
  constructor
  case config_ne => exact hconfig
  case positive => exact hloads
  case allowed => exact hword
  case json =>
    simp only [items, List.foldr_append, foldr_optionItems]
    cases json <;> rfl
  case word =>
    simp only [items, List.foldr_append, foldr_optionItems]
    cases json <;> rfl
  -- every option stands for one setting
  all_goals simp [items, List.foldr_append, valuesOf_foldr_optionItems, hvalues]

/-- Items fit at a level that has an option for every setting that is not the usual one. -/
theorem Settings.fitsAt_items {level : Level} {s : Settings} (hconfig : "config" ∈ level.valued)
    (hload : "load" ∈ level.valued) (hroom : s.room ≠ none → "room" ∈ level.valued)
    (hrow : s.row ≠ none → "row" ∈ level.valued) (hshelf : s.shelf ≠ none → "shelf" ∈ level.valued)
    (hjson : s.json = true → "json" ∈ level.flags) : ∀ item ∈ s.items, item.FitsAt level := by
  have hnumber {n : Option UInt32} (h : (n.map numberArgument).toList ≠ []) : n ≠ none := by
    rintro rfl
    exact h rfl
  simp only [items, List.forall_mem_append]
  refine ⟨fitsAt_optionItems fun _ => hconfig, fitsAt_optionItems fun _ => hload,
    fitsAt_optionItems fun h => hroom (hnumber h), fitsAt_optionItems fun h => hrow (hnumber h),
    fitsAt_optionItems fun h => hshelf (hnumber h), ?_⟩
  intro item hitem
  cases hflag : s.json with
  | false => rw [hflag] at hitem; cases hitem
  | true =>
    rw [hflag] at hitem
    obtain rfl := List.mem_singleton.mp hitem
    exact .flag (hjson hflag)

/-! ## Lines -/

/-- A line for an invocation. -/
def Invocation.line (i : Invocation) : Line :=
  let s := i.command.settings i.config i.loads
  ⟨[], i.command.name, s.items, s.word.map fun w => [w]⟩

/-- The settings for a command fit behind its name. -/
theorem Command.fitsAt_items (c : Command) (config : Option String) (loads : List ShelfSource) :
    ∀ item ∈ (c.settings config loads).items, item.FitsAt (innerLevel c.name) := by
  have hglobal (name : String) : ∀ option ∈ globalOptions, option ∈ (innerLevel name).valued := by
    unfold innerLevel
    split <;> decide
  have hconfig := hglobal c.name "config" (by decide)
  have hload := hglobal c.name "load" (by decide)
  cases c with
  | inventory q json =>
    have hplace : ∀ option ∈ ["room", "row", "shelf"], option ∈ (innerLevel "inventory").valued := by decide
    exact Settings.fitsAt_items hconfig hload (fun _ => hplace "room" (by decide)) (fun _ => hplace "row" (by decide))
      (fun _ => hplace "shelf" (by decide)) fun _ => List.mem_singleton_self _
  | parse file json =>
    exact Settings.fitsAt_items hconfig hload (absurd rfl) (absurd rfl) (absurd rfl) fun _ => List.mem_singleton_self _
  | search expression json =>
    exact Settings.fitsAt_items hconfig hload (absurd rfl) (absurd rfl) (absurd rfl) fun _ => List.mem_singleton_self _
  | find isbn => exact Settings.fitsAt_items hconfig hload (absurd rfl) (absurd rfl) (absurd rfl) nofun
  | info => exact Settings.fitsAt_items hconfig hload (absurd rfl) (absurd rfl) (absurd rfl) nofun

/-- **Every invocation can be written**, if its paths are not empty and its locations are positive. -/
theorem Invocation.writes_line (i : Invocation) (hconfig : i.config ≠ some "")
    (hloads : ∀ s ∈ i.loads, s.location.Positive) (hfile : ∀ json, i.command ≠ .parse "" json) :
    i.line.Writes i := by
  have hallows : (innerLevel i.command.name).word.Allows (i.command.settings i.config i.loads).word := by
    obtain ⟨config, loads, command⟩ := i
    cases command with
    | parse file json =>
      intro h
      exact hfile json (by rw [Option.some.inj h])
    | search expression json => exact True.intro
    | find isbn => exact True.intro
    | inventory q json => rfl
    | info => rfl
  have hmeans := Settings.means_items (s := i.command.settings i.config i.loads) (by rwa [Line.config_settings])
    (by rwa [Line.loads_settings]) hallows
  have hinner : i.line.inner = (i.command.settings i.config i.loads).items.foldr Item.addTo
      ⟨[], [], (i.command.settings i.config i.loads).word.toList⟩ := by
    rw [Line.inner, Invocation.line]
    cases (i.command.settings i.config i.loads).word <;> rfl
  have houter : i.line.outer.Means .absent (.global none []) := by
    show Given.nothing.Means .absent (.global none [])
    decide
  exact ⟨rfl, nofun, i.command.fitsAt_items i.config i.loads, none, i.config, [], i.loads, houter, hinner ▸ hmeans,
    Option.or_none, .inr ⟨rfl, rfl⟩⟩

end LibraryCatalog.CommandLine
