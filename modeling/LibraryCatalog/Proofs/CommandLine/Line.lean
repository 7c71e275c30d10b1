import LibraryCatalog.CommandLine.Invocation
import LibraryCatalog.Proofs.Location.Numbers

/-!
# `LibraryCatalog.Proofs.CommandLine.Line` — command lines that are written for an invocation

A command line can be put together in many ways: options stand in any order, with their value attached or behind
them, and those for the configuration and for record files before or after the name of the command. This module
says which lines are written for an invocation, without reading them, and proves that reading gives it back.

## Contents
- **Values.** `ShelfSource.argument`, a record file as the value of an option; texts of numbers.
- **Items.** `Item`, what takes one or two arguments, and the levels at which it fits: `scan_items`.
- **Settings.** `Given.Means`, what options and words mean, and `settings?_of_means`; `settings?_settled`.
- **Refusals.** Settings that cannot be understood are refused, and no explanation is given.
- **Lines.** `Line.Fits` and `ofArguments_arguments`, what a line of fitting items asks for; `Line.Writes` and
  `ofArguments_of_writes`.
-/

namespace LibraryCatalog

open Text

/-! ## Values -/

/-- A record file as the value of an option. -/
def ShelfSource.argument (s : ShelfSource) : String := s.location.text ++ "=" ++ s.file

namespace CommandLine

/-- A number as the value of an option. -/
def numberArgument (n : UInt32) : String := natText n.toNat

theorem equals_not_mem_chars (l : Location) : '=' ∉ l.chars := by
  have hdigits (n : Nat) : '=' ∉ showNat n := fun h => absurd (isDigit_of_mem_showNat h) (by decide)
  simp [Location.chars, hdigits]

/-- **A record file of positive location is read** from its written form, whatever its path holds. -/
theorem shelfSource?_argument {s : ShelfSource} (h : s.location.Positive) : shelfSource? s.argument = some s := by
  have hchars : s.argument.toList = s.location.chars ++ '=' :: s.file.toList := by
    simp [ShelfSource.argument, Location.text]
  simp only [shelfSource?, hchars, cut_append (equals_not_mem_chars s.location), Option.bind_eq_bind,
    Option.bind_some, Location.ofChars?_chars, if_pos h, String.ofList_toList, Option.pure_def]

theorem number?_numberArgument (n : UInt32) : number? (numberArgument n) = some n := by
  rw [number?, numberArgument, natText, String.toList_ofList]
  have hread : signed? (showNat n.toNat) = some (n.toNat : Int) := signed?_showInt n.toNat
  rw [hread, Option.bind_some, uint32OfInt?_toNat]

theorem path?_of_ne {path : String} (h : path ≠ "") : path? path = some path := by
  rw [path?, if_neg]
  rwa [String.isEmpty_iff]

/-! ## Items -/

/-- An option with its value, a flag, or a word. -/
inductive Item where
  | value (v : OptionValue)
  | flag (name : String)
  | word (w : String)
deriving Repr, DecidableEq

namespace Item

/-- The arguments that an item takes. -/
def arguments : Item → List String
  | .value ⟨option, text, true⟩ => ["--" ++ option ++ "=" ++ text]
  | .value ⟨option, text, false⟩ => ["--" ++ option, text]
  | .flag name => ["--" ++ name]
  | .word w => [w]

/-- What is given with an item in front. -/
def addTo : Item → Given → Given
  | .value v => Given.withValue v
  | .flag name => Given.withFlag name
  | .word w => Given.withWord w

/-- The items that a level can hold. A value in an argument of its own must look like a word. -/
inductive FitsAt (level : Level) : Item → Prop where
  | attached {option text : String} : option ∈ level.valued → FitsAt level (.value ⟨option, text, true⟩)
  | separate {option text : String} : option ∈ level.valued → isWord text = true →
      FitsAt level (.value ⟨option, text, false⟩)
  | flag {name : String} : name ∈ level.flags → FitsAt level (.flag name)
  | word {w : String} : level.commands = [] → isWord w = true → FitsAt level (.word w)

instance (level : Level) : (item : Item) → Decidable (item.FitsAt level)
  | .value ⟨option, _, true⟩ => decidable_of_iff (option ∈ level.valued) ⟨.attached, fun | .attached h => h⟩
  | .value ⟨option, text, false⟩ =>
    decidable_of_iff (option ∈ level.valued ∧ isWord text = true)
      ⟨fun h => .separate h.1 h.2, fun | .separate h hword => ⟨h, hword⟩⟩
  | .flag name => decidable_of_iff (name ∈ level.flags) ⟨.flag, fun | .flag h => h⟩
  | .word w =>
    decidable_of_iff (level.commands = [] ∧ isWord w = true)
      ⟨fun h => .word h.1 h.2, fun | .word h hword => ⟨h, hword⟩⟩

end Item

/-- The names of a level's options can be told apart on a command line. -/
structure Level.WellNamed (level : Level) : Prop where
  plain : ∀ name ∈ level.valued ++ level.flags, name ≠ "" ∧ '=' ∉ name.toList
  flag_not_valued : ∀ name ∈ level.flags, name ∉ level.valued

theorem wellNamed_outerLevel : outerLevel.WellNamed := ⟨by decide, by decide⟩

theorem wellNamed_innerLevel (command : String) : (innerLevel command).WellNamed := by
  unfold innerLevel
  split <;> exact ⟨by decide, by decide⟩

/-- Two minus signs with a name behind them are divided at the first sign of equality. -/
theorem ofArgument_of_toList {arg : String} {cs : List Char} (h : arg.toList = '-' :: '-' :: cs) (hne : cs ≠ []) :
    Token.ofArgument arg =
      match cut '=' cs with
      | some (name, value) => .long (String.ofList name) (some (String.ofList value))
      | none => .long (String.ofList cs) none := by
  obtain ⟨c, cs, rfl⟩ := List.exists_cons_of_ne_nil hne
  rw [Token.ofArgument, h]
  rfl

theorem ofArgument_attached {name : String} (h : '=' ∉ name.toList) (text : String) :
    Token.ofArgument ("--" ++ name ++ "=" ++ text) = .long name (some text) := by
  have hchars : ("--" ++ name ++ "=" ++ text).toList = '-' :: '-' :: (name.toList ++ '=' :: text.toList) := by
    simp
  rw [ofArgument_of_toList hchars (by simp), cut_append h]
  simp only [String.ofList_toList]

theorem ofArgument_name {name : String} (hne : name ≠ "") (h : '=' ∉ name.toList) :
    Token.ofArgument ("--" ++ name) = .long name none := by
  have hchars : ("--" ++ name).toList = '-' :: '-' :: name.toList := by simp
  have hname : name.toList ≠ [] := fun hnil => hne (String.toList_eq_nil_iff.mp hnil)
  rw [ofArgument_of_toList hchars hname, cut_eq_none_iff.mpr h]
  simp only [String.ofList_toList]

theorem ofArgument_word {w : String} (h : isWord w = true) : Token.ofArgument w = .word w := by
  unfold isWord at h
  split at h
  · next w' hw =>
    -- only one form is a word, and it keeps the argument
    have hkept : w' = w := by
      unfold Token.ofArgument at hw
      split at hw
      · cases hw
      · split at hw <;> cases hw
      · cases hw
      · exact (Token.word.inj hw).symm
    rw [hw, hkept]
  · cases h

variable {level : Level} {items : List Item}

/-- **An item is scanned** as it was meant, and the scan goes on behind it. -/
theorem scan_item (hl : level.WellNamed) {item : Item} (h : item.FitsAt level) (rest : List String) :
    scan level (item.arguments ++ rest) = (scan level rest).map item.addTo id := by
  cases h with
  | @attached option text hoption =>
    obtain ⟨-, hplain⟩ := hl.plain option (List.mem_append_left _ hoption)
    rw [Item.arguments, List.singleton_append, scan, ofArgument_attached hplain]
    exact if_pos (List.contains_iff_mem.mpr hoption)
  | @separate option text hoption hword =>
    obtain ⟨hne, hplain⟩ := hl.plain option (List.mem_append_left _ hoption)
    have hcontains := List.contains_iff_mem.mpr hoption
    rw [Item.arguments, List.cons_append, List.singleton_append, scan, ofArgument_name hne hplain]
    simp only [hcontains, hword, if_true]
    rfl
  | @flag name hname =>
    obtain ⟨hne, hplain⟩ := hl.plain name (List.mem_append_right _ hname)
    have hvalued : ¬level.valued.contains name = true := fun hmem =>
      hl.flag_not_valued name hname (List.contains_iff_mem.mp hmem)
    rw [Item.arguments, List.singleton_append, scan, ofArgument_name hne hplain]
    simp only [if_neg hvalued, List.contains_iff_mem.mpr hname, if_true]
    rfl
  | @word w hcommands hword =>
    rw [Item.arguments, List.singleton_append, scan, ofArgument_word hword]
    simp only [hcommands, List.isEmpty_nil, if_true]
    rfl

/-- **Items are scanned one after the other.** -/
theorem scan_items (hl : level.WellNamed) (h : ∀ item ∈ items, item.FitsAt level) (rest : List String) :
    scan level (items.flatMap Item.arguments ++ rest) =
      (scan level rest).map (fun g => items.foldr Item.addTo g) id := by
  induction items with
  | nil => rfl
  | cons item items ih =>
    obtain ⟨hitem, hitems⟩ := List.forall_mem_cons.mp h
    rw [List.flatMap_cons, List.append_assoc, scan_item hl hitem, ih hitems]
    rfl

/-! ## Settings -/

/-- What the word of a level may be. -/
def WordRole.Allows (word : Option String) : WordRole → Prop
  | .absent => word = none
  | .text => True
  | .path => word ≠ some ""

/-- What is given means some settings and nothing else: every value is written for its setting, and no option is
    given in vain. -/
structure Given.Means (g : Given) (role : WordRole) (s : Settings) : Prop where
  config : g.valuesOf "config" = s.config.toList
  loads : g.valuesOf "load" = s.loads.map ShelfSource.argument
  room : g.valuesOf "room" = (s.room.map numberArgument).toList
  row : g.valuesOf "row" = (s.row.map numberArgument).toList
  shelf : g.valuesOf "shelf" = (s.shelf.map numberArgument).toList
  json : g.countOf "json" = s.json.toNat
  word : g.words = s.word.toList
  config_ne : s.config ≠ some ""
  positive : ∀ source ∈ s.loads, source.location.Positive
  allowed : role.Allows s.word

instance (word : Option String) : (role : WordRole) → Decidable (role.Allows word)
  | .absent => inferInstanceAs (Decidable (word = none))
  | .text => inferInstanceAs (Decidable True)
  | .path => inferInstanceAs (Decidable (word ≠ some ""))

instance (g : Given) (role : WordRole) (s : Settings) : Decidable (g.Means role s) :=
  decidable_of_iff
    (g.valuesOf "config" = s.config.toList ∧ g.valuesOf "load" = s.loads.map ShelfSource.argument ∧
      g.valuesOf "room" = (s.room.map numberArgument).toList ∧ g.valuesOf "row" = (s.row.map numberArgument).toList ∧
      g.valuesOf "shelf" = (s.shelf.map numberArgument).toList ∧ g.countOf "json" = s.json.toNat ∧
      g.words = s.word.toList ∧ s.config ≠ some "" ∧ (∀ source ∈ s.loads, source.location.Positive) ∧
      role.Allows s.word)
    ⟨fun ⟨h₁, h₂, h₃, h₄, h₅, h₆, h₇, h₈, h₉, h₁₀⟩ => ⟨h₁, h₂, h₃, h₄, h₅, h₆, h₇, h₈, h₉, h₁₀⟩,
      fun ⟨h₁, h₂, h₃, h₄, h₅, h₆, h₇, h₈, h₉, h₁₀⟩ => ⟨h₁, h₂, h₃, h₄, h₅, h₆, h₇, h₈, h₉, h₁₀⟩⟩

variable {g : Given} {s : Settings}

theorem only?_toList {α : Type} (a : Option α) : only? a.toList = .ok a := by
  cases a <;> rfl

/-- An option of which at most one value is written for something gives that. -/
theorem given_only? {α : Type} {name : String} {read : String → Option α} {a : Option α} (write : α → String)
    (h : g.valuesOf name = (a.map write).toList) (hread : ∀ x ∈ a, read (write x) = some x) :
    g.only? name read = .ok a := by
  rw [Given.only?, h, only?_toList]
  cases a with
  | none => rfl
  | some x =>
    show (understood (read (write x))).map some = _
    rw [hread x rfl]
    rfl

theorem mapM_understood {sources : List ShelfSource} (h : ∀ source ∈ sources, source.location.Positive) :
    ((sources.map ShelfSource.argument).mapM fun text => understood (shelfSource? text)) = .ok sources := by
  induction sources with
  | nil => rfl
  | cons source sources ih =>
    obtain ⟨hsource, hsources⟩ := List.forall_mem_cons.mp h
    rw [List.map_cons, List.mapM_cons, shelfSource?_argument hsource, ih hsources]
    rfl

theorem flag?_of_countOf {name : String} {b : Bool} (h : g.countOf name = b.toNat) : g.flag? name = .ok b := by
  rw [Given.flag?, h]
  cases b <;> rfl

theorem word?_of_allows {role : WordRole} {word : Option String} (h : g.words = word.toList)
    (hrole : role.Allows word) : g.word? role = .ok word := by
  cases role with
  | absent =>
    obtain rfl : word = none := hrole
    rw [Given.word?, h]
    rfl
  | text => rw [Given.word?, h, only?_toList]
  | path =>
    rw [Given.word?, h, only?_toList]
    cases word with
    | none => rfl
    | some path =>
      have hpath : path ≠ "" := fun hempty => hrole (congrArg some hempty)
      show (understood (path? path)).map some = _
      rw [path?_of_ne hpath]
      rfl

theorem bind_eq_ok_iff {ε α β : Type} {x : Except ε α} {f : α → Except ε β} {b : β} :
    x >>= f = .ok b ↔ ∃ a, x = .ok a ∧ f a = .ok b := by
  cases x with
  | error e => exact iff_of_false nofun nofun
  | ok a =>
    constructor
    · exact fun h => ⟨a, rfl, h⟩
    · rintro ⟨_, ⟨⟩, h⟩
      exact h

/-- Settings are read one by one. -/
theorem settings?_eq_ok_iff :
    g.settings? level = .ok s ↔
      g.only? "config" path? = .ok s.config ∧
      ((g.valuesOf "load").mapM fun text => understood (shelfSource? text)) = .ok s.loads ∧
      g.only? "room" number? = .ok s.room ∧ g.only? "row" number? = .ok s.row ∧
      g.only? "shelf" number? = .ok s.shelf ∧ g.flag? "json" = .ok s.json ∧ g.word? level.word = .ok s.word := by
  simp only [Given.settings?, bind_eq_ok_iff]
  constructor
  · rintro ⟨_, hconfig, _, hloads, _, hroom, _, hrow, _, hshelf, _, hjson, _, hword, ⟨⟩⟩
    exact ⟨hconfig, hloads, hroom, hrow, hshelf, hjson, hword⟩
  · rintro ⟨hconfig, hloads, hroom, hrow, hshelf, hjson, hword⟩
    exact ⟨_, hconfig, _, hloads, _, hroom, _, hrow, _, hshelf, _, hjson, _, hword, rfl⟩

/-- **Settings are read from what means them.** -/
theorem settings?_of_means (h : g.Means level.word s) : g.settings? level = .ok s := by
  have hconfig : g.only? "config" path? = .ok s.config := by
    refine given_only? id (by rw [Option.map_id]; exact h.config) fun path hpath => ?_
    exact path?_of_ne fun hempty => h.config_ne (hempty ▸ hpath)
  have hread : ∀ (n? : Option UInt32), ∀ n ∈ n?, number? (numberArgument n) = some n :=
    fun _ n _ => number?_numberArgument n
  have hloads := h.loads ▸ mapM_understood h.positive
  exact settings?_eq_ok_iff.mpr ⟨hconfig, hloads, given_only? _ h.room (hread _), given_only? _ h.row (hread _),
    given_only? _ h.shelf (hread _), flag?_of_countOf h.json, word?_of_allows h.word h.allowed⟩

/-- The settings that can stand on either side of the name of a command. -/
def Settings.global (config : Option String) (loads : List ShelfSource) : Settings :=
  ⟨config, loads, none, none, none, false, none⟩

theorem prefix_valuesOf_settled (g : Given) (name : String) : g.settled.valuesOf name <+: g.valuesOf name := by
  unfold Given.settled
  split
  · exact ((List.dropLast_prefix g.values).filter _).map _
  · exact List.prefix_rfl

theorem flags_settled (g : Given) : g.settled.flags = g.flags := by
  unfold Given.settled
  split <;> rfl

theorem words_settled (g : Given) : g.settled.words = g.words := by
  unfold Given.settled
  split <;> rfl

/-- An option that can be read can still be read when last values are left out. -/
theorem given_only?_of_prefix {α : Type} {g' : Given} {name : String} {read : String → Option α}
    {a : Option α} (h : g.only? name read = .ok a) (hpre : g'.valuesOf name <+: g.valuesOf name) :
    ∃ a', g'.only? name read = .ok a' := by
  rw [Given.only?] at h ⊢
  rcases hvalues : g'.valuesOf name with _ | ⟨text, rest⟩
  · exact ⟨none, rfl⟩
  · obtain ⟨more, hmore⟩ := hpre
    rw [← hmore, hvalues] at h
    cases rest with
    | cons _ _ => cases h
    | nil =>
      cases more with
      | cons _ _ => cases h
      | nil => exact ⟨a, h⟩

theorem mapM_of_prefix {ε α β : Type} {f : α → Except ε β} {as as' : List α} {bs : List β} (h : as.mapM f = .ok bs)
    (hpre : as' <+: as) : ∃ bs', as'.mapM f = .ok bs' := by
  obtain ⟨more, rfl⟩ := hpre
  rw [List.mapM_append, bind_eq_ok_iff] at h
  obtain ⟨bs', hbs', -⟩ := h
  exact ⟨bs', hbs'⟩

theorem word?_settled (g : Given) (role : WordRole) : g.settled.word? role = g.word? role := by
  cases role <;> simp only [Given.word?, words_settled]

/-- What can be understood can be understood without a last value that is still open. -/
theorem settings?_settled (h : g.settings? level = .ok s) : ∃ s', g.settled.settings? level = .ok s' := by
  obtain ⟨hconfig, hloads, hroom, hrow, hshelf, hjson, hword⟩ := settings?_eq_ok_iff.mp h
  obtain ⟨config, hconfig'⟩ := given_only?_of_prefix hconfig (prefix_valuesOf_settled g "config")
  obtain ⟨loads, hloads'⟩ := mapM_of_prefix hloads (prefix_valuesOf_settled g "load")
  obtain ⟨room, hroom'⟩ := given_only?_of_prefix hroom (prefix_valuesOf_settled g "room")
  obtain ⟨row, hrow'⟩ := given_only?_of_prefix hrow (prefix_valuesOf_settled g "row")
  obtain ⟨shelf, hshelf'⟩ := given_only?_of_prefix hshelf (prefix_valuesOf_settled g "shelf")
  have hjson' : g.settled.flag? "json" = .ok s.json := by
    rw [← hjson]
    simp only [Given.flag?, Given.countOf, flags_settled]
  have hword' : g.settled.word? level.word = .ok s.word := (word?_settled g level.word).trans hword
  exact ⟨⟨config, loads, room, row, shelf, s.json, s.word⟩,
    settings?_eq_ok_iff.mpr ⟨hconfig', hloads', hroom', hrow', hshelf', hjson', hword'⟩⟩

/-! ## Refusals -/

/-- Computations one after the other give no explanation if none of them does. -/
theorem bind_ne_help {α β : Type} {x : Except Stop α} {f : α → Except Stop β} (hx : x ≠ .error .help)
    (hf : ∀ a, f a ≠ .error .help) : x >>= f ≠ .error .help := by
  cases x with
  | error e => exact fun h => hx (congrArg Except.error (Except.error.inj h))
  | ok a => exact hf a

theorem understood_ne_help {α : Type} (a : Option α) : understood a ≠ .error .help := by
  cases a <;> exact nofun

theorem only?_ne_help {α : Type} (as : List α) : only? as ≠ .error .help := by
  rcases as with _ | ⟨_, _ | _⟩ <;> exact nofun

theorem given_only?_ne_help {α : Type} (g : Given) (name : String) (read : String → Option α) :
    g.only? name read ≠ .error .help := by
  refine bind_ne_help (only?_ne_help _) fun text? => ?_
  cases text? with
  | none => exact nofun
  | some text => exact bind_ne_help (understood_ne_help _) nofun

theorem flag?_ne_help (g : Given) (name : String) : g.flag? name ≠ .error .help := by
  unfold Given.flag?
  split <;> exact nofun

theorem word?_ne_help (g : Given) (role : WordRole) : g.word? role ≠ .error .help := by
  cases role with
  | absent =>
    rw [Given.word?]
    split <;> exact nofun
  | text => exact only?_ne_help _
  | path =>
    refine bind_ne_help (only?_ne_help _) fun w? => ?_
    cases w? with
    | none => exact nofun
    | some w => exact bind_ne_help (understood_ne_help _) nofun

theorem mapM_ne_help {α β : Type} {f : α → Except Stop β} (hf : ∀ a, f a ≠ .error .help) (as : List α) :
    as.mapM f ≠ .error .help := by
  induction as with
  | nil => exact nofun
  | cons a as ih =>
    rw [List.mapM_cons]
    exact bind_ne_help (hf a) fun b => bind_ne_help ih nofun

theorem settings?_ne_help (g : Given) (level : Level) : g.settings? level ≠ .error .help :=
  bind_ne_help (given_only?_ne_help g _ _) fun _ =>
    bind_ne_help (mapM_ne_help (fun _ => understood_ne_help _) _) fun _ =>
      bind_ne_help (given_only?_ne_help g _ _) fun _ =>
        bind_ne_help (given_only?_ne_help g _ _) fun _ =>
          bind_ne_help (given_only?_ne_help g _ _) fun _ =>
            bind_ne_help (flag?_ne_help g _) fun _ =>
              bind_ne_help (word?_ne_help g _) nofun

theorem ofSettings?_ne_help (name : String) (s : Settings) : Command.ofSettings? name s ≠ .error .help := by
  unfold Command.ofSettings?
  split <;> first | exact bind_ne_help (understood_ne_help _) nofun | exact nofun

/-- Where nothing asks for an explanation and the end is a refusal, all is refused. -/
theorem bind_eq_misuse {α β : Type} {x : Except Stop α} {f : α → Except Stop β} (hx : x ≠ .error .help)
    (hf : ∀ a, f a = .error .misuse) : x >>= f = .error .misuse := by
  rcases x with (_ | _) | a
  · rfl
  · exact absurd rfl hx
  · exact hf a

/-! ## Lines -/

/-- The name of a command. -/
def Command.name : Command → String
  | .parse _ _ => "parse"
  | .search _ _ => "search"
  | .inventory _ _ => "inventory"
  | .find _ => "find"
  | .info => "info"

/-- The settings for a command, with those that stand on either side of its name. -/
def Command.settings (config : Option String) (loads : List ShelfSource) : Command → Settings
  | .parse file json => { Settings.global config loads with word := some file, json := json }
  | .search expression json => { Settings.global config loads with word := some expression, json := json }
  | .inventory q json =>
    { Settings.global config loads with room := some q.room, row := q.row, shelf := q.shelf, json := json }
  | .find isbn => { Settings.global config loads with word := some isbn }
  | .info => Settings.global config loads

/-- A command line: what stands before the name of the command, the name, what stands after it, and perhaps two
    minus signs with further words. -/
structure Line where
  before : List Item
  name : String
  after : List Item
  words : Option (List String)
deriving Repr, DecidableEq

namespace Line

/-- The arguments of a line. -/
def arguments (line : Line) : List String :=
  line.before.flatMap Item.arguments ++
    line.name :: (line.after.flatMap Item.arguments ++ (line.words.map ("--" :: ·)).getD [])

/-- What a line gives before the name. -/
def outer (line : Line) : Given := line.before.foldr Item.addTo .nothing

/-- What a line gives after the name. -/
def inner (line : Line) : Given := line.after.foldr Item.addTo ⟨[], [], line.words.getD []⟩

/-- A line whose items fit where they stand, whatever they mean together. -/
structure Fits (line : Line) : Prop where
  command : ∃ c : Command, c.name = line.name
  before : ∀ item ∈ line.before, item.FitsAt outerLevel
  after : ∀ item ∈ line.after, item.FitsAt (innerLevel line.name)

/-- What a line asks for: the settings after the name, with those before it where they say nothing. -/
def invocation? (line : Line) : Except Stop Invocation := do
  let inner ← line.inner.settings? (innerLevel line.name)
  let command ← Command.ofSettings? line.name inner
  let outer ← line.outer.settings? outerLevel
  return ⟨inner.config.or outer.config, if inner.loads.isEmpty then outer.loads else inner.loads, command⟩

/-- A line is written for an invocation: its items fit where they stand and mean what is asked for. A configuration
    after the name goes before one in front of it; the record files stand all on one side of the name. -/
structure Writes (line : Line) (i : Invocation) : Prop where
  name_eq : line.name = i.command.name
  before_fits : ∀ item ∈ line.before, item.FitsAt outerLevel
  after_fits : ∀ item ∈ line.after, item.FitsAt (innerLevel line.name)
  means : ∃ config config' loads loads',
    line.outer.Means .absent (.global config loads) ∧
    line.inner.Means (innerLevel line.name).word (i.command.settings config' loads') ∧
    config'.or config = i.config ∧ (loads' = [] ∧ loads = i.loads ∨ loads = [] ∧ loads' = i.loads)

variable {line : Line} {i : Invocation}

/-- The name of a command ends the level before it. -/
theorem scan_name (c : Command) (rest : List String) :
    scan outerLevel (c.name :: rest) = (.nothing, .command c.name rest) := by
  cases c <;> (rw [Command.name]; rfl)

theorem scan_words (level : Level) (words : Option (List String)) :
    scan level ((words.map ("--" :: ·)).getD []) = (⟨[], [], words.getD []⟩, .finished) := by
  cases words with
  | none => rfl
  | some ws =>
    have hdivider : Token.ofArgument "--" = .divider := rfl
    rw [Option.map_some, Option.getD_some, scan, hdivider]
    rfl

theorem name_ne_help (c : Command) : c.name ≠ "help" := by
  cases c <;> simp [Command.name]

/-- The settings for a command give it back. -/
theorem ofSettings?_settings (c : Command) (config : Option String) (loads : List ShelfSource) :
    Command.ofSettings? c.name (c.settings config loads) = .ok c := by
  cases c <;> rfl

theorem config_settings (c : Command) (config : Option String) (loads : List ShelfSource) :
    (c.settings config loads).config = config := by
  cases c <;> rfl

theorem loads_settings (c : Command) (config : Option String) (loads : List ShelfSource) :
    (c.settings config loads).loads = loads := by
  cases c <;> rfl

theorem invocation?_of_refused (h : line.outer.settings? outerLevel = .error .misuse) :
    line.invocation? = .error .misuse := by
  refine bind_eq_misuse (settings?_ne_help _ _) fun inner => bind_eq_misuse (ofSettings?_ne_help _ _) fun command => ?_
  rw [h]
  rfl

/-- **A line whose items fit is read** as what it asks for. That the settings before the name are checked without an
    open value first makes no difference. -/
theorem ofArguments_arguments (h : line.Fits) : Invocation.ofArguments line.arguments = line.invocation? := by
  obtain ⟨c, hname⟩ := h.command
  have hscan : scan outerLevel line.arguments = (line.outer, .command line.name
      (line.after.flatMap Item.arguments ++ (line.words.map ("--" :: ·)).getD [])) := by
    rw [arguments, scan_items wellNamed_outerLevel h.before, ← hname, scan_name]
    rfl
  have hscan' : scan (innerLevel line.name)
      (line.after.flatMap Item.arguments ++ (line.words.map ("--" :: ·)).getD []) = (line.inner, .finished) := by
    rw [scan_items (wellNamed_innerLevel line.name) h.after, scan_words]
    rfl
  have hhelp : line.name ≠ "help" := hname ▸ name_ne_help c
  have hread : Invocation.ofArguments line.arguments =
      line.outer.settled.settings? outerLevel >>= fun _ => line.invocation? := by
    simp only [Invocation.ofArguments, hscan, if_neg hhelp, Command.ofArguments, hscan', invocation?, bind_assoc,
      pure_bind]
  rw [hread]
  -- the early check passes whenever the late one does, and a line that fails the late one is refused anyway
  cases houter : line.outer.settings? outerLevel with
  | ok outer =>
    obtain ⟨_, hsettled⟩ := settings?_settled houter
    rw [hsettled]
    rfl
  | error e =>
    obtain rfl : e = .misuse := by
      cases e with
      | misuse => rfl
      | help => exact absurd houter (settings?_ne_help _ _)
    rw [invocation?_of_refused houter]
    exact bind_eq_misuse (settings?_ne_help _ _) fun _ => rfl

theorem Writes.fits (h : line.Writes i) : line.Fits := ⟨⟨i.command, h.name_eq.symm⟩, h.before_fits, h.after_fits⟩

/-- **A written line is read** as the invocation for which it is written. -/
theorem ofArguments_of_writes (h : line.Writes i) : Invocation.ofArguments line.arguments = .ok i := by
  obtain ⟨config, config', loads, loads', houter, hinner, hconfig, hloads⟩ := h.means
  have houter' : line.outer.settings? outerLevel = .ok _ := settings?_of_means houter
  have hcommand : Command.ofSettings? line.name (i.command.settings config' loads') = .ok i.command :=
    h.name_eq ▸ ofSettings?_settings i.command config' loads'
  have hchosen : (if loads'.isEmpty then loads else loads') = i.loads := by
    rcases hloads with ⟨rfl, hbefore⟩ | ⟨rfl, rfl⟩
    · exact hbefore
    · cases i.loads <;> rfl
  have hresult : (⟨(i.command.settings config' loads').config.or config,
      if (i.command.settings config' loads').loads.isEmpty then loads else (i.command.settings config' loads').loads,
      i.command⟩ : Invocation) = i := by
    rw [config_settings, loads_settings, hconfig, hchosen]
  rw [ofArguments_arguments h.fits]
  simp only [invocation?, settings?_of_means hinner, houter', bind, Except.bind, hcommand]
  exact congrArg Except.ok hresult

end Line

end CommandLine

end LibraryCatalog
