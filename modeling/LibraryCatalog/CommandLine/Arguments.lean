import LibraryCatalog.Text.Occurrence

/-!
# `LibraryCatalog.CommandLine.Arguments` — options and words

An argument is an option if it starts with a minus sign, and a word if it does not or is the sign alone. After two
minus signs everything is a word. An option that takes a value takes it after a sign of equality or from the next
argument, which must be a word then.

## Contents
- **Single arguments.** `Token`, `Token.ofArgument`.
- **Levels.** `Level`, what may stand before or after the name of a command.
- **What is given.** `Given`, the options and words that a level holds, and `Given.settled`.
- **Scanning.** `scan`, which stops at the name of a command, at an argument that cannot stand there, or at the end;
  `Ending` says where.
-/

namespace LibraryCatalog.CommandLine

open Text

/-! ## Single arguments -/

/-- What an argument is by its form. -/
inductive Token where
  /-- Two minus signs alone. -/
  | divider
  /-- Two minus signs and a name, perhaps with a value after the first sign of equality. -/
  | long (name : String) (value : Option String)
  /-- One minus sign and at least one letter. -/
  | short (first : Char)
  | word (w : String)
deriving Repr, DecidableEq

/-- The form of an argument. -/
def Token.ofArgument (arg : String) : Token :=
  match arg.toList with
  | ['-', '-'] => .divider
  | '-' :: '-' :: cs =>
    match cut '=' cs with
    | some (name, value) => .long (String.ofList name) (some (String.ofList value))
    | none => .long (String.ofList cs) none
  | '-' :: c :: _ => .short c
  | _ => .word arg

/-- Whether an argument can be the value of the option before it. -/
def isWord (arg : String) : Bool :=
  match Token.ofArgument arg with
  | .word _ => true
  | _ => false

/-! ## Levels -/

/-- What the word of a level is. -/
inductive WordRole where
  /-- The level has no word. -/
  | absent
  | text
  /-- A path, which is not empty. -/
  | path
deriving Repr, DecidableEq

/-- The options of a level, with and without a value, whether it knows the option for the version, its word, and the
    names that end it. -/
structure Level where
  valued : List String
  flags : List String
  hasVersion : Bool
  word : WordRole
  commands : List String
deriving Repr, DecidableEq

/-! ## What is given -/

/-- A value, with the option that it is for. -/
structure OptionValue where
  option : String
  text : String
  /-- Whether the value follows a sign of equality and is not an argument of its own. -/
  attached : Bool
deriving Repr, DecidableEq

/-- The options and words of a level, in their order. -/
structure Given where
  values : List OptionValue
  flags : List String
  words : List String
deriving Repr, DecidableEq

namespace Given

/-- No options and no words. -/
def nothing : Given := ⟨[], [], []⟩

/-- One more value, in front. -/
def withValue (v : OptionValue) (g : Given) : Given := { g with values := v :: g.values }

/-- One more flag, in front. -/
def withFlag (name : String) (g : Given) : Given := { g with flags := name :: g.flags }

/-- One more word, in front. -/
def withWord (w : String) (g : Given) : Given := { g with words := w :: g.words }

/-- The values of an option. -/
def valuesOf (g : Given) (name : String) : List String :=
  (g.values.filter fun v => v.option == name).map OptionValue.text

/-- How often a flag is given. -/
def countOf (g : Given) (name : String) : Nat := g.flags.count name

/-- Everything but a last value in an argument of its own. The next argument of the level closes such a value, and the
    name of a command is none: there it stays open until the command has been read. -/
def settled (g : Given) : Given :=
  match g.values.getLast? with
  | some ⟨_, _, false⟩ => { g with values := g.values.dropLast }
  | _ => g

end Given

/-! ## Scanning -/

/-- Why there is no command to run. -/
inductive Stop where
  /-- The arguments do not fit. -/
  | misuse
  /-- The arguments ask for an explanation. -/
  | help
deriving Repr, DecidableEq

/-- Where the scan of a level ends. -/
inductive Ending where
  /-- After the last argument. -/
  | finished
  /-- At the name of a command, with the arguments after it. -/
  | command (name : String) (rest : List String)
  /-- At an argument that asks for an explanation or cannot stand there. -/
  | stop (reason : Stop)
deriving Repr, DecidableEq

/-- Scans the arguments of a level: what is given before the end, and the end. A word is the name of a command if the
    level is ended by such names; no other word may stand there. -/
def scan (level : Level) : List String → Given × Ending
  | [] => (.nothing, .finished)
  | arg :: args =>
    match Token.ofArgument arg with
    | .divider => (⟨[], [], args⟩, .finished)
    | .short c =>
      (.nothing, .stop (if c = 'h' ∨ (c = 'V' ∧ level.hasVersion) then .help else .misuse))
    | .word w =>
      if level.commands.isEmpty then
        (scan level args).map (Given.withWord w) id
      else if level.commands.contains w then (.nothing, .command w args)
      else (.nothing, .stop .misuse)
    | .long name (some text) =>
      if level.valued.contains name then
        (scan level args).map (Given.withValue ⟨name, text, true⟩) id
      else (.nothing, .stop .misuse)
    | .long name none =>
      if level.valued.contains name then
        match args with
        | text :: args =>
          if isWord text then
            (scan level args).map (Given.withValue ⟨name, text, false⟩) id
          else (.nothing, .stop .misuse)
        | [] => (.nothing, .stop .misuse)
      else if level.flags.contains name then
        (scan level args).map (Given.withFlag name) id
      else if name = "help" ∨ (name = "version" ∧ level.hasVersion) then (.nothing, .stop .help)
      else (.nothing, .stop .misuse)

end LibraryCatalog.CommandLine
