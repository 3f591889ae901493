import Winnow.Text.Blank

/-!
# Forms of commands

A form says which options, operands and further commands a command takes.
`Form.scan` reads arguments by a form from the left, up to the name of a
further command.  An option is written `--name value` or `--name=value`, or
with one letter `-n value`, `-nvalue` or `-n=value`, and at most once.
-/

namespace Winnow.CommandLine

open Winnow.Text

/-- An option of a command. -/
structure OptionForm where
  name : String
  letter : Option Char := none
  help : String
  /-- The name of its value; a flag has none. -/
  value : Option String := none
  /-- Whether a text is a value of the option. -/
  accepts : String → Bool := fun _ => true
  required : Bool := false
  default : Option String := none
  /-- The values with what they mean, when only some are accepted. -/
  choices : List (String × String) := []

/-- A form of arguments. -/
structure Form where
  /-- The words that call the command. -/
  call : String
  about : String
  options : List OptionForm := []
  /-- The operands, each with its name and what it is. -/
  operands : List (String × String) := []
  /-- The further commands, each with its name and what it does. -/
  commands : List (String × String) := []
  /-- What the option for the version tells, if there is one. -/
  version : Option String := none

/-- What arguments give to a form. -/
structure Given where
  /-- Values by the names of options; that of a flag is empty. -/
  values : List (String × String) := []
  operands : List String := []
  /-- The further command and its arguments. -/
  command : Option (String × List String) := none
  deriving DecidableEq, Repr

/-- Why arguments call no command. -/
inductive Stop where
  /-- They ask for a text. -/
  | tell (text : String)
  /-- They have not the form. -/
  | misuse
  deriving DecidableEq, Repr

/-! ## Help -/

namespace OptionForm

/-- Writes a list in brackets after a heading. -/
def bracketed (heading : String) (items : List String) : String :=
  "[" ++ heading ++ ": " ++ join ", " items ++ "]"

/-- The option with its value. -/
def title (o : OptionForm) : String :=
  match o.value with
  | some value => "--" ++ o.name ++ " <" ++ value ++ ">"
  | none => "--" ++ o.name

/-- The letter of the option in front of its name. -/
def lead (o : OptionForm) : String :=
  match o.letter with
  | some letter => "-" ++ String.singleton letter ++ ", "
  | none => "    "

/-- The notes on the default. -/
def defaultNotes (o : OptionForm) : List String :=
  o.default.toList.map fun default => bracketed "default" [default]

/-- The notes on the choices. -/
def choiceNotes (o : OptionForm) : List String :=
  if o.choices.isEmpty then [] else [bracketed "possible values" (o.choices.map Prod.fst)]

end OptionForm

namespace Form

/-- A text filled up with blanks to a width. -/
def padded (width : Nat) (s : String) : String :=
  s ++ String.ofList (List.replicate (width - s.length) ' ')

/-- Names in a column and what they stand for in a second one. -/
def twoColumns (rows : List (String × String)) : List String :=
  let width := (rows.map fun row => row.1.length).foldl max 0
  rows.map fun (name, help) => "  " ++ padded width name ++ "  " ++ help

/-- A heading over lines, unless there are none. -/
def block (heading : String) (lines : List String) : List String :=
  if lines.isEmpty then [] else ["", heading ++ ":"] ++ lines

/-- Whether some choices have to be explained, so that help has a long version. -/
def hasLongHelp (f : Form) : Bool := f.options.any fun o => !o.choices.isEmpty

/-- The options for help and for the version. -/
def commonOptions (f : Form) (long : Bool) : List OptionForm :=
  let hint :=
    if !f.hasLongHelp then ""
    else if long then " (see a summary with '-h')"
    else " (see more with '--help')"
  { name := "help", letter := some 'h', help := "Print help" ++ hint } ::
    (f.version.toList.map fun _ =>
      { name := "version", letter := some 'V', help := "Print version" })

/-- The line that shows how the command is called. -/
def usage (f : Form) : String :=
  let optional := if f.options.any fun o => !o.required then ["[OPTIONS]"] else []
  let required := (f.options.filter (·.required)).map OptionForm.title
  let operands := f.operands.map fun operand => "<" ++ operand.1 ++ ">"
  let commands := if f.commands.isEmpty then [] else ["<COMMAND>"]
  join " " (["Usage:", f.call] ++ optional ++ required ++ operands ++ commands)

/-- The options in two columns. -/
def optionLines (options : List OptionForm) : List String :=
  twoColumns (options.map fun o =>
    (o.lead ++ o.title, join " " (o.help :: o.defaultNotes ++ o.choiceNotes)))

/-- The indentation of what is said about an option below it. -/
def indent : String := "          "

/-- An option with what is said about it below. -/
def longOptionLines (o : OptionForm) : List String :=
  let choices :=
    if o.choices.isEmpty then []
    else
      let width := (o.choices.map fun choice => choice.1.length).foldl max 0 + 1
      ["", indent ++ "Possible values:"] ++ o.choices.map fun (value, help) =>
        indent ++ "- " ++ padded width (value ++ ":") ++ " " ++ help
  ["  " ++ o.lead ++ o.title, indent ++ o.help] ++
    o.defaultNotes.flatMap (fun note => [indent, indent ++ note]) ++ choices

/-- The lines on all options. -/
def allOptionLines (f : Form) (long : Bool) : List String :=
  let options := f.options ++ f.commonOptions long
  if long then
    (options.map longOptionLines).flatMap (fun lines => "" :: lines) |>.drop 1
  else optionLines options

/-- The command for help that comes with further commands. -/
def helpCommand : String × String :=
  ("help", "Print this message or the help of the given subcommand(s)")

/-- What the form tells about itself. -/
def helpText (f : Form) (long : Bool) : String :=
  let long := long && f.hasLongHelp
  let commands := if f.commands.isEmpty then [] else f.commands ++ [helpCommand]
  let lines := [f.about, "", f.usage] ++
    block "Commands" (twoColumns commands) ++
    block "Arguments" (twoColumns (f.operands.map fun (name, help) =>
      ("<" ++ name ++ ">", help))) ++
    block "Options" (f.allOptionLines long)
  String.join (lines.map (· ++ "\n"))

end Form

/-! ## Arguments -/

/-- The parts of an argument. -/
inductive Token where
  | long (name : String) (value : Option String)
  | short (letter : Char) (value : Option String)
  /-- The mark after which nothing is an option. -/
  | mark
  | word (text : String)
  deriving DecidableEq, Repr

/-- The value that stands in the same argument as the letter of its option. -/
def attached? : List Char → Option String
  | [] => none
  | '=' :: rest => some (String.ofList rest)
  | rest => some (String.ofList rest)

/-- The parts of an argument. -/
def Token.ofArgument (argument : String) : Token :=
  match argument.toList with
  | ['-', '-'] => .mark
  | '-' :: '-' :: rest =>
    match cutFirst '=' rest with
    | some (name, value) => .long (String.ofList name) (some (String.ofList value))
    | none => .long (String.ofList rest) none
  | '-' :: letter :: rest => .short letter (attached? rest)
  | _ => .word argument

namespace Given

/-- The value of an option, if it was given. -/
def value? (g : Given) (name : String) : Option String :=
  (g.values.find? fun value => value.1 == name).map Prod.snd

/-- Whether an option was given. -/
def has (g : Given) (name : String) : Bool := (g.value? name).isSome

/-- Gives a value to an option, once and if it is one. -/
def give (g : Given) (o : OptionForm) (value : String) : Except Stop Given :=
  if g.has o.name || !o.accepts value then .error .misuse
  else .ok { g with values := g.values ++ [(o.name, value)] }

end Given

namespace Form

/-- What the options for help and for the version do. -/
def common? (f : Form) : Token → Option Stop
  | .long "help" none => some (.tell (f.helpText true))
  | .short 'h' _ => some (.tell (f.helpText false))
  | .long "version" none | .short 'V' _ => f.version.map .tell
  | _ => none

/-- The option that an argument names, with the value in the same argument. -/
def option? (f : Form) : Token → Option (OptionForm × Option String)
  | .long name value => (f.options.find? fun o => o.name == name).map (·, value)
  | .short letter value => (f.options.find? fun o => o.letter == some letter).map (·, value)
  | _ => none

/-- Takes the further command with its arguments, or one more operand. -/
def word (f : Form) (g : Given) (text : String) : Except Stop Given :=
  if g.operands.length < f.operands.length then
    .ok { g with operands := g.operands ++ [text] }
  else .error .misuse

/-- Reads arguments, after what was given so far. -/
def scan (f : Form) (g : Given) : List String → Except Stop Given
  | [] => .ok g
  | argument :: rest =>
    match Token.ofArgument argument with
    | .mark => rest.foldlM f.word g
    | .word text =>
      if f.commands.isEmpty then do f.scan (← f.word g text) rest
      else .ok { g with command := some (text, rest) }
    | token =>
      match f.common? token, f.option? token with
      | some stop, _ => .error stop
      | none, none => .error .misuse
      | none, some (o, attached) =>
        match o.value, attached with
        | none, none => do f.scan (← g.give o "") rest
        | none, some _ => .error .misuse
        | some _, some value => do f.scan (← g.give o value) rest
        | some _, none =>
          match rest with
          | [] => .error .misuse
          | value :: rest =>
            match Token.ofArgument value with
            | .word value => do f.scan (← g.give o value) rest
            | _ => .error .misuse

/-- Whether everything that the form requires was given. -/
def isFilled (f : Form) (g : Given) : Bool :=
  (f.options.all fun o => !o.required || g.has o.name) &&
    g.operands.length == f.operands.length && (f.commands.isEmpty || g.command.isSome)

/-- Reads the arguments of the command. -/
def read (f : Form) (arguments : List String) : Except Stop Given := do
  let given ← f.scan {} arguments
  if f.isFilled given then .ok given else .error .misuse

end Form
end Winnow.CommandLine
