import Disassembler.Format

/-!
# Arguments

Arguments are taken from left to right. Each is an option, the value of an
option or the path of an image; behind two dashes there are paths only. An
option may be given once. A value does not start with a dash, unless it is a
dash alone or is attached to its option, and no value or path is empty. A
request for the version or for help takes effect where it stands.
-/

namespace Disassembler.CommandLine

/-- What a command line chooses. -/
structure Arguments where
  /-- The paths of the images, in order. -/
  images : List String := []
  /-- The path of the names of native functions. -/
  natives : Option String := none
  /-- The format of the output. -/
  format : Option Format := none
  /-- The path of the output. -/
  output : Option String := none
  deriving DecidableEq

/-- What a command line asks for. -/
inductive Command where
  /-- Shows the version. -/
  | version
  /-- Shows how to use the command line. -/
  | help
  /-- Disassembles images. -/
  | disassemble (arguments : Arguments)
  deriving DecidableEq

/-- An option that has a value. -/
inductive Setting where
  /-- The path of the names of native functions. -/
  | natives
  /-- The format of the output. -/
  | format
  /-- The path of the output. -/
  | output
  deriving DecidableEq

/-- What one argument stands for. -/
inductive Argument where
  /-- The end of the options. -/
  | separator
  /-- A request for the version. -/
  | version
  /-- A request for help. -/
  | help
  /-- An option, with the value that is attached to it. -/
  | option (setting : Setting) (attached : Option String)
  /-- A path, or the value of the option before it. -/
  | plain (text : String)
  /-- An option that does not exist, or that has a value where none may be. -/
  | unknown
  deriving DecidableEq

namespace Setting

/-- The option with a letter. -/
def ofLetter? (c : Char) : Option Setting :=
  if c = 'n' then some .natives
  else if c = 'f' then some .format
  else if c = 'o' then some .output
  else none

/-- The option with a name. -/
def ofName? (name : List Char) : Option Setting :=
  if name = "natives".toList then some .natives
  else if name = "format".toList then some .format
  else if name = "output".toList then some .output
  else none

end Setting

namespace Argument

/-- The value attached to a letter, where an equality sign may stand before it. -/
def attachedToLetter : List Char → Option String
  | [] => none
  | '=' :: value => some (String.ofList value)
  | value => some (String.ofList value)

/-- An option that is given by its letter. -/
def ofLetter (letter : Char) (rest : List Char) : Argument :=
  if letter = 'V' then .version
  else if letter = 'h' then .help
  else match Setting.ofLetter? letter with
    | some setting => .option setting (attachedToLetter rest)
    | none => .unknown

/-- An option that is given by its name. -/
def ofName (text : List Char) : Argument :=
  let name := text.takeWhile (· != '=')
  let attached := match text.dropWhile (· != '=') with
    | [] => none
    | _ :: value => some (String.ofList value)
  if name = "version".toList then if attached.isNone then .version else .unknown
  else if name = "help".toList then if attached.isNone then .help else .unknown
  else match Setting.ofName? name with
    | some setting => .option setting attached
    | none => .unknown

/-- What an argument stands for. -/
def ofText (text : String) : Argument :=
  match text.toList with
  | ['-', '-'] => .separator
  | '-' :: '-' :: rest => ofName rest
  | '-' :: letter :: rest => ofLetter letter rest
  | _ => .plain text

end Argument

namespace Arguments

/-- Adds the path of an image. -/
def addImage? (arguments : Arguments) (path : String) : Option Arguments :=
  if path.isEmpty then none else some { arguments with images := arguments.images ++ [path] }

/-- Adds the paths of images. -/
def addImages? (arguments : Arguments) (paths : List String) : Option Arguments :=
  paths.foldlM addImage? arguments

/-- Gives a value to an option that has none yet. -/
def set? (arguments : Arguments) (setting : Setting) (value : String) : Option Arguments :=
  if value.isEmpty then none
  else match setting with
    | .natives =>
      if arguments.natives.isSome then none else some { arguments with natives := some value }
    | .output =>
      if arguments.output.isSome then none else some { arguments with output := some value }
    | .format =>
      if arguments.format.isSome then none
      else (Format.ofName? value).map fun format => { arguments with format := some format }

/-- What is asked for once all arguments are taken: at least one image has to be given. -/
def finish? (arguments : Arguments) : Option Command :=
  if arguments.images.isEmpty then none else some (.disassemble arguments)

/-- Takes the arguments that are left. -/
def scan? (arguments : Arguments) : List String → Option Command
  | [] => arguments.finish?
  | text :: rest =>
    match Argument.ofText text with
    | .separator => (arguments.addImages? rest).bind finish?
    | .version => some .version
    | .help => some .help
    | .plain path =>
      match arguments.addImage? path with
      | some arguments => scan? arguments rest
      | none => none
    | .option setting (some value) =>
      match arguments.set? setting value with
      | some arguments => scan? arguments rest
      | none => none
    | .option setting none =>
      match rest with
      | [] => none
      | next :: rest =>
        match Argument.ofText next with
        | .plain value =>
          match arguments.set? setting value with
          | some arguments => scan? arguments rest
          | none => none
        | _ => none
    | .unknown => none

end Arguments

/-- What a command line asks for, unless its arguments are in error. -/
def Command.ofTexts? (texts : List String) : Option Command := Arguments.scan? {} texts

end Disassembler.CommandLine
