import Disassembler.CommandLine.Arguments
import Disassembler.CommandLine.Directory
import Disassembler.Format.Output
import Disassembler.Load.Image
import Disassembler.Sweep

/-!
# Running a command line

The names of native functions are loaded first, then the images in the order of
their paths, then the output is written. The first failure ends the run, with
no output and no change to any file. A run is the same in every monad with
operations on files: the program has those of the system, and a directory is a
state that has them as well.
-/

namespace Disassembler.CommandLine

/-- Why an image could not be loaded from a file. -/
inductive ImageFileError where
  /-- The file could not be read. -/
  | unreadable (fault : FileFault)
  /-- The file does not hold a valid image. -/
  | invalid (error : LoadError)

/-- Why a run failed. -/
inductive RunError where
  /-- The file with the names of native functions could not be read. -/
  | nativesUnreadable (path : String) (fault : FileFault)
  /-- The file with the names of native functions does not hold them. -/
  | nativesInvalid (path : String) (error : LoadError)
  /-- An image could not be loaded. -/
  | image (path : String) (error : ImageFileError)
  /-- The output could not be written. -/
  | unwritable (path : String) (fault : FileFault)

/-- The texts of an image's error, from the widest to the innermost cause. For a text that holds no
image they end in the stand-in of `Load.Fault.message`. -/
def ImageFileError.causes : ImageFileError → List String
  | .unreadable fault => ["I/O error: " ++ fault.message, fault.message]
  | .invalid (.unreadable fault) => [LoadError.message (.unreadable fault)]
  | .invalid (.invalid fault) => [LoadError.message (.invalid fault), fault.message]

namespace RunError

/-- The text that says what failed. -/
def context : RunError → String
  | .nativesUnreadable path _ => "Failed to read native registry " ++ path
  | .nativesInvalid path _ => "Failed to parse native registry " ++ path
  | .image path _ => "Failed to load image " ++ path
  | .unwritable path _ => "Failed to write " ++ path

/-- The texts that say why it failed, from the widest to the innermost cause. Those for texts that
could not be loaded end in the stand-in of `Load.Fault.message`. -/
def causes : RunError → List String
  | .nativesUnreadable _ fault => [fault.message]
  | .nativesInvalid _ error => [error.message]
  | .image _ error => error.causes
  | .unwritable _ fault => [fault.message]

/-- A text behind a label, with its further lines as far in as the first one. -/
def indented (label text : String) : String :=
  let margin := String.ofList (List.replicate label.length ' ')
  label ++ String.join (text.toList.map fun c => if c = '\n' then "\n" ++ margin else c.toString) ++
    "\n"

/-- The texts of causes. They are numbered if there are several. -/
def causesText : List String → String
  | [cause] => indented "    " cause
  | causes => String.join (causes.mapIdx fun index cause =>
      indented ("    " ++ toString index ++ ": ") cause)

/-- The report of a failed run. -/
def report (error : RunError) : String :=
  "Error: " ++ error.context ++ "\n\nCaused by:\n" ++ causesText error.causes

end RunError

/-- Loads the names of native functions. Without a path there are none. -/
def loadNatives (read : String → Except FileFault Bytes) (path : Option String) :
    Except RunError Natives :=
  match path with
  | none => .ok {}
  | some path =>
    match read path with
    | .error fault => .error (.nativesUnreadable path fault)
    | .ok bytes => (Natives.load bytes).mapError (.nativesInvalid path)

/-- Loads an image from a file. -/
def loadImage (read : String → Except FileFault Bytes) (path : String) : Except RunError Image :=
  match read path with
  | .error fault => .error (.image path (.unreadable fault))
  | .ok bytes => (Image.load bytes).mapError fun error => .image path (.invalid error)

/-- Loads images, the first failure being that of the whole. -/
def loadImages (read : String → Except FileFault Bytes) :
    List String → Except RunError (List (String × Image))
  | [] => .ok []
  | path :: rest =>
    match loadImage read path with
    | .error error => .error error
    | .ok image =>
      match loadImages read rest with
      | .error error => .error error
      | .ok images => .ok ((path, image) :: images)

/-- The listing of an image that was loaded, and so has source lines. -/
def listing (natives : Natives) (image : Image) : Listing := (image.sweep? natives).getD {}

/-- The text of listings: one alone, or several with the names of their images. -/
def render (format : Format) : Batch → String
  | [(_, listing)] => listing.format format
  | batch => batch.format format

/-- The text that arguments ask for. -/
def outputText (read : String → Except FileFault Bytes) (arguments : Arguments) :
    Except RunError String :=
  match loadNatives read arguments.natives with
  | .error error => .error error
  | .ok natives =>
    match loadImages read arguments.images with
    | .error error => .error error
    | .ok images =>
      let batch := images.map fun (path, image) => (path, listing natives image)
      .ok (endLine (render (arguments.format.getD .standard) batch))

/-- How a run ends. -/
structure Outcome where
  /-- The exit code. -/
  code : Nat
  /-- The text of the standard output. -/
  output : String := ""
  /-- The text of the standard error output. -/
  errors : String := ""
  deriving DecidableEq

/-- The text that answers a request for the version. -/
def versionText : String := "ildis 0.1.0\n"

/-- A text that says how to use the command line. It is one line that stands for a longer text, with
all options and, if the arguments are in error, with the argument at fault. -/
def usageText : String :=
  "Usage: ildis [OPTIONS] <IMAGES>...\n"

/-- The outcome of a failed run. -/
def Outcome.failure (error : RunError) : Outcome := { code := 1, errors := error.report }

/-- The paths of the files that are read. -/
def Arguments.inputs (arguments : Arguments) : List String :=
  arguments.natives.toList ++ arguments.images

/-- The operations on files in a monad. -/
structure FileSystem (m : Type → Type) where
  /-- Reads the file at a path. -/
  read : String → m (Except FileFault Bytes)
  /-- Writes bytes to the file at a path. -/
  write : String → Bytes → m (Except FileFault Unit)

section

variable {m : Type → Type} [Monad m] (system : FileSystem m)

/-- Reads files, one after the other. -/
def readFiles : List String → m (List (String × Except FileFault Bytes))
  | [] => return []
  | path :: rest => do
    let found ← system.read path
    return (path, found) :: (← readFiles rest)

/-- Writes the text that arguments ask for to the output, or shows it if there is none. -/
def deliver (output : Option String) : Except RunError String → m Outcome
  | .error error => return .failure error
  | .ok text =>
    match output with
    | none => return { code := 0, output := text }
    | some path => do
      match ← system.write path text.toUTF8.toList with
      | .error fault => return .failure (.unwritable path fault)
      | .ok () => return { code := 0 }

/-- Disassembles images from files. All that is read is read before the output is written. -/
def disassembleIn (arguments : Arguments) : m Outcome := do
  let files ← readFiles system arguments.inputs
  let read (path : String) := (files.lookup path).getD (.error .missing)
  deliver system arguments.output (outputText read arguments)

/-- Runs a command line. -/
def runIn (texts : List String) : m Outcome :=
  match Command.ofTexts? texts with
  | none => return { code := 2, errors := usageText }
  | some .version => return { code := 0, output := versionText }
  | some .help => return { code := 0, output := usageText }
  | some (.disassemble arguments) => disassembleIn system arguments

end

/-- The operations on the files of a directory, which is the state. -/
def Directory.system : FileSystem (StateM Directory) where
  read path := fun directory => (directory.read path, directory)
  write path bytes := fun directory =>
    match directory.write path bytes with
    | .error fault => (.error fault, directory)
    | .ok after => (.ok (), after)

/-- Reading in a directory keeps it. -/
@[simp] theorem Directory.run_read (directory : Directory) (path : String) :
    (system.read path).run directory = pure (directory.read path, directory) := rfl

/-- Writing in a directory changes it unless it fails. -/
@[simp] theorem Directory.run_write (directory : Directory) (path : String) (bytes : Bytes) :
    (system.write path bytes).run directory =
      match directory.write path bytes with
      | .error fault => pure (.error fault, directory)
      | .ok after => pure (.ok (), after) := rfl

/-- Disassembles images in a directory. -/
def disassemble (directory : Directory) (arguments : Arguments) : Outcome × Directory :=
  (disassembleIn Directory.system arguments).run directory

/-- Runs a command line in a directory. -/
def run (directory : Directory) (texts : List String) : Outcome × Directory :=
  (runIn Directory.system texts).run directory

end Disassembler.CommandLine
