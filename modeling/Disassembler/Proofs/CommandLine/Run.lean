import Disassembler.CommandLine.Run
import Disassembler.Proofs.Attribution
import Disassembler.Proofs.CommandLine.Arguments
import Disassembler.Proofs.CommandLine.Files
import Disassembler.Proofs.NamesInRows
import Mathlib.Data.List.Forall2

/-!
# Runs succeed as a whole or change nothing

A run needs the names of native functions, each of the images, and a place for the output. The first
of these that is missing is reported, and no file is changed. If all are there, the output is that
of the images as they were, also where it takes the place of one of them. A run reads its files
before it writes, so in a directory all of this depends on the files as they are at first.
-/

namespace Disassembler.CommandLine

namespace RunError

/-- What failed. -/
def task : RunError → String
  | .nativesUnreadable _ _ => "read native registry"
  | .nativesInvalid _ _ => "parse native registry"
  | .image _ _ => "load image"
  | .unwritable _ _ => "write"

/-- The file with which it failed. -/
def file : RunError → String
  | .nativesUnreadable path _ | .nativesInvalid path _ | .image path _ | .unwritable path _ => path

/-- The text that says what failed names the file. -/
theorem context_eq (error : RunError) :
    error.context = "Failed to " ++ error.task ++ " " ++ error.file := by
  cases error with
  | nativesUnreadable path _ =>
    show "Failed to read native registry " ++ path =
      "Failed to " ++ "read native registry" ++ " " ++ path
    simp
  | nativesInvalid path _ =>
    show "Failed to parse native registry " ++ path =
      "Failed to " ++ "parse native registry" ++ " " ++ path
    simp
  | image path _ =>
    show "Failed to load image " ++ path = "Failed to " ++ "load image" ++ " " ++ path
    simp
  | unwritable path _ =>
    show "Failed to write " ++ path = "Failed to " ++ "write" ++ " " ++ path
    simp

/-- A report names what failed, the file and the causes. -/
theorem report_eq (error : RunError) :
    error.report = "Error: Failed to " ++ error.task ++ " " ++ error.file ++ "\n\nCaused by:\n" ++
      causesText error.causes := by
  have label : "Error: Failed to " = "Error: " ++ "Failed to " := by decide
  rw [report, context_eq, label]
  simp only [String.append_assoc]

end RunError

section

variable {α : Type} (read : String → Except FileFault Bytes) (load : Bytes → Except LoadError α)
  (unreadable : FileFault → RunError) (invalid : LoadError → RunError) (path : String)

/-- A value is loaded from the file at a path. -/
def Holds (value : α) : Prop := ∃ bytes, read path = .ok bytes ∧ load bytes = .ok value

/-- No value is loaded from the file at a path, for which there is an error. -/
inductive Lacks : RunError → Prop where
  /-- The file cannot be read. -/
  | unreadable {fault : FileFault} : read path = .error fault → Lacks (unreadable fault)
  /-- What it holds is no such value. -/
  | invalid {bytes : Bytes} {error : LoadError} : read path = .ok bytes →
      load bytes = .error error → Lacks (invalid error)

/-- Loads a value from the file at a path. -/
def loadFrom : Except RunError α :=
  match read path with
  | .error fault => .error (unreadable fault)
  | .ok bytes => (load bytes).mapError invalid

variable {read load unreadable invalid path} {value : α} {error : RunError}

/-- A value is loaded exactly if the file holds it. -/
theorem loadFrom_eq_ok_iff :
    loadFrom read load unreadable invalid path = .ok value ↔ Holds read load path value := by
  cases found : read path with
  | error fault => simp [loadFrom, Holds, found]
  | ok bytes =>
    cases loaded : load bytes <;> simp [loadFrom, Holds, found, loaded, Except.mapError]

/-- An error is reported exactly if it is that of a file without such a value. -/
theorem loadFrom_eq_error_iff :
    loadFrom read load unreadable invalid path = .error error ↔
      Lacks read load unreadable invalid path error := by
  constructor
  · intro failed
    cases found : read path with
    | error fault =>
      have same : unreadable fault = error := by simpa [loadFrom, found] using failed
      exact same ▸ .unreadable found
    | ok bytes =>
      cases loaded : load bytes with
      | error fault =>
        have same : invalid fault = error := by
          simpa [loadFrom, found, loaded, Except.mapError] using failed
        exact same ▸ .invalid found loaded
      | ok value => simp [loadFrom, found, loaded, Except.mapError] at failed
  · intro fault
    cases fault with
    | unreadable failed => simp [loadFrom, failed]
    | invalid found failed => simp [loadFrom, found, failed, Except.mapError]

end

variable (read : String → Except FileFault Bytes) (arguments : Arguments)

/-- Native functions have the names in the file at a path, or none without a path. -/
def HoldsNatives : Option String → Natives → Prop
  | none, natives => natives = {}
  | some path, natives => Holds read Natives.load path natives

/-- The names of native functions cannot be loaded from the file at a path. -/
def LacksNatives (path : String) : RunError → Prop :=
  Lacks read Natives.load (.nativesUnreadable path) (.nativesInvalid path) path

/-- An image cannot be loaded from the file at a path. -/
def LacksImage (path : String) : RunError → Prop :=
  Lacks read Image.load (.image path <| .unreadable ·) (.image path <| .invalid ·) path

/-- The output for listings with the names of their images: that of one alone, or of several
together. -/
inductive Rendered (format : Format) : Batch → String → Prop where
  /-- There is one listing. -/
  | single {name : String} {listing : Listing} :
      Rendered format [(name, listing)] (listing.format format)
  /-- There are several. -/
  | several {batch : Batch} : batch.length ≠ 1 → Rendered format batch (batch.format format)

/-- A text has a line feed added to it exactly if it is not empty and does not end in one. -/
structure ClosedAs (text closed : String) : Prop where
  /-- Nothing is added to an empty text, nor to one with a line feed at its end. -/
  kept : text = "" ∨ text.toList.getLast? = some '\n' → closed = text
  /-- A line feed is added to any other text. -/
  added : text ≠ "" → text.toList.getLast? ≠ some '\n' → closed = text ++ "\n"

/-- The text that arguments ask for: the listings of the images, in the order of the arguments, in
the format that they choose. -/
inductive Shows : String → Prop where
  /-- The listings are those of the images that the files hold. -/
  | mk {natives : Natives} {batch : Batch} {rendered text : String} :
      HoldsNatives read arguments.natives natives →
      List.Forall₂ (fun path entry => entry.1 = path ∧
        ∃ image, Holds read Image.load path image ∧ image.sweep? natives = some entry.2)
        arguments.images batch →
      Rendered (arguments.format.getD .standard) batch rendered →
      ClosedAs rendered text → Shows text

variable {read arguments} {path? : Option String} {path text : String} {paths : List String}
  {natives : Natives} {image : Image} {images : List (String × Image)} {error : RunError}

/-- Names are loaded exactly if the file holds them. -/
theorem loadNatives_eq_ok_iff :
    loadNatives read path? = .ok natives ↔ HoldsNatives read path? natives := by
  cases path? with
  | none => simp [loadNatives, HoldsNatives, eq_comm]
  | some path => exact loadFrom_eq_ok_iff

/-- Names are not loaded because of the file that was given. -/
theorem loadNatives_eq_error_iff :
    loadNatives read path? = .error error ↔
      ∃ path, path? = some path ∧ LacksNatives read path error := by
  cases path? with
  | none => simp [loadNatives]
  | some path =>
    have failed : loadNatives read (some path) = .error error ↔ LacksNatives read path error :=
      loadFrom_eq_error_iff
    simp [failed]

/-- An image is loaded exactly if the file holds it. -/
theorem loadImage_eq_ok_iff :
    loadImage read path = .ok image ↔ Holds read Image.load path image :=
  loadFrom_eq_ok_iff

/-- An image is not loaded because of its file. -/
theorem loadImage_eq_error_iff : loadImage read path = .error error ↔ LacksImage read path error :=
  loadFrom_eq_error_iff

/-- Images are loaded one by one. -/
theorem loadImages_cons_eq_ok_iff :
    loadImages read (path :: paths) = .ok images ↔
      ∃ image others, Holds read Image.load path image ∧ loadImages read paths = .ok others ∧
        images = (path, image) :: others := by
  simp only [← loadImage_eq_ok_iff]
  cases here : loadImage read path with
  | error error => simp [loadImages, here]
  | ok image =>
    cases further : loadImages read paths with
    | error error => simp [loadImages, here, further]
    | ok others => simp [loadImages, here, further, eq_comm]

/-- Images are not loaded if the first one is not, or else the others are not. -/
theorem loadImages_cons_eq_error_iff :
    loadImages read (path :: paths) = .error error ↔
      LacksImage read path error ∨
        (∃ image, Holds read Image.load path image) ∧ loadImages read paths = .error error := by
  simp only [← loadImage_eq_ok_iff, ← loadImage_eq_error_iff]
  cases here : loadImage read path with
  | error error => simp [loadImages, here]
  | ok image =>
    cases further : loadImages read paths with
    | error error => simp [loadImages, here, further]
    | ok others => simp [loadImages, here, further]

/-- Images are loaded in the order of their paths. -/
theorem loadImages_eq_ok_iff :
    loadImages read paths = .ok images ↔
      List.Forall₂ (fun path entry => entry.1 = path ∧ Holds read Image.load path entry.2)
        paths images := by
  induction paths generalizing images with
  | nil => simp [loadImages, eq_comm]
  | cons path rest ih =>
    rw [loadImages_cons_eq_ok_iff, List.forall₂_cons_left_iff]
    constructor
    · rintro ⟨image, others, held, loaded, rfl⟩
      exact ⟨(path, image), others, ⟨rfl, held⟩, ih.mp loaded, rfl⟩
    · rintro ⟨⟨_, image⟩, others, ⟨rfl, held⟩, loaded, rfl⟩
      exact ⟨image, others, held, ih.mpr loaded, rfl⟩

/-- Images are not loaded because of the first file that holds none. -/
theorem loadImages_eq_error_iff :
    loadImages read paths = .error error ↔
      ∃ before path behind, paths = before ++ path :: behind ∧
        (∀ earlier ∈ before, ∃ image, Holds read Image.load earlier image) ∧
          LacksImage read path error := by
  induction paths with
  | nil => simp [loadImages]
  | cons path rest ih =>
    rw [loadImages_cons_eq_error_iff, ih]
    constructor
    · rintro (lacks | ⟨held, before, culprit, behind, rfl, loaded, lacks⟩)
      · exact ⟨[], path, rest, rfl, by simp, lacks⟩
      · exact ⟨path :: before, culprit, behind, rfl, List.forall_mem_cons.mpr ⟨held, loaded⟩, lacks⟩
    · rintro ⟨before, culprit, behind, split, loaded, lacks⟩
      cases before with
      | nil =>
        cases split
        exact Or.inl lacks
      | cons first before =>
        cases split
        obtain ⟨held, loaded⟩ := List.forall_mem_cons.mp loaded
        exact Or.inr ⟨held, before, culprit, behind, rfl, loaded, lacks⟩

/-- Images are loaded exactly if each of the files holds one. -/
theorem exists_loadImages_iff :
    (∃ images, loadImages read paths = .ok images) ↔
      ∀ path ∈ paths, ∃ image, Holds read Image.load path image := by
  induction paths with
  | nil => simp [loadImages]
  | cons path rest ih =>
    rw [List.forall_mem_cons, ← ih]
    constructor
    · rintro ⟨images, loaded⟩
      obtain ⟨image, others, held, further, -⟩ := loadImages_cons_eq_ok_iff.mp loaded
      exact ⟨⟨image, held⟩, others, further⟩
    · rintro ⟨⟨image, held⟩, others, further⟩
      exact ⟨_, loadImages_cons_eq_ok_iff.mpr ⟨image, others, held, further, rfl⟩⟩

/-- The listing of an image that was loaded is that of its sweep. -/
theorem sweep?_listing (held : Holds read Image.load path image) :
    image.sweep? natives = some (listing natives image) := by
  obtain ⟨bytes, -, loaded⟩ := held
  obtain ⟨_, _, shown, follows⟩ := image.exists_follows natives (Image.sourced_of_load loaded)
  rw [listing, follows.sweep?_eq]
  rfl

/-- Listings are rendered alone or together. -/
theorem rendered_render (format : Format) (batch : Batch) :
    Rendered format batch (render format batch) := by
  match batch with
  | [] => exact .several (by simp)
  | [(_, _)] => exact .single
  | _ :: _ :: _ => exact .several (by simp)

/-- A line feed is added to a text that needs one. -/
theorem closedAs_endLine (text : String) : ClosedAs text (endLine text) := by
  unfold endLine
  constructor
  · rintro (empty | last)
    · rw [if_pos (by simp [empty])]
    · rw [if_pos (by simp [last])]
  · intro nonempty unended
    rw [if_neg (by simp [nonempty, unended])]

/-- If all is loaded, the output is the text that the arguments ask for. -/
theorem exists_shows (held : HoldsNatives read arguments.natives natives)
    (loaded : loadImages read arguments.images = .ok images) :
    ∃ text, outputText read arguments = .ok text ∧ Shows read arguments text := by
  have named := loadNatives_eq_ok_iff.mpr held
  have listed : List.Forall₂ (fun path entry => entry.1 = path ∧
      ∃ image, Holds read Image.load path image ∧ image.sweep? natives = some entry.2)
      arguments.images (images.map fun entry => (entry.1, listing natives entry.2)) := by
    rw [List.forall₂_map_right_iff]
    apply (loadImages_eq_ok_iff.mp loaded).imp
    rintro path ⟨_, image⟩ ⟨rfl, here⟩
    exact ⟨rfl, image, here, sweep?_listing here⟩
  exact ⟨_, by simp only [outputText, named, loaded],
    .mk held listed (rendered_render _ _) (closedAs_endLine _)⟩

/-- A directory has all that a run needs. -/
structure Ready (directory : Directory) (arguments : Arguments) : Prop where
  /-- The names of native functions are loaded. -/
  natives : ∃ natives, HoldsNatives directory.read arguments.natives natives
  /-- Each of the images is loaded. -/
  images : ∀ path ∈ arguments.images, ∃ image, Holds directory.read Image.load path image
  /-- The output can be written. -/
  output : ∀ path, arguments.output = some path → ∃ place, directory.writable path = .ok place

/-- A run fails with the error of the first file that it cannot use: that of the names of native
functions, then that of an image, in the order of the arguments, then that of the output. -/
inductive Fails (directory : Directory) (arguments : Arguments) : RunError → Prop where
  /-- The names of native functions are not loaded. -/
  | natives {path : String} {error : RunError} : arguments.natives = some path →
      LacksNatives directory.read path error → Fails directory arguments error
  /-- The names are loaded, and all images before one that is not. -/
  | image {natives : Natives} {before behind : List String} {path : String} {error : RunError} :
      HoldsNatives directory.read arguments.natives natives →
      arguments.images = before ++ path :: behind →
      (∀ earlier ∈ before, ∃ image, Holds directory.read Image.load earlier image) →
      LacksImage directory.read path error → Fails directory arguments error
  /-- All is loaded, but the output cannot be written. -/
  | output {natives : Natives} {path : String} {fault : FileFault} :
      HoldsNatives directory.read arguments.natives natives →
      (∀ path ∈ arguments.images, ∃ image, Holds directory.read Image.load path image) →
      arguments.output = some path → directory.writable path = .error fault →
      Fails directory arguments (.unwritable path fault)

variable {directory : Directory}

/-- A run fails if it does not have all that it needs. -/
theorem exists_fails (lacking : ¬ Ready directory arguments) :
    ∃ error, Fails directory arguments error := by
  cases names : loadNatives directory.read arguments.natives with
  | error error =>
    obtain ⟨path, given, lacks⟩ := loadNatives_eq_error_iff.mp names
    exact ⟨error, .natives given lacks⟩
  | ok natives =>
    have held := loadNatives_eq_ok_iff.mp names
    cases loaded : loadImages directory.read arguments.images with
    | error error =>
      obtain ⟨before, path, behind, split, earlier, lacks⟩ := loadImages_eq_error_iff.mp loaded
      exact ⟨error, .image held split earlier lacks⟩
    | ok images =>
      have all := exists_loadImages_iff.mp ⟨images, loaded⟩
      have written : ∃ path fault, arguments.output = some path ∧
          directory.writable path = .error fault := by
        apply Classical.byContradiction
        intro writable
        apply lacking
        refine ⟨⟨natives, held⟩, all, ?_⟩
        intro path given
        cases found : directory.writable path with
        | error fault => exact absurd ⟨path, fault, given, found⟩ writable
        | ok place => exact ⟨place, rfl⟩
      obtain ⟨path, fault, given, unwritable⟩ := written
      exact ⟨_, .output held all given unwritable⟩

section

variable {read' : String → Except FileFault Bytes}

/-- The images that are loaded depend on the files at their paths only. -/
theorem loadImages_congr (same : ∀ path ∈ paths, read path = read' path) :
    loadImages read paths = loadImages read' paths := by
  induction paths with
  | nil => rfl
  | cons path rest ih =>
    obtain ⟨first, others⟩ := List.forall_mem_cons.mp same
    have image : loadImage read path = loadImage read' path := by
      simp only [loadImage, first]
    simp only [loadImages, image, ih others]

/-- The output depends on the files that are read only. -/
theorem outputText_congr (same : ∀ path ∈ arguments.inputs, read path = read' path) :
    outputText read arguments = outputText read' arguments := by
  have images : loadImages read arguments.images = loadImages read' arguments.images :=
    loadImages_congr fun path among => same path (List.mem_append_right _ among)
  have natives : loadNatives read arguments.natives = loadNatives read' arguments.natives := by
    cases given : arguments.natives with
    | none => rfl
    | some path =>
      have found := same path (List.mem_append_left _ (by simp [given]))
      simp only [loadNatives, found]
  simp only [outputText, images, natives]

end

/-- The files of a directory are read as they are, and the directory is kept. -/
theorem readFiles_eq (paths : List String) :
    (readFiles Directory.system paths).run directory =
      pure (paths.map fun path => (path, directory.read path), directory) := by
  induction paths with
  | nil => rfl
  | cons path rest ih =>
    simp only [readFiles, StateT.run_bind, Directory.run_read, pure_bind, ih]
    rfl

/-- In a directory the output depends on the files as they are at first. -/
theorem disassemble_eq :
    disassemble directory arguments =
      (deliver Directory.system arguments.output (outputText directory.read arguments)).run
        directory := by
  have found (path : String) (among : path ∈ arguments.inputs) :
      ((arguments.inputs.map fun path => (path, directory.read path)).lookup path).getD
        (.error .missing) = directory.read path := by
    rw [List.lookup_graph _ among]
    rfl
  rw [disassemble, disassembleIn, StateT.run_bind, readFiles_eq, pure_bind,
    ← outputText_congr found]

/-- A text that cannot be written is not shown either, and the directory is kept. -/
theorem deliver_eq_of_error {path : String} {fault : FileFault}
    (unwritten : directory.write path text.toUTF8.toList = .error fault) :
    (deliver Directory.system (some path) (.ok text)).run directory =
      (.failure (.unwritable path fault), directory) := by
  simp only [deliver, StateT.run_bind, Directory.run_write, unwritten]
  rfl

/-- A text that can be written is in the directory afterwards, and is not shown. -/
theorem deliver_eq_of_ok {path : String} {after : Directory}
    (written : directory.write path text.toUTF8.toList = .ok after) :
    (deliver Directory.system (some path) (.ok text)).run directory = ({ code := 0 }, after) := by
  simp only [deliver, StateT.run_bind, Directory.run_write, written]
  rfl

/-- A run that fails reports its error and changes nothing. -/
theorem Fails.disassemble_eq (fails : Fails directory arguments error) :
    disassemble directory arguments = (.failure error, directory) := by
  rw [CommandLine.disassemble_eq]
  cases fails with
  | natives given lacks =>
    have names := loadNatives_eq_error_iff.mpr ⟨_, given, lacks⟩
    simp only [outputText, names]
    rfl
  | image held split earlier lacks =>
    have names := loadNatives_eq_ok_iff.mpr held
    have loaded := loadImages_eq_error_iff.mpr ⟨_, _, _, split, earlier, lacks⟩
    simp only [outputText, names, loaded]
    rfl
  | output held all given unwritable =>
    obtain ⟨images, loaded⟩ := exists_loadImages_iff.mpr all
    obtain ⟨text, shown, -⟩ := exists_shows held loaded
    rw [shown, given]
    exact deliver_eq_of_error (by rw [Directory.write, unwritable, Except.map])

/-- A run that has all it needs has the text that the arguments ask for. -/
theorem Ready.exists_shows (ready : Ready directory arguments) :
    ∃ text, outputText directory.read arguments = .ok text ∧
      Shows directory.read arguments text := by
  obtain ⟨natives, held⟩ := ready.natives
  obtain ⟨images, loaded⟩ := exists_loadImages_iff.mpr ready.images
  exact CommandLine.exists_shows held loaded

/-- Without an output the text is shown, whatever can be written. -/
theorem disassemble_unwritten (shown : outputText directory.read arguments = .ok text) :
    disassemble directory arguments.unwritten = ({ code := 0, output := text }, directory) := by
  have same : outputText directory.read arguments.unwritten = .ok text := shown
  rw [disassemble_eq, same]
  rfl

/-- With an output the text is written, and nothing is shown. -/
theorem disassemble_written {path : String} {after : Directory}
    (shown : outputText directory.read arguments = .ok text) (given : arguments.output = some path)
    (written : directory.write path text.toUTF8.toList = .ok after) :
    disassemble directory arguments = ({ code := 0 }, after) := by
  rw [disassemble_eq, shown, given]
  exact deliver_eq_of_ok written

/-- The outcome of a command line that asks for images. -/
theorem run_eq {texts : List String}
    (accepted : Command.ofTexts? texts = some (.disassemble arguments)) :
    run directory texts = disassemble directory arguments := by
  simp only [run, runIn, accepted]
  rfl

/-- A run that fails reports what failed with which file, shows nothing and keeps the directory. -/
theorem Fails.run_eq {texts : List String} (fails : Fails directory arguments error)
    (accepted : Command.ofTexts? texts = some (.disassemble arguments)) :
    run directory texts =
      ({ code := 1, output := "", errors := "Error: Failed to " ++ error.task ++ " " ++
        error.file ++ "\n\nCaused by:\n" ++ RunError.causesText error.causes }, directory) := by
  rw [CommandLine.run_eq accepted, fails.disassemble_eq, Outcome.failure, error.report_eq]

/-- A run comes to a text, which is shown or else written. -/
structure Succeeds (directory : Directory) (texts : List String) (arguments : Arguments)
    (text : String) : Prop where
  /-- It is the text that the arguments ask for. -/
  asked : Shows directory.read arguments text
  /-- The command line without an output shows it and changes nothing. -/
  unwritten : run directory (withoutOutput texts) = ({ code := 0, output := text }, directory)
  /-- If no output is given, the text is shown and nothing is changed. -/
  shown : arguments.output = none →
    run directory texts = ({ code := 0, output := text }, directory)
  /-- If an output is given, its file holds the text afterwards, no other file is changed, and
  nothing is shown. -/
  written : ∀ path, arguments.output = some path → ∃ after,
    run directory texts = ({ code := 0, output := "" }, after) ∧
      directory.Rewritten path text.toUTF8.toList after

/-- A run that has all that it needs succeeds. -/
theorem Ready.succeeds {texts : List String} (ready : Ready directory arguments)
    (accepted : Command.ofTexts? texts = some (.disassemble arguments)) :
    ∃ text, Succeeds directory texts arguments text := by
  obtain ⟨text, shown, asked⟩ := ready.exists_shows
  have unwritten := disassemble_unwritten shown
  refine ⟨text, asked, ?unwritten, ?shown, ?written⟩
  case unwritten =>
    rw [run_eq (Arguments.scan?_withoutOutput accepted), unwritten]
  case shown =>
    intro none
    have same : arguments.unwritten = arguments := by
      cases arguments
      cases none
      rfl
    rw [run_eq accepted, ← same, unwritten]
  case written =>
    intro path given
    obtain ⟨place, writable⟩ := ready.output path given
    have nonempty : path ≠ "" := fun empty =>
      Arguments.output_ne_of_ofTexts? accepted (empty ▸ given)
    obtain ⟨after, written, rewritten⟩ :=
      Directory.exists_rewritten nonempty writable text.toUTF8.toList
    exact ⟨after, (run_eq accepted).trans (disassemble_written shown given written), rewritten⟩

/-- The exit code of a run that succeeds is zero. -/
theorem Succeeds.code_eq {texts : List String}
    (succeeds : Succeeds directory texts arguments text) : (run directory texts).1.code = 0 := by
  cases output : arguments.output with
  | none => rw [succeeds.shown output]
  | some path =>
    obtain ⟨after, done, -⟩ := succeeds.written path output
    rw [done]

/-- A run succeeds exactly if it has all that it needs. Otherwise the first file that it cannot use
is reported, nothing is shown and no file is changed. A run that succeeds shows the text that the
arguments ask for, or else writes it to the output, as the same command line without an output would
show it, and changes no other file.

The report is exact up to what is wrong with a document, for which `Load.Fault.message` has a text
that stands in for that of the reader of documents. -/
theorem run_succeeds_or_keeps (directory : Directory) (texts : List String) (arguments : Arguments)
    (accepted : Command.ofTexts? texts = some (.disassemble arguments)) :
    ((run directory texts).1.code = 0 ↔ Ready directory arguments) ∧
      (¬ Ready directory arguments → ∃ error, Fails directory arguments error) ∧
      (∀ error, Fails directory arguments error → run directory texts =
        ({ code := 1, output := "", errors := "Error: Failed to " ++ error.task ++ " " ++
          error.file ++ "\n\nCaused by:\n" ++ RunError.causesText error.causes }, directory)) ∧
      (Ready directory arguments → ∃ text, Succeeds directory texts arguments text) := by
  refine ⟨⟨?ready, ?zero⟩, exists_fails, fun _ fails => fails.run_eq accepted,
    fun ready => ready.succeeds accepted⟩
  case ready =>
    intro zero
    apply Classical.byContradiction
    intro lacking
    obtain ⟨error, fails⟩ := exists_fails lacking
    rw [fails.run_eq accepted] at zero
    cases zero
  case zero =>
    intro ready
    obtain ⟨text, succeeds⟩ := ready.succeeds accepted
    exact succeeds.code_eq

/-- A directory with one image. -/
def Directory.withImage : Directory :=
  put {} { names := ["a"] } (fileBytes (Image.naming "f" "s").toValue.compact)

/-- The output takes the place of the image, and is the one that is shown without an output. -/
theorem run_rewrites_image :
    Command.ofTexts? ["a", "-o", "a"] =
        some (.disassemble { images := ["a"], output := some "a" }) ∧
      Ready .withImage { images := ["a"], output := some "a" } ∧
      ∃ text after, Shows Directory.withImage.read { images := ["a"], output := some "a" } text ∧
        run .withImage ["a"] = ({ code := 0, output := text }, .withImage) ∧
        run .withImage ["a", "-o", "a"] = ({ code := 0 }, after) ∧
        after.read "a" = .ok text.toUTF8.toList := by
  have accepted : Command.ofTexts? ["a", "-o", "a"] =
      some (.disassemble { images := ["a"], output := some "a" }) := by
    decide +kernel
  have writable : Directory.writable {} "a" = .ok { names := ["a"] } := by decide +kernel
  have ready : Ready .withImage { images := ["a"], output := some "a" } := by
    constructor
    case natives => exact ⟨{}, rfl⟩
    case images =>
      intro path among
      obtain rfl := List.mem_singleton.mp among
      exact ⟨Image.naming "f" "s", _, Directory.read_put (by decide) writable _,
        Image.load_naming "f" "s"⟩
    case output =>
      rintro path ⟨⟩
      exact ⟨_, Directory.writable_put writable _⟩
  obtain ⟨-, -, -, succeeds⟩ := run_succeeds_or_keeps .withImage _ _ accepted
  obtain ⟨text, succeeds⟩ := succeeds ready
  obtain ⟨after, done, rewritten⟩ := succeeds.written "a" rfl
  exact ⟨accepted, ready, text, after, succeeds.asked, succeeds.unwritten, done, rewritten.read⟩

end Disassembler.CommandLine
