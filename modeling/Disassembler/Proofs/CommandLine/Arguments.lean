import Disassembler.CommandLine.Arguments

/-!
# Arguments without an output

A command line that names an output asks for the same, but for the output, as the one from which the
option and its value are left out. What an argument stands for can depend on the one before it, so
the arguments are left out along the scan.
-/

namespace Disassembler.CommandLine

/-- The arguments of a command line but for the output and its option. Behind two dashes there are
paths only, so nothing is left out there. -/
def withoutOutput : List String → List String
  | [] => []
  | text :: rest =>
    match Argument.ofText text with
    | .separator => text :: rest
    | .option .output (some _) => withoutOutput rest
    | .option .output none =>
      match rest with
      | [] => []
      | _ :: rest => withoutOutput rest
    | .option _ none =>
      match rest with
      | [] => [text]
      | value :: rest => text :: value :: withoutOutput rest
    | _ => text :: withoutOutput rest

namespace Arguments

/-- What arguments choose but for the output. -/
def unwritten (arguments : Arguments) : Arguments := { arguments with output := none }

variable {arguments chosen : Arguments} {path value : String} {paths texts : List String}

/-- The path of an image is added whether or not there is an output. -/
theorem addImage?_unwritten (added : arguments.addImage? path = some chosen) :
    arguments.unwritten.addImage? path = some chosen.unwritten := by
  unfold addImage? at added ⊢
  split at added
  · cases added
  · rename_i nonempty
    cases added
    exact if_neg nonempty

/-- The paths of images are added whether or not there is an output. -/
theorem addImages?_unwritten (added : arguments.addImages? paths = some chosen) :
    arguments.unwritten.addImages? paths = some chosen.unwritten := by
  induction paths generalizing arguments with
  | nil =>
    cases added
    rfl
  | cons path rest ih =>
    obtain ⟨next, here, further⟩ := Option.bind_eq_some_iff.mp added
    exact Option.bind_eq_some_iff.mpr ⟨_, addImage?_unwritten here, ih further⟩

/-- The value of another option is set whether or not there is an output, which stays as it is. -/
theorem set?_unwritten {setting : Setting} (other : setting ≠ .output)
    (set : arguments.set? setting value = some chosen) :
    arguments.unwritten.set? setting value = some chosen.unwritten ∧
      chosen.output = arguments.output := by
  unfold set? at set ⊢
  split at set
  · cases set
  · rename_i nonempty
    rw [if_neg nonempty]
    cases setting with
    | natives =>
      simp only at set ⊢
      split at set
      · cases set
      · rename_i unset
        cases set
        exact ⟨if_neg unset, rfl⟩
    | format =>
      simp only at set ⊢
      split at set
      · cases set
      · rename_i unset
        obtain ⟨format, found, same⟩ := Option.map_eq_some_iff.mp set
        cases same
        rw [found]
        exact ⟨if_neg unset, rfl⟩
    | output => exact absurd rfl other

/-- The option of the output sets the output only, once, and to no empty path. -/
theorem set?_output_eq_some_iff :
    arguments.set? .output value = some chosen ↔
      value ≠ "" ∧ arguments.output = none ∧ { arguments with output := some value } = chosen := by
  unfold set?
  by_cases empty : value = ""
  · simp [empty]
  · cases output : arguments.output with
    | none => simp [empty]
    | some path => simp [empty]

/-- Images are asked for whether or not there is an output. -/
theorem finish?_unwritten (finished : arguments.finish? = some (.disassemble chosen)) :
    arguments.unwritten.finish? = some (.disassemble chosen.unwritten) := by
  unfold finish? at finished ⊢
  split at finished
  · cases finished
  · rename_i nonempty
    cases finished
    exact if_neg nonempty

/-- Without the output and its option a command line asks for the same, but for the output. -/
theorem scan?_withoutOutput (scanned : arguments.scan? texts = some (.disassemble chosen)) :
    arguments.unwritten.scan? (withoutOutput texts) = some (.disassemble chosen.unwritten) := by
  fun_induction scan? arguments texts with
  | case1 arguments => exact finish?_unwritten scanned
  | case2 arguments text rest separator =>
    obtain ⟨all, added, finished⟩ := Option.bind_eq_some_iff.mp scanned
    have kept : withoutOutput (text :: rest) = text :: rest := by
      cases rest <;> simp only [withoutOutput, separator]
    simp only [kept, scan?, separator]
    exact Option.bind_eq_some_iff.mpr ⟨_, addImages?_unwritten added, finish?_unwritten finished⟩
  | case5 arguments text rest path plain next added ih =>
    have kept : withoutOutput (text :: rest) = text :: withoutOutput rest := by
      cases rest <;> simp only [withoutOutput, plain]
    simp only [kept, scan?, plain, addImage?_unwritten added]
    exact ih scanned
  | case7 arguments text rest setting value attached next set ih =>
    by_cases output : setting = .output
    · subst output
      obtain ⟨-, -, rfl⟩ := set?_output_eq_some_iff.mp set
      have left : withoutOutput (text :: rest) = withoutOutput rest := by
        cases rest <;> simp only [withoutOutput, attached]
      rw [left]
      exact ih scanned
    · have kept : withoutOutput (text :: rest) = text :: withoutOutput rest := by
        cases rest <;> simp [withoutOutput, attached, output]
      simp only [kept, scan?, attached, (set?_unwritten output set).1]
      exact ih scanned
  | case10 arguments text setting named given rest value plain next set ih =>
    by_cases output : setting = .output
    · subst output
      obtain ⟨-, -, rfl⟩ := set?_output_eq_some_iff.mp set
      have left : withoutOutput (text :: given :: rest) = withoutOutput rest := by
        simp only [withoutOutput, named]
      rw [left]
      exact ih scanned
    · have kept : withoutOutput (text :: given :: rest) = text :: given :: withoutOutput rest := by
        simp only [withoutOutput, named]
      simp only [kept, scan?, named, plain, (set?_unwritten output set).1]
      exact ih scanned
  | _ => cases scanned

/-- What holds of arguments is kept by each image and by each setting that is added. -/
structure Kept (holds : Arguments → Prop) : Prop where
  /-- Images keep it. -/
  image : ∀ {arguments chosen path}, arguments.addImage? path = some chosen → holds arguments →
    holds chosen
  /-- Settings keep it. -/
  setting : ∀ {arguments chosen setting value}, arguments.set? setting value = some chosen →
    holds arguments → holds chosen

variable {holds : Arguments → Prop}

/-- What each image keeps is kept by several. -/
theorem Kept.addImages? (kept : Kept holds) (added : arguments.addImages? paths = some chosen)
    (before : holds arguments) : holds chosen := by
  induction paths generalizing arguments with
  | nil =>
    cases added
    exact before
  | cons path rest ih =>
    obtain ⟨next, here, further⟩ := Option.bind_eq_some_iff.mp added
    exact ih further (kept.image here before)

/-- What is kept holds of all that a command line chooses. -/
theorem Kept.scan? (kept : Kept holds)
    (scanned : arguments.scan? texts = some (.disassemble chosen)) (before : holds arguments) :
    holds chosen := by
  have finish {last : Arguments} (finished : last.finish? = some (.disassemble chosen))
      (here : holds last) : holds chosen := by
    unfold finish? at finished
    split at finished
    · cases finished
    · cases finished
      exact here
  fun_induction Arguments.scan? arguments texts with
  | case1 arguments => exact finish scanned before
  | case2 arguments text rest separator =>
    obtain ⟨all, added, finished⟩ := Option.bind_eq_some_iff.mp scanned
    exact finish finished (kept.addImages? added before)
  | case5 arguments text rest path plain next added ih =>
    exact ih scanned (kept.image added before)
  | case7 arguments text rest setting value attached next set ih =>
    exact ih scanned (kept.setting set before)
  | case10 arguments text setting named given rest value plain next set ih =>
    exact ih scanned (kept.setting set before)
  | _ => cases scanned

/-- That there is no empty path for the output is kept. -/
theorem kept_output_ne : Kept fun arguments => arguments.output ≠ some "" where
  image added before := by
    unfold addImage? at added
    split at added
    · cases added
    · cases added
      exact before
  setting {arguments chosen setting value} set before := by
    by_cases output : setting = .output
    · subst output
      obtain ⟨nonempty, -, rfl⟩ := set?_output_eq_some_iff.mp set
      simpa using nonempty
    · rwa [(set?_unwritten output set).2]

/-- The path of the output is not empty. -/
theorem output_ne_of_ofTexts? (accepted : Command.ofTexts? texts = some (.disassemble chosen)) :
    chosen.output ≠ some "" :=
  kept_output_ne.scan? accepted (by simp)

end Arguments

end Disassembler.CommandLine
