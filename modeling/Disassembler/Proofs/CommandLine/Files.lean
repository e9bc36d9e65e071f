import Disassembler.CommandLine.Directory

/-!
# Writing one file

A path leads through directories only, and none of them is the place of a file that can be written.
So writing keeps what there is at every other place: no directory comes into being on the way and
none is lost. The path then leads to the same place, where the bytes are read back.
-/

namespace Disassembler.CommandLine

/-- What is behind the last separator of a text is not empty, if the text does not end in one. -/
theorem getLast?_splitOn_ne {text : List Char} {separator : Char} (nonempty : text ≠ [])
    (last : text.getLast? ≠ some separator) : (text.splitOn separator).getLast? ≠ some [] := by
  induction text with
  | nil => exact absurd rfl nonempty
  | cons c rest ih =>
    rw [List.splitOn_cons_eq_if_modifyHead]
    by_cases further : rest = []
    · subst further
      have other : (c == separator) = false := by simpa using last
      simp [other]
    · have inherited := ih further (by rwa [List.getLast?_cons_of_ne_nil further] at last)
      have parts : rest.splitOn separator ≠ [] := List.splitOn_ne_nil _ _
      split
      · rwa [List.getLast?_cons_of_ne_nil parts]
      · obtain ⟨part, others, split⟩ := List.exists_cons_of_ne_nil parts
        rw [split] at inherited ⊢
        cases others with
        | nil => simp
        | cons => simpa using inherited

/-- The last name on a path is not empty, if the path does not end in a slash. -/
theorem getLast?_pathNames_ne {path : String} (nonempty : path ≠ "")
    (unclosed : path.toList.getLast? ≠ some '/') : (pathNames path).getLast? ≠ some "" := by
  have parts := getLast?_splitOn_ne (by simpa using nonempty) unclosed
  rw [pathNames, List.getLast?_map]
  intro empty
  obtain ⟨part, ends, blank⟩ := Option.map_eq_some_iff.mp empty
  have none : part = [] := by simpa using blank
  exact parts (none ▸ ends)

/-- A name leads to the same place, to one without names, to the one above, or to one behind. -/
theorem Place.enter_cases (place : Place) (name : String) :
    place.enter name = place ∨ (place.enter name).names = [] ∨
      place.enter name = { place with names := place.names.dropLast } ∨
      place.enter name = { place with names := place.names ++ [name] } := by
  unfold enter
  split
  · exact Or.inl rfl
  · split
    · split
      · exact Or.inr (Or.inl rfl)
      · exact Or.inr (Or.inr (Or.inl rfl))
    · exact Or.inr (Or.inr (Or.inr rfl))

/-- Places that begin at the same base and have the same names are the same. -/
theorem Place.eq_of_names {place other : Place} (base : other.base = place.base)
    (names : other.names = place.names) : other = place := by
  cases place
  cases other
  cases base
  cases names
  rfl

namespace Directory

variable {directory after : Directory} {place other start next : Place} {path name : String}
  {names : List String} {bytes : Bytes}

/-- A place without names, or one that is on the way to a file. -/
def Leads (directory : Directory) (place : Place) : Prop :=
  place.names = [] ∨ ∃ file ∈ directory.files,
    file.1.base = place.base ∧ place.names <+: file.1.names

/-- Where no file is, there is a directory at places that lead to files, and nothing elsewhere. -/
theorem content_of_missing (missing : directory.files.lookup place = none) :
    directory.Leads place ∧ directory.content place = .directory ∨
      ¬ directory.Leads place ∧ directory.content place = .nothing := by
  have leads : (place.names = [] ∨ directory.files.any fun file =>
      file.1.base = place.base ∧ place.names.isPrefixOf file.1.names) ↔ directory.Leads place := by
    simp [Leads]
  simp only [content, missing]
  split
  · rename_i here
    exact Or.inl ⟨leads.mp here, rfl⟩
  · rename_i elsewhere
    exact Or.inr ⟨fun here => elsewhere (leads.mpr here), rfl⟩

/-- A directory leads to files, and no file is at its place. -/
theorem leads_of_directory (here : directory.content place = .directory) :
    directory.files.lookup place = none ∧ directory.Leads place := by
  cases found : directory.files.lookup place with
  | some bytes => simp [content, found] at here
  | none =>
    rcases content_of_missing found with ⟨leads, -⟩ | ⟨-, nothing⟩
    · exact ⟨rfl, leads⟩
    · cases here.symm.trans nothing

/-- There is something at a place that leads to files. -/
theorem content_ne_nothing (leads : directory.Leads place) :
    directory.content place ≠ .nothing := by
  intro missing
  cases found : directory.files.lookup place with
  | some bytes => simp [content, found] at missing
  | none =>
    rcases content_of_missing found with ⟨-, present⟩ | ⟨apart, -⟩
    · cases missing.symm.trans present
    · exact apart leads

/-- What is on the way to a place that leads to files leads to them, too. -/
theorem Leads.of_prefix (leads : directory.Leads place) (base : other.base = place.base)
    (way : other.names <+: place.names) : directory.Leads other := by
  rcases leads with top | ⟨file, among, sameBase, further⟩
  · exact Or.inl (List.prefix_nil.mp (top ▸ way))
  · exact Or.inr ⟨file, among, sameBase.trans base.symm, way.trans further⟩

/-- Nothing is missing on the way to a place. -/
def Enclosed (directory : Directory) (place : Place) : Prop :=
  ∀ other : Place, other.base = place.base → other.names <+: place.names → other ≠ place →
    directory.content other ≠ .nothing

/-- Nothing is on the way to a place without names. -/
theorem enclosed_of_top (top : place.names = []) : directory.Enclosed place := by
  intro other base way different
  rw [top] at way
  have same : other.names = place.names := (List.prefix_nil.mp way).trans top.symm
  exact absurd (Place.eq_of_names base same) different

/-- The file at a place holds the bytes that are put there. -/
theorem content_put_self (directory : Directory) (place : Place) (bytes : Bytes) :
    (directory.put place bytes).content place = .file bytes := by
  unfold content
  rw [lookup_put_self]

/-- If nothing is missing on the way to a place, other places lead to files after bytes are put
there exactly if they did before. -/
theorem leads_put_iff (enclosed : directory.Enclosed place) (different : other ≠ place)
    (missing : directory.files.lookup other = none) :
    (directory.put place bytes).Leads other ↔ directory.Leads other := by
  constructor
  · rintro (top | ⟨file, among, base, way⟩)
    · exact Or.inl top
    · rcases List.mem_cons.mp among with rfl | among
      · rcases content_of_missing missing with ⟨leads, -⟩ | ⟨-, nothing⟩
        · exact leads
        · exact absurd nothing (enclosed other base.symm way different)
      · exact Or.inr ⟨file, (List.mem_filter.mp among).1, base, way⟩
  · rintro (top | ⟨file, among, base, way⟩)
    · exact Or.inl top
    · by_cases same : file.1 = place
      · exact Or.inr ⟨(place, bytes), List.mem_cons_self, same ▸ base, same ▸ way⟩
      · have stays : file ∈ directory.files.filter (·.1 != place) :=
          List.mem_filter.mpr ⟨among, by simpa using same⟩
        exact Or.inr ⟨file, .tail _ stays, base, way⟩

/-- If nothing is missing on the way to a place, putting bytes there keeps what there is at all
other places. -/
theorem content_put_of_ne (enclosed : directory.Enclosed place) (different : other ≠ place) :
    (directory.put place bytes).content other = directory.content other := by
  have kept := directory.lookup_put_of_ne bytes different
  cases found : directory.files.lookup other with
  | some held => simp only [content, kept, found]
  | none =>
    have same : (directory.put place bytes).Leads other ↔ directory.Leads other :=
      leads_put_iff enclosed different found
    rcases content_of_missing found with ⟨leads, here⟩ | ⟨apart, nothing⟩
    · rcases content_of_missing (kept.trans found) with ⟨-, here'⟩ | ⟨apart', -⟩
      · rw [here, here']
      · exact absurd (same.mpr leads) apart'
    · rcases content_of_missing (kept.trans found) with ⟨leads', -⟩ | ⟨-, nothing'⟩
      · exact absurd (same.mp leads') apart
      · rw [nothing, nothing']

/-- A name is followed from a directory. -/
theorem follow_eq_ok_iff :
    directory.follow place name = .ok next ↔
      directory.content place = .directory ∧ ¬ nameLimit < name.utf8ByteSize ∧
        place.enter name = next := by
  unfold follow
  cases directory.content place with
  | directory =>
    by_cases long : nameLimit < name.utf8ByteSize <;> simp [long]
  | file bytes => simp
  | nothing => simp

/-- Nothing is missing on the way to the place that a name leads to from a directory, unless the
name leads to a directory again. -/
theorem enclosed_of_follow (followed : directory.follow place name = .ok next)
    (unlisted : directory.content next ≠ .directory) : directory.Enclosed next := by
  obtain ⟨here, -, rfl⟩ := follow_eq_ok_iff.mp followed
  have leads := (leads_of_directory here).2
  rcases place.enter_cases name with same | top | above | behind
  · rw [same] at unlisted
    exact absurd here unlisted
  · exact enclosed_of_top top
  · intro other base way _
    rw [above] at base way
    exact content_ne_nothing (leads.of_prefix base (way.trans (List.dropLast_prefix _)))
  · intro other base way different
    rw [behind] at base way different
    rcases List.prefix_concat_iff.mp way with whole | way
    · exact absurd (Place.eq_of_names base whole) different
    · exact content_ne_nothing (leads.of_prefix base way)

/-- A walk follows its first name, and the others from where that leads. -/
theorem foldlM_follow_cons_eq_ok_iff :
    (name :: names).foldlM directory.follow start = .ok place ↔
      ∃ next, directory.follow start name = .ok next ∧
        names.foldlM directory.follow next = .ok place := by
  rw [List.foldlM_cons]
  cases directory.follow start name with
  | error fault => simp [bind, Except.bind]
  | ok next => simp [bind, Except.bind]

/-- A walk follows its last name from where the others lead. -/
theorem foldlM_follow_concat_eq_ok_iff :
    (names ++ [name]).foldlM directory.follow start = .ok place ↔
      ∃ before, names.foldlM directory.follow start = .ok before ∧
        directory.follow before name = .ok place := by
  rw [List.foldlM_append]
  cases names.foldlM directory.follow start with
  | error fault => simp [bind, Except.bind]
  | ok before =>
    show [name].foldlM directory.follow before = .ok place ↔ _
    rw [foldlM_follow_cons_eq_ok_iff]
    simp [pure, Except.pure]

/-- A walk is the same where all directories are still there. -/
theorem foldlM_follow_of_directories
    (kept : ∀ other, directory.content other = .directory → after.content other = .directory)
    (walked : names.foldlM directory.follow start = .ok place) :
    names.foldlM after.follow start = .ok place := by
  induction names generalizing start with
  | nil => exact walked
  | cons name rest ih =>
    obtain ⟨next, followed, further⟩ := foldlM_follow_cons_eq_ok_iff.mp walked
    obtain ⟨here, short, entered⟩ := follow_eq_ok_iff.mp followed
    have followed' : after.follow start name = .ok next :=
      follow_eq_ok_iff.mpr ⟨kept start here, short, entered⟩
    exact foldlM_follow_cons_eq_ok_iff.mpr ⟨next, followed', ih further⟩

/-- Empty names do not count in a walk, unless one is the last name. -/
theorem foldlM_follow_of_filter (last : names.getLast? ≠ some "")
    (walked : (names.filter (· ≠ "")).foldlM directory.follow start = .ok place) :
    names.foldlM directory.follow start = .ok place := by
  induction names generalizing start with
  | nil => exact walked
  | cons name rest ih =>
    have last' : rest.getLast? ≠ some "" := by
      cases rest with
      | nil => simp
      | cons => rwa [List.getLast?_cons_cons] at last
    by_cases empty : name = ""
    · subst empty
      have further : rest.foldlM directory.follow start = .ok place :=
        ih last' (by simpa using walked)
      cases rest with
      | nil => exact absurd rfl last
      | cons next others =>
        obtain ⟨_, followed, -⟩ := foldlM_follow_cons_eq_ok_iff.mp further
        have stays : directory.follow start "" = .ok start :=
          follow_eq_ok_iff.mpr ⟨(follow_eq_ok_iff.mp followed).1, by decide, by simp [Place.enter]⟩
        exact foldlM_follow_cons_eq_ok_iff.mpr ⟨start, stays, further⟩
    · rw [List.filter_cons_of_pos (by simpa using empty)] at walked
      obtain ⟨next, followed, further⟩ := foldlM_follow_cons_eq_ok_iff.mp walked
      exact foldlM_follow_cons_eq_ok_iff.mpr ⟨next, followed, ih last' further⟩

/-- A walk along names is made if the path is not too long. -/
theorem walk_eq_ok_iff :
    directory.walk path names = .ok place ↔
      ¬ pathLimit < path.utf8ByteSize ∧
        names.foldlM directory.follow (Place.start path) = .ok place := by
  unfold walk
  by_cases long : pathLimit < path.utf8ByteSize <;> simp [long]

/-- A path can be written to if it leads to a place where there is no directory. -/
theorem writable_eq_ok_iff :
    directory.writable path = .ok place ↔
      directory.walk path (writingNames path) = .ok place ∧
        directory.content place ≠ .directory := by
  unfold writable
  cases directory.walk path (writingNames path) with
  | error fault => simp
  | ok walked =>
    simp only [Except.ok.injEq]
    split
    · rename_i listed
      constructor
      · intro impossible
        cases impossible
      · rintro ⟨rfl, unlisted⟩
        exact absurd listed unlisted
    · rename_i unlisted
      constructor
      · rintro ⟨⟩
        exact ⟨rfl, fun listed => unlisted listed⟩
      · rintro ⟨rfl, -⟩
        rfl

/-- Nothing is missing on the way to a place that can be written to. -/
theorem enclosed_of_writable (writable : directory.writable path = .ok place) :
    directory.Enclosed place := by
  obtain ⟨walked, unlisted⟩ := writable_eq_ok_iff.mp writable
  obtain ⟨-, walked⟩ := walk_eq_ok_iff.mp walked
  rcases List.eq_nil_or_concat (writingNames path) with none | ⟨before, last, names⟩
  · rw [none] at walked
    cases walked
    apply enclosed_of_top
    unfold Place.start
    split <;> rfl
  · rw [names, List.concat_eq_append] at walked
    obtain ⟨_, -, followed⟩ := foldlM_follow_concat_eq_ok_iff.mp walked
    exact enclosed_of_follow followed unlisted

/-- A path that can be written to does not end in a slash. -/
theorem unclosed_of_writable (writable : directory.writable path = .ok place) :
    path.toList.getLast? ≠ some '/' := by
  obtain ⟨walked, unlisted⟩ := writable_eq_ok_iff.mp writable
  obtain ⟨-, walked⟩ := walk_eq_ok_iff.mp walked
  intro closed
  rw [writingNames, if_pos closed] at walked
  obtain ⟨before, -, followed⟩ := foldlM_follow_concat_eq_ok_iff.mp walked
  obtain ⟨here, -, entered⟩ := follow_eq_ok_iff.mp followed
  have stays : before.enter "." = before := if_pos (Or.inr rfl)
  exact absurd here (stays.symm.trans entered ▸ unlisted)

/-- Putting bytes where a path leads to for writing keeps all directories. -/
theorem directory_put (writable : directory.writable path = .ok place)
    (here : directory.content other = .directory) :
    (directory.put place bytes).content other = .directory := by
  obtain ⟨-, unlisted⟩ := writable_eq_ok_iff.mp writable
  have different : other ≠ place := fun same => unlisted (same ▸ here)
  rw [content_put_of_ne (enclosed_of_writable writable) different, here]

/-- A path that was written to can be written to again. -/
theorem writable_put (writable : directory.writable path = .ok place) (bytes : Bytes) :
    (directory.put place bytes).writable path = .ok place := by
  obtain ⟨walked, -⟩ := writable_eq_ok_iff.mp writable
  obtain ⟨short, walked⟩ := walk_eq_ok_iff.mp walked
  have again : (directory.put place bytes).walk path (writingNames path) = .ok place :=
    walk_eq_ok_iff.mpr
      ⟨short, foldlM_follow_of_directories (fun _ => directory_put writable) walked⟩
  refine writable_eq_ok_iff.mpr ⟨again, ?_⟩
  rw [content_put_self]
  exact Content.noConfusion

/-- Bytes are read from a path after they were put where it leads to for writing. -/
theorem read_put (nonempty : path ≠ "") (writable : directory.writable path = .ok place)
    (bytes : Bytes) : (directory.put place bytes).read path = .ok bytes := by
  obtain ⟨walked, -⟩ := writable_eq_ok_iff.mp writable
  obtain ⟨short, walked⟩ := walk_eq_ok_iff.mp walked
  have unclosed := unclosed_of_writable writable
  rw [writingNames, if_neg unclosed] at walked
  have along := foldlM_follow_of_filter (getLast?_pathNames_ne nonempty unclosed) walked
  have again : (directory.put place bytes).walk path (pathNames path) = .ok place :=
    walk_eq_ok_iff.mpr ⟨short, foldlM_follow_of_directories (fun _ => directory_put writable) along⟩
  unfold read
  simp only [again, content_put_self]

/-- After bytes were written to a path, they are in the file that the path leads to and are read
from the path, and what there is at all other places is as it was. -/
structure Rewritten (directory : Directory) (path : String) (bytes : Bytes) (after : Directory) :
    Prop where
  /-- The bytes are read from the path. -/
  read : after.read path = .ok bytes
  /-- They are in the file where the path leads to, and nothing else has changed. -/
  only : ∃ place, directory.writable path = .ok place ∧ after.content place = .file bytes ∧
    ∀ other, other ≠ place → after.content other = directory.content other

/-- Writing to a path that leads to a place succeeds and changes nothing but the file there. -/
theorem exists_rewritten (nonempty : path ≠ "") (writable : directory.writable path = .ok place)
    (bytes : Bytes) :
    ∃ after, directory.write path bytes = .ok after ∧ directory.Rewritten path bytes after := by
  refine ⟨directory.put place bytes, ?written, read_put nonempty writable bytes, place, writable,
    content_put_self directory place bytes, ?kept⟩
  case written =>
    rw [write, writable]
    rfl
  case kept =>
    intro other different
    exact content_put_of_ne (enclosed_of_writable writable) different

end Directory

end Disassembler.CommandLine
