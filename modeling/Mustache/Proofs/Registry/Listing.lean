import Mathlib.Data.List.Basic
import Mustache.Proofs.Files
import Mustache.Registry

/-!
# Partials below a directory

The files that are listed for a directory all lie in it, each with a name that
is its full name without an extension (`Registry.liesIn_of_listDirectory`).  The
full name tells the name, and with the directory it tells the path.
-/

namespace Mustache

namespace TemplateFile

/-- The file is a partial below the directory that the given names lead to. -/
structure LiesIn (file : TemplateFile) (directory : List String) : Prop where
  sourceDirectory : file.sourceDirectory = Files.absolutePath directory
  path :
    file.path =
      (if directory = [] then "/" else Files.absolutePath directory ++ "/") ++
        file.fullName
  ending : ∃ ending ∈ templateExtensions, file.fullName = file.name ++ ending

/-- The file is a partial of some directory. -/
def Listed (file : TemplateFile) : Prop :=
  ∃ directory, (∀ name ∈ directory, EntryName name) ∧ file.LiesIn directory

/-- The full name is the name with an extension of partials. -/
def Recognized (file : TemplateFile) : Prop :=
  ∃ ending ∈ templateExtensions, file.fullName = file.name ++ ending

theorem Listed.recognized
    {file : TemplateFile}
    (listed : file.Listed) : file.Recognized :=
  let ⟨_, _, lies⟩ := listed
  lies.ending

end TemplateFile

theorem stripEnding?_eq_some
    {name ending stripped : String}
    (found : stripEnding? name ending = some stripped) :
    name = stripped ++ ending := by
  simp only [stripEnding?] at found
  split at found
  · rename_i isSuffix
    obtain ⟨front, joined⟩ := List.isSuffixOf_iff_suffix.mp isSuffix
    cases found
    apply String.toList_inj.mp
    simp [← joined]
  · cases found

/-- No extension of partials ends in another one. -/
theorem templateExtension_eq_of_isSuffix :
    ∀ first ∈ templateExtensions,
      ∀ second ∈ templateExtensions,
        first.toList <:+ second.toList → first = second := by
  decide +kernel

namespace Registry

theorem liesIn_of_templateFile?
    {directory names : List String}
    {file : TemplateFile}
    (nonempty : names ≠ [])
    (found : templateFile? directory names = some file) :
    file.LiesIn directory := by
  simp only [templateFile?, Option.bind_eq_bind, Option.bind_eq_some_iff,
    Option.pure_def, Option.some.injEq] at found
  obtain ⟨ending, among, name, stripped, rfl⟩ := found
  exact
    { sourceDirectory := rfl
      path := Files.absolutePath_append nonempty
      ending :=
        ⟨ending, List.mem_of_find?_eq_some among,
          stripEnding?_eq_some stripped⟩ }

/-- Two extensions of partials that end one text are the same one. -/
theorem templateExtension_unique
    {text first second : List Char}
    {firstEnding secondEnding : String}
    (firstAmong : firstEnding ∈ templateExtensions)
    (secondAmong : secondEnding ∈ templateExtensions)
    (same : first ++ firstEnding.toList = text)
    (also : second ++ secondEnding.toList = text) :
    firstEnding = secondEnding := by
  rcases List.suffix_or_suffix_of_suffix ⟨first, same⟩ ⟨second, also⟩ with
    suffix | suffix
  · exact templateExtension_eq_of_isSuffix _ firstAmong _ secondAmong suffix
  · exact
      (templateExtension_eq_of_isSuffix _ secondAmong _ firstAmong suffix).symm

/-- Files with the same full name have the same name. -/
theorem name_eq_of_fullName_eq
    {first second : TemplateFile}
    (firstRecognized : first.Recognized)
    (secondRecognized : second.Recognized)
    (same : first.fullName = second.fullName) :
    first.name = second.name := by
  obtain ⟨firstEnding, firstAmong, firstName⟩ := firstRecognized
  obtain ⟨secondEnding, secondAmong, secondName⟩ := secondRecognized
  rw [firstName, secondName] at same
  have sameEnding : firstEnding = secondEnding :=
    templateExtension_unique firstAmong secondAmong String.toList_append.symm
      (by rw [same, String.toList_append])
  rw [sameEnding] at same
  exact String.append_left_inj _ |>.mp same

/-- A file is known by its directory and its full name. -/
theorem path_eq_of_fullName_eq
    {first second : TemplateFile}
    (firstListed : first.Listed)
    (secondListed : second.Listed)
    (sameDirectory :
      samePath first.sourceDirectory second.sourceDirectory = true)
    (same : first.fullName = second.fullName) :
    first.path = second.path := by
  obtain ⟨firstDirectory, firstNames, firstLies⟩ := firstListed
  obtain ⟨secondDirectory, secondNames, secondLies⟩ := secondListed
  rw [firstLies.sourceDirectory, secondLies.sourceDirectory,
    Files.samePath_absolutePath_iff firstNames secondNames] at sameDirectory
  rw [firstLies.path, secondLies.path, sameDirectory, same]

/-- Two directories of partials are the same one if their paths are. -/
theorem samePath_sourceDirectory_iff
    {first second : TemplateFile}
    (firstListed : first.Listed)
    (secondListed : second.Listed) :
    samePath first.sourceDirectory second.sourceDirectory = true ↔
      first.sourceDirectory = second.sourceDirectory := by
  obtain ⟨firstDirectory, firstNames, firstLies⟩ := firstListed
  obtain ⟨secondDirectory, secondNames, secondLies⟩ := secondListed
  rw [firstLies.sourceDirectory, secondLies.sourceDirectory,
    Files.samePath_absolutePath_iff firstNames secondNames]
  constructor
  · exact congrArg Files.absolutePath
  · intro same
    exact (Files.samePath_absolutePath_iff firstNames secondNames).mp
      (by simp [same, samePath])

end Registry

namespace FileNode

mutual

theorem isPrefix_of_mem_filesBelow {names : List String} :
    ∀ {node : FileNode} {below : List String},
      below ∈ filesBelow names node → names <+: below
  | file _, below, among => by
    rw [filesBelow, List.mem_singleton] at among
    exact among ▸ List.prefix_refl names
  | directory entries, below, among => by
    rw [filesBelow] at among
    exact (isPrefix_of_mem_filesBelowEntries among).1

/--
What lies below a directory's entries is reached by more names than the
directory.
-/
theorem isPrefix_of_mem_filesBelowEntries {names : List String} :
    ∀ {entries : List (String × FileNode)} {below : List String},
      below ∈ filesBelowEntries names entries → names <+: below ∧ below ≠ names
  | [], below, among => by
    rw [filesBelowEntries] at among
    exact absurd among List.not_mem_nil
  | (name, node) :: rest, below, among => by
    rw [filesBelowEntries, List.mem_append] at among
    rcases among with inNode | inRest
    · have longer : names ++ [name] <+: below :=
        isPrefix_of_mem_filesBelow inNode
      refine ⟨(List.prefix_append names [name]).trans longer, ?_⟩
      rintro rfl
      have tooLong : below.length + 1 ≤ below.length := by
        simpa using longer.length_le
      exact Nat.not_succ_le_self below.length tooLong
    · exact isPrefix_of_mem_filesBelowEntries inRest

end

end FileNode

namespace Registry

/-- The partials below a directory all lie in that directory. -/
theorem liesIn_of_listDirectory
    {files : Files}
    {path : String}
    {found : List TemplateFile}
    (named : files.Named)
    (listing : listDirectory files path = .ok found) :
    ∃ directory,
      (∀ name ∈ directory, EntryName name) ∧
      ∀ file ∈ found, file.LiesIn directory := by
  simp only [listDirectory] at listing
  split at listing
  · cases listing
  · rename_i location resolved
    split at listing
    · cases listing
    · rename_i entries here
      cases listing
      refine ⟨location.names, Files.named_resolve named resolved,
        fun file among => ?_⟩
      obtain ⟨names, below, isFile⟩ := List.mem_filterMap.mp among
      have nonempty : names ≠ [] :=
        (FileNode.isPrefix_of_mem_filesBelowEntries below).2
      exact liesIn_of_templateFile? nonempty isFile

end Registry

end Mustache
