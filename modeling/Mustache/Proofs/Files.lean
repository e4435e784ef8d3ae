import Mathlib.Data.List.Basic
import Mustache.Files

/-!
# Places in a file system

The names that lead to a place are stretches of a path, so none of them holds a
slash, and the ones that change nothing are left out.  The absolute path of a
place therefore tells its names: two places with the same path, name by name,
are reached by the same names (`Files.samePath_absolutePath_iff`).
-/

namespace Mustache

/-- A name of an entry of a directory: it holds no slash and leads somewhere. -/
def EntryName (name : String) : Prop :=
  name ≠ "" ∧ name ≠ "." ∧ '/' ∉ name.toList

/-- The stretches between the separators of a list hold no separator. -/
theorem not_mem_of_mem_splitOn
    {α : Type}
    [BEq α]
    [LawfulBEq α]
    {separator : α}
    {list : List α} :
    ∀ stretch ∈ list.splitOn separator, separator ∉ stretch := by
  induction list with
  | nil => simp
  | cons first rest ih =>
    rw [List.splitOn_cons_eq_if_modifyHead]
    split
    · rintro stretch (_ | ⟨_, inRest⟩)
      · exact List.not_mem_nil
      · exact ih stretch inRest
    · rename_i different
      cases parts : rest.splitOn separator with
      | nil => simp
      | cons head tail =>
        rw [parts] at ih
        intro stretch within
        rcases List.mem_cons.mp within with rfl | inTail
        · have notHead : separator ∉ head := ih head List.mem_cons_self
          simp only [beq_iff_eq] at different
          grind
        · exact ih stretch (List.mem_cons_of_mem _ inTail)

theorem not_mem_of_mem_pathParts
    {path name : String}
    (part : name ∈ pathParts path) :
    '/' ∉ name.toList := by
  obtain ⟨stretch, among, rfl⟩ := List.mem_map.mp part
  rw [String.toList_ofList]
  exact not_mem_of_mem_splitOn stretch among

namespace Files

theorem pathParts_absolutePath
    {names : List String}
    (nonempty : names ≠ [])
    (noSlash : ∀ name ∈ names, '/' ∉ name.toList) :
    pathParts (absolutePath names) = "" :: names := by
  have written : (absolutePath names).toList
      = '/' :: ['/'].intercalate (names.map String.toList) := by
    simp [absolutePath, String.toList_append, String.toList_intercalate]
  have split :
      (['/'].intercalate (names.map String.toList)).splitOn '/' =
        names.map String.toList :=
    List.splitOn_intercalate '/' (by simpa using noSlash)
      (by simpa using nonempty)
  simp [pathParts, written, List.splitOn_cons_eq_if_modifyHead, split,
    Function.comp_def]

theorem pathNames_absolutePath
    {names : List String}
    (entryNames : ∀ name ∈ names, EntryName name) :
    pathNames (absolutePath names) = "/" :: names := by
  rcases eq_or_ne names [] with rfl | nonempty
  · decide +kernel
  · have kept : names.filter (fun name => name != "" && name != ".") = names :=
      List.filter_eq_self.mpr fun name within => by
        simp [(entryNames name within).1, (entryNames name within).2.1]
    have present : absolutePath names ≠ "" := by
      intro empty
      have := congrArg String.toList empty
      simp [absolutePath] at this
    simp [pathNames,
      pathParts_absolutePath nonempty fun name within =>
        (entryNames name within).2.2, kept, present]

/-- The path of a place tells the names that lead to it. -/
theorem samePath_absolutePath_iff
    {first second : List String}
    (firstNames : ∀ name ∈ first, EntryName name)
    (secondNames : ∀ name ∈ second, EntryName name) :
    samePath (absolutePath first) (absolutePath second) = true ↔
      first = second := by
  simp [samePath, pathNames_absolutePath firstNames,
    pathNames_absolutePath secondNames]

/-- The path of a place below another one. -/
theorem absolutePath_append
    {first second : List String}
    (nonempty : second ≠ []) :
    absolutePath (first ++ second) =
      (if first = [] then "/" else absolutePath first ++ "/") ++
        String.intercalate "/" second := by
  rcases eq_or_ne first [] with rfl | present
  · simp [absolutePath]
  · simp [absolutePath, String.intercalate_append_of_ne_nil present nonempty,
      present, String.append_assoc]

/-- The working directory is reached by names of entries. -/
def Named (files : Files) : Prop :=
  ∀ name ∈ files.working, '/' ∉ name.toList

/-- The names that lead to a location are names of entries. -/
def Location.Named (location : Location) : Prop :=
  ∀ name ∈ location.names, EntryName name

theorem named_follow
    {location next : Location}
    {name : String}
    (named : location.Named)
    (noSlash : '/' ∉ name.toList)
    (followed : follow location name = .ok next) : next.Named := by
  simp only [follow] at followed
  split at followed
  · cases followed
  · split at followed
    · cases followed
      exact named
    · rename_i entryName
      split at followed
      · split at followed
        · cases followed
          exact named
        · rename_i above parentAbove
          cases followed
          intro name among
          exact named name (by
            simp only [Location.names, parentAbove, List.map_cons,
              List.reverse_cons, List.mem_append]
            exact .inl among)
      · split at followed
        · cases followed
        · cases followed
        · cases followed
          intro other among
          simp only [Location.names, List.map_cons, List.reverse_cons,
            List.mem_append, List.mem_singleton] at among
          rcases among with old | rfl
          · exact named other old
          · exact ⟨fun empty => entryName (.inl empty),
              fun dot => entryName (.inr dot), noSlash⟩

theorem named_followAll
    {names : List String}
    (noSlash : ∀ name ∈ names, '/' ∉ name.toList) :
    ∀ {location next : Location},
      location.Named → followAll location names = .ok next → next.Named := by
  induction names with
  | nil =>
    rintro location next named followed
    cases followed
    exact named
  | cons name rest ih =>
    intro location next named followed
    simp only [followAll, List.foldlM_cons, bind, Except.bind] at followed
    split at followed
    · cases followed
    · rename_i reached first
      exact ih (fun other among => noSlash other (List.mem_cons_of_mem _ among))
        (named_follow named (noSlash name List.mem_cons_self) first) followed

/-- Every path leads to a place that is reached by names of entries. -/
theorem named_resolve
    {files : Files}
    {path : String}
    {location : Location}
    (named : files.Named)
    (resolved : files.resolve path = .ok location) : location.Named := by
  have root : Location.Named ⟨[], files.root⟩ := by
    simp [Location.Named, Location.names]
  have parts : ∀ name ∈ pathParts path, '/' ∉ name.toList :=
    fun name part => not_mem_of_mem_pathParts part
  simp only [resolve, followPath] at resolved
  split at resolved
  · cases resolved
  · split at resolved
    · cases resolved
    · split at resolved
      · exact named_followAll parts root resolved
      · simp only [bind, Except.bind] at resolved
        split at resolved
        · cases resolved
        · rename_i working reached
          exact named_followAll parts (named_followAll named root reached)
            resolved

end Files

end Mustache
