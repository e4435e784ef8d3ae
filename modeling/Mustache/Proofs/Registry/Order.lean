import Mustache.Proofs.Entries
import Mustache.Proofs.Registry.Names

/-!
# The order in which files are listed

A directory lists its files in any order, and so does a list of several
directories.  Whether files can be registered is a property of the files and the
registry, not of the order (`Registry.Compatible`): the files of one name have
to lie in one directory, the one that the name was registered with if there is
one.  What is registered is known by the files as well (`Registry.Registered`),
apart from the file that stands for a name, which is the first one of the name
in the order of registration.  That order puts a preferred extension first, so
it leaves no choice between files of one name (`Registry.addFiles_of_perm`).
-/

namespace Mustache

theorem samePath_symm
    {first second : String}
    (same : samePath first second = true) :
    samePath second first = true := by
  simp only [samePath, beq_iff_eq] at *
  exact same.symm

theorem samePath_trans
    {first second third : String}
    (former : samePath first second = true)
    (latter : samePath second third = true) :
    samePath first third = true := by
  simp only [samePath, beq_iff_eq] at *
  exact former.trans latter

namespace TemplateFile

/-- The files have one full name in one directory. -/
def SamePlace (first second : TemplateFile) : Prop :=
  samePath first.sourceDirectory second.sourceDirectory = true ∧
    first.fullName = second.fullName

/-- The rank of a file tells its extension. -/
theorem Recognized.rank
    {file : TemplateFile}
    (recognized : file.Recognized) :
    ∃ rank,
      extensionRank? file.fullName = some rank ∧
      ∃ ending,
        templateExtensions[rank]? = some ending ∧
        file.fullName = file.name ++ ending := by
  obtain ⟨ending, among, fullName⟩ := recognized
  have isSuffix : ending.toList <:+ file.fullName.toList :=
    ⟨file.name.toList, by rw [fullName, String.toList_append]⟩
  cases found : extensionRank? file.fullName with
  | none =>
    have noSuffix : ending.toList.isSuffixOf file.fullName.toList = false :=
      List.findIdx?_eq_none_iff.mp found ending among
    rw [List.isSuffixOf_iff_suffix.mpr isSuffix] at noSuffix
    cases noSuffix
  | some rank =>
    obtain ⟨inside, ends, -⟩ := List.findIdx?_eq_some_iff_getElem.mp found
    obtain ⟨front, joined⟩ := List.isSuffixOf_iff_suffix.mp ends
    refine ⟨rank, rfl, ending, ?_, fullName⟩
    rw [List.getElem?_eq_getElem inside, Option.some.injEq]
    exact Registry.templateExtension_unique (List.getElem_mem inside) among
      joined (by rw [fullName, String.toList_append])

end TemplateFile

namespace Registry

/--
Of two files with one name none precedes the other only if they have one full
name.
-/
theorem fullName_eq_of_comesFirst
    {first second : TemplateFile}
    (firstRecognized : first.Recognized)
    (secondRecognized : second.Recognized)
    (sameName : first.name = second.name)
    (former : comesFirst first second = true)
    (latter : comesFirst second first = true) :
    first.fullName = second.fullName := by
  obtain ⟨rank, firstRank, ending, isEnding, firstName⟩ := firstRecognized.rank
  obtain ⟨otherRank, secondRank, otherEnding, isOther, secondName⟩ :=
    secondRecognized.rank
  simp only [comesFirst, firstRank, secondRank, decide_eq_true_eq]
    at former latter
  obtain rfl : rank = otherRank := Nat.le_antisymm former latter
  obtain rfl : ending = otherEnding :=
    Option.some.inj (isEnding.symm.trans isOther)
  rw [firstName, secondName, sameName]

theorem firstNamed?_cons
    (file : TemplateFile)
    (rest : List TemplateFile)
    (name : String) :
    firstNamed? (file :: rest) name =
      if file.name = name then some file else firstNamed? rest name := by
  rw [firstNamed?, List.find?_cons]
  grind [firstNamed?]

/-- The file that stands for a name precedes all others of that name. -/
theorem comesFirst_of_firstNamed?
    {files : List TemplateFile}
    {name : String}
    {file : TemplateFile}
    (sorted : files.Pairwise fun first second => comesFirst first second)
    (found : firstNamed? files name = some file) :
    ∀ other ∈ files, other.name = name → comesFirst file other = true := by
  induction files with
  | nil => cases found
  | cons head rest ih =>
    obtain ⟨behind, sortedRest⟩ := List.pairwise_cons.mp sorted
    intro other among otherName
    rw [firstNamed?_cons] at found
    split at found
    · cases found
      rcases List.mem_cons.mp among with rfl | inRest
      · simpa using comesFirst_total other other
      · exact behind other inRest
    · rename_i notHead
      rcases List.mem_cons.mp among with rfl | inRest
      · exact absurd otherName notHead
      · exact ih sortedRest found other inRest otherName

/--
In the order of registration one file stands for a name, however the files are
listed.
-/
theorem firstNamed?_eq_of_perm
    {files others : List TemplateFile}
    (recognized : ∀ file ∈ files, file.Recognized)
    (fullNames : (files.map TemplateFile.fullName).Nodup)
    (perm : files.Perm others)
    (sorted : files.Pairwise fun first second => comesFirst first second)
    (othersSorted : others.Pairwise fun first second => comesFirst first second)
    (name : String) :
    firstNamed? files name = firstNamed? others name := by
  cases first : firstNamed? files name with
  | none =>
    symm
    rw [firstNamed?, List.find?_eq_none]
    intro other among
    simpa using name_ne_of_firstNamed? first other (perm.mem_iff.mpr among)
  | some file =>
    obtain ⟨inFiles, fileName⟩ := name_of_firstNamed? first
    cases second : firstNamed? others name with
    | none =>
      exact absurd fileName
        (name_ne_of_firstNamed? second file (perm.mem_iff.mp inFiles))
    | some other =>
      obtain ⟨inOthers, otherName⟩ := name_of_firstNamed? second
      have otherIn : other ∈ files := perm.mem_iff.mpr inOthers
      have sameFullName : file.fullName = other.fullName :=
        fullName_eq_of_comesFirst (recognized file inFiles)
          (recognized other otherIn) (fileName.trans otherName.symm)
          (comesFirst_of_firstNamed? sorted first other otherIn otherName)
          (comesFirst_of_firstNamed? othersSorted second file
            (perm.mem_iff.mp inFiles) fileName)
      rw [List.inj_on_of_nodup_map fullNames inFiles otherIn sameFullName]

/-- A registry that calls have led to, with or without a collision. -/
inductive Reachable : Registry → Prop where
  | empty : Reachable empty
  | addText
      {registry : Registry}
      (name text : String) :
      Reachable registry → Reachable (registry.addText name text)
  | addFiles
      {registry : Registry}
      (files : List TemplateFile) :
      Reachable registry → Reachable (registry.addFiles files).2
  | addDirectory
      {registry : Registry}
      (files : Files)
      (path : String) :
      Reachable registry → Reachable (registry.addDirectory files path).2

/-- The names of files ascend, with and without extension. -/
structure Ordered (registry : Registry) : Prop where
  files : registry.files.Sorted
  sources : registry.sources.Sorted

/-- What registering one file without a collision comes to. -/
structure Adds
    (registry : Registry)
    (file : TemplateFile)
    (next : Registry) : Prop where
  fits :
    ∀ source, registry.sources.get? file.name = some source →
      samePath source.directory file.sourceDirectory = true
  texts : next.texts = registry.texts
  sources :
    ∀ name,
      next.sources.get? name =
        (registry.sources.get? name).or
          (if file.name = name then some file.source else none)
  files :
    ∀ key,
      next.files.get? key =
        if file.fullName = key then
          some file.path
        else
          if file.name = key ∧ registry.sources.get? key = none then
            some file.path
          else
            registry.files.get? key
  ordered : registry.Ordered → next.Ordered

/-- A file is registered, unless its name belongs to another directory. -/
theorem adds_of_addFile
    (registry : Registry)
    (file : TemplateFile) :
    (∃ next, registry.addFile file = .ok next ∧ registry.Adds file next) ∨
    (∃ source,
      registry.sources.get? file.name = some source ∧
      samePath source.directory file.sourceDirectory = false ∧
      registry.addFile file =
        .error (.collision file.name source file.source)) := by
  cases present : registry.sources.get? file.name with
  | none =>
    refine .inl ⟨_, by rw [addFile, present], ?_⟩
    exact
      { fits := by simp [present]
        texts := rfl
        sources := fun name => by
          rw [Entries.get?_insert]
          split
          · rename_i same
            rw [← same, present, Option.none_or]
            rfl
          · exact Option.or_none.symm
        files := fun key => by
          simp only [Entries.get?_insert]
          grind
        ordered := fun ordered =>
          ⟨Entries.sorted_insert (Entries.sorted_insert ordered.files),
            Entries.sorted_insert ordered.sources⟩ }
  | some source =>
    cases same : samePath source.directory file.sourceDirectory with
    | false =>
      exact .inr ⟨source, rfl, same,
        by simp [addFile, present, same, TemplateFile.source]⟩
    | true =>
      refine .inl ⟨_, by rw [addFile, present]; exact if_pos same, ?_⟩
      exact
        { fits := by simpa [present] using same
          texts := rfl
          sources := fun name => by
            split
            · rename_i sameName
              rw [← sameName, present, Option.some_or]
            · exact Option.or_none.symm
          files := fun key => by
            simp only [Entries.get?_insert]
            grind
          ordered := fun ordered =>
            ⟨Entries.sorted_insert ordered.files, ordered.sources⟩ }

/--
What registering a file keeps is kept by registering many, up to a collision.
-/
theorem addEach_keeps
    {property : Registry → Prop}
    (step :
      ∀ registry file next,
        Adds registry file next → property registry → property next)
    {registry : Registry}
    {files : List TemplateFile}
    (holds : property registry) :
    property (registry.addEach files).2 := by
  induction files generalizing registry with
  | nil => exact holds
  | cons file rest ih =>
    rcases adds_of_addFile registry file with
      ⟨next, ok, adds⟩ | ⟨source, -, -, error⟩
    · rw [addEach, ok]
      exact ih (step registry file next adds holds)
    · rw [addEach, error]
      exact holds

/--
What no call changes is true of all reachable registries if it is true of the
empty one.
-/
theorem Reachable.keeps
    {property : Registry → Prop}
    {registry : Registry}
    (reachable : registry.Reachable)
    (start : property Registry.empty)
    (addText :
      ∀ registry name text,
        property registry → property (registry.addText name text))
    (step :
      ∀ registry file next,
        Adds registry file next → property registry → property next) :
    property registry := by
  induction reachable with
  | empty => exact start
  | addText name text _ holds => exact addText _ name text holds
  | addFiles files _ holds => exact addEach_keeps step holds
  | addDirectory files path _ holds =>
    rw [Registry.addDirectory]
    split
    · exact holds
    · exact addEach_keeps step holds

theorem ordered_addEach
    {registry : Registry}
    {files : List TemplateFile}
    (ordered : registry.Ordered) :
    (registry.addEach files).2.Ordered :=
  addEach_keeps (fun _ _ _ adds => adds.ordered) ordered

theorem Reachable.ordered
    {registry : Registry}
    (reachable : registry.Reachable) : registry.Ordered :=
  reachable.keeps ⟨.nil, .nil⟩
    (fun _ _ _ ordered => ⟨ordered.files, ordered.sources⟩) fun _ _ _ adds =>
    adds.ordered

/--
Files of one name lie in one directory, the one that the name was registered
with if it was registered.
-/
structure Compatible
    (registry : Registry)
    (files : List TemplateFile) : Prop where
  present :
    ∀ file ∈ files, ∀ source, registry.sources.get? file.name = some source →
      samePath source.directory file.sourceDirectory = true
  together :
    ∀ first ∈ files, ∀ second ∈ files, first.name = second.name →
      samePath first.sourceDirectory second.sourceDirectory = true

theorem Compatible.of_subset
    {registry : Registry}
    {files others : List TemplateFile}
    (compatible : registry.Compatible files)
    (among : others ⊆ files) :
    registry.Compatible others where
  present file inOthers := compatible.present file (among inOthers)
  together first firstIn second secondIn :=
    compatible.together first (among firstIn) second (among secondIn)

/-- After a file was registered the others have to agree with it, too. -/
theorem compatible_cons_iff
    {registry next : Registry}
    {file : TemplateFile}
    {rest : List TemplateFile}
    (adds : registry.Adds file next) :
    registry.Compatible (file :: rest) ↔ next.Compatible rest := by
  constructor
  · intro compatible
    refine ⟨fun other among source held => ?_,
      (compatible.of_subset (List.subset_cons_self _ _)).together⟩
    rw [adds.sources] at held
    rcases Option.or_eq_some_iff.mp held with old | ⟨-, new⟩
    · exact compatible.present other (List.mem_cons_of_mem _ among) source old
    · split at new
      · rename_i sameName
        cases new
        exact compatible.together file List.mem_cons_self other
          (List.mem_cons_of_mem _ among) sameName
      · cases new
  · intro compatible
    have old :
        ∀ other ∈ rest,
          ∀ source,
            registry.sources.get? other.name = some source →
            samePath source.directory other.sourceDirectory = true :=
      fun other among source held =>
      compatible.present other among source
        (by rw [adds.sources, held, Option.some_or])
    have withFile :
        ∀ other ∈ rest,
          file.name = other.name →
          samePath file.sourceDirectory other.sourceDirectory = true :=
      fun other among sameName => by
      cases held : registry.sources.get? file.name with
      | some source =>
        exact samePath_trans (samePath_symm (adds.fits source held))
          (old other among source (sameName ▸ held))
      | none =>
        refine compatible.present other among file.source ?_
        rw [adds.sources, ← sameName, held, Option.none_or, if_pos rfl]
    refine ⟨?_, ?_⟩
    · rintro other (_ | ⟨_, inRest⟩)
      · exact adds.fits
      · exact old other inRest
    · rintro first (_ | ⟨_, firstIn⟩) second (_ | ⟨_, secondIn⟩) sameName
      · simp [samePath]
      · exact withFile second secondIn sameName
      · exact samePath_symm (withFile first firstIn sameName.symm)
      · exact compatible.together first firstIn second secondIn sameName

/--
Files are registered one after the other or there is a collision, whatever their
order.
-/
theorem addEach_of_compatible
    (registry : Registry)
    (files : List TemplateFile) :
    (registry.Compatible files ∧
      ∃ next, registry.addEach files = (.ok (), next)) ∨
    (¬ registry.Compatible files ∧
      ∃ name present added,
        (registry.addEach files).1 =
          .error (.collision name present added)) := by
  induction files generalizing registry with
  | nil => exact .inl ⟨⟨by simp, by simp⟩, registry, rfl⟩
  | cons file rest ih =>
    rcases adds_of_addFile registry file with
      ⟨next, ok, adds⟩ | ⟨source, held, other, error⟩
    · rw [compatible_cons_iff adds, addEach, ok]
      exact ih next
    · refine .inr ⟨fun compatible => ?_, file.name, source, file.source,
        by rw [addEach, error]⟩
      rw [compatible.present file List.mem_cons_self source held] at other
      cases other

/--
What registering files without a collision comes to, when no name without
extension is a name with extension and no full name occurs twice.
-/
structure Registered
    (registry : Registry)
    (files : List TemplateFile)
    (next : Registry) : Prop where
  texts : next.texts = registry.texts
  sources :
    ∀ name,
      next.sources.get? name =
        (registry.sources.get? name).or
          ((firstNamed? files name).map TemplateFile.source)
  full : ∀ file ∈ files, next.files.get? file.fullName = some file.path
  bare :
    ∀ name file,
      registry.sources.get? name = none → firstNamed? files name = some file →
      next.files.get? name = some file.path
  others :
    ∀ key, (∀ file ∈ files, file.fullName ≠ key) →
      ((registry.sources.get? key).isSome ∨ ∀ file ∈ files, file.name ≠ key) →
      next.files.get? key = registry.files.get? key

/-- One file before others. -/
theorem Registered.cons
    {registry mid next : Registry}
    {file : TemplateFile}
    {rest : List TemplateFile}
    (adds : registry.Adds file mid)
    (registered : mid.Registered rest next)
    (fullNames : ∀ other ∈ rest, other.fullName ≠ file.fullName)
    (apart :
      ∀ first ∈ file :: rest,
        ∀ second ∈ file :: rest, first.name ≠ second.fullName) :
    registry.Registered (file :: rest) next where
  texts := registered.texts.trans adds.texts
  sources name := by
    rw [registered.sources, adds.sources, firstNamed?_cons, Option.or_assoc]
    split
    · rfl
    · rw [Option.none_or]
  full := by
    rintro other (_ | ⟨_, inRest⟩)
    · rw [registered.others file.fullName fullNames
        (.inr fun other among =>
          apart other (List.mem_cons_of_mem _ among) file List.mem_cons_self),
        adds.files, if_pos rfl]
    · exact registered.full other inRest
  bare name other missing first := by
    rw [firstNamed?_cons] at first
    split at first
    · rename_i sameName
      cases first
      have notFull : ∀ other ∈ rest, other.fullName ≠ name := fun other among =>
        sameName ▸
          (apart file List.mem_cons_self other
            (List.mem_cons_of_mem _ among)).symm
      have held : (mid.sources.get? name).isSome := by
        rw [adds.sources, missing, Option.none_or, if_pos sameName,
          Option.isSome_some]
      have fullApart : file.fullName ≠ name :=
        sameName ▸ (apart file List.mem_cons_self file List.mem_cons_self).symm
      rw [registered.others name notFull (.inl held), adds.files,
        if_neg fullApart, if_pos ⟨sameName, missing⟩]
    · rename_i different
      refine registered.bare name other ?_ first
      rw [adds.sources, missing, Option.none_or, if_neg different]
  others key notFull unnamed := by
    obtain ⟨notFile, notRest⟩ := List.forall_mem_cons.mp notFull
    have held : mid.files.get? key = registry.files.get? key := by
      rw [adds.files, if_neg notFile, if_neg]
      rintro ⟨sameName, missing⟩
      rcases unnamed with present | noName
      · simp [missing] at present
      · exact noName file List.mem_cons_self sameName
    rw [registered.others key notRest, held]
    rcases unnamed with present | noName
    · obtain ⟨source, isSource⟩ := Option.isSome_iff_exists.mp present
      exact .inl
        (by rw [adds.sources, isSource, Option.some_or, Option.isSome_some])
    · exact .inr fun other among => noName other (List.mem_cons_of_mem _ among)

theorem registered_of_addEach
    {registry next : Registry}
    {files : List TemplateFile}
    (fullNames : (files.map TemplateFile.fullName).Nodup)
    (apart : ∀ first ∈ files, ∀ second ∈ files, first.name ≠ second.fullName)
    (done : registry.addEach files = (.ok (), next)) :
    registry.Registered files next := by
  induction files generalizing registry with
  | nil =>
    cases done
    exact ⟨rfl, fun name => by simp [firstNamed?], by simp,
      by simp [firstNamed?], by simp⟩
  | cons file rest ih =>
    rcases adds_of_addFile registry file with
      ⟨mid, ok, adds⟩ | ⟨source, -, -, error⟩
    · rw [addEach, ok] at done
      obtain ⟨notAgain, restNames⟩ := List.nodup_cons.mp fullNames
      refine .cons adds (ih restNames ?_ done) ?_ apart
      · exact fun first firstIn second secondIn =>
          apart first (List.mem_cons_of_mem _ firstIn) second
            (List.mem_cons_of_mem _ secondIn)
      · exact fun other among same =>
          notAgain (same ▸ List.mem_map_of_mem among)
    · rw [addEach, error] at done
      cases done

/--
Registries whose names ascend are known by what they hold under each name.
-/
theorem Ordered.eq
    {registry other : Registry}
    (ordered : registry.Ordered)
    (otherOrdered : other.Ordered)
    (texts : registry.texts = other.texts)
    (sources : ∀ name, registry.sources.get? name = other.sources.get? name)
    (files : ∀ key, registry.files.get? key = other.files.get? key) :
    registry = other := by
  have sameFiles := Entries.eq_of_get?_eq ordered.files otherOrdered.files files
  have sameSources :=
    Entries.eq_of_get?_eq ordered.sources otherOrdered.sources sources
  cases registry
  cases other
  simp_all

/-- What was registered does not depend on how the files are listed. -/
theorem Registered.eq_of_perm
    {registry next otherNext : Registry}
    {files others : List TemplateFile}
    (registered : registry.Registered files next)
    (otherRegistered : registry.Registered others otherNext)
    (perm : files.Perm others)
    (stands : ∀ name, firstNamed? files name = firstNamed? others name)
    (ordered : next.Ordered)
    (otherOrdered : otherNext.Ordered) :
    next = otherNext := by
  refine ordered.eq otherOrdered
    (registered.texts.trans otherRegistered.texts.symm)
    (fun name => by rw [registered.sources, otherRegistered.sources, stands])
    fun key => ?_
  by_cases isFull : ∃ file ∈ files, file.fullName = key
  · obtain ⟨file, among, rfl⟩ := isFull
    rw [registered.full file among,
      otherRegistered.full file (perm.mem_iff.mp among)]
  · have notFull : ∀ file ∈ files, file.fullName ≠ key := fun file among same =>
      isFull ⟨file, among, same⟩
    have notOther : ∀ file ∈ others, file.fullName ≠ key := fun file among =>
      notFull file (perm.mem_iff.mpr among)
    cases held : registry.sources.get? key with
    | some source =>
      have present : (registry.sources.get? key).isSome := by simp [held]
      rw [registered.others key notFull (.inl present),
        otherRegistered.others key notOther (.inl present)]
    | none =>
      cases first : firstNamed? files key with
      | some file =>
        rw [registered.bare key file held first,
          otherRegistered.bare key file held (stands key ▸ first)]
      | none =>
        rw [registered.others key notFull (.inr (name_ne_of_firstNamed? first)),
          otherRegistered.others key notOther
            (.inr (name_ne_of_firstNamed? (stands key ▸ first)))]

/-- A name of a registered file belongs to a directory. -/
theorem Registered.isSome_sources
    {registry next : Registry}
    {files : List TemplateFile}
    (registered : registry.Registered files next)
    {file : TemplateFile}
    (among : file ∈ files) :
    (next.sources.get? file.name).isSome := by
  rw [registered.sources, Option.isSome_or, Option.isSome_map, Bool.or_eq_true]
  refine .inr ?_
  cases first : firstNamed? files file.name with
  | some present => rfl
  | none => exact absurd rfl (name_ne_of_firstNamed? first file among)

/-- Files that were registered are in the way of none of them. -/
theorem Registered.compatible
    {registry next : Registry}
    {files : List TemplateFile}
    (registered : registry.Registered files next)
    (compatible : registry.Compatible files) :
    next.Compatible files where
  present file among source held := by
    rw [registered.sources] at held
    rcases Option.or_eq_some_iff.mp held with old | ⟨-, new⟩
    · exact compatible.present file among source old
    · obtain ⟨present, first, rfl⟩ := Option.map_eq_some_iff.mp new
      obtain ⟨inFiles, sameName⟩ := name_of_firstNamed? first
      exact compatible.together present inFiles file among sameName
  together := compatible.together

/-- Registering files that are registered changes nothing. -/
theorem Registered.eq_of_again
    {registry next again : Registry}
    {files others : List TemplateFile}
    (registered : registry.Registered files next)
    (anew : next.Registered others again)
    (perm : files.Perm others)
    (ordered : next.Ordered)
    (againOrdered : again.Ordered) :
    again = next := by
  refine againOrdered.eq ordered anew.texts (fun name => ?_) fun key => ?_
  · rw [anew.sources]
    cases held : next.sources.get? name with
    | some source => rfl
    | none =>
      cases first : firstNamed? others name with
      | none => rfl
      | some file =>
        obtain ⟨inOthers, rfl⟩ := name_of_firstNamed? first
        have present := registered.isSome_sources (perm.mem_iff.mpr inOthers)
        rw [held] at present
        cases present
  · by_cases isFull : ∃ file ∈ others, file.fullName = key
    · obtain ⟨file, among, rfl⟩ := isFull
      rw [anew.full file among, registered.full file (perm.mem_iff.mpr among)]
    · refine anew.others key (fun file among same => isFull ⟨file, among, same⟩)
        ?_
      by_cases named : ∃ file ∈ others, file.name = key
      · obtain ⟨file, among, rfl⟩ := named
        exact .inl (registered.isSome_sources (perm.mem_iff.mpr among))
      · exact .inr fun file among same => named ⟨file, among, same⟩

/-- The files of compatible directories are told apart by their full names. -/
theorem nodup_fullNames
    {registry : Registry}
    {files : List TemplateFile}
    (compatible : registry.Compatible files)
    (recognized : ∀ file ∈ files, file.Recognized)
    (distinct : files.Pairwise fun first second => ¬ first.SamePlace second) :
    (files.map TemplateFile.fullName).Nodup := by
  rw [List.Nodup, List.pairwise_map]
  refine List.Pairwise.imp_of_mem
    (fun {first second} firstIn secondIn different same => ?_) distinct
  have sameName : first.name = second.name :=
    name_eq_of_fullName_eq (recognized first firstIn)
      (recognized second secondIn) same
  exact different
    ⟨compatible.together first firstIn second secondIn sameName, same⟩

/-- The files in the order of registration. -/
theorem pairwise_mergeSort_comesFirst (files : List TemplateFile) :
    (files.mergeSort comesFirst).Pairwise fun first second =>
      comesFirst first second :=
  @List.pairwise_mergeSort _ comesFirst (fun _ _ _ => comesFirst_trans)
    comesFirst_total files

theorem ordered_addFiles
    {registry next : Registry}
    {files : List TemplateFile}
    (ordered : registry.Ordered)
    (done : registry.addFiles files = (.ok (), next)) : next.Ordered := by
  have final : (registry.addEach (files.mergeSort comesFirst)).2.Ordered :=
    ordered_addEach ordered
  rwa [← addFiles, done] at final

/-- Compatible files are registered, in the order of their extensions. -/
theorem registered_of_compatible
    {registry : Registry}
    {files : List TemplateFile}
    (compatible : registry.Compatible files)
    (fullNames : (files.map TemplateFile.fullName).Nodup)
    (apart : ∀ first ∈ files, ∀ second ∈ files, first.name ≠ second.fullName) :
    ∃ next,
      registry.addFiles files = (.ok (), next) ∧
      registry.Registered (files.mergeSort comesFirst) next := by
  have perm : (files.mergeSort comesFirst).Perm files :=
    List.mergeSort_perm files comesFirst
  rcases addEach_of_compatible registry (files.mergeSort comesFirst) with
    ⟨-, next, done⟩ | ⟨not, -⟩
  · refine ⟨next, done, registered_of_addEach ?_ ?_ done⟩
    · exact (perm.map _).nodup_iff.mpr fullNames
    · exact fun first firstIn second secondIn =>
        apart first (perm.mem_iff.mp firstIn) second (perm.mem_iff.mp secondIn)
  · exact absurd (compatible.of_subset perm.subset) not

/--
Compatible files are registered the same way in any order, once and once more.
-/
theorem addFiles_of_compatible
    {registry : Registry}
    {files : List TemplateFile}
    (ordered : registry.Ordered)
    (compatible : registry.Compatible files)
    (recognized : ∀ file ∈ files, file.Recognized)
    (fullNames : (files.map TemplateFile.fullName).Nodup)
    (apart : ∀ first ∈ files, ∀ second ∈ files, first.name ≠ second.fullName) :
    ∃ next,
      ∀ others,
        files.Perm others →
        registry.addFiles others = (.ok (), next) ∧
          next.addFiles others = (.ok (), next) := by
  obtain ⟨next, done, registered⟩ :=
    registered_of_compatible compatible fullNames apart
  have nextOrdered : next.Ordered := ordered_addFiles ordered done
  refine ⟨next, fun others perm => ?_⟩
  have sorted (list : List TemplateFile) := List.mergeSort_perm list comesFirst
  have sortedPerm :
      (files.mergeSort comesFirst).Perm (others.mergeSort comesFirst) :=
    ((sorted files).trans perm).trans (sorted others).symm
  have othersNames : (others.map TemplateFile.fullName).Nodup :=
    (perm.map _).nodup_iff.mp fullNames
  have othersApart :
      ∀ first ∈ others, ∀ second ∈ others, first.name ≠ second.fullName :=
    fun first firstIn second secondIn =>
      apart first (perm.mem_iff.mpr firstIn) second (perm.mem_iff.mpr secondIn)
  constructor
  · obtain ⟨otherNext, otherDone, otherRegistered⟩ :=
      registered_of_compatible (compatible.of_subset perm.symm.subset)
        othersNames othersApart
    have stands :
        ∀ name,
          firstNamed? (files.mergeSort comesFirst) name =
            firstNamed? (others.mergeSort comesFirst) name :=
      firstNamed?_eq_of_perm
        (fun file among => recognized file ((sorted files).mem_iff.mp among))
        (((sorted files).map _).nodup_iff.mpr fullNames) sortedPerm
        (pairwise_mergeSort_comesFirst files)
        (pairwise_mergeSort_comesFirst others)
    rw [otherDone,
      registered.eq_of_perm otherRegistered sortedPerm stands nextOrdered
        (ordered_addFiles ordered otherDone)]
  · have nextCompatible : next.Compatible others :=
      (registered.compatible
        (compatible.of_subset (sorted files).subset)).of_subset
        (perm.symm.trans (sorted files).symm).subset
    obtain ⟨again, anewDone, anew⟩ :=
      registered_of_compatible nextCompatible othersNames othersApart
    rw [anewDone, registered.eq_of_again anew sortedPerm nextOrdered
      (ordered_addFiles nextOrdered anewDone)]

/--
Whether files are registered, and what the registry then holds, does not depend
on how they are listed; registering them once more changes nothing.
-/
theorem addFiles_of_perm
    {registry : Registry}
    {files : List TemplateFile}
    (reachable : registry.Reachable)
    (recognized : ∀ file ∈ files, file.Recognized)
    (distinct : files.Pairwise fun first second => ¬ first.SamePlace second)
    (apart : ∀ first ∈ files, ∀ second ∈ files, first.name ≠ second.fullName) :
    (∃ next,
      ∀ others,
        files.Perm others →
        registry.addFiles others = (.ok (), next) ∧
          next.addFiles others = (.ok (), next)) ∨
    (∀ others,
      files.Perm others →
      ∃ name present added,
        (registry.addFiles others).1 =
          .error (.collision name present added)) := by
  by_cases compatible : registry.Compatible files
  · exact .inl (addFiles_of_compatible reachable.ordered compatible recognized
      (nodup_fullNames compatible recognized distinct) apart)
  · refine .inr fun others perm => ?_
    have sortedPerm := perm.trans (List.mergeSort_perm others comesFirst).symm
    rcases addEach_of_compatible registry (others.mergeSort comesFirst) with
      ⟨othersCompatible, -⟩ | ⟨-, collides⟩
    · exact absurd (othersCompatible.of_subset sortedPerm.subset) compatible
    · exact collides

/-- The two extensions of one name, listed in either order, and once more. -/
theorem addFiles_rowFiles_reversed :
    Reachable empty ∧
    (∀ file ∈ rowFiles, file.Recognized) ∧
    (rowFiles.Pairwise fun first second => ¬ first.SamePlace second) ∧
    (∀ first ∈ rowFiles, ∀ second ∈ rowFiles, first.name ≠ second.fullName) ∧
    ∃ next,
      empty.addFiles rowFiles = (.ok (), next) ∧
      empty.addFiles rowFiles.reverse = (.ok (), next) ∧
      next.addFiles rowFiles.reverse = (.ok (), next) ∧
      next.files.get? "row" = some preferredRow.path := by
  have recognized : ∀ file ∈ rowFiles, file.Recognized := by
    simp [rowFiles, preferredRow, TemplateFile.Recognized, templateExtensions]
  have distinct :
      rowFiles.Pairwise fun first second => ¬ first.SamePlace second := by
    simp [rowFiles, preferredRow, TemplateFile.SamePlace]
  have apart :
      ∀ first ∈ rowFiles,
        ∀ second ∈ rowFiles, first.name ≠ second.fullName := by
    simp [rowFiles, preferredRow]
  have registered : empty.addFiles rowFiles = (.ok (), rowRegistry) := by
    rw [addFiles, mergeSort_rowFiles]
    decide +kernel
  refine ⟨.empty, recognized, distinct, apart, ?_⟩
  rcases addFiles_of_perm .empty recognized distinct apart with
    ⟨next, same⟩ | collides
  · obtain ⟨first, -⟩ := same rowFiles (.refl _)
    obtain ⟨second, again⟩ := same rowFiles.reverse (List.reverse_perm _).symm
    obtain rfl : rowRegistry = next :=
      congrArg Prod.snd (registered.symm.trans first)
    exact ⟨_, first, second, again, rfl⟩
  · obtain ⟨name, present, added, error⟩ := collides rowFiles (.refl _)
    rw [registered] at error
    cases error

end Registry

end Mustache
