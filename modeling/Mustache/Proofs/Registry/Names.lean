import Mustache.Proofs.Registry.Listing

/-!
# Names of loaded partials

A registry is loaded with directories, each a list of files, one after the
other.  What it holds is described by the files in the order in which they were
registered (`Registry.Registers`): the first file of a name stands for that
name, and all files of one name lie in one directory.  A name with extension and
a name without are keys of one table, though, and no collision between them is
seen; the names that are of one kind only keep their files
(`Registry.names_loaded`).
-/

namespace Mustache

namespace TemplateFile

/-- Where the file comes from. -/
def source (file : TemplateFile) : TemplateSource :=
  ⟨file.path, file.sourceDirectory⟩

end TemplateFile

namespace Registry

/-- The first of some files that has a name. -/
def firstNamed?
    (files : List TemplateFile)
    (name : String) : Option TemplateFile :=
  files.find? fun file => file.name == name

/--
A registry into which the given files were registered, in this order, and
nothing else.
-/
structure Registers
    (registry : Registry)
    (files : List TemplateFile) : Prop where
  listed : ∀ file ∈ files, file.Listed
  texts : registry.texts = []
  sources :
    ∀ name,
      registry.sources.get? name =
        (firstNamed? files name).map TemplateFile.source
  oneDirectory :
    ∀ first ∈ files, ∀ second ∈ files, first.name = second.name →
      first.sourceDirectory = second.sourceDirectory
  bare :
    ∀ name file,
      firstNamed? files name = some file →
      (∀ other ∈ files, other.fullName ≠ name) →
      registry.files.get? name = some file.path
  full :
    ∀ file ∈ files, (∀ other ∈ files, other.name ≠ file.fullName) →
      registry.files.get? file.fullName = some file.path

theorem registers_empty : Registers empty [] where
  listed := by simp
  texts := rfl
  sources _ := rfl
  oneDirectory := by simp
  bare _ _ found := by cases found
  full := by simp

theorem firstNamed?_append_singleton
    (files : List TemplateFile)
    (file : TemplateFile)
    (name : String) :
    firstNamed? (files ++ [file]) name =
      (firstNamed? files name).or
        (if file.name = name then some file else none) := by
  simp only [firstNamed?, List.find?_append, List.find?_singleton, beq_iff_eq]

theorem name_of_firstNamed?
    {files : List TemplateFile}
    {name : String}
    {file : TemplateFile}
    (found : firstNamed? files name = some file) :
    file ∈ files ∧ file.name = name :=
  ⟨List.mem_of_find?_eq_some found, by simpa using List.find?_some found⟩

theorem name_ne_of_firstNamed?
    {files : List TemplateFile}
    {name : String}
    (missing : firstNamed? files name = none) :
    ∀ file ∈ files, file.name ≠ name := by
  simpa [firstNamed?] using missing

section Step

variable {registry : Registry} {files : List TemplateFile} {file : TemplateFile}

/--
The file under the full name of an old file, after a new one was registered
under its own.
-/
theorem get?_fullName_insert
    (registers : registry.Registers files)
    (listed : file.Listed)
    (sameDirectory :
      ∀ present ∈ files,
        present.name = file.name →
        present.sourceDirectory = file.sourceDirectory)
    {table : Entries String}
    {old : TemplateFile}
    (among : old ∈ files)
    (held : table.get? old.fullName = some old.path) :
    (table.insert file.fullName file.path).get? old.fullName =
      some old.path := by
  by_cases same : file.fullName = old.fullName
  · have oldListed : old.Listed := registers.listed old among
    have directory : old.sourceDirectory = file.sourceDirectory :=
      sameDirectory old among
        (name_eq_of_fullName_eq oldListed.recognized listed.recognized
          same.symm)
    have path : file.path = old.path :=
      path_eq_of_fullName_eq listed oldListed
        ((samePath_sourceDirectory_iff listed oldListed).mpr directory.symm)
        same
    rw [← same, Entries.get?_insert_self, path]
  · rw [Entries.get?_insert_of_ne _ _ same, held]

/--
A file of a name that is registered already is registered under its full name
alone.
-/
theorem registers_of_present
    (registers : registry.Registers files)
    (listed : file.Listed)
    {present : TemplateFile}
    (first : firstNamed? files file.name = some present)
    (sameDirectory :
      ∀ present ∈ files,
        present.name = file.name →
        present.sourceDirectory = file.sourceDirectory) :
    Registers
      { registry with files := registry.files.insert file.fullName file.path }
      (files ++ [file]) where
  listed := by simpa [or_imp, forall_and] using ⟨registers.listed, listed⟩
  texts := registers.texts
  sources name := by
    have unchanged :
        firstNamed? (files ++ [file]) name = firstNamed? files name := by
      rw [firstNamed?_append_singleton]
      split
      · rename_i same
        rw [← same, first, Option.some_or]
      · exact Option.or_none
    exact unchanged ▸ registers.sources name
  oneDirectory := by
    have old := registers.oneDirectory
    simp only [List.mem_append, List.mem_singleton]
    rintro one (inOld | rfl) other (otherOld | rfl) same
    · exact old one inOld other otherOld same
    · exact sameDirectory one inOld same
    · exact (sameDirectory other otherOld same.symm).symm
    · rfl
  bare name found isFirst noFull := by
    simp only
      [List.mem_append, List.mem_singleton, or_imp, forall_and, forall_eq]
      at noFull
    rw [Entries.get?_insert_of_ne _ _ noFull.2]
    refine registers.bare name found ?_ noFull.1
    rw [firstNamed?_append_singleton] at isFirst
    split at isFirst
    · rename_i same
      rw [← same, first, Option.some_or] at isFirst
      rw [← same, first, isFirst]
    · rwa [Option.or_none] at isFirst
  full old among noBare := by
    simp only
      [List.mem_append, List.mem_singleton, or_imp, forall_and, forall_eq]
      at among noBare
    rcases among with inOld | rfl
    · exact get?_fullName_insert registers listed sameDirectory inOld
        (registers.full old inOld noBare.1)
    · exact Entries.get?_insert_self _ _ _

/-- A file of a new name is registered under both its names. -/
theorem registers_of_missing
    (registers : registry.Registers files)
    (listed : file.Listed)
    (missing : firstNamed? files file.name = none) :
    Registers
      { registry with
        sources := registry.sources.insert file.name file.source
        files :=
          (registry.files.insert file.name file.path).insert file.fullName
            file.path }
      (files ++ [file]) where
  listed := by simpa [or_imp, forall_and] using ⟨registers.listed, listed⟩
  texts := registers.texts
  sources name := by
    rw [firstNamed?_append_singleton]
    split
    · rename_i same
      rw [← same, missing, Option.none_or, Entries.get?_insert_self]
      rfl
    · rename_i different
      rw [Option.or_none, Entries.get?_insert_of_ne _ _ different,
        registers.sources name]
  oneDirectory := by
    have old := registers.oneDirectory
    have newName := name_ne_of_firstNamed? missing
    simp only [List.mem_append, List.mem_singleton]
    rintro one (inOld | rfl) other (otherOld | rfl) same
    · exact old one inOld other otherOld same
    · exact absurd same (newName one inOld)
    · exact absurd same.symm (newName other otherOld)
    · rfl
  bare name found isFirst noFull := by
    simp only
      [List.mem_append, List.mem_singleton, or_imp, forall_and, forall_eq]
      at noFull
    rw [Entries.get?_insert_of_ne _ _ noFull.2]
    rw [firstNamed?_append_singleton] at isFirst
    split at isFirst
    · rename_i same
      rw [← same, missing, Option.none_or, Option.some.injEq] at isFirst
      rw [← same, Entries.get?_insert_self, isFirst]
    · rename_i different
      rw [Option.or_none] at isFirst
      rw [Entries.get?_insert_of_ne _ _ different,
        registers.bare name found isFirst noFull.1]
  full old among noBare := by
    simp only
      [List.mem_append, List.mem_singleton, or_imp, forall_and, forall_eq]
      at among noBare
    rcases among with inOld | rfl
    · have newName := name_ne_of_firstNamed? missing
      refine get?_fullName_insert registers listed
        (fun present inFiles same => absurd same (newName present inFiles))
        inOld ?_
      rw [Entries.get?_insert_of_ne _ _ noBare.2,
        registers.full old inOld noBare.1]
    · exact Entries.get?_insert_self _ _ _

/--
A file is registered, unless a file of its name lies in another directory.
-/
theorem addFile_cases
    (registers : registry.Registers files)
    (listed : file.Listed) :
    (∃ next,
      registry.addFile file = .ok next ∧ next.Registers (files ++ [file])) ∨
    (∃ present,
      firstNamed? files file.name = some present ∧
      present.sourceDirectory ≠ file.sourceDirectory ∧
      registry.addFile file =
        .error (.collision file.name present.source file.source)) := by
  have source := registers.sources file.name
  cases first : firstNamed? files file.name with
  | none =>
    rw [first, Option.map_none] at source
    exact .inl ⟨_, by rw [addFile, source]; rfl,
      registers_of_missing registers listed first⟩
  | some present =>
    rw [first, Option.map_some] at source
    obtain ⟨among, name⟩ := name_of_firstNamed? first
    have sameIff :=
      samePath_sourceDirectory_iff (registers.listed present among) listed
    by_cases same : present.sourceDirectory = file.sourceDirectory
    · refine .inl ⟨_, ?_, registers_of_present registers listed first ?_⟩
      · rw [addFile, source]
        exact if_pos (sameIff.mpr same)
      · intro other inFiles otherName
        rw [← same]
        exact registers.oneDirectory other inFiles present among
          (otherName.trans name.symm)
    · refine .inr ⟨present, rfl, same, ?_⟩
      rw [addFile, source]
      exact if_neg fun equal => same (sameIff.mp equal)

end Step

/--
Files are registered up to the first that collides with one registered before.
-/
theorem addEach_cases
    {added : List TemplateFile}
    (listed : ∀ file ∈ added, file.Listed) :
    ∀ {registry : Registry} {files : List TemplateFile},
      registry.Registers files →
      (∃ next,
          registry.addEach added = (.ok (), next) ∧
          next.Registers (files ++ added)) ∨
        (∃ taken file rest,
          added = taken ++ file :: rest ∧
          ∃ next,
            next.Registers (files ++ taken) ∧
            ∃ present,
              firstNamed? (files ++ taken) file.name = some present ∧
              present.sourceDirectory ≠ file.sourceDirectory ∧
              registry.addEach added =
                (.error (.collision file.name present.source file.source),
                  next)) := by
  induction added with
  | nil =>
    intro registry files registers
    exact .inl ⟨registry, rfl, by simpa using registers⟩
  | cons file rest ih =>
    intro registry files registers
    rcases addFile_cases registers (listed file List.mem_cons_self) with
      ⟨next, ok, step⟩ | ⟨present, first, different, error⟩
    · have ofRest : ∀ other ∈ rest, other.Listed :=
        fun other among => listed other (List.mem_cons_of_mem _ among)
      have run : registry.addEach (file :: rest) = next.addEach rest := by
        rw [addEach, ok]
      rw [run]
      rcases ih ofRest step with
        ⟨last, done, final⟩ |
        ⟨taken, other, remaining, split, last, final, present, first, different,
          error⟩
      · exact .inl ⟨last, done, by simpa using final⟩
      · exact .inr ⟨file :: taken, other, remaining, by rw [split]; rfl, last,
          by simpa using final, present, by simpa using first, different, error⟩
    · exact .inr ⟨[], file, rest, rfl, registry, by simpa using registers,
        present, by simpa using first, different, by rw [addEach, error]⟩

theorem comesFirst_trans
    {first second third : TemplateFile}
    (former : comesFirst first second = true)
    (latter : comesFirst second third = true) :
    comesFirst first third = true := by
  simp only [comesFirst] at *
  grind

theorem comesFirst_total (first second : TemplateFile) :
    (comesFirst first second || comesFirst second first) = true := by
  simp only [comesFirst]
  grind

/-- The files in the order of their registration. -/
def inOrder (batches : List (List TemplateFile)) : List TemplateFile :=
  (batches.map fun batch => batch.mergeSort comesFirst).flatten

theorem mem_inOrder
    {batches : List (List TemplateFile)}
    {file : TemplateFile} :
    file ∈ inOrder batches ↔ file ∈ batches.flatten := by
  simp [inOrder, List.mem_flatten]

/--
In the directory that was the first one loaded with its name, the file has the
preferred extension.
-/
def StandsForName
    (batches : List (List TemplateFile))
    (file : TemplateFile) : Prop :=
  ∃ before batch after, batches = before ++ batch :: after ∧
    (∀ other ∈ before.flatten, other.name ≠ file.name) ∧ file ∈ batch ∧
    ∀ other ∈ batch, other.name = file.name → comesFirst file other = true

theorem standsForName_of_firstNamed?
    {batches : List (List TemplateFile)}
    {name : String}
    {file : TemplateFile}
    (first : firstNamed? (inOrder batches) name = some file) :
    StandsForName batches file := by
  obtain ⟨-, rfl⟩ := name_of_firstNamed? first
  simp only [firstNamed?, inOrder, List.find?_flatten_eq_some_iff] at first
  obtain ⟨-, sortedBefore, front, back, sortedAfter, split, missing,
      missingFront⟩ :=
    first
  obtain ⟨before, others, rfl, rfl, tail⟩ := List.map_eq_append_iff.mp split
  obtain ⟨batch, after, rfl, sorted, -⟩ := List.map_eq_cons_iff.mp tail
  have mem_sorted : ∀ other, other ∈ batch ↔ other ∈ front ++ file :: back :=
    fun other => by
    rw [← sorted, List.mem_mergeSort]
  have ordered :
      (batch.mergeSort comesFirst).Pairwise fun first second =>
        comesFirst first second :=
    @List.pairwise_mergeSort _ comesFirst (fun _ _ _ => comesFirst_trans)
      comesFirst_total batch
  have behind : ∀ other ∈ back, comesFirst file other = true :=
    (List.pairwise_cons.mp (List.pairwise_append.mp (sorted ▸ ordered)).2.1).1
  refine ⟨before, batch, after, rfl, ?_, by simp [mem_sorted], ?_⟩
  · intro other among
    obtain ⟨earlier, inBefore, inEarlier⟩ := List.mem_flatten.mp among
    simpa using
      missing _ (List.mem_map_of_mem inBefore) other
        (List.mem_mergeSort.mpr inEarlier)
  · intro other among otherName
    rcases List.mem_append.mp ((mem_sorted other).mp among) with
      inFront | inRest
    · exact
        ((by simpa using missingFront other inFront : other.name ≠ file.name)
          otherName).elim
    · rcases List.mem_cons.mp inRest with same | inBack
      · simpa [same] using comesFirst_total file file
      · exact behind other inBack

/--
A registry that was loaded with directories, one after the other and without a
collision, and the files that each of them held at that time.
-/
inductive Loaded : List (List TemplateFile) → Registry → Prop where
  | empty : Loaded [] empty
  | load
      {batches : List (List TemplateFile)}
      {registry next : Registry}
      {files : Files}
      {path : String}
      {found : List TemplateFile} :
      Loaded batches registry → files.Named →
      listDirectory files path = .ok found →
      registry.addDirectory files path = (.ok (), next) →
      Loaded (batches ++ [found]) next

/--
Loading a directory registers all of its files, or a name of it belongs to
another directory.
-/
theorem addDirectory_cases
    {batches : List (List TemplateFile)}
    {registry : Registry}
    {files : Files}
    {path : String}
    {found : List TemplateFile}
    (registers : registry.Registers (inOrder batches))
    (named : files.Named)
    (listing : listDirectory files path = .ok found) :
    (∃ next,
      registry.addDirectory files path = (.ok (), next) ∧
      next.Registers (inOrder (batches ++ [found]))) ∨
    (∃ present,
      StandsForName batches present ∧
      ∃ file ∈ found,
        present.name = file.name ∧
        present.sourceDirectory ≠ file.sourceDirectory ∧
        (registry.addDirectory files path).1 =
          .error (.collision file.name present.source file.source)) := by
  obtain ⟨directory, names, lies⟩ := liesIn_of_listDirectory named listing
  have listed : ∀ file ∈ found.mergeSort comesFirst, file.Listed :=
    fun file among =>
    ⟨directory, names, lies file (List.mem_mergeSort.mp among)⟩
  simp only [addDirectory, listing, addFiles]
  rcases addEach_cases listed registers with ⟨next, done, final⟩ |
    ⟨taken, file, rest, split, next, -, present, first, different, error⟩
  · exact .inl ⟨next, done, by simpa [inOrder] using final⟩
  · have inFound : ∀ other ∈ taken ++ file :: rest, other ∈ found := by
      rw [← split]
      exact fun other => List.mem_mergeSort.mp
    have fileFound : file ∈ found := inFound file (by simp)
    have notTaken : firstNamed? taken file.name ≠ some present :=
      fun among => by
      have presentFound : present ∈ found :=
        inFound present (List.mem_append_left _ (name_of_firstNamed? among).1)
      exact different ((lies present presentFound).sourceDirectory.trans
        (lies file fileFound).sourceDirectory.symm)
    have name : present.name = file.name := (name_of_firstNamed? first).2
    rw [firstNamed?, List.find?_append, Option.or_eq_some_iff] at first
    rcases first with loaded | ⟨-, among⟩
    · exact .inr ⟨present, standsForName_of_firstNamed? loaded, file, fileFound,
        name, different, by rw [error]⟩
    · exact (notTaken among).elim

theorem registers_of_loaded
    {batches : List (List TemplateFile)}
    {registry : Registry}
    (loaded : Loaded batches registry) :
    registry.Registers (inOrder batches) := by
  induction loaded with
  | empty => exact registers_empty
  | load _ named listing done registers =>
    rcases addDirectory_cases registers named listing with
      ⟨next, loads, final⟩ | ⟨_, _, _, _, _, _, error⟩
    · rw [done] at loads
      cases loads
      exact final
    · rw [done] at error
      cases error

theorem read_of_file
    {registry : Registry}
    {name path : String}
    (texts : registry.texts = [])
    (held : registry.files.get? name = some path)
    (now : Files) :
    registry.read now name = readPath now path := by
  simp [read, texts, held]

/--
After directories were loaded without a collision, a name with extension that is
no name of a file reads the file it belongs to, and a name that is no file's
name with extension reads the file with the preferred extension, in the one
directory that has the name.  The next directory is loaded if it shares no name
with another one; otherwise the first file of such a name is reported with the
one it collides with.
-/
theorem names_loaded
    {batches : List (List TemplateFile)}
    {registry : Registry}
    (loaded : Loaded batches registry) :
    (∀ file ∈ batches.flatten,
      (∀ other ∈ batches.flatten, other.name ≠ file.fullName) →
      ∀ now, registry.read now file.fullName = readPath now file.path) ∧
    (∀ named ∈ batches.flatten,
      (∀ other ∈ batches.flatten, other.fullName ≠ named.name) →
      ∃ file,
        StandsForName batches file ∧
        file.name = named.name ∧
        file.sourceDirectory = named.sourceDirectory ∧
        ∀ now, registry.read now named.name = readPath now file.path) ∧
    (∀ (files : Files) (path : String) (found : List TemplateFile),
      files.Named → listDirectory files path = .ok found →
      ((∃ next, registry.addDirectory files path = (.ok (), next)) ∧
          ∀ present ∈ batches.flatten,
            ∀ file ∈ found,
              present.name = file.name ∨ present.fullName = file.fullName →
              present.sourceDirectory = file.sourceDirectory) ∨
        (∃ present,
          StandsForName batches present ∧
          ∃ file ∈ found,
            present.name = file.name ∧
            present.sourceDirectory ≠ file.sourceDirectory ∧
            (registry.addDirectory files path).1 =
              .error (.collision file.name present.source file.source))) := by
  have registers := registers_of_loaded loaded
  refine ⟨?_, ?_, ?_⟩
  · intro file among noBare now
    refine read_of_file registers.texts
      (registers.full file (mem_inOrder.mpr among) ?_) now
    exact fun other inOrder => noBare other (mem_inOrder.mp inOrder)
  · intro named among noFull
    cases first : firstNamed? (inOrder batches) named.name with
    | none =>
      exact
        (name_ne_of_firstNamed? first named (mem_inOrder.mpr among) rfl).elim
    | some file =>
      obtain ⟨inFiles, name⟩ := name_of_firstNamed? first
      have directory : file.sourceDirectory = named.sourceDirectory :=
        registers.oneDirectory file inFiles named (mem_inOrder.mpr among) name
      have held : registry.files.get? named.name = some file.path :=
        registers.bare named.name file first fun other inOrder =>
          noFull other (mem_inOrder.mp inOrder)
      exact ⟨file, standsForName_of_firstNamed? first, name, directory,
        read_of_file registers.texts held⟩
  · intro files path found named listing
    rcases addDirectory_cases registers named listing with
      ⟨next, done, final⟩ | collides
    · refine .inl ⟨⟨next, done⟩, fun present among file inFound shared => ?_⟩
      have presentIn : present ∈ inOrder (batches ++ [found]) :=
        mem_inOrder.mpr (by
          rw [List.flatten_append]
          exact List.mem_append_left _ among)
      have fileIn : file ∈ inOrder (batches ++ [found]) :=
        mem_inOrder.mpr (by simp [inFound])
      have sameName : present.name = file.name := shared.elim id fun sameFull =>
        name_eq_of_fullName_eq (final.listed _ presentIn).recognized
          (final.listed _ fileIn).recognized sameFull
      exact final.oneDirectory present presentIn file fileIn sameName
    · exact .inr collides

section Pages

/-- A directory of partials, and two more that each share a name with it. -/
def pageFiles : Files where
  root :=
    .directory [("a",
      .directory [("row.hbs", .file "B".toUTF8),
        ("row.mustache", .file "A".toUTF8)]),
      ("b", .directory [("row.txt", .file "C".toUTF8)]),
      ("c", .directory [("row.mustache.txt", .file "D".toUTF8)])]
  working := []

theorem named_pageFiles : pageFiles.Named := by
  simp [Files.Named, pageFiles]

/-- The preferred partial of the first directory. -/
def preferredRow : TemplateFile :=
  ⟨"row", "row.mustache", "/a/row.mustache", "/a"⟩

/-- The partials of the first directory, as they are listed. -/
def rowFiles : List TemplateFile :=
  [⟨"row", "row.hbs", "/a/row.hbs", "/a"⟩, preferredRow]

/-- A registry with the first directory. -/
def rowRegistry : Registry where
  texts := []
  files :=
    [("row", "/a/row.mustache"), ("row.hbs", "/a/row.hbs"),
      ("row.mustache", "/a/row.mustache")]
  sources := [("row", preferredRow.source)]

/-- The preferred extension is registered first. -/
theorem mergeSort_rowFiles :
    rowFiles.mergeSort comesFirst = rowFiles.reverse := by
  have notFirst :
      comesFirst ⟨"row", "row.hbs", "/a/row.hbs", "/a"⟩ preferredRow =
        false := by
    decide +kernel
  simp [rowFiles, List.mergeSort, List.MergeSort.Internal.splitInTwo, notFirst]

theorem loaded_rowRegistry : Loaded [rowFiles] rowRegistry := by
  have listing : listDirectory pageFiles "a" = .ok rowFiles := by decide +kernel
  refine .load .empty named_pageFiles listing ?_
  simp only [addDirectory, listing, addFiles, mergeSort_rowFiles]
  decide +kernel

theorem eq_preferredRow_of_standsForName
    {file : TemplateFile}
    (stands : StandsForName [rowFiles] file) :
    file = preferredRow := by
  obtain ⟨before, batch, after, split, -, among, preferred⟩ := stands
  obtain ⟨rfl, rfl⟩ : before = [] ∧ batch = rowFiles := by
    cases before with
    | nil => exact ⟨rfl, (List.cons.inj split).1.symm⟩
    | cons => simp at split
  rcases List.mem_cons.mp among with rfl | last
  · exact absurd (preferred preferredRow (by decide +kernel) rfl)
      (by decide +kernel)
  · exact List.mem_singleton.mp last

/--
Two extensions of one name in the first directory, and a directory that shares
the name.
-/
theorem names_loaded_row :
    Loaded [rowFiles] rowRegistry ∧
    (∀ file ∈ rowFiles, ∀ other ∈ rowFiles, other.name ≠ file.fullName) ∧
    rowRegistry.read pageFiles "row.hbs" = .ok "B" ∧
    rowRegistry.read pageFiles "row" = .ok "A" ∧
    (rowRegistry.addDirectory pageFiles "b").1 =
      .error (.collision "row" preferredRow.source ⟨"/b/row.txt", "/b"⟩) := by
  obtain ⟨full, bare, next⟩ := names_loaded loaded_rowRegistry
  refine ⟨loaded_rowRegistry, by decide +kernel, ?_, ?_, ?_⟩
  · have reads :=
      full ⟨"row", "row.hbs", "/a/row.hbs", "/a"⟩ (by decide +kernel)
        (by decide +kernel) pageFiles
    exact reads.trans (by decide +kernel)
  · obtain ⟨file, stands, -, -, reads⟩ :=
      bare preferredRow (by decide +kernel) (by decide +kernel)
    have isPreferred : file = preferredRow :=
      eq_preferredRow_of_standsForName stands
    exact (reads pageFiles).trans (by rw [isPreferred]; decide +kernel)
  · rcases next pageFiles "b" [⟨"row", "row.txt", "/b/row.txt", "/b"⟩]
        named_pageFiles (by decide +kernel) with
      ⟨-, noShared⟩ | ⟨present, stands, file, among, -, -, error⟩
    · exact absurd
        (noShared preferredRow (by decide +kernel) _ List.mem_cons_self
          (.inl rfl))
        (by decide +kernel)
    · rw [error, eq_preferredRow_of_standsForName stands,
        List.mem_singleton.mp among]
      rfl

/--
A name with extension is taken over, without a collision, by the file of another
directory that has it as its name without extension.
-/
theorem full_name_taken_over :
    preferredRow.fullName = "row.mustache" ∧
    rowRegistry.read pageFiles "row.mustache" = .ok "A" ∧
    ∃ registry,
      Loaded
        [rowFiles,
          [⟨"row.mustache", "row.mustache.txt", "/c/row.mustache.txt", "/c"⟩]]
        registry ∧
      registry.read pageFiles "row.mustache" = .ok "D" := by
  have listing :
      listDirectory pageFiles "c" =
        .ok [⟨"row.mustache", "row.mustache.txt", "/c/row.mustache.txt",
          "/c"⟩] := by
    decide +kernel
  refine ⟨rfl, by decide +kernel, (rowRegistry.addDirectory pageFiles "c").2,
    ?_, ?_⟩
  · refine .load loaded_rowRegistry named_pageFiles listing ?_
    simp only [addDirectory, listing, addFiles, List.mergeSort_singleton]
    decide +kernel
  · simp only [addDirectory, listing, addFiles, List.mergeSort_singleton]
    decide +kernel

end Pages

end Registry

end Mustache
