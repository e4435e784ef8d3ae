import Mustache.Proofs.Registry.Order

/-!
# What a collision leaves

Files are registered one after the other, and a collision stops that at the
first file whose name belongs to another directory.  The files before it stay
registered (`Registry.StopsAt`), so names may have been added.  The names that
were there are still there, with the text or the path that they stood for,
except where a file that was registered has the name in a way that nobody checks
(`Registry.Rebinds`).
-/

namespace Mustache

namespace Registry

/-- What is found under a name. -/
inductive Served where
  /-- A registered text. -/
  | text (text : String)
  /-- The file at a path. -/
  | file (path : String)
deriving DecidableEq, Repr

/-- What is found under a name, if anything is. -/
def served? (registry : Registry) (name : String) : Option Served :=
  match registry.texts.get? name with
  | some text => some (.text text)
  | none => (registry.files.get? name).map .file

/-- The names that are registered are those under which something is found. -/
theorem contains_eq_isSome_served?
    (registry : Registry)
    (name : String) :
    registry.contains name = (registry.served? name).isSome := by
  unfold contains Entries.contains served?
  cases registry.texts.get? name <;> simp

/-- What is read under a name is what is found there. -/
theorem read_eq_of_served?
    (registry : Registry)
    (files : Files)
    (name : String) :
    registry.read files name =
      match registry.served? name with
      | some (.text text) => .ok text
      | some (.file path) => readPath files path
      | none => .error (.notFound name) := by
  unfold read served?
  cases registry.texts.get? name with
  | some text => rfl
  | none => cases registry.files.get? name <;> rfl

/-- Every name that belongs to a directory is the name of a file. -/
def Backed (registry : Registry) : Prop :=
  ∀ name,
    (registry.sources.get? name).isSome → (registry.files.get? name).isSome

/-- Registering a file makes files of its names, with and without extension. -/
theorem Adds.isSome_files_iff
    {registry next : Registry}
    {file : TemplateFile}
    (adds : registry.Adds file next)
    (backed : registry.Backed)
    (name : String) :
    (next.files.get? name).isSome ↔
      (registry.files.get? name).isSome ∨
        file.name = name ∨
        file.fullName = name := by
  rw [adds.files]
  by_cases isFull : file.fullName = name
  · simp [isFull]
  by_cases isName : file.name = name
  · cases owned : registry.sources.get? name with
    | none => simp [isFull, isName]
    | some source =>
      have present : (registry.files.get? name).isSome :=
        backed name (by simp [owned])
      simp [isFull, present]
  · simp [isFull, isName]

theorem Adds.backed
    {registry next : Registry}
    {file : TemplateFile}
    (adds : registry.Adds file next)
    (backed : registry.Backed) : next.Backed := by
  intro name owned
  rw [adds.isSome_files_iff backed]
  rw [adds.sources, Option.isSome_or, Bool.or_eq_true] at owned
  rcases owned with old | new
  · exact .inl (backed name old)
  · split at new
    · rename_i isName
      exact .inr (.inl isName)
    · cases new

theorem Reachable.backed
    {registry : Registry}
    (reachable : registry.Reachable) : registry.Backed := by
  exact reachable.keeps (by simp [Backed, Registry.empty])
    (fun _ _ _ backed => backed) fun _ _ _ adds => adds.backed

/--
Registering the file may change what is found under a name: that is another
file, and either the name is the file's full name, or it is the file's name and
has belonged to no directory.
-/
def Rebinds
    (registry : Registry)
    (file : TemplateFile)
    (name : String) : Prop :=
  registry.texts.get? name = none ∧
  registry.files.get? name ≠ some file.path ∧
  (file.fullName = name ∨ file.name = name ∧ registry.sources.get? name = none)

/--
Registering files stops at one whose name belongs to another directory.  The
files before it in the order of registration are registered, and no others.
-/
structure StopsAt
    (registry : Registry)
    (files taken : List TemplateFile)
    (file : TemplateFile)
    (present : TemplateSource)
    (after : Registry) : Prop where
  order : ∃ rest, files.mergeSort comesFirst = taken ++ file :: rest
  registered : registry.addFiles taken = (.ok (), after)
  owner : after.sources.get? file.name = some present
  elsewhere : samePath present.directory file.sourceDirectory = false
  names :
    ∀ name,
      after.contains name = true ↔
        registry.contains name = true ∨
          ∃ other ∈ taken, other.name = name ∨ other.fullName = name
  served :
    ∀ name, (∀ other ∈ taken, ¬ registry.Rebinds other name) →
      after.served? name = registry.served? name

section Run

variable {registry after : Registry} {files taken : List TemplateFile}

/--
Files are registered up to the first whose name belongs to another directory.
-/
theorem addEach_stops
    {error : RegistryError}
    (stopped : registry.addEach files = (.error error, after)) :
    ∃ taken file rest present,
      files = taken ++ file :: rest ∧
      registry.addEach taken = (.ok (), after) ∧
      after.sources.get? file.name = some present ∧
      samePath present.directory file.sourceDirectory = false ∧
      error = .collision file.name present file.source := by
  induction files generalizing registry with
  | nil => cases stopped
  | cons file rest ih =>
    rcases adds_of_addFile registry file with
      ⟨next, ok, -⟩ | ⟨present, owner, elsewhere, collides⟩
    · rw [addEach, ok] at stopped
      rcases ih stopped with
        ⟨taken, other, others, present, split, registered, stop⟩
      refine ⟨file :: taken, other, others, present, by rw [split]; rfl, ?_,
        stop⟩
      rw [addEach, ok]
      exact registered
    · rw [addEach, collides] at stopped
      cases stopped
      exact ⟨[], file, rest, present, rfl, rfl, owner, elsewhere, rfl⟩

/-- Registering files adds no text. -/
theorem texts_of_addEach
    (registered : registry.addEach taken = (.ok (), after)) :
    after.texts = registry.texts := by
  let keepsTexts (next : Registry) : Prop := next.texts = registry.texts
  have kept : keepsTexts (registry.addEach taken).2 :=
    addEach_keeps (fun _ _ _ adds same => adds.texts.trans same) rfl
  rwa [registered] at kept

/-- Registering files makes files of their names, with and without extension. -/
theorem isSome_files_of_addEach
    (backed : registry.Backed)
    (registered : registry.addEach taken = (.ok (), after))
    (name : String) :
    (after.files.get? name).isSome ↔
      (registry.files.get? name).isSome ∨
        ∃ other ∈ taken, other.name = name ∨ other.fullName = name := by
  induction taken generalizing registry with
  | nil =>
    cases registered
    simp
  | cons file rest ih =>
    rcases adds_of_addFile registry file with
      ⟨next, ok, adds⟩ | ⟨source, -, -, error⟩
    · rw [addEach, ok] at registered
      rw [ih (adds.backed backed) registered, adds.isSome_files_iff backed,
        List.exists_mem_cons_iff, or_assoc]
    · rw [addEach, error] at registered
      cases registered

/-- A name keeps its file unless a file that is registered takes it over. -/
theorem files_of_addEach
    (registered : registry.addEach taken = (.ok (), after))
    {name : String}
    (same :
      ∀ other ∈ taken,
        other.fullName = name ∨
          other.name = name ∧ registry.sources.get? name = none →
        registry.files.get? name = some other.path) :
    after.files.get? name = registry.files.get? name := by
  induction taken generalizing registry with
  | nil =>
    cases registered
    rfl
  | cons file rest ih =>
    obtain ⟨first, others⟩ := List.forall_mem_cons.mp same
    rcases adds_of_addFile registry file with
      ⟨next, ok, adds⟩ | ⟨source, -, -, error⟩
    · rw [addEach, ok] at registered
      have kept : next.files.get? name = registry.files.get? name := by
        rw [adds.files]
        split
        · rename_i isFull
          exact (first (.inl isFull)).symm
        · split
          · rename_i isName
            exact (first (.inr isName)).symm
          · rfl
      rw [ih registered, kept]
      intro other among takes
      rw [kept]
      refine others other among (takes.imp_right (And.imp_right fun free => ?_))
      rw [adds.sources, Option.or_eq_none_iff] at free
      exact free.1
    · rw [addEach, error] at registered
      cases registered

/--
What is registered up to a collision, and what becomes of the names that were
there.
-/
theorem stopsAt_of_addFiles
    {name : String}
    {present added : TemplateSource}
    (reachable : registry.Reachable)
    (collides :
      (registry.addFiles files).1 = .error (.collision name present added)) :
    ∃ taken file,
      registry.StopsAt files taken file present (registry.addFiles files).2 ∧
      file.name = name ∧
      file.source = added := by
  rcases addEach_stops (Prod.ext collides rfl) with
    ⟨taken, file, rest, owner, split, registered, owned, elsewhere, error⟩
  cases error
  have inOrder : taken.mergeSort comesFirst = taken := by
    have sorted := pairwise_mergeSort_comesFirst files
    rw [split] at sorted
    exact List.mergeSort_of_pairwise (List.pairwise_append.mp sorted).1
  have texts := texts_of_addEach registered
  refine ⟨taken, file, ?_, rfl, rfl⟩
  exact
    { order := ⟨rest, split⟩
      registered := by rw [addFiles, inOrder, registered]; rfl
      owner := owned
      elsewhere := elsewhere
      names := fun name => by
        have files := isSome_files_of_addEach reachable.backed registered name
        simp only [contains, Entries.contains, Bool.or_eq_true, or_assoc]
        exact or_congr (by rw [← texts]; rfl) files
      served := fun name kept => by
        unfold served?
        rw [show (registry.addFiles files).2.texts = registry.texts from texts]
        cases noText : registry.texts.get? name with
        | some text => rfl
        | none =>
          refine congrArg (Option.map Served.file)
            (files_of_addEach registered ?_)
          intro other among takes
          by_contra different
          exact kept other among ⟨noText, different, takes⟩ }

end Run

/--
A collision leaves the files registered that come before the one that collides,
and no others.  The names that are then registered are the old ones and the
names of these files; an old name stands for what it stood for, unless one of
these files takes it over without being checked.
-/
theorem collision_stops
    {registry : Registry}
    (reachable : registry.Reachable) :
    (∀ files name present added,
      (registry.addFiles files).1 = .error (.collision name present added) →
      ∃ taken file,
        registry.StopsAt files taken file present (registry.addFiles files).2 ∧
        file.name = name ∧
        file.source = added) ∧
    (∀ (files : Files) path name present added,
      (registry.addDirectory files path).1 =
        .error (.collision name present added) →
      ∃ found taken file,
        listDirectory files path = .ok found ∧
        registry.StopsAt found taken file present
          (registry.addDirectory files path).2 ∧
        file.name = name ∧
        file.source = added) := by
  refine ⟨fun files name present added => stopsAt_of_addFiles reachable, ?_⟩
  intro files path name present added collides
  cases listing : listDirectory files path with
  | error error =>
    have unreadable : error = .collision name present added := by
      simpa only [addDirectory, listing, Except.error.injEq] using collides
    unfold listDirectory at listing
    grind
  | ok found =>
    have registers :
        registry.addDirectory files path = registry.addFiles found := by
      rw [addDirectory, listing]
    rw [registers] at collides ⊢
    rcases stopsAt_of_addFiles reachable collides with
      ⟨taken, file, stops, same⟩
    exact ⟨found, taken, file, rfl, stops, same⟩

section Halves

/--
A directory with a partial, and another one with two more and one of the same
name.
-/
def halfFiles : Files where
  root :=
    .directory [("a", .directory [("row.mustache", .file "A".toUTF8)]),
      ("b",
        .directory [("item.mustache", .file "B".toUTF8),
          ("row.mustache.mustache", .file "C".toUTF8),
          ("row.txt", .file "D".toUTF8)])]
  working := []

/-- The partials of the second directory that can be registered. -/
def halfTaken : List TemplateFile :=
  [⟨"item", "item.mustache", "/b/item.mustache", "/b"⟩,
   ⟨"row.mustache", "row.mustache.mustache", "/b/row.mustache.mustache", "/b"⟩]

/-- The partial of the second directory that cannot. -/
def halfStopped : TemplateFile :=
  ⟨"row", "row.txt", "/b/row.txt", "/b"⟩

/-- A registry with the first directory. -/
def halfRegistry : Registry where
  texts := []
  files := [("row", "/a/row.mustache"), ("row.mustache", "/a/row.mustache")]
  sources := [("row", ⟨"/a/row.mustache", "/a"⟩)]

theorem reachable_halfRegistry : halfRegistry.Reachable := by
  have listing : listDirectory halfFiles "a"
      = .ok [⟨"row", "row.mustache", "/a/row.mustache", "/a"⟩] := by
    decide +kernel
  have loaded : (empty.addDirectory halfFiles "a").2 = halfRegistry := by
    simp only [addDirectory, listing, addFiles, List.mergeSort_singleton]
    decide +kernel
  rw [← loaded]
  exact .addDirectory halfFiles "a" .empty

theorem listDirectory_half :
    listDirectory halfFiles "b" = .ok (halfTaken ++ [halfStopped]) := by
  decide +kernel

theorem mergeSort_half :
    (halfTaken ++ [halfStopped]).mergeSort comesFirst =
      halfTaken ++ [halfStopped] :=
  List.mergeSort_of_pairwise (by decide +kernel)

theorem addDirectory_half :
    halfRegistry.addDirectory halfFiles "b" =
      halfRegistry.addEach (halfTaken ++ [halfStopped]) := by
  simp only [addDirectory, listDirectory_half, addFiles, mergeSort_half]

/--
The one file with the name of the first directory's is the last of the second.
-/
theorem eq_halfTaken
    {taken rest : List TemplateFile}
    {file : TemplateFile}
    (split : halfTaken ++ [halfStopped] = taken ++ file :: rest)
    (name : file.name = "row") :
    taken = halfTaken := by
  rcases taken with _ | ⟨first, _ | ⟨second, more⟩⟩
  · cases split
    exact absurd name (by decide)
  · cases split
    exact absurd name (by decide)
  · cases more with
    | nil =>
      cases split
      rfl
    | cons third more => simp [halfTaken] at split

/-- The second directory is registered up to the partial that collides. -/
theorem collision_stops_half :
    halfRegistry.Reachable ∧
    (halfRegistry.addDirectory halfFiles "b").1 =
      .error (.collision "row" ⟨"/a/row.mustache", "/a"⟩ halfStopped.source) ∧
    (halfRegistry.addDirectory halfFiles "b").2.contains "item.mustache" =
      true ∧
    (halfRegistry.addDirectory halfFiles "b").2.contains "row.txt" = false ∧
    (halfRegistry.addDirectory halfFiles "b").2.served? "row" =
      some (.file "/a/row.mustache") := by
  have collides :
      (halfRegistry.addDirectory halfFiles "b").1 =
        .error
          (.collision "row" ⟨"/a/row.mustache", "/a"⟩ halfStopped.source) := by
    rw [addDirectory_half]
    decide +kernel
  obtain ⟨-, directories⟩ := collision_stops reachable_halfRegistry
  obtain ⟨found, taken, file, listing, stops, sameName, -⟩ :=
    directories _ _ _ _ _ collides
  obtain rfl : halfTaken ++ [halfStopped] = found :=
    Except.ok.inj (listDirectory_half.symm.trans listing)
  obtain ⟨rest, split⟩ := stops.order
  rw [mergeSort_half] at split
  obtain rfl : taken = halfTaken := eq_halfTaken split sameName
  refine ⟨reachable_halfRegistry, collides, ?_, ?_, ?_⟩
  · exact (stops.names _).mpr (.inr ⟨_, List.mem_cons_self, .inr rfl⟩)
  · rw [← Bool.not_eq_true, stops.names]
    decide +kernel
  · rw [stops.served]
    · decide +kernel
    · simp [Rebinds, halfTaken, halfRegistry, Entries.get?]

/--
After a collision a new name is registered, and an old one has another file.
-/
theorem collision_registers_names :
    halfRegistry.Reachable ∧
    (halfRegistry.addDirectory halfFiles "b").1 =
      .error (.collision "row" ⟨"/a/row.mustache", "/a"⟩ halfStopped.source) ∧
    halfRegistry.contains "item" = false ∧
    (halfRegistry.addDirectory halfFiles "b").2.contains "item" = true ∧
    halfRegistry.served? "row.mustache" = some (.file "/a/row.mustache") ∧
    (halfRegistry.addDirectory halfFiles "b").2.served? "row.mustache" =
      some (.file "/b/row.mustache.mustache") := by
  refine ⟨reachable_halfRegistry, ?_⟩
  rw [addDirectory_half]
  decide +kernel

end Halves

end Registry

end Mustache
