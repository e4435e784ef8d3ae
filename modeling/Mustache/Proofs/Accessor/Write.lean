import Mustache.Proofs.Accessor.Calls
import Mustache.Proofs.Render.Pure
import Mustache.Proofs.Value.Write

/-!
# Writing through an accessor

What is written through an accessor goes to a setter, or under a key of the
owner, or nowhere (`Accessor.MadeIn.writes`).  Rendering the tag alone then
shows it, if the name still leads to the owner (`inspect_write_lands`).  The
scopes of the name may lead elsewhere by then: the owner is the one that was
found when the accessor was made, and lambdas that are called for later tags may
put another map in its place (`inspect_write_misses`).
-/

namespace Mustache

open RenderM

variable {lambdas : Lambdas} {partials : Partials} {store : Store}

/-! ## Where a write goes -/

namespace Accessor

variable
    {accessor : Accessor}
    {stack : ContextStack}
    {map : MapRef}
    {key : String}
    {value : Value}

/-- Behind the tag is a lambda with a setter. -/
def HasSetter (accessor : Accessor) (store : Store) : Prop :=
  ∃ function setter receiver,
    accessor.stored store = .lambda ⟨function, some setter, receiver⟩

/-- The tag names a key of the owner, which is a map. -/
structure NamesEntry
    (accessor : Accessor)
    (map : MapRef)
    (key : String) : Prop where
  not_inclusion : accessor.token.kind ≠ .inclusion
  isPath : ∃ scopes, Name.ofText accessor.token.name = .path scopes key
  owner_eq : accessor.owner = .map map

/--
The accessor is as it is made in a store: it has the owner and the target that
are located there.  The name of an implicit tag is a dot.
-/
structure MadeIn
    (accessor : Accessor)
    (lambdas : Lambdas)
    (stack : ContextStack)
    (partials : Partials)
    (store : Store) : Prop where
  dotted : accessor.token.kind = .implicit → accessor.token.name = ['.']
  located :
    ∃ after,
      locate lambdas stack partials accessor.token accessor.body store =
        ((accessor.owner, accessor.target), after)

/-- An accessor goes to a key exactly if its tag names one. -/
theorem MadeIn.target_eq_key_iff
    (made : accessor.MadeIn lambdas stack partials store) :
    accessor.target = .key key ↔
      accessor.token.kind ≠ .inclusion ∧
        ∃ scopes, Name.ofText accessor.token.name = .path scopes key := by
  rcases made with ⟨dotted, after, located⟩
  by_cases included : accessor.token.kind = .inclusion
  · rw [locate_inclusion included] at located
    have isTarget :
        .template (partials.get? (String.ofList accessor.token.name)) =
          accessor.target :=
      congrArg (·.1.2) located
    simp [← isTarget, included]
  · cases isName : Name.ofText accessor.token.name with
    | current =>
      rw [locate_current included isName] at located
      have isTarget : .owner = accessor.target := congrArg (·.1.2) located
      simp [← isTarget]
    | path scopes other =>
      have notDotted := not_implicit_of_path dotted isName
      rcases locate_path included notDotted isName lambdas stack partials
          accessor.body store with ⟨owner, left, found, -⟩
      rw [located] at found
      have isTarget : accessor.target = .key other := congrArg (·.1.2) found
      simp [isTarget, included]

theorem MadeIn.namesEntry_iff
    (made : accessor.MadeIn lambdas stack partials store) :
    accessor.NamesEntry map key ↔
      accessor.target = .key key ∧ accessor.owner = .map map := by
  rw [made.target_eq_key_iff]
  constructor
  · rintro ⟨notInclusion, isPath, isOwner⟩
    exact ⟨⟨notInclusion, isPath⟩, isOwner⟩
  · rintro ⟨⟨notInclusion, isPath⟩, isOwner⟩
    exact ⟨notInclusion, isPath, isOwner⟩

theorem write_of_stored
    {function : FunctionId}
    {setter : SetterId}
    {receiver : Option Value}
    (isStored :
      accessor.stored store = .lambda ⟨function, some setter, receiver⟩)
    (lambdas : Lambdas)
    (value : Value) :
    accessor.write lambdas value store =
      (true, (lambdas.assign setter value store).2) := by
  simp only [write, bind, StateT.bind, get, getThe, MonadStateOf.get,
    StateT.get, pure, isStored]
  rfl

theorem write_of_not_hasSetter
    (without : ¬accessor.HasSetter store)
    (lambdas : Lambdas)
    (value : Value) :
    accessor.write lambdas value store =
      match accessor.target, accessor.owner with
      | .key key, .map map => (true, (map.insert key value store).2)
      | _, _ => (false, store) := by
  simp only
    [write, bind, StateT.bind, get, getThe, MonadStateOf.get, StateT.get, pure]
  cases isStored : accessor.stored store with
  | lambda lambda =>
    rcases lambda with ⟨function, _ | setter, receiver⟩
    · cases accessor.target <;> cases accessor.owner <;> rfl
    · exact absurd ⟨function, setter, receiver, isStored⟩ without
  | _ => cases accessor.target <;> cases accessor.owner <;> rfl

/--
What a write through an accessor comes to.  It is answered with true if there is
a setter, or else a map with a key to write to.  The setter is all that is
called; without one the map has the value under the key afterwards, and so has
the accessor.
-/
structure Writes
    (accessor : Accessor)
    (lambdas : Lambdas)
    (value : Value)
    (store : Store)
    (answer : Bool)
    (after : Store) : Prop where
  answers :
    answer = true ↔
      accessor.HasSetter store ∨ ∃ map key, accessor.NamesEntry map key
  assigns : ∀ {function setter receiver},
    accessor.stored store = .lambda ⟨function, some setter, receiver⟩ →
      after = (lambdas.assign setter value store).2
  enters : ¬accessor.HasSetter store → answer = true →
    ∃ map key, accessor.NamesEntry map key ∧ map.Written key value store after ∧
      accessor.stored after = value
  refuses : answer = false → after = store

theorem writes_of_hasSetter
    (has : accessor.HasSetter store)
    (value : Value) :
    accessor.Writes lambdas value store (accessor.write lambdas value store).1
      (accessor.write lambdas value store).2 := by
  have ⟨function, setter, receiver, isStored⟩ := has
  rw [write_of_stored isStored]
  refine ⟨by simp [has], ?_, fun without => absurd has without, by rintro ⟨⟩⟩
  intro function' setter' receiver' isStored'
  cases isStored.symm.trans isStored'
  rfl

section

variable {built : Store} (made : accessor.MadeIn lambdas stack partials built)
include made

theorem MadeIn.writes_of_namesEntry
    (without : ¬accessor.HasSetter store)
    (names : accessor.NamesEntry map key)
    (present : map.table.index < store.tables.size)
    (value : Value) :
    accessor.Writes lambdas value store (accessor.write lambdas value store).1
      (accessor.write lambdas value store).2 := by
  rcases made.namesEntry_iff.1 names with ⟨isTarget, isOwner⟩
  have isWrite :
      accessor.write lambdas value store =
        (true, (map.insert key value store).2) := by
    rw [write_of_not_hasSetter without, isTarget, isOwner]
  have written := MapOf.written_insert present key value
  rw [isWrite]
  refine ⟨⟨fun _ => .inr ⟨map, key, names⟩, fun _ => rfl⟩, ?_, ?_, by rintro ⟨⟩⟩
  · intro function setter receiver isStored
    exact absurd ⟨function, setter, receiver, isStored⟩ without
  · refine fun _ _ => ⟨map, key, names, written, ?_⟩
    have entry :
        accessor.owner.get? (map.insert key value store).2 key =
          some value := by
      rw [isOwner]
      exact written.entry_eq map rfl
    simp only [stored, isTarget, entry, Option.getD_some]

theorem MadeIn.writes_of_nowhere
    (without : ¬accessor.HasSetter store)
    (nowhere : ¬∃ map key, accessor.NamesEntry map key)
    (value : Value) :
    accessor.Writes lambdas value store (accessor.write lambdas value store).1
      (accessor.write lambdas value store).2 := by
  have isWrite : accessor.write lambdas value store = (false, store) := by
    rw [write_of_not_hasSetter without]
    split
    · rename_i key map isTarget isOwner
      exact absurd ⟨map, key, made.namesEntry_iff.2 ⟨isTarget, isOwner⟩⟩ nowhere
    · rfl
  rw [isWrite]
  refine ⟨by simp [without, nowhere], ?_, (by rintro - ⟨⟩), fun _ => rfl⟩
  intro function setter receiver isStored
  exact absurd ⟨function, setter, receiver, isStored⟩ without

/-- An accessor whose owner is in the store writes as it should. -/
theorem MadeIn.writes
    (present :
      ∀ map, accessor.owner = .map map → map.table.index < store.tables.size)
    (value : Value) :
    accessor.Writes lambdas value store (accessor.write lambdas value store).1
      (accessor.write lambdas value store).2 := by
  by_cases has : accessor.HasSetter store
  · exact writes_of_hasSetter has value
  · by_cases names : ∃ map key, accessor.NamesEntry map key
    · rcases names with ⟨map, key, names⟩
      exact made.writes_of_namesEntry has names (present map names.owner_eq)
        value
    · exact made.writes_of_nowhere has names value

end

/--
The owner of a key that is found through maps without conversions is the last of
them.
-/
theorem MadeIn.owner_eq
    {data owner : Value}
    {scopes : List String}
    (made : accessor.MadeIn lambdas (.ofRoot data) partials store)
    (notInclusion : accessor.token.kind ≠ .inclusion)
    (isPath : Name.ofText accessor.token.name = .path scopes key)
    (followed : data.follow? store scopes = some owner) :
    accessor.owner = owner := by
  rcases made with ⟨dotted, after, located⟩
  have notDotted := not_implicit_of_path dotted isPath
  cases scopes with
  | nil =>
    cases followed
    rw [locate_key notInclusion notDotted isPath] at located
    have isOwner :
        (((ContextStack.ofRoot data).lookupOwner? store key).map Prod.fst).getD
            data =
          accessor.owner :=
      congrArg (·.1.1) located
    rw [← isOwner]
    cases owned : (ContextStack.ofRoot data).lookupOwner? store key with
    | none => rfl
    | some entry =>
      have member := (ContextStack.get?_of_lookupOwner? owned).1
      exact List.mem_singleton.1 member
  | cons segment scopes =>
    rw [locate_scoped notInclusion notDotted isPath,
      ContextStack.descend_of_follow? followed] at located
    exact (congrArg (·.1.1) located).symm

/--
The accessors in the middle of others are made in the store that those before
them left.
-/
theorem Made.split
    {stack : ContextStack}
    {before rest : List Accessor}
    {start after : Store}
    (made :
      Made lambdas stack partials start (before ++ accessor :: rest) after) :
    ∃ between left,
      Made lambdas stack partials start before between ∧
      locate lambdas stack partials accessor.token accessor.body between =
        ((accessor.owner, accessor.target), left) := by
  induction before generalizing start with
  | nil =>
    cases made with
    | next located later => exact ⟨start, _, .none, located⟩
  | cons first before ih =>
    cases made with
    | next located later =>
      rcases ih later with ⟨between, left, madeBefore, isLocated⟩
      exact ⟨between, left, .next located madeBefore, isLocated⟩

end Accessor

/-! ## The delimiters around a tag -/

namespace Reader

/--
Reading on from a delimiter pair, a reader comes upon a node that starts with a
token, with some pair in effect there: the one that it starts with, or the one
that the nodes before leave.
-/
inductive ComesUpon : Reader → Delimiters → Token → Delimiters → Prop
  | next
      {reader left : Reader}
      {delimiters after : Delimiters}
      {node : Node}
      (read : reader.nextNode delimiters = (.ok (some node), after, left)) :
      ComesUpon reader delimiters node.head delimiters
  | later
      {reader left : Reader}
      {delimiters after pair : Delimiters}
      {node : Node}
      {token : Token}
      (read : reader.nextNode delimiters = (.ok (some node), after, left))
      (onward : ComesUpon left after token pair) :
      ComesUpon reader delimiters token pair

variable
    {reader left : Reader}
    {passed unread : Text}
    {delimiters after pair : Delimiters}
    {node : Node}
    {token : Token}

theorem comesUpon_of_mem_nodesFrom
    {budget : Nat}
    (member : node ∈ nodesFrom budget reader delimiters) :
    ∃ pair, reader.ComesUpon delimiters node.head pair := by
  induction budget generalizing reader delimiters with
  | zero => cases member
  | succ budget ih =>
    rw [nodesFrom] at member
    split at member
    · rename_i first after left read
      rcases List.mem_cons.1 member with rfl | later
      · exact ⟨delimiters, .next read⟩
      · rcases ih later with ⟨pair, onward⟩
        exact ⟨pair, .later read onward⟩
    · cases member

/--
Where a tag is come upon, a scan with the pair in effect finds a block that
starts with it.
-/
theorem ComesUpon.exists_found
    (comes : reader.ComesUpon delimiters token pair)
    (standing : reader.At passed unread) :
    ∃ unread skipped block after rest,
      scanNode pair unread = .found skipped block after rest ∧
      token.piece = block.head := by
  induction comes generalizing passed unread with
  | next read =>
    rcases found_of_nextNode standing read with
      ⟨skipped, block, rest, found, took⟩
    exact ⟨unread, skipped, block, _, rest, found, took.head_eq⟩
  | later read onward ih =>
    rcases found_of_nextNode standing read with
      ⟨skipped, block, rest, found, took⟩
    exact ih took.standing

end Reader

/-- How inspecting a template makes each of its accessors. -/
theorem inspect_makes
    {template : Text}
    {data : Value}
    {delimiters : Delimiters}
    {start left : Store}
    {before rest : List Accessor}
    {accessor : Accessor}
    (inspected :
      inspect lambdas template data partials delimiters start =
        (.ok (before ++ accessor :: rest), left)) :
    ∃ between pair,
      Accessor.Made lambdas (.ofRoot data) partials start before between ∧
      (Reader.ofText template).ComesUpon delimiters accessor.token pair ∧
      accessor.MadeIn lambdas (.ofRoot data) partials between := by
  have sound : (survey delimiters [] template).2 = none := by
    have reports :=
      inspect_reports lambdas template data partials delimiters start
    rwa [inspected] at reports
  rcases Reader.inspectRest_follows lambdas (.ofRoot data) partials
      (Reader.at_ofText template) sound (Nat.lt_succ_self template.length) #[]
      start with ⟨all, after, inspected', made, tokens, follow⟩
  have isAll : before ++ accessor :: rest = all :=
    Except.ok.inj (congrArg Prod.fst (inspected.symm.trans inspected'))
  rw [← isAll] at made tokens follow
  have among : accessor ∈ before ++ accessor :: rest := by simp
  rcases Accessor.exists_isFor follow accessor among with ⟨block, isFor⟩
  have isReading : accessor.token ∈ Reader.readingsFrom (template.length + 1)
      (Reader.ofText template) delimiters := by
    rw [← tokens]
    exact List.mem_map_of_mem among
  rcases List.mem_map.1 (List.mem_filter.1 isReading).1 with
    ⟨node, isNode, isHead⟩
  rcases Reader.comesUpon_of_mem_nodesFrom isNode with ⟨pair, comes⟩
  rw [isHead] at comes
  rcases made.split with ⟨between, left, madeBefore, located⟩
  exact ⟨between, pair, madeBefore, comes, isFor.dotted, left, located⟩

/-! ## A tag alone -/

theorem scan_alone
    {delimiters : Delimiters}
    {unread skipped rest : Text}
    {piece : Piece}
    (result : scan delimiters unread = .found skipped piece rest)
    (isTag : piece.kind ≠ .text) :
    scan delimiters piece.source = .found [] piece [] := by
  rcases read_of_scan result with ⟨-, wellFormed, made⟩
  rcases Lexeme.piece_eq_ok made with ⟨-, isText, -⟩ | ⟨body, isRead⟩
  · exact absurd isText isTag
  · rcases Lexeme.read_eq_tag isRead with ⟨middle, after, -, -, -, -, again⟩
    have alone := again [] (by rintro ⟨⟩)
    rw [isRead] at wellFormed made
    have found :=
      scan_of_tag alone wellFormed ((Lexeme.piece_tag_congr ..).trans made)
    rwa [List.append_nil] at found

/-- A tag that stands alone is found as it is found in a template. -/
theorem scanNode_alone
    {delimiters after : Delimiters}
    {unread skipped rest : Text}
    {piece : Piece}
    (result :
      scanNode delimiters unread = .found skipped (.leaf piece) after rest)
    (isTag : piece.kind ≠ .text) :
    scanNode delimiters piece.source = .found [] (.leaf piece) after [] := by
  rcases scanNode_eq_leaf result with ⟨isScan, notOpener, notCloser, rfl⟩
  simp only
    [scanNode, scan_alone isScan isTag, if_neg notOpener, if_neg notCloser]

theorem Reader.ComesUpon.scanNode_alone
    {reader : Reader}
    {delimiters pair : Delimiters}
    {token : Token}
    {passed unread : Text}
    (comes : reader.ComesUpon delimiters token pair)
    (standing : reader.At passed unread)
    (isKind : token.kind = .interpolation ∨ token.kind = .unescaped) :
    ∃ after,
      scanNode pair token.source = .found [] (.leaf token.piece) after [] := by
  rcases comes.exists_found standing with
    ⟨unread, skipped, block, after, rest, found, isHead⟩
  have isHeadKind : token.kind = block.head.kind := congrArg Piece.kind isHead
  rw [isHeadKind] at isKind
  cases block with
  | leaf piece =>
    have isPiece : token.piece = piece := isHead
    have isTag : piece.kind ≠ .text := by
      rcases isKind with isKind | isKind <;>
        exact fun isText => by cases isKind.symm.trans isText
    have alone := Mustache.scanNode_alone found isTag
    rw [← isPiece] at alone
    exact ⟨after, alone⟩
  | paired opener body closer =>
    have opens : opener.kind.opensSection = true := (scanNode_eq_paired found).1
    rcases isKind with isKind | isKind <;>
      rw [show opener.kind = _ from isKind] at opens <;> cases opens

/--
An interpolation is replaced by the text of the value that its name shows.
-/
theorem expandLeaf_of_shows
    {token : Token}
    {world : World}
    {value : Value}
    {text : String}
    {reader replaced : Reader}
    (isKind : token.kind = .interpolation ∨ token.kind = .unescaped)
    (shows : world.Shows lambdas token.name value)
    (isText : value.text? world.store = some text)
    (isReplaced :
      reader.replace? token.start token.stop (token.kind.shown text.toList) =
        some replaced)
    (render : TemplateRenderer)
    (partials : Partials) :
    expandLeaf lambdas render partials reader token world =
      (.ok replaced, world) := by
  rw [expandLeaf_eq_interpolate, run_bind, shows.interpolate, textOf_run,
    isText]
  · simp only [isReplaced]
    rfl
  all_goals rcases isKind with isKind | isKind <;> rw [isKind] <;> decide

/-- An interpolation alone is rendered to that text. -/
theorem interpretWithin_alone
    {source : Text}
    {delimiters after : Delimiters}
    {piece : Piece}
    {world : World}
    {value : Value}
    {text : String}
    (alone : scanNode delimiters source = .found [] (.leaf piece) after [])
    (isKind : piece.kind = .interpolation ∨ piece.kind = .unescaped)
    (shows : world.Shows lambdas piece.name value)
    (isText : value.text? world.store = some text)
    (partials : Partials)
    (fuel : Nat) :
    interpretWithin lambdas (fuel + 2) source partials delimiters world =
      (.ok (piece.kind.shown text.toList), world) := by
  have holds := Reader.holds_ofText source
  rcases Reader.nextNode_of_found holds.standing alone with
    ⟨node, read, isNext, took⟩
  cases took with
  | @leaf _ token took =>
    cases took.piece_eq
    rcases (holds.shows took).replace (token.kind.shown text.toList) with
      ⟨replaced, isReplaced, held⟩
    rcases Reader.nextNode_of_finished held.standing (scanNode_nil after) with
      ⟨ended, nothing, same⟩
    have step (render : TemplateRenderer) :
        expandNext lambdas render partials (Reader.ofText source, delimiters)
            world =
          (.ok (.inr (replaced.release token, after)), world) := by
      simp only [expandNext, isNext, expandNode]
      show
        ((expandLeaf lambdas render partials read token >>= _) >>= _) world = _
      rw [bind_assoc, run_bind,
        expandLeaf_of_shows isKind shows isText isReplaced]
      rfl
    have last (render : TemplateRenderer) :
        expandNext lambdas render partials (replaced.release token, after)
            world =
          (.ok (.inl (token.kind.shown text.toList)), world) := by
      have isShown : ended.buffer.text = token.kind.shown text.toList := by
        rw [same, held.standing.text_eq]
        simp [Draft.pass, Draft.write, Draft.ofText]
      simp only [expandNext, nothing]
      rw [← isShown]
      rfl
    have isStep : (bufferMachine lambdas).step = expandNext lambdas := rfl
    rw [interpretWithin_eq_render]
    show
      (bufferMachine lambdas).run (fuel + 1 + 1) partials
          (Reader.ofText source, delimiters) world = _
    simp only [Machine.run_apply, isStep, step, last]
    rfl

/--
Where a name leads through maps without conversions to a scalar, it shows the
scalar.
-/
theorem World.shows_of_follow?
    {data owner value : Value}
    {name : Text}
    {scopes : List String}
    {key : String}
    (isPath : Name.ofText name = .path scopes key)
    (followed : data.follow? store scopes = some owner)
    (under : owner.get? store key = some value)
    (scalar : value.shape = .scalar) :
    World.Shows lambdas ⟨store, .ofRoot data⟩ name value := by
  have notLambda (lambda : Lambda) : value ≠ .lambda lambda := by
    rintro rfl
    cases scalar
  refine ⟨⟨some value, fun text => ?_, ?_⟩, notLambda⟩
  · rw [isPath, ContextStack.resolve_of_follow? followed, under,
      Option.map_some, ContextStack.bindTo_of_not_lambda notLambda]
  · cases value with
    | map map => cases scalar
    | _ => rfl

theorem Value.exists_text_of_scalar
    {value : Value}
    (scalar : value.shape = .scalar)
    (store : Store) :
    ∃ text, value.text? store = some text := by
  cases value with
  | bool value => cases value <;> exact ⟨_, rfl⟩
  | null | number | string => exact ⟨_, rfl⟩
  | list | map | lambda => cases scalar

/-! ## What was written is shown -/

/--
The scopes of the name lead from the data through maps without conversions, in
two stores to the same map.
-/
def Accessor.Retraces
    (accessor : Accessor)
    (data : Value)
    (built store : Store) : Prop :=
  ∃ scopes key owner,
    Name.ofText accessor.token.name = .path scopes key ∧
    data.follow? built scopes = some owner ∧
    data.follow? store scopes = some owner

/--
After a scalar was written to a map that the name leads to, the name shows the
scalar.
-/
theorem Accessor.Writes.shows
    {accessor : Accessor}
    {data value : Value}
    {built after : Store}
    {answer : Bool}
    (writes : accessor.Writes lambdas value store answer after)
    (made : accessor.MadeIn lambdas (.ofRoot data) partials built)
    (finite : data.IsFinite store)
    (retraces : accessor.Retraces data built store)
    (scalar : value.shape = .scalar)
    (without : ¬accessor.HasSetter store)
    (answered : answer = true) :
    World.Shows lambdas ⟨after, .ofRoot data⟩ accessor.token.name value := by
  rcases retraces with ⟨scopes, key, owner, isPath, led, again⟩
  rcases writes.enters without answered with ⟨map, key', names, written, -⟩
  rcases names.isPath with ⟨scopes', isPath'⟩
  cases isPath.symm.trans isPath'
  have isOwner : owner = .map map :=
    (made.owner_eq names.not_inclusion isPath led).symm.trans names.owner_eq
  rw [isOwner] at again
  exact World.shows_of_follow? isPath
    (Value.follow?_of_written written finite again) (written.entry_eq map rfl)
    scalar

/--
Writes through the accessors of a template land where rendering reads, in any
store that has the table of the owner.  What is written goes to the setter of a
stored lambda, or under the last segment of the name in the owner, or nowhere.
If it went to a map, the data is finite, and the scopes of the name lead through
maps without conversions to the map that they led to when the accessor was made,
then an interpolation that is rendered alone shows the scalar that was written.
-/
theorem inspect_write_lands
    {template : Text}
    {data : Value}
    {delimiters : Delimiters}
    {start left : Store}
    {before rest : List Accessor}
    {accessor : Accessor}
    (inspected :
      inspect lambdas template data partials delimiters start =
        (.ok (before ++ accessor :: rest), left)) :
    ∃ built pair,
      Accessor.Made lambdas (.ofRoot data) partials start before built ∧
      (Reader.ofText template).ComesUpon delimiters accessor.token pair ∧
      ∀ (value : Value) (store : Store),
        (∀ map,
          accessor.owner = .map map → map.table.index < store.tables.size) →
        let answer := (accessor.write lambdas value store).1
        let after := (accessor.write lambdas value store).2
        accessor.Writes lambdas value store answer after ∧
        (¬accessor.HasSetter store → answer = true → data.IsFinite store →
          accessor.token.kind = .interpolation ∨
            accessor.token.kind = .unescaped →
          accessor.Retraces data built store → value.shape = .scalar →
          ∃ text,
            value.text? after = some text ∧
            ∀ partials fuel,
              interpretWithin lambdas (fuel + 2) accessor.token.source partials
                  pair ⟨after, .ofRoot data⟩ =
                (.ok (accessor.token.kind.shown text.toList),
                  ⟨after, .ofRoot data⟩)) := by
  rcases inspect_makes inspected with ⟨built, pair, madeBefore, comes, made⟩
  refine ⟨built, pair, madeBefore, comes, fun value store present => ?_⟩
  have writes := made.writes present value
  refine ⟨writes, fun without answered finite isKind retraces scalar => ?_⟩
  have shows := writes.shows made finite retraces scalar without answered
  rcases Value.exists_text_of_scalar scalar
      (accessor.write lambdas value store).2 with ⟨text, isText⟩
  refine ⟨text, isText, fun partials fuel => ?_⟩
  rcases comes.scanNode_alone (Reader.at_ofText template) isKind with
    ⟨final, alone⟩
  exact interpretWithin_alone alone isKind shows isText partials fuel

/-- Writing over a lambda without a setter, in a map that the data has twice. -/
theorem inspect_write_lands_shared :
    let delimiters : Delimiters := ⟨['<', '%'], ['%', '>']⟩
    let template := "<%p.n%><%=[ ]=%>[&r.n]".toList
    let data : Value := .map ⟨⟨0⟩, none⟩
    let shared : Value := .map ⟨⟨1⟩, none⟩
    let store : Store :=
      ⟨#[[("p", shared), ("r", shared)], [("n", .lambda ⟨⟨0⟩, none, none⟩)]]⟩
    let accessor : Accessor :=
      ⟨⟨.interpolation, "p.n".toList, "<%p.n%>".toList, ⟨1⟩, ⟨2⟩, 1, none⟩,
        shared, .key "n", none⟩
    let other : Accessor :=
      ⟨⟨.unescaped, "r.n".toList, "[&r.n]".toList, ⟨5⟩, ⟨6⟩, 1, none⟩, shared,
        .key "n", none⟩
    let after := (accessor.write .none (.string "<") store).2
    (inspect .none template data [] delimiters store =
        (.ok ([] ++ accessor :: [other]), store) ∧
      (∀ map, accessor.owner = .map map → map.table.index < store.tables.size) ∧
      ¬accessor.HasSetter store ∧
      data.IsFinite store ∧
      accessor.token.kind = .interpolation ∧
      accessor.Retraces data store store) ∧
    accessor.Writes .none (.string "<") store true after ∧
    other.stored after = .string "<" ∧
    ∃ pair,
      (Reader.ofText template).ComesUpon delimiters accessor.token pair ∧
      interpretWithin .none 2 accessor.token.source [] pair
          ⟨after, .ofRoot data⟩ =
        (.ok "&lt;".toList, ⟨after, .ofRoot data⟩) := by
  intro delimiters template data shared store accessor other after
  have inspected : inspect .none template data [] delimiters store =
      (.ok ([] ++ accessor :: [other]), store) := by
    have made :
        Accessor.Made .none (.ofRoot data) [] store [accessor, other] store :=
      .next rfl (.next rfl .none)
    exact Reader.inspect_of_made (by decide +kernel) made (by decide +kernel)
      (by decide +kernel)
  have present :
      ∀ map,
        accessor.owner = .map map → map.table.index < store.tables.size := by
    rintro map ⟨⟩
    decide
  have without : ¬accessor.HasSetter store := by
    rintro ⟨function, setter, receiver, isStored⟩
    cases isStored
  have finite : data.IsFinite store :=
    Value.isFinite_of_isFiniteWithin 3 (by decide)
  have retraces : accessor.Retraces data store store :=
    ⟨["p"], "n", shared, by decide, rfl, rfl⟩
  rcases inspect_write_lands inspected with ⟨built, pair, made, comes, lands⟩
  cases made
  rcases lands (.string "<") store present with ⟨writes, shows⟩
  rcases shows without rfl finite (.inl rfl) retraces rfl with
    ⟨text, isText, rendered⟩
  cases isText
  exact ⟨⟨inspected, present, without, finite, rfl, retraces⟩, writes, rfl,
    pair, comes, rendered [] 0⟩

/--
A name that leads through maps without conversions, when the accessor is made
and when it is written to, may lead to different maps.
-/
theorem inspect_write_misses :
    let data : Value := .map ⟨⟨0⟩, none⟩
    let first : Value := .map ⟨⟨1⟩, none⟩
    let second : Value := .map ⟨⟨2⟩, none⟩
    let lambdas : Lambdas := {
      call := fun _ call => do
        match call.receiver with
        | some (.map map) =>
          let _ ← map.insert "a" second
          pure (.map ⟨⟨3⟩, none⟩)
        | _ => pure .null
      assign := fun _ _ => pure () }
    let store (found : Value) : Store :=
      ⟨#[[("a", found), ("l", .lambda ⟨⟨0⟩, none, none⟩)],
          [("b", .number (.int 1))], [("b", .number (.int 2))], []]⟩
    let accessor : Accessor :=
      ⟨⟨.interpolation, "a.b".toList, "{{a.b}}".toList, ⟨1⟩, ⟨2⟩, 1, none⟩,
        first, .key "b", none⟩
    let other : Accessor :=
      ⟨⟨.interpolation, "l.x".toList, "{{l.x}}".toList, ⟨3⟩, ⟨4⟩, 1, none⟩,
        .map ⟨⟨3⟩, none⟩, .key "x", none⟩
    let value : Value := .number (.int 9)
    let after := (accessor.write lambdas value (store second)).2
    inspect lambdas (accessor.token.source ++ other.token.source) data []
        .standard (store first) =
      (.ok [accessor, other], store second) ∧
    ¬accessor.HasSetter (store second) ∧
    (accessor.write lambdas value (store second)).1 = true ∧
    accessor.NamesEntry ⟨⟨1⟩, none⟩ "b" ∧ data.IsFinite (store second) ∧
    Name.ofText accessor.token.name = .path ["a"] "b" ∧
    data.follow? (store first) ["a"] = some first ∧
    data.follow? (store second) ["a"] = some second ∧
    value.shape = .scalar ∧ value.text? after = some "9" ∧
    (interpretWithin lambdas 40 accessor.token.source [] .standard
        ⟨after, .ofRoot data⟩).1 =
      .ok ['2'] := by
  intro data first second lambdas store accessor other value after
  have inspected :
      inspect lambdas (accessor.token.source ++ other.token.source) data []
          .standard (store first) =
        (.ok [accessor, other], store second) := by
    have made :
        Accessor.Made lambdas (.ofRoot data) [] (store first) [accessor, other]
          (store second) :=
      .next rfl (.next rfl .none)
    exact Reader.inspect_of_made (by decide +kernel) made (by decide +kernel)
      (by decide +kernel)
  have without : ¬accessor.HasSetter (store second) := by
    rintro ⟨function, setter, receiver, isStored⟩
    cases isStored
  exact ⟨inspected, without, rfl, ⟨by decide, ⟨["a"], by decide⟩, rfl⟩,
    Value.isFinite_of_isFiniteWithin 3 (by decide), by decide, rfl, rfl, rfl,
    rfl, by decide +kernel⟩

end Mustache
