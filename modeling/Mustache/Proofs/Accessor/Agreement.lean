import Mustache.Proofs.Accessor.Locate
import Mustache.Proofs.Accessor.Stream
import Mustache.Proofs.Render.Pure

/-!
# Accessors show what rendering sees

An accessor looks a name up in its own way: it keeps the owner and a key, and
reads the value when it is asked for it.  Rendering resolves the name at once.
With pure data the two come to the same value (`Accessor.exists_shows`), and
rendering makes of each tag what that value calls for
(`Token.rendersAs_of_shows`).

A run expands every tag in the world that it started in (`readingHeads_world`),
and the tags that it expands go together with the accessors of the template, one
by one.
-/

namespace Mustache

open RenderM

variable
    {lambdas : Lambdas}
    {store : Store}
    {known : Value → Prop}
    {world : World}
    {partials : Partials}

/-! ## The value behind an accessor -/

/--
The value that belongs to a tag: what its name shows, or the text of the partial
it names.
-/
def Token.Shows
    (lambdas : Lambdas)
    (partials : Partials)
    (world : World)
    (token : Token)
    (value : Value) : Prop :=
  match token.kind with
  | .inclusion =>
    value =
      ((partials.get? (String.ofList token.name)).map Value.string).getD .null
  | _ => world.Shows lambdas token.name value

theorem Token.shows_iff
    {token : Token}
    (named : token.kind ≠ .inclusion)
    {value : Value} :
    token.Shows lambdas partials world value ↔
      world.Shows lambdas token.name value := by
  unfold Token.Shows
  split
  · rename_i isInclusion
    exact absurd isInclusion named
  · exact Iff.rfl

namespace Accessor

/--
An accessor keeps an owner that has under its key what the name resolves to.
-/
theorem locate_of_within
    (values : PureValues lambdas store known)
    {stack : ContextStack}
    (within : stack.Within known)
    (partials : Partials)
    {token : Token}
    (body : Option Text)
    (named : token.kind ≠ .inclusion)
    (dotted : token.kind = .implicit → token.name = ['.']) :
    ∃ owner target found,
      locate lambdas stack partials token body store =
        ((owner, target), store) ∧
      (∀ text,
        stack.resolve lambdas (Name.ofText token.name) text store =
          (found, store)) ∧
      (Accessor.mk token owner target body).stored store =
        found.getD .null := by
  cases isName : Name.ofText token.name with
  | current =>
    refine ⟨stack.current, .owner, some stack.current, ?_, fun _ => rfl, rfl⟩
    rw [locate_current named isName]
    rfl
  | path scopes key =>
    have notDotted := not_implicit_of_path dotted isName
    rcases ContextStack.resolve_of_within values (.path scopes key) within with
      ⟨found, resolved, isFound⟩
    rcases locate_path named notDotted isName lambdas stack partials body
        store with ⟨owner, after, located, same⟩
    rw [resolved] at same
    cases same
    refine ⟨owner, .key key, _, located, resolved, ?_⟩
    show (owner.get? store key).getD .null = _
    cases under : owner.get? store key with
    | none => rfl
    | some value =>
      rw [under] at isFound
      have isKnown := isFound _ rfl
      exact
        (ContextStack.bindTo_eq_of_not_lambda (values.ne_lambda isKnown)).symm

/--
With pure data, an accessor is made without a change to the store, and so it is
read.
-/
theorem exists_shows
    (values : PureValues lambdas store known)
    (within : world.Within store known)
    (partials : Partials)
    {token : Token}
    (body : Option Text)
    (dotted : token.kind = .implicit → token.name = ['.']) :
    ∃ owner target value,
      locate lambdas world.stack partials token body store =
        ((owner, target), store) ∧
      (Accessor.mk token owner target body).value lambdas store =
        (value, store) ∧
      token.Shows lambdas partials world value := by
  by_cases included : token.kind = .inclusion
  · refine ⟨_, _, _, by rw [locate_inclusion included]; rfl, ?_,
      by rw [Token.Shows, included]⟩
    cases source : partials.get? (String.ofList token.name) with
    | none => rfl
    | some text => rfl
  · rcases locate_of_within values within.stack partials body included
        dotted with ⟨owner, target, found, located, resolved, isStored⟩
    rcases within.exists_shows values token.name with ⟨value, shows, -⟩
    refine ⟨owner, target, value, located, ?_,
      (Token.shows_iff included).2 shows⟩
    rcases shows.resolves with ⟨same, resolves, converts⟩
    rw [within.store_eq] at resolves converts
    have isSame : same = found :=
      congrArg Prod.fst ((resolves none).symm.trans (resolved none))
    rw [isSame] at converts
    have notLambda (lambda : Lambda) :
        (Accessor.mk token owner target body).stored store ≠
          .lambda lambda := by
      rw [isStored]
      exact ContextStack.ne_lambda_of_within values within.stack (resolved none)
        lambda
    rw [value_of_not_lambda notLambda, isStored, converts]

end Accessor

/-! ## What rendering makes of a tag -/

/--
What rendering makes of a tag in a world when a value belongs to it.  An
interpolation is replaced by the value's text, escaped unless the tag says
otherwise.  A section is rendered for some items, and there are any exactly if
the value is truthy, or not for an inverted section.  A partial is the one that
has the value as its text.
-/
def Token.RendersAs
    (lambdas : Lambdas)
    (partials : Partials)
    (world : World)
    (token : Token)
    (value : Value) : Prop :=
  match token.kind with
  | .interpolation | .implicit =>
    ∀ render reader,
      expandLeaf lambdas render partials reader token world =
        (textOf value >>= fun text =>
            ofEdit (reader.replace? token.start token.stop text.escapeMarkup))
          world
  | .unescaped => ∀ render reader,
      expandLeaf lambdas render partials reader token world =
        (textOf value >>= fun text =>
          ofEdit (reader.replace? token.start token.stop text)) world
  | .opener =>
    ∃ items,
      (items ≠ [] ↔ value.isTruthy = true) ∧
      ∀ render delimiters body startsLine,
        expandBody lambdas render partials delimiters .opener token.name body
            startsLine world =
          renderItems lambdas render partials delimiters body startsLine items
            world
  | .invertedOpener =>
    ∃ items,
      (items ≠ [] ↔ value.isTruthy = false) ∧
      ∀ render delimiters body startsLine,
        expandBody lambdas render partials delimiters .invertedOpener token.name
            body startsLine world =
          renderItems lambdas render partials delimiters body startsLine items
            world
  | .inclusion => ∀ render indentation,
      includePartial render partials token.name indentation =
        match value with
        | .string source =>
          if source = "" then pure []
          else render (Text.indent source.toList indentation) partials .standard
        | _ => pure []
  | .text | .closer | .comment | .setDelimiters => True

theorem itemsOf_ne_nil (value : Value) :
    itemsOf value ≠ [] ↔ value.isTruthy = true := by
  cases value with
  | list items => cases items <;> simp [itemsOf, Value.isTruthy]
  | _ => simp [itemsOf]

theorem Token.rendersAs_of_shows
    {token : Token}
    {value : Value}
    (shows : token.Shows lambdas partials world value) :
    token.RendersAs lambdas partials world value := by
  unfold Token.Shows at shows
  unfold Token.RendersAs
  cases kind : token.kind with
  | interpolation | implicit =>
    rw [kind] at shows
    intro render reader
    simp only [expandLeaf, kind]
    rw [run_bind, run_bind, shows.interpolate]
  | unescaped =>
    rw [kind] at shows
    intro render reader
    simp only [expandLeaf, kind]
    rw [run_bind, run_bind, shows.interpolate]
  | opener =>
    rw [kind] at shows
    exact ⟨itemsOf value, itemsOf_ne_nil value,
      fun render delimiters body startsLine =>
        shows.expandBody render partials delimiters .opener body startsLine⟩
  | invertedOpener =>
    rw [kind] at shows
    refine ⟨itemsFor .invertedOpener value, ?_,
      fun render delimiters body startsLine =>
        shows.expandBody render partials delimiters .invertedOpener body
          startsLine⟩
    cases truthy : value.isTruthy <;> simp [itemsFor, truthy]
  | inclusion =>
    rw [kind] at shows
    intro render indentation
    have isValue :
        value =
          ((partials.get? (String.ofList token.name)).map Value.string).getD
            .null :=
      shows
    rw [isValue, includePartial]
    cases partials.get? (String.ofList token.name) <;> rfl
  | text | closer | comment | setDelimiters => exact True.intro

/-! ## The tags that a run expands -/

/-- With pure data, a run expands every tag in the world that it started in. -/
theorem readingHeads_world
    (values : PureValues lambdas store known)
    (within : world.Within store known)
    (fuel : Nat)
    (partials : Partials)
    (state : Reader × Delimiters) :
    ∀ head ∈ readingHeads lambdas fuel partials state world,
      head.2 = world := by
  have keeps (fuel : Nat) (state : Reader × Delimiters) :
      Keeps world
        ((bufferMachine lambdas).step ((bufferMachine lambdas).render fuel)
          partials state) := by
    apply keeps_expandNext values within
    intro inner isWithin template partials delimiters
    rw [← interpretWithin_eq_render]
    exact keeps_expandRest values isWithin fuel partials _
  have preserves (fuel : Nat) (state : Reader × Delimiters) (start : World)
      (same : start = world) :
      ((bufferMachine lambdas).step ((bufferMachine lambdas).render fuel)
          partials state start).2 = world := by
    rw [same]
    exact (keeps fuel state).world_eq
  exact readingHeads_preserve preserves fuel state rfl

/--
An accessor agrees with a tag that is expanded: it is an accessor to a tag of
the same kind, name and text, and what it gets is what rendering the tag in the
same world goes by.  A name that stands for nothing counts as null.
-/
def Accessor.Agrees
    (accessor : Accessor)
    (lambdas : Lambdas)
    (partials : Partials)
    (world : World)
    (token : Token) : Prop :=
  token.piece = accessor.token.piece ∧
  ∃ value,
    accessor.value lambdas world.store = (value, world.store) ∧
    (token.kind ≠ .inclusion →
      (world.stack.resolve lambdas (Name.ofText token.name) none
          world.store).1 = none →
      value = .null) ∧
    token.RendersAs lambdas partials world value

theorem Accessor.agrees_of_isFor
    (values : PureValues lambdas store known)
    (within : world.Within store known)
    {accessor : Accessor}
    {block : Block}
    (isFor : accessor.IsFor block)
    (located :
      locate lambdas world.stack partials accessor.token accessor.body store =
        ((accessor.owner, accessor.target), store))
    {token : Token}
    (same : token.piece = block.head) :
    accessor.Agrees lambdas partials world token := by
  have isPiece : token.piece = accessor.token.piece :=
    same.trans isFor.piece_eq.symm
  have isKind : token.kind = accessor.token.kind := congrArg Piece.kind isPiece
  have isName : token.name = accessor.token.name := congrArg Piece.name isPiece
  rcases Accessor.exists_shows values within partials accessor.body
      isFor.dotted with ⟨owner, target, value, relocated, gets, shows⟩
  cases located.symm.trans relocated
  have sees : token.Shows lambdas partials world value := by
    unfold Token.Shows at shows ⊢
    rw [isKind, isName]
    exact shows
  rw [← within.store_eq] at gets
  refine ⟨isPiece, value, gets, ?_, Token.rendersAs_of_shows sees⟩
  intro named missing
  rcases ((Token.shows_iff named).1 sees).resolves with
    ⟨found, resolved, converts⟩
  rw [resolved] at missing
  cases missing
  cases converts
  rfl

/--
Inspecting a template shows what rendering it sees, whatever its partials are
and wherever the delimiter pairs in effect at its top level are solid, for data
without lambdas.  There is an accessor for each tag at the top level that reads
from the context, in their order.  The tags that a run in place expands are the
first of these, and all of them when the run succeeds, and each accessor agrees
with its tag.
-/
theorem inspect_shows_rendering
    {lambdas : Lambdas}
    {template : Text}
    {data : Value}
    {partials : Partials}
    {delimiters : Delimiters}
    {store : Store}
    (valid : validate template delimiters = .ok ())
    (solid : delimiters.Solid)
    (solids :
      ∀ visit ∈ Reader.visitsFrom (template.length + 1) (Reader.ofText template)
          delimiters,
        visit.after.Solid)
    (pure : PureData lambdas store data)
    (fuel : Nat) :
    let world : World := ⟨store, .ofRoot data⟩
    ∃ accessors,
      inspect lambdas template data partials delimiters store =
        (.ok accessors, store) ∧
      accessors.map Accessor.token =
        Reader.readingsFrom (template.length + 1) (Reader.ofText template)
          delimiters ∧
      ∃ shown,
        shown <+: accessors ∧
        (∀ text,
          (interpretWithin lambdas fuel template partials delimiters world).1 =
            .ok text →
          shown = accessors) ∧
        List.Forall₂
          (fun head accessor =>
            head.2 = world ∧
            ∃ token,
              Reader.nextReading? head.1 = some token ∧
              accessor.Agrees lambdas partials world token)
          (readingHeads lambdas fuel partials
            (Reader.ofText template, delimiters) world)
          shown := by
  intro world
  have values := pure.values
  have within : world.Within store
      fun value => value = .bool true ∨ data.Yields lambdas store value :=
    World.within_ofRoot (.inr .data)
  rcases exists_accessors_facing valid solid solids lambdas data partials store
      fuel with
    ⟨accessors, after, inspected, tokens, made, each, shown, isShown, all,
      together⟩
  have keeps :
      ∀ accessor ∈ accessors,
        (Accessor.locate lambdas world.stack partials accessor.token
            accessor.body store).2 = store := by
    intro accessor member
    rcases each accessor member with ⟨block, isFor⟩
    rcases Accessor.exists_shows values within partials accessor.body
        isFor.dotted with ⟨owner, target, value, located, -⟩
    rw [located]
  rcases made.located keeps with ⟨rfl, located⟩
  refine ⟨accessors, inspected, tokens, shown, isShown, all, ?_⟩
  have reads :
      ∀ head ∈ readingHeads lambdas fuel partials
          (Reader.ofText template, delimiters) world,
        head.2 = world ∧ (Reader.nextReading? head.1).isSome = true :=
    fun head member =>
      ⟨readingHeads_world values within fuel partials _ head member,
        (List.mem_filter.1 member).2⟩
  have shownLocated :=
    fun accessor member => located accessor (isShown.subset member)
  have both :=
    ((List.forall₂_and_left _ _).2 ⟨shownLocated, together.flip⟩).flip
  apply ((List.forall₂_and_left _ _).2 ⟨reads, both⟩).imp
  rintro head accessor ⟨⟨isWorld, isReading⟩, isLocated, block, faces, isFor⟩
  rcases Option.isSome_iff_exists.1 isReading with ⟨token, isToken⟩
  exact ⟨isWorld, token, isToken,
    Accessor.agrees_of_isFor values within isFor isLocated
      (faces.piece_eq isToken)⟩

/--
Tags of all six kinds that read from the context, with scopes and keys that
convert, names that stand for nothing, and three ways to write a dot.
-/
theorem inspect_shows_rendering_converted :
    let lambdas : Lambdas := {
      call := fun function _ =>
        pure (if function.index = 0 then .map ⟨⟨1⟩, none⟩ else .string "&")
      assign := fun _ _ => pure () }
    let template :=
      "{{#o.a}}\n{{.}}{{/o.a}}{{o.b.c}}{{ . }}{{.}}{{! c }}{{>p}}{{&s}}{{^s}}{{& . }}{{/s}}".toList
    let store : Store :=
      ⟨#[[("o", .map ⟨⟨0⟩, some ⟨⟨0⟩, none, none⟩⟩), ("s", .string "")],
          [("a", .map ⟨⟨1⟩, some ⟨⟨1⟩, none, none⟩⟩)]]⟩
    let data : Value := .map ⟨⟨0⟩, none⟩
    let world : World := ⟨store, .ofRoot data⟩
    (validate template .standard = .ok () ∧
      Delimiters.standard.Solid ∧
      (∀ visit ∈ Reader.visitsFrom (template.length + 1)
          (Reader.ofText template) .standard,
        visit.after.Solid) ∧
      PureData lambdas store data) ∧
    ∃ accessors,
      inspect lambdas template data [] .standard store =
        (.ok accessors, store) ∧
      accessors.map Accessor.token =
        Reader.readingsFrom (template.length + 1) (Reader.ofText template)
          .standard ∧
      accessors.map (·.token.kind) =
        [.opener, .interpolation, .interpolation, .implicit, .inclusion,
          .unescaped, .invertedOpener] ∧
      ∃ shown,
        shown <+: accessors ∧
        (∀ text,
          (interpretWithin lambdas 40 template [] .standard world).1 =
            .ok text →
          shown = accessors) ∧
        List.Forall₂
          (fun head accessor =>
            head.2 = world ∧
            ∃ token,
              Reader.nextReading? head.1 = some token ∧
              accessor.Agrees lambdas [] world token)
          (readingHeads lambdas 40 [] (Reader.ofText template, .standard) world)
          shown := by
  intro lambdas template store data world
  have valid : validate template .standard = .ok () := by decide +kernel
  have solids :
      ∀ visit ∈ Reader.visitsFrom (template.length + 1) (Reader.ofText template)
          .standard,
        visit.after.Solid := by
    decide +kernel
  have functions : lambdas.Pure := by
    constructor
    · intro function call store
      rfl
    · intro function call store
      show (if function.index = 0 then Value.map ⟨⟨1⟩, none⟩
        else Value.string "&").holdsInDepth Value.isNoLambda = true
      split <;> rfl
  have pureData : PureData lambdas store data :=
    pureData_of_isNoLambda functions (by decide) (by decide)
  have kinds :
      (Reader.readingsFrom (template.length + 1) (Reader.ofText template)
          .standard).map Token.kind =
        [.opener, .interpolation, .interpolation, .implicit, .inclusion,
          .unescaped, .invertedOpener] := by
    decide +kernel
  rcases inspect_shows_rendering valid (by decide) solids pureData 40 with
    ⟨accessors, inspected, tokens, shows⟩
  refine ⟨⟨valid, by decide, solids, pureData⟩, accessors, inspected, tokens,
    ?_, shows⟩
  rw [← kinds, ← tokens, List.map_map]
  rfl

end Mustache
