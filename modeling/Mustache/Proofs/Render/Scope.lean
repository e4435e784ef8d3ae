import Mustache.Proofs.Context
import Mustache.Proofs.Render.Across

/-!
# The scope of an inverted section

The body of an inverted section is rendered with the frame `true` on the stack.
The frame has no keys, so every name that is looked up passes it by, and what a
tag of the body resolves to is what it resolves to without the frame.  One name
does not pass it by, that of the innermost frame itself.

Two renderings, one with that frame somewhere on the stack and one without it,
therefore go along with each other (`RenderM.AgreeAcross`) up to a tag that
names the innermost frame while that is the frame in question.  A rendering that
watches for such a tag (`scopeWatch`) tells where there is none, and then the
body comes out as if no frame had been pushed.
-/

namespace Mustache

theorem Name.eq_dot_of_ofText_eq_current
    {text : Text}
    (isCurrent : ofText text = .current) :
    text = ['.'] := by
  by_contra different
  simp [ofText, different] at isCurrent

namespace ContextStack

theorem findOwner?_append_true
    (store : Store)
    (key : String)
    (inner outer : List Value) :
    findOwner? store key (inner ++ .bool true :: outer) =
      findOwner? store key (inner ++ outer) := by
  induction inner with
  | nil => rfl
  | cons frame rest ih =>
    simp only [List.cons_append, findOwner?, ih]

/-- A frame without keys is passed by, by whatever is looked up through it. -/
theorem lookup?_append_true
    (store : Store)
    (key : String)
    (root : Value)
    (inner outer : List Value) :
    lookup? ⟨root, inner ++ .bool true :: outer⟩ store key =
      lookup? ⟨root, inner ++ outer⟩ store key := by
  simp only [lookup?, lookupOwner?, List.append_assoc, List.cons_append,
    findOwner?_append_true]

/--
A name stands for what it stands for without the frame, unless it names the
frame.
-/
theorem resolve_append_true
    (lambdas : Lambdas)
    (root : Value)
    {inner : List Value}
    (outer : List Value)
    {name : Name}
    (passes : name = .current → inner ≠ [])
    (text : Option String)
    (store : Store) :
    resolve lambdas ⟨root, inner ++ .bool true :: outer⟩ name text store =
      resolve lambdas ⟨root, inner ++ outer⟩ name text store := by
  cases name with
  | current =>
    cases inner with
    | nil => exact absurd rfl (passes rfl)
    | cons => rfl
  | path scopes key =>
    cases scopes with
    | nil => rw [resolve_path_nil, resolve_path_nil, lookup?_append_true]
    | cons segment rest => simp only [resolve_path_cons, lookup?_append_true]

end ContextStack

open RenderM

/--
A world that has the frame `true` between some inner frames and the outer ones,
and a world with the same inner frames, which has that frame too or does without
it.
-/
structure World.HasTrue
    (root : Value)
    (inner outer below : List Value)
    (world world' : World) : Prop where
  store_eq : world.store = world'.store
  stack_eq : world.stack = ⟨root, inner ++ .bool true :: outer⟩
  stack_eq' : world'.stack = ⟨root, inner ++ below⟩
  below_eq : below = outer ∨ below = .bool true :: outer

section

variable
    {root : Value}
    {inner outer below : List Value}
    {excused : Stop → Prop}
    {α : Type}
    {lambdas : Lambdas}

theorem agreeAcross_ofEffect (effect : Effect α) :
    AgreeAcross (World.HasTrue root inner outer below) excused (ofEffect effect)
      (ofEffect effect) := by
  intro world world' together
  refine .inr ?_
  rw [ofEffect_run, ofEffect_run, together.store_eq]
  exact ⟨rfl, rfl, together.stack_eq, together.stack_eq', together.below_eq⟩

theorem agreeAcross_textOf (value : Value) :
    AgreeAcross (World.HasTrue root inner outer below) excused (textOf value)
      (textOf value) := by
  intro world world' together
  rw [textOf_run, textOf_run, together.store_eq]
  exact .inr ⟨rfl, together⟩

/--
A name is resolved alike, unless it is that of the innermost frame and this is
the frame.
-/
theorem agreeAcross_resolve
    (name : Text)
    (body : Option Text)
    (passes : name = ['.'] → inner ≠ []) :
    AgreeAcross (World.HasTrue root inner outer below) excused
      (resolve lambdas name body) (resolve lambdas name body) := by
  intro world world' together
  have named : Name.ofText name = .current → inner ≠ [] := fun current =>
    passes (Name.eq_dot_of_ofText_eq_current current)
  have same : world.stack.resolve lambdas (Name.ofText name) =
      world'.stack.resolve lambdas (Name.ofText name) := by
    funext text store
    rw [together.stack_eq, together.stack_eq']
    rcases together.below_eq with rfl | rfl
    · exact ContextStack.resolve_append_true lambdas root _ named text store
    · rfl
  refine .inr ?_
  rw [resolve_run, resolve_run, together.store_eq, same]
  exact ⟨rfl, rfl, together.stack_eq, together.stack_eq', together.below_eq⟩

theorem agreeAcross_framesOf (item : Value) :
    AgreeAcross (World.HasTrue root inner outer below) excused
      (framesOf lambdas item) (framesOf lambdas item) := by
  apply (agreeAcross_ofEffect _).bind
  intro converted
  split
  · exact (agreeAcross_ofEffect _).bind fun _ => .pure _
  · exact .pure _

theorem carries_hasTrue
    (lambdas : Lambdas)
    (root : Value)
    (outer below : List Value)
    (excused : Stop → Prop) :
    Carries lambdas (fun inner => World.HasTrue root inner outer below) excused
      fun _ => True where
  push frame together :=
    { store_eq := together.store_eq
      stack_eq := congrArg (·.push frame) together.stack_eq
      stack_eq' := congrArg (·.push frame) together.stack_eq'
      below_eq := together.below_eq }
  pop together :=
    { store_eq := together.store_eq
      stack_eq := congrArg ContextStack.pop together.stack_eq
      stack_eq' := congrArg ContextStack.pop together.stack_eq'
      below_eq := together.below_eq }
  frames _ := agreeAcross_framesOf _

theorem agreeAcross_namedValue
    {name : Text}
    (body : Option Text)
    (passes : name = ['.'] → inner ≠ []) :
    AgreeAcross (World.HasTrue root inner outer below) excused
      (namedValue lambdas name body) (namedValue lambdas name body) := by
  apply (agreeAcross_resolve name body passes).bind
  rintro (_ | found)
  · exact .pure _
  · exact (agreeAcross_ofEffect _).map _

theorem agreeAcross_interpolated
    {name : Text}
    (passes : name = ['.'] → inner ≠ []) :
    AgreeAcross (World.HasTrue root inner outer below) excused
      (interpolated lambdas name) (interpolated lambdas name) := by
  apply (agreeAcross_namedValue none passes).bind
  intro value
  unfold madeText
  split
  · exact .pure _
  · exact (agreeAcross_ofEffect _).bind fun result =>
      (agreeAcross_textOf result).map _
  · exact (agreeAcross_textOf _).map _

theorem agreeAcross_sectionItems
    (kind : TokenKind)
    {name : Text}
    (body : Text)
    (passes : name = ['.'] → inner ≠ []) :
    AgreeAcross (World.HasTrue root inner outer below) excused
      (sectionItems lambdas kind name body)
      (sectionItems lambdas kind name body) := by
  apply (agreeAcross_namedValue (some body) passes).bind
  intro value
  unfold madeItems
  split
  · exact .pure _
  · split
    · exact .pure _
    · apply (agreeAcross_ofEffect _).bind
      intro result
      split <;> exact .pure _
    · exact .pure _

end

/-- Does a node resolve the name of the innermost frame? -/
def Node.namesCurrent : Node → Bool
  | .leaf token =>
    match token.kind with
    | .interpolation | .unescaped | .implicit => token.name == ['.']
    | _ => false
  | .paired opener _ => opener.name == ['.']

/--
A node looks at the same, unless it names the innermost frame and this is the
frame.
-/
theorem readAlike_of_passes
    {root : Value}
    {inner outer below : List Value}
    {excused : Stop → Prop}
    {lambdas : Lambdas}
    {node : Node}
    {world world' : World}
    (together : World.HasTrue root inner outer below world world')
    (passes : node.namesCurrent = true → inner ≠ [])
    (reader : Reader) :
    node.ReadAlike lambdas (World.HasTrue root inner outer below) excused
      (fun _ => True) reader world world' := by
  cases node with
  | leaf token =>
    intro kind
    apply agreeAcross_interpolated ?_ world world' together
    intro isCurrent
    apply passes
    rcases kind with kind | kind | kind <;>
      simp [Node.namesCurrent, kind, isCurrent]
  | paired opener closer =>
    intro _ body _ _
    have named : opener.name = ['.'] → inner ≠ [] := by
      simpa [Node.namesCurrent] using passes
    exact ⟨agreeAcross_sectionItems opener.kind body named world world'
        together, fun _ _ _ _ => True.intro⟩

/-! ## Watching for the name of a frame -/

/-- Does the node that is read next resolve the name of the innermost frame? -/
def nextNamesCurrent (state : Reader × Delimiters) : Bool :=
  match (state.1.nextNode state.2).1 with
  | .ok (some node) => node.namesCurrent
  | _ => false

/--
Rendering in a buffer that gives up at a tag that names the innermost frame
while the stack has the given number of frames.
-/
def scopeWatch
    (lambdas : Lambdas)
    (depth : Nat) : Machine (Reader × Delimiters) where
  start template delimiters := (Reader.ofText template, delimiters)
  step render partials state := do
    let world ← get
    if world.stack.frames.length = depth ∧ nextNamesCurrent state then
      throw .endless
    else
      expandNext lambdas render partials state

/--
With a frame on the stack and without it, rendering is the same until the frame
is named.
-/
theorem agreeAcross_scopeWatch
    (lambdas : Lambdas)
    (root : Value)
    (outer below : List Value)
    (fuel : Nat)
    (inner : List Value)
    (partials : Partials)
    (state : Reader × Delimiters) :
    AgreeAcross (World.HasTrue root inner outer below) (· = .endless)
      ((scopeWatch lambdas (outer.length + 1)).run fuel partials state)
      ((bufferMachine lambdas).run fuel partials state) := by
  have isWatching :
      scopeWatch lambdas (outer.length + 1) =
        watching lambdas fun world state =>
      world.stack.frames.length = outer.length + 1 ∧
      nextNamesCurrent state = true :=
    rfl
  rw [isWatching]
  apply agreeAcross_watching (carries_hasTrue lambdas root outer below _)
  intro inner world world' state node after reader together quiet read
  apply readAlike_of_passes together
  rintro names rfl
  exact quiet
    ⟨by simp [together.stack_eq], by simp [nextNamesCurrent, read, names]⟩

/-! ## The body of an inverted section -/

/--
A value that does not hide an inverted section leaves its body, for the frame
`true`.
-/
theorem expandBody_inverted
    {lambdas : Lambdas}
    {render : TemplateRenderer}
    {name body : Text}
    {world between : World}
    {value : Option Value}
    (named : sectionValue lambdas name body world = (.ok value, between))
    (isFalsy : hidesInverted value = false)
    (partials : Partials)
    (delimiters : Delimiters)
    (startsLine : Bool) :
    expandBody lambdas render partials delimiters .invertedOpener name body
        startsLine world =
      (withFrames [.bool true]
            (render (guarded body startsLine) partials delimiters) >>=
          fun text => pure (unguarded text startsLine))
        between := by
  have one :
      expandFor lambdas render partials delimiters .invertedOpener body
          startsLine value =
        renderItem lambdas render partials delimiters body startsLine
          (.bool true) := by
    rw [← renderItems_singleton]
    simp [expandFor, isFalsy]
  rw [expandBody, run_bind, named]
  simp only [one]
  rfl

/--
A body that does not name the frame `true` is rendered as if it had not been
pushed.
-/
theorem withFrames_true_eq
    {lambdas : Lambdas}
    {fuel : Nat}
    {template : Text}
    {partials : Partials}
    {delimiters : Delimiters}
    {world : World}
    (quiet :
      ((scopeWatch lambdas (world.stack.frames.length + 1)).render fuel template
          partials delimiters
          { world with stack := world.stack.push (.bool true) }).1 ≠
        .error .endless) :
    withFrames [.bool true]
        (interpretWithin lambdas fuel template partials delimiters) world =
      interpretWithin lambdas fuel template partials delimiters world := by
  rw [interpretWithin_eq_render]
  have agrees (below : List Value) (world' : World) :=
    agreeAcross_scopeWatch lambdas world.stack.root world.stack.frames below
      fuel [] partials (Reader.ofText template, delimiters)
      { world with stack := world.stack.push (.bool true) } world'
  have notExcused :
      ¬∃ stop,
        ((scopeWatch lambdas (world.stack.frames.length + 1)).render fuel
          template partials delimiters
          { world with stack := world.stack.push (.bool true) }).1 =
            .error stop ∧
          stop = .endless := by
    rintro ⟨_, stopped, rfl⟩
    exact quiet stopped
  rcases agrees (.bool true :: world.stack.frames)
      { world with stack := world.stack.push (.bool true) }
      ⟨rfl, rfl, rfl, .inr rfl⟩ with stopped | ⟨same, left⟩
  · exact absurd stopped notExcused
  rcases agrees world.stack.frames world ⟨rfl, rfl, rfl, .inl rfl⟩ with
    stopped | ⟨same', left'⟩
  · exact absurd stopped notExcused
  refine Prod.ext (same.symm.trans same') ?_
  show World.mk _ _ = World.mk _ _
  congr 1
  · exact left.store_eq.symm.trans left'.store_eq
  · show ContextStack.pop _ = _
    refine Eq.trans ?_ left'.stack_eq'.symm
    exact congrArg ContextStack.pop left.stack_eq'

/--
Where the name of an inverted section stands for nothing or for a value that is
not truthy, the body is rendered once, with the frame `true` on the stack.  A
tag in it, with whatever further frames, resolves to what it resolves to without
that frame; only the name of the innermost frame stands for `true` where that is
the innermost one.  Unless a tag names it there, the body comes out as if no
frame had been pushed.
-/
theorem expandBody_inverted_scope
    {lambdas : Lambdas}
    {name body : Text}
    {world between : World}
    {value : Option Value}
    (named : sectionValue lambdas name body world = (.ok value, between))
    (isFalsy : hidesInverted value = false)
    (fuel : Nat)
    (partials : Partials)
    (delimiters : Delimiters)
    (startsLine : Bool) :
    between.stack = world.stack ∧
    (∀ (inner : List Value) (tag : Text) (text : Option String) (store : Store),
      (tag = ['.'] → inner ≠ []) →
      ContextStack.resolve lambdas
          ⟨world.stack.root, inner ++ .bool true :: world.stack.frames⟩
          (Name.ofText tag) text store =
        ContextStack.resolve lambdas
          ⟨world.stack.root, inner ++ world.stack.frames⟩ (Name.ofText tag) text
          store) ∧
    (∀ (text : Option String) (store : Store),
      (world.stack.push (.bool true)).resolve lambdas (Name.ofText ['.']) text
          store =
        (some (.bool true), store)) ∧
    expandBody lambdas (interpretWithin lambdas fuel) partials delimiters
        .invertedOpener name body startsLine world =
      (withFrames [.bool true]
            (interpretWithin lambdas fuel (guarded body startsLine) partials
              delimiters) >>= fun text => pure (unguarded text startsLine))
        between ∧
    (((scopeWatch lambdas (world.stack.frames.length + 1)).render fuel
          (guarded body startsLine) partials delimiters
          { between with stack := world.stack.push (.bool true) }).1 ≠
        .error .endless →
      expandBody lambdas (interpretWithin lambdas fuel) partials delimiters
          .invertedOpener name body startsLine world =
        (interpretWithin lambdas fuel (guarded body startsLine) partials
              delimiters >>= fun text => pure (unguarded text startsLine))
          between) := by
  have stack : between.stack = world.stack := by
    have restored := (restores_sectionValue lambdas name body).stack_eq world
    rwa [named] at restored
  refine ⟨stack, ?_, fun _ _ => rfl, expandBody_inverted named isFalsy .., ?_⟩
  · intro inner tag text store passes
    apply ContextStack.resolve_append_true
    intro current
    exact passes (Name.eq_dot_of_ofText_eq_current current)
  · intro quiet
    rw [← stack] at quiet
    rw [expandBody_inverted named isFalsy, run_bind, run_bind,
      withFrames_true_eq quiet]

/--
A body with a key, a list whose items are named and a partial, in a section over
a list.
-/
theorem expandBody_inverted_scope_inner :
    let store : Store :=
      ⟨#[[("l", .list [.string "a", .string "b"]), ("n", .string "<")]]⟩
    let world : World := ⟨store, ⟨.map ⟨⟨0⟩, none⟩, [.string "x"]⟩⟩
    let delimiters : Delimiters := ⟨['<'], ['>']⟩
    let body := "<n><#l><.><@p></l>".toList
    let partials : Partials := [("p", "\x7b\x7b#.\x7d\x7d!\x7b\x7b/.\x7d\x7d")]
    sectionValue .none ['m'] body world = (.ok none, world) ∧
    hidesInverted none = false ∧
    (expandBody .none (interpretWithin .none 20) partials delimiters
        .invertedOpener ['m'] body false world).1 =
      .ok "&lt;a!b!".toList := by
  intro store world delimiters body partials
  have named : sectionValue .none ['m'] body world = (.ok none, world) := rfl
  refine ⟨named, rfl, ?_⟩
  rcases expandBody_inverted_scope named rfl 20 partials delimiters false with
    ⟨-, -, -, -, scope⟩
  rw [scope (by decide +kernel)]
  decide +kernel

/--
In the body of an inverted section the name of the innermost frame does not
stand for what it stands for before the section.
-/
theorem innermost_frame_hidden :
    let store : Store := ⟨#[[("l", .list [.string "x"])]]⟩
    let world : World := ⟨store, .ofRoot (.map ⟨⟨0⟩, none⟩)⟩
    let delimiters : Delimiters := ⟨['<'], ['>']⟩
    (interpretWithin .none 20 "<#l><.><^m></m></l>".toList [] delimiters
        world).1 =
      .ok ['x'] ∧
    (interpretWithin .none 20 "<#l><^m><.></m></l>".toList [] delimiters
        world).1 =
      .ok "true".toList := by
  decide +kernel

end Mustache
