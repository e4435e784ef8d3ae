import Mustache.Proofs.Context
import Mustache.Proofs.Render.Across
import Mustache.Proofs.Value.Alike

/-!
# What a rendering does not look at

Two worlds may differ in what a table has under a key, and one of them may have
one more frame on the stack.  A veil lies over both.  Whether a node looks
behind it can be told beforehand: by the lookups that its name makes, by the
text that it shows and by the functions that it calls.

A node that does not look behind the veil stands for the same in both worlds
(`readAlike_of_spares`), so rendering in both comes to the same as long as no
node does (`agreeAcross_veilWatch`).  Functions that are called meanwhile have
to be known not to tell the worlds apart (`Lambdas.Overlook`).
-/

namespace Mustache

open RenderM

/--
What is kept from a rendering: what a table has under a key, and perhaps a frame
of the stack.  Only the functions that are trusted may be called.
-/
structure Veil where
  table : TableId
  key : String
  /-- The number of frames below the one that is hidden. -/
  hidden : Option Nat
  trusted : FunctionId → Bool

/-- The stores differ behind the veil alone. -/
abbrev Veil.Alike (veil : Veil) : Store → Store → Prop :=
  Store.AlikeBut veil.table veil.key

/-- An effect does the same in stores that differ behind the veil alone. -/
def Veil.Unseen {α : Type} (veil : Veil) (effect : Effect α) : Prop :=
  ∀ store store',
    veil.Alike store store' →
    (effect store).1 = (effect store').1 ∧
      veil.Alike (effect store).2 (effect store').2

/--
The trusted functions do not look behind the veil, and a lambda that one of them
answers with is for a trusted function again.
-/
structure Lambdas.Overlook (lambdas : Lambdas) (veil : Veil) : Prop where
  unseen : ∀ {function : FunctionId}, veil.trusted function = true → ∀ call,
    veil.Unseen (lambdas.call function call)
  answer :
    ∀ {function : FunctionId},
      veil.trusted function = true →
      ∀ call store lambda,
        (lambdas.call function call store).1 = .lambda lambda →
        veil.trusted lambda.function = true

/-! ## Telling what is looked at -/

namespace Veil

variable (veil : Veil) (lambdas : Lambdas)

/-- May a value be called or converted? -/
def trusts : Value → Bool
  | .lambda lambda => veil.trusted lambda.function
  | .map ⟨_, some primitive⟩ => veil.trusted primitive.function
  | _ => true

/--
Does looking a key up in some frames come to its end without looking behind the
veil?
-/
def sparesFrames (store : Store) (key : String) : List Value → Bool
  | [] => true
  | frame :: outer =>
    if frame.isOf veil.table && veil.key == key then false
    else if (frame.get? store key).isSome then veil.hidden != some outer.length
    else sparesFrames store key outer

/-- Is a key looked up in a stack without looking behind the veil? -/
def sparesLookup (stack : ContextStack) (store : Store) (key : String) : Bool :=
  veil.sparesFrames store key (stack.frames ++ [stack.root])

/-- Is a key looked up through scopes without looking behind the veil? -/
def sparesPath
    (text : Option String)
    (key : String) : ContextStack → List String → Store → Bool
  | stack, [], store => veil.sparesLookup stack store key
  | stack, segment :: rest, store =>
    veil.sparesLookup stack store segment &&
      match stack.lookup? store segment with
      | none => true
      | some found =>
        let (scope, after) := ContextStack.enter lambdas text found store
        veil.trusts found && sparesPath text key (.ofRoot scope) rest after

/-- Is a name resolved without looking behind the veil? -/
def sparesName
    (text : Option String)
    (stack : ContextStack)
    (store : Store) : Name → Bool
  | .current => true
  | .path scopes key => veil.sparesPath lambdas text key stack scopes store

/-- Is a value shown without looking behind the veil? -/
def sparesText (value : Value) (store : Store) : Bool :=
  (value.text? (store.looped veil.table)).isSome

/-- Is the value of a name shown without looking behind the veil? -/
def sparesShown (value : Option Value) (store : Store) : Bool :=
  match value with
  | none => true
  | some (.lambda lambda) =>
    let (result, called) := lambda.call lambdas none store
    veil.trusted lambda.function && veil.sparesText result called
  | some value => veil.sparesText value store

/--
Are the items for the value of a name found, and made frames, without looking
behind?
-/
def sparesItems
    (kind : TokenKind)
    (body : Text)
    (value : Option Value)
    (store : Store) : Bool :=
  kind == .invertedOpener ||
    match value with
    | none => true
    | some (.lambda lambda) =>
      veil.trusted lambda.function &&
        match (lambda.call lambdas (some (String.ofList body)) store).1 with
        | .string _ => true
        | result => (itemsOf result).all veil.trusts
    | some value => (itemsOf value).all veil.trusts

/--
Is a name resolved and converted, and then used, without looking behind the
veil?
-/
def sparesNamed
    (world : World)
    (name : Text)
    (body : Option Text)
    (further : Option Value → Store → Bool) : Bool :=
  let text := body.map String.ofList
  veil.sparesName lambdas text world.stack world.store (Name.ofText name) &&
    match world.stack.resolve lambdas (Name.ofText name) text world.store with
    | (none, between) => further none between
    | (some found, between) =>
      let (value, after) := found.convert lambdas between
      veil.trusts found && further (some value) after

/-- Is a node expanded without looking behind the veil? -/
def sparesNode (world : World) (reader : Reader) : Node → Bool
  | .leaf token =>
    match token.kind with
    | .interpolation | .unescaped | .implicit =>
      veil.sparesNamed lambdas world token.name none (veil.sparesShown lambdas)
    | _ => true
  | .paired opener closer =>
    match reader.sectionBody? opener closer with
    | none => true
    | some (_, body, _) =>
      veil.sparesNamed lambdas world opener.name (some body)
        (veil.sparesItems lambdas opener.kind body)

/-- Does the node that is read next look behind the veil? -/
def isLifted (world : World) (state : Reader × Delimiters) : Bool :=
  match state.1.nextNode state.2 with
  | (.ok (some node), _, reader) => !veil.sparesNode lambdas world reader node
  | _ => false

end Veil

/--
Rendering in a buffer that gives up before a node that looks behind the veil.
-/
def veilWatch
    (lambdas : Lambdas)
    (veil : Veil) : Machine (Reader × Delimiters) :=
  watching lambdas fun world state => veil.isLifted lambdas world state = true

/-! ## Functions that do not look -/

section

variable {lambdas : Lambdas} {veil : Veil}

theorem Veil.Unseen.pure
    {α : Type}
    (answer : α) :
    veil.Unseen (pure answer : Effect α) :=
  fun _ _ alike => ⟨rfl, alike⟩

theorem Veil.Unseen.bind
    {α β : Type}
    {effect : Effect α}
    {next : α → Effect β}
    (unseen : veil.Unseen effect)
    (onward : ∀ answer, veil.Unseen (next answer)) :
    veil.Unseen (effect >>= next) := by
  intro store store' alike
  rcases unseen store store' alike with ⟨same, left⟩
  show (next (effect store).1 _).1 = (next (effect store').1 _).1 ∧
    veil.Alike (next (effect store).1 _).2 (next (effect store').1 _).2
  rw [← same]
  exact onward _ _ _ left

theorem unseen_toPrimitive?
    (overlook : lambdas.Overlook veil)
    {value : Value}
    (trusted : veil.trusts value = true) :
    veil.Unseen (value.toPrimitive? lambdas) := by
  cases value with
  | map map =>
    rcases map with ⟨table, _ | primitive⟩
    · exact .pure _
    · exact Veil.Unseen.bind (overlook.unseen trusted _) fun _ => .pure _
  | _ => exact .pure _

theorem unseen_convert
    (overlook : lambdas.Overlook veil)
    {value : Value}
    (trusted : veil.trusts value = true) :
    veil.Unseen (value.convert lambdas) :=
  Veil.Unseen.bind (unseen_toPrimitive? overlook trusted) fun _ => .pure _

theorem unseen_enter
    (overlook : lambdas.Overlook veil)
    {value : Value}
    (trusted : veil.trusts value = true)
    (text : Option String) :
    veil.Unseen (ContextStack.enter lambdas text value) := by
  apply Veil.Unseen.bind (unseen_toPrimitive? overlook trusted)
  rintro (_ | converted)
  · cases value with
    | lambda lambda => exact overlook.unseen trusted _
    | _ => exact .pure _
  · exact .pure _

/--
A trusted value is not converted into a lambda for a function that is not
trusted.
-/
theorem trusted_of_toPrimitive?
    (overlook : lambdas.Overlook veil)
    {value : Value}
    (trusted : veil.trusts value = true)
    {store : Store}
    {lambda : Lambda}
    (converts : (value.toPrimitive? lambdas store).1 = some (.lambda lambda)) :
    veil.trusted lambda.function = true := by
  cases value with
  | map map =>
    rcases map with ⟨table, _ | primitive⟩
    · cases converts
    · exact overlook.answer trusted _ store lambda (Option.some.inj converts)
  | _ => cases converts

/-! ## Names that do not look -/

/--
Two stacks in which whatever is looked up in front of the veil is found alike.
-/
def Veil.Screens (veil : Veil) (stack stack' : ContextStack) : Prop :=
  ∀ store store' key, veil.Alike store store' →
    veil.sparesLookup stack store key = true →
      stack.lookup? store key = stack'.lookup? store' key

theorem findOwner?_of_spares
    {store store' : Store}
    (alike : veil.Alike store store')
    {key : String}
    {frames : List Value}
    (spares : veil.sparesFrames store key frames = true) :
    ContextStack.findOwner? store key frames =
      ContextStack.findOwner? store' key frames := by
  induction frames with
  | nil => rfl
  | cons frame outer ih =>
    unfold Veil.sparesFrames at spares
    split at spares
    · cases spares
    · rename_i elsewhere
      have same : frame.get? store key = frame.get? store' key :=
        alike.get?_eq (by simpa using elsewhere)
      unfold ContextStack.findOwner?
      rw [← same]
      cases under : frame.get? store key with
      | some value => rfl
      | none =>
        rw [under] at spares
        exact ih spares

/-- A frame that is hidden does not count. -/
theorem findOwner?_of_spares_hidden
    {store store' : Store}
    (alike : veil.Alike store store')
    {key : String}
    {extra : Option Value}
    {inner outer : List Value}
    (hidden : extra.isSome = true → veil.hidden = some outer.length)
    (spares :
      veil.sparesFrames store key (inner ++ (extra.toList ++ outer)) = true) :
    ContextStack.findOwner? store key (inner ++ (extra.toList ++ outer)) =
      ContextStack.findOwner? store' key (inner ++ outer) := by
  induction inner with
  | nil =>
    cases extra with
    | none => exact findOwner?_of_spares alike spares
    | some frame =>
      have isHidden := hidden rfl
      simp only [List.nil_append, Option.toList_some, List.singleton_append,
        Veil.sparesFrames, ContextStack.findOwner?] at spares ⊢
      split at spares
      · cases spares
      · cases under : frame.get? store key with
        | some value => simp [under, isHidden] at spares
        | none =>
          rw [under] at spares
          exact findOwner?_of_spares alike spares
  | cons frame inner ih =>
    simp only [List.cons_append, Veil.sparesFrames, ContextStack.findOwner?]
      at spares ⊢
    split at spares
    · cases spares
    · rename_i elsewhere
      have same : frame.get? store key = frame.get? store' key :=
        alike.get?_eq (by simpa using elsewhere)
      rw [← same]
      cases under : frame.get? store key with
      | some value => rfl
      | none =>
        rw [under] at spares
        exact ih spares

theorem Veil.Screens.refl (stack : ContextStack) : veil.Screens stack stack :=
  fun _ _ _ alike spares =>
    congrArg (Option.map Prod.snd) (findOwner?_of_spares alike spares)

theorem Veil.Screens.of_hidden
    (root : Value)
    {extra : Option Value}
    (inner : List Value)
    {outer : List Value}
    (hidden : extra.isSome = true → veil.hidden = some (outer.length + 1)) :
    veil.Screens ⟨root, inner ++ (extra.toList ++ outer)⟩
      ⟨root, inner ++ outer⟩ := by
  intro store store' key alike spares
  simp only [Veil.sparesLookup, List.append_assoc] at spares
  simp only [ContextStack.lookup?, ContextStack.lookupOwner?, List.append_assoc]
  rw [findOwner?_of_spares_hidden alike (by simpa using hidden) spares]

/-- A path that does not lead behind the veil leads to the same. -/
theorem resolve_path_of_spares
    (overlook : lambdas.Overlook veil)
    {stack stack' : ContextStack}
    (screens : veil.Screens stack stack')
    {scopes : List String}
    {key : String}
    {text : Option String}
    {store store' : Store}
    (alike : veil.Alike store store')
    (spares : veil.sparesPath lambdas text key stack scopes store = true) :
    (stack.resolve lambdas (.path scopes key) text store).1 =
      (stack'.resolve lambdas (.path scopes key) text store').1 ∧
    veil.Alike (stack.resolve lambdas (.path scopes key) text store).2
      (stack'.resolve lambdas (.path scopes key) text store').2 := by
  induction scopes generalizing stack stack' store store' with
  | nil =>
    rw [ContextStack.resolve_path_nil, ContextStack.resolve_path_nil]
    exact ⟨screens store store' key alike spares, alike⟩
  | cons segment rest ih =>
    rw [Veil.sparesPath, Bool.and_eq_true] at spares
    rcases spares with ⟨first, onward⟩
    rw [ContextStack.resolve_path_cons, ContextStack.resolve_path_cons,
      ← screens store store' segment alike first]
    cases isFound : stack.lookup? store segment with
    | none => exact ⟨rfl, alike⟩
    | some found =>
      rw [isFound] at onward
      rcases Bool.and_eq_true_iff.1 onward with ⟨trusted, further⟩
      rcases unseen_enter overlook trusted text store store' alike with
        ⟨same, left⟩
      simp only [← same]
      exact ih (.refl _) left further

end

/-! ## Nodes that do not look -/

/--
Worlds that differ behind the veil alone.  The first one may have one more
frame, just below the innermost of the frames that both have had from the start.
-/
structure World.Veiled
    (veil : Veil)
    (root base : Value)
    (extra : Option Value)
    (outer inner : List Value)
    (world world' : World) : Prop where
  alike : veil.Alike world.store world'.store
  stack_eq : world.stack = ⟨root, inner ++ base :: (extra.toList ++ outer)⟩
  stack_eq' : world'.stack = ⟨root, inner ++ base :: outer⟩

section

variable
    {veil : Veil}
    {lambdas : Lambdas}
    {root base : Value}
    {extra : Option Value}
    {outer inner : List Value}
    {excused : Stop → Prop}
    {α : Type}
    {world world' : World}

theorem agreeAcross_of_unseen
    {effect : Effect α}
    (unseen : veil.Unseen effect) :
    AgreeAcross (World.Veiled veil root base extra outer inner) excused
      (ofEffect effect) (ofEffect effect) := by
  intro world world' together
  rcases unseen _ _ together.alike with ⟨same, left⟩
  refine .inr ?_
  rw [ofEffect_run, ofEffect_run, same]
  exact ⟨rfl, left, together.stack_eq, together.stack_eq'⟩

theorem endAlike_textOf
    (together : World.Veiled veil root base extra outer inner world world')
    {value : Value}
    (spares : veil.sparesText value world.store = true) :
    EndAlike (World.Veiled veil root base extra outer inner) excused
      (textOf value world) (textOf value world') := by
  rcases Option.isSome_iff_exists.1 spares with ⟨text, shown⟩
  have itself : veil.Alike world.store world.store := .refl _
  rw [textOf_run, textOf_run, Value.text?_of_looped itself shown,
    Value.text?_of_looped together.alike shown]
  exact .inr ⟨rfl, together⟩

/-- Going on after an effect that does not look behind the veil. -/
theorem endAlike_ofEffect_bind
    {β : Type}
    {effect : Effect α}
    {next next' : α → RenderM β}
    (unseen : veil.Unseen effect)
    (together : World.Veiled veil root base extra outer inner world world')
    {answer : α}
    {after : Store}
    (runs : effect world.store = (answer, after))
    (onward :
      ∀ left',
        World.Veiled veil root base extra outer inner ⟨after, world.stack⟩
          left' →
        EndAlike (World.Veiled veil root base extra outer inner) excused
          (next answer ⟨after, world.stack⟩) (next' answer left')) :
    EndAlike (World.Veiled veil root base extra outer inner) excused
      ((ofEffect effect >>= next) world)
      ((ofEffect effect >>= next') world') := by
  refine EndAlike.bind (agreeAcross_of_unseen unseen world world' together) ?_
  intro _ _ left' ran left
  rw [ofEffect_run, runs] at ran
  cases ran
  exact onward left' left

/-- Going on after a name that does not look behind the veil. -/
theorem endAlike_resolve_bind
    {β : Type}
    {next next' : Option Value → RenderM β}
    (overlook : lambdas.Overlook veil)
    (hidden : extra.isSome = true → veil.hidden = some (outer.length + 1))
    (together : World.Veiled veil root base extra outer inner world world')
    {name : Text}
    {body : Option Text}
    (spares :
      veil.sparesName lambdas (body.map String.ofList) world.stack world.store
          (Name.ofText name) = true)
    {found : Option Value}
    {after : Store}
    (resolved :
      world.stack.resolve lambdas (Name.ofText name) (body.map String.ofList)
          world.store =
        (found, after))
    (onward :
      ∀ left',
        World.Veiled veil root base extra outer inner ⟨after, world.stack⟩
          left' →
        EndAlike (World.Veiled veil root base extra outer inner) excused
          (next found ⟨after, world.stack⟩) (next' found left')) :
    EndAlike (World.Veiled veil root base extra outer inner) excused
      ((resolve lambdas name body >>= next) world)
      ((resolve lambdas name body >>= next') world') := by
  have same : found = (world'.stack.resolve lambdas (Name.ofText name)
        (body.map String.ofList) world'.store).1 ∧
      veil.Alike after (world'.stack.resolve lambdas (Name.ofText name)
        (body.map String.ofList) world'.store).2 := by
    cases isName : Name.ofText name with
    | current =>
      rw [isName] at resolved
      cases resolved
      refine ⟨?_, together.alike⟩
      rw [together.stack_eq, together.stack_eq']
      cases inner <;> rfl
    | path scopes key =>
      rw [isName] at spares resolved
      have screens : veil.Screens world.stack world'.stack := by
        have screens := Veil.Screens.of_hidden root (inner ++ [base]) hidden
        simp only [List.append_assoc, List.singleton_append] at screens
        rwa [together.stack_eq, together.stack_eq']
      have alike :=
        resolve_path_of_spares overlook screens together.alike spares
      rwa [resolved] at alike
  rw [run_bind, run_bind, resolve_run, resolve_run, resolved]
  simp only [← same.1]
  exact onward _ ⟨same.2, together.stack_eq, together.stack_eq'⟩

/-- The value of a name that does not look behind the veil is found alike. -/
theorem endAlike_namedValue
    (overlook : lambdas.Overlook veil)
    (hidden : extra.isSome = true → veil.hidden = some (outer.length + 1))
    (together : World.Veiled veil root base extra outer inner world world')
    {name : Text}
    {body : Option Text}
    {further : Option Value → Store → Bool}
    (spares : veil.sparesNamed lambdas world name body further = true) :
    EndAlike (World.Veiled veil root base extra outer inner) excused
      (namedValue lambdas name body world)
      (namedValue lambdas name body world') := by
  rcases Bool.and_eq_true_iff.1 spares with ⟨named, uses⟩
  rcases resolved :
      world.stack.resolve lambdas (Name.ofText name) (body.map String.ofList)
        world.store with ⟨_ | found, between⟩
  · apply endAlike_resolve_bind overlook hidden together named resolved
    exact fun _ left => .inr ⟨rfl, left⟩
  · rw [resolved] at uses
    have trusted : veil.trusts found = true := (Bool.and_eq_true_iff.1 uses).1
    apply endAlike_resolve_bind overlook hidden together named resolved
    intro between' left
    exact (agreeAcross_of_unseen (unseen_convert overlook trusted)).map some _ _
      left

/-- What is made of the value of a name does not look behind the veil either. -/
theorem further_of_sparesNamed
    {name : Text}
    {body : Option Text}
    {further : Option Value → Store → Bool}
    (spares : veil.sparesNamed lambdas world name body further = true)
    {value : Option Value}
    {after : World}
    (named : namedValue lambdas name body world = (.ok value, after)) :
    further value after.store = true := by
  have uses := (Bool.and_eq_true_iff.1 spares).2
  rw [namedValue, run_bind, resolve_run] at named
  rcases resolved :
      world.stack.resolve lambdas (Name.ofText name) (body.map String.ofList)
        world.store with ⟨_ | found, between⟩
  · rw [resolved] at named uses
    cases named
    exact uses
  · rw [resolved] at named uses
    simp only [map_eq_pure_bind, run_bind, ofEffect_run] at named
    cases named
    exact (Bool.and_eq_true_iff.1 uses).2

/-- An interpolation that does not look behind the veil comes to the same. -/
theorem endAlike_interpolated
    (overlook : lambdas.Overlook veil)
    (hidden : extra.isSome = true → veil.hidden = some (outer.length + 1))
    (together : World.Veiled veil root base extra outer inner world world')
    {name : Text}
    (spares :
      veil.sparesNamed lambdas world name none (veil.sparesShown lambdas) =
        true) :
    EndAlike (World.Veiled veil root base extra outer inner) excused
      (interpolated lambdas name world) (interpolated lambdas name world') := by
  apply (endAlike_namedValue overlook hidden together spares).bind
  intro value after after' named left
  have shows := further_of_sparesNamed spares named
  rcases value with _ | value
  · exact .inr ⟨rfl, left⟩
  · cases value with
    | lambda lambda =>
      rcases calls : lambda.call lambdas none after.store with ⟨result, called⟩
      simp only [Veil.sparesShown, calls, Bool.and_eq_true] at shows
      apply endAlike_ofEffect_bind (overlook.unseen shows.1 _) left calls
      intro called' left
      rw [map_eq_pure_bind]
      exact (endAlike_textOf left shows.2).bind fun _ _ _ _ left =>
        .inr ⟨rfl, left⟩
    | _ =>
      simp only [madeText, map_eq_pure_bind]
      exact (endAlike_textOf left shows).bind fun _ _ _ _ left =>
        .inr ⟨rfl, left⟩

/--
The items of a section that does not look behind the veil are found alike.
-/
theorem endAlike_sectionItems
    (overlook : lambdas.Overlook veil)
    (hidden : extra.isSome = true → veil.hidden = some (outer.length + 1))
    (together : World.Veiled veil root base extra outer inner world world')
    {kind : TokenKind}
    {name body : Text}
    (spares :
      veil.sparesNamed lambdas world name (some body)
          (veil.sparesItems lambdas kind body) = true) :
    EndAlike (World.Veiled veil root base extra outer inner) excused
      (sectionItems lambdas kind name body world)
      (sectionItems lambdas kind name body world') := by
  apply (endAlike_namedValue overlook hidden together spares).bind
  intro value after after' named left
  have found := further_of_sparesNamed spares named
  unfold madeItems
  split
  · exact .inr ⟨rfl, left⟩
  · rename_i notInverted
    rcases value with _ | value
    · exact .inr ⟨rfl, left⟩
    · cases value with
      | lambda lambda =>
        simp only [Veil.sparesItems, notInverted, beq_iff_eq, Bool.or_eq_true,
          false_or, Bool.and_eq_true] at found
        refine EndAlike.bind
          (agreeAcross_of_unseen (overlook.unseen found.1 _) _ _ left) ?_
        intro result _ _ _ left
        split <;> exact .inr ⟨rfl, left⟩
      | _ => exact .inr ⟨rfl, left⟩

/-- The items of a section that does not look behind the veil can be trusted. -/
theorem trusts_of_sectionItems
    {kind : TokenKind}
    {name body : Text}
    (spares :
      veil.sparesNamed lambdas world name (some body)
          (veil.sparesItems lambdas kind body) = true)
    {items : List Value}
    (made : (sectionItems lambdas kind name body world).1 = .ok (.inl items)) :
    ∀ item ∈ items, veil.trusts item = true := by
  rw [sectionItems, run_bind] at made
  rcases named : namedValue lambdas name (some body) world with
    ⟨stop | value, after⟩
  · rw [named] at made
    cases made
  rw [named] at made
  have found := further_of_sparesNamed spares named
  simp only [madeItems] at made
  split at made
  · cases made
    intro item member
    split at member
    · cases member
    · cases List.mem_singleton.1 member
      rfl
  · rename_i notInverted
    simp only
      [Veil.sparesItems, notInverted, beq_iff_eq, Bool.or_eq_true, false_or]
      at found
    rcases value with _ | value
    · cases made
      simp
    · cases value with
      | lambda lambda =>
        rcases Bool.and_eq_true_iff.1 found with ⟨-, areTrusted⟩
        simp only [run_bind, ofEffect_run] at made
        cases result :
            (lambda.call lambdas (some (String.ofList body)) after.store).1 with
        | string template =>
          rw [result] at made
          cases made
        | _ =>
          rw [result] at made areTrusted
          cases made
          exact List.all_eq_true.1 areTrusted
      | _ =>
        cases made
        exact List.all_eq_true.1 found

/-- A node that does not look behind the veil looks at the same. -/
theorem readAlike_of_spares
    (overlook : lambdas.Overlook veil)
    (hidden : extra.isSome = true → veil.hidden = some (outer.length + 1))
    (together : World.Veiled veil root base extra outer inner world world')
    {node : Node}
    {reader : Reader}
    (spares : veil.sparesNode lambdas world reader node = true) :
    node.ReadAlike lambdas (World.Veiled veil root base extra outer inner)
      excused (fun item => veil.trusts item = true) reader world world' := by
  cases node with
  | leaf token =>
    intro kind
    apply endAlike_interpolated overlook hidden together
    rcases kind with kind | kind | kind <;>
      simpa [Veil.sparesNode, kind] using spares
  | paired opener closer =>
    intro trimmed body startsLine isBody
    simp only [Veil.sparesNode, isBody] at spares
    exact ⟨endAlike_sectionItems overlook hidden together spares,
      fun _ => trusts_of_sectionItems spares⟩

/-- The frames of an item that can be trusted are found alike. -/
theorem agreeAcross_framesOf_trusted
    (overlook : lambdas.Overlook veil)
    {item : Value}
    (trusted : veil.trusts item = true) :
    AgreeAcross (World.Veiled veil root base extra outer inner) excused
      (framesOf lambdas item) (framesOf lambdas item) := by
  intro world world' together
  refine EndAlike.bind
    (agreeAcross_of_unseen (unseen_toPrimitive? overlook trusted) world world'
      together)
    ?_
  intro converted after after' ran left
  have converts : (item.toPrimitive? lambdas world.store).1 = converted := by
    rw [ofEffect_run] at ran
    exact Except.ok.inj (congrArg Prod.fst ran)
  cases isInnermost : converted.getD item with
  | lambda lambda =>
    have callable : veil.trusted lambda.function = true := by
      cases converted with
      | none =>
        rw [Option.getD_none] at isInnermost
        rwa [isInnermost] at trusted
      | some value =>
        rw [Option.getD_some] at isInnermost
        rw [isInnermost] at converts
        exact trusted_of_toPrimitive? overlook trusted converts
    exact (agreeAcross_of_unseen (overlook.unseen callable _)).bind
      (fun _ => .pure _) _ _ left
  | _ => exact .inr ⟨rfl, left⟩

theorem carries_veiled
    (overlook : lambdas.Overlook veil)
    (root base : Value)
    (extra : Option Value)
    (outer : List Value)
    (excused : Stop → Prop) :
    Carries lambdas (World.Veiled veil root base extra outer) excused
      fun item => veil.trusts item = true where
  push frame together :=
    { alike := together.alike
      stack_eq := congrArg (·.push frame) together.stack_eq
      stack_eq' := congrArg (·.push frame) together.stack_eq' }
  pop together :=
    { alike := together.alike
      stack_eq := congrArg ContextStack.pop together.stack_eq
      stack_eq' := congrArg ContextStack.pop together.stack_eq' }
  frames trusted := agreeAcross_framesOf_trusted overlook trusted

/--
Rendering in worlds that differ behind the veil is the same until a node looks
behind it.
-/
theorem agreeAcross_veilWatch
    (overlook : lambdas.Overlook veil)
    (root base : Value)
    (hidden : extra.isSome = true → veil.hidden = some (outer.length + 1))
    (fuel : Nat)
    (inner : List Value)
    (partials : Partials)
    (state : Reader × Delimiters) :
    AgreeAcross (World.Veiled veil root base extra outer inner) (· = .endless)
      ((veilWatch lambdas veil).run fuel partials state)
      ((bufferMachine lambdas).run fuel partials state) := by
  apply agreeAcross_watching (carries_veiled overlook root base extra outer _)
  intro inner world world' state node after reader together goesOn read
  apply readAlike_of_spares overlook hidden together
  simpa [Veil.isLifted, read] using goesOn

end

end Mustache
