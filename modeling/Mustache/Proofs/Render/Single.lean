import Mustache.Proofs.Draft.Completion
import Mustache.Proofs.Render.Veil
import Mustache.Proofs.Value.Plain

/-!
# A single value as a list of one

A section over a truthy value that is neither a list nor a lambda is rendered
once, and so is one over the list of that value alone.  The two go different
ways.  What a section's name stands for is converted first, and what it converts
to decides how often the body is rendered and is its only frame.  The item of a
list is pushed as it is, and what it converts to is pushed above it.

So the two differ by the binding of the name, and by a frame if the value has a
conversion.  Both lie behind a veil, and a body that does not look behind it is
rendered alike (`expandBody_single_as_list`).  The conversion has to make a
single value again, which is no map with a conversion of its own; otherwise the
sections differ from the start (`converted_single_differs`).
-/

namespace Mustache

open RenderM

theorem Value.ne_lambda_of_isSingle
    {value : Value}
    (single : value.isSingle = true)
    (lambda : Lambda) :
    value ≠ .lambda lambda := by
  rintro rfl
  cases single

theorem Value.isPlain_of_toPrimitive?_eq_none
    {value : Value}
    (single : value.isSingle = true)
    {lambdas : Lambdas}
    {store : Store}
    (stays : (value.toPrimitive? lambdas store).1 = none) :
    value.isPlain = true := by
  cases value with
  | map map =>
    rcases map with ⟨table, _ | primitive⟩
    · rfl
    · cases stays
  | lambda => cases single
  | _ => rfl

theorem framesOf_of_toPrimitive?
    {lambdas : Lambdas}
    {value : Value}
    {store after : Store}
    {stack : ContextStack}
    {converted : Option Value}
    (converts : value.toPrimitive? lambdas store = (converted, after))
    (single : (converted.getD value).isSingle = true) :
    framesOf lambdas value ⟨store, stack⟩ =
      (.ok (value :: converted.toList), ⟨after, stack⟩) := by
  simp only [framesOf, run_bind, ofEffect_run, converts]
  cases isInnermost : converted.getD value with
  | lambda lambda =>
    exact absurd isInnermost (Value.ne_lambda_of_isSingle single lambda)
  | _ => rfl

/-- A rendering that does not give up is the rendering in place. -/
theorem watching_simulates
    (lambdas : Lambdas)
    (halts : World → Reader × Delimiters → Prop)
    [∀ world state, Decidable (halts world state)] :
    Machine.Simulates (· = .endless) Eq (watching lambdas halts)
      (bufferMachine lambdas) where
  start _ _ := rfl
  step := by
    rintro nested nested' renderers partials state _ rfl world
    rw [watching_step]
    split
    · exact .inl ⟨.endless, rfl, rfl⟩
    · exact (bufferMachine_heeds lambdas).step renderers partials rfl world

/--
Worlds that differ behind the veil render alike, unless a node looks behind it.
-/
theorem interpretWithin_of_veiled
    {lambdas : Lambdas}
    {veil : Veil}
    (overlook : lambdas.Overlook veil)
    {root base : Value}
    {extra : Option Value}
    {outer : List Value}
    (hidden : extra.isSome = true → veil.hidden = some (outer.length + 1))
    {world world' : World}
    (together : World.Veiled veil root base extra outer [] world world')
    {fuel : Nat}
    {template : Text}
    {partials : Partials}
    {delimiters : Delimiters}
    (quiet :
      ((veilWatch lambdas veil).render fuel template partials delimiters
          world).1 ≠
        .error .endless) :
    (interpretWithin lambdas fuel template partials delimiters world').1 =
      (interpretWithin lambdas fuel template partials delimiters world).1 ∧
    veil.Alike
      (interpretWithin lambdas fuel template partials delimiters world).2.store
      (interpretWithin lambdas fuel template partials delimiters
        world').2.store := by
  have watched :
      (veilWatch lambdas veil).render fuel template partials delimiters world =
        (bufferMachine lambdas).render fuel template partials delimiters
          world := by
    apply
      (Machine.agree_render (watching_simulates lambdas _) fuel template
        partials delimiters).run_eq
    rintro stop stopped rfl
    exact quiet stopped
  rw [interpretWithin_eq_render, ← watched]
  rcases agreeAcross_veilWatch overlook root base hidden fuel [] partials
      (Reader.ofText template, delimiters) world world' together with
    ⟨_, stopped, rfl⟩ | ⟨same, left⟩
  · exact absurd stopped quiet
  · exact ⟨same.symm, left.alike⟩

/-- Rendering for an item in the frames that it has. -/
theorem renderItem_interpretWithin
    {lambdas : Lambdas}
    {fuel : Nat}
    {partials : Partials}
    {delimiters : Delimiters}
    {body : Text}
    {startsLine : Bool}
    {item : Value}
    {frames : List Value}
    {store called : Store}
    {stack : ContextStack}
    (isCalled :
      framesOf lambdas item ⟨store, stack⟩ = (.ok frames, ⟨called, stack⟩)) :
    let ended :=
      interpretWithin lambdas fuel (guarded body startsLine) partials delimiters
      ⟨called, frames.foldl ContextStack.push stack⟩
    renderItem lambdas (interpretWithin lambdas fuel) partials delimiters body
        startsLine item ⟨store, stack⟩ =
      (ended.1.map (unguarded · startsLine), ⟨ended.2.store, stack⟩) := by
  intro ended
  have restores := restores_expandRest lambdas fuel partials
    (Reader.ofText (guarded body startsLine), delimiters)
  have left : ended.2.stack = frames.foldl ContextStack.push stack :=
    restores.stack_eq _
  apply renderItem_run isCalled
  exact Prod.ext rfl (congrArg (World.mk ended.2.store) left)

/--
A section over a name that stands for a single value gives the text that it
gives where the name stands for the list of that value and the worlds differ by
that binding alone.  What the value converts to, if anything, has to be a single
value without a conversion of its own.

Whatever is rendered for the body may not look behind the veil: it looks up
neither the binding nor a key of the value that was converted, shows no value
that contains the table of the binding, and calls no function that may look at
the binding.
-/
theorem expandBody_single_as_list
    {lambdas : Lambdas}
    {veil : Veil}
    (overlook : lambdas.Overlook veil)
    {name body : Text}
    {world world' single listed : World}
    {value : Value}
    {converted : Option Value}
    {called : Store}
    (named :
      resolve lambdas name (some body) world = (.ok (some value), single))
    (named' :
      resolve lambdas name (some body) world' =
        (.ok (some (.list [value])), listed))
    (stack_eq : single.stack = listed.stack)
    (alike : veil.Alike listed.store single.store)
    (isSingle : value.isSingle = true)
    (trusted : veil.trusts value = true)
    (converts : value.toPrimitive? lambdas listed.store = (converted, called))
    (plain : ∀ inner ∈ converted, inner.isSingle = true ∧ inner.isPlain = true)
    (hidden : veil.hidden = converted.map fun _ => listed.stack.depth)
    (fuel : Nat)
    (partials : Partials)
    (delimiters : Delimiters)
    (startsLine : Bool)
    (quiet :
      ((veilWatch lambdas veil).render fuel (guarded body startsLine) partials
          delimiters
          ⟨called,
            (value :: converted.toList).foldl ContextStack.push
              listed.stack⟩).1 ≠
        .error .endless) :
    let ended :=
      expandBody lambdas (interpretWithin lambdas fuel) partials delimiters
        .opener
      name body startsLine world
    let ended' :=
      expandBody lambdas (interpretWithin lambdas fuel) partials delimiters
        .opener name body startsLine world'
    ended.1 = ended'.1 ∧ veil.Alike ended'.2.store ended.2.store := by
  rcases single with ⟨store, stack⟩
  rcases listed with ⟨store', _⟩
  cases stack_eq
  rcases unseen_toPrimitive? overlook trusted _ _ alike with ⟨same, alikeCalled⟩
  rcases converts' : value.toPrimitive? lambdas store with ⟨converted', called'⟩
  rw [converts, converts'] at same alikeCalled
  cases same
  have base :
      (converted.getD value).isSingle = true ∧
      (converted.getD value).isPlain = true := by
    cases converted with
    | none =>
      have stays : (value.toPrimitive? lambdas store).1 = none := by
        rw [converts']
      exact ⟨isSingle, Value.isPlain_of_toPrimitive?_eq_none isSingle stays⟩
    | some inner => exact plain inner rfl
  have stays :
      (converted.getD value).toPrimitive? lambdas called' =
        (none, called') := by
    rw [toPrimitive?_of_isPlain base.2]
    rfl
  have frames : framesOf lambdas (converted.getD value) ⟨called', stack⟩ =
      (.ok [converted.getD value], ⟨called', stack⟩) :=
    framesOf_of_toPrimitive? stays base.1
  have frames' : framesOf lambdas value ⟨store', stack⟩ =
      (.ok (value :: converted.toList), ⟨called, stack⟩) :=
    framesOf_of_toPrimitive? converts base.1
  have together : World.Veiled veil stack.root (converted.getD value)
      (converted.map fun _ => value) stack.frames []
      ⟨called, (value :: converted.toList).foldl ContextStack.push stack⟩
      ⟨called', [converted.getD value].foldl ContextStack.push stack⟩ :=
    { alike := alikeCalled
      stack_eq := by cases converted <;> rfl
      stack_eq' := rfl }
  have below : (converted.map fun _ => value).isSome = true →
      veil.hidden = some (stack.frames.length + 1) := by
    rw [hidden]
    cases converted with
    | none => simp
    | some inner => exact fun _ => rfl
  have rendered := interpretWithin_of_veiled overlook below together quiet
  have value' :=
    sectionValue_of_resolve named (Value.convert_of_toPrimitive? converts')
  have list' : sectionValue lambdas name body world' =
      (.ok (some (.list [value])), ⟨store', stack⟩) :=
    sectionValue_of_resolve named' rfl
  intro ended ended'
  simp only [ended, ended', expandBody_of_single value' base.1,
    expandBody_of_singleton list', renderItem_interpretWithin frames,
    renderItem_interpretWithin frames']
  exact ⟨congrArg (Except.map (unguarded · startsLine)) rendered.1, rendered.2⟩

/--
A price that shows its amount, next to a lambda that reads the binding and is
not called.
-/
theorem expandBody_single_as_list_price :
    let root : Value := .map ⟨⟨0⟩, none⟩
    let lambdas : Lambdas :=
      ⟨fun function _ store => (if function = ⟨0⟩ then .string "$1"
        else (root.get? store "p").getD .null, store), fun _ _ => pure ()⟩
    let price : Value := .map ⟨⟨1⟩, some ⟨⟨0⟩, none, none⟩⟩
    let world (bound : Value) : World :=
      ⟨⟨#[[("f", .lambda ⟨⟨1⟩, none, none⟩), ("n", .string "<"), ("p", bound)],
        [("c", .string "100")]]⟩, ⟨root, [.string "x"]⟩⟩
    let partials : Partials := [("q", "\x7b\x7b#.\x7d\x7d!\x7b\x7b/.\x7d\x7d")]
    let body := "<.><#n><.></n><@q>".toList
    let text (bound : Value) :=
      (expandBody lambdas (interpretWithin lambdas 20) partials ⟨['<'], ['>']⟩
        .opener ['p'] body false (world bound)).1
    text price = .ok "$1&lt;!".toList ∧
    text (.list [price]) = .ok "$1&lt;!".toList := by
  intro root lambdas price world partials body text
  let veil : Veil := ⟨⟨0⟩, "p", some 2, (· == ⟨0⟩)⟩
  have overlook : lambdas.Overlook veil :=
    { unseen := by
        intro function trusted call store store' alike
        rw [beq_iff_eq.1 trusted]
        exact ⟨rfl, alike⟩
      answer := by
        intro function trusted call store lambda answers
        rw [beq_iff_eq.1 trusted] at answers
        cases answers }
  have alike :
      veil.Alike (world (.list [price])).store (world price).store := by
    refine ⟨rfl, ?_, rfl⟩
    rintro ⟨_ | _ | index⟩ different
    · exact absurd rfl different
    · rfl
    · rfl
  have named (bound : Value)
      (isBound : ContextStack.bindTo root bound = bound) :
      resolve lambdas ['p'] (some body) (world bound) =
        (.ok (some bound), world bound) :=
    congrArg (fun found => (Except.ok (some found), world bound)) isBound
  have plain : ∀ inner ∈ some (Value.string "$1"),
      inner.isSingle = true ∧ inner.isPlain = true := by
    rintro inner ⟨⟩
    exact ⟨rfl, rfl⟩
  have same : text price = text (.list [price]) :=
    (expandBody_single_as_list overlook (named price rfl)
      (named (.list [price]) rfl) rfl alike rfl rfl rfl plain rfl 20 partials
      ⟨['<'], ['>']⟩ false (by decide +kernel)).1
  rw [same, and_self]
  decide +kernel

/--
A section over a single value that has a conversion may differ from the section
over its list: where the conversion makes a value that is not truthy, a list or
a lambda, where that has a conversion again, and where the body reads a key of
the value.
-/
theorem converted_single_differs :
    let answers : List Value :=
      [.string "", .list [.string "a", .string "b"], .lambda ⟨⟨4⟩, none, none⟩,
        .map ⟨⟨1⟩, some ⟨⟨5⟩, none, none⟩⟩, .string "d", .map ⟨⟨2⟩, none⟩]
    let lambdas : Lambdas :=
      ⟨fun function _ => pure (answers.getD function.index .null),
        fun _ _ => pure ()⟩
    let single (function table : Nat) : Value :=
      .map ⟨⟨table⟩, some ⟨⟨function⟩, none, none⟩⟩
    let text (bound : Value) (body : String) : Except Stop Text :=
      (interpretWithin lambdas 20 ("<#p>" ++ body ++ "</p>").toList []
        ⟨['<'], ['>']⟩
        ⟨⟨#[[("p", bound)], [], [("k", .string "v")]]⟩,
          .ofRoot (.map ⟨⟨0⟩, none⟩)⟩).1
    (text (single 0 1) "x" = .ok [] ∧
      text (.list [single 0 1]) "x" = .ok ['x']) ∧
    (text (single 1 1) "x" = .ok ['x', 'x'] ∧
      text (.list [single 1 1]) "x" = .ok ['x']) ∧
    (text (single 2 1) "x" = .ok ['d'] ∧
      text (.list [single 2 1]) "x" = .ok ['x']) ∧
    (text (single 3 1) "<k>" = .ok ['v'] ∧
      text (.list [single 3 1]) "<k>" = .ok []) ∧
    (text (single 4 2) "<k>" = .ok [] ∧
      text (.list [single 4 2]) "<k>" = .ok ['v']) := by
  decide +kernel

end Mustache
