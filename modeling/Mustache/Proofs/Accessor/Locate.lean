import Mustache.Accessor
import Mustache.Proofs.Context

/-!
# Where an accessor looks

An accessor keeps the owner of what a tag names, and where to look there.  Its
own way of finding them comes to what resolving the name comes to, whatever the
functions do that are called on the way (`Accessor.locate_path`).
-/

namespace Mustache.Accessor

variable {store : Store}

theorem locate_inclusion
    {token : Token}
    (included : token.kind = .inclusion)
    (lambdas : Lambdas)
    (stack : ContextStack)
    (partials : Partials)
    (body : Option Text) :
    locate lambdas stack partials token body =
      pure
        (stack.current,
          .template (partials.get? (String.ofList token.name))) := by
  unfold locate
  rw [included]

theorem locate_current
    {token : Token}
    (named : token.kind ≠ .inclusion)
    (isCurrent : Name.ofText token.name = .current)
    (lambdas : Lambdas)
    (stack : ContextStack)
    (partials : Partials)
    (body : Option Text) :
    locate lambdas stack partials token body =
      pure (stack.current, .owner) := by
  unfold locate
  rw [isCurrent]
  cases kind : token.kind with
  | inclusion => exact absurd kind named
  | _ => rfl

/-- An implicit tag is named by a dot, so a tag with a key is none. -/
theorem not_implicit_of_path
    {token : Token}
    {scopes : List String}
    {key : String}
    (dotted : token.kind = .implicit → token.name = ['.'])
    (isPath : Name.ofText token.name = .path scopes key) :
    token.kind ≠ .implicit := by
  intro isDotted
  rw [dotted isDotted] at isPath
  cases isPath

section Path

variable
    {token : Token}
    {segment key : String}
    {scopes : List String}
    (named : token.kind ≠ .inclusion)
    (notDotted : token.kind ≠ .implicit)
include named notDotted

/--
A key without scopes belongs to the frame that has it, or else to the innermost
one.
-/
theorem locate_key
    (isPath : Name.ofText token.name = .path [] key)
    (lambdas : Lambdas)
    (stack : ContextStack)
    (partials : Partials)
    (body : Option Text)
    (store : Store) :
    locate lambdas stack partials token body store =
      ((((stack.lookupOwner? store key).map Prod.fst).getD stack.current,
        .key key), store) := by
  unfold locate
  rw [isPath]
  cases kind : token.kind with
  | inclusion => exact absurd kind named
  | implicit => exact absurd kind notDotted
  | _ =>
    simp only
      [bind, StateT.bind, get, getThe, MonadStateOf.get, StateT.get, pure]
    rcases stack.lookupOwner? store key with _ | ⟨owner, value⟩ <;> rfl

/-- A key behind scopes belongs to the last scope, if there is one. -/
theorem locate_scoped
    (isPath : Name.ofText token.name = .path (segment :: scopes) key)
    (lambdas : Lambdas)
    (stack : ContextStack)
    (partials : Partials)
    (body : Option Text)
    (store : Store) :
    locate lambdas stack partials token body store =
      (((((stack.descend lambdas (body.map String.ofList) (segment :: scopes)
          store).1).map ContextStack.root).getD .null, .key key),
        (stack.descend lambdas (body.map String.ofList) (segment :: scopes)
          store).2) := by
  unfold locate
  rw [isPath]
  cases kind : token.kind with
  | inclusion => exact absurd kind named
  | implicit => exact absurd kind notDotted
  | _ =>
    simp only [bind, StateT.bind]
    rcases stack.descend lambdas (body.map String.ofList) (segment :: scopes)
        store with ⟨_ | scope, after⟩ <;> rfl

/--
An accessor to a key finds the owner of which rendering takes the value, going
through the same scopes with the same body.
-/
theorem locate_path
    (isPath : Name.ofText token.name = .path scopes key)
    (lambdas : Lambdas)
    (stack : ContextStack)
    (partials : Partials)
    (body : Option Text)
    (store : Store) :
    ∃ owner after,
      locate lambdas stack partials token body store =
        ((owner, .key key), after) ∧
      stack.resolve lambdas (.path scopes key) (body.map String.ofList) store =
        ((owner.get? after key).map (ContextStack.bindTo owner), after) := by
  rw [ContextStack.resolve_path]
  cases scopes with
  | nil =>
    refine ⟨_, _, locate_key named notDotted isPath .., Prod.ext ?_ rfl⟩
    show stack.lookup? store key = _
    rw [ContextStack.lookup?]
    cases owned : stack.lookupOwner? store key with
    | none =>
      have missing :=
        ContextStack.get?_of_lookupOwner?_eq_none owned _ stack.current_mem
      simp [missing]
    | some entry =>
      rcases ContextStack.get?_of_lookupOwner? owned with
        ⟨-, inner, under, isValue⟩
      simp [under, isValue]
  | cons segment scopes =>
    refine ⟨_, _, locate_scoped named notDotted isPath .., Prod.ext ?_ rfl⟩
    rcases descended :
        stack.descend lambdas (body.map String.ofList) (segment :: scopes)
          store with ⟨_ | scope, after⟩
    · rfl
    · have alone : scope.frames = [] :=
        ContextStack.frames_of_descend (by simp) descended
      exact ContextStack.lookup?_of_frames alone after key

end Path

/-- A value that is no lambda is read by converting it. -/
theorem value_of_not_lambda
    {accessor : Accessor}
    (notLambda : ∀ lambda, accessor.stored store ≠ .lambda lambda)
    (lambdas : Lambdas) :
    accessor.value lambdas store =
      (accessor.stored store).convert lambdas store := by
  simp only [value, Value.convert, bind, StateT.bind, get, getThe,
    MonadStateOf.get, StateT.get, pure]
  generalize accessor.stored store = stored at notLambda ⊢
  rcases stored.toPrimitive? lambdas store with ⟨_ | converted, after⟩
  · cases stored with
    | lambda lambda => exact absurd rfl (notLambda lambda)
    | _ => rfl
  · rfl

end Mustache.Accessor
