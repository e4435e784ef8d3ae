import Mustache.Context

/-!
# Looking names up

What looking up a key and going through scopes come to, one equation for each
way they go.  The owner of a key is the frame that has it
(`get?_of_lookupOwner?`), and whoever has gone through a scope looks at that
scope alone (`frames_of_descend`).
-/

namespace Mustache.ContextStack

variable
    {lambdas : Lambdas}
    {store after : Store}
    {stack : ContextStack}
    {key : String}

theorem current_mem (stack : ContextStack) :
    stack.current ∈ stack.frames ++ [stack.root] := by
  unfold ContextStack.current
  cases stack.frames <;> simp

theorem bindTo_of_not_lambda
    {value : Value}
    (notLambda : ∀ lambda, value ≠ .lambda lambda)
    (frame : Value) :
    bindTo frame value = value := by
  cases value with
  | lambda lambda => exact absurd rfl (notLambda lambda)
  | _ => rfl

theorem bindTo_eq_of_not_lambda
    {frame value : Value}
    (notLambda : ∀ lambda, bindTo frame value ≠ .lambda lambda) :
    bindTo frame value = value := by
  cases value with
  | lambda lambda => exact absurd rfl (notLambda (lambda.bind frame))
  | _ => rfl

/-! ## Frames that have a key -/

/--
The owner of a key is a frame that has it, and its value comes back bound to the
owner.
-/
theorem get?_of_lookupOwner?
    {owner value : Value}
    (found : stack.lookupOwner? store key = some (owner, value)) :
    owner ∈ stack.frames ++ [stack.root] ∧
    ∃ inner,
      owner.get? store key = some inner ∧ value = bindTo owner inner := by
  unfold lookupOwner? at found
  generalize stack.frames ++ [stack.root] = frames at found ⊢
  induction frames with
  | nil => cases found
  | cons frame frames ih =>
    unfold findOwner? at found
    cases under : frame.get? store key with
    | none =>
      rw [under] at found
      rcases ih found with ⟨member, has⟩
      exact ⟨List.mem_cons_of_mem _ member, has⟩
    | some inner =>
      rw [under] at found
      cases found
      exact ⟨List.mem_cons_self, inner, under, rfl⟩

/-- A key without an owner is in no frame. -/
theorem get?_of_lookupOwner?_eq_none
    (missing : stack.lookupOwner? store key = none) :
    ∀ frame ∈ stack.frames ++ [stack.root], frame.get? store key = none := by
  unfold lookupOwner? at missing
  generalize stack.frames ++ [stack.root] = frames at missing ⊢
  induction frames with
  | nil => simp
  | cons frame frames ih =>
    unfold findOwner? at missing
    cases under : frame.get? store key with
    | none =>
      rw [under] at missing
      exact List.forall_mem_cons.2 ⟨under, ih missing⟩
    | some inner =>
      rw [under] at missing
      cases missing

/-- With a root alone, a key is looked up in the root. -/
theorem lookup?_of_frames
    (alone : stack.frames = [])
    (store : Store)
    (key : String) :
    stack.lookup? store key =
      (stack.root.get? store key).map (bindTo stack.root) := by
  simp only [lookup?, lookupOwner?, alone, List.nil_append, findOwner?]
  cases stack.root.get? store key <;> rfl

/-! ## Going through scopes -/

/-- A scope that is no lambda is made by converting alone. -/
theorem enter_of_not_lambda
    {value : Value}
    (notLambda : ∀ lambda, value ≠ .lambda lambda)
    (lambdas : Lambdas)
    (text : Option String) :
    enter lambdas text value = value.convert lambdas := by
  funext store
  simp only [enter, Value.convert, bind, StateT.bind]
  rcases value.toPrimitive? lambdas store with ⟨_ | converted, after⟩
  · cases value with
    | lambda lambda => exact absurd rfl (notLambda lambda)
    | _ => rfl
  · rfl

theorem descend_cons
    (lambdas : Lambdas)
    (text : Option String)
    (stack : ContextStack)
    (segment : String)
    (rest : List String)
    (store : Store) :
    descend lambdas text stack (segment :: rest) store =
      match stack.lookup? store segment with
      | none => (none, store)
      | some found =>
        descend lambdas text (ofRoot (enter lambdas text found store).1) rest
          (enter lambdas text found store).2 := by
  simp only [descend, bind, StateT.bind, get, getThe, MonadStateOf.get,
    StateT.get, pure]
  cases stack.lookup? store segment <;> rfl

theorem resolve_path
    (lambdas : Lambdas)
    (stack : ContextStack)
    (scopes : List String)
    (key : String)
    (text : Option String)
    (store : Store) :
    resolve lambdas stack (.path scopes key) text store =
      ((descend lambdas text stack scopes store).1.bind
          (·.lookup? (descend lambdas text stack scopes store).2 key),
        (descend lambdas text stack scopes store).2) := by
  simp only [resolve, bind, StateT.bind]
  rcases descend lambdas text stack scopes store with ⟨_ | scope, after⟩ <;> rfl

theorem resolve_path_nil
    (lambdas : Lambdas)
    (stack : ContextStack)
    (key : String)
    (text : Option String)
    (store : Store) :
    stack.resolve lambdas (.path [] key) text store =
      (stack.lookup? store key, store) :=
  rfl

theorem resolve_path_cons
    (lambdas : Lambdas)
    (stack : ContextStack)
    (segment : String)
    (rest : List String)
    (key : String)
    (text : Option String)
    (store : Store) :
    stack.resolve lambdas (.path (segment :: rest) key) text store =
      match stack.lookup? store segment with
      | none => (none, store)
      | some found =>
        (ofRoot (enter lambdas text found store).1).resolve lambdas
          (.path rest key) text (enter lambdas text found store).2 := by
  rw [resolve_path, descend_cons]
  cases stack.lookup? store segment with
  | none => rfl
  | some found => exact (resolve_path ..).symm

/-- After a scope there are no frames but the root. -/
theorem frames_of_descend
    {text : Option String}
    {scopes : List String}
    {scope : ContextStack}
    (passes : scopes = [] → stack.frames = [])
    (descended :
      descend lambdas text stack scopes store = (some scope, after)) :
    scope.frames = [] := by
  induction scopes generalizing stack store with
  | nil =>
    cases descended
    exact passes rfl
  | cons segment scopes ih =>
    rw [descend_cons] at descended
    cases found : stack.lookup? store segment with
    | none =>
      rw [found] at descended
      cases descended
    | some value =>
      rw [found] at descended
      exact ih (fun _ => rfl) descended

end Mustache.ContextStack
