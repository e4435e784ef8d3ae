import Mustache.Proofs.Context
import Mustache.Proofs.Value.Depth

/-!
# Pure data

A template that reads from some data comes upon the data itself, the items of
the lists, the values of the maps and what maps convert to.  Data is pure when
no lambda is among them, and no conversion changes the store.  Then a name
stands for the same value whenever it is looked for, whatever section body it is
looked for with, and looking leaves the store as it is.
-/

namespace Mustache

/--
`Value.Yields lambdas store data value`: a template that reads from `data` may
come upon `value`, which a conversion may have made.
-/
inductive Value.Yields
    (lambdas : Lambdas)
    (store : Store)
    (data : Value) : Value → Prop where
  | data : Yields lambdas store data data
  | item
      {items : List Value}
      {value : Value}
      (within : Yields lambdas store data (.list items))
      (member : value ∈ items) :
      Yields lambdas store data value
  | entry
      {owner value : Value}
      {key : String}
      (within : Yields lambdas store data owner)
      (under : owner.get? store key = some value) :
      Yields lambdas store data value
  | converted
      {owner value : Value}
      (within : Yields lambdas store data owner)
      (converts : (owner.toPrimitive? lambdas store).1 = some value) :
      Yields lambdas store data value

/--
Nothing that a template comes upon is a lambda, and no conversion changes the
store.
-/
structure PureData
    (lambdas : Lambdas)
    (store : Store)
    (data : Value) : Prop where
  not_lambda : ∀ lambda, ¬data.Yields lambdas store (.lambda lambda)
  store_eq : ∀ value, data.Yields lambdas store value →
    (value.toPrimitive? lambdas store).2 = store

/-- Is a value no lambda? -/
def Value.isNoLambda : Value → Bool
  | .lambda _ => false
  | _ => true

/-- Functions that change nothing and answer with values without lambdas. -/
structure Lambdas.Pure (lambdas : Lambdas) : Prop where
  store_eq : ∀ function call store, (lambdas.call function call store).2 = store
  answer : ∀ function call store,
    (lambdas.call function call store).1.holdsInDepth Value.isNoLambda = true

/-- What a map converts to is what a function answers, if it converts at all. -/
theorem Value.toPrimitive?_run
    (value : Value)
    (lambdas : Lambdas)
    (store : Store) :
    value.toPrimitive? lambdas store = (none, store) ∨
    ∃ function call,
      value.toPrimitive? lambdas store =
        (some (lambdas.call function call store).1,
          (lambdas.call function call store).2) := by
  cases value with
  | map map =>
    rcases map with ⟨table, _ | primitive⟩
    · exact .inl rfl
    · exact .inr ⟨_, _, rfl⟩
  | _ => exact .inl rfl

theorem Value.convert_of_toPrimitive?
    {value : Value}
    {lambdas : Lambdas}
    {store after : Store}
    {converted : Option Value}
    (converts : value.toPrimitive? lambdas store = (converted, after)) :
    value.convert lambdas store = (converted.getD value, after) := by
  simp only [Value.convert, bind, StateT.bind, converts]
  rfl

/--
With pure functions, data is pure when no lambda is in it and none is in a
table.
-/
theorem pureData_of_isNoLambda
    {lambdas : Lambdas}
    {store : Store}
    {data : Value}
    (functions : lambdas.Pure)
    (tables : store.holdsInDepth Value.isNoLambda = true)
    (free : data.holdsInDepth Value.isNoLambda = true) :
    PureData lambdas store data where
  not_lambda := by
    intro lambda yielded
    suffices holds :
        (Value.lambda lambda).holdsInDepth Value.isNoLambda =
          true by cases holds
    generalize Value.lambda lambda = value at yielded
    induction yielded with
    | data => exact free
    | item within member ih => exact Value.holdsInDepth_of_items ih _ member
    | entry within under ih => exact Store.holdsInDepth_of_get? tables under
    | @converted owner value within converts ih =>
      rcases owner.toPrimitive?_run lambdas store with
        none | ⟨function, call, some⟩
      · rw [none] at converts
        cases converts
      · rw [some] at converts
        cases converts
        exact functions.answer function call store
  store_eq := by
    intro value _
    rcases value.toPrimitive?_run lambdas store with
      none | ⟨function, call, some⟩
    · rw [none]
    · rw [some]
      exact functions.store_eq function call store

/--
Values without lambdas that hold the items of their lists, the values of their
maps, what they convert to, and `true`.
-/
structure PureValues
    (lambdas : Lambdas)
    (store : Store)
    (known : Value → Prop) : Prop where
  not_lambda : ∀ lambda, ¬known (.lambda lambda)
  item : ∀ items, known (.list items) → ∀ item ∈ items, known item
  entry :
    ∀ owner key value,
      known owner → owner.get? store key = some value → known value
  converts : ∀ value, known value → ∃ converted,
    value.toPrimitive? lambdas store = (converted, store) ∧
      ∀ inner, converted = some inner → known inner
  shown : known (.bool true)

/--
What pure data yields, with the value that inverted sections are rendered for.
-/
theorem PureData.values
    {lambdas : Lambdas}
    {store : Store}
    {data : Value}
    (pure : PureData lambdas store data) :
    PureValues lambdas store fun value =>
      value = .bool true ∨ data.Yields lambdas store value where
  not_lambda := by
    rintro lambda (isTrue | yielded)
    · cases isTrue
    · exact pure.not_lambda lambda yielded
  item := by
    rintro items (isTrue | yielded) item member
    · cases isTrue
    · exact .inr (yielded.item member)
  entry := by
    rintro owner key value (rfl | yielded) found
    · cases found
    · exact .inr (yielded.entry found)
  converts := by
    rintro value (rfl | yielded)
    · refine ⟨none, rfl, ?_⟩
      rintro inner ⟨⟩
    · refine ⟨_, Prod.ext rfl (pure.store_eq value yielded), ?_⟩
      exact fun inner converts => .inr (yielded.converted converts)
  shown := .inl rfl

variable {lambdas : Lambdas} {store : Store} {known : Value → Prop}

theorem PureValues.ne_lambda
    (values : PureValues lambdas store known)
    {value : Value}
    (isKnown : known value)
    (lambda : Lambda) :
    value ≠ .lambda lambda := by
  rintro rfl
  exact values.not_lambda lambda isKnown

theorem PureValues.convert
    (values : PureValues lambdas store known)
    {value : Value}
    (isKnown : known value) :
    ∃ converted,
      value.convert lambdas store = (converted, store) ∧ known converted := by
  rcases values.converts value isKnown with ⟨converted, converts, isConverted⟩
  refine ⟨converted.getD value, Value.convert_of_toPrimitive? converts, ?_⟩
  cases converted with
  | none => exact isKnown
  | some inner => exact isConverted inner rfl

namespace ContextStack

/-- All frames of a stack are known. -/
def Within (known : Value → Prop) (stack : ContextStack) : Prop :=
  ∀ frame ∈ stack.frames ++ [stack.root], known frame

variable {stack : ContextStack}

theorem Within.ofRoot
    {root : Value}
    (isKnown : known root) :
    (ofRoot root).Within known := by
  intro frame member
  cases List.mem_singleton.1 member
  exact isKnown

theorem Within.push
    (within : stack.Within known)
    {frame : Value}
    (isKnown : known frame) :
    (stack.push frame).Within known :=
  List.forall_mem_cons.2 ⟨isKnown, within⟩

theorem Within.current (within : stack.Within known) : known stack.current :=
  within _ stack.current_mem

theorem Within.lookup
    (values : PureValues lambdas store known)
    (within : stack.Within known)
    {key : String}
    {value : Value}
    (found : stack.lookup? store key = some value) :
    known value := by
  rcases Option.map_eq_some_iff.1 found with ⟨⟨owner, _⟩, owned, rfl⟩
  rcases get?_of_lookupOwner? owned with ⟨member, inner, under, rfl⟩
  have isKnown := values.entry owner key inner (within owner member) under
  show known (bindTo owner inner)
  rw [bindTo_of_not_lambda (values.ne_lambda isKnown)]
  exact isKnown

/--
Going through scopes of pure data leaves the store as it is, and no body has a
say in it.
-/
theorem descend_of_within
    (values : PureValues lambdas store known)
    (within : stack.Within known)
    (scopes : List String) :
    ∃ scope,
      (∀ text, descend lambdas text stack scopes store = (scope, store)) ∧
      ∀ inner, scope = some inner → inner.Within known := by
  induction scopes generalizing stack with
  | nil =>
    refine ⟨some stack, fun _ => rfl, ?_⟩
    rintro inner ⟨⟩
    exact within
  | cons segment scopes ih =>
    cases found : stack.lookup? store segment with
    | none =>
      refine ⟨none, fun text => by rw [descend_cons, found], ?_⟩
      rintro inner ⟨⟩
    | some value =>
      have isKnown := within.lookup values found
      rcases values.convert isKnown with ⟨converted, converts, isConverted⟩
      rcases ih (.ofRoot isConverted) with ⟨scope, descended, isScope⟩
      refine ⟨scope, ?_, isScope⟩
      intro text
      rw [descend_cons, found]
      simp only [enter_of_not_lambda (values.ne_lambda isKnown), converts]
      exact descended text

/--
A name stands for a value that is known, and looking for it changes nothing.
-/
theorem resolve_of_within
    (values : PureValues lambdas store known)
    (name : Name)
    (within : stack.Within known) :
    ∃ found,
      (∀ text, resolve lambdas stack name text store = (found, store)) ∧
      ∀ value, found = some value → known value := by
  cases name with
  | current =>
    refine ⟨some stack.current, fun _ => rfl, ?_⟩
    rintro value ⟨⟩
    exact within.current
  | path scopes key =>
    rcases descend_of_within values within scopes with
      ⟨scope, descended, isScope⟩
    refine ⟨scope.bind (·.lookup? store key),
      fun text => by rw [resolve_path, descended], ?_⟩
    intro value found
    rcases Option.bind_eq_some_iff.1 found with ⟨inner, rfl, under⟩
    exact (isScope inner rfl).lookup values under

/-- No name stands for a lambda. -/
theorem ne_lambda_of_within
    (values : PureValues lambdas store known)
    {name : Name}
    (within : stack.Within known)
    {text : Option String}
    {found : Option Value}
    (resolved : resolve lambdas stack name text store = (found, store))
    (lambda : Lambda) :
    found.getD .null ≠ .lambda lambda := by
  rcases resolve_of_within values name within with ⟨same, resolves, isKnown⟩
  have isSame : same = found :=
    congrArg Prod.fst ((resolves text).symm.trans resolved)
  rw [isSame] at isKnown
  cases found with
  | none => exact Value.noConfusion
  | some value => exact values.ne_lambda (isKnown value rfl) lambda

end ContextStack

end Mustache
