import Mustache.Engine
import Mustache.Proofs.Value.Depict

/-!
# Data with further entries

Further entries for a rendering are merged into the data: the data has its own
entries over theirs.  A name that is found in the data stands for the same value
with them (`Engine.withContext_adds`).  This is so for objects; of any other
data nothing is left (`Engine.withContext_drops`).
-/

namespace Mustache

/-! ## Looking into structured data -/

namespace Json

/-- The data that a key leads to behind the keys of some scopes. -/
def lookup? : Json → List String → String → Option Json
  | json, [], key => json.get? key
  | json, segment :: scopes, key =>
    (json.get? segment).bind (·.lookup? scopes key)

end Json

namespace ContextStack

variable {lambdas : Lambdas} {store : Store} {value : Value} {json : Json}

theorem lookup?_ofRoot
    (depicts : value.Depicts store json)
    (key : String) :
    (ofRoot value).lookup? store key = value.get? store key := by
  rw [lookup?_of_frames rfl, ofRoot]
  have rel := depicts.get?_rel key
  generalize value.get? store key = found, json.get? key = data at rel
  cases rel with
  | none => rfl
  | some inner => rw [Option.map_some, bindTo_of_not_lambda inner.ne_lambda]

/--
In plain data a name stands for a value that depicts what the name leads to.
-/
theorem resolve_rel
    (depicts : value.Depicts store json)
    (plain : PlainData store value)
    (lambdas : Lambdas)
    (scopes : List String)
    (key : String)
    (text : Option String) :
    ∃ found,
      (ofRoot value).resolve lambdas (.path scopes key) text store =
        (found, store) ∧
      Option.Rel (Value.Depicts store) found (json.lookup? scopes key) := by
  induction scopes generalizing value json with
  | nil =>
    exact ⟨_, resolve_path_nil ..,
      lookup?_ofRoot depicts key ▸ depicts.get?_rel key⟩
  | cons segment scopes ih =>
    rw [resolve_path_cons, lookup?_ofRoot depicts, Json.lookup?]
    have rel := depicts.get?_rel segment
    cases under : value.get? store segment with
    | none =>
      rw [under] at rel
      generalize json.get? segment = data at rel
      cases rel
      exact ⟨none, rfl, .none⟩
    | some scope =>
      rw [under] at rel
      generalize json.get? segment = data at rel
      rcases rel with ⟨inner⟩
      have plainScope := plain.get? under
      have unconverted : scope.toPrimitive? lambdas store = (none, store) := by
        rw [toPrimitive?_of_isPlain (plainScope scope .data)]
        rfl
      have entered : enter lambdas text scope store = (scope, store) := by
        rw [enter_of_not_lambda inner.ne_lambda,
          Value.convert_of_toPrimitive? unconverted]
        rfl
      simp only [entered]
      exact ih inner plainScope

end ContextStack

namespace Engine

variable {entries : Entries Json}

/-- What a key leads to in the data, it leads to with further entries, too. -/
theorem lookup?_withContext
    (sorted : entries.Sorted)
    (context : Entries Json)
    {scopes : List String}
    {key : String}
    {found : Json}
    (leads : (Json.object entries).lookup? scopes key = some found) :
    (withContext context (.object entries)).lookup? scopes key =
      some found := by
  have first {segment : String} {inner : Json}
      (under : Entries.get? entries segment = some inner) :
      (withContext context (.object entries)).get? segment = some inner := by
    show Entries.get? (context.insertAll entries) segment = some inner
    rw [Entries.get?_insertAll sorted, under]
    rfl
  cases scopes with
  | nil => exact first leads
  | cons segment scopes =>
    rcases Option.bind_eq_some_iff.1 leads with ⟨inner, under, further⟩
    exact Option.bind_eq_some_iff.2 ⟨inner, first under, further⟩

/-- Without further entries the data is what it was. -/
theorem withContext_nil (sorted : entries.Sorted) :
    withContext [] (.object entries) = .object entries :=
  congrArg Json.object (Entries.ofList_of_sorted sorted)

/--
Further entries only add to data that is an object.  Without any, a template is
rendered as before; and with them, a name that is found in the data stands for a
value that depicts the same structured data.
-/
theorem withContext_adds (sorted : entries.Sorted) :
    (∀ (engine : Engine) (template : String),
      engine.renderWithContext template (.object entries) [] =
        engine.render template (.object entries)) ∧
    ∀ (context : Entries Json) (lambdas : Lambdas) (name : Text)
        (text : Option String),
      name ≠ ['.'] →
      let (data, store) := (Value.ofJson (.object entries)).run .empty
      let (merged, after) :=
        (Value.ofJson (withContext context (.object entries))).run .empty
      ∀ found stays,
        (ContextStack.ofRoot data).resolve lambdas (Name.ofText name) text
            store =
          (some found, stays) →
        ∃ same json,
          (ContextStack.ofRoot merged).resolve lambdas (Name.ofText name) text
              after =
            (some same, after) ∧
          found.Depicts store json ∧
          same.Depicts after json := by
  constructor
  · intro engine template
    rw [renderWithContext, withContext_nil sorted]
  · intro context lambdas name text notDot
    rcases segments : Name.segmentsFrom [] name with ⟨scopes, key⟩
    have isPath : Name.ofText name = .path scopes key := by
      rw [Name.ofText, if_neg notDot, segments]
    rw [isPath]
    intro found stays resolved
    rcases ContextStack.resolve_rel
        (Value.depicts_ofJson (.object entries) .empty).2 (plainData_ofJson _)
        lambdas scopes key text with ⟨inData, resolvedData, rel⟩
    rcases ContextStack.resolve_rel
        (Value.depicts_ofJson (withContext context (.object entries)) .empty).2
        (plainData_ofJson _) lambdas scopes key text with
      ⟨inMerged, resolvedMerged, relMerged⟩
    have isFound : inData = some found :=
      congrArg Prod.fst (resolvedData.symm.trans resolved)
    subst isFound
    generalize leads : (Json.object entries).lookup? scopes key = there at rel
    rcases rel with ⟨depicts⟩
    rw [lookup?_withContext sorted context leads] at relMerged
    rcases relMerged with ⟨again⟩
    exact ⟨_, _, resolvedMerged, depicts, again⟩

/--
A key within the data is found, though there is a further entry with the key
around it.
-/
theorem withContext_adds_nested :
    let entries := [("a", Json.object [("b", .number (.int 1))]), ("v", .null)]
    let context := [("a", Json.string "x"), ("z", .bool true)]
    let (data, store) := (Value.ofJson (.object entries)).run .empty
    let (merged, after) :=
      (Value.ofJson (withContext context (.object entries))).run .empty
    let name := Name.ofText "a.b".toList
    Entries.Sorted entries ∧
    (ContextStack.ofRoot data).resolve .none name none store =
      (some (.number (.int 1)), store) ∧
    ∃ same json,
      (ContextStack.ofRoot merged).resolve .none name none after =
        (some same, after) ∧
      (Value.number (.int 1)).Depicts store json ∧
      same.Depicts after json := by
  intro entries context
  have sorted : Entries.Sorted entries := by
    unfold Entries.Sorted
    decide
  exact ⟨sorted, rfl,
    (withContext_adds sorted).2 context .none "a.b".toList none (by decide) _ _
      rfl⟩

/-- Data that is no object is lost, even without any further entries. -/
theorem withContext_drops :
    standard.render "\x7b\x7b.\x7d\x7d" (.string "x") = .ok ['x'] ∧
    standard.renderWithContext "\x7b\x7b.\x7d\x7d" (.string "x") [] =
      .ok ['\x7b', '\x7d'] := by
  decide +kernel

end Engine

end Mustache
