import Mustache.Proofs.Context

/-!
# Names with dots

Segments that hold no dots, joined by dots, are the segments that the joined
name is read as (`Name.ofText_dotted`).  Such a name is resolved by going from
map to map: the first segment is looked up in the stack, and each further one in
the map under the one before, if these maps have no primitive conversions
(`ContextStack.resolve_dotted`).
-/

namespace Mustache

namespace Name

variable {name next : Text} {names : List Text}

theorem segmentsFrom_of_noDot
    (noDot : '.' ∉ name)
    (segment : Text) :
    segmentsFrom segment name =
      ([], String.ofList (segment.reverse ++ name)) := by
  induction name generalizing segment with
  | nil => rw [segmentsFrom, List.append_nil]
  | cons character name ih =>
    have isOther : character ≠ '.' :=
      fun isDot => noDot (isDot ▸ List.mem_cons_self)
    rw [segmentsFrom, if_neg isOther,
      ih fun member => noDot (List.mem_cons_of_mem _ member)]
    simp

theorem segmentsFrom_dot
    (noDot : '.' ∉ name)
    (segment rest : Text) :
    segmentsFrom segment (name ++ '.' :: rest) =
      (String.ofList (segment.reverse ++ name) :: (segmentsFrom [] rest).1,
        (segmentsFrom [] rest).2) := by
  induction name generalizing segment with
  | nil =>
    rw [List.nil_append, segmentsFrom, if_pos rfl, List.append_nil]
  | cons character name ih =>
    have isOther : character ≠ '.' :=
      fun isDot => noDot (isDot ▸ List.mem_cons_self)
    rw [List.cons_append, segmentsFrom, if_neg isOther,
      ih fun member => noDot (List.mem_cons_of_mem _ member)]
    simp

/-- A name without dots is a key. -/
theorem ofText_key (noDot : '.' ∉ name) :
    ofText name = .path [] (String.ofList name) := by
  have notDot : name ≠ ['.'] := by
    rintro rfl
    exact noDot List.mem_cons_self
  rw [ofText, if_neg notDot, segmentsFrom_of_noDot noDot]
  rfl

/-- The first segment of a name with dots is the outermost scope. -/
theorem ofText_dotted
    (nonempty : name ≠ [])
    (noDot : '.' ∉ name) :
    ofText (['.'].intercalate (name :: next :: names)) =
      .path
        (String.ofList name ::
          (segmentsFrom [] (['.'].intercalate (next :: names))).1)
        (segmentsFrom [] (['.'].intercalate (next :: names))).2 := by
  rcases List.exists_cons_of_ne_nil nonempty with ⟨first, more, rfl⟩
  rw [List.intercalate_cons_cons, List.append_assoc, List.singleton_append]
  have notDot :
      first :: more ++ '.' :: ['.'].intercalate (next :: names) ≠ ['.'] := by
    simp
  rw [ofText, if_neg notDot, segmentsFrom_dot noDot]
  rfl

end Name

/--
A map leads to a value by some names: each one is a key of the map under the one
before, and all maps on the way are without primitive conversion.
-/
inductive MapOf.Reaches (store : Store) :
    MapRef → Text → List Text → Value → Prop where
  | key
      {map : MapRef}
      {name : Text}
      {value : Value}
      (under : map.get? store (String.ofList name) = some value) :
      Reaches store map name [] value
  | through
      {map : MapRef}
      {table : TableId}
      {name next : Text}
      {names : List Text}
      {value : Value}
      (under : map.get? store (String.ofList name) = some (.map ⟨table, none⟩))
      (further : Reaches store ⟨table, none⟩ next names value) :
      Reaches store map name (next :: names) value

namespace ContextStack

variable
    {lambdas : Lambdas}
    {store : Store}
    {stack : ContextStack}
    {map : MapRef}
    {table : TableId}
    {name next : Text}
    {names : List Text}
    {value : Value}

/-- A key of the innermost frame is found there. -/
theorem lookup?_push
    {key : String}
    (under : map.get? store key = some value)
    (notLambda : ∀ lambda, value ≠ .lambda lambda)
    (stack : ContextStack) :
    (stack.push (.map map)).lookup? store key = some value := by
  have found : (Value.map map).get? store key = some value := under
  simp only [lookup?, lookupOwner?, push, List.cons_append, findOwner?, found,
    Option.map_some, bindTo_of_not_lambda notLambda]

/--
A scope that is a map without conversion is gone through by looking at the map
alone.
-/
theorem resolve_through
    {segment : String}
    (scopes : List String)
    (key : String)
    (found : stack.lookup? store segment = some (.map ⟨table, none⟩))
    (text : Option String) :
    stack.resolve lambdas (.path (segment :: scopes) key) text store =
      (ofRoot (.map ⟨table, none⟩)).resolve lambdas (.path scopes key) text
        store := by
  rw [resolve_path_cons, found]
  rfl

theorem resolve_of_reaches
    (reaches : MapOf.Reaches store map name names value)
    (noDot : ∀ segment ∈ name :: names, '.' ∉ segment)
    (notLambda : ∀ lambda, value ≠ .lambda lambda)
    (text : Option String) :
    (ofRoot (.map map)).resolve lambdas
        (.path (Name.segmentsFrom [] (['.'].intercalate (name :: names))).1
          (Name.segmentsFrom [] (['.'].intercalate (name :: names))).2)
        text store =
      (some value, store) := by
  induction reaches with
  | @key map name value under =>
    have found : (Value.map map).get? store (String.ofList name) = some value :=
      under
    rw [List.intercalate_singleton,
      Name.segmentsFrom_of_noDot (noDot name List.mem_cons_self),
      resolve_path_nil, lookup?_of_frames rfl, ofRoot, List.reverse_nil,
      List.nil_append, found, Option.map_some, bindTo_of_not_lambda notLambda]
  | @through map table name next names value under further ih =>
    have found : (Value.map map).get? store (String.ofList name) =
        some (.map ⟨table, none⟩) := under
    rw [List.intercalate_cons_cons, List.append_assoc, List.singleton_append,
      Name.segmentsFrom_dot (noDot name List.mem_cons_self)]
    have first :
        (ofRoot (.map map)).lookup? store
            (String.ofList (([] : Text).reverse ++ name)) =
          some (.map ⟨table, none⟩) := by
      rw [lookup?_of_frames rfl, ofRoot, List.reverse_nil, List.nil_append,
        found]
      rfl
    rw [resolve_through _ _ first]
    exact ih
      (fun segment member => noDot segment (List.mem_cons_of_mem _ member))
      notLambda

/--
A name with dots stands for what the first map leads to by the segments after
the first.
-/
theorem resolve_dotted
    (nonempty : name ≠ [])
    (noDot : ∀ segment ∈ name :: next :: names, '.' ∉ segment)
    (found :
      stack.lookup? store (String.ofList name) = some (.map ⟨table, none⟩))
    (reaches : MapOf.Reaches store ⟨table, none⟩ next names value)
    (notLambda : ∀ lambda, value ≠ .lambda lambda)
    (text : Option String) :
    stack.resolve lambdas
        (Name.ofText (['.'].intercalate (name :: next :: names))) text store =
      (some value, store) := by
  rw [Name.ofText_dotted nonempty (noDot name List.mem_cons_self),
    resolve_through _ _ found]
  exact resolve_of_reaches reaches
    (fun segment member => noDot segment (List.mem_cons_of_mem _ member))
    notLambda text

end ContextStack

end Mustache
