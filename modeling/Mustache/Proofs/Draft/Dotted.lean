import Mustache.Proofs.Draft.Guards
import Mustache.Proofs.Draft.Equivalence
import Mustache.Proofs.Name
import Mustache.Proofs.Scan.Outline
import Mustache.Proofs.Scan.Written

/-!
# Dotted names and sections

A tag with a dotted name shows what the tag with the last segment shows within a
section over the segment before it, and so on outwards, when all values on the
way are maps without primitive conversions (`interpretWithin_dotted`).  The
dotted name is resolved in one go, from map to map.  Each section puts its map
on the stack, where the next name is found first, and renders its body anew,
with signs around it.

What is shown in the end is the same on both sides (`TagForm.shown`), and so is
what stops the rendering, if the value contains itself.
-/

namespace Mustache

open RenderM

namespace TagForm

/-- What a tag makes of the text of a value. -/
def escape : TagForm → Text → Text
  | escaped, text => text.escapeMarkup
  | ampersand, text | tilde, text | triple, text => text

/-- What a tag shows of a value without conversion. -/
def shownOf
    (form : TagForm)
    (store : Store)
    (value : Value) : Except Stop Text :=
  match value.text? store with
  | some text => .ok (form.escape text.toList)
  | none => .error .endless

/-- What a tag shows of a value, and the world that is left. -/
def shown
    (form : TagForm)
    (lambdas : Lambdas)
    (value : Value)
    (world : World) : Except Stop Text × World :=
  (form.shownOf (value.convert lambdas world.store).2
      (value.convert lambdas world.store).1,
    { world with store := (value.convert lambdas world.store).2 })

end TagForm

/-! ## What blocks stand for -/

theorem RenderM.textOf_eq_shownOf
    (value : Value)
    (world : World) :
    textOf value world =
      (TagForm.ampersand.shownOf world.store value, world) := by
  rw [textOf_run, TagForm.shownOf]
  cases value.text? world.store <;> rfl

section

variable
    {lambdas : Lambdas}
    {render : TemplateRenderer}
    {partials : Partials}
    {world : World}
    {value : Value}
    {name body : Text}
    {table : TableId}
    {form : TagForm}

theorem interpolate_eq_shown
    (found :
      world.stack.resolve lambdas (Name.ofText name) none world.store =
        (some value, world.store))
    (notLambda :
      ∀ lambda, (value.convert lambdas world.store).1 ≠ .lambda lambda) :
    interpolate lambdas render name world =
      TagForm.ampersand.shown lambdas value world := by
  have resolved :
      resolve lambdas name none world = (.ok (some value), world) := by
    rw [resolve_run, Option.map_none, found]
  rw [interpolate, run_bind, resolved]
  simp only [run_bind, ofEffect_run, TagForm.shown]
  generalize value.convert lambdas world.store = outcome at notLambda ⊢
  rcases outcome with ⟨converted, store⟩
  cases converted with
  | lambda lambda => exact absurd rfl (notLambda lambda)
  | _ => exact textOf_eq_shownOf _ _

/-- A tag for the text of a name shows what the name stands for. -/
theorem leafText_eq_shown
    (found :
      world.stack.resolve lambdas (Name.ofText name) none world.store =
        (some value, world.store))
    (notLambda :
      ∀ lambda, (value.convert lambdas world.store).1 ≠ .lambda lambda)
    (source indentation : Text) :
    Draft.leafText lambdas render partials ⟨form.kind, name, source, none⟩
        indentation world =
      form.shown lambdas value world := by
  have unescaped : interpolate lambdas render name world = _ :=
    interpolate_eq_shown found notLambda
  cases form with
  | escaped =>
    show (Text.escapeMarkup <$> interpolate lambdas render name) world = _
    rw [map_eq_pure_bind, run_bind, unescaped]
    simp only [TagForm.shown, TagForm.shownOf]
    cases (value.convert lambdas world.store).1.text?
      (value.convert lambdas world.store).2 <;> rfl
  | ampersand | tilde | triple => exact unescaped

/--
A section over a map without conversion renders its body once, with the map on
the stack.
-/
theorem expandBody_of_map
    (noDot : '.' ∉ name)
    (found :
      world.stack.lookup? world.store (String.ofList name) =
        some (.map ⟨table, none⟩))
    {shown : Except Stop Text}
    {store : Store}
    (rendered :
      render (guarded body false) partials .standard
          { world with stack := world.stack.push (.map ⟨table, none⟩) } =
        (shown.map (guarded · false),
          ⟨store, world.stack.push (.map ⟨table, none⟩)⟩)) :
    expandBody lambdas render partials .standard .opener name body false world =
      (shown, ⟨store, world.stack⟩) := by
  have resolved : resolve lambdas name (some body) world =
      (.ok (some (.map ⟨table, none⟩)), world) := by
    rw [resolve_run, Name.ofText_key noDot, ContextStack.resolve_path_nil,
      found]
  have isValue : sectionValue lambdas name body world =
      (.ok (some (.map ⟨table, none⟩)), world) :=
    sectionValue_of_resolve resolved rfl
  have isCalled :
      framesOf lambdas (.map ⟨table, none⟩) ⟨world.store, world.stack⟩ =
        (.ok [.map ⟨table, none⟩], ⟨world.store, world.stack⟩) :=
    rfl
  rw [expandBody_of_single isValue rfl, renderItem_run isCalled rendered]
  cases shown with
  | error => rfl
  | ok text => simp only [Except.map, unguarded_guarded]

end

namespace Draft

variable {lambdas : Lambdas} {partials : Partials} {world : World}

/-- Between solid edges nothing is cut off the body of a section. -/
theorem trimTags_of_solid
    {body : Text}
    {first last : Char}
    (isFirst : body.head? = some first)
    (solidFirst : Text.isBlank first = false)
    (isLast : body.getLast? = some last)
    (solidLast : Text.isBlank last = false)
    (draft : Draft) :
    draft.trimTags body = (none, body, draft) := by
  have noIndentation : body.innerIndentation? = none := by
    rw [Text.innerIndentation?,
      Text.indentationAtEnd?_of_getLast isLast solidLast, ite_self]
  have noLine : body.innerLine? = none := by
    rw [Text.innerLine?, Text.lineAtStart?_of_head isFirst solidFirst, ite_self]
  rw [trimTags, trimCloser_of_none (.inl noIndentation),
    trimOpener_of_none (.inr noLine)]

/-! ## Runs over a single block -/

/--
With the standard pair, a block that takes no line with it is replaced by what
stands for it.
-/
theorem run_block
    {unread rest : Text}
    {block : Block}
    {fuel : Nat}
    {outcome : Except Stop Text × World}
    (result : scanNode .standard unread = .found [] block .standard rest)
    (keeps : ∀ draft : Draft, draft.trimAround block = draft)
    (stands :
      ∀ draft : Draft,
        draft.blockText lambdas ((cautious lambdas).render fuel) partials
            .standard block world = outcome)
    (written : Text)
    (line : Nat) :
    (cautious lambdas).run (fuel + 1) partials
      (⟨written, unread, line⟩, .standard) world =
      match outcome with
      | (.ok made, left) =>
        (cautious lambdas).run fuel partials (⟨written ++ made, rest,
          line + block.source.lineBreaksAfter written.getLast?⟩, .standard) left
      | (.error stop, left) => (.error stop, left) := by
  have solid : ∀ pair ∈ pairsAtNext unread .standard, pair.Solid := by
    simp only [pairsAtNext, result]
    decide
  have step :
      (cautious lambdas).step ((cautious lambdas).render fuel) partials
          (⟨written, unread, line⟩, .standard) =
        Draft.step lambdas ((cautious lambdas).render fuel) partials
          (⟨written, unread, line⟩, .standard) :=
    if_pos solid
  rw [Machine.run_apply, step, step_of_found result, stands, keeps]
  rcases outcome with ⟨_ | made, left⟩
  · rfl
  · simp only [pass, write, List.append_nil, List.nil_append]

theorem run_nothing
    (written : Text)
    (line fuel : Nat) :
    (cautious lambdas).run (fuel + 1) partials (⟨written, [], line⟩, .standard)
        world =
      (.ok written, world) := by
  have finished := scanNode_nil .standard
  have solid : ∀ pair ∈ pairsAtNext [] .standard, pair.Solid := by
    simp only [pairsAtNext, finished]
    decide
  have step :
      (cautious lambdas).step ((cautious lambdas).render fuel) partials
          (⟨written, [], line⟩, .standard) =
        Draft.step lambdas ((cautious lambdas).render fuel) partials
          (⟨written, [], line⟩, .standard) :=
    if_pos solid
  rw [Machine.run_apply, step]
  simp only [Draft.step, finished, List.append_nil]
  rfl

/--
A template that is a single block is rendered to what stands for the block.
-/
theorem render_block
    {template : Text}
    {block : Block}
    {fuel : Nat}
    {outcome : Except Stop Text × World}
    (result : scanNode .standard template = .found [] block .standard [])
    (keeps : ∀ draft : Draft, draft.trimAround block = draft)
    (stands :
      ∀ draft : Draft,
        draft.blockText lambdas ((cautious lambdas).render (fuel + 1)) partials
            .standard block world = outcome) :
    (cautious lambdas).render (fuel + 2) template partials .standard world =
      outcome := by
  refine (run_block result keeps stands [] 1).trans ?_
  rcases outcome with ⟨stop | made, left⟩
  · rfl
  · exact run_nothing made _ fuel

/--
An equals sign is text up to the next tag, and the last one up to the end.
-/
theorem scanNode_sign
    {rest : Text}
    (ends : rest = [] ∨ Delimiters.standard.opening <+: rest) :
    scanNode .standard ('=' :: rest) =
      .found [] (.leaf ⟨.text, ['='], ['='], none⟩) .standard rest := by
  have noBrace : '{' ∉ ['='] := by decide
  exact scanNode_plain noBrace ends (List.cons_ne_nil _ _)

/-- Between signs, a block is replaced by what stands for it, too. -/
theorem render_guarded_block
    {source : Text}
    {block : Block}
    {fuel : Nat}
    {outcome : Except Stop Text × World}
    (opens : ∃ more, source = '{' :: '{' :: more)
    (result :
      scanNode .standard (source ++ ['=']) = .found [] block .standard ['='])
    (keeps : ∀ draft : Draft, draft.trimAround block = draft)
    (stands :
      ∀ draft : Draft,
        draft.blockText lambdas ((cautious lambdas).render (fuel + 2)) partials
            .standard block world = outcome) :
    (cautious lambdas).render (fuel + 4) (guarded source false) partials
        .standard world =
      (outcome.1.map (guarded · false), outcome.2) := by
  have starts : Delimiters.standard.opening <+: source ++ ['='] := by
    rcases opens with ⟨more, rfl⟩
    exact ⟨more ++ ['='], rfl⟩
  have sign {rest : Text}
      (ends : rest = [] ∨ Delimiters.standard.opening <+: rest) (fuel : Nat)
      (world : World) (written : Text) (line : Nat) :
      (cautious lambdas).run (fuel + 1) partials
          (⟨written, '=' :: rest, line⟩, .standard) world =
        (cautious lambdas).run fuel partials
          (⟨written ++ ['='], rest,
            line + Text.lineBreaksAfter written.getLast? ['=']⟩, .standard)
          world :=
    run_block (scanNode_sign ends) (fun _ => trimAround_of_not_takesLine rfl)
      (fun _ => rfl) written line
  refine (sign (.inr starts) (fuel + 3) world [] 1).trans ?_
  refine (run_block result keeps stands _ _).trans ?_
  rcases outcome with ⟨stop | made, left⟩
  · rfl
  · refine (sign (.inl rfl) (fuel + 1) left _ _).trans ?_
    exact run_nothing _ _ fuel

end Draft

/-! ## Nested sections -/

section

variable
    {lambdas : Lambdas}
    {partials : Partials}
    {store : Store}
    {map : MapRef}
    {table : TableId}
    {value : Value}
    {form : TagForm}
    {name next : Text}
    {names : List Text}

/--
A section over a map without conversion stands for what its body shows with the
map.
-/
theorem blockText_of_map
    {render : TemplateRenderer}
    {stack : ContextStack}
    (noDot : '.' ∉ name)
    (found :
      stack.lookup? store (String.ofList name) = some (.map ⟨table, none⟩))
    (rendered :
      render (guarded (nestedTemplate form next names) false) partials .standard
          ⟨store, stack.push (.map ⟨table, none⟩)⟩ =
        ((form.shown lambdas value
            ⟨store, stack.push (.map ⟨table, none⟩)⟩).1.map (guarded · false),
          (form.shown lambdas value
            ⟨store, stack.push (.map ⟨table, none⟩)⟩).2))
    (draft : Draft) :
    draft.blockText lambdas render partials .standard
        (.paired (writtenOpener name) (nestedTemplate form next names)
          (writtenCloser name))
        ⟨store, stack⟩ =
      form.shown lambdas value ⟨store, stack⟩ := by
  rcases nestedTemplate_edges form next names with ⟨⟨more, isStart⟩, isLast⟩
  have isFirst : (nestedTemplate form next names).head? = some '{' := by
    rw [isStart]
    rfl
  have trimmed :=
    Draft.trimTags_of_solid isFirst (by decide) isLast (by decide) draft
  simp only [Draft.blockText, trimmed]
  exact expandBody_of_map noDot found rendered

theorem keeps_section
    (opener closer : Piece)
    (draft : Draft) :
    draft.trimAround (.paired opener (nestedTemplate form next names) closer) =
      draft := by
  rcases nestedTemplate_edges form next names with ⟨⟨more, isStart⟩, isLast⟩
  have isFirst : (nestedTemplate form next names).head? = some '{' := by
    rw [isStart]
    rfl
  simp only [Draft.trimAround,
    Draft.trimTags_of_solid isFirst (by decide) isLast (by decide) draft]

theorem keeps_leaf
    (form : TagForm)
    (name source : Text)
    (draft : Draft) :
    draft.trimAround (.leaf ⟨form.kind, name, source, none⟩) = draft := by
  apply Draft.trimAround_of_not_takesLine
  cases form <;> rfl

/--
With a map on the stack, sections over names that lead from it to a value show
the value.
-/
theorem render_nestedTemplate
    (reaches : MapOf.Reaches store map name names value)
    (fits : ∀ segment ∈ name :: names, segment.FitsTag ∧ '.' ∉ segment)
    (notLambda : ∀ lambda, (value.convert lambdas store).1 ≠ .lambda lambda)
    (form : TagForm)
    (partials : Partials)
    {fuel : Nat}
    (enough : 2 * names.length + 4 ≤ fuel)
    (stack : ContextStack) :
    (Draft.cautious lambdas).render fuel
        (guarded (nestedTemplate form name names) false) partials .standard
        ⟨store, stack.push (.map map)⟩ =
      ((form.shown lambdas value ⟨store, stack.push (.map map)⟩).1.map
          (guarded · false),
        (form.shown lambdas value ⟨store, stack.push (.map map)⟩).2) := by
  have noBrace : (['='] : Text).head? ≠ some '}' := by decide
  have itself (lambda : Lambda) : value ≠ .lambda lambda := by
    rintro rfl
    exact notLambda lambda rfl
  induction reaches generalizing fuel stack with
  | @key map name value under =>
    obtain ⟨less, rfl⟩ : ∃ less, fuel = less + 4 := ⟨fuel - 4, by omega⟩
    rcases fits name List.mem_cons_self with ⟨here, noDot⟩
    have found :
        (stack.push (.map map)).resolve lambdas (Name.ofText name) none store =
          (some value, store) := by
      rw [Name.ofText_key noDot, ContextStack.resolve_path_nil,
        ContextStack.lookup?_push under itself]
    exact Draft.render_guarded_block (nestedTemplate_edges form name []).1
      (scanNode_write form here _ noBrace) (keeps_leaf form name _)
      (fun draft => leafText_eq_shown found notLambda _ _)
  | @through map table name next names value under further ih =>
    obtain ⟨less, rfl⟩ : ∃ less, fuel = less + 4 := ⟨fuel - 4, by omega⟩
    have here := fits name List.mem_cons_self
    have plenty : 2 * names.length + 4 ≤ less + 2 := by
      rw [List.length_cons] at enough
      omega
    have rendered :=
      ih (fun segment member => fits segment (List.mem_cons_of_mem _ member))
        notLambda plenty (stack.push (.map map)) itself
    have found :=
      ContextStack.lookup?_push under (fun _ => Value.noConfusion) stack
    exact Draft.render_guarded_block
      (nestedTemplate_edges form name (next :: names)).1
      (scanNode_writtenSection form
        (fun segment member => (fits segment member).1) ['='])
      (keeps_section _ _) (blockText_of_map here.2 found rendered)

/--
What the cautious renderer ends with for no fault of a pair, rendering in place
ends with.
-/
theorem Draft.interpretWithin_of_cautious
    {world : World}
    {fuel : Nat}
    {template : Text}
    {outcome : Except Stop Text × World}
    (rendered :
      (cautious lambdas).render fuel template partials .standard world =
        outcome)
    (notStopped : outcome.1 ≠ .error .cutsCharacter) :
    interpretWithin lambdas fuel template partials .standard world =
      outcome := by
  have solid : SolidRun lambdas fuel template partials .standard world := by
    rw [SolidRun, rendered]
    exact notStopped
  rw [solid.eq_cautious, rendered]

theorem interpretWithin_of_shown
    {world : World}
    {fuel : Nat}
    {template : Text}
    (rendered :
      (Draft.cautious lambdas).render fuel template partials .standard world =
        form.shown lambdas value world) :
    interpretWithin lambdas fuel template partials .standard world =
      form.shown lambdas value world := by
  apply Draft.interpretWithin_of_cautious rendered
  rw [TagForm.shown, TagForm.shownOf]
  split <;> exact fun stopped => by cases stopped

/--
A name with dots is short for sections: a tag with it is rendered to what the
tag with its last segment is rendered to in sections over the other segments.
The first segment names a map in the stack, each further one a key of the map
under the one before, and the maps that are gone through have no primitive
conversions.  The value that is shown is no lambda and does not convert to one.
-/
theorem interpretWithin_dotted
    {world : World}
    {fuel : Nat}
    (form : TagForm)
    (fits : ∀ segment ∈ name :: next :: names, segment.FitsTag ∧ '.' ∉ segment)
    (found :
      world.stack.lookup? world.store (String.ofList name) =
        some (.map ⟨table, none⟩))
    (reaches : MapOf.Reaches world.store ⟨table, none⟩ next names value)
    (notLambda :
      ∀ lambda, (value.convert lambdas world.store).1 ≠ .lambda lambda)
    (partials : Partials)
    (enough : 2 * names.length + 5 ≤ fuel) :
    interpretWithin lambdas fuel
        (form.write (['.'].intercalate (name :: next :: names))) partials
        .standard world =
      interpretWithin lambdas fuel (nestedTemplate form name (next :: names))
        partials .standard world := by
  obtain ⟨less, rfl⟩ : ∃ less, fuel = less + 2 := ⟨fuel - 2, by omega⟩
  have itself (lambda : Lambda) : value ≠ .lambda lambda := by
    rintro rfl
    exact notLambda lambda rfl
  have fitsDotted :=
    Text.fitsTag_intercalate fun segment member => (fits segment member).1
  have here := fits name List.mem_cons_self
  have resolved :
      world.stack.resolve lambdas
          (Name.ofText (['.'].intercalate (name :: next :: names))) none
          world.store = _ :=
    ContextStack.resolve_dotted here.1.nonempty
      (fun segment member => (fits segment member).2) found reaches itself none
  have alone := scanNode_write form fitsDotted [] (by decide)
  rw [List.append_nil] at alone
  have outermost :=
    scanNode_writtenSection form (fun segment member => (fits segment member).1)
      []
  rw [List.append_nil] at outermost
  have plenty : 2 * names.length + 4 ≤ less + 1 := by omega
  have inside :=
    render_nestedTemplate reaches
      (fun segment member => fits segment (List.mem_cons_of_mem _ member))
      notLambda form partials plenty world.stack
  have dotted :
      (Draft.cautious lambdas).render (less + 2)
          (form.write (['.'].intercalate (name :: next :: names))) partials
          .standard world =
        form.shown lambdas value world :=
    Draft.render_block alone (keeps_leaf form _ _) fun draft =>
      leafText_eq_shown resolved notLambda _ _
  have nested :
      (Draft.cautious lambdas).render (less + 2)
          (writtenSection name (nestedTemplate form next names)) partials
          .standard world =
        form.shown lambdas value world :=
    Draft.render_block outermost (keeps_section _ _)
      (blockText_of_map here.2 found inside)
  rw [interpretWithin_of_shown dotted, nestedTemplate,
    interpretWithin_of_shown nested]

/--
Three names, the second of which is a key of the outer map too, and a value that
is escaped.
-/
theorem interpretWithin_dotted_shadowed :
    let store : Store :=
      ⟨#[[("a", .map ⟨⟨1⟩, none⟩), ("b", .null)],
          [("b", .map ⟨⟨2⟩, none⟩), ("c", .bool true)], [("c", .string "<=>")]]⟩
    let world : World := ⟨store, ⟨.map ⟨⟨0⟩, none⟩, [.string "x"]⟩⟩
    let value : Value := .string "<=>"
    (∀ segment ∈ [['a'], ['b'], ['c']], Text.FitsTag segment ∧ '.' ∉ segment) ∧
    world.stack.lookup? world.store (String.ofList ['a']) =
      some (.map ⟨⟨1⟩, none⟩) ∧
    MapOf.Reaches store ⟨⟨1⟩, none⟩ ['b'] [['c']] value ∧
    interpretWithin .none 8 "\x7b\x7ba.b.c\x7d\x7d".toList [] .standard world =
      interpretWithin .none 8
        ("\x7b\x7b#a\x7d\x7d\x7b\x7b#b\x7d\x7d\x7b\x7bc\x7d\x7d" ++
          "\x7b\x7b/b\x7d\x7d\x7b\x7b/a\x7d\x7d").toList
        [] .standard world := by
  intro store world value
  have fits :
      ∀ segment ∈ [['a'], ['b'], ['c']],
        Text.FitsTag segment ∧ '.' ∉ segment := by
    have one (character : Char) (noBrace : '}' ≠ character)
        (noBlank : Text.isBlank character = false)
        (noModifier :
          TokenKind.ofModifier (some character) = (.interpolation, false))
        (noDot : '.' ≠ character) :
        Text.FitsTag [character] ∧ '.' ∉ [character] :=
      ⟨⟨by simp, by simpa using noBrace, by simpa using noBlank, noModifier⟩,
        by simpa using noDot⟩
    simp only [List.forall_mem_cons]
    exact ⟨one 'a' (by decide) rfl rfl (by decide),
      one 'b' (by decide) rfl rfl (by decide),
      one 'c' (by decide) rfl rfl (by decide), by simp⟩
  have found : world.stack.lookup? world.store (String.ofList ['a']) =
      some (.map ⟨⟨1⟩, none⟩) := by
    rfl
  have under : (⟨⟨1⟩, none⟩ : MapRef).get? store (String.ofList ['b']) =
      some (.map ⟨⟨2⟩, none⟩) := rfl
  have reaches : MapOf.Reaches store ⟨⟨1⟩, none⟩ ['b'] [['c']] value :=
    .through under (.key rfl)
  exact ⟨fits, found, reaches,
    interpretWithin_dotted .escaped fits found reaches
      (fun lambda isLambda => by cases isLambda) [] (by decide)⟩

end

end Mustache
