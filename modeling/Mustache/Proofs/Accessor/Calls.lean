import Mustache.Proofs.Accessor.Locate
import Mustache.Proofs.Accessor.Stream
import Mustache.Proofs.Render.Stack

/-!
# Which calls accessors and rendering make

Where a name leads to a lambda that a map holds, getting its value calls the
lambda and so does rendering the tag.  Both go the same way to it
(`ContextStack.LeadsTo`): a lambda on the way is called with the map that holds
it and with the body of the tag, if it has one.

They differ in two things.  An accessor hands over the body as it stands in the
template, while rendering cuts the lines of the section's tags first, where
these are alone on them (`Reader.Takes`).  And an accessor leaves a lambda its
own receiver if it has one, while rendering binds it to the map that holds it in
any case.  So the calls are the same where nothing is cut and the lambda has no
receiver of its own (`inspect_calls_like_rendering`).
-/

namespace Mustache

open RenderM

variable
    {lambdas : Lambdas}
    {partials : Partials}
    {stack : ContextStack}
    {store after : Store}
    {owner : Value}
    {lambda bound : Lambda}
    {scopes : List String}
    {key : String}

/-! ## Names that lead to lambdas -/

namespace ContextStack

/--
Scopes and a key lead from a store to a lambda that its owner holds.  A lambda
on the way is called with the frame that holds it and the text, and any other
value on the way is converted, which may leave another store.
-/
inductive LeadsTo
    (lambdas : Lambdas)
    (text : Option String) :
    ContextStack → List String → String → Store → Value → Lambda → Store → Prop
  | here
      {stack : ContextStack}
      {key : String}
      {store : Store}
      {owner value : Value}
      {lambda : Lambda}
      (isOwner : stack.lookupOwner? store key = some (owner, value))
      (holds : owner.get? store key = some (.lambda lambda)) :
      LeadsTo lambdas text stack [] key store owner lambda store
  | call
      {stack : ContextStack}
      {segment key : String}
      {scopes : List String}
      {store after : Store}
      {frame value owner : Value}
      {called lambda : Lambda}
      (isOwner : stack.lookupOwner? store segment = some (frame, value))
      (holds : frame.get? store segment = some (.lambda called))
      (onward :
        LeadsTo lambdas text
          (ofRoot (lambdas.call called.function ⟨some frame, text⟩ store).1)
          scopes key (lambdas.call called.function ⟨some frame, text⟩ store).2
          owner lambda after) :
      LeadsTo lambdas text stack (segment :: scopes) key store owner lambda
        after
  | convert
      {stack : ContextStack}
      {segment key : String}
      {scopes : List String}
      {store after : Store}
      {value owner : Value}
      {lambda : Lambda}
      (found : stack.lookup? store segment = some value)
      (notLambda : ∀ lambda, value ≠ .lambda lambda)
      (onward :
        LeadsTo lambdas text (ofRoot (value.convert lambdas store).1) scopes key
          (value.convert lambdas store).2 owner lambda after) :
      LeadsTo lambdas text stack (segment :: scopes) key store owner lambda
        after

variable {text : Option String}

theorem LeadsTo.holds
    (leads : LeadsTo lambdas text stack scopes key store owner lambda after) :
    owner.get? after key = some (.lambda lambda) := by
  induction leads with
  | here _ holds => exact holds
  | call _ _ _ ih | convert _ _ _ ih => exact ih

/--
Where a lambda is found, it is one that its owner holds, bound to the owner.
-/
theorem holds_of_lookup?
    (found : stack.lookup? store key = some (.lambda bound)) :
    ∃ owner lambda,
      stack.lookupOwner? store key = some (owner, .lambda bound) ∧
      owner.get? store key = some (.lambda lambda) ∧
      bound = lambda.bind owner := by
  rcases Option.map_eq_some_iff.1 found with ⟨⟨owner, _⟩, isOwner, rfl⟩
  rcases get?_of_lookupOwner? isOwner with ⟨-, inner, holds, same⟩
  cases inner with
  | lambda lambda =>
    cases same
    exact ⟨owner, lambda, isOwner, holds, rfl⟩
  | _ => cases same

/--
A name that resolves to a lambda leads to one that a map holds, which need not
be bound to the frame that it comes back bound to.
-/
theorem leadsTo_of_resolve
    (resolved :
      stack.resolve lambdas (.path scopes key) text store =
        (some (.lambda bound), after)) :
    ∃ owner lambda,
      LeadsTo lambdas text stack scopes key store owner lambda after ∧
      bound = lambda.bind owner := by
  rw [resolve_path] at resolved
  induction scopes generalizing stack store with
  | nil =>
    rcases Prod.ext_iff.1 resolved with ⟨found, rfl⟩
    rcases holds_of_lookup? found with ⟨owner, lambda, isOwner, holds, same⟩
    exact ⟨owner, lambda, .here isOwner holds, same⟩
  | cons segment scopes ih =>
    rw [descend_cons] at resolved
    cases found : stack.lookup? store segment with
    | none =>
      rw [found] at resolved
      cases resolved
    | some value =>
      rw [found] at resolved
      rcases ih resolved with ⟨owner, lambda, onward, same⟩
      refine ⟨owner, lambda, ?_, same⟩
      by_cases isLambda : ∃ called, value = .lambda called
      · rcases isLambda with ⟨_, rfl⟩
        rcases holds_of_lookup? found with ⟨frame, called, isOwner, holds, rfl⟩
        exact .call isOwner holds onward
      · rw [not_exists] at isLambda
        rw [enter_of_not_lambda isLambda] at onward
        exact .convert found isLambda onward

end ContextStack

namespace Accessor

/-- What a name resolves to belongs to the owner that an accessor keeps. -/
theorem locate_of_resolve
    {token : Token}
    {body : Option Text}
    (named : token.kind ≠ .inclusion)
    (notDotted : token.kind ≠ .implicit)
    (isPath : Name.ofText token.name = .path scopes key)
    (resolved :
      stack.resolve lambdas (.path scopes key) (body.map String.ofList) store =
        (some (.lambda (lambda.bind owner)), after))
    (partials : Partials) :
    locate lambdas stack partials token body store =
      ((owner, .key key), after) := by
  rcases locate_path named notDotted isPath lambdas stack partials body
      store with ⟨found, left, located, same⟩
  rw [resolved] at same
  rcases Prod.ext_iff.1 same with ⟨isBound, rfl⟩
  rcases Option.map_eq_some_iff.1 isBound.symm with ⟨value, -, isLambda⟩
  cases value with
  | lambda inner =>
    have isOwner : some found = some owner :=
      congrArg LambdaOf.receiver (Value.lambda.inj isLambda)
    cases isOwner
    exact located
  | _ => cases isLambda

/--
A stored lambda is called with its own receiver, or else with the owner, and the
body.
-/
theorem value_of_lambda
    {accessor : Accessor}
    (isKey : accessor.target = .key key)
    (holds : accessor.owner.get? store key = some (.lambda lambda))
    (lambdas : Lambdas) :
    accessor.value lambdas store =
      lambdas.call lambda.function
        ⟨some (lambda.receiver.getD accessor.owner),
          accessor.body.map String.ofList⟩
        store := by
  rcases accessor with ⟨token, owner, target, body⟩
  cases isKey
  cases owner with
  | map map =>
    have isStored :
        (Accessor.mk token (.map map) (.key key) body).stored store =
          .lambda lambda := by
      show ((Value.map map).get? store key).getD .null = _
      rw [holds]
      rfl
    rcases lambda with ⟨function, setter, receiver⟩
    simp only [value, bind, StateT.bind, get, getThe, MonadStateOf.get,
      StateT.get, pure, isStored]
    cases receiver <;> rfl
  | _ => cases holds

end Accessor

/-! ## Calls for names -/

/--
Whatever lambda a name resolves to from a store, scopes and a key lead to it,
and it is then put to a given use.
-/
def ContextStack.LeadsOn
    (stack : ContextStack)
    (lambdas : Lambdas)
    (name : Name)
    (text : Option String)
    (store : Store)
    (use : String → Value → Lambda → Store → Prop) : Prop :=
  ∀ {scopes key bound after},
    name = .path scopes key →
    stack.resolve lambdas name text store = (some (.lambda bound), after) →
    ∃ owner lambda,
      stack.LeadsTo lambdas text scopes key store owner lambda after ∧
      use key owner lambda after

theorem ContextStack.LeadsOn.of_resolve
    {name : Name}
    {text : Option String}
    {use : String → Value → Lambda → Store → Prop}
    (uses :
      ∀ {scopes key owner lambda after},
        name = .path scopes key →
        stack.resolve lambdas name text store =
          (some (.lambda (lambda.bind owner)), after) →
        owner.get? after key = some (.lambda lambda) →
        use key owner lambda after) :
    stack.LeadsOn lambdas name text store use := by
  intro scopes key bound after isPath resolved
  rw [isPath] at resolved
  rcases leadsTo_of_resolve resolved with ⟨owner, lambda, leads, rfl⟩
  exact ⟨owner, lambda, leads,
    uses isPath (by rw [isPath, resolved]) leads.holds⟩

/--
What an accessor calls.  Where its name resolves to a lambda, it keeps the owner
of the lambda and the key that the owner has it under.  The value of a lambda
that its owner has under its key is what a call of the lambda returns, with the
receiver of the lambda or else the owner, and with the body.
-/
structure Accessor.Calls
    (accessor : Accessor)
    (lambdas : Lambdas)
    (stack : ContextStack)
    (partials : Partials) : Prop where
  finds (store : Store) :
    accessor.token.kind ≠ .inclusion →
    stack.LeadsOn lambdas (Name.ofText accessor.token.name)
      (accessor.body.map String.ofList) store fun key owner lambda after =>
        locate lambdas stack partials accessor.token accessor.body store =
            ((owner, .key key), after) ∧
          owner.get? after key = some (.lambda lambda)
  gets {key : String} {lambda : Lambda} {store : Store} :
    accessor.target = .key key →
    accessor.owner.get? store key = some (.lambda lambda) →
    accessor.value lambdas store =
      lambdas.call lambda.function
        ⟨some (lambda.receiver.getD accessor.owner),
          accessor.body.map String.ofList⟩
        store

theorem Accessor.IsFor.calls
    {accessor : Accessor}
    {block : Block}
    (isFor : accessor.IsFor block)
    (lambdas : Lambdas)
    (stack : ContextStack)
    (partials : Partials) :
    accessor.Calls lambdas stack partials where
  finds store named := by
    apply ContextStack.LeadsOn.of_resolve
    intro scopes key owner lambda after isPath resolved holds
    have notDotted : accessor.token.kind ≠ .implicit := by
      intro isDotted
      rw [isFor.dotted isDotted] at isPath
      cases isPath
    rw [isPath] at resolved
    exact ⟨locate_of_resolve named notDotted isPath resolved partials, holds⟩
  gets isKey holds := value_of_lambda isKey holds lambdas

/-! ## Calls from rendering -/

/--
What is made of the answer of a section's lambda: a text is rendered, and else
its items.
-/
def sectionText
    (lambdas : Lambdas)
    (render : TemplateRenderer)
    (partials : Partials)
    (delimiters : Delimiters)
    (body : Text)
    (startsLine : Bool) : Value → RenderM Text
  | .string template => render template.toList partials delimiters
  | result =>
    renderItems lambdas render partials delimiters body startsLine
      (itemsOf result)

/--
What is made of the answer of an interpolation's lambda: its text is rendered.
-/
def interpolationText
    (render : TemplateRenderer)
    (result : Value) : RenderM Text := do
  render (← textOf result) [] .standard

variable {name body : Text} {world : World}

theorem interpolate_of_resolve
    (resolved :
      world.stack.resolve lambdas (Name.ofText name) none world.store =
        (some (.lambda lambda), after))
    (render : TemplateRenderer) :
    interpolate lambdas render name world =
      (ofEffect (lambda.call lambdas none) >>= interpolationText render)
        { world with store := after } := by
  rw [interpolate, run_bind, resolve_run]
  simp only [Option.map_none, resolved]
  rfl

theorem expandLeaf_eq_interpolate
    {token : Token}
    (reads : token.kind.readsContext = true)
    (single : ¬token.kind.opensSection = true)
    (named : token.kind ≠ .inclusion)
    (lambdas : Lambdas)
    (render : TemplateRenderer)
    (partials : Partials)
    (reader : Reader) :
    expandLeaf lambdas render partials reader token =
      interpolate lambdas render token.name >>= fun text =>
        ofEdit
          (reader.replace? token.start token.stop (token.kind.shown text)) := by
  unfold expandLeaf
  rcases TokenKind.readsContext_iff.1 reads with
    kind | kind | kind | kind | kind | kind
  · rw [kind]
    rfl
  · rw [kind]
    rfl
  · rw [kind]
    rfl
  · exact absurd kind named
  · exact absurd (by rw [kind]; rfl) single
  · exact absurd (by rw [kind]; rfl) single

theorem expandLeaf_of_resolve
    {token : Token}
    (reads : token.kind.readsContext = true)
    (single : ¬token.kind.opensSection = true)
    (named : token.kind ≠ .inclusion)
    (resolved :
      world.stack.resolve lambdas (Name.ofText token.name) none world.store =
        (some (.lambda lambda), after))
    (render : TemplateRenderer)
    (reader : Reader) :
    expandLeaf lambdas render partials reader token world =
      (ofEffect (lambda.call lambdas none) >>= fun result =>
          interpolationText render result >>= fun text =>
            ofEdit
              (reader.replace? token.start token.stop (token.kind.shown text)))
        { world with store := after } := by
  rw [expandLeaf_eq_interpolate reads single named, run_bind,
    interpolate_of_resolve resolved, ← run_bind, bind_assoc]

/--
A section calls the lambda with its body, and an inverted one does not call it
at all.
-/
theorem expandBody_of_resolve
    (resolved :
      world.stack.resolve lambdas (Name.ofText name) (some (String.ofList body))
          world.store =
        (some (.lambda lambda), after))
    (render : TemplateRenderer)
    (partials : Partials)
    (delimiters : Delimiters)
    (kind : TokenKind)
    (startsLine : Bool) :
    expandBody lambdas render partials delimiters kind name body startsLine
        world =
      (if kind = .invertedOpener then
          pure []
        else
          ofEffect (lambda.call lambdas (some (String.ofList body))) >>=
            sectionText lambdas render partials delimiters body startsLine)
        { world with store := after } := by
  have named : resolve lambdas name (some body) world =
      (.ok (some (.lambda lambda)), { world with store := after }) := by
    rw [resolve_run, Option.map_some, resolved]
  rw [expandBody, run_bind, sectionValue_of_resolve named rfl]
  show
    expandFor lambdas render partials delimiters kind body startsLine
        (some (.lambda lambda)) _ = _
  unfold expandFor
  split
  · rfl
  · rfl

namespace Reader

/--
What rendering takes of the text between the tags of a section for its body:
what is left of it once the lines of the tags are cut.  Nothing is cut from the
start where the opener is not alone on its line, and nothing from the end where
the close tag is not.
-/
inductive Takes
    (read : Reader)
    (opener closer : Token)
    (raw taken : Text) : Prop
  | intro
      {openerAlone closerAlone : Option Text}
      {between trimmed : Reader}
      {line : Text}
      (trimsCloser : read.trimLine? closer = some (closerAlone, between))
      (trimsOpener : between.trimLine? opener = some (openerAlone, trimmed))
      (isTaken :
        trimmed.buffer.substring (.mark opener.stop) (.mark closer.start) =
          taken)
      (isRaw : raw = line ++ (taken ++ closerAlone.getD []))
      (isLine : openerAlone = none → line = [])
      (blank :
        ∀ character ∈ line ++ closerAlone.getD [],
          Text.isBlank character = true)

/-- A section is expanded with the body that is taken. -/
theorem Takes.expandPaired
    {read : Reader}
    {opener closer : Token}
    {raw taken : Text}
    (takes : read.Takes opener closer raw taken) :
    ∃ (startsLine : Bool) (trimmed : Reader),
      ∀ lambdas render partials delimiters,
        Mustache.expandPaired lambdas render partials delimiters read opener
            closer =
          expandBody lambdas render partials delimiters opener.kind opener.name
              taken startsLine >>= fun text =>
            ofEdit (trimmed.replace? opener.start closer.stop text) := by
  rcases takes with
    @⟨openerAlone, closerAlone, between, trimmed, line, trimsCloser,
      trimsOpener, isTaken, -, -, -⟩
  refine ⟨openerAlone.isSome, trimmed, ?_⟩
  intro lambdas render partials delimiters
  unfold Mustache.expandPaired
  rw [trimsCloser]
  show (ofEdit (between.trimLine? opener) >>= _) = _
  rw [trimsOpener]
  show
    (expandBody lambdas render partials delimiters _ _
            (trimmed.buffer.substring _ _) _ >>= _) = _
  rw [isTaken]

/-- What is taken of a section that a reader faces. -/
theorem Holds.exists_takes
    {reader read between : Reader}
    {draft : Draft}
    {opener closer : Token}
    {openerPiece closerPiece : Piece}
    {skipped left body rest : Text}
    (holds : reader.Holds draft)
    (took : Took reader between draft.written skipped openerPiece left opener)
    (closed :
      Closed between read (draft.written ++ (skipped ++ openerPiece.source))
        body closerPiece rest [] closer)
    (inkedOpener : Text.indentationAtEnd? openerPiece.source.reverse = none)
    (inkedCloser : closerPiece.source.lineAtStart? = none) :
    ∃ taken, read.Takes opener closer body taken := by
  rcases (holds.encloses took closed).trimCloser inkedOpener with
    ⟨between, isBetween, enclosed⟩
  rcases enclosed.trimOpener inkedCloser with ⟨trimmed, isTrimmed, opened⟩
  have inkedBehind := Text.lineAtStart?_append_eq_none inkedCloser rest
  rcases Draft.trimTags_spec (draft.pass skipped _ rest) body inkedOpener
      inkedBehind with ⟨-, -, line, isBody, isLine⟩
  rw [Text.indentationBetween?_append inkedOpener] at isBetween
  refine ⟨_, .intro isBetween isTrimmed opened.body_eq isBody ?_ ?_⟩
  · intro alone
    have notAlone : ((draft.pass skipped _ rest).trimTags body).1 = none :=
      alone
    rw [notAlone] at isLine
    exact isLine
  · intro character member
    rcases List.mem_append.1 member with inLine | inIndentation
    · exact isLine.blank character inLine
    · exact Text.isBlank_of_isInlineBlank
        (Text.isInlineBlank_of_indentationBetween? _ _ character inIndentation)

end Reader

/--
How a run calls the lambdas to which the name of the next tag leads, when there
is an accessor to the tag.  Those on the way are called with the body that is
taken, if there is one, and so is the last one: for a section with the body, for
an inverted section not at all, and for any other tag without a body.
-/
inductive RenderingCalls
    (lambdas : Lambdas)
    (partials : Partials)
    (head : (Reader × Delimiters) × World)
    (accessor : Accessor) : Prop
  | leaf
      {token : Token}
      {pair : Delimiters}
      {read : Reader}
      (isNext :
        head.1.1.nextNode head.1.2 = (.ok (some (.leaf token)), pair, read))
      (same : token.piece = accessor.token.piece)
      (noBody : accessor.body = none)
      (calls :
        token.kind ≠ .inclusion →
        head.2.stack.LeadsOn lambdas (Name.ofText token.name) none head.2.store
          fun _ owner lambda after =>
            ∀ render,
              expandLeaf lambdas render partials read token head.2 =
                (ofEffect (lambdas.call lambda.function ⟨some owner, none⟩) >>=
                    fun result =>
                      interpolationText render result >>= fun text =>
                        ofEdit
                          (read.replace? token.start token.stop
                            (token.kind.shown text)))
                  { head.2 with store := after })
  | paired
      {opener closer : Token}
      {pair : Delimiters}
      {read : Reader}
      {raw taken : Text}
      (isNext :
        head.1.1.nextNode head.1.2 =
          (.ok (some (.paired opener closer)), pair, read))
      (same : opener.piece = accessor.token.piece)
      (isBody : accessor.body = some raw)
      (takes : read.Takes opener closer raw taken)
      (calls :
        head.2.stack.LeadsOn lambdas (Name.ofText opener.name)
          (some (String.ofList taken)) head.2.store fun _ owner lambda after =>
          ∃ (startsLine : Bool) (trimmed : Reader),
            ∀ render delimiters,
              expandPaired lambdas render partials delimiters read opener closer
                  head.2 =
                ((if opener.kind = .invertedOpener then
                        pure []
                      else
                        ofEffect
                            (lambdas.call lambda.function
                              ⟨some owner, some (String.ofList taken)⟩) >>=
                          sectionText lambdas render partials delimiters taken
                            startsLine) >>= fun text =>
                    ofEdit (trimmed.replace? opener.start closer.stop text))
                  { head.2 with store := after })

theorem Reader.Faces.renderingCalls
    {head : (Reader × Delimiters) × World}
    {block : Block}
    (faces : Faces head.1 block)
    {accessor : Accessor}
    (isFor : accessor.IsFor block)
    (reads : (nextReading? head.1).isSome = true)
    (lambdas : Lambdas)
    (partials : Partials) :
    RenderingCalls lambdas partials head accessor := by
  rcases head with ⟨⟨reader, delimiters⟩, world⟩
  rcases faces with ⟨holds, result, isNext, took, inked⟩
  have isHead := took.head_eq
  have isPiece := isFor.piece_eq
  have isBody := isFor.body_eq
  cases took with
  | @leaf piece token took =>
    refine .leaf isNext (isHead.trans isPiece.symm) isBody ?_
    intro named
    apply ContextStack.LeadsOn.of_resolve
    intro scopes key owner lambda after isPath resolved holds render
    refine expandLeaf_of_resolve ?_ ?_ named resolved render _
    · have isReading : (Node.leaf token).head.kind.readsContext = true := by
        simpa [nextReading?, isNext] using reads
      exact isReading
    · have isKind : token.kind = piece.kind := congrArg Piece.kind isHead
      rw [isKind]
      exact (scanNode_eq_leaf result).2.1
  | @paired opener closer body left openerToken closerToken between took
      closed =>
    rcases holds.exists_takes took closed inked.1 inked.2 with ⟨taken, takes⟩
    refine .paired isNext (isHead.trans isPiece.symm) isBody takes ?_
    apply ContextStack.LeadsOn.of_resolve
    intro scopes key owner lambda after isPath resolved holds
    rcases takes.expandPaired with ⟨startsLine, trimmed, expanded⟩
    refine ⟨startsLine, trimmed, ?_⟩
    intro render delimiters
    rw [expanded, run_bind, expandBody_of_resolve resolved, ← run_bind]
    rfl

/-- A run leaves the stack as it was whenever a tag is next. -/
theorem readingHeads_stack
    (lambdas : Lambdas)
    (fuel : Nat)
    (partials : Partials)
    (state : Reader × Delimiters)
    (world : World) :
    ∀ head ∈ readingHeads lambdas fuel partials state world,
      head.2.stack = world.stack := by
  have restores (fuel : Nat) (template : Text) (partials : Partials)
      (delimiters : Delimiters) :
      Restores
        ((bufferMachine lambdas).render fuel template partials delimiters) := by
    rw [← interpretWithin_eq_render]
    exact restores_expandRest lambdas fuel partials _
  have preserves (fuel : Nat) (state : Reader × Delimiters) (start : World)
      (same : start.stack = world.stack) :
      ((bufferMachine lambdas).step ((bufferMachine lambdas).render fuel)
          partials state start).2.stack =
        world.stack :=
    ((restores_expandNext (restores fuel) state).stack_eq start).trans same
  exact readingHeads_preserve preserves fuel state rfl

/--
Inspecting a template calls lambdas as rendering it does, whatever its partials
and data are, and wherever the delimiter pairs in effect at its top level are
solid.  There is an accessor for each tag at the top level that reads from the
context, and the tags that a run in place expands go with the first of these,
and with all of them when the run succeeds.  On both sides, the name of the tag
leads through the same calls to a lambda, with the owners as the receivers.  But
an accessor hands over the whole body where a run hands over what is taken of
it, and it leaves the lambda at the end a receiver that the lambda has of its
own.
-/
theorem inspect_calls_like_rendering
    {template : Text}
    {delimiters : Delimiters}
    (valid : validate template delimiters = .ok ())
    (solid : delimiters.Solid)
    (solids :
      ∀ visit ∈ Reader.visitsFrom (template.length + 1) (Reader.ofText template)
          delimiters,
        visit.after.Solid)
    (lambdas : Lambdas)
    (data : Value)
    (partials : Partials)
    (store : Store)
    (fuel : Nat) :
    ∃ accessors after,
      inspect lambdas template data partials delimiters store =
        (.ok accessors, after) ∧
      accessors.map Accessor.token =
        Reader.readingsFrom (template.length + 1) (Reader.ofText template)
          delimiters ∧
      Accessor.Made lambdas (.ofRoot data) partials store accessors after ∧
      (∀ accessor ∈ accessors, accessor.Calls lambdas (.ofRoot data) partials) ∧
      ∃ shown,
        shown <+: accessors ∧
        (∀ text,
          (interpretWithin lambdas fuel template partials delimiters
              ⟨store, .ofRoot data⟩).1 =
            .ok text →
          shown = accessors) ∧
        List.Forall₂
          (fun head accessor =>
            head.2.stack = .ofRoot data ∧
            RenderingCalls lambdas partials head accessor)
          (readingHeads lambdas fuel partials
            (Reader.ofText template, delimiters) ⟨store, .ofRoot data⟩)
          shown := by
  rcases exists_accessors_facing valid solid solids lambdas data partials store
      fuel with
    ⟨accessors, after, inspected, tokens, made, each, shown, isShown, all,
      together⟩
  refine ⟨accessors, after, inspected, tokens, made, ?_, shown, isShown, all,
    ?_⟩
  · intro accessor member
    rcases each accessor member with ⟨block, isFor⟩
    exact isFor.calls lambdas (.ofRoot data) partials
  · have reads :
        ∀ head ∈ readingHeads lambdas fuel partials
            (Reader.ofText template, delimiters) ⟨store, .ofRoot data⟩,
          head.2.stack = .ofRoot data ∧
          (Reader.nextReading? head.1).isSome = true :=
      fun head member =>
        ⟨readingHeads_stack lambdas fuel partials _ _ head member,
          (List.mem_filter.1 member).2⟩
    apply ((List.forall₂_and_left _ _).2 ⟨reads, together⟩).imp
    rintro head accessor ⟨⟨isStack, isReading⟩, block, faces, isFor⟩
    exact ⟨isStack, faces.renderingCalls isFor isReading lambdas partials⟩

/--
A section whose tags are alone on their lines, and a lambda behind another one.
-/
theorem inspect_calls_like_rendering_scoped :
    let lambdas : Lambdas := {
      call := fun function call =>
        pure
          (if function.index = 0 then
              .string (call.text.getD "")
            else
              .map ⟨⟨1⟩, none⟩)
      assign := fun _ _ => pure () }
    let template :=
      "\x7b\x7b#f\x7d\x7d\nx\n\x7b\x7b/f\x7d\x7d\n\x7b\x7bg.h\x7d\x7d".toList
    let store : Store :=
      ⟨#[[("f", .lambda ⟨⟨0⟩, none, none⟩), ("g", .lambda ⟨⟨1⟩, none, none⟩)],
        [("h", .lambda ⟨⟨0⟩, none, none⟩)]]⟩
    let data : Value := .map ⟨⟨0⟩, none⟩
    (validate template .standard = .ok () ∧
      Delimiters.standard.Solid ∧
      ∀ visit ∈ Reader.visitsFrom (template.length + 1) (Reader.ofText template)
          .standard,
        visit.after.Solid) ∧
    ∃ accessors after,
      inspect lambdas template data [] .standard store =
        (.ok accessors, after) ∧
      accessors.map Accessor.token =
        Reader.readingsFrom (template.length + 1) (Reader.ofText template)
          .standard ∧
      Accessor.Made lambdas (.ofRoot data) [] store accessors after ∧
      (∀ accessor ∈ accessors, accessor.Calls lambdas (.ofRoot data) []) ∧
      ∃ shown,
        shown <+: accessors ∧
        (∀ text,
          (interpretWithin lambdas 40 template [] .standard
              ⟨store, .ofRoot data⟩).1 =
            .ok text →
          shown = accessors) ∧
        List.Forall₂
          (fun head accessor =>
            head.2.stack = .ofRoot data ∧
            RenderingCalls lambdas [] head accessor)
          (readingHeads lambdas 40 [] (Reader.ofText template, .standard)
            ⟨store, .ofRoot data⟩)
          shown := by
  intro lambdas template store data
  have valid : validate template .standard = .ok () := by decide +kernel
  have solids :
      ∀ visit ∈ Reader.visitsFrom (template.length + 1) (Reader.ofText template)
          .standard,
        visit.after.Solid := by
    decide +kernel
  exact ⟨⟨valid, by decide, solids⟩,
    inspect_calls_like_rendering valid (by decide) solids lambdas data [] store
      40⟩

/--
An accessor hands over the line breaks behind the tags of a section, which
rendering cuts.
-/
theorem inspect_hands_over_cut_lines :
    let lambdas : Lambdas := {
      call := fun _ call => pure (.string (call.text.getD ""))
      assign := fun _ _ => pure () }
    let template := "\x7b\x7b#f\x7d\x7d\nx\n\x7b\x7b/f\x7d\x7d\n".toList
    let store : Store := ⟨#[[("f", .lambda ⟨⟨0⟩, none, none⟩)]]⟩
    let data : Value := .map ⟨⟨0⟩, none⟩
    ((inspect lambdas template data [] .standard store).1.map fun accessors =>
        accessors.map fun accessor =>
          (accessor.value lambdas store).1.text? store) =
      .ok [some "\nx\n"] ∧
    (interpretWithin lambdas 40 template [] .standard ⟨store, .ofRoot data⟩).1 =
      .ok "x\n".toList := by
  decide +kernel

end Mustache
