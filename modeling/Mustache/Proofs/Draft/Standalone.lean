import Mustache.Proofs.Draft.Visits

/-!
# Which tags are alone on their line

Comments, set-delimiter tags, partials and the tags of sections take their line
with them when they are alone on it.  A run edits the text that it reads, so
before a tag there is not the template but what the run made of it: what stands
for the tags before, and then the text of the template since the last of them.
A spot keeps the two apart (`Spot`), and a run is a trail of spots (`Trail`).

After a tag there is only the template, and before a close tag there is its
section.  So whether the rest of the line is blank, and whether a close tag is
alone on its line, can be told from the template.  For the other tags it can as
long as their line starts in text, after a line break or at the start of the
template (`Spot.Decides.inTemplate`).  Where a line starts with what stands for
another tag, that counts as it is: an empty text leaves the tag alone, and
blanks at the end of a text are cut off as an indentation
(`standalone_after_value`).
-/

namespace Mustache

open RenderM

/-- Where a run stands in its template. -/
structure Spot where
  /--
  The template up to the last tag, with that tag and what was cut off behind it.
  -/
  earlier : Text
  /-- What the buffer holds in its place. -/
  produced : Text
  /-- The text that was read since. -/
  literal : Text
  /-- The text that is still to be read. -/
  unread : Text
deriving DecidableEq, Repr

namespace Spot

/-- The start of a template. -/
def start (template : Text) : Spot :=
  ⟨[], [], [], template⟩

/-- A reader stands at a spot of a template. -/
structure IsAt (spot : Spot) (template : Text) (reader : Reader) : Prop where
  template_eq : template = spot.earlier ++ (spot.literal ++ spot.unread)
  standing : reader.At (spot.produced ++ spot.literal) spot.unread
  unmixed : spot.earlier = [] → spot.produced = []

/--
A tag between some text and what follows takes its line with it just if it is
alone there in the buffer.  Where its line starts in text, that is the case
just if it is alone in the template.
-/
structure Decides
    (spot : Spot)
    (before after : Text)
    (alone : Option Text) : Prop where
  inBuffer : ∀ indentation, alone = some indentation ↔
    Text.AloneBetween (spot.produced ++ before) after indentation
  inTemplate :
    spot.earlier = [] ∨
        (∃ character ∈ before, Text.isLineBreak character = true) →
      ∀ indentation, alone = some indentation ↔
        Text.AloneBetween (spot.earlier ++ before) after indentation

/--
The next node of a reader at a spot, behind some text that is passed over.
-/
structure Reads
    (spot : Spot)
    (reader : Reader)
    (delimiters : Delimiters)
    (node : Node)
    (read : Reader)
    (skipped source rest : Text) : Prop where
  isNext : ∃ after, reader.nextNode delimiters = (.ok (some node), after, read)
  parts : spot.unread = skipped ++ (source ++ rest)
  standing :
    read.At (spot.produced ++ (spot.literal ++ (skipped ++ source))) rest

/--
A tag takes its line with it if it is alone there: its indentation is cut off
what is before it, and the rest of its line off what is behind it.
-/
structure TakesLine
    (spot : Spot)
    (read : Reader)
    (token : Token)
    (skipped kept line rest : Text)
    (alone : Option Text) : Prop where
  trims : ∃ trimmed, read.trimLine? token = some (alone, trimmed)
  decides : spot.Decides (spot.literal ++ skipped) (line ++ rest) alone
  cutBefore :
    spot.produced ++ (spot.literal ++ skipped) = kept ++ alone.getD []
  cutAfter : Text.LineOf alone (line ++ rest) line

/--
What becomes of the next node: where the run stands afterwards, or what it
stops with, and the world that is left.
-/
inductive Leads
    (lambdas : Lambdas)
    (render : TemplateRenderer)
    (partials : Partials)
    (spot : Spot)
    (reader : Reader)
    (delimiters : Delimiters)
    (world : World) : Except Stop Spot → World → Prop
  /-- Text stays as it is. -/
  | text
      {token : Token}
      {read : Reader}
      {skipped rest : Text}
      (reads :
        spot.Reads reader delimiters (.leaf token) read skipped token.source
          rest)
      (isText : token.kind = .text) :
      Leads lambdas render partials spot reader delimiters world
        (.ok ⟨spot.earlier, spot.produced,
          spot.literal ++ (skipped ++ token.source), rest⟩)
        world
  /-- A tag that shows a value is replaced, and nothing around it. -/
  | value
      {token : Token}
      {read : Reader}
      {skipped rest : Text}
      {result : Except Stop Text}
      {left : World}
      (reads :
        spot.Reads reader delimiters (.leaf token) read skipped token.source
          rest)
      (isValue : token.kind.showsValue = true)
      (stands : interpolate lambdas render token.name world = (result, left)) :
      Leads lambdas render partials spot reader delimiters world
        (result.map fun text =>
          ⟨spot.earlier ++ (spot.literal ++ skipped ++ token.source),
            spot.produced ++ (spot.literal ++ skipped) ++ token.kind.shown text,
            [], rest⟩)
        left
  /-- A comment or a set-delimiter tag is taken away, with its line. -/
  | erased
      {token : Token}
      {read : Reader}
      {skipped kept line rest : Text}
      {alone : Option Text}
      (reads :
        spot.Reads reader delimiters (.leaf token) read skipped token.source
          (line ++ rest))
      (erases : token.kind = .comment ∨ token.kind = .setDelimiters)
      (takes : spot.TakesLine read token skipped kept line rest alone) :
      Leads lambdas render partials spot reader delimiters world
        (.ok ⟨spot.earlier ++ (spot.literal ++ skipped ++ token.source ++ line),
          kept, [], rest⟩)
        world
  /-- A partial stands in the place of its tag and of the tag's line. -/
  | inclusion
      {token : Token}
      {read : Reader}
      {skipped kept line rest : Text}
      {alone : Option Text}
      {result : Except Stop Text}
      {left : World}
      (reads :
        spot.Reads reader delimiters (.leaf token) read skipped token.source
          (line ++ rest))
      (includes : token.kind = .inclusion)
      (takes : spot.TakesLine read token skipped kept line rest alone)
      (stands :
        includePartial render partials token.name (alone.getD []) world =
          (result, left)) :
      Leads lambdas render partials spot reader delimiters world
        (result.map fun text =>
          ⟨spot.earlier ++ (spot.literal ++ skipped ++ token.source ++ line),
            kept ++ text, [], rest⟩)
        left
  /--
  A section stands in the place of its tags and of their lines.  The line of
  the close tag goes first, and then that of the opener.
  -/
  | paired
      {opener closer : Token}
      {read between trimmed : Reader}
      {skipped body line rest kept first inner : Text}
      {closerAlone openerAlone : Option Text}
      {result : Except Stop Text}
      {left : World}
      (reads :
        spot.Reads reader delimiters (.paired opener closer) read skipped
          (opener.source ++ (body ++ closer.source)) (line ++ rest))
      (trimsCloser : read.trimLine? closer = some (closerAlone, between))
      (decidesCloser :
        ∀ indentation,
          closerAlone = some indentation ↔
            Text.AloneBetween
              (spot.earlier ++
                (spot.literal ++ skipped ++ opener.source ++ body))
              (line ++ rest) indentation)
      (trimsOpener : between.trimLine? opener = some (openerAlone, trimmed))
      (decidesOpener :
        spot.Decides (spot.literal ++ skipped)
          (body ++ (closer.source ++ (line ++ rest))) openerAlone)
      (cutBefore :
        spot.produced ++ (spot.literal ++ skipped) =
          kept ++ openerAlone.getD [])
      (cutFirst :
        Text.LineOf openerAlone (body ++ (closer.source ++ (line ++ rest)))
          first)
      (cutInside : body = first ++ (inner ++ closerAlone.getD []))
      (cutAfter : Text.LineOf closerAlone (line ++ rest) line)
      (inside :
        trimmed.buffer.substring (.mark opener.stop) (.mark closer.start) =
          inner)
      (stands :
        expandBody lambdas render partials delimiters opener.kind opener.name
            inner openerAlone.isSome world =
          (result, left)) :
      Leads lambdas render partials spot reader delimiters world
        (result.map fun text =>
          ⟨spot.earlier ++
              (spot.literal ++ skipped ++
                (opener.source ++ (body ++ closer.source)) ++ line),
            kept ++ text, [], rest⟩)
        left

end Spot

/--
The rest of a run from a spot on, with some fuel: what becomes of one node
after the other, and what the run ends with.
-/
inductive Trail
    (lambdas : Lambdas)
    (partials : Partials)
    (template : Text) :
    Nat → Spot → Reader × Delimiters → World → Except Stop Text × World → Prop
  /-- The fuel is used up. -/
  | endless
      {spot : Spot}
      {state : Reader × Delimiters}
      {world : World} :
      Trail lambdas partials template 0 spot state world
        (.error .endless, world)
  /-- There is no node to read, for a fault in the template. -/
  | fails
      {fuel : Nat}
      {spot : Spot}
      {reader : Reader}
      {delimiters : Delimiters}
      {world : World}
      {error : RenderError}
      (isAt : spot.IsAt template reader)
      (reads : (reader.nextNode delimiters).1 = .error error) :
      Trail lambdas partials template (fuel + 1) spot (reader, delimiters) world
        (.error (.failed error), world)
  /-- There is no node left. -/
  | ends
      {fuel : Nat}
      {spot : Spot}
      {reader : Reader}
      {delimiters : Delimiters}
      {world : World}
      (isAt : spot.IsAt template reader)
      (reads : (reader.nextNode delimiters).1 = .ok none) :
      Trail lambdas partials template (fuel + 1) spot (reader, delimiters) world
        (.ok (spot.produced ++ (spot.literal ++ spot.unread)), world)
  /-- The run stops within the next node. -/
  | stops
      {fuel : Nat}
      {spot : Spot}
      {reader : Reader}
      {delimiters : Delimiters}
      {world left : World}
      {stop : Stop}
      (isAt : spot.IsAt template reader)
      (leads :
        spot.Leads lambdas (interpretWithin lambdas fuel) partials reader
          delimiters world (.error stop) left) :
      Trail lambdas partials template (fuel + 1) spot (reader, delimiters) world
        (.error stop, left)
  /-- The run goes on at another spot. -/
  | goesOn
      {fuel : Nat}
      {spot next : Spot}
      {reader reader' : Reader}
      {delimiters after : Delimiters}
      {world left : World}
      {outcome : Except Stop Text × World}
      (isAt : spot.IsAt template reader)
      (leads :
        spot.Leads lambdas (interpretWithin lambdas fuel) partials reader
          delimiters world (.ok next) left)
      (steps :
        expandNext lambdas (interpretWithin lambdas fuel) partials
            (reader, delimiters) world =
          (.ok (.inr (reader', after)), left))
      (further :
        Trail lambdas partials template fuel next (reader', after) left
          outcome) :
      Trail lambdas partials template (fuel + 1) spot (reader, delimiters) world
        outcome

/-! ## A spot and a draft -/

namespace Spot

variable
    {spot : Spot}
    {template : Text}
    {reader : Reader}
    {draft : Draft}
    {delimiters : Delimiters}
    {lambdas : Lambdas}
    {render : TemplateRenderer}
    {partials : Partials}
    {world : World}

/-- The two texts of a draft are those at a spot of a template. -/
structure Tracks (spot : Spot) (template : Text) (draft : Draft) : Prop where
  template_eq : template = spot.earlier ++ (spot.literal ++ spot.unread)
  written_eq : draft.written = spot.produced ++ spot.literal
  unread_eq : draft.unread = spot.unread
  unmixed : spot.earlier = [] → spot.produced = []

theorem tracks_start (template : Text) :
    (start template).Tracks template (Draft.ofText template) :=
  ⟨rfl, rfl, rfl, fun _ => rfl⟩

theorem Tracks.isAt
    (tracks : spot.Tracks template draft)
    (holds : reader.Holds draft) :
    spot.IsAt template reader where
  template_eq := tracks.template_eq
  standing := by
    rw [← tracks.written_eq, ← tracks.unread_eq]
    exact holds.standing
  unmixed := tracks.unmixed

/-- Once a tag was replaced, with a line behind it. -/
theorem Tracks.replace
    (tracks : spot.Tracks template draft)
    {skipped source line rest : Text}
    {cut : Draft}
    {indentation : Option Text}
    (parts : spot.unread = skipped ++ (source ++ rest))
    (nonempty : source ≠ [])
    (cuts : (draft.pass skipped source rest).Cuts cut indentation line)
    (text : Text) :
    Tracks
      ⟨spot.earlier ++ (spot.literal ++ skipped ++ source ++ line),
        cut.written ++ text, [], cut.unread⟩
      template (cut.write text) where
  template_eq := by
    have after : rest = line ++ cut.unread := cuts.unread_eq
    rw [tracks.template_eq, parts, after]
    simp
  written_eq := by simp [Draft.write]
  unread_eq := rfl
  unmixed := by simp [nonempty]

/-- What stands before a tag in the buffer, cut off where its line starts. -/
theorem Tracks.before_eq
    (tracks : spot.Tracks template draft)
    {skipped source rest line : Text}
    {cut : Draft}
    {indentation : Option Text}
    (cuts : (draft.pass skipped source rest).Cuts cut indentation line) :
    spot.produced ++ (spot.literal ++ skipped) =
      cut.written ++ indentation.getD [] := by
  have before : draft.written ++ skipped = cut.written ++ indentation.getD [] :=
    cuts.written_eq
  rw [← before, tracks.written_eq, List.append_assoc]

theorem Tracks.decides
    (tracks : spot.Tracks template draft)
    {skipped after : Text}
    {alone : Option Text}
    (isAlone :
      alone = Text.indentationBetween? (draft.written ++ skipped) after) :
    spot.Decides (spot.literal ++ skipped) after alone := by
  have inBuffer :
      ∀ indentation,
        alone = some indentation ↔
          Text.AloneBetween (spot.produced ++ (spot.literal ++ skipped)) after
            indentation := by
    intro indentation
    rw [isAlone, Text.indentationBetween?_eq_some_iff, tracks.written_eq,
      List.append_assoc]
  refine ⟨inBuffer, ?_⟩
  rintro (atStart | broken) indentation
  · rw [inBuffer, atStart, tracks.unmixed atStart]
  · rw [inBuffer, Text.aloneBetween_append broken,
      Text.aloneBetween_append broken]

/-! ## One node -/

theorem Tracks.reads
    (tracks : spot.Tracks template draft)
    {node : Node}
    {block : Block}
    {read : Reader}
    {skipped rest : Text}
    {after : Delimiters}
    (isNext : reader.nextNode delimiters = (.ok (some node), after, read))
    (took : Reader.NodeTook reader read draft.written skipped rest block node)
    (unread : draft.unread = skipped ++ (block.source ++ rest)) :
    spot.Reads reader delimiters node read skipped block.source rest where
  isNext := ⟨after, isNext⟩
  parts := tracks.unread_eq.symm.trans unread
  standing := by
    rw [← List.append_assoc, ← tracks.written_eq]
    exact took.standing

/-- Text stays where it is. -/
theorem leads_of_text
    (tracks : spot.Tracks template draft)
    {read : Reader}
    {token : Token}
    {skipped rest : Text}
    (reads :
      spot.Reads reader delimiters (.leaf token) read skipped token.source rest)
    (isText : token.kind = .text) :
    ∃ next,
      spot.Leads lambdas render partials reader delimiters world (.ok next)
        world ∧
      next.Tracks template
        ((draft.pass skipped token.source rest).write token.source) := by
  refine ⟨_, .text reads isText, ?_, ?_, rfl, tracks.unmixed⟩
  · rw [tracks.template_eq, reads.parts]
    simp
  · simp [Draft.write, Draft.pass, tracks.written_eq]

/-- A tag that shows a value is replaced, and nothing around it. -/
theorem leads_of_value
    (tracks : spot.Tracks template draft)
    {read : Reader}
    {token : Token}
    {skipped rest : Text}
    (reads :
      spot.Reads reader delimiters (.leaf token) read skipped token.source rest)
    (nonempty : token.source ≠ [])
    (isValue : token.kind.showsValue = true)
    {result : Except Stop Text}
    {left : World}
    (stands : interpolate lambdas render token.name world = (result, left)) :
    ∃ lead : Text → Spot,
      spot.Leads lambdas render partials reader delimiters world
        ((result.map token.kind.shown).map lead) left ∧
      ∀ text,
        (lead text).Tracks template
          ((draft.pass skipped token.source rest).write text) := by
  have cuts : (draft.pass skipped token.source rest).Cuts
      (draft.pass skipped token.source rest) none [] :=
    ⟨by simp, rfl⟩
  refine ⟨fun text =>
    ⟨spot.earlier ++ (spot.literal ++ skipped ++ token.source),
      spot.produced ++ (spot.literal ++ skipped) ++ text, [], rest⟩, ?_, ?_⟩
  · have leads : spot.Leads lambdas render partials reader delimiters world
        _ left :=
      .value reads isValue stands
    cases result <;> exact leads
  · intro text
    have replaced : Tracks ⟨_, _, [], rest⟩ template _ :=
      tracks.replace reads.parts nonempty cuts text
    rw [tracks.before_eq cuts]
    simpa using replaced

/-- What a tag takes with it where it is alone on its line. -/
theorem takesLine_of_tracks
    (tracks : spot.Tracks template draft)
    {read : Reader}
    {token : Token}
    {skipped rest : Text}
    (shows :
      read.Shows (draft.pass skipped token.source rest) token token.source) :
    ∃ line,
      rest = line ++ (draft.pass skipped token.source rest).trimLine.2.unread ∧
      spot.TakesLine read token skipped
        (draft.pass skipped token.source rest).trimLine.2.written line
        (draft.pass skipped token.source rest).trimLine.2.unread
        (draft.pass skipped token.source rest).trimLine.1 ∧
      (draft.pass skipped token.source rest).Cuts
        (draft.pass skipped token.source rest).trimLine.2
        (draft.pass skipped token.source rest).trimLine.1 line := by
  rcases shows.trim with ⟨trimmed, isTrimmed, -⟩
  rcases Draft.cuts_trimLine (draft.pass skipped token.source rest) with
    ⟨alone, line, cuts, isLine⟩
  have decides := tracks.decides alone
  have behind : rest = line ++ _ := cuts.unread_eq
  refine ⟨line, behind,
    ⟨⟨trimmed, isTrimmed⟩, ?_, tracks.before_eq cuts, ?_⟩, cuts⟩
  · rw [← behind]
    exact decides
  · rw [← behind]
    exact isLine

/-- A comment and a set-delimiter tag leave nothing behind. -/
theorem leads_of_erased
    (tracks : spot.Tracks template draft)
    {read : Reader}
    {token : Token}
    {skipped rest : Text}
    (reads :
      spot.Reads reader delimiters (.leaf token) read skipped token.source rest)
    (shows :
      read.Shows (draft.pass skipped token.source rest) token token.source)
    (nonempty : token.source ≠ [])
    (erases : token.kind = .comment ∨ token.kind = .setDelimiters) :
    ∃ next,
      spot.Leads lambdas render partials reader delimiters world (.ok next)
        world ∧
      next.Tracks template
        ((draft.pass skipped token.source rest).trimLine.2.write []) := by
  rcases takesLine_of_tracks tracks shows with ⟨line, behind, takes, cuts⟩
  have replaced := tracks.replace reads.parts nonempty cuts []
  rw [List.append_nil] at replaced
  rw [behind] at reads
  exact ⟨_, .erased reads erases takes, replaced⟩

/-- A partial is put in the place of its tag. -/
theorem leads_of_inclusion
    (tracks : spot.Tracks template draft)
    {read : Reader}
    {token : Token}
    {skipped rest : Text}
    (reads :
      spot.Reads reader delimiters (.leaf token) read skipped token.source rest)
    (shows :
      read.Shows (draft.pass skipped token.source rest) token token.source)
    (nonempty : token.source ≠ [])
    (includes : token.kind = .inclusion)
    {result : Except Stop Text}
    {left : World}
    (stands :
      includePartial render partials token.name
          ((draft.pass skipped token.source rest).trimLine.1.getD []) world =
        (result, left)) :
    ∃ lead : Text → Spot,
      spot.Leads lambdas render partials reader delimiters world
        (result.map lead) left ∧
      ∀ text,
        (lead text).Tracks template
          ((draft.pass skipped token.source rest).trimLine.2.write text) := by
  rcases takesLine_of_tracks tracks shows with ⟨line, behind, takes, cuts⟩
  have replaced := tracks.replace reads.parts nonempty cuts
  rw [behind] at reads
  exact ⟨_, .inclusion reads includes takes stands, replaced⟩

/-- A section, whose tags take their lines with them where they are alone. -/
theorem leads_of_paired
    (tracks : spot.Tracks template draft)
    {read : Reader}
    {opener closer : Token}
    {skipped body rest : Text}
    (reads :
      spot.Reads reader delimiters (.paired opener closer) read skipped
        (opener.source ++ (body ++ closer.source)) rest)
    (encloses :
      read.Encloses
        (draft.pass skipped (opener.source ++ (body ++ closer.source)) rest)
        opener closer opener.source body closer.source)
    (nonempty : opener.source ++ (body ++ closer.source) ≠ [])
    (inkedOpener : Text.indentationAtEnd? opener.source.reverse = none)
    (inkedCloser : closer.source.lineAtStart? = none)
    {result : Except Stop Text}
    {left : World}
    (stands :
      (draft.pass skipped (opener.source ++ (body ++ closer.source))
          rest).blockText lambdas render partials delimiters
          (.paired opener.piece body closer.piece) world =
        (result, left)) :
    ∃ lead : Text → Spot,
      spot.Leads lambdas render partials reader delimiters world
        (result.map lead) left ∧
      ∀ text,
        (lead text).Tracks template
          (((draft.pass skipped (opener.source ++ (body ++ closer.source))
            rest).trimAround (.paired opener.piece body closer.piece)).write
            text) := by
  rcases encloses.trimCloser inkedOpener with ⟨between, isBetween, closed⟩
  rcases closed.trimOpener inkedCloser with ⟨trimmed, isTrimmed, opened⟩
  have inkedBehind := Text.lineAtStart?_append_eq_none inkedCloser rest
  rcases Draft.trimTags_spec (draft.pass skipped _ rest) body inkedOpener
      inkedBehind with
    ⟨alone, ⟨line, cuts, isLine⟩, first, isBody, isFirst⟩
  rw [Text.indentationBetween?_append inkedOpener] at isBetween
  have decides := tracks.decides alone
  have behind : rest = line ++ _ := cuts.unread_eq
  refine ⟨_, .paired ?_ isBetween ?_ isTrimmed ?_ (tracks.before_eq cuts) ?_
    isBody ?_ opened.body_eq stands,
    tracks.replace reads.parts nonempty cuts⟩
  · rw [← behind]
    exact reads
  · intro indentation
    have further :
        spot.earlier ++ (spot.literal ++ skipped ++ opener.source ++ body) =
          spot.earlier ++ (spot.literal ++ skipped) ++ opener.source ++
            body := by
      simp
    rw [← behind, further, ← Text.indentationBetween?_eq_some_iff,
      Text.indentationBetween?_append inkedOpener]
    rfl
  · rw [← behind]
    exact decides
  · rw [← behind]
    exact isFirst
  · rw [← behind]
    exact isLine

/--
A leaf leads on to the spot after it, unless what stands for it has no answer.
What it takes with it goes by its kind.
-/
theorem leads_of_leaf
    (tracks : spot.Tracks template draft)
    {read : Reader}
    {token : Token}
    {skipped rest : Text}
    (reads :
      spot.Reads reader delimiters (.leaf token) read skipped token.source rest)
    (shows :
      read.Shows (draft.pass skipped token.source rest) token token.source)
    (nonempty : token.source ≠ [])
    (notOpener : ¬token.kind.opensSection = true)
    (notCloser : token.kind ≠ .closer)
    {answer : Except Stop Text}
    {left : World}
    (stands :
      Draft.leafText lambdas render partials token.piece
          ((draft.pass skipped token.source rest).trimLine.1.getD []) world =
        (answer, left)) :
    ∃ lead : Text → Spot,
      spot.Leads lambdas render partials reader delimiters world
        (answer.map lead) left ∧
      ∀ text,
        answer = .ok text →
        (lead text).Tracks template
          (((draft.pass skipped token.source rest).trimAround
            (.leaf token.piece)).write text) := by
  have isKind : token.piece.kind = token.kind := rfl
  cases kind : token.kind with
  | text =>
    simp only [Draft.leafText, isKind, kind] at stands
    cases stands
    rw [Draft.trimAround_of_not_takesLine (by rw [isKind, kind]; rfl)]
    rcases leads_of_text tracks reads kind with ⟨next, leads, tracked⟩
    refine ⟨fun _ => next, leads, ?_⟩
    rintro _ ⟨⟩
    exact tracked
  | interpolation | implicit | unescaped =>
    have isValue : token.kind.showsValue = true := by
      rw [kind]
      rfl
    rw [Draft.leafText_of_showsValue isValue, RenderM.run_map] at stands
    cases stands
    rw [Draft.trimAround_of_not_takesLine (by rw [isKind, kind]; rfl)]
    rcases leads_of_value tracks reads nonempty isValue rfl with
      ⟨lead, leads, tracked⟩
    exact ⟨lead, leads, fun text _ => tracked text⟩
  | comment | setDelimiters =>
    have erases : token.kind = .comment ∨ token.kind = .setDelimiters := by
      simp [kind]
    simp only [Draft.leafText, isKind, kind] at stands
    cases stands
    rw [Draft.trimAround_of_takesLine (by rw [isKind, kind]; rfl)]
    rcases leads_of_erased tracks reads shows nonempty erases with
      ⟨next, leads, tracked⟩
    refine ⟨fun _ => next, leads, ?_⟩
    rintro _ ⟨⟩
    exact tracked
  | inclusion =>
    simp only [Draft.leafText, isKind, kind] at stands
    rw [Draft.trimAround_of_takesLine (by rw [isKind, kind]; rfl)]
    rcases leads_of_inclusion tracks reads shows nonempty kind stands with
      ⟨lead, leads, tracked⟩
    exact ⟨lead, leads, fun text _ => tracked text⟩
  | opener | invertedOpener =>
    rw [kind] at notOpener
    exact absurd rfl notOpener
  | closer => exact absurd kind notCloser

/--
The next block leads on to the spot after it, unless what stands for the block
has no answer.
-/
theorem leads_of_found
    (tracks : spot.Tracks template draft)
    (holds : reader.Holds draft)
    {skipped rest : Text}
    {block : Block}
    {after : Delimiters}
    (result :
      scanNode delimiters draft.unread = .found skipped block after rest)
    (inked : block.Inked)
    {answer : Except Stop Text}
    {left : World}
    (stands :
      (draft.pass skipped block.source rest).blockText lambdas render partials
          delimiters block world =
        (answer, left)) :
    ∃ lead : Text → Spot,
      spot.Leads lambdas render partials reader delimiters world
        (answer.map lead) left ∧
      ∀ text,
        answer = .ok text →
        (lead text).Tracks template
          (((draft.pass skipped block.source rest).trimAround block).write
            text) := by
  rcases scanNode_eq_found result with ⟨unread, nonempty⟩
  rcases Reader.nextNode_of_found holds.standing result with
    ⟨node, read, isNext, took⟩
  have reads := tracks.reads isNext took unread
  cases took with
  | leaf took =>
    have shows := holds.shows took
    cases took.piece_eq
    rcases scanNode_eq_leaf result with ⟨-, notOpener, notCloser, -⟩
    exact leads_of_leaf tracks reads shows nonempty notOpener notCloser stands
  | paired took closed =>
    have encloses := holds.encloses took closed
    cases took.piece_eq
    cases closed.piece_eq
    rcases leads_of_paired tracks reads encloses nonempty inked.1 inked.2
        stands with
      ⟨lead, leads, tracked⟩
    exact ⟨lead, leads, fun text _ => tracked text⟩

end Spot

/-! ## A run -/

variable {lambdas : Lambdas} {template : Text} {partials : Partials}

/-- The rest of a run from a spot on is a trail. -/
theorem trail_of_tracks
    (fuel : Nat)
    {spot : Spot}
    {reader : Reader}
    {draft : Draft}
    {delimiters : Delimiters}
    (world : World)
    (tracks : spot.Tracks template draft)
    (holds : reader.Holds draft)
    (solid : delimiters.Solid)
    (solids :
      ∀ visit ∈ (outline delimiters draft.unread).1, visit.after.Solid) :
    Trail lambdas partials template fuel spot (reader, delimiters) world
      ((bufferMachine lambdas).run fuel partials (reader, delimiters)
        world) := by
  induction fuel generalizing spot reader draft delimiters world with
  | zero => exact .endless
  | succ fuel ih =>
    have standing := holds.standing
    have isAt := tracks.isAt holds
    have solidNext := solid_pairsAtNext solid solids
    have steps := Draft.stepsInPlace holds solidNext lambdas
      (interpretWithin lambdas fuel) partials world
    rw [Machine.run_apply, bufferMachine_step]
    cases result : scanNode delimiters draft.unread with
    | finished =>
      rcases Reader.nextNode_of_finished standing result with ⟨after, read, -⟩
      simp only [Draft.step, result] at steps
      have stepped :
          expandNext lambdas (interpretWithin lambdas fuel) partials
            (reader, delimiters) world =
              (.ok (.inl (draft.written ++ draft.unread)), world) :=
        steps
      rw [stepped, tracks.written_eq, tracks.unread_eq, List.append_assoc]
      exact .ends isAt (by rw [read])
    | faulty before fault =>
      rcases Reader.nextNode_of_faulty standing result with ⟨after, read⟩
      rw [holds.line_eq] at read
      simp only [Draft.step, result] at steps
      have stepped :
          expandNext lambdas (interpretWithin lambdas fuel) partials
            (reader, delimiters) world =
              (.error (.failed (fault.onLine (draft.line +
                before.lineBreaksAfter draft.written.getLast?))), world) :=
        steps
      rw [stepped]
      exact .fails isAt (by rw [read])
    | found skipped block after rest =>
      have inked : block.Inked := inked_of_pairsAtNext solidNext _ _ _ _ result
      rw [Draft.step_of_found result] at steps
      generalize stands :
        (draft.pass skipped block.source rest).blockText lambdas
          (interpretWithin lambdas fuel) partials delimiters block world =
            outcome at steps
      rcases outcome with ⟨stop | text, left⟩
      · have stepped :
            expandNext lambdas (interpretWithin lambdas fuel) partials
              (reader, delimiters) world = (.error stop, left) :=
          steps
        rcases Spot.leads_of_found tracks holds result inked stands with
          ⟨lead, leads, -⟩
        rw [stepped]
        exact .stops isAt leads
      · rcases steps with ⟨reader', stepped, held⟩
        rcases Spot.leads_of_found tracks holds result inked stands with
          ⟨lead, leads, tracked⟩
        have solidAfter := solid_of_visits result solid solids
        rcases Draft.shortens_trimAround (draft.pass skipped block.source rest)
            block with
          ⟨line, unread, blank⟩
        have isRest : rest = line ++ _ := unread
        rw [outline_of_found result, isRest,
          outline_blank solidAfter blank] at solids
        have further := ih left (tracked text rfl) held solidAfter
          fun visit member => solids visit (List.mem_append_right _ member)
        rw [stepped]
        exact .goesOn isAt leads stepped further

/--
A run is a trail through its template, whatever the data, the lambdas and the
partials are, if the delimiters in effect on the way are no blanks.
-/
theorem interpretWithin_trail
    (lambdas : Lambdas)
    (fuel : Nat)
    (template : Text)
    (partials : Partials)
    (delimiters : Delimiters)
    (world : World)
    (solid : delimiters.Solid)
    (solids :
      ∀ visit ∈ Reader.visitsFrom (template.length + 1) (Reader.ofText template)
          delimiters,
        visit.after.Solid) :
    Trail lambdas partials template fuel (Spot.start template)
      (Reader.ofText template, delimiters) world
      (interpretWithin lambdas fuel template partials delimiters world) := by
  rw [Reader.visitsFrom_eq delimiters (Reader.at_ofText template)
    (Nat.lt_succ_self template.length)] at solids
  rw [interpretWithin_eq_render]
  exact trail_of_tracks fuel world (Spot.tracks_start template)
    (Reader.holds_ofText template) solid solids

/--
A value before a partial, and a section whose body changes the delimiters.
-/
theorem interpretWithin_trail_mixed :
    let template :=
      "{{v}}\n {{>p}} \n{{#s}}\n{{=| |=}}\n |/s|\r\n|v| |!c|\n".toList
    let partials : Partials := [("p", "x\n")]
    let world : World :=
      ⟨⟨#[[("s", .bool true), ("v", .string "")]]⟩,
        .ofRoot (.map ⟨⟨0⟩, none⟩)⟩
    Trail .none partials template 20 (Spot.start template)
      (Reader.ofText template, .standard) world
      (interpretWithin .none 20 template partials .standard world) := by
  intro template partials world
  have solids :
      ∀ visit ∈ Reader.visitsFrom (template.length + 1)
        (Reader.ofText template) .standard, visit.after.Solid := by
    decide +kernel
  exact interpretWithin_trail .none 20 template partials .standard world
    (by decide) solids

/--
A comment with a value before it on its line is alone there just if the value is
blank, and then the value is cut off.
-/
theorem standalone_after_value :
    let template := "{{a}} {{! c }}\nx".toList
    let answer (value : String) : Option Text :=
      (interpretWithin .none 20 template [] .standard
        ⟨⟨#[[("a", .string value)]]⟩, .ofRoot (.map ⟨⟨0⟩, none⟩)⟩).1.toOption
    (validate template .standard).toOption = some () ∧
    (∀ indentation,
      ¬Text.AloneBetween "{{a}} ".toList "\nx".toList indentation) ∧
    answer "" = some "x".toList ∧
    answer "  " = some "x".toList ∧
    answer "y" = some "y \nx".toList := by
  refine ⟨by decide +kernel, ?_, by decide +kernel, by decide +kernel,
    by decide +kernel⟩
  intro indentation alone
  have inked : Text.indentationAtEnd? "{{a}} ".toList.reverse = none := by
    decide
  cases inked.symm.trans (Text.indentationAtEnd?_eq_some_iff.2 alone.1)

end Mustache
