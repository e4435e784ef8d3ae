import Mathlib.Order.WellFoundedSet
import Mustache.Proofs.Draft.Faults
import Mustache.Proofs.Scan.Effort
import Mustache.Proofs.Value.Finite

/-!
# Rendering comes to an end

The text that a run has not read yet gets less with each block, and so it does
when a body is rendered, since the guards of a body are less than the tags of
its section (`Mustache.Proofs.Scan.Effort`).  A partial is longer than its
source once it is indented, but its effort stays the same.  So one bound on the
fuel will do for a partial whatever its indentation is, as soon as there is one
for the partials that it includes (`Draft.exists_bound_of_partial`).

The names of the partials that an indented partial includes are those in its
source only where they stand on one line, and its set-delimiter tags install the
same pairs only where those do.
-/

namespace Mustache

open RenderM

/--
One partial includes another one, at any depth of its sections, before its first
fault.
-/
def Includes (partials : Partials) (name included : String) : Prop :=
  (partials.get? included).isSome ∧ ∃ source, partials.get? name = some source ∧
    ∃ tag ∈ (survey .standard [] source.toList).1,
      tag.kind = .inclusion ∧ String.ofList tag.name = included

/-- A partial whose tags stay what they are when it is indented. -/
structure OneLinePartial (source : Text) : Prop where
  clean : ∀ pair ∈ pairsIn .standard source, pair.Clean
  inline : ∀ tag ∈ (survey .standard [] source).1, tag.SwitchesInline
  inlineFault : ∀ fault ∈ (survey .standard [] source).2, fault.SwitchesInline
  named : ∀ tag ∈ (survey .standard [] source).1, tag.kind = .inclusion →
    ∀ character ∈ tag.name, Text.isLineBreak character = false

instance (source : Text) : Decidable (OneLinePartial source) :=
  letI (text : Text) :
      Decidable (∀ character ∈ text, Text.isLineBreak character = false) :=
    List.decidableBAll _ _
  decidable_of_iff
    ((∀ pair ∈ pairsIn .standard source, pair.Clean) ∧
      (∀ tag ∈ (survey .standard [] source).1, tag.SwitchesInline) ∧
      (∀ fault ∈ (survey .standard [] source).2, fault.SwitchesInline) ∧
      ∀ tag ∈ (survey .standard [] source).1,
        tag.kind = .inclusion →
        ∀ character ∈ tag.name, Text.isLineBreak character = false)
    ⟨fun ⟨clean, inline, inlineFault, named⟩ =>
        ⟨clean, inline, inlineFault, named⟩,
      fun ⟨clean, inline, inlineFault, named⟩ =>
        ⟨clean, inline, inlineFault, named⟩⟩

/--
Partials do not include themselves if each includes only partials of a lower
rank.
-/
theorem acyclic_of_rank
    {partials : Partials}
    (rank : String → Nat)
    (descends :
      ∀ entry ∈ partials,
        ∀ tag ∈ (survey .standard [] entry.2.toList).1,
          tag.kind = .inclusion → rank (String.ofList tag.name) < rank entry.1)
    (name : String) :
    ¬Relation.TransGen (Includes partials) name name := by
  intro cycle
  have below {included : String}
      (includes : Relation.TransGen (Includes partials) name included) :
      rank included < rank name := by
    induction includes with
    | single step =>
      rcases step with ⟨-, source, found, tag, member, kind, rfl⟩
      exact descends _ (Entries.mem_of_get? found) tag member kind
    | tail _ step ih =>
      rcases step with ⟨-, source, found, tag, member, kind, rfl⟩
      exact (descends _ (Entries.mem_of_get? found) tag member kind).trans ih
  exact Nat.lt_irrefl _ (below cycle)

/--
Partials that do not include themselves are included in an order that comes to
an end.
-/
theorem wellFounded_includes
    {partials : Partials}
    (acyclic : ∀ name, ¬Relation.TransGen (Includes partials) name name) :
    WellFounded fun included name => Includes partials name included := by
  let below (included name : String) : Prop :=
    Relation.TransGen (Includes partials) name included
  have : IsStrictOrder String below :=
    { irrefl := acyclic
      trans := fun _ _ _ first second => second.trans first }
  have finite : {name | (partials.get? name).isSome}.Finite := by
    apply (partials.map Prod.fst).finite_toSet.subset
    intro name isSome
    rcases Option.isSome_iff_exists.1 isSome with ⟨source, found⟩
    exact List.mem_map.2 ⟨_, Entries.mem_of_get? found, rfl⟩
  constructor
  intro name
  constructor
  intro included isIncluded
  refine (finite.wellFoundedOn (r := below)).induction isIncluded.1 ?_
  intro name _ ih
  constructor
  intro included isIncluded
  exact ih included isIncluded.1 (.single isIncluded)

namespace Draft

variable
    {store : Store}
    {known : Value → Prop}
    {world : World}
    {lambdas : Lambdas}
    {partials : Partials}
    {delimiters after : Delimiters}
    {draft : Draft}
    {bound : Nat}
    {unread skipped rest : Text}
    {block : Block}

/--
From some fuel on, a template is rendered or a fault is reported, in known
worlds.
-/
def EndsWithin
    (store : Store)
    (known : Value → Prop)
    (lambdas : Lambdas)
    (partials : Partials)
    (bound : Nat)
    (template : Text)
    (delimiters : Delimiters) : Prop :=
  ∀ fuel, bound ≤ fuel → ∀ world : World, world.Within store known →
    Settles world (fun _ => True) (fun stop => ∃ error, stop = .failed error)
      ((cautious lambdas).render fuel template partials delimiters)

/-- The same for a partial, whatever its indentation is. -/
def PartialEndsWithin
    (store : Store)
    (known : Value → Prop)
    (lambdas : Lambdas)
    (partials : Partials)
    (bound : Nat)
    (name : String) : Prop :=
  ∀ source,
    partials.get? name = some source →
    ∀ indentation : Text,
      (∀ character ∈ indentation, Text.isInlineBlank character = true) →
      EndsWithin store known lambdas partials bound
        (Text.indent source.toList indentation) .standard

theorem PartialEndsWithin.mono
    {more : Nat}
    {name : String}
    (ends : PartialEndsWithin store known lambdas partials bound name)
    (le : bound ≤ more) :
    PartialEndsWithin store known lambdas partials more name :=
  fun source found indentation inline fuel enough =>
    ends source found indentation inline fuel (le.trans enough)

/--
The pairs of a text are clean, and the partials that it includes end within a
bound.
-/
structure Bounded
    (store : Store)
    (known : Value → Prop)
    (lambdas : Lambdas)
    (partials : Partials)
    (bound : Nat)
    (unread : Text)
    (delimiters : Delimiters) : Prop where
  clean : ∀ pair ∈ pairsIn delimiters unread, pair.Clean
  includes :
    ∀ tag ∈ (survey delimiters [] unread).1,
      tag.kind = .inclusion →
      PartialEndsWithin store known lambdas partials bound
        (String.ofList tag.name)

/-- So it is with what is left behind a block. -/
theorem Bounded.of_survey
    (bounded : Bounded store known lambdas partials bound unread delimiters)
    {tags : List Piece}
    (onTheWay : after ∈ pairsOf delimiters tags)
    (surveyed :
      survey delimiters [] unread =
        (tags ++ (survey after [] rest).1, (survey after [] rest).2)) :
    Bounded store known lambdas partials bound rest after := by
  constructor
  · intro pair member
    exact bounded.clean pair (pairsIn_of_surveyed onTheWay surveyed pair member)
  · intro tag member
    apply bounded.includes tag
    rw [surveyed]
    exact List.mem_append_right _ member

/-- And with the body of a section, cut and guarded. -/
theorem Bounded.body
    (bounded : Bounded store known lambdas partials bound unread delimiters)
    {opener closer : Piece}
    {body inner : Text}
    (result :
      scanNode delimiters unread =
        .found skipped (.paired opener body closer) after rest)
    (trimmed : body.TrimsTo inner)
    (startsLine : Bool) :
    Bounded store known lambdas partials bound (guarded inner startsLine)
      delimiters := by
  rcases survey_guarded_of_paired bounded.clean result trimmed startsLine with
    ⟨tags, surveyed, subset⟩
  constructor
  · intro pair member
    exact bounded.clean pair
      (pairsIn_guarded_subset bounded.clean result trimmed startsLine pair
        member)
  · intro tag member
    rw [surveyed] at member
    exact bounded.includes tag (subset tag member)

/-- Once a block was expanded there is less to read. -/
theorem effort_trimAround_lt
    (result :
      scanNode delimiters draft.unread = .found skipped block after rest)
    (solid : delimiters.Solid) :
    effort after
        ((draft.pass skipped block.source rest).trimAround block).unread <
      effort delimiters draft.unread := by
  by_cases isText : ∃ piece, block = .leaf piece ∧ piece.kind = .text
  · rcases isText with ⟨piece, rfl, kind⟩
    rw [trimAround_of_not_takesLine (by rw [kind]; rfl)]
    have nothing : rest = [] ++ rest := rfl
    exact effort_lt_of_found result solid nothing fun _ _ _ => rfl
  · rcases shortens_trimAround (draft.pass skipped block.source rest) block with
      ⟨line, isRest, -⟩
    exact effort_lt_of_found result solid isRest fun piece isLeaf kind =>
      absurd ⟨piece, isLeaf, kind⟩ isText

/-- A block ends if the partials end that it includes, and if its body does. -/
theorem settles_boundedBlock
    (values : PlainValues store known)
    (showable : ¬Unshowable store known)
    (within : world.Within store known)
    {fuel : Nat}
    (bounded : Bounded store known lambdas partials bound unread delimiters)
    (enough : bound ≤ fuel)
    (bodies :
      ∀ template,
        effort delimiters template < effort delimiters unread →
        Bounded store known lambdas partials bound template delimiters →
        ∀ world : World,
          world.Within store known →
          Settles world (fun _ => True)
            (fun stop => ∃ error, stop = .failed error)
            ((cautious lambdas).render fuel template partials delimiters))
    (result : scanNode delimiters unread = .found skipped block after rest)
    (solid : delimiters.Solid)
    (solidAfter : after.Solid)
    (draft : Draft) :
    Settles world (block.Renders fun _ => True)
      (fun stop => ∃ error, stop = .failed error)
      (draft.blockText lambdas ((cautious lambdas).render fuel) partials
        delimiters block) := by
  apply settles_blockText values within
    (fun unshowable => absurd unshowable showable)
  · rintro piece rfl kind source found indentation inline
    have isTag : piece.tags = [piece] :=
      if_neg (by rw [kind]; exact TokenKind.noConfusion)
    have member : piece ∈ (survey delimiters [] unread).1 := by
      simp [(survey_of_node_leaf result).2, isTag]
    exact bounded.includes piece member kind source found indentation inline
      fuel enough world within
  · rintro opener body closer rfl inner trimmed startsLine world within
    exact bodies _
      (effort_guarded_lt result solid solidAfter trimmed startsLine)
      (bounded.body result trimmed startsLine) world within

/--
A run ends when there is fuel for its partials and for each block that may be
unread.  A section's body has one less fuel, but there is less of it, too.
-/
theorem settles_boundedRun
    (values : PlainValues store known)
    (showable : ¬Unshowable store known)
    (fuel : Nat)
    (within : world.Within store known)
    (bounded :
      Bounded store known lambdas partials bound draft.unread delimiters)
    (enough : bound + effort delimiters draft.unread < fuel) :
    Settles world (fun _ => True) (fun stop => ∃ error, stop = .failed error)
      ((cautious lambdas).run fuel partials (draft, delimiters)) := by
  induction fuel generalizing world draft delimiters with
  | zero => cases enough
  | succ fuel ih =>
    have solids : ∀ pair ∈ pairsAtNext draft.unread delimiters, pair.Solid :=
      fun pair member =>
      (bounded.clean pair
        (pairsAtNext_subset delimiters draft.unread pair member)).1
    have solid : delimiters.Solid := solids delimiters List.mem_cons_self
    have step : Settles world
        (Sum.elim (fun _ => True) fun next =>
          Bounded store known lambdas partials bound next.1.unread next.2 ∧
            effort next.2 next.1.unread < effort delimiters draft.unread)
        (fun stop => ∃ error, stop = .failed error)
        ((cautious lambdas).step ((cautious lambdas).render fuel) partials
          (draft, delimiters)) := by
      apply settles_cautiousStep solids
      · exact fun _ => True.intro
      · exact fun before fault _ line => ⟨_, rfl⟩
      · intro skipped block after rest result
        have solidAfter : after.Solid :=
          solids after (by simp [pairsAtNext, result])
        have bodies :
            ∀ template,
              effort delimiters template < effort delimiters draft.unread →
              Bounded store known lambdas partials bound template delimiters →
              ∀ world : World,
                world.Within store known →
                Settles world (fun _ => True)
                  (fun stop => ∃ error, stop = .failed error)
                  ((cautious lambdas).render fuel template partials
                    delimiters) :=
          fun template less bounded world within =>
            ih within bounded (by
              show bound + effort delimiters template < fuel
              omega)
        apply
          (settles_boundedBlock values showable within bounded (by omega) bodies
            result solid solidAfter _).mono
          ?_ fun _ => id
        intro text _
        rcases survey_of_trimAround result solidAfter with
          ⟨⟨tags, onTheWay, surveyed⟩, -⟩
        exact ⟨bounded.of_survey onTheWay surveyed,
          effort_trimAround_lt result solid⟩
    rw [Machine.run_succ]
    apply step.bind
    rintro (text | ⟨draft', after⟩) holds
    · exact .pure True.intro
    · have lowers :
          effort after draft'.unread < effort delimiters draft.unread :=
        holds.2
      exact ih within holds.1 (by omega)

/-! ## Partials -/

/-- An indented partial includes what its source includes. -/
theorem Bounded.of_indent
    {source indentation : Text}
    (oneLine : OneLinePartial source)
    (inline : ∀ character ∈ indentation, Text.isInlineBlank character = true)
    (includes :
      ∀ tag ∈ (survey .standard [] source).1,
        tag.kind = .inclusion →
        PartialEndsWithin store known lambdas partials bound
          (String.ofList tag.name)) :
    Bounded store known lambdas partials bound (source.indent indentation)
      .standard := by
  have solid : ∀ pair ∈ pairsIn .standard source, pair.Solid :=
    fun pair member => (oneLine.clean pair member).1
  rcases survey_indent inline solid oneLine.inline oneLine.inlineFault with
    ⟨surveyed, pairs⟩
  constructor
  · rw [pairs]
    exact oneLine.clean
  · intro tag member kind
    rw [surveyed] at member
    rcases List.mem_map.1 member with ⟨original, within, rfl⟩
    rw [kind_indented] at kind
    have named := oneLine.named original within kind
    rw [name_indented indentation (by rw [kind]; exact TokenKind.noConfusion),
      Text.indentFrom_of_inline named]
    exact includes original within kind

/-- Finitely many partials end within a common bound. -/
theorem exists_common_bound
    {tags : List Piece}
    (each :
      ∀ tag ∈ tags,
        tag.kind = .inclusion →
        ∃ bound,
          PartialEndsWithin store known lambdas partials bound
            (String.ofList tag.name)) :
    ∃ bound,
      ∀ tag ∈ tags,
        tag.kind = .inclusion →
        PartialEndsWithin store known lambdas partials bound
          (String.ofList tag.name) := by
  induction tags with
  | nil => exact ⟨0, by simp⟩
  | cons tag tags ih =>
    rcases List.forall_mem_cons.1 each with ⟨first, others⟩
    rcases ih others with ⟨bound, ends⟩
    by_cases kind : tag.kind = .inclusion
    · rcases first kind with ⟨own, ownEnds⟩
      refine ⟨max own bound,
        List.forall_mem_cons.2 ⟨fun _ => ?_, fun tag member kind => ?_⟩⟩
      · exact ownEnds.mono (Nat.le_max_left own bound)
      · exact (ends tag member kind).mono (Nat.le_max_right own bound)
    · exact ⟨bound,
        List.forall_mem_cons.2 ⟨fun isInclusion => absurd isInclusion kind,
          ends⟩⟩

/-- A partial ends within some bound, by induction on what it includes. -/
theorem exists_bound_of_partial
    (values : PlainValues store known)
    (showable : ¬Unshowable store known)
    (lambdas : Lambdas)
    (oneLine :
      ∀ name source,
        partials.get? name = some source → OneLinePartial source.toList)
    (acyclic : ∀ name, ¬Relation.TransGen (Includes partials) name name)
    (name : String) :
    ∃ bound, PartialEndsWithin store known lambdas partials bound name := by
  induction name using (wellFounded_includes acyclic).induction with
  | _ name ih =>
    cases found : partials.get? name with
    | none =>
      refine ⟨0, fun source isSource => ?_⟩
      rw [found] at isSource
      cases isSource
    | some source =>
      have each :
          ∀ tag ∈ (survey .standard [] source.toList).1,
            tag.kind = .inclusion →
            ∃ bound,
              PartialEndsWithin store known lambdas partials bound
                (String.ofList tag.name) := by
        intro tag member kind
        cases included : partials.get? (String.ofList tag.name) with
        | none =>
          refine ⟨0, fun source isSource => ?_⟩
          rw [included] at isSource
          cases isSource
        | some _ =>
          exact ih _
            ⟨by rw [included]; rfl, source, found, tag, member, kind, rfl⟩
      rcases exists_common_bound each with ⟨bound, includes⟩
      refine ⟨bound + 2 * Text.ink source.toList + 2, ?_⟩
      intro source' isSource indentation inline fuel enough world within
      rw [found] at isSource
      cases isSource
      have bounded :=
        Bounded.of_indent (oneLine name source found) inline includes
      have most := effort_le .standard (Text.indent source.toList indentation)
      rw [Text.indent_eq,
        Text.ink_indentFrom (Text.blank_of_inlineBlank inline),
        ← Text.indent_eq] at most
      exact settles_boundedRun values showable fuel within bounded (by
        show
          bound + effort .standard (Text.indent source.toList indentation) <
            fuel
        omega)

/-- The cautious renderer heeds its renderers. -/
theorem cautious_simulates_itself (lambdas : Lambdas) :
    Machine.Simulates (· = .endless) Eq (cautious lambdas)
      (cautious lambdas) where
  start _ _ := rfl
  step := by
    rintro nested nested' renderers partials state _ rfl
    show
      Agree _ _
        (if ∀ pair ∈ pairsAtNext state.1.unread state.2, pair.Solid then
            step lambdas nested partials state
          else
            throw .cutsCharacter)
        (if ∀ pair ∈ pairsAtNext state.1.unread state.2, pair.Solid then
            step lambdas nested' partials state
          else
            throw .cutsCharacter)
    split
    · apply (agree_step renderers lambdas partials state).mono
      rintro (text | next) _ rfl
      · exact .inl rfl
      · exact .inr rfl
    · exact agree_throw _

end Draft

variable
    {store : Store}
    {data : Value}
    {template : Text}
    {partials : Partials}
    {delimiters : Delimiters}

/--
Where every run with more fuel than a bound settles, they all come to the same
end.
-/
theorem exists_outcome_of_settles
    {lambdas : Lambdas}
    {world : World}
    {bound : Nat}
    (ends :
      ∀ fuel,
        bound < fuel →
        Settles world (fun _ => True)
          (fun stop => ∃ error, stop = .failed error)
          ((Draft.cautious lambdas).run fuel partials
            (Draft.ofText template, delimiters))) :
    ∃ outcome,
      ((∃ text, outcome = .ok text) ∨
        ∃ error, outcome = .error (.failed error)) ∧
      ∀ fuel,
        bound < fuel →
        interpretWithin lambdas fuel template partials delimiters world =
          (outcome, world) := by
  have cautiously (fuel : Nat) (enough : bound < fuel) :
      interpretWithin lambdas fuel template partials delimiters world =
        (Draft.cautious lambdas).run fuel partials
          (Draft.ofText template, delimiters) world :=
    (solidRun_of_settles (ends fuel enough) (by rintro ⟨_, ⟨⟩⟩)).eq_cautious
  have first := ends (bound + 1) (Nat.lt_succ_self bound) world rfl
  have same {fuel : Nat} (enough : bound < fuel) (notEndless : _) :
      (Draft.cautious lambdas).run fuel partials
          (Draft.ofText template, delimiters) world =
        (Draft.cautious lambdas).run (bound + 1) partials
          (Draft.ofText template, delimiters) world :=
    Machine.run_of_le (Draft.cautious_simulates_itself lambdas) rfl enough
      notEndless
  generalize (Draft.cautious lambdas).run (bound + 1) partials
    (Draft.ofText template, delimiters) world = outcome at first same
  rcases outcome with ⟨stop | text, left⟩
  · rcases first with ⟨⟨error, rfl⟩, rfl⟩
    refine ⟨_, .inr ⟨error, rfl⟩, fun fuel enough => ?_⟩
    rw [cautiously fuel enough]
    exact same enough (by rintro stop ⟨⟩ ⟨⟩)
  · rcases first with ⟨-, rfl⟩
    refine ⟨_, .inl ⟨text, rfl⟩, fun fuel enough => ?_⟩
    rw [cautiously fuel enough]
    exact same enough (by rintro stop ⟨⟩)

/--
Rendering ends, with a text or with an error that it reports, when no partial
includes itself, the data are finite and hold neither lambdas nor primitive
conversions, and delimiters hold neither blanks nor equals signs.  From some
fuel on, more fuel makes no difference.
-/
theorem interpretWithin_terminates
    (clean : ∀ pair ∈ pairsIn delimiters template, pair.Clean)
    (oneLine :
      ∀ name source,
        partials.get? name = some source → OneLinePartial source.toList)
    (acyclic : ∀ name, ¬Relation.TransGen (Includes partials) name name)
    (plain : PlainData store data)
    (finite : data.IsFinite store)
    (lambdas : Lambdas) :
    ∃ fuel outcome,
      ((∃ text, outcome = .ok text) ∨
        ∃ error, outcome = .error (.failed error)) ∧
      ∀ more,
        fuel ≤ more →
        interpretWithin lambdas more template partials delimiters
            ⟨store, .ofRoot data⟩ =
          (outcome, ⟨store, .ofRoot data⟩) := by
  have showable : ¬Unshowable store fun value =>
      value = .bool true ∨ data.Reaches store value := by
    rintro ⟨value, rfl | reached, unshown⟩
    · cases unshown
    · exact Value.text?_of_isFinite (reached.isFinite finite) unshown
  have within :
      World.Within store
        (fun value => value = .bool true ∨ data.Reaches store value)
        ⟨store, .ofRoot data⟩ :=
    World.within_ofRoot (.inr .data)
  have each :
      ∀ tag ∈ (survey delimiters [] template).1, tag.kind = .inclusion → _ :=
    fun tag _ _ =>
      Draft.exists_bound_of_partial plain.values showable lambdas oneLine
        acyclic (String.ofList tag.name)
  rcases Draft.exists_common_bound each with ⟨bound, includes⟩
  rcases exists_outcome_of_settles fun fuel enough =>
    Draft.settles_boundedRun plain.values showable fuel within ⟨clean, includes⟩
        enough with
    ⟨outcome, isEnd, same⟩
  exact ⟨bound + effort delimiters template + 1, outcome, isEnd, same⟩

/--
A partial in a section, indented over several lines, and another one in it that
has a fault.
-/
theorem interpretWithin_terminates_nested :
    let store : Store :=
      ⟨#[[("s", .list [.bool true, .map ⟨⟨1⟩, none⟩]), ("x", .string "a\n")],
          [("x", .string "<é")]]⟩
    let data : Value := .map ⟨⟨0⟩, none⟩
    let template := "<#s>\n  <@p>\n</s>\n<=| |=>|x|".toList
    let partials : Partials :=
      [("p",
        "a\x7b\x7b!\n c \x7d\x7d\n\x7b\x7b^y\x7d\x7d\n \x7b\x7b@q\x7d\x7d\n\x7b\x7b/y\x7d\x7d"),
        ("q", "\x7b\x7b=[ ]=\x7d\x7d\n[x] [@r]\n[/p] [@p]")]
    let delimiters : Delimiters := ⟨['<'], ['>']⟩
    ∃ fuel outcome,
      ((∃ text, outcome = .ok text) ∨
        ∃ error, outcome = .error (.failed error)) ∧
      ∀ more,
        fuel ≤ more →
        interpretWithin .none more template partials delimiters
            ⟨store, .ofRoot data⟩ =
          (outcome, ⟨store, .ofRoot data⟩) := by
  intro store data template partials delimiters
  have oneLine (name source : String)
      (found : partials.get? name = some source) :
      OneLinePartial source.toList := by
    rcases List.mem_cons.1 (Entries.mem_of_get? found) with isFirst | isSecond
    · cases isFirst
      decide +kernel
    · cases List.mem_singleton.1 isSecond
      decide +kernel
  have acyclic : ∀ name, ¬Relation.TransGen (Includes partials) name name :=
    acyclic_of_rank
      (fun name => if name = "p" then 2 else if name = "q" then 1 else 0)
      (by decide +kernel)
  exact interpretWithin_terminates (by decide +kernel) oneLine acyclic
    (plainData_of_isPlain (by decide) (by decide))
    (Value.isFinite_of_isFiniteWithin 4 (by decide +kernel)) .none

end Mustache
