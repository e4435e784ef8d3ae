import Mathlib.Data.List.Infix
import Mustache.Proofs.Draft.Completion
import Mustache.Proofs.Reader.Edges

/-!
# Two templates, one after the other

Rendering two templates in one goes through the first and then through the
second, and gives their texts one after the other, where the seam between the
two is solid: there is text on either side of it, with no blank next to it, and
no opening delimiter reaches across (`Reader.SolidSeam`).

Up to the seam a run is that of the first template.  All tags of that template
are closed in front of the seam, and the rest of a line is not blank where it
would reach beyond.  Behind the seam it is that of the second template.  What
the first one left is never read again, and no indentation reaches back into it.
-/

namespace Mustache

open RenderM

/-- Where a pattern starts in the first of two texts, it ends there, too. -/
def Text.Apart (pattern first second : Text) : Prop :=
  ∀ later ∈ first.tails,
    later ≠ [] → pattern <+: later ++ second → pattern <+: later

instance (pattern first second : Text) :
    Decidable (Text.Apart pattern first second) :=
  inferInstanceAs (Decidable (∀ later ∈ first.tails, _ → _ → _))

theorem Text.Apart.of_suffix
    {pattern first suffix second : Text}
    (apart : Apart pattern first second)
    (ends : suffix <:+ first) :
    Apart pattern suffix second := by
  intro later member
  exact apart later
    ((List.mem_tails _ _).2 (((List.mem_tails _ _).1 member).trans ends))

/--
Text that ends with no blank still does when a blank line is cut off its start.
-/
theorem Text.getLast?_behind_blanks
    {line rest : Text}
    {last : Char}
    (blank : ∀ character ∈ line, isBlank character = true)
    (isLast : (line ++ rest).getLast? = some last)
    (solid : isBlank last = false) :
    rest.getLast? = some last := by
  cases rest with
  | nil =>
    rw [List.append_nil] at isLast
    rw [blank last (List.mem_of_getLast? isLast)] at solid
    cases solid
  | cons first rest =>
    rwa [List.getLast?_append_of_ne_nil _ (List.cons_ne_nil first rest)]
      at isLast

namespace Draft

variable
    {lambdas : Lambdas}
    {partials : Partials}
    {delimiters final : Delimiters}
    {draft : Draft}
    {world between left : World}
    {text text' second : Text}

/--
No tag opens in the last stretch of a text, when none reaches across its end.
-/
theorem closed_of_last
    {unread skipped : Text}
    {piece : Piece}
    (result : scan delimiters unread = .found skipped piece [])
    (isText : piece.kind = .text)
    (apart : Text.Apart delimiters.opening unread second) :
    ∀ later,
      later <:+ piece.source → later ≠ [] →
      delimiters.opensAt (later ++ second) = false := by
  intro later ends nonempty
  rcases read_of_scan result with ⟨-, -, made⟩
  have isUnread := (scan_eq_found result).1
  rw [List.append_nil] at made isUnread
  apply Bool.eq_false_iff.2
  intro opens
  rcases opensAt_iff.1 opens with ⟨opening, closing, reaches⟩
  have starts : delimiters.opening <+: later := by
    apply apart.of_suffix
      (ends.trans (isUnread ▸ List.suffix_append skipped piece.source)) later
    · exact (List.mem_tails _ _).2 List.suffix_rfl
    · exact nonempty
    · exact reaches
  rcases Lexeme.piece_eq_ok made with ⟨isPlain, -, -⟩ | ⟨body, isTag⟩
  · rcases Lexeme.read_eq_plain isPlain with ⟨closed, isSource⟩
    rcases Lexeme.readPlain_ends delimiters.opening piece.source with
      ⟨rest, isStretch, -, absent⟩
    have notHere : ¬delimiters.opening <+: piece.source := by
      intro here
      exact Bool.eq_false_iff.1 closed (opensAt_iff.2 ⟨opening, closing, here⟩)
    rw [← isSource] at absent
    rcases ends with ⟨earlier, split⟩
    exact absent opening notHere earlier later split.symm nonempty
      (starts.trans (List.prefix_append later rest))
  · exact absurd isText (Lexeme.kind_of_read isTag)

/-- The last stretch of a text goes on in the text behind it. -/
theorem Completes.append_last
    {skipped : Text}
    {piece : Piece}
    (completes : Completes lambdas partials draft delimiters world text between)
    (result : scan delimiters draft.unread = .found skipped piece [])
    (isText : piece.kind = .text)
    (apart : Text.Apart delimiters.opening draft.unread second)
    (further :
      ∀ line,
        Completes lambdas partials ⟨text, second, line⟩ delimiters between text'
          left) :
    Completes lambdas partials { draft with unread := draft.unread ++ second }
      delimiters world text' left := by
  rcases
      ((completes_text_iff result isText draft.written draft.line draft.line).1
        completes).of_nil with ⟨rfl, rfl⟩
  have closed := closed_of_last result isText apart
  have nonempty := (scan_eq_found result).2
  have isBehind := scan_append_eq_behind result second
  have isUnread := (scan_eq_found result).1
  rw [List.append_nil] at isUnread
  rw [List.nil_append, isUnread, List.append_assoc] at isBehind
  have here : delimiters.opensAt (piece.source ++ second) = false :=
    closed piece.source List.suffix_rfl nonempty
  show
    Completes lambdas partials
      ⟨draft.written, draft.unread ++ second, draft.line⟩ _ _ _ _
  rw [isUnread, List.append_assoc,
    completes_behind_iff (by simp [nonempty]) here isBehind draft.written
      draft.line,
    completes_append_iff closed (draft.written ++ skipped) draft.line,
    List.append_assoc]
  exact further draft.line

/--
What is left of a first template ends in text, with no blank at its end, and no
opening delimiter reaches from it into the second one.
-/
structure Seam
    (delimiters : Delimiters)
    (unread second : Text)
    (final : Delimiters) : Prop where
  endsInText : EndsInText delimiters unread final
  lastSolid : ∃ last, unread.getLast? = some last ∧ Text.isBlank last = false
  apart : Text.Apart final.opening unread second

namespace Seam

variable {unread skipped line rest : Text} {block : Block} {after : Delimiters}

theorem behind
    (seam : Seam delimiters unread second final)
    (result : scanNode delimiters unread = .found skipped block after rest)
    (more : rest ≠ []) :
    Seam after rest second final := by
  have isUnread := (scanNode_eq_found result).1
  rw [← List.append_assoc] at isUnread
  refine ⟨(seam.endsInText.of_node result).1, ?_, ?_⟩
  · rcases seam.lastSolid with ⟨last, isLast, notBlank⟩
    rw [isUnread, List.getLast?_append_of_ne_nil _ more] at isLast
    exact ⟨last, isLast, notBlank⟩
  · exact seam.apart.of_suffix (isUnread ▸ List.suffix_append _ rest)

theorem blank
    (seam : Seam delimiters (line ++ rest) second final)
    (solid : delimiters.Solid)
    (isBlank : ∀ character ∈ line, Text.isBlank character = true) :
    Seam delimiters rest second final := by
  refine ⟨((EndsInText.passesText delimiters final).blank solid isBlank rest).mp
      seam.endsInText, ?_, seam.apart.of_suffix (List.suffix_append line rest)⟩
  rcases seam.lastSolid with ⟨last, isLast, notBlank⟩
  exact ⟨last, Text.getLast?_behind_blanks isBlank isLast notBlank, notBlank⟩

end Seam

/--
Up to the seam, the run is that of the first template: a draft whose text ends
in text leads to where the text behind it starts.
-/
theorem Completes.append
    (completes : Completes lambdas partials draft delimiters world text between)
    (seam : Seam delimiters draft.unread second final)
    (further :
      ∀ line,
        Completes lambdas partials ⟨text, second, line⟩ final between text'
          left) :
    Completes lambdas partials { draft with unread := draft.unread ++ second }
      delimiters world text' left := by
  induction completes with
  | @finished draft delimiters world solid result =>
    rcases seam.lastSolid with ⟨last, isLast, -⟩
    rw [seam.endsInText.of_finished result] at isLast
    cases isLast
  | @block draft delimiters after world next between skipped rest made text
      block needed solid result stands later ih =>
    by_cases more : rest = []
    · subst more
      rcases seam.endsInText.of_node result with ⟨endsBehind, isLast⟩
      rcases isLast rfl with ⟨piece, rfl, isText⟩
      rcases scanNode_eq_leaf result with ⟨isScan, -, -, isAfter⟩
      have other : piece.kind ≠ .setDelimiters :=
        ne_of_eq_of_ne isText TokenKind.noConfusion
      rw [delimitersAfter_of_scan isScan other] at isAfter
      subst isAfter
      rcases endsBehind.of_nil with rfl
      exact (Completes.block solid result stands later).append_last isScan
        isText seam.apart further
    · have behind := seam.behind result more
      rcases behind.lastSolid with ⟨last, isLast, notBlank⟩
      have ext :
          Extends [] second draft
            { draft with unread := draft.unread ++ second } :=
        ⟨rfl, rfl⟩
      have passed := ext.pass skipped block.source rest
      have same :
          SameLine (draft.pass skipped block.source rest)
            (Draft.pass { draft with unread := draft.unread ++ second } skipped
              block.source (rest ++ second)) :=
        ⟨rfl, Text.lineAtStart?_append_of_getLast isLast notBlank second⟩
      have onward := (passed.trimAround same block).write made
      rw [← same.blockText_eq] at stands
      refine .block solid (scanNode_append result more second) stands ?_
      rcases shortens_trimAround (draft.pass skipped block.source rest)
          block with ⟨line, isRest, blank⟩
      have isLine : rest = line ++ _ := isRest
      rw [isLine] at behind
      exact (ih (behind.blank later.solid blank) further).congr
        onward.written_eq onward.unread_eq

/--
Behind the seam, the run is that of the second template, with the first text
before it.
-/
theorem Completes.prepend
    {character : Char}
    {rest : Text}
    (completes :
      Completes lambdas partials (ofText (character :: rest)) delimiters world
        text left)
    (closed : delimiters.opensAt (character :: rest) = false)
    (notBlank : Text.isBlank character = false)
    (before : Text)
    (line : Nat) :
    Completes lambdas partials ⟨before, character :: rest, line⟩ delimiters
      world (before ++ text) left := by
  have passed := (completes_cons_iff closed [] 1 1).1 completes
  have ext :
      Extends before [] ⟨[] ++ [character], rest, 1⟩
        ⟨before ++ [character], rest, line⟩ :=
    ⟨rfl, (List.append_nil rest).symm⟩
  exact (completes_cons_iff closed before line line).2
    (passed.extend ext (.inr ⟨character, rfl, notBlank⟩))

end Draft

/-! ## Solid seams -/

namespace Reader

/-- The pair in effect at the end of a template. -/
def pairAtEnd?
    (template : Text)
    (delimiters : Delimiters) : Option Delimiters :=
  ((ofText template).tokens delimiters).1.toOption.map
    (·.foldl delimitersAfter delimiters)

/--
The seam between two templates is solid: the last character of the first one and
the first character of the second one are no blanks and belong to text, and
where an opening delimiter starts in the first template, it ends there.  The
pair `between` is in effect at the seam.
-/
structure SolidSeam
    (first : Text)
    (delimiters : Delimiters)
    (second : Text)
    (between : Delimiters) : Prop where
  leaves : pairAtEnd? first delimiters = some between
  lastIsText : LastIsText ((ofText first).tokens delimiters)
  firstIsText : FirstIsText ((ofText second).tokens between)
  lastSolid : ∃ last ∈ first.getLast?, Text.isBlank last = false
  firstSolid : ∃ character ∈ second.head?, Text.isBlank character = false
  apart : Text.Apart between.opening first second

theorem SolidSeam.endsInText
    {first second : Text}
    {delimiters between : Delimiters}
    (seam : SolidSeam first delimiters second between) :
    EndsInText delimiters first between := by
  have last := seam.lastIsText
  have leaves := seam.leaves
  rcases read : (ofText first).tokens delimiters with ⟨error | tokens, after⟩
  · rw [read] at last
    exact last.elim
  · rw [pairAtEnd?, read] at leaves
    cases leaves
    rw [read] at last
    exact endsInText_of_tokens read last

end Reader

variable
    {first second : Text}
    {delimiters between : Delimiters}
    {partials : Partials}
    {lambdas : Lambdas}
    {text text' : Text}

/--
The second template may be rendered in another world, which the first one left.
-/
theorem interpretWithin_append_worlds
    {world world' left : World}
    {fuel fuel' : Nat}
    (seam : Reader.SolidSeam first delimiters second between)
    (solidFirst : ∀ pair ∈ pairsIn delimiters first, pair.Solid)
    (solidSecond : ∀ pair ∈ pairsIn between second, pair.Solid)
    (rendersFirst :
      interpretWithin lambdas fuel first partials delimiters world =
        (.ok text, world'))
    (rendersSecond :
      interpretWithin lambdas fuel' second partials between world' =
        (.ok text', left)) :
    ∃ enough,
      ∀ more,
        enough ≤ more →
        interpretWithin lambdas more (first ++ second) partials delimiters
            world =
          (.ok (text ++ text'), left) := by
  have completesFirst :=
    Draft.completes_of_interpretWithin solidFirst rendersFirst
  have completesSecond :=
    Draft.completes_of_interpretWithin solidSecond rendersSecond
  rcases seam.firstSolid with ⟨character, isFirst, notBlank⟩
  rcases List.head?_eq_some_iff.1 isFirst with ⟨rest, rfl⟩
  have closed := Reader.not_opensAt_of_firstIsText seam.firstIsText
  apply Draft.interpretWithin_of_completes
  exact completesFirst.append ⟨seam.endsInText, seam.lastSolid, seam.apart⟩
    (completesSecond.prepend closed notBlank text)

/--
Where the seam between two templates is solid, rendering them in one gives the
texts that rendering them one by one gives, with all data without lambdas and
primitive conversions.
-/
theorem interpretWithin_append
    {store : Store}
    {data : Value}
    {fuel fuel' : Nat}
    (seam : Reader.SolidSeam first delimiters second between)
    (solidFirst : ∀ pair ∈ pairsIn delimiters first, pair.Solid)
    (solidSecond : ∀ pair ∈ pairsIn between second, pair.Solid)
    (plain : PlainData store data)
    (rendersFirst :
      (interpretWithin lambdas fuel first partials delimiters
          ⟨store, .ofRoot data⟩).1 =
        .ok text)
    (rendersSecond :
      (interpretWithin lambdas fuel' second partials between
          ⟨store, .ofRoot data⟩).1 =
        .ok text') :
    ∃ enough,
      ∀ more,
        enough ≤ more →
        (interpretWithin lambdas more (first ++ second) partials delimiters
            ⟨store, .ofRoot data⟩).1 =
          .ok (text ++ text') := by
  have keeps :=
    keeps_expandRest (plain.values.pure lambdas)
      (World.within_ofRoot (.inr .data)) fuel partials
      (Reader.ofText first, delimiters)
  have firstRun : interpretWithin lambdas fuel first partials delimiters
      ⟨store, .ofRoot data⟩ = (.ok text, ⟨store, .ofRoot data⟩) :=
    Prod.ext rendersFirst keeps.world_eq
  have secondRun : interpretWithin lambdas fuel' second partials between
      ⟨store, .ofRoot data⟩ = (.ok text', _) := Prod.ext rendersSecond rfl
  rcases interpretWithin_append_worlds seam solidFirst solidSecond firstRun
      secondRun with ⟨enough, renders⟩
  refine ⟨enough, ?_⟩
  intro more le
  rw [renders more le]

/--
The first template switches to another pair and ends in a part of an opening
delimiter.  The second one starts with what could close a tag.
-/
theorem interpretWithin_append_switch :
    let store : Store :=
      ⟨#[[("s", .list [.bool true, .null]), ("x", .string "<|x|>")]]⟩
    let data : Value := .map ⟨⟨0⟩, none⟩
    let partials : Partials := [("p", "a\n\x7b\x7b\x7bx\x7d\x7d\x7d\n")]
    let first : Text :=
      ("\x7b\x7b#s\x7d\x7d  \n \x7b\x7bx\x7d\x7d\x7b\x7b/s\x7d\x7d\n \x7b\x7b>p\x7d\x7d\n" ++
        "\x7b\x7b=<| |>=\x7d\x7d\n<|\x7bx|>é<").toList
    let second : Text := "\x7d|>\n<|^s|>\n<|/s|>\n  <|!c|>  \n<|x|>".toList
    let between : Delimiters := ⟨['<', '|'], ['|', '>']⟩
    let text : Text := " &lt;|x|&gt; &lt;|x|&gt;\n a\n <|x|>\n<|x|>é<".toList
    let text' : Text := "\x7d|>\n&lt;|x|&gt;".toList
    Reader.SolidSeam first .standard second between ∧
      ∃ enough, ∀ more, enough ≤ more →
        (interpretWithin .none more (first ++ second) partials .standard
          ⟨store, .ofRoot data⟩).1 = .ok (text ++ text') := by
  intro store data partials first second between text text'
  have seam : Reader.SolidSeam first .standard second between :=
    ⟨by decide +kernel, by decide +kernel, by decide +kernel,
      ⟨'<', by decide +kernel⟩, ⟨'\x7d', by decide +kernel⟩, by decide +kernel⟩
  have plain : PlainData store data :=
    plainData_of_isPlain (by decide) (by decide)
  have rendersFirst : (interpretWithin .none 40 first partials .standard
      ⟨store, .ofRoot data⟩).1 = .ok text := by
    decide +kernel
  have rendersSecond : (interpretWithin .none 40 second partials between
      ⟨store, .ofRoot data⟩).1 = .ok text' := by
    decide +kernel
  exact ⟨seam,
    interpretWithin_append seam (by decide +kernel) (by decide +kernel) plain
      rendersFirst rendersSecond⟩

end Mustache
