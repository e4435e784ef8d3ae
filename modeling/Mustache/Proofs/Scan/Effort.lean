import Mustache.Proofs.Scan.Guard
import Mustache.Proofs.Scan.Outline
import Mustache.Proofs.Token.Shape
import Mustache.Text.Line

/-!
# How much there is to read

Each block takes ink off a text, which is to say characters that are no blanks,
unless it is nothing but blanks.  Behind such a block there is the end of the
text, or a delimiter.  So a bound on the number of blocks counts the ink twice,
and once more where there may be blanks first (`effort_lt_of_found`).

An indentation adds no ink.  The guards of a body add a little, but less than
the tags of its section held (`effort_guarded_lt`).
-/

namespace Mustache

namespace Text

/-- How many characters of a text are no blanks. -/
def ink (text : Text) : Nat :=
  text.countP fun character => !isBlank character

@[simp]
theorem ink_append (first second : Text) :
    (first ++ second).ink = first.ink + second.ink :=
  List.countP_append

theorem ink_of_blank
    {text : Text}
    (blank : ∀ character ∈ text, isBlank character = true) :
    text.ink = 0 :=
  List.countP_eq_zero.2 fun character member => by simp [blank character member]

theorem ink_pos
    {text : Text}
    {character : Char}
    (member : character ∈ text)
    (solid : isBlank character = false) :
    0 < text.ink :=
  List.countP_pos_iff.2 ⟨character, member, by simp [solid]⟩

/-- Blanks that are put before the lines of a text add no ink. -/
theorem ink_indentFrom
    {indentation : Text}
    (blank : ∀ character ∈ indentation, isBlank character = true)
    (lineStart : Bool)
    (text : Text) :
    (indentFrom indentation lineStart text).ink = text.ink := by
  induction text generalizing lineStart with
  | nil => rfl
  | cons character rest ih =>
    have added :
        Text.ink
            (if lineStart && !isLineBreak character then
                indentation
              else
                []) = 0 := by
      split
      · exact ink_of_blank blank
      · rfl
    have cons (rest : Text) :
        Text.ink (character :: rest) = Text.ink [character] + rest.ink :=
      ink_append [character] rest
    rw [indentFrom, ink_append, added, cons, ih, Nat.zero_add, ← cons]

/-- The guards of a body are two characters at most. -/
theorem ink_guarded_le
    (body : Text)
    (startsLine : Bool) :
    (guarded body startsLine).ink ≤ body.ink + 2 := by
  cases startsLine with
  | true =>
    show Text.ink (body ++ ['=']) ≤ _
    rw [ink_append]
    exact Nat.add_le_add_left (by decide) _
  | false =>
    show Text.ink ((['='] ++ body) ++ ['=']) ≤ _
    have sign : Text.ink ['='] = 1 := by decide
    rw [ink_append, ink_append, sign]
    omega

end Text

/-- A tag of a solid pair holds ink on either side. -/
theorem Delimiters.Enclose.two_le_ink
    {delimiters : Delimiters}
    {source : Text}
    (encloses : delimiters.Enclose source)
    (solid : delimiters.Solid) :
    2 ≤ source.ink := by
  rcases encloses with ⟨opening, closing, middle, rfl⟩
  rcases List.exists_mem_of_ne_nil _ opening with ⟨first, isFirst⟩
  rcases List.exists_mem_of_ne_nil _ closing with ⟨last, isLast⟩
  have before := Text.ink_pos isFirst (solid.opening first isFirst)
  have behind := Text.ink_pos isLast (solid.closing last isLast)
  simp only [Text.ink_append]
  omega

/-- At the start of a text there is a delimiter, or nothing at all. -/
def Delimiters.StartsOrEnds (delimiters : Delimiters) (unread : Text) : Prop :=
  unread = [] ∨ delimiters.opening ≠ [] ∧ delimiters.opening <+: unread

instance
    (delimiters : Delimiters)
    (unread : Text) : Decidable (delimiters.StartsOrEnds unread) :=
  inferInstanceAs (Decidable (_ ∨ _))

/-- How many blocks there may be in a text. -/
def effort (delimiters : Delimiters) (unread : Text) : Nat :=
  2 * unread.ink + if delimiters.StartsOrEnds unread then 0 else 1

theorem effort_le
    (delimiters : Delimiters)
    (unread : Text) :
    effort delimiters unread ≤ 2 * unread.ink + 1 := by
  unfold effort
  split <;> omega

variable
    {delimiters after : Delimiters}
    {unread skipped rest left line : Text}
    {block : Block}

/--
A block without ink is a stretch of blanks, up to a delimiter or to the end of
the text.
-/
theorem startsOrEnds_of_ink_eq_zero
    (result : scanNode delimiters unread = .found skipped block after rest)
    (solid : delimiters.Solid)
    (blank : (skipped ++ block.source).ink = 0) :
    (∃ piece, block = .leaf piece ∧ piece.kind = .text) ∧
    after = delimiters ∧
    ¬delimiters.StartsOrEnds unread ∧
    delimiters.StartsOrEnds rest := by
  rcases scanNode_eq_found result with ⟨split, nonempty⟩
  have someText : skipped ++ block.source ≠ [] := by simp [nonempty]
  rcases List.exists_cons_of_ne_nil someText with ⟨character, others, isCons⟩
  have isBlank : Text.isBlank character = true := by
    cases solidHead : Text.isBlank character with
    | true => rfl
    | false =>
      have member : character ∈ skipped ++ block.source := by simp [isCons]
      have some := Text.ink_pos member solidHead
      omega
  have unreadCons : unread = character :: (others ++ rest) := by
    rw [split, ← List.append_assoc, isCons, List.cons_append]
  have closed := not_opensAt_of_isBlank solid isBlank (others ++ rest)
  rw [unreadCons, scanNode_of_not_opensAt closed] at result
  simp only [NodeScan.found.injEq] at result
  rcases result with ⟨-, rfl, rfl, isRest⟩
  rcases Lexeme.readPlain_ends delimiters.opening
      (character :: (others ++ rest)) with ⟨left, isText, ends, -⟩
  refine ⟨⟨_, rfl, rfl⟩, rfl, ?_, ?_⟩
  · rintro (isNil | ⟨openingNonempty, starts⟩)
    · rw [unreadCons] at isNil
      cases isNil
    · rcases List.exists_cons_of_ne_nil openingNonempty with
        ⟨first, opening, isOpening⟩
      rw [isOpening, unreadCons] at starts
      have same := (List.cons_prefix_cons.1 starts).1
      have inked := solid.opening first (by simp [isOpening])
      rw [same, isBlank] at inked
      cases inked
  · have dropped :=
      congrArg
        (List.drop
          (Lexeme.readPlain delimiters.opening
            (character :: (others ++ rest))).length)
        isText
    rw [isRest, List.drop_left] at dropped
    rwa [dropped]

/-- Behind a block, and the blank line of its tags, there is less to read. -/
theorem effort_lt_of_found
    (result : scanNode delimiters unread = .found skipped block after rest)
    (solid : delimiters.Solid)
    (split : rest = line ++ left)
    (keeps : ∀ piece, block = .leaf piece → piece.kind = .text → line = []) :
    effort after left < effort delimiters unread := by
  have parts := (scanNode_eq_found result).1
  rw [split, ← List.append_assoc] at parts
  by_cases blank : (skipped ++ block.source).ink = 0
  · rcases startsOrEnds_of_ink_eq_zero result solid blank with
      ⟨⟨piece, isLeaf, isText⟩, rfl, notHere, there⟩
    rw [split, keeps piece isLeaf isText, List.nil_append] at there
    have less : left.ink ≤ unread.ink := by
      simp only [parts, Text.ink_append]
      omega
    rw [effort, effort, if_pos there, if_neg notHere]
    omega
  · rw [Text.ink_append] at blank
    have less : left.ink < unread.ink := by
      simp only [parts, Text.ink_append]
      omega
    have most := effort_le after left
    have least : 2 * unread.ink ≤ effort delimiters unread :=
      Nat.le_add_right _ _
    omega

/--
There is less to read in the body of a section than in the text that holds the
section.
-/
theorem effort_guarded_lt
    {opener closer : Piece}
    {body inner : Text}
    (result :
      scanNode delimiters unread =
        .found skipped (.paired opener body closer) after rest)
    (solid : delimiters.Solid)
    (solidAfter : after.Solid)
    (trimmed : body.TrimsTo inner)
    (startsLine : Bool) :
    effort delimiters (guarded inner startsLine) <
      effort delimiters unread := by
  rcases scanNode_eq_paired result with ⟨-, -, opening, closing⟩
  have first := opening.two_le_ink solid
  have last := closing.two_le_ink solidAfter
  have guards := Text.ink_guarded_le inner startsLine
  have kept : inner.ink ≤ body.ink := by
    rcases trimmed with ⟨line, indentation, rfl, -⟩
    simp only [Text.ink_append]
    omega
  have whole :
      opener.source.ink + (body.ink + closer.source.ink) ≤ unread.ink := by
    rw [(scanNode_eq_found result).1]
    simp only [Block.source, Text.ink_append]
    omega
  have most := effort_le delimiters (guarded inner startsLine)
  have least : 2 * unread.ink ≤ effort delimiters unread := Nat.le_add_right _ _
  omega

end Mustache
