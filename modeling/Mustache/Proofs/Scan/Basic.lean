import Mathlib.Logic.Basic
import Mustache.Proofs.Token.Lexeme
import Mustache.Reader.Basic

/-!
# Scanning a text

Reading a token from a buffer looks at nothing but the unread text and the
delimiter pair.  What it finds there is a piece, which is a token without marks
and without a line, or a fault, which is an error without a line.  The text of
malformed tags that were passed over on the way is kept with what was found.
-/

namespace Mustache

/-- What is wrong with a template, with the text of the offending tag. -/
inductive Fault where
  | unbalancedSection (tag : Text)
  | unclosedSection (tag : Text)
  | invalidDelimiters (tag : Text)
  | unclosedTag (tag : Text)
deriving DecidableEq, Repr

/-- The error that a fault is on a given line. -/
def Fault.onLine : Fault → Nat → RenderError
  | unbalancedSection tag, line => .unbalancedSection tag line
  | unclosedSection tag, line => .unclosedSection tag line
  | invalidDelimiters tag, line => .invalidDelimiters tag line
  | unclosedTag tag, line => .unclosedTag tag line

/-- The kind of an error and its tag, if the template is at fault. -/
def RenderError.fault? : RenderError → Option Fault
  | unbalancedSection tag _ => some (.unbalancedSection tag)
  | unclosedSection tag _ => some (.unclosedSection tag)
  | invalidDelimiters tag _ => some (.invalidDelimiters tag)
  | unclosedTag tag _ => some (.unclosedTag tag)
  | templateNotFound _ | serialization _ | io _ => none

@[simp]
theorem Fault.fault?_onLine
    (fault : Fault)
    (line : Nat) :
    (fault.onLine line).fault? = some fault := by
  cases fault <;> rfl

theorem TokenKind.ne_of_opensSection
    {kind other : TokenKind}
    (opens : kind.opensSection = true)
    (closed : other.opensSection = false) :
    kind ≠ other := by
  rintro rfl
  rw [opens] at closed
  cases closed

/-- A stretch of text or a tag, wherever it stands. -/
structure Piece where
  kind : TokenKind
  /-- The trimmed body of a tag, or the text. -/
  name : Text
  /-- Everything from the start of the piece to its end. -/
  source : Text
  /-- The pair that a set-delimiter tag installs. -/
  delimiters : Option Delimiters
deriving DecidableEq, Repr

/-- A token without its place. -/
def Token.piece (token : Token) : Piece :=
  ⟨token.kind, token.name, token.source, token.delimiters⟩

/-- The pair in effect after a piece. -/
def Piece.delimitersAfter
    (piece : Piece)
    (delimiters : Delimiters) : Delimiters :=
  piece.delimiters.getD delimiters

/-- The piece that a lexeme at the head of an unread text makes. -/
def Lexeme.piece (unread : Text) : Lexeme → Except Fault Piece
  | .plain source => .ok ⟨.text, source, source, none⟩
  | .tag .setDelimiters source body =>
    match Reader.installed? body with
    | none => .error (.invalidDelimiters source)
    | some delimiters =>
      .ok ⟨.setDelimiters, delimiters.written, source, some delimiters⟩
  | .tag kind source body => .ok ⟨kind, body.trim, source, none⟩
  | .unclosed => .error (.unclosedTag unread)

/--
What is found at the head of an unread text, after the malformed tags passed
over.
-/
inductive Scan where
  /-- There is nothing but malformed tags. -/
  | finished (skipped : Text)
  /-- There is a fault. -/
  | faulty (skipped : Text) (fault : Fault)
  /-- There is a piece, with some text after it. -/
  | found (skipped : Text) (piece : Piece) (rest : Text)
deriving DecidableEq, Repr

/-- Look for the next piece of a text. -/
def scan (delimiters : Delimiters) (unread : Text) : Scan :=
  match Lexeme.next delimiters [] unread with
  | (skipped, none) => .finished skipped
  | (skipped, some lexeme) =>
    match lexeme.piece (unread.drop skipped.length) with
    | .error fault => .faulty skipped fault
    | .ok piece =>
      .found skipped piece (unread.drop (skipped ++ piece.source).length)

namespace Lexeme

theorem piece_eq_ok
    {lexeme : Lexeme}
    {unread : Text}
    {piece : Piece}
    (made : lexeme.piece unread = .ok piece) :
    lexeme = .plain piece.source ∧
      piece.kind = .text ∧
      piece.delimiters = none ∨
    ∃ body, lexeme = .tag piece.kind piece.source body := by
  unfold Lexeme.piece at made
  split at made
  · cases made
    exact .inl ⟨rfl, rfl, rfl⟩
  · rename_i source body
    split at made
    · cases made
    · cases made
      exact .inr ⟨body, rfl⟩
  · rename_i kind source body _
    cases made
    exact .inr ⟨body, rfl⟩
  · cases made

theorem piece_tag_eq_ok
    {kind : TokenKind}
    {source body unread : Text}
    {piece : Piece}
    (made : (tag kind source body).piece unread = .ok piece) :
    piece.kind = kind ∧ piece.source = source := by
  rcases piece_eq_ok made with ⟨isPlain, -⟩ | ⟨_, isTag⟩
  · cases isPlain
  · cases isTag
    exact ⟨rfl, rfl⟩

/--
The piece of a lexeme stands at the head of the text that the lexeme was read
from.
-/
theorem piece_isPrefix
    {delimiters : Delimiters}
    {unread other : Text}
    {piece : Piece}
    (nonempty : unread ≠ [])
    (made : (read delimiters unread).piece other = .ok piece) :
    piece.source <+: unread ∧ piece.source ≠ [] := by
  rcases piece_eq_ok made with ⟨isPlain, -, -⟩ | ⟨body, isTag⟩
  · rw [(read_eq_plain isPlain).2]
    exact ⟨readPlain_isPrefix .., readPlain_ne_nil nonempty⟩
  · rcases read_eq_tag isTag with
      ⟨middle, rest, openingNonempty, -, source, rfl, -⟩
    refine ⟨List.prefix_append piece.source rest, ?_⟩
    rw [source]
    simp [openingNonempty]

end Lexeme

theorem scan_eq_finished
    {delimiters : Delimiters}
    {unread skipped : Text}
    (result : scan delimiters unread = .finished skipped) :
    skipped = unread := by
  unfold scan at result
  split at result
  · rename_i found
    cases result
    simpa using Lexeme.next_eq_none found
  · split at result <;> cases result

/-- When nothing is found, there is no lexeme behind the malformed tags. -/
theorem next_of_scan_finished
    {delimiters : Delimiters}
    {unread skipped : Text}
    (result : scan delimiters unread = .finished skipped) :
    Lexeme.next delimiters [] unread = (unread, none) := by
  have all := scan_eq_finished result
  unfold scan at result
  split at result
  · rename_i found
    cases result
    rw [found, all]
  · split at result <;> cases result

theorem scan_eq_found
    {delimiters : Delimiters}
    {unread skipped rest : Text}
    {piece : Piece}
    (result : scan delimiters unread = .found skipped piece rest) :
    unread = skipped ++ (piece.source ++ rest) ∧ piece.source ≠ [] := by
  unfold scan at result
  split at result
  · cases result
  · rename_i lexeme found
    rcases Lexeme.next_eq_some found with
      ⟨more, left, rfl, rfl, nonempty, rfl, -⟩
    split at result
    · cases result
    · rename_i made
      cases result
      rcases Lexeme.piece_isPrefix nonempty made with
        ⟨⟨rest, rfl⟩, sourceNonempty⟩
      refine ⟨?_, sourceNonempty⟩
      simp only [List.length_append, ← List.drop_drop, List.drop_left]

/--
The lexeme of a piece is well-formed, and read where the malformed tags before
it end.
-/
theorem read_of_scan
    {delimiters : Delimiters}
    {unread skipped rest : Text}
    {piece : Piece}
    (result : scan delimiters unread = .found skipped piece rest) :
    Lexeme.next delimiters [] unread =
      (skipped, some (Lexeme.read delimiters (piece.source ++ rest))) ∧
    (Lexeme.read delimiters (piece.source ++ rest)).malformed? = none ∧
    (Lexeme.read delimiters (piece.source ++ rest)).piece
        (piece.source ++ rest) =
      .ok piece := by
  have parts := (scan_eq_found result).1
  unfold scan at result
  split at result
  · cases result
  · rename_i lexeme found
    split at result
    · cases result
    · rename_i made
      have same := found
      cases result
      rcases Lexeme.next_eq_some found with
        ⟨more, left, isSkipped, isUnread, -, rfl, wellFormed⟩
      rw [List.nil_append] at isSkipped
      rw [← isSkipped] at isUnread
      have isLeft := List.append_cancel_left (isUnread.symm.trans parts)
      rw [parts, List.drop_left, isLeft] at made
      rw [isLeft] at wellFormed same
      exact ⟨same, wellFormed, made⟩

/-- Every piece takes something off the unread text. -/
theorem length_lt_of_scan
    {delimiters : Delimiters}
    {unread skipped rest : Text}
    {piece : Piece}
    (result : scan delimiters unread = .found skipped piece rest) :
    rest.length < unread.length := by
  rcases scan_eq_found result with ⟨rfl, nonempty⟩
  have := List.length_pos_iff.2 nonempty
  simp only [List.length_append]
  omega

/-- Only a set-delimiter tag installs a pair. -/
theorem Lexeme.delimiters_of_piece
    {lexeme : Lexeme}
    {unread : Text}
    {piece : Piece}
    (made : lexeme.piece unread = .ok piece)
    (other : piece.kind ≠ .setDelimiters) :
    piece.delimiters = none := by
  unfold Lexeme.piece at made
  split at made
  · cases made
    rfl
  · split at made
    · cases made
    · cases made
      exact absurd rfl other
  · cases made
    rfl
  · cases made

theorem delimiters_of_scan
    {delimiters : Delimiters}
    {unread skipped rest : Text}
    {piece : Piece}
    (result : scan delimiters unread = .found skipped piece rest)
    (other : piece.kind ≠ .setDelimiters) :
    piece.delimiters = none := by
  rcases read_of_scan result with ⟨-, -, made⟩
  exact Lexeme.delimiters_of_piece made other

theorem delimitersAfter_of_scan
    {delimiters : Delimiters}
    {unread skipped rest : Text}
    {piece : Piece}
    (result : scan delimiters unread = .found skipped piece rest)
    (other : piece.kind ≠ .setDelimiters) :
    piece.delimitersAfter delimiters = delimiters := by
  rw [Piece.delimitersAfter, delimiters_of_scan result other]
  rfl

/-- A tag that starts with a dot has nothing else in it, or it is malformed. -/
theorem name_of_scan_implicit
    {delimiters : Delimiters}
    {unread skipped rest : Text}
    {piece : Piece}
    (result : scan delimiters unread = .found skipped piece rest)
    (dotted : piece.kind = .implicit) :
    piece.name = ['.'] := by
  rcases read_of_scan result with ⟨-, wellFormed, made⟩
  rcases Lexeme.piece_eq_ok made with ⟨-, isText, -⟩ | ⟨body, isRead⟩
  · rw [dotted] at isText
    cases isText
  · rw [dotted] at isRead
    rw [isRead] at wellFormed made
    have isDot : body = ['.'] := by
      simpa [Lexeme.malformed?] using wellFormed
    have isName : body.trim = piece.name :=
      congrArg Piece.name (Except.ok.inj made)
    rw [← isName, isDot]
    decide

/-! ## Delimiters around a tag -/

/-- A tag stands between the delimiters of a pair. -/
def Delimiters.Enclose (delimiters : Delimiters) (source : Text) : Prop :=
  delimiters.opening ≠ [] ∧ delimiters.closing ≠ [] ∧
    ∃ middle, source = delimiters.opening ++ (middle ++ delimiters.closing)

theorem Lexeme.enclose_of_read
    {delimiters : Delimiters}
    {unread source body : Text}
    {kind : TokenKind}
    (isTag : read delimiters unread = tag kind source body) :
    delimiters.Enclose source := by
  rcases read_eq_tag isTag with ⟨middle, -, opening, closing, isSource, -⟩
  exact ⟨opening, closing, middle, isSource⟩

theorem enclose_of_scan
    {delimiters : Delimiters}
    {unread skipped rest : Text}
    {piece : Piece}
    (result : scan delimiters unread = .found skipped piece rest)
    (isTag : piece.kind ≠ .text) :
    delimiters.Enclose piece.source := by
  rcases read_of_scan result with ⟨-, -, made⟩
  rcases Lexeme.piece_eq_ok made with ⟨-, isText, -⟩ | ⟨body, isRead⟩
  · exact absurd isText isTag
  · exact Lexeme.enclose_of_read isRead

/-- A pair none of whose characters is a blank. -/
def Delimiters.Solid (delimiters : Delimiters) : Prop :=
  ∀ character ∈ delimiters.opening ++ delimiters.closing,
    Text.isBlank character = false

instance (delimiters : Delimiters) : Decidable delimiters.Solid :=
  List.decidableBAll (Text.isBlank · = false)
    (delimiters.opening ++ delimiters.closing)

theorem Delimiters.Solid.opening
    {delimiters : Delimiters}
    (solid : delimiters.Solid) :
    ∀ character ∈ delimiters.opening, Text.isBlank character = false :=
  fun character member => solid character (List.mem_append_left _ member)

theorem Delimiters.Solid.closing
    {delimiters : Delimiters}
    (solid : delimiters.Solid) :
    ∀ character ∈ delimiters.closing, Text.isBlank character = false :=
  fun character member => solid character (List.mem_append_right _ member)

namespace Delimiters.Enclose

variable {delimiters : Delimiters} {source : Text}

/-- A tag of a solid pair starts with a character that is no blank. -/
theorem head_solid
    (encloses : delimiters.Enclose source)
    (solid : delimiters.Solid) :
    ∃ first, source.head? = some first ∧ Text.isBlank first = false := by
  rcases encloses with ⟨opening, -, middle, isSource⟩
  rcases List.exists_cons_of_ne_nil opening with ⟨first, rest, isOpening⟩
  refine ⟨first, by rw [isSource, isOpening]; rfl, ?_⟩
  exact solid first (by simp [isOpening])

/-- A tag of a solid pair ends with a character that is no blank. -/
theorem last_solid
    (encloses : delimiters.Enclose source)
    (solid : delimiters.Solid) :
    ∃ last, source.getLast? = some last ∧ Text.isBlank last = false := by
  rcases encloses with ⟨-, closing, middle, isSource⟩
  refine ⟨delimiters.closing.getLast closing, ?_, ?_⟩
  · rw [isSource, ← List.append_assoc, List.getLast?_append,
      List.getLast?_eq_some_getLast closing]
    rfl
  · exact solid _ (List.mem_append_right _ (List.getLast_mem closing))

/-- A tag has at least one character on either side. -/
theorem two_le_length (encloses : delimiters.Enclose source) :
    2 ≤ source.length := by
  rcases encloses with ⟨opening, closing, middle, rfl⟩
  have first := List.length_pos_iff.2 opening
  have last := List.length_pos_iff.2 closing
  simp only [List.length_append]
  omega

end Delimiters.Enclose

end Mustache
