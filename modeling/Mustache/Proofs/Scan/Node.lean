import Mustache.Proofs.Reader.Reading
import Mustache.Reader.Node

/-!
# Scanning for nodes

Pairing section tags needs nothing but the unread text either.  A block is a
node without marks: a piece that stands alone, or a section with the text
between its tags.  Reading a node from a buffer is scanning its unread text for
a block (`Reader.nextNode_of_found`).

What is read for the close tag of a section leaves no trace: the marks of the
tokens between the two tags are released again, each opener's when its own close
tag is met.
-/

namespace Mustache

/-- A node, wherever it stands.  A section keeps the text between its tags. -/
inductive Block where
  | leaf (piece : Piece)
  | paired (opener : Piece) (body : Text) (closer : Piece)
deriving DecidableEq, Repr

/-- Everything from the start of a block to its end. -/
def Block.source : Block → Text
  | leaf piece => piece.source
  | paired opener body closer => opener.source ++ (body ++ closer.source)

/-- The piece that a block starts with. -/
def Block.head : Block → Piece
  | leaf piece => piece
  | paired opener _ _ => opener

/-- The text between the tags of a section. -/
def Block.body? : Block → Option Text
  | leaf _ => none
  | paired _ body _ => some body

/-- What is found when a section is read up to its close tag. -/
inductive CloserScan where
  /-- There is a fault, with some text before it. -/
  | faulty (before : Text) (fault : Fault)
  /-- There is a close tag, after the text of the section. -/
  | found (body : Text) (closer : Piece) (delimiters : Delimiters) (rest : Text)
deriving DecidableEq, Repr

/--
Look for the close tag of a section.  `before` is the text before the opener,
`body` the text read since, and `pending` holds the names of the inner sections
that are open.
-/
def scanCloser
    (before : Text)
    (opener : Piece)
    (delimiters : Delimiters)
    (pending : List Text)
    (body unread : Text) : CloserScan :=
  match _isScan : scan delimiters unread with
  | .finished _ => .faulty before (.unclosedSection opener.source)
  | .faulty skipped fault =>
    .faulty (before ++ (opener.source ++ (body ++ skipped))) fault
  | .found skipped piece rest =>
    if piece.kind.opensSection then
      scanCloser before opener delimiters (piece.name :: pending)
        (body ++ (skipped ++ piece.source)) rest
    else if piece.kind = .closer then
      match pending with
      | inner :: outer =>
        if inner = piece.name then
          scanCloser before opener delimiters outer
            (body ++ (skipped ++ piece.source)) rest
        else
          .faulty (before ++ (opener.source ++ (body ++ skipped)))
            (.unbalancedSection piece.source)
      | [] =>
        if piece.name = opener.name then
          .found (body ++ skipped) piece delimiters rest
        else
          .faulty (before ++ (opener.source ++ (body ++ skipped)))
            (.unbalancedSection piece.source)
    else
      scanCloser before opener (piece.delimitersAfter delimiters) pending
        (body ++ (skipped ++ piece.source)) rest
termination_by unread.length
decreasing_by all_goals exact length_lt_of_scan _isScan

/-- What is found when a node is read. -/
inductive NodeScan where
  /-- There is nothing but malformed tags. -/
  | finished
  /-- There is a fault, with some text before it. -/
  | faulty (before : Text) (fault : Fault)
  /--
  There is a block after some malformed tags, and the pair in effect after it.
  -/
  | found
      (skipped : Text)
      (block : Block)
      (delimiters : Delimiters)
      (rest : Text)
deriving DecidableEq, Repr

/-- Look for the next block of a text. -/
def scanNode (delimiters : Delimiters) (unread : Text) : NodeScan :=
  match scan delimiters unread with
  | .finished _ => .finished
  | .faulty skipped fault => .faulty skipped fault
  | .found skipped piece rest =>
    if piece.kind.opensSection then
      match scanCloser skipped piece delimiters [] [] rest with
      | .faulty before fault => .faulty before fault
      | .found body closer after rest =>
        .found skipped (.paired piece body closer) after rest
    else if piece.kind = .closer then
      .faulty skipped (.unbalancedSection piece.source)
    else
      .found skipped (.leaf piece) (piece.delimitersAfter delimiters) rest

/-! ## Blocks stand in the text -/

theorem scanCloser_eq_found
    {before body unread all rest : Text}
    {opener closer : Piece}
    {delimiters after : Delimiters}
    {pending : List Text}
    (result :
      scanCloser before opener delimiters pending body unread =
        .found all closer after rest) :
    ∃ more,
      all = body ++ more ∧
      unread = more ++ (closer.source ++ rest) ∧
      closer.kind = .closer ∧
      after.Enclose closer.source := by
  fun_induction scanCloser before opener delimiters pending body unread with
  | case1 | case2 => cases result
  | case3 delimiters pending body unread skipped piece rest' isScan opens ih =>
    rcases scan_eq_found isScan with ⟨rfl, -⟩
    rcases ih result with ⟨more, rfl, rfl, isCloser⟩
    exact ⟨skipped ++ (piece.source ++ more), by simp, by simp, isCloser⟩
  | case4 delimiters body unread skipped piece rest' isScan opens closes outer
      ih =>
    rcases scan_eq_found isScan with ⟨rfl, -⟩
    rcases ih result with ⟨more, rfl, rfl, isCloser⟩
    exact ⟨skipped ++ (piece.source ++ more), by simp, by simp, isCloser⟩
  | case5 | case7 => cases result
  | case6 delimiters body unread skipped piece rest' isScan opens closes
      named =>
    cases result
    have encloses :=
      enclose_of_scan isScan (ne_of_eq_of_ne closes TokenKind.noConfusion)
    rcases scan_eq_found isScan with ⟨rfl, nonempty⟩
    exact ⟨skipped, rfl, rfl, closes, encloses⟩
  | case8 delimiters pending body unread skipped piece rest' isScan opens closes
      ih =>
    rcases scan_eq_found isScan with ⟨rfl, -⟩
    rcases ih result with ⟨more, rfl, rfl, isCloser⟩
    exact ⟨skipped ++ (piece.source ++ more), by simp, by simp, isCloser⟩

/-- Where no block is found, no piece is found. -/
theorem scan_of_scanNode_finished
    {delimiters : Delimiters}
    {unread : Text}
    (result : scanNode delimiters unread = .finished) :
    ∃ skipped, scan delimiters unread = .finished skipped := by
  unfold scanNode at result
  split at result
  · exact ⟨_, ‹_›⟩
  · cases result
  · split at result
    · split at result <;> cases result
    · split at result <;> cases result

/--
A fault is that of a piece, of the section that a piece opens, or of a stray
close tag.
-/
theorem scanNode_faulty_cases
    {delimiters : Delimiters}
    {unread before : Text}
    {fault : Fault}
    (result : scanNode delimiters unread = .faulty before fault) :
    scan delimiters unread = .faulty before fault ∨
    (∃ skipped opener rest,
      scan delimiters unread = .found skipped opener rest ∧
      opener.kind.opensSection = true ∧
      scanCloser skipped opener delimiters [] [] rest = .faulty before fault) ∨
    ∃ closer rest,
      scan delimiters unread = .found before closer rest ∧
      closer.kind = .closer ∧
      fault = .unbalancedSection closer.source := by
  unfold scanNode at result
  split at result
  · cases result
  · rename_i isScan
    cases result
    exact .inl isScan
  · rename_i skipped piece rest isScan
    split at result
    · rename_i opens
      split at result
      · rename_i faulty
        cases result
        exact .inr (.inl ⟨skipped, piece, rest, isScan, opens, faulty⟩)
      · cases result
    · split at result
      · rename_i closes
        cases result
        exact .inr (.inr ⟨piece, rest, isScan, closes, rfl⟩)
      · cases result

/-- A section is an opener, and the close tag that is found from there on. -/
theorem closer_of_scanNode
    {delimiters after : Delimiters}
    {unread skipped body rest : Text}
    {opener closer : Piece}
    (result :
      scanNode delimiters unread =
        .found skipped (.paired opener body closer) after rest) :
    ∃ left,
      scan delimiters unread = .found skipped opener left ∧
      opener.kind.opensSection = true ∧
      scanCloser skipped opener delimiters [] [] left =
        .found body closer after rest := by
  unfold scanNode at result
  split at result
  · cases result
  · cases result
  · rename_i left isScan
    split at result
    · rename_i opens
      split at result
      · cases result
      · rename_i found
        cases result
        exact ⟨left, isScan, opens, found⟩
    · split at result <;> cases result

/--
The tags of a section stand between the pairs in effect before and after it.
-/
theorem scanNode_eq_paired
    {delimiters after : Delimiters}
    {unread skipped body rest : Text}
    {opener closer : Piece}
    (result :
      scanNode delimiters unread =
        .found skipped (.paired opener body closer) after rest) :
    opener.kind.opensSection = true ∧
    closer.kind = .closer ∧
    delimiters.Enclose opener.source ∧
    after.Enclose closer.source := by
  rcases closer_of_scanNode result with ⟨left, isScan, opens, found⟩
  rcases scanCloser_eq_found found with ⟨-, -, -, closes, encloses⟩
  have isTag : opener.kind ≠ .text := TokenKind.ne_of_opensSection opens rfl
  exact ⟨opens, closes, enclose_of_scan isScan isTag, encloses⟩

/-- A leaf is a piece that neither opens nor closes a section. -/
theorem scanNode_eq_leaf
    {delimiters after : Delimiters}
    {unread skipped rest : Text}
    {piece : Piece}
    (result :
      scanNode delimiters unread = .found skipped (.leaf piece) after rest) :
    scan delimiters unread = .found skipped piece rest ∧
    ¬piece.kind.opensSection = true ∧
    piece.kind ≠ .closer ∧
    after = piece.delimitersAfter delimiters := by
  unfold scanNode at result
  split at result
  · cases result
  · cases result
  · rename_i isScan
    split at result
    · split at result <;> cases result
    · rename_i opens
      split at result
      · cases result
      · rename_i closes
        cases result
        exact ⟨isScan, opens, closes, rfl⟩

theorem scanNode_eq_found
    {delimiters after : Delimiters}
    {unread skipped rest : Text}
    {block : Block}
    (result : scanNode delimiters unread = .found skipped block after rest) :
    unread = skipped ++ (block.source ++ rest) ∧ block.source ≠ [] := by
  cases block with
  | leaf piece => exact scan_eq_found (scanNode_eq_leaf result).1
  | paired opener body closer =>
    rcases closer_of_scanNode result with ⟨left, isScan, -, found⟩
    rcases scan_eq_found isScan with ⟨rfl, nonempty⟩
    rcases scanCloser_eq_found found with ⟨more, rfl, rfl, -⟩
    exact ⟨by simp [Block.source], by simp [Block.source, nonempty]⟩

theorem length_lt_of_scanNode
    {delimiters after : Delimiters}
    {unread skipped rest : Text}
    {block : Block}
    (result : scanNode delimiters unread = .found skipped block after rest) :
    rest.length < unread.length := by
  rcases scanNode_eq_found result with ⟨rfl, nonempty⟩
  have := List.length_pos_iff.2 nonempty
  simp only [List.length_append]
  omega

end Mustache
