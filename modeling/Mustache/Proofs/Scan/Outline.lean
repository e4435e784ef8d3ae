import Mustache.Proofs.Scan.Node
import Mustache.Proofs.Scan.Passing

/-!
# The outline of a text

The outline of a text is what its tags make of it at the top level: which tags
and sections follow one another, the delimiter pair in effect after each, and
the fault that ends the text too early, if there is one.  Text between tags is
left out.

Text at which no tag opens makes no difference to the outline of what follows
it.  So a blank line before a text can be removed without a trace when the pair
in effect is solid (`outline_blank`).  The same holds of the blocks that read
from the context, which are kept with the text between their tags
(`readingBlocks_blank`).
-/

namespace Mustache

theorem scanNode_nil (delimiters : Delimiters) :
    scanNode delimiters [] = .finished := by
  simp only [scanNode, scan_nil]

/--
A tag or a section as it is met at the top level, with the pair in effect after
it.
-/
structure Visit where
  kind : TokenKind
  name : Text
  /-- The full text of the tag, or of the tag that opens the section. -/
  source : Text
  /-- The full text of the close tag of a section. -/
  closer : Option Text
  after : Delimiters
deriving DecidableEq, Repr

/-- What is visited when a block is met.  Text between tags is not. -/
def Block.visits (block : Block) (after : Delimiters) : List Visit :=
  match block with
  | leaf piece =>
    if piece.kind = .text then
      []
    else
      [⟨piece.kind, piece.name, piece.source, none, after⟩]
  | paired opener _ closer =>
    [⟨opener.kind, opener.name, opener.source, some closer.source, after⟩]

theorem Block.after_of_mem_visits
    (block : Block)
    {after : Delimiters}
    {visit : Visit}
    (member : visit ∈ block.visits after) :
    visit.after = after := by
  cases block with
  | leaf piece =>
    simp only [visits] at member
    split at member
    · cases member
    · rw [List.mem_singleton.1 member]
  | paired opener body closer => rw [List.mem_singleton.1 member]

/-- The visits of a text, and the fault after them. -/
def outline
    (delimiters : Delimiters)
    (unread : Text) : List Visit × Option Fault :=
  match _isScan : scanNode delimiters unread with
  | .finished => ([], none)
  | .faulty _ fault => ([], some fault)
  | .found _ block after rest =>
    (block.visits after ++ (outline after rest).1, (outline after rest).2)
termination_by unread.length
decreasing_by all_goals exact length_lt_of_scanNode _isScan

theorem outline_of_finished
    {delimiters : Delimiters}
    {unread : Text}
    (result : scanNode delimiters unread = .finished) :
    outline delimiters unread = ([], none) := by
  rw [outline]
  split <;> simp_all

theorem outline_of_faulty
    {delimiters : Delimiters}
    {unread before : Text}
    {fault : Fault}
    (result : scanNode delimiters unread = .faulty before fault) :
    outline delimiters unread = ([], some fault) := by
  rw [outline]
  split <;> simp_all

theorem outline_of_found
    {delimiters after : Delimiters}
    {unread skipped rest : Text}
    {block : Block}
    (result : scanNode delimiters unread = .found skipped block after rest) :
    outline delimiters unread =
      (block.visits after ++ (outline after rest).1,
        (outline after rest).2) := by
  rw [outline]
  split <;> simp_all

/--
After a block that is not visited, the pair in effect is the same as before.
-/
theorem delimiters_of_no_visits
    {delimiters after : Delimiters}
    {unread skipped rest : Text}
    {block : Block}
    (result : scanNode delimiters unread = .found skipped block after rest)
    (none : block.visits after = []) :
    after = delimiters := by
  cases block with
  | paired opener body closer => cases none
  | leaf piece =>
    rcases scanNode_eq_leaf result with ⟨isScan, -, -, isAfter⟩
    simp only [Block.visits] at none
    split at none
    · rename_i isText
      have other : piece.kind ≠ .setDelimiters :=
        ne_of_eq_of_ne isText TokenKind.noConfusion
      rw [isAfter, delimitersAfter_of_scan isScan other]
    · cases none

theorem scanNode_of_not_opensAt
    {delimiters : Delimiters}
    {character : Char}
    {rest : Text}
    (closed : delimiters.opensAt (character :: rest) = false) :
    scanNode delimiters (character :: rest) =
      .found []
        (.leaf ⟨.text, Lexeme.readPlain delimiters.opening (character :: rest),
          Lexeme.readPlain delimiters.opening (character :: rest), none⟩)
        delimiters
        ((character :: rest).drop
          (Lexeme.readPlain delimiters.opening
            (character :: rest)).length) := by
  simp only [scanNode, scan_of_not_opensAt closed]
  rfl

theorem passesText_outline (delimiters : Delimiters) :
    PassesText delimiters (outline delimiters) := by
  intro character rest closed
  rw [outline_of_found (scanNode_of_not_opensAt closed)]
  simp [Block.visits]

/-- A blank line before a text can be removed without a trace. -/
theorem outline_blank
    {delimiters : Delimiters}
    (solid : delimiters.Solid)
    {line : Text}
    (blank : ∀ character ∈ line, Text.isBlank character = true)
    (rest : Text) :
    outline delimiters (line ++ rest) = outline delimiters rest :=
  (passesText_outline delimiters).blank solid blank rest

/-! ## The blocks that read from the context -/

/-- The blocks at the top level of a text that read from the context. -/
def readingBlocks (delimiters : Delimiters) (unread : Text) : List Block :=
  match _isScan : scanNode delimiters unread with
  | .finished | .faulty _ _ => []
  | .found _ block after rest =>
    [block].filter (·.head.kind.readsContext) ++ readingBlocks after rest
termination_by unread.length
decreasing_by exact length_lt_of_scanNode _isScan

theorem readingBlocks_of_finished
    {delimiters : Delimiters}
    {unread : Text}
    (result : scanNode delimiters unread = .finished) :
    readingBlocks delimiters unread = [] := by
  rw [readingBlocks]
  split <;> simp_all

theorem readingBlocks_of_faulty
    {delimiters : Delimiters}
    {unread before : Text}
    {fault : Fault}
    (result : scanNode delimiters unread = .faulty before fault) :
    readingBlocks delimiters unread = [] := by
  rw [readingBlocks]
  split <;> simp_all

theorem readingBlocks_of_found
    {delimiters after : Delimiters}
    {unread skipped rest : Text}
    {block : Block}
    (result : scanNode delimiters unread = .found skipped block after rest) :
    readingBlocks delimiters unread =
      [block].filter (·.head.kind.readsContext) ++
        readingBlocks after rest := by
  rw [readingBlocks]
  split <;> simp_all

/-- A blank line before a text reads nothing. -/
theorem readingBlocks_blank
    {delimiters : Delimiters}
    (solid : delimiters.Solid)
    {line : Text}
    (blank : ∀ character ∈ line, Text.isBlank character = true)
    (rest : Text) :
    readingBlocks delimiters (line ++ rest) =
      readingBlocks delimiters rest := by
  have passes : PassesText delimiters (readingBlocks delimiters) := by
    intro character rest closed
    rw [readingBlocks_of_found (scanNode_of_not_opensAt closed)]
    rfl
  exact passes.blank solid blank rest

end Mustache
