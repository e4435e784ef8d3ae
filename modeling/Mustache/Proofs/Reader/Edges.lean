import Mustache.Proofs.Reader.Segments
import Mustache.Proofs.Scan.Extension

/-!
# Text at the edges of a template

A template starts in text if its first token is text that starts where the
template does, and it ends in text if its last token is text that stops where
the template does.  The marks of the tokens tell, since a malformed tag at
either edge makes no token.
-/

namespace Mustache

namespace Reader

variable
    {delimiters final : Delimiters}
    {template passed unread : Text}
    {reader after : Reader}
    {tokens : List Token}
    {token : Token}
    {buffer : Buffer}

/-- The first of some tokens is text, and starts where their buffer does. -/
def FirstIsText : Except RenderError (List Token) × Reader → Prop
  | (.ok tokens, after) =>
    ∃ token ∈ tokens.head?,
      token.kind = .text ∧ after.buffer.position? token.start = some 0
  | (.error _, _) => False

instance :
    (answer : Except RenderError (List Token) × Reader) →
    Decidable (FirstIsText answer)
  | (.ok tokens, after) =>
    inferInstanceAs (Decidable (∃ token ∈ tokens.head?, token.kind = .text ∧
      after.buffer.position? token.start = some 0))
  | (.error _, _) => inferInstanceAs (Decidable False)

/-- The last of some tokens is text, and stops where their buffer does. -/
def LastIsText : Except RenderError (List Token) × Reader → Prop
  | (.ok tokens, after) =>
    ∃ token ∈ tokens.getLast?, token.kind = .text ∧
      after.buffer.position? token.stop = some after.buffer.text.byteSize
  | (.error _, _) => False

instance :
    (answer : Except RenderError (List Token) × Reader) →
    Decidable (LastIsText answer)
  | (.ok tokens, after) =>
    inferInstanceAs (Decidable (∃ token ∈ tokens.getLast?, token.kind = .text ∧
      after.buffer.position? token.stop = some after.buffer.text.byteSize))
  | (.error _, _) => inferInstanceAs (Decidable False)

/-- No tag opens where text is found. -/
theorem not_opensAt_of_text
    {rest : Text}
    {piece : Piece}
    (result : scan delimiters unread = .found [] piece rest)
    (isText : piece.kind = .text) :
    delimiters.opensAt unread = false := by
  rcases read_of_scan result with ⟨-, -, made⟩
  rw [(scan_eq_found result).1, List.nil_append]
  rcases Lexeme.piece_eq_ok made with ⟨isPlain, -, -⟩ | ⟨body, isTag⟩
  · exact (Lexeme.read_eq_plain isPlain).1
  · exact absurd isText (Lexeme.kind_of_read isTag)

/-- No tag opens at the start of a template that starts in text. -/
theorem not_opensAt_of_firstIsText
    (first : FirstIsText ((ofText template).tokens delimiters)) :
    delimiters.opensAt template = false := by
  rcases read : (ofText template).tokens delimiters with ⟨error | tokens, after⟩
  · rw [read] at first
    exact first.elim
  · rw [read] at first
    rcases first with ⟨token, isFirst, isText, start⟩
    rcases streams_of_tokens read with ⟨left, streams, -, keeps⟩
    cases streams with
    | finished => cases isFirst
    | token next further =>
      cases isFirst
      rcases Streams.placed next further (at_ofText template) keeps with
        ⟨skipped, rest, isScan, -, -, placed⟩
      have atStart := placed.start_eq.symm.trans start
      have nothing : skipped = [] := by
        simpa [Text.byteSize_eq_zero] using atStart
      rw [nothing] at isScan
      exact not_opensAt_of_text isScan isText

/--
A stream whose last token is text that stops at the end reads a text that ends
in text.
-/
theorem Streams.endsInText
    {ending : Option RenderError}
    (streams : Streams reader delimiters tokens ending after)
    (noError : ending = none)
    (standing : reader.At passed unread)
    (keeps :
      ∀ mark position,
        mark ≠ reader.cursor → after.buffer.livePosition? mark = some position →
        buffer.position? mark = some position)
    (isLast : tokens.getLast? = some token)
    (isText : token.kind = .text)
    (stop : buffer.position? token.stop = some (passed ++ unread).byteSize) :
    EndsInText delimiters unread (tokens.foldl delimitersAfter delimiters) := by
  induction streams generalizing passed unread with
  | finished => cases isLast
  | failed => cases isLast
  | @token reader between after delimiters head tokens ending read further ih =>
    subst noError
    rcases Streams.placed read further standing keeps with
      ⟨skipped, rest, isScan, behind, sameCursor, placed⟩
    rcases (scan_eq_found isScan).1 with rfl
    rw [← sameCursor] at keeps
    cases further with
    | finished =>
      cases isLast
      have atEnd := placed.stop_eq.symm.trans stop
      have nothing : rest = [] := by
        apply Text.byteSize_eq_zero.1
        simp only [Token.piece, Option.some.injEq, Text.byteSize_append]
          at atEnd
        omega
      subst nothing
      exact .found isScan (fun _ => isText) (.done _)
    | token next later =>
      rw [List.getLast?_cons_cons] at isLast
      have ends :=
        ih rfl behind keeps isLast (by simpa [Token.piece] using stop)
      refine .found isScan ?_ ends
      rintro rfl
      rcases took_of_next behind next with ⟨_, _, nothing, -⟩
      rw [scan_nil] at nothing
      cases nothing

/-- A template whose last token is text that stops at the end ends in text. -/
theorem endsInText_of_tokens
    (read : (ofText template).tokens delimiters = (.ok tokens, after))
    (last : LastIsText (.ok tokens, after)) :
    EndsInText delimiters template
      (tokens.foldl delimitersAfter delimiters) := by
  rcases last with ⟨token, isLast, isText, stop⟩
  rcases streams_of_tokens read with ⟨left, streams, whole, keeps⟩
  rw [whole] at stop
  exact streams.endsInText rfl (at_ofText template) keeps isLast isText stop

end Reader

end Mustache
