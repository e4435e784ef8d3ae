import Mustache.Proofs.Reader.Undisturbed
import Mustache.Proofs.Text.Lines

/-!
# The lines of tokens and errors

A reader counts line breaks token by token, and decides about a line feed from
the character before it.  As long as the buffer is not edited, that comes to the
number of line breaks in the text before the cursor, counted from its start by
looking ahead (`Reader.Reads.counted`).  It does also where a line break is
split between two tokens, lies within a tag or a delimiter, or belongs to a
malformed tag that is passed over.

So the line of a token or an error is that of its tag in the template
(`Reader.lines_of_reads`).
-/

namespace Mustache

/--
A token stands in a template where its start is, and its line is counted from
there.
-/
def Token.CountsLine
    (token : Token)
    (buffer : Buffer)
    (template : Text) : Prop :=
  ∃ before rest, template = before ++ (token.source ++ rest) ∧
    buffer.position? token.start = some before.byteSize ∧
    token.line = 1 + before.countLineBreaks

namespace Reader

/--
The readers there are while a template is read, with any pairs, and not edited.
-/
inductive Reads (template : Text) : Reader → Prop
  | start : Reads template (ofText template)
  | next
      {reader : Reader}
      (reads : Reads template reader)
      (delimiters : Delimiters) :
      Reads template (reader.next delimiters).2
  | tokens
      {reader : Reader}
      (reads : Reads template reader)
      (delimiters : Delimiters) :
      Reads template (reader.tokens delimiters).2
  | release
      {reader : Reader}
      {token : Token}
      (reads : Reads template reader)
      (other : reader.cursor ∉ token.marks) :
      Reads template (reader.release token)

/--
An error is about a tag of a template, on the line where that starts.  The
reader is left at the start of a tag that is never closed, and behind one that
is invalid.
-/
inductive Blames (template : Text) (left : Reader) : RenderError → Prop
  | unclosed
      {before tag : Text}
      (template_eq : template = before ++ tag)
      (position_eq : left.position = before.byteSize) :
      Blames template left (.unclosedTag tag (1 + before.countLineBreaks))
  | invalid
      {before tag rest : Text}
      (template_eq : template = before ++ (tag ++ rest))
      (position_eq : left.position = (before ++ tag).byteSize) :
      Blames template left (.invalidDelimiters tag (1 + before.countLineBreaks))

/-- A reader is on the line of its cursor. -/
structure Counted (reader : Reader) (passed unread : Text) : Prop where
  standing : reader.At passed unread
  line_eq : reader.line = 1 + passed.countLineBreaks

variable
    {reader after final : Reader}
    {template passed unread skipped more rest : Text}
    {delimiters : Delimiters}
    {token : Token}
    {tokens : List Token}
    {error : RenderError}

theorem counted_ofText (template : Text) :
    (ofText template).Counted [] template :=
  ⟨at_ofText template, rfl⟩

/-- The line breaks that are counted behind a text add to those in it. -/
theorem Counted.line_add
    (counted : reader.Counted passed unread)
    (more : Text) :
    reader.line + more.lineBreaksAfter passed.getLast? =
      1 + (passed ++ more).countLineBreaks := by
  rw [counted.line_eq, Text.countLineBreaks_eq, Text.countLineBreaks_eq,
    Text.lineBreaksAfter_append, Option.or_none, Nat.add_assoc]

theorem Counted.goesPast
    (counted : reader.Counted passed unread)
    (goes : GoesPast reader after passed more rest) :
    after.Counted (passed ++ more) rest :=
  ⟨goes.standing, goes.line_after.trans (counted.line_add more)⟩

/-! ## A read -/

/-- A token that is read is on the line where it starts. -/
theorem Counted.gives
    (counted : reader.Counted passed unread)
    (read : reader.next delimiters = (.ok (some token), after)) :
    ∃ skipped rest,
      unread = skipped ++ (token.source ++ rest) ∧
      after.Counted (passed ++ (skipped ++ token.source)) rest ∧
      token.CountsLine after.buffer (passed ++ unread) := by
  rcases took_of_next counted.standing read with ⟨skipped, rest, isScan, took⟩
  have parts := (scan_eq_found isScan).1
  refine ⟨skipped, rest, parts, counted.goesPast took.goesPast,
    passed ++ skipped, rest, ?_,
    Buffer.position?_of_livePosition? took.live_start,
    took.line_eq.trans (counted.line_add skipped)⟩
  rw [parts, List.append_assoc]
  rfl

/-- An error is on the line where its tag starts. -/
theorem Counted.fails
    (counted : reader.Counted passed unread)
    (read : reader.next delimiters = (.error error, after)) :
    ∃ more rest,
      unread = more ++ rest ∧
      after.Counted (passed ++ more) rest ∧
      Blames (passed ++ unread) after error := by
  cases result : scan delimiters unread with
  | finished skipped =>
    rcases next_of_finished counted.standing result with ⟨_, ended, -⟩
    rw [read] at ended
    cases ended
  | found skipped piece rest =>
    rcases next_of_found counted.standing result with ⟨_, _, found, -⟩
    rw [read] at found
    cases found
  | faulty skipped fault =>
    rcases next_of_faulty counted.standing result with
      ⟨left, failed, rest, rfl, reason, goes⟩
    rw [counted.line_add] at failed
    rw [read] at failed
    cases failed
    refine ⟨skipped ++ fault.passedText, rest, by simp, counted.goesPast goes,
      ?_⟩
    have position := goes.standing.position_eq
    rcases reason with ⟨tag, rfl⟩ | rfl
    · have split :
          passed ++ (skipped ++ (tag ++ rest)) =
            passed ++ skipped ++ (tag ++ rest) :=
        (List.append_assoc ..).symm
      exact .invalid split (by simpa [Fault.passedText] using position)
    · exact .unclosed (by simp [Fault.passedText])
        (by simpa [Fault.passedText] using position)

theorem Counted.next
    (counted : reader.Counted passed unread)
    (delimiters : Delimiters) :
    ∃ more rest,
      unread = more ++ rest ∧
      (reader.next delimiters).2.Counted (passed ++ more) rest := by
  rcases read : reader.next delimiters with ⟨error | _ | token, after⟩
  · rcases counted.fails read with ⟨more, rest, parts, behind, -⟩
    exact ⟨more, rest, parts, behind⟩
  · rcases ended_of_next counted.standing read with ⟨-, goes, -⟩
    exact ⟨unread, [], by simp, counted.goesPast goes⟩
  · rcases counted.gives read with ⟨skipped, rest, rfl, behind, -⟩
    exact ⟨skipped ++ token.source, rest, by simp, behind⟩

/-- Whatever is read of a template, the reader is on the line of its cursor. -/
theorem Reads.counted (reads : Reads template reader) :
    ∃ passed unread,
      template = passed ++ unread ∧ reader.Counted passed unread := by
  induction reads with
  | start => exact ⟨[], template, rfl, counted_ofText template⟩
  | next _ delimiters ih =>
    rcases ih with ⟨passed, unread, rfl, counted⟩
    rcases counted.next delimiters with ⟨more, rest, rfl, behind⟩
    exact ⟨passed ++ more, rest, by simp, behind⟩
  | tokens _ delimiters ih =>
    rcases ih with ⟨passed, unread, rfl, counted⟩
    have standing := counted.standing
    rcases tokens_streamed standing.linked standing.cursor_eq delimiters with
      ⟨-, -, -, -, -, -, stands, -⟩
    rw [standing.text_eq] at stands
    exact ⟨passed, unread, rfl, stands.at, stands.line_eq.trans counted.line_eq⟩
  | release _ other ih =>
    rcases ih with ⟨passed, unread, rfl, counted⟩
    exact ⟨passed, unread, rfl, counted.standing.release _ other,
      counted.line_eq⟩

/-! ## A stream -/

/-- What is streamed is on the lines where it starts. -/
theorem Streams.countsLine
    {ending : Option RenderError}
    (streams : Streams reader delimiters tokens ending after)
    (counted : reader.Counted passed unread)
    (keeps : Keeps after final) :
    (∀ token ∈ tokens, token.CountsLine final.buffer (passed ++ unread)) ∧
    ∀ error ∈ ending, Blames (passed ++ unread) after error := by
  induction streams generalizing passed unread with
  | finished => simp
  | failed read =>
    rcases counted.fails read with ⟨-, -, -, -, blames⟩
    simpa using blames
  | @token reader between after delimiters token tokens ending read further
      ih =>
    rcases counted.gives read with
      ⟨skipped, rest, parts, behind, before, left, split, start, line⟩
    have whole :
        passed ++ (skipped ++ token.source) ++ rest = passed ++ unread := by
      rw [parts]
      simp
    have later := ih behind keeps
    rw [whole] at later
    refine ⟨List.forall_mem_cons.2 ⟨⟨before, left, split, ?_, line⟩, later.1⟩,
      later.2⟩
    have kept := (further.keeps behind.standing.linked).trans keeps
    have same := counted.standing.standsIn.sighting_eq read kept
    exact (congrArg Sighting.start same).trans start

/--
While a template is read, the line of the reader is that of its cursor, the line
of a token that of its start, and the line of an error that of the start of its
tag.  That goes for tokens that are read one after the other, with any pairs,
and for all of them at once.
-/
theorem lines_of_reads
    (reads : Reads template reader)
    (delimiters : Delimiters) :
    (∃ passed unread,
      template = passed ++ unread ∧
      reader.position = passed.byteSize ∧
      reader.line = 1 + passed.countLineBreaks) ∧
    (∀ token after,
      reader.next delimiters = (.ok (some token), after) →
      token.CountsLine after.buffer template) ∧
    (∀ error after,
      reader.next delimiters = (.error error, after) →
      Blames template after error) ∧
    (∀ tokens after,
      reader.tokens delimiters = (.ok tokens, after) →
      ∀ token ∈ tokens, token.CountsLine after.buffer template) ∧
    (∀ error after,
      reader.tokens delimiters = (.error error, after) →
      ∃ tokens left,
        Streams (ofText template) delimiters tokens (some error) left ∧
        Blames template left error) ∧
    ∀ text : Text,
      text.countLineBreaks = text.lines.countP Text.endsInBreak := by
  rcases reads.counted with ⟨passed, unread, rfl, counted⟩
  have standing := counted.standing
  rcases tokens_streamed standing.linked standing.cursor_eq delimiters with
    ⟨tokens, ending, left, streams, returns, -, -, isAnswer⟩
  have start := standsIn_rewound standing.linked standing.cursor_eq
  rw [standing.text_eq] at start
  refine ⟨⟨passed, unread, rfl, standing.position_eq, counted.line_eq⟩, ?_, ?_,
    ?_, ?_, Text.countLineBreaks_eq_countP⟩
  · intro token after read
    rcases counted.gives read with ⟨-, -, -, -, counts⟩
    exact counts
  · intro error after read
    rcases counted.fails read with ⟨-, -, -, -, blames⟩
    exact blames
  · intro given after collects
    rw [collects] at isAnswer returns
    cases ending with
    | some error => cases isAnswer
    | none =>
      cases isAnswer
      have atStart : reader.rewound.Counted [] (passed ++ unread) :=
        ⟨StandsIn.at start, rfl⟩
      exact (streams.countsLine atStart returns).1
  · intro error after collects
    rw [collects] at isAnswer
    cases ending with
    | none => cases isAnswer
    | some failure =>
      cases isAnswer
      have anew := counted_ofText (passed ++ unread)
      rcases streams.alike start anew.standing.standsIn with
        ⟨tokens', left', _, _, further, -, stands, -⟩
      exact ⟨tokens', left', further,
        (further.countsLine anew (.refl stands.linked)).2 error rfl⟩

/--
A closing delimiter that ends in half of a line break, and a malformed tag on
two lines.
-/
theorem lines_of_reads_split :
    let template := "<x>\r\n<.y\n>\r\nz<w".toList
    let pair : Delimiters := ⟨['<'], ['>', '\r']⟩
    let reader := (((ofText template).next pair).2.next pair).2
    let error : RenderError := .unclosedTag "<w".toList 4
    reader.line = 2 ∧
    (∃ token after,
      reader.next pair = (.ok (some token), after) ∧
      token.line = 4 ∧
      token.CountsLine after.buffer template) ∧
    ∃ tokens left,
      Streams (ofText template) pair tokens (some error) left ∧
      Blames template left error := by
  intro template pair reader error
  have reads : Reads template reader := .next (.next .start pair) pair
  rcases lines_of_reads reads pair with ⟨-, gives, -, -, fails, -⟩
  refine ⟨by decide +kernel, ?_, ?_⟩
  · have given :
        (reader.next pair).1.toOption.map (Option.map Token.line) =
          some (some 4) := by
      decide +kernel
    rcases read : reader.next pair with ⟨error | _ | token, after⟩
    all_goals rw [read] at given
    · cases given
    · cases given
    · have isLine : token.line = 4 := Option.some.inj (Option.some.inj given)
      exact ⟨token, after, rfl, isLine, gives token after read⟩
  · have failed : (reader.tokens pair).1 = .error error := by decide +kernel
    rcases collects : reader.tokens pair with ⟨answer, after⟩
    rw [collects] at failed
    cases failed
    exact fails error after collects

end Reader

end Mustache
