import Mustache.Proofs.Delimiters
import Mustache.Proofs.Reader.Stream
import Mustache.Proofs.Token.Shape

/-!
# Set-delimiter tags

Between its equals signs a set-delimiter tag holds a text that names a pair, or
the tag is invalid (`Reader.installs_iff_namedBy`).  The tag ends with the
closing delimiter behind the second sign: no closing delimiter holds a sign, so
none can start before it and end behind it.  From the tag on everything is read
with the pair that was named (`Reader.Switches`).
-/

namespace Mustache

variable {delimiters pair : Delimiters} {body rest : Text}

/--
The tag of a pair that sets the delimiters, with a text between its signs.
-/
def Delimiters.switchTag (delimiters : Delimiters) (body : Text) : Text :=
  delimiters.opening ++ '=' :: (body ++ '=' :: delimiters.closing)

namespace Lexeme

theorem read_switchTag
    (opening : delimiters.opening ≠ [])
    (closing : delimiters.closing ≠ [])
    (noSign : '=' ∉ delimiters.closing)
    (absent : ¬delimiters.closing <:+: body)
    (rest : Text) :
    read delimiters (delimiters.switchTag body ++ rest) =
      .tag .setDelimiters (delimiters.switchTag body) (body ++ ['=']) := by
  have split :
      delimiters.switchTag body ++ rest =
        delimiters.opening ++
          ('=' :: (body ++ ['='] ++ (delimiters.closing ++ rest))) := by
    simp [Delimiters.switchTag]
  have isSource :
      delimiters.switchTag body =
        delimiters.opening ++
          (['='] ++ (body ++ ['='] ++ delimiters.closing)) := by
    simp [Delimiters.switchTag]
  rw [split, isSource]
  exact read_of_nearest opening closing rfl rfl rfl
    (Text.absentFrom_sign noSign absent (delimiters.closing ++ rest))

/-- What a set-delimiter tag makes depends on the text between its signs. -/
theorem piece_switchTag (source body unread : Text) :
    (tag .setDelimiters source (body ++ ['='])).piece unread =
      match Delimiters.parse? body with
      | none => .error (.invalidDelimiters source)
      | some pair => .ok ⟨.setDelimiters, pair.written, source, some pair⟩ := by
  have installed :
      Reader.installed? (body ++ ['=']) = Delimiters.parse? body := by
    simp [Reader.installed?]
  cases named : Delimiters.parse? body <;>
    simp only [Lexeme.piece, installed, named]

end Lexeme

namespace Reader

variable
    {reader after : Reader}
    {passed : Text}
    {token : Token}
    {error : RenderError}

/--
A reader gives a token, and what follows is read with a pair: as the next node,
in a stream of tokens, and on the way to the close tag of a section.
-/
structure Switches
    (reader after : Reader)
    (delimiters pair : Delimiters)
    (token : Token) : Prop where
  next_eq : reader.next delimiters = (.ok (some token), after)
  node_eq : reader.nextNode delimiters = (.ok (some (.leaf token)), pair, after)
  streams : ∀ tokens ending left, Streams after pair tokens ending left →
    Streams reader delimiters (token :: tokens) ending left
  search :
    ∀ opener budget pending,
      findCloser opener (budget + 1) reader delimiters pending =
        findCloser opener budget (after.release token) pair pending

/--
A reader gives an error, whatever is looked for, and the pair stays as it was.
-/
structure Refuses
    (reader after : Reader)
    (delimiters : Delimiters)
    (error : RenderError) : Prop where
  next_eq : reader.next delimiters = (.error error, after)
  node_eq : reader.nextNode delimiters = (.error error, delimiters, after)
  streams : Streams reader delimiters [] (some error) after
  search :
    ∀ opener budget pending,
      findCloser opener (budget + 1) reader delimiters pending =
        (.error error, after)

theorem switches_of_next
    (read : reader.next delimiters = (.ok (some token), after))
    (isKind : token.kind = .setDelimiters)
    (installs : token.delimiters = some pair) :
    reader.Switches after delimiters pair token := by
  have isAfter : delimitersAfter delimiters token = pair := by
    rw [delimitersAfter, installs]
    rfl
  have notOpener : ¬token.kind.opensSection = true := by
    rw [isKind]
    exact Bool.false_ne_true
  have notCloser : token.kind ≠ .closer := by
    rw [isKind]
    exact TokenKind.noConfusion
  refine ⟨read, ?_, fun tokens ending left further => ?_,
    fun opener budget pending => ?_⟩
  · rw [nextNode_of_other notOpener notCloser read, isAfter]
  · exact .token read (by rwa [isAfter])
  · rw [findCloser_of_other opener notOpener notCloser read, isAfter]

theorem refuses_of_next
    (read : reader.next delimiters = (.error error, after)) :
    reader.Refuses after delimiters error where
  next_eq := read
  node_eq := by rw [nextNode, read]
  streams := .failed read
  search _ budget pending := findCloser_of_error read budget pending

/--
The token of a set-delimiter tag: its name is the pair as it is written, and
names the pair.
-/
structure Installs
    (token : Token)
    (pair : Delimiters)
    (source : Text)
    (line : Nat) : Prop where
  kind_eq : token.kind = .setDelimiters
  source_eq : token.source = source
  line_eq : token.line = line
  delimiters_eq : token.delimiters = some pair
  name_eq : token.name = pair.opening ++ ' ' :: pair.closing
  parse?_name : Delimiters.parse? token.name = some pair

section Tag

variable
    (opening : delimiters.opening ≠ [])
    (closing : delimiters.closing ≠ [])
    (noSign : '=' ∉ delimiters.closing)
    (absent : ¬delimiters.closing <:+: body)
    (standing : reader.At passed (delimiters.switchTag body ++ rest))

include opening closing noSign absent standing

theorem installs_of_namedBy (named : pair.NamedBy body) :
    ∃ token after,
      reader.Switches after delimiters pair token ∧
      Installs token pair (delimiters.switchTag body) reader.line ∧
      after.At (passed ++ delimiters.switchTag body) rest := by
  have isRead := Lexeme.read_switchTag opening closing noSign absent rest
  have made := Lexeme.piece_switchTag (delimiters.switchTag body) body []
  rw [Delimiters.parse?_eq_some_iff.2 named] at made
  rcases next_of_found standing (scan_of_tag isRead rfl made) with
    ⟨token, after, read, took⟩
  have installed : token.delimiters = some pair :=
    congrArg Piece.delimiters took.piece_eq
  refine ⟨token, after, switches_of_next read took.kind_eq installed, ?_,
    took.standing⟩
  exact
    { kind_eq := took.kind_eq
      source_eq := took.source_eq
      line_eq := took.line_eq
      delimiters_eq := installed
      name_eq := took.name_eq
      parse?_name := by
        rw [took.name_eq]
        exact Delimiters.parse?_eq_some_iff.2 named.written }

theorem refuses_of_not_namedBy
    (unnamed : ∀ pair : Delimiters, ¬pair.NamedBy body) :
    ∃ after,
      reader.Refuses after delimiters
        (.invalidDelimiters (delimiters.switchTag body) reader.line) := by
  have isRead := Lexeme.read_switchTag opening closing noSign absent rest
  have nothing : Delimiters.parse? body = none :=
    Option.eq_none_iff_forall_ne_some.2 fun pair named =>
      unnamed pair (Delimiters.parse?_eq_some_iff.1 named)
  have made := Lexeme.piece_switchTag (delimiters.switchTag body) body
    (delimiters.switchTag body ++ rest)
  rw [nothing] at made
  have nonempty : delimiters.switchTag body ++ rest ≠ [] := by
    simp [Delimiters.switchTag]
  rcases next_of_faulty standing (scan_of_fault nonempty isRead rfl made) with
    ⟨after, read, -⟩
  exact ⟨after, refuses_of_next read⟩

end Tag

/--
Where a reader comes upon a set-delimiter tag without a closing delimiter
between its signs, the tag installs the pair that the text between the signs
names.  If the text names no pair, there is an error with the whole tag.  What
is written of a pair that some text names, names the pair.
-/
theorem installs_iff_namedBy
    (opening : delimiters.opening ≠ [])
    (closing : delimiters.closing ≠ [])
    (noSign : '=' ∉ delimiters.closing)
    (absent : ¬delimiters.closing <:+: body)
    (standing : reader.At passed (delimiters.switchTag body ++ rest)) :
    ((∃ token after,
        reader.next delimiters = (.ok (some token), after) ∧
        token.kind = .setDelimiters) ↔
      ∃ pair : Delimiters, pair.NamedBy body) ∧
    (∀ pair : Delimiters,
      pair.NamedBy body →
      ∃ token after,
        reader.Switches after delimiters pair token ∧
        Installs token pair (delimiters.switchTag body) reader.line ∧
        after.At (passed ++ delimiters.switchTag body) rest) ∧
    ((∀ pair : Delimiters, ¬pair.NamedBy body) →
      ∃ after,
        reader.Refuses after delimiters
          (.invalidDelimiters (delimiters.switchTag body) reader.line)) ∧
    ∀ (text : Text) (pair : Delimiters),
      Delimiters.parse? text = some pair →
      Delimiters.parse? pair.written = some pair := by
  refine ⟨⟨?_, ?_⟩,
    fun pair => installs_of_namedBy opening closing noSign absent standing,
    refuses_of_not_namedBy opening closing noSign absent standing, ?_⟩
  · rintro ⟨token, after, read, -⟩
    by_contra unnamed
    rcases refuses_of_not_namedBy opening closing noSign absent standing
      (not_exists.1 unnamed) with ⟨_, refused⟩
    rw [refused.next_eq] at read
    cases read
  · rintro ⟨pair, named⟩
    rcases installs_of_namedBy opening closing noSign absent standing named with
      ⟨token, after, switches, installs, -⟩
    exact ⟨token, after, switches.next_eq, installs.kind_eq⟩
  · intro text pair named
    exact Delimiters.parse?_eq_some_iff.2
      (Delimiters.parse?_eq_some_iff.1 named).written

/--
No-break spaces around the words, and a closing delimiter that starts as the one
before.
-/
theorem installs_iff_namedBy_spaced :
    let delimiters : Delimiters := ⟨['<', '%'], ['%', '>']⟩
    let pair : Delimiters := ⟨['|'], ['%', '|']⟩
    let body : Text := "\u00a0|\u2003\t%|\n".toList
    let rest : Text := "|x%|".toList
    delimiters.opening ≠ [] ∧
    delimiters.closing ≠ [] ∧
    '=' ∉ delimiters.closing ∧
    ¬delimiters.closing <:+: body ∧
    (ofText (delimiters.switchTag body ++ rest)).At []
      (delimiters.switchTag body ++ rest) ∧
    pair.NamedBy body ∧
    ∃ token after,
      (ofText (delimiters.switchTag body ++ rest)).Switches after delimiters
        pair token ∧
      token.name = "| %|".toList ∧
      after.At (delimiters.switchTag body) rest := by
  intro delimiters pair body rest
  have opening : delimiters.opening ≠ [] := List.cons_ne_nil _ _
  have closing : delimiters.closing ≠ [] := List.cons_ne_nil _ _
  have noSign : '=' ∉ delimiters.closing := by decide
  have absent : ¬delimiters.closing <:+: body := by decide +kernel
  have standing := at_ofText (delimiters.switchTag body ++ rest)
  have named : pair.NamedBy body :=
    Delimiters.parse?_eq_some_iff.1 (by decide +kernel)
  refine ⟨opening, closing, noSign, absent, standing, named, ?_⟩
  rcases (installs_iff_namedBy opening closing noSign absent standing).2.1 pair
      named with ⟨token, after, switches, installs, standingAfter⟩
  rw [List.nil_append] at standingAfter
  exact ⟨token, after, switches, installs.name_eq.trans (by decide),
    standingAfter⟩

end Reader

end Mustache
