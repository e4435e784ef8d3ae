import Mathlib.Data.List.Infix
import Mustache.Proofs.Reader.Reading
import Mustache.Proofs.Scan.Passing
import Mustache.Proofs.Token.Shape

/-!
# Triple tags

A tag that opens with three braces closes with the first braces that stand next
to each other (`Text.BraceRun`).  There may be two of them or more, and all of
them belong to the tag: while three are at hand the first one is passed over,
and the tag closes on the last two.  Only where no two braces stand next to each
other is the tag unclosed (`Reader.next_of_triple`).
-/

namespace Mustache

/--
A text up to its first two closing braces in a row, the number of braces that
stand there in a row, and what comes behind them.
-/
structure Text.BraceRun
    (text body : Text)
    (braces : Nat)
    (rest : Text) : Prop where
  text_eq : text = body ++ (List.replicate braces '}' ++ rest)
  two_le : 2 ≤ braces
  absent : AbsentFrom ['}', '}'] body (List.replicate braces '}' ++ rest)
  ends : rest.head? ≠ some '}'

/--
Where two closing braces stand next to each other, there is a first such place.
-/
theorem Text.exists_braceRun
    {text : Text}
    (within : ['}', '}'] <:+: text) :
    ∃ body braces rest, text.BraceRun body braces rest := by
  rcases upTo_spec ['}', '}'] text with ⟨left, isText, absent, ends⟩
  generalize upTo ['}', '}'] [] text = body at isText absent
  have starts : ['}', '}'] <+: left := by
    rcases ends with rfl | starts
    · rcases within with ⟨before, after, split⟩
      have isBody : body = before ++ ('}' :: '}' :: after) := by
        simpa using (isText.symm.trans split.symm)
      exact absurd ⟨after, by simp⟩ (absent before _ isBody (by simp))
    · exact starts
  have isLeft : List.replicate (left.takeWhile (· == '}')).length '}' ++
      left.dropWhile (· == '}') = left := by
    rw [← List.eq_replicate_of_mem (a := '}') fun character member => by
      simpa using List.mem_takeWhile_imp member]
    exact List.takeWhile_append_dropWhile
  refine ⟨body, (left.takeWhile (· == '}')).length, left.dropWhile (· == '}'),
    ⟨by rw [isLeft, isText], ?_, by rwa [isLeft], ?_⟩⟩
  · rcases starts with ⟨rest, rfl⟩
    simp
  · intro isBrace
    have notBrace :=
      List.head?_dropWhile_not (fun character : Char => character == '}') left
    rw [isBrace] at notBrace
    simp at notBrace

namespace Lexeme

/-! ## The body of a triple tag -/

theorem readBody_braces
    {rest : Text}
    (ends : rest.head? ≠ some '}')
    (braces : Nat)
    (passed body : Text) :
    readBody ['}', '}'] true passed body
        (List.replicate (braces + 2) '}' ++ rest) =
      some
        (passed.reverse ++ List.replicate (braces + 2) '}', body.reverse) := by
  induction braces generalizing passed with
  | zero =>
    have notTriple :
        ¬(true && ['}', '}', '}'].isPrefixOf (['}', '}'] ++ rest)) = true := by
      cases rest with
      | nil => exact Bool.false_ne_true
      | cons first rest =>
        intro braces
        have isBrace : '}' = first := by simpa [List.isPrefixOf] using braces
        exact ends (by rw [← isBrace]; rfl)
    exact readBody_of_closing (List.cons_ne_nil _ _) notTriple passed body
  | succ braces ih =>
    have triple : (true && ['}', '}', '}'].isPrefixOf
        ('}' :: (List.replicate (braces + 2) '}' ++ rest))) = true := by
      simp [List.replicate_succ, List.isPrefixOf]
    rw [List.replicate_succ, List.cons_append, readBody, if_pos triple,
      ih ('}' :: passed)]
    simp

/-- A triple tag ends with the last of the first braces in a row. -/
theorem readBody_braceRun
    {text body rest : Text}
    {braces : Nat}
    (run : text.BraceRun body braces rest) :
    readBody ['}', '}'] true [] [] text =
      some (body ++ List.replicate braces '}', body) := by
  obtain ⟨more, rfl⟩ : ∃ more, braces = more + 2 :=
    ⟨braces - 2, by have := run.two_le; omega⟩
  rw [run.text_eq, readBody_absent run.absent fun _ => rfl,
    readBody_braces run.ends]
  simp

theorem readBody_eq_none
    {text : Text}
    (never : ¬['}', '}'] <:+: text) :
    readBody ['}', '}'] true [] [] text = none := by
  have absent : Text.AbsentFrom ['}', '}'] text [] := by
    intro earlier later split _ starts
    rw [List.append_nil] at starts
    exact never
      (split ▸ starts.isInfix.trans (List.suffix_append earlier later).isInfix)
  rw [← List.append_nil text, readBody_absent absent fun _ => rfl]
  rfl

/-! ## Triple tags -/

theorem read_triple (following : Text) :
    read .standard ('{' :: '{' :: '{' :: following) =
      match readBody ['}', '}'] true [] [] following with
      | none => .unclosed
      | some (passed, body) =>
        .tag .unescaped ('{' :: '{' :: '{' :: passed) body := by
  have opens : read .standard (['{', '{'] ++ '{' :: following) =
      readTag .standard ('{' :: following) :=
    read_of_opens (List.cons_ne_nil _ _) (List.cons_ne_nil _ _) _
  rw [readTag_eq] at opens
  exact opens

end Lexeme

variable {skipped following body rest : Text} {braces : Nat}

theorem scan_of_triple
    (reached :
      Lexeme.next .standard [] (skipped ++ '{' :: '{' :: '{' :: following) =
        Lexeme.next .standard skipped ('{' :: '{' :: '{' :: following))
    (run : following.BraceRun body braces rest) :
    scan .standard (skipped ++ '{' :: '{' :: '{' :: following) =
      .found skipped
        ⟨.unescaped, body.trim,
          '{' :: '{' :: '{' :: (body ++ List.replicate braces '}'), none⟩
        rest := by
  have isRead :
      Lexeme.read .standard ('{' :: '{' :: '{' :: following) =
        .tag .unescaped
          ('{' :: '{' :: '{' :: (body ++ List.replicate braces '}')) body := by
    rw [Lexeme.read_triple, Lexeme.readBody_braceRun run]
  have wellFormed :
      (Lexeme.read .standard ('{' :: '{' :: '{' :: following)).malformed? =
        none := by
    rw [isRead]
    rfl
  rw [scan, reached,
    Lexeme.next_of_wellFormed (List.cons_ne_nil _ _) wellFormed, isRead]
  simp only [Lexeme.piece, List.length_append, ← List.drop_drop, List.drop_left,
    run.text_eq]
  simp

theorem scan_of_unclosed_triple
    (reached :
      Lexeme.next .standard [] (skipped ++ '{' :: '{' :: '{' :: following) =
        Lexeme.next .standard skipped ('{' :: '{' :: '{' :: following))
    (never : ¬['}', '}'] <:+: following) :
    scan .standard (skipped ++ '{' :: '{' :: '{' :: following) =
      .faulty skipped (.unclosedTag ('{' :: '{' :: '{' :: following)) := by
  have isRead :
      Lexeme.read .standard ('{' :: '{' :: '{' :: following) = .unclosed := by
    rw [Lexeme.read_triple, Lexeme.readBody_eq_none never]
  have wellFormed :
      (Lexeme.read .standard ('{' :: '{' :: '{' :: following)).malformed? =
        none := by
    rw [isRead]
    rfl
  rw [scan, reached,
    Lexeme.next_of_wellFormed (List.cons_ne_nil _ _) wellFormed, isRead]
  simp only [List.drop_left, Lexeme.piece]

namespace Reader

variable {reader : Reader} {passed : Text}

/--
Wherever a reader comes upon three opening braces, behind the malformed tags
`skipped` that it passes over, the tag runs to the end of the first closing
braces that stand in a row, two or more.  Its name is what stands between,
trimmed, and reading goes on behind all of these braces.  Where no two closing
braces stand next to each other the tag is unclosed, and only there.
-/
theorem next_of_triple
    (standing : reader.At passed (skipped ++ '{' :: '{' :: '{' :: following))
    (reached :
      Lexeme.next .standard [] (skipped ++ '{' :: '{' :: '{' :: following) =
        Lexeme.next .standard skipped ('{' :: '{' :: '{' :: following)) :
    (['}', '}'] <:+: following →
      ∃ body braces rest, following.BraceRun body braces rest) ∧
    (∀ body braces rest,
      following.BraceRun body braces rest →
      ∃ token after,
        reader.next .standard = (.ok (some token), after) ∧
        token.kind = .unescaped ∧
        token.name = body.trim ∧
        token.source =
          '{' :: '{' :: '{' :: (body ++ List.replicate braces '}') ∧
        after.At (passed ++ (skipped ++ token.source)) rest) ∧
    ((∃ tag line, (reader.next .standard).1 = .error (.unclosedTag tag line)) ↔
      ¬['}', '}'] <:+: following) ∧
    (¬['}', '}'] <:+: following →
      (reader.next .standard).1 =
        .error
          (.unclosedTag ('{' :: '{' :: '{' :: following)
            (reader.line + skipped.lineBreaksAfter passed.getLast?))) := by
  have closes (body : Text) (braces : Nat) (rest : Text)
      (run : following.BraceRun body braces rest) :
      ∃ token after,
        reader.next .standard = (.ok (some token), after) ∧
        token.kind = .unescaped ∧
        token.name = body.trim ∧
        token.source =
          '{' :: '{' :: '{' :: (body ++ List.replicate braces '}') ∧
        after.At (passed ++ (skipped ++ token.source)) rest := by
    rcases next_of_found standing (scan_of_triple reached run) with
      ⟨token, after, read, took⟩
    have isSource :
        token.source =
          '{' :: '{' :: '{' :: (body ++ List.replicate braces '}') :=
      congrArg Piece.source took.piece_eq
    refine ⟨token, after, read, congrArg Piece.kind took.piece_eq,
      congrArg Piece.name took.piece_eq, isSource, ?_⟩
    rw [isSource]
    exact took.standing
  have unclosed (never : ¬['}', '}'] <:+: following) :
      (reader.next .standard).1 =
        .error
          (.unclosedTag ('{' :: '{' :: '{' :: following)
            (reader.line + skipped.lineBreaksAfter passed.getLast?)) := by
    rcases next_of_faulty standing (scan_of_unclosed_triple reached never) with
      ⟨after, read, -⟩
    rw [read]
    rfl
  refine ⟨Text.exists_braceRun, closes,
    ⟨?_, fun never => ⟨_, _, unclosed never⟩⟩, unclosed⟩
  rintro ⟨tag, line, failed⟩ within
  rcases Text.exists_braceRun within with ⟨body, braces, rest, run⟩
  rcases closes body braces rest run with ⟨token, after, read, -⟩
  rw [read] at failed
  cases failed

/--
A malformed tag before the tag, a brace by itself within it, and four braces at
its end.
-/
theorem next_of_triple_four_braces :
    let following : Text := " a\x7d \x7d\x7d\x7d\x7dc".toList
    let skipped : Text := "\x7b\x7b.é\x7d\x7d".toList
    let template : Text := skipped ++ '{' :: '{' :: '{' :: following
    Lexeme.next .standard [] template =
      Lexeme.next .standard skipped ('{' :: '{' :: '{' :: following) ∧
    following.BraceRun " a\x7d ".toList 4 ['c'] ∧
    ∃ token after,
      (ofText template).next .standard = (.ok (some token), after) ∧
      token.kind = .unescaped ∧
      token.name = "a\x7d".toList ∧
      token.source = "\x7b\x7b\x7b a\x7d \x7d\x7d\x7d\x7d".toList ∧
      after.At (skipped ++ token.source) ['c'] := by
  intro following skipped template
  have reached : Lexeme.next .standard [] template =
      Lexeme.next .standard skipped ('{' :: '{' :: '{' :: following) := by
    decide +kernel
  have run : following.BraceRun " a\x7d ".toList 4 ['c'] := by
    refine ⟨by decide, by decide, ?_, by decide⟩
    apply Text.absentFrom_cons (by decide)
    apply Text.absentFrom_cons (by decide)
    apply Text.absentFrom_cons (by decide)
    apply Text.absentFrom_cons (by decide)
    exact Text.absentFrom_nil _ _
  refine ⟨reached, run, ?_⟩
  rcases (next_of_triple (at_ofText template) reached).2.1 _ _ _ run with
    ⟨token, after, read, kind, name, source, standing⟩
  exact ⟨token, after, read, kind, name.trans (by decide),
    source.trans (by decide), standing⟩

/--
The first three closing braces are not where a triple tag ends: it goes on past
a third brace that a fourth one follows, it ends at two braces that stand before
them, and it ends where there are no three braces at all.
-/
theorem triple_tag_not_closed_by_three :
    let sources (template : String) : Option (List String) :=
      ((ofText template.toList).tokens .standard).1.toOption.map
        (·.map fun token => String.ofList token.source)
    sources "\x7b\x7b\x7bx\x7d\x7d\x7d\x7d" =
      some ["\x7b\x7b\x7bx\x7d\x7d\x7d\x7d"] ∧
    sources "\x7b\x7b\x7ba\x7d\x7db\x7d\x7d\x7d" =
      some ["\x7b\x7b\x7ba\x7d\x7d", "b\x7d\x7d\x7d"] ∧
    sources "\x7b\x7b\x7ba\x7d\x7d" = some ["\x7b\x7b\x7ba\x7d\x7d"] := by
  decide +kernel

end Reader

end Mustache
