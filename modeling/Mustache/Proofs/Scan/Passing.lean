import Mustache.Proofs.Scan.Basic

/-!
# What a scan passes over

A scan takes a stretch of text off in one piece, up to the next place where a
tag may open.  What is read of the text afterwards is what would be read if its
characters were passed over one by one (`PassesText.cons`).  A malformed tag at
the head is passed over, too (`scan_of_malformed`); any other tag there is what
is found (`scan_of_tag`).
-/

namespace Mustache

/-- Does a tag open at the head of a text? -/
def Delimiters.opensAt (delimiters : Delimiters) (text : Text) : Bool :=
  delimiters.canMarkTags && delimiters.opening.isPrefixOf text

variable {delimiters : Delimiters} {character : Char} {rest : Text}

theorem opensAt_iff {text : Text} :
    delimiters.opensAt text = true ↔
      delimiters.opening ≠ [] ∧
        delimiters.closing ≠ [] ∧
        delimiters.opening <+: text :=
  Lexeme.opens_iff

theorem not_opensAt_of_notMem
    (absent : character ∉ delimiters.opening)
    (rest : Text) :
    delimiters.opensAt (character :: rest) = false := by
  apply Bool.eq_false_iff.2
  intro opens
  rcases opensAt_iff.1 opens with ⟨nonempty, -, starts⟩
  rcases List.exists_cons_of_ne_nil nonempty with ⟨first, opening, isOpening⟩
  rw [isOpening] at starts absent
  exact absent (by simp [(List.cons_prefix_cons.1 starts).1])

theorem not_opensAt_of_isBlank
    (solid : delimiters.Solid)
    (blank : Text.isBlank character = true)
    (rest : Text) :
    delimiters.opensAt (character :: rest) = false := by
  apply not_opensAt_of_notMem
  intro member
  rw [solid.opening character member] at blank
  cases blank

theorem opensAt_of_read
    {kind : TokenKind}
    {text source body : Text}
    (isRead : Lexeme.read delimiters text = .tag kind source body) :
    delimiters.opensAt text = true :=
  Lexeme.opens_of_read isRead

theorem read_of_not_opensAt
    (closed : delimiters.opensAt (character :: rest) = false) :
    Lexeme.read delimiters (character :: rest) =
      .plain (Lexeme.readPlain delimiters.opening (character :: rest)) :=
  if_neg (Bool.eq_false_iff.1 closed)

theorem scan_nil (delimiters : Delimiters) :
    scan delimiters [] = .finished [] := by
  simp [scan, Lexeme.next]

/-- Where no tag opens, there is text up to the next place where one may. -/
theorem scan_of_not_opensAt
    (closed : delimiters.opensAt (character :: rest) = false) :
    scan delimiters (character :: rest) =
      .found []
        ⟨.text, Lexeme.readPlain delimiters.opening (character :: rest),
          Lexeme.readPlain delimiters.opening (character :: rest), none⟩
        ((character :: rest).drop
          (Lexeme.readPlain delimiters.opening
            (character :: rest)).length) := by
  have isPlain := read_of_not_opensAt closed
  have found :
      Lexeme.next delimiters [] (character :: rest) =
        ([],
          some
            (.plain
              (Lexeme.readPlain delimiters.opening (character :: rest)))) := by
    rw [Lexeme.next, if_neg (List.cons_ne_nil character rest)]
    split
    · rename_i malformed
      rw [isPlain] at malformed
      cases malformed
    · rw [isPlain]
  simp only [scan, found]
  rfl

/--
A stretch of text at the head makes no difference to what is read of what
follows.
-/
def PassesText
    {α : Type}
    (delimiters : Delimiters)
    (reading : Text → α) : Prop :=
  ∀ character rest, delimiters.opensAt (character :: rest) = false →
    reading (character :: rest) =
      reading ((character :: rest).drop
        (Lexeme.readPlain delimiters.opening (character :: rest)).length)

namespace PassesText

variable {α : Type} {reading : Text → α}

/--
Passing over text up to the next place where a tag may open makes no difference.
-/
theorem drop_upTo
    (passes : PassesText delimiters reading)
    (nonempty : delimiters.opening ≠ [])
    (text : Text) :
    reading (text.drop (Text.upTo delimiters.opening [] text).length) =
      reading text := by
  cases text with
  | nil => rfl
  | cons character rest =>
    by_cases starts : delimiters.opening <+: character :: rest
    · rw [Text.upTo_nil_of_starts starts]
      rfl
    · have closed : delimiters.opensAt (character :: rest) = false := by
        apply Bool.eq_false_iff.2
        intro opens
        exact starts (opensAt_iff.1 opens).2.2
      rw [Text.upTo_cons_of_not_starts starts, passes character rest closed,
        Lexeme.readPlain_cons, if_neg (by simpa using nonempty)]

/-- A character at which no tag opens makes no difference. -/
theorem cons
    (passes : PassesText delimiters reading)
    (closed : delimiters.opensAt (character :: rest) = false) :
    reading (character :: rest) = reading rest := by
  rw [passes character rest closed, Lexeme.readPlain_cons]
  by_cases nonempty : delimiters.opening = []
  · have never (text : Text) : delimiters.opensAt text = false := by
      simp [Delimiters.opensAt, Delimiters.canMarkTags, nonempty]
    cases rest with
    | nil => simp [nonempty]
    | cons next rest =>
      rw [passes next rest (never _), Lexeme.readPlain_cons]
      simp [nonempty]
  · rw [if_neg (by simpa using nonempty)]
    exact passes.drop_upTo nonempty rest

/-- A blank line before a text can be removed without a trace. -/
theorem blank
    (passes : PassesText delimiters reading)
    (solid : delimiters.Solid)
    {line : Text}
    (blank : ∀ character ∈ line, Text.isBlank character = true)
    (rest : Text) :
    reading (line ++ rest) = reading rest := by
  induction line with
  | nil => rfl
  | cons character line ih =>
    rw [List.cons_append,
      passes.cons
        (not_opensAt_of_isBlank solid (blank character List.mem_cons_self) _)]
    exact ih fun other member => blank other (List.mem_cons_of_mem _ member)

end PassesText

/-! ## Malformed tags, and tags -/

theorem Lexeme.next_of_malformed
    {skipped source text : Text}
    (malformed : (read delimiters (source ++ text)).malformed? = some source) :
    next delimiters skipped (source ++ text) =
      next delimiters (skipped ++ source) text := by
  have nonempty : source ++ text ≠ [] := by
    have := malformed?_ne_nil malformed
    simp [this]
  rw [next, if_neg nonempty]
  split
  · rename_i other isOther
    rw [malformed] at isOther
    cases isOther
    rw [List.drop_left]
  · rename_i wellFormed
    rw [malformed] at wellFormed
    cases wellFormed

theorem Lexeme.next_of_wellFormed
    {skipped unread : Text}
    (nonempty : unread ≠ [])
    (wellFormed : (read delimiters unread).malformed? = none) :
    next delimiters skipped unread =
      (skipped, some (read delimiters unread)) := by
  rw [next, if_neg nonempty]
  split
  · rename_i malformed
    rw [wellFormed] at malformed
    cases malformed
  · rfl

/-- The malformed tags passed over so far are only kept. -/
theorem Lexeme.next_eq_append
    (delimiters : Delimiters)
    (skipped unread : Text) :
    next delimiters skipped unread =
      (skipped ++ (next delimiters [] unread).1,
        (next delimiters [] unread).2) := by
  by_cases isEnd : unread = []
  · simp [next, isEnd]
  · cases malformed : (read delimiters unread).malformed? with
    | none => simp [next_of_wellFormed isEnd malformed]
    | some source =>
      have split := malformed?_isPrefix malformed
      rw [split] at malformed ⊢
      rw [next_of_malformed malformed, next_of_malformed malformed,
        next_eq_append, next_eq_append _ ([] ++ source)]
      simp
termination_by unread.length
decreasing_by
  all_goals
    have tagNonempty := List.length_pos_iff.2 (malformed?_ne_nil malformed)
    have nonempty := List.length_pos_iff.2 isEnd
    simp only [List.length_drop]
    omega

theorem scan_of_malformed
    {source text : Text}
    (malformed :
      (Lexeme.read delimiters (source ++ text)).malformed? = some source) :
    scan delimiters (source ++ text) =
      match scan delimiters text with
      | .finished skipped => .finished (source ++ skipped)
      | .faulty skipped fault => .faulty (source ++ skipped) fault
      | .found skipped piece rest => .found (source ++ skipped) piece rest := by
  simp only [scan, Lexeme.next_of_malformed malformed,
    Lexeme.next_eq_append delimiters ([] ++ source)]
  rcases Lexeme.next delimiters [] text with ⟨skipped, _ | lexeme⟩
  · simp
  · simp only
      [List.nil_append, List.length_append, ← List.drop_drop, List.drop_left]
    rcases lexeme.piece (text.drop skipped.length) with fault | piece
    · rfl
    · rfl

/-- What a tag makes does not depend on where it stands. -/
theorem Lexeme.piece_tag_congr
    (kind : TokenKind)
    (source body unread unread' : Text) :
    (tag kind source body).piece unread =
      (tag kind source body).piece unread' := by
  cases kind <;> rfl

/-- A tag at the head that makes a piece is what is found. -/
theorem scan_of_tag
    {source text body : Text}
    {kind : TokenKind}
    {piece : Piece}
    (isRead : Lexeme.read delimiters (source ++ text) = .tag kind source body)
    (wellFormed : (Lexeme.tag kind source body).malformed? = none)
    (made : (Lexeme.tag kind source body).piece [] = .ok piece) :
    scan delimiters (source ++ text) = .found [] piece text := by
  have nonempty : source ++ text ≠ [] := by
    have := Lexeme.read_tag_ne_nil isRead
    simp [this]
  rw [← isRead] at wellFormed
  have anywhere (unread : Text) :
      (Lexeme.tag kind source body).piece unread = .ok piece :=
    (Lexeme.piece_tag_congr ..).trans made
  have same := (Lexeme.piece_tag_eq_ok made).2
  rw [scan, Lexeme.next_of_wellFormed nonempty wellFormed, isRead]
  simp only [anywhere, List.nil_append, same, List.drop_left]

/-- A tag at the head that makes no piece is a fault. -/
theorem scan_of_fault
    {text : Text}
    {lexeme : Lexeme}
    {fault : Fault}
    (nonempty : text ≠ [])
    (isRead : Lexeme.read delimiters text = lexeme)
    (wellFormed : lexeme.malformed? = none)
    (faulty : lexeme.piece text = .error fault) :
    scan delimiters text = .faulty [] fault := by
  rw [← isRead] at wellFormed
  rw [scan, Lexeme.next_of_wellFormed nonempty wellFormed, isRead]
  simp only [List.length_nil, List.drop_zero, faulty]

end Mustache
