import Mustache.Error
import Mustache.Reader.Node

/-!
# Well-nested tokens

Section tags are brackets: an opener of either kind is closed by the close tag
that pairs with it, and the close tag carries its name.  Tokens are well-nested
when they can be arranged as nodes (`Arranges`): a token that is no section tag
is a node, and so is an opener with well-nested tokens behind it and then its
close tag.  There is one such arrangement at most, so a close tag belongs to one
opener (`Arranges.unique`).

Going through the tokens with a stack of open sections decides whether they are
well-nested, and finds the first one at which they are not
(`verdict_eq_none_iff`, `verdict_eq_some_iff`).
-/

namespace Mustache

/-- Well-nested tokens, and the nodes they make at the top level. -/
inductive Arranges : List Token → List Node → Prop
  | nil : Arranges [] []
  /-- A token that is no section tag. -/
  | leaf
      {token : Token}
      {rest : List Token}
      {nodes : List Node}
      (notOpener : token.kind.opensSection = false)
      (notCloser : token.kind ≠ .closer)
      (further : Arranges rest nodes) :
      Arranges (token :: rest) (.leaf token :: nodes)
  /-- A section: the close tag that pairs with an opener has its name. -/
  | paired
      {opener closer : Token}
      {body rest : List Token}
      {inner nodes : List Node}
      (opens : opener.kind.opensSection = true)
      (closes : closer.kind = .closer)
      (named : closer.name = opener.name)
      (inside : Arranges body inner)
      (further : Arranges rest nodes) :
      Arranges (opener :: (body ++ closer :: rest))
        (.paired opener closer :: nodes)

/--
Tokens after which some sections are open, given by their openers, the innermost
first.
-/
inductive LeavesOpen : List Token → List Token → Prop
  | closed
      {tokens : List Token}
      {nodes : List Node}
      (arranged : Arranges tokens nodes) :
      LeavesOpen tokens []
  | opened
      {tokens inside opened : List Token}
      {opener : Token}
      {nodes : List Node}
      (outside : LeavesOpen tokens opened)
      (opens : opener.kind.opensSection = true)
      (arranged : Arranges inside nodes) :
      LeavesOpen (tokens ++ opener :: inside) (opener :: opened)

/--
The error of the first token that keeps a template from being well-nested, when
its tokens are followed by the given error or by none.
-/
inductive FirstOffence
    (tokens : List Token)
    (ending : Option RenderError) : RenderError → Prop
  /--
  A close tag closes no section, or has another name than the innermost open
  one.
  -/
  | unbalanced
      {earlier later opened : List Token}
      {closer : Token}
      (split : tokens = earlier ++ closer :: later)
      (before : LeavesOpen earlier opened)
      (closes : closer.kind = .closer)
      (mismatched : ∀ inner ∈ opened.head?, inner.name ≠ closer.name) :
      FirstOffence tokens ending (.unbalancedSection closer.source closer.line)
  /-- There is no token to be read behind the last one. -/
  | faulty
      {opened : List Token}
      {error : RenderError}
      (before : LeavesOpen tokens opened)
      (ends : ending = some error) :
      FirstOffence tokens ending error
  /-- The text ends with sections open, the outermost of which is told. -/
  | unclosed
      {opened : List Token}
      {outermost : Token}
      (before : LeavesOpen tokens opened)
      (ends : ending = none)
      (isOutermost : opened.getLast? = some outermost) :
      FirstOffence tokens ending
        (.unclosedSection outermost.source outermost.line)

/-! ## A stack of open sections -/

/--
The openers of the sections that are open after a token, the innermost first.
-/
def Token.openAfter
    (token : Token)
    (opened : List Token) : Except RenderError (List Token) :=
  if token.kind.opensSection then
    .ok (token :: opened)
  else if token.kind = .closer then
    match opened with
    | inner :: outer =>
      if inner.name = token.name then .ok outer
      else .error (.unbalancedSection token.source token.line)
    | [] => .error (.unbalancedSection token.source token.line)
  else
    .ok opened

/-- The openers of the sections that are open after some tokens. -/
def openAfterAll : List Token → List Token → Except RenderError (List Token)
  | opened, [] => .ok opened
  | opened, token :: rest =>
    match token.openAfter opened with
    | .ok opened => openAfterAll opened rest
    | .error error => .error error

/--
The first error of tokens that are followed by the given error or by none.
-/
def verdict
    (opened tokens : List Token)
    (ending : Option RenderError) : Option RenderError :=
  match openAfterAll opened tokens with
  | .error error => some error
  | .ok opened =>
    ending.or
      (opened.getLast?.map fun opener =>
        .unclosedSection opener.source opener.line)

variable
    {token : Token}
    {opened rest : List Token}
    {ending : Option RenderError}

theorem Token.openAfter_of_opener
    (opens : token.kind.opensSection = true)
    (opened : List Token) :
    token.openAfter opened = .ok (token :: opened) :=
  if_pos opens

theorem Token.openAfter_of_other
    (notOpener : token.kind.opensSection = false)
    (notCloser : token.kind ≠ .closer)
    (opened : List Token) :
    token.openAfter opened = .ok opened := by
  simp [openAfter, notOpener, notCloser]

theorem Token.openAfter_of_closer
    (closes : token.kind = .closer)
    {inner : Token}
    (named : inner.name = token.name)
    (outer : List Token) :
    token.openAfter (inner :: outer) = .ok outer := by
  simp [openAfter, closes, named, TokenKind.opensSection]

theorem Token.openAfter_of_mismatch
    (closes : token.kind = .closer)
    (mismatched : ∀ inner ∈ opened.head?, inner.name ≠ token.name) :
    token.openAfter opened =
      .error (.unbalancedSection token.source token.line) := by
  cases opened with
  | nil => simp [openAfter, closes, TokenKind.opensSection]
  | cons inner outer =>
    have different : inner.name ≠ token.name := mismatched inner rfl
    simp [openAfter, closes, different, TokenKind.opensSection]

theorem Token.of_openAfter_error
    {error : RenderError}
    (token : Token)
    (fails : token.openAfter opened = .error error) :
    token.kind = .closer ∧
    (∀ inner ∈ opened.head?, inner.name ≠ token.name) ∧
    error = .unbalancedSection token.source token.line := by
  unfold openAfter at fails
  split at fails
  · cases fails
  · split at fails
    · rename_i closes
      split at fails
      · split at fails
        · cases fails
        · rename_i different
          cases fails
          exact ⟨closes, by simpa using different, rfl⟩
      · cases fails
        exact ⟨closes, by simp, rfl⟩
    · cases fails

theorem openAfterAll_append (opened first second : List Token) :
    openAfterAll opened (first ++ second) =
      match openAfterAll opened first with
      | .ok between => openAfterAll between second
      | .error error => .error error := by
  induction first generalizing opened with
  | nil => rfl
  | cons token first ih =>
    simp only [List.cons_append, openAfterAll]
    cases token.openAfter opened with
    | ok after => exact ih after
    | error error => rfl

theorem verdict_cons
    {after : List Token}
    (opens : token.openAfter opened = .ok after)
    (rest : List Token)
    (ending : Option RenderError) :
    verdict opened (token :: rest) ending = verdict after rest ending := by
  rw [verdict, openAfterAll, opens]
  rfl

theorem verdict_cons_error
    {error : RenderError}
    (fails : token.openAfter opened = .error error)
    (rest : List Token)
    (ending : Option RenderError) :
    verdict opened (token :: rest) ending = some error := by
  rw [verdict, openAfterAll, fails]

theorem verdict_append
    {first between : List Token}
    (opens : openAfterAll opened first = .ok between)
    (rest : List Token)
    (ending : Option RenderError) :
    verdict opened (first ++ rest) ending = verdict between rest ending := by
  rw [verdict, openAfterAll_append, opens]
  rfl

/-! ## The stack finds the arrangement -/

namespace Arranges

variable {tokens tokens' : List Token} {nodes nodes' : List Node}

theorem append
    (first : Arranges tokens nodes)
    (second : Arranges tokens' nodes') :
    Arranges (tokens ++ tokens') (nodes ++ nodes') := by
  induction first with
  | nil => exact second
  | leaf notOpener notCloser _ ih => exact .leaf notOpener notCloser ih
  | paired opens closes named inside _ _ ih =>
    have whole := paired opens closes named inside ih
    simpa using whole

/-- Well-nested tokens leave the sections open that were open before. -/
theorem openAfterAll_eq
    (arranged : Arranges tokens nodes)
    (opened : List Token) :
    openAfterAll opened tokens = .ok opened := by
  induction arranged generalizing opened with
  | nil => rfl
  | @leaf token _ _ notOpener notCloser _ ih =>
    rw [openAfterAll, Token.openAfter_of_other notOpener notCloser]
    exact ih opened
  | @paired opener closer _ _ _ _ opens closes named _ _ ihInside ihFurther =>
    rw [openAfterAll, Token.openAfter_of_opener opens]
    simp only
    rw [openAfterAll_append, ihInside]
    simp only
    rw [openAfterAll, Token.openAfter_of_closer closes named.symm]
    exact ihFurther opened

/--
Two well-nested texts before close tags are the same when one could be read for
the other: the shorter of the two leaves nothing open, so no close tag can
follow it in the other.
-/
theorem eq_of_append
    (first : Arranges tokens nodes)
    (second : Arranges tokens' nodes')
    {closer closer' : Token}
    (closes : closer.kind = .closer)
    (closes' : closer'.kind = .closer)
    {rest rest' : List Token}
    (same : tokens ++ closer :: rest = tokens' ++ closer' :: rest') :
    tokens = tokens' ∧ closer = closer' ∧ rest = rest' := by
  have noCloser {inside more : List Token} {nodes : List Node} {token : Token}
      (arranged : Arranges inside nodes) (closes : token.kind = .closer)
      {whole : List Node} (longer : Arranges (inside ++ token :: more) whole) :
      False := by
    have ends := longer.openAfterAll_eq []
    have mismatched :
        ∀ inner ∈ ([] : List Token).head?, inner.name ≠ token.name := by
      simp
    rw [openAfterAll_append, arranged.openAfterAll_eq []] at ends
    simp only at ends
    rw [openAfterAll, Token.openAfter_of_mismatch closes mismatched] at ends
    cases ends
  rcases List.append_eq_append_iff.1 same with
    ⟨more, longer, split⟩ | ⟨more, longer, split⟩
  · cases more with
    | nil =>
      rw [List.append_nil] at longer
      rw [List.nil_append, List.cons.injEq] at split
      exact ⟨longer.symm, split.1, split.2⟩
    | cons token more =>
      rw [List.cons_append, List.cons.injEq] at split
      rw [longer, ← split.1] at second
      exact (noCloser first closes second).elim
  · cases more with
    | nil =>
      rw [List.append_nil] at longer
      rw [List.nil_append, List.cons.injEq] at split
      exact ⟨longer, split.1.symm, split.2.symm⟩
    | cons token more =>
      rw [List.cons_append, List.cons.injEq] at split
      rw [longer, ← split.1] at first
      exact (noCloser second closes' first).elim

/-- Tokens can be arranged in one way only. -/
theorem unique
    (first : Arranges tokens nodes)
    (second : Arranges tokens nodes') :
    nodes = nodes' := by
  induction first generalizing nodes' with
  | nil =>
    cases second
    rfl
  | leaf notOpener _ _ ih =>
    cases second with
    | leaf _ _ further => rw [ih further]
    | paired opens =>
      rw [notOpener] at opens
      cases opens
  | @paired opener closer body rest inner nodes opens closes named inside _ _
      ih =>
    generalize whole : opener :: (body ++ closer :: rest) = tokens at second
    cases second with
    | nil => cases whole
    | leaf notOpener =>
      cases whole
      rw [notOpener] at opens
      cases opens
    | paired _ closes' _ inside' further =>
      rw [List.cons.injEq] at whole
      rcases inside.eq_of_append inside' closes closes' whole.2 with
        ⟨-, rfl, rfl⟩
      rw [ih further, whole.1]

end Arranges

namespace LeavesOpen

variable {tokens more : List Token} {nodes : List Node}

/-- Well-nested tokens behind others leave the same sections open. -/
theorem append
    (before : LeavesOpen tokens opened)
    (arranged : Arranges more nodes) :
    LeavesOpen (tokens ++ more) opened := by
  cases before with
  | closed first => exact .closed (first.append arranged)
  | opened outside opens inside =>
    rw [List.append_assoc, List.cons_append]
    exact .opened outside opens (inside.append arranged)

/-- An opener opens a section within the others. -/
theorem opener
    (before : LeavesOpen tokens opened)
    (opens : token.kind.opensSection = true) :
    LeavesOpen (tokens ++ [token]) (token :: opened) :=
  .opened before opens .nil

/-- A close tag closes the innermost section if it has its name. -/
theorem closer
    {inner : Token}
    (before : LeavesOpen tokens (inner :: opened))
    (closes : token.kind = .closer)
    (named : inner.name = token.name) :
    LeavesOpen (tokens ++ [token]) opened := by
  cases before with
  | opened outside opens inside =>
    rw [List.append_assoc, List.cons_append]
    exact outside.append (.paired opens closes named.symm inside .nil)

/-- The sections that are left open are those on the stack. -/
theorem openAfterAll_eq (before : LeavesOpen tokens opened) :
    openAfterAll [] tokens = .ok opened := by
  induction before with
  | closed arranged => exact arranged.openAfterAll_eq []
  | opened _ opens arranged ih =>
    rw [openAfterAll_append, ih]
    simp only
    rw [openAfterAll, Token.openAfter_of_opener opens]
    exact arranged.openAfterAll_eq _

theorem of_openAfter
    {after : List Token}
    (before : LeavesOpen tokens opened)
    (opens : token.openAfter opened = .ok after) :
    LeavesOpen (tokens ++ [token]) after := by
  by_cases isOpener : token.kind.opensSection = true
  · rw [Token.openAfter_of_opener isOpener] at opens
    cases opens
    exact before.opener isOpener
  · rw [Bool.not_eq_true] at isOpener
    by_cases isCloser : token.kind = .closer
    · cases opened with
      | nil =>
        rw [Token.openAfter_of_mismatch isCloser (by simp)] at opens
        cases opens
      | cons inner outer =>
        by_cases named : inner.name = token.name
        · rw [Token.openAfter_of_closer isCloser named] at opens
          cases opens
          exact before.closer isCloser named
        · rw [Token.openAfter_of_mismatch isCloser (by simpa using named)]
            at opens
          cases opens
    · rw [Token.openAfter_of_other isOpener isCloser] at opens
      cases opens
      exact before.append (.leaf isOpener isCloser .nil)

theorem of_openAfterAll
    {after : List Token}
    (before : LeavesOpen tokens opened)
    (opens : openAfterAll opened more = .ok after) :
    LeavesOpen (tokens ++ more) after := by
  induction more generalizing tokens opened with
  | nil =>
    cases opens
    rwa [List.append_nil]
  | cons token more ih =>
    rw [openAfterAll] at opens
    split at opens
    · rename_i between opensOne
      have later := ih (before.of_openAfter opensOne) opens
      simpa using later
    · cases opens

/-- Where the stack fails, a close tag mismatches. -/
theorem firstOffence
    {error : RenderError}
    (before : LeavesOpen tokens opened)
    (fails : openAfterAll opened more = .error error)
    (ending : Option RenderError) :
    FirstOffence (tokens ++ more) ending error := by
  induction more generalizing tokens opened with
  | nil => cases fails
  | cons token more ih =>
    rw [openAfterAll] at fails
    split at fails
    · rename_i between opensOne
      have later := ih (before.of_openAfter opensOne) fails
      simpa using later
    · rename_i failsHere
      cases fails
      rcases token.of_openAfter_error failsHere with ⟨closes, mismatched, rfl⟩
      exact .unbalanced rfl before closes mismatched

end LeavesOpen

/-- No sections are left open by well-nested tokens, and by no others. -/
theorem leavesOpen_nil_iff {tokens : List Token} :
    LeavesOpen tokens [] ↔ ∃ nodes, Arranges tokens nodes := by
  constructor
  · intro before
    cases before with
    | closed arranged => exact ⟨_, arranged⟩
  · rintro ⟨nodes, arranged⟩
    exact .closed arranged

/-- There is nothing to report on well-nested tokens, and on no others. -/
theorem verdict_eq_none_iff {tokens : List Token} :
    verdict [] tokens ending = none ↔
      ending = none ∧ ∃ nodes, Arranges tokens nodes := by
  rw [← leavesOpen_nil_iff]
  constructor
  · intro nothing
    unfold verdict at nothing
    split at nothing
    · cases nothing
    · rename_i opened opens
      rcases Option.or_eq_none_iff.1 nothing with ⟨noError, noOpener⟩
      rw [Option.map_eq_none_iff, List.getLast?_eq_none_iff] at noOpener
      subst noOpener
      exact ⟨noError, LeavesOpen.of_openAfterAll (.closed .nil) opens⟩
  · rintro ⟨rfl, before⟩
    rw [verdict, before.openAfterAll_eq]
    rfl

/-- What is reported is the first offence. -/
theorem verdict_eq_some_iff
    {tokens : List Token}
    {error : RenderError} :
    verdict [] tokens ending = some error ↔
      FirstOffence tokens ending error := by
  have start : LeavesOpen [] [] := .closed .nil
  constructor
  · intro reported
    unfold verdict at reported
    split at reported
    · rename_i fails
      cases reported
      exact start.firstOffence fails ending
    · rename_i opened opens
      have before := start.of_openAfterAll opens
      cases ending with
      | some cause =>
        cases reported
        exact .faulty before rfl
      | none =>
        rcases Option.map_eq_some_iff.1 reported with
          ⟨outermost, isOutermost, rfl⟩
        exact .unclosed before rfl isOutermost
  · intro offence
    cases offence with
    | unbalanced split before closes mismatched =>
      rw [split, verdict_append before.openAfterAll_eq]
      exact verdict_cons_error (Token.openAfter_of_mismatch closes mismatched) _
        _
    | faulty before ends =>
      rw [verdict, before.openAfterAll_eq, ends]
      rfl
    | unclosed before ends isOutermost =>
      rw [verdict, before.openAfterAll_eq, ends]
      simp [isOutermost]

end Mustache
