import Mustache.Proofs.Reader.Triple
import Mustache.Proofs.Scan.Extension

/-!
# Tags as they are written

A tag that is written around a name, between two braces on either side, is read
back with that name, whatever comes behind it.  After a modifier any name will
do that has no blanks at its edges and does not close the tag itself
(`scan_modifiedTag`).  Without one it must not be empty or start with a
modifier, either.  A name can be written for its text in four ways (`TagForm`),
of which three leave the text unescaped.

Such a tag in sections, each within the one before, is found as it was written,
too: the outermost section, with the others in its body
(`scanNode_writtenSection`).
-/

namespace Mustache

/-- A name that is read back from a tag as it was written there. -/
structure Text.FitsTag (name : Text) : Prop where
  nonempty : name ≠ []
  noBrace : '}' ∉ name
  noBlank : ∀ character ∈ name, isBlank character = false
  /-- The first character is neither a modifier nor a dot. -/
  noModifier : TokenKind.ofModifier name.head? = (.interpolation, false)

/-- A name that is read back from a tag with a modifier. -/
structure Text.FitsModified (name : Text) : Prop where
  trimmed : name.trim = name
  /-- Two closing braces stand nowhere in the name, nor does it end in one. -/
  noClosing : ¬['}', '}'] <:+: name ++ ['}']

theorem Text.trim_of_solid
    {text : Text}
    (solid : ∀ character ∈ text, isBlank character = false) :
    text.trim = text := by
  have keeps (text : Text)
      (solid : ∀ character ∈ text, isBlank character = false) :
      text.dropWhile isBlank = text := by
    cases text with
    | nil => rfl
    | cons first rest =>
      exact List.dropWhile_cons_of_neg (by simp [solid first])
  rw [trim, keeps text solid, keeps, List.reverse_reverse]
  exact fun character member => solid character (List.mem_reverse.1 member)

theorem Text.FitsTag.modified
    {name : Text}
    (fits : name.FitsTag) : name.FitsModified where
  trimmed := trim_of_solid fits.noBlank
  noClosing := by
    rintro ⟨before, after, split⟩
    have counted := congrArg (List.count '}') split
    simp only
      [List.count_append, List.count_eq_zero.2 fits.noBrace, List.count_cons]
      at counted
    simp at counted
    omega

/-- Names that fit into tags can be joined by dots. -/
theorem Text.fitsTag_intercalate
    {name : Text}
    {names : List Text}
    (fits : ∀ segment ∈ name :: names, segment.FitsTag) :
    FitsTag (['.'].intercalate (name :: names)) := by
  induction names generalizing name with
  | nil => simpa using fits
  | cons next names ih =>
    have here := fits name List.mem_cons_self
    have further :=
      ih fun segment member => fits segment (List.mem_cons_of_mem _ member)
    rw [List.intercalate_cons_cons, List.append_assoc, List.singleton_append]
    refine ⟨by simp, ?_, ?_, ?_⟩
    · simpa using ⟨here.noBrace, further.noBrace⟩
    · rw [List.forall_mem_append, List.forall_mem_cons]
      exact ⟨here.noBlank, by decide, further.noBlank⟩
    · rcases List.exists_cons_of_ne_nil here.nonempty with ⟨first, more, rfl⟩
      exact here.noModifier

/-- A tag between two braces on either side. -/
def writtenTag (modifier name : Text) : Text :=
  '{' :: '{' :: (modifier ++ (name ++ ['}', '}']))

/-- A text without closing braces ends before the first one. -/
theorem absentFrom_of_noBrace
    {name : Text}
    (noBrace : '}' ∉ name)
    (after : Text) :
    Text.AbsentFrom ['}', '}'] name after := by
  intro earlier later split nonempty starts
  rcases List.exists_cons_of_ne_nil nonempty with ⟨first, more, rfl⟩
  have isBrace := (List.cons_prefix_cons.1 starts).1
  rw [split, ← isBrace] at noBrace
  exact noBrace (by simp)

/-- The body of a tag ends before the braces that close it. -/
theorem Text.absentFrom_of_noClosing
    {body : Text}
    (noClosing : ¬['}', '}'] <:+: body ++ ['}'])
    (rest : Text) :
    AbsentFrom ['}', '}'] body ('}' :: '}' :: rest) := by
  rintro earlier later rfl nonempty starts
  rcases List.exists_cons_of_ne_nil nonempty with ⟨first, more, rfl⟩
  obtain ⟨rfl, next⟩ := List.cons_prefix_cons.1 starts
  apply noClosing
  cases more with
  | nil => exact ⟨earlier, [], by simp⟩
  | cons second more =>
    obtain ⟨rfl, -⟩ := List.cons_prefix_cons.1 next
    exact ⟨earlier, more ++ ['}'], by simp⟩

theorem Text.FitsModified.absent
    {name : Text}
    (fits : name.FitsModified)
    (rest : Text) :
    AbsentFrom ['}', '}'] name ('}' :: '}' :: rest) :=
  absentFrom_of_noClosing fits.noClosing rest

namespace Lexeme

variable {modifier name : Text}

/-- A tag with one of the modifiers, or without, is read back. -/
theorem read_writtenTag
    {kind : TokenKind}
    {rest : Text}
    (absent : Text.AbsentFrom ['}', '}'] name ('}' :: '}' :: rest))
    (isModifier :
      modifierOf (modifier ++ (name ++ '}' :: '}' :: rest)) = modifier)
    (isKind : (TokenKind.ofModifier (modifier ++ name).head?).1 = kind)
    (notEmpty : modifier ++ name ≠ [])
    (notTriple : (modifier ++ name).head? ≠ some '{') :
    read .standard (writtenTag modifier name ++ rest) =
      .tag kind (writtenTag modifier name) name := by
  rcases List.exists_cons_of_ne_nil notEmpty with ⟨first, more, isStart⟩
  have isHead :
      (modifier ++ (name ++ '}' :: '}' :: rest)).head? = some first := by
    rw [← List.append_assoc, isStart]
    rfl
  rw [isStart] at isKind notTriple
  have triple :
      isTriple .standard (modifier ++ (name ++ '}' :: '}' :: rest)) =
        false := by
    rw [isTriple, isHead]
    simpa using fun isBrace => absurd (congrArg some isBrace) notTriple
  have isRead :
      read .standard
          (Delimiters.standard.opening ++
            (modifier ++ (name ++ '}' :: '}' :: rest))) = _ :=
    read_of_nearest (List.cons_ne_nil _ _) (List.cons_ne_nil _ _) rfl isModifier
      triple absent
  have isSource :
      writtenTag modifier name ++ rest =
        Delimiters.standard.opening ++
          (modifier ++ (name ++ '}' :: '}' :: rest)) := by
    simp [writtenTag, Delimiters.standard]
  rw [isHead, show (TokenKind.ofModifier (some first)).1 = kind from isKind]
    at isRead
  rw [isSource]
  exact isRead

end Lexeme

/--
A tag that is no set-delimiter tag and not malformed makes a piece of its name.
-/
theorem scan_of_namedTag
    {delimiters : Delimiters}
    {kind : TokenKind}
    {source body rest : Text}
    (isRead : Lexeme.read delimiters (source ++ rest) = .tag kind source body)
    (notImplicit : kind ≠ .implicit)
    (other : kind ≠ .setDelimiters) :
    scan delimiters (source ++ rest) =
      .found [] ⟨kind, body.trim, source, none⟩ rest := by
  apply scan_of_tag isRead
  · cases kind with
    | implicit => exact absurd rfl notImplicit
    | _ => rfl
  · cases kind with
    | setDelimiters => exact absurd rfl other
    | _ => rfl

/--
A tag with a modifier of its own, other than a third brace, is found with what
it names.
-/
theorem scan_modifiedBody
    {sign : Char}
    {kind : TokenKind}
    {body : Text}
    (noClosing : ¬['}', '}'] <:+: body ++ ['}'])
    (isKind : TokenKind.ofModifier (some sign) = (kind, true))
    (notBrace : sign ≠ '{')
    (notImplicit : kind ≠ .implicit)
    (other : kind ≠ .setDelimiters)
    (rest : Text) :
    scan .standard (writtenTag [sign] body ++ rest) =
      .found [] ⟨kind, body.trim, writtenTag [sign] body, none⟩ rest := by
  have absent := Text.absentFrom_of_noClosing noClosing rest
  refine scan_of_namedTag (Lexeme.read_writtenTag absent ?_ ?_ ?_ ?_)
    notImplicit other
  · simp [Lexeme.modifierOf, isKind]
  · simp [isKind]
  · simp
  · simpa using notBrace

theorem scan_modifiedTag
    {sign : Char}
    {kind : TokenKind}
    {name : Text}
    (fits : name.FitsModified)
    (isKind : TokenKind.ofModifier (some sign) = (kind, true))
    (notBrace : sign ≠ '{')
    (notImplicit : kind ≠ .implicit)
    (other : kind ≠ .setDelimiters)
    (rest : Text) :
    scan .standard (writtenTag [sign] name ++ rest) =
      .found [] ⟨kind, name, writtenTag [sign] name, none⟩ rest := by
  have found :=
    scan_modifiedBody fits.noClosing isKind notBrace notImplicit other rest
  rwa [fits.trimmed] at found

/-! ## The ways to show a name's text -/

/-- How a tag for the text of a name is written. -/
inductive TagForm where
  | escaped
  | ampersand
  | tilde
  | triple
deriving DecidableEq, Repr

namespace TagForm

def write : TagForm → Text → Text
  | escaped, name => writtenTag [] name
  | ampersand, name => writtenTag ['&'] name
  | tilde, name => writtenTag ['~'] name
  | triple, name => '{' :: '{' :: '{' :: (name ++ ['}', '}', '}'])

def kind : TagForm → TokenKind
  | escaped => .interpolation
  | ampersand | tilde | triple => .unescaped

/--
A tag for a name's text is found with the name, unless another brace follows.
-/
theorem scan_write
    {name : Text}
    (form : TagForm)
    (fits : name.FitsTag)
    {rest : Text}
    (ends : rest.head? ≠ some '}') :
    scan .standard (form.write name ++ rest) =
      .found [] ⟨form.kind, name, form.write name, none⟩ rest := by
  cases form with
  | escaped =>
    rcases List.exists_cons_of_ne_nil fits.nonempty with ⟨first, more, isName⟩
    have plain := fits.noModifier
    have isRead : Lexeme.read .standard (writtenTag [] name ++ rest) =
        .tag .interpolation (writtenTag [] name) name := by
      refine Lexeme.read_writtenTag (fits.modified.absent rest) ?_ ?_
        fits.nonempty ?_
      · rw [isName] at plain ⊢
        simp_all [Lexeme.modifierOf]
      · simp [plain]
      · intro isBrace
        rw [List.nil_append] at isBrace
        rw [isBrace] at plain
        cases plain
    have found :=
      scan_of_namedTag isRead TokenKind.noConfusion TokenKind.noConfusion
    rwa [fits.modified.trimmed] at found
  | ampersand =>
    exact scan_modifiedTag fits.modified rfl (by decide) TokenKind.noConfusion
      TokenKind.noConfusion rest
  | tilde =>
    exact scan_modifiedTag fits.modified rfl (by decide) TokenKind.noConfusion
      TokenKind.noConfusion rest
  | triple =>
    have run : Text.BraceRun (name ++ ['}', '}', '}'] ++ rest) name 3 rest :=
      ⟨by simp [List.replicate], by decide,
        absentFrom_of_noBrace fits.noBrace _, ends⟩
    have reached :
        Lexeme.next .standard []
            ([] ++ '{' :: '{' :: '{' :: (name ++ ['}', '}', '}'] ++ rest)) =
          Lexeme.next .standard []
            ('{' :: '{' :: '{' :: (name ++ ['}', '}', '}'] ++ rest)) :=
      rfl
    have found := scan_of_triple reached run
    rw [Text.trim_of_solid fits.noBlank] at found
    simpa [write, kind, List.replicate] using found

end TagForm

/-! ## Sections within sections -/

/-- A section as it is written. -/
def writtenSection (name body : Text) : Text :=
  writtenTag ['#'] name ++ (body ++ writtenTag ['/'] name)

/--
A tag for the text of the last one of some names, in sections over those before
it.
-/
def nestedTemplate (form : TagForm) (name : Text) : List Text → Text
  | [] => form.write name
  | next :: names => writtenSection name (nestedTemplate form next names)

theorem getLast?_writtenTag (start modifier name : Text) :
    (start ++ writtenTag modifier name).getLast? = some '}' :=
  List.getLast?_eq_some_iff.2
    ⟨start ++ '{' :: '{' :: (modifier ++ (name ++ ['}'])), by simp [writtenTag]⟩

/--
It starts with the braces of its first tag and ends with those of its last one.
-/
theorem nestedTemplate_edges
    (form : TagForm)
    (name : Text)
    (names : List Text) :
    (∃ more, nestedTemplate form name names = '{' :: '{' :: more) ∧
    (nestedTemplate form name names).getLast? = some '}' := by
  cases names with
  | nil =>
    cases form with
    | triple =>
      exact ⟨⟨_, rfl⟩,
        List.getLast?_eq_some_iff.2 ⟨'{' :: '{' :: '{' :: (name ++ ['}', '}']),
          by simp [nestedTemplate, TagForm.write]⟩⟩
    | _ => exact ⟨⟨_, rfl⟩, getLast?_writtenTag [] _ name⟩
  | cons next names =>
    refine ⟨⟨_, rfl⟩, ?_⟩
    rw [nestedTemplate, writtenSection, ← List.append_assoc]
    exact getLast?_writtenTag ..

/-- The tag that opens a section, as it is found. -/
def writtenOpener (name : Text) : Piece :=
  ⟨.opener, name, writtenTag ['#'] name, none⟩

/-- The tag that closes a section, as it is found. -/
def writtenCloser (name : Text) : Piece :=
  ⟨.closer, name, writtenTag ['/'] name, none⟩

section

variable {name next : Text} {names : List Text}

theorem scan_opener
    (fits : name.FitsModified)
    (rest : Text) :
    scan .standard (writtenTag ['#'] name ++ rest) =
      .found [] (writtenOpener name) rest :=
  scan_modifiedTag fits rfl (by decide) TokenKind.noConfusion
    TokenKind.noConfusion rest

theorem scan_closer
    (fits : name.FitsModified)
    (rest : Text) :
    scan .standard (writtenTag ['/'] name ++ rest) =
      .found [] (writtenCloser name) rest :=
  scan_modifiedTag fits rfl (by decide) TokenKind.noConfusion
    TokenKind.noConfusion rest

theorem writtenCloser_not_opener (name : Text) :
    ¬(writtenCloser name).kind.opensSection = true :=
  Bool.false_ne_true

theorem writtenCloser_closes (name : Text) :
    (writtenCloser name).kind = .closer :=
  rfl

/-- On the way to a close tag, sections that are closed are passed over. -/
theorem scanCloser_nestedTemplate
    (form : TagForm)
    (fits : ∀ written ∈ name :: names, written.FitsTag)
    {rest : Text}
    (ends : rest.head? ≠ some '}')
    (before : Text)
    (opener : Piece)
    (pending : List Text)
    (body : Text) :
    scanCloser before opener .standard pending body
        (nestedTemplate form name names ++ rest) =
      scanCloser before opener .standard pending
        (body ++ nestedTemplate form name names) rest := by
  have here := fits name List.mem_cons_self
  induction names generalizing name rest pending body with
  | nil =>
    have leaf : ¬form.kind.opensSection = true ∧ form.kind ≠ .closer := by
      cases form <;> decide
    rw [nestedTemplate, scanCloser_of_found (form.scan_write here ends),
      if_neg leaf.1, if_neg leaf.2]
    rfl
  | cons next names ih =>
    have further : ∀ written ∈ next :: names, written.FitsTag :=
      fun written member => fits written (List.mem_cons_of_mem _ member)
    have opens : (writtenOpener name).kind.opensSection = true := rfl
    have behind : (writtenTag ['/'] name ++ rest).head? ≠ some '}' :=
      fun isBrace => absurd (Option.some.inj isBrace) (by decide)
    simp only [nestedTemplate, writtenSection, List.append_assoc]
    rw [scanCloser_of_found (scan_opener here.modified _), if_pos opens,
      ih further behind _ _ (further next List.mem_cons_self),
      scanCloser_of_found (scan_closer here.modified _),
      if_neg (writtenCloser_not_opener name),
      if_pos (writtenCloser_closes name)]
    simp [writtenOpener, writtenCloser]

/-- The outermost section is found with the others in its body. -/
theorem scanNode_writtenSection
    (form : TagForm)
    (fits : ∀ written ∈ name :: next :: names, written.FitsTag)
    (rest : Text) :
    scanNode .standard
        (writtenSection name (nestedTemplate form next names) ++ rest) =
      .found []
        (.paired (writtenOpener name) (nestedTemplate form next names)
          (writtenCloser name))
        .standard rest := by
  have here := fits name List.mem_cons_self
  have further : ∀ written ∈ next :: names, written.FitsTag :=
    fun written member => fits written (List.mem_cons_of_mem _ member)
  have opens : (writtenOpener name).kind.opensSection = true := rfl
  have behind : (writtenTag ['/'] name ++ rest).head? ≠ some '}' :=
    fun isBrace => absurd (Option.some.inj isBrace) (by decide)
  have closes :
      scanCloser [] (writtenOpener name) .standard [] []
          (nestedTemplate form next names ++ (writtenTag ['/'] name ++ rest)) =
        .found (nestedTemplate form next names) (writtenCloser name) .standard
          rest := by
    rw [scanCloser_nestedTemplate form further behind,
      scanCloser_of_found (scan_closer here.modified _),
      if_neg (writtenCloser_not_opener name),
      if_pos (writtenCloser_closes name)]
    simp [writtenOpener, writtenCloser]
  simp only [writtenSection, List.append_assoc, scanNode,
    scan_opener here.modified, if_pos opens, closes]

/-- The tag by itself is found, too. -/
theorem scanNode_write
    (form : TagForm)
    (fits : name.FitsTag)
    (rest : Text)
    (ends : rest.head? ≠ some '}') :
    scanNode .standard (form.write name ++ rest) =
      .found [] (.leaf ⟨form.kind, name, form.write name, none⟩) .standard
        rest := by
  have leaf : ¬form.kind.opensSection = true ∧ form.kind ≠ .closer := by
    cases form <;> decide
  simp only [scanNode, form.scan_write fits ends, if_neg leaf.1, if_neg leaf.2]
  rfl

end

/-! ## Text, and sections over it -/

section

variable {name body rest : Text}

/-- Text without opening braces is read up to the next tag, or up to the end. -/
theorem Lexeme.readPlain_of_noBrace
    (noBrace : '{' ∉ body)
    (ends : rest = [] ∨ Delimiters.standard.opening <+: rest)
    (nonempty : body ≠ []) :
    readPlain Delimiters.standard.opening (body ++ rest) = body := by
  have stops (text : Text) (noBrace : '{' ∉ text) :
      Text.upTo Delimiters.standard.opening [] (text ++ rest) = text := by
    induction text with
    | nil =>
      rcases ends with rfl | starts
      · rfl
      · exact Text.upTo_nil_of_starts starts
    | cons character text ih =>
      obtain ⟨notBrace, further⟩ := not_or.1 (List.mem_cons.not.1 noBrace)
      have notHere :
          ¬Delimiters.standard.opening <+: character :: (text ++ rest) :=
        fun starts => notBrace (List.cons_prefix_cons.1 starts).1
      rw [List.cons_append, Text.upTo_cons_of_not_starts notHere, ih further]
  rcases List.exists_cons_of_ne_nil nonempty with ⟨first, more, rfl⟩
  have notEmpty : ¬Delimiters.standard.opening.isEmpty = true := by decide
  rw [List.cons_append, readPlain_cons, if_neg notEmpty,
    stops more fun inside => noBrace (List.mem_cons_of_mem _ inside)]

theorem scan_plain
    (noBrace : '{' ∉ body)
    (ends : rest = [] ∨ Delimiters.standard.opening <+: rest)
    (nonempty : body ≠ []) :
    scan .standard (body ++ rest) =
      .found [] ⟨.text, body, body, none⟩ rest := by
  have isRead := Lexeme.readPlain_of_noBrace noBrace ends nonempty
  rcases List.exists_cons_of_ne_nil nonempty with ⟨first, more, rfl⟩
  have closed :
      Delimiters.standard.opensAt (first :: (more ++ rest)) = false := by
    have notBrace : first ≠ '{' := by
      rintro rfl
      exact noBrace List.mem_cons_self
    exact not_opensAt_of_notMem (by simp [Delimiters.standard, notBrace]) _
  rw [List.cons_append] at isRead ⊢
  rw [scan_of_not_opensAt closed, isRead]
  simp

theorem scanNode_plain
    (noBrace : '{' ∉ body)
    (ends : rest = [] ∨ Delimiters.standard.opening <+: rest)
    (nonempty : body ≠ []) :
    scanNode .standard (body ++ rest) =
      .found [] (.leaf ⟨.text, body, body, none⟩) .standard rest := by
  simp only [scanNode, scan_plain noBrace ends nonempty]
  rfl

/--
The two kinds of sections: one for what is there, and one for what is not.
-/
inductive SectionForm where
  | regular
  | inverted
deriving DecidableEq, Repr

namespace SectionForm

def sign : SectionForm → Char
  | regular => '#'
  | inverted => '^'

def kind : SectionForm → TokenKind
  | regular => .opener
  | inverted => .invertedOpener

/-- A section as it is written. -/
def write (form : SectionForm) (name body : Text) : Text :=
  writtenTag [form.sign] name ++ (body ++ writtenTag ['/'] name)

/-- The tag that opens a section, as it is found. -/
def opener (form : SectionForm) (name : Text) : Piece :=
  ⟨form.kind, name, writtenTag [form.sign] name, none⟩

theorem scan_opener
    (form : SectionForm)
    (fits : name.FitsModified)
    (rest : Text) :
    scan .standard (writtenTag [form.sign] name ++ rest) =
      .found [] (form.opener name) rest := by
  cases form with
  | regular | inverted =>
    exact scan_modifiedTag fits rfl (by decide) TokenKind.noConfusion
      TokenKind.noConfusion rest

/-- A section over text is found with the text as its body. -/
theorem scanNode_write
    (form : SectionForm)
    (fits : name.FitsModified)
    (noBrace : '{' ∉ body)
    (nonempty : body ≠ [])
    (rest : Text) :
    scanNode .standard (form.write name body ++ rest) =
      .found [] (.paired (form.opener name) body (writtenCloser name)) .standard
        rest := by
  have opens : (form.opener name).kind.opensSection = true := by
    cases form <;> rfl
  have behind : Delimiters.standard.opening <+: writtenTag ['/'] name ++ rest :=
    ⟨_, rfl⟩
  have notText :
      ¬TokenKind.text.opensSection = true ∧ TokenKind.text ≠ .closer := by
    decide
  have closes : scanCloser [] (form.opener name) .standard [] []
        (body ++ (writtenTag ['/'] name ++ rest)) =
      .found body (writtenCloser name) .standard rest := by
    have closer :=
      scanCloser_of_found (scan_closer fits rest) [] (form.opener name) []
        ([] ++ ([] ++ body))
    rw [if_neg (writtenCloser_not_opener name),
      if_pos (writtenCloser_closes name)] at closer
    rw [scanCloser_of_found (scan_plain noBrace (.inr behind) nonempty),
      if_neg notText.1, if_neg notText.2]
    refine closer.trans ?_
    simp [opener, writtenCloser]
  simp only [write, List.append_assoc, scanNode, form.scan_opener fits,
    if_pos opens, closes]

end SectionForm

end

end Mustache
