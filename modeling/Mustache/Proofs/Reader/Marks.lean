import Mustache.Proofs.Buffer.Table
import Mustache.Proofs.Reader.Faults

/-!
# No mark outlives its node

Every token that is read makes two live marks.  What is read between the tags of
a section is let go of on the way, so when a node was read, its own marks are
there and no others, two for a token that stands alone and four for a section
(`Reader.NodeTook.addsMarks`).  Letting go of the node takes just these away
again.

A check lets go of each node before it reads the next, so between two of them
the cursor is the only live mark (`Reader.marks_of_nodes`).
-/

namespace Mustache

/-- The marks of the tags of a node. -/
def Node.marks : Node → List Mark
  | leaf token => token.marks
  | paired opener closer => opener.marks ++ closer.marks

namespace Buffer

/-- A mark is live if it moves with edits. -/
def IsLive (buffer : Buffer) (mark : Mark) : Prop :=
  (buffer.livePosition? mark).isSome = true

variable {buffer after : Buffer} {mark : Mark} {marks : List Mark}

theorem not_isLive_of_fresh (fresh : buffer.slots.size ≤ mark.slot) :
    ¬buffer.IsLive mark := by
  rw [IsLive, livePosition?_eq_none_of_fresh fresh]
  simp

theorem Linked.isLive_iff_mem (linked : buffer.Linked) :
    buffer.IsLive mark ↔
      mark ∈ buffer.live.toList.map fun entry => Mark.mk entry.slot := by
  have inSlots :
      mark ∈ (buffer.live.toList.map fun entry => Mark.mk entry.slot) ↔
        mark.slot ∈ buffer.live.toList.map LiveMark.slot := by
    simp only [List.mem_map]
    constructor
    · rintro ⟨entry, inside, rfl⟩
      exact ⟨entry, inside, rfl⟩
    · rintro ⟨entry, inside, same⟩
      exact ⟨entry, inside, by rw [same]⟩
  rw [inSlots, linked.mem_slots_iff, IsLive, livePosition?]
  constructor
  · intro live
    split at live
    · rename_i index isLive
      exact ⟨index, isLive⟩
    · cases live
  · rintro ⟨index, isLive⟩
    rcases linked.entry_of_slot isLive with ⟨entry, found, -⟩
    simp only [isLive, found, Option.map_some, Option.isSome_some]

/-- The live marks are those of another buffer, and some that are new. -/
structure AddsMarks (buffer after : Buffer) (marks : List Mark) : Prop where
  nodup : marks.Nodup
  fresh : ∀ mark ∈ marks, buffer.slots.size ≤ mark.slot
  isLive_iff : ∀ mark, after.IsLive mark ↔ mark ∈ marks ∨ buffer.IsLive mark
  liveCount_eq : after.liveCount = buffer.liveCount + marks.length

theorem nodup_live (linked : buffer.Linked) :
    (buffer.live.toList.map fun entry => Mark.mk entry.slot).Nodup := by
  have nodup := linked.nodup_slots.map fun _ _ => Mark.mk.inj
  rwa [List.map_map] at nodup

/-- As many marks are counted as there are. -/
theorem addsMarks_of_isLive
    (linked : buffer.Linked)
    (linkedAfter : after.Linked)
    (nodup : marks.Nodup)
    (fresh : ∀ mark ∈ marks, buffer.slots.size ≤ mark.slot)
    (isLive : ∀ mark, after.IsLive mark ↔ mark ∈ marks ∨ buffer.IsLive mark) :
    buffer.AddsMarks after marks where
  nodup := nodup
  fresh := fresh
  isLive_iff := isLive
  liveCount_eq := by
    have apart :
        (marks ++
          buffer.live.toList.map fun entry => Mark.mk entry.slot).Nodup := by
      refine List.nodup_append'.2 ⟨nodup, nodup_live linked, ?_⟩
      intro mark isNew isOld
      exact not_isLive_of_fresh (fresh mark isNew)
        (linked.isLive_iff_mem.2 isOld)
    have same : (after.live.toList.map fun entry => Mark.mk entry.slot).Perm
        (marks ++ buffer.live.toList.map fun entry => Mark.mk entry.slot) := by
      refine (List.perm_ext_iff_of_nodup (nodup_live linkedAfter) apart).2
        fun mark => ?_
      rw [← linkedAfter.isLive_iff_mem, isLive, List.mem_append,
        linked.isLive_iff_mem]
    have lengths := same.length_eq
    simp only [List.length_map, List.length_append, Array.length_toList]
      at lengths
    rw [liveCount, liveCount, lengths, Nat.add_comm]

end Buffer

namespace Reader

variable
    {reader after : Reader}
    {passed unread skipped rest : Text}
    {piece : Piece}
    {block : Block}
    {node : Node}
    {token : Token}
    {delimiters final : Delimiters}

theorem At.isLive_cursor (standing : reader.At passed unread) :
    reader.buffer.IsLive reader.cursor := by
  rw [Buffer.IsLive, standing.cursor_eq]
  rfl

theorem Closed.nodup_marks
    {body : Text}
    {released : List Mark}
    (closed : Closed reader after passed body piece rest released token) :
    token.marks.Nodup := by
  have stop := closed.stop_eq
  have different : token.start ≠ token.stop := by
    intro same
    rw [← same] at stop
    omega
  simpa [Token.marks] using different

/--
A tag that was read up to has its marks, and the other live marks are those from
before.  No mark of what is in between is left.
-/
theorem Closed.isLive_iff
    {body : Text}
    (closed : Closed reader after passed body piece rest [] token)
    (cursor : reader.buffer.IsLive reader.cursor)
    (mark : Mark) :
    after.buffer.IsLive mark ↔
      mark ∈ token.marks ∨ reader.buffer.IsLive mark := by
  simp only [Token.marks, List.mem_cons, List.not_mem_nil, or_false]
  rw [Buffer.IsLive, closed.live_eq]
  split
  · simp_all
  · split
    · simp_all
    · split
      · simp_all
      · simp_all [Buffer.IsLive]

/--
A node that was read has its marks, and no other mark was left on the way.
-/
theorem NodeTook.addsMarks
    (standing : reader.At passed unread)
    (took : NodeTook reader after passed skipped rest block node) :
    reader.buffer.AddsMarks after.buffer node.marks := by
  cases took with
  | leaf took =>
    exact Buffer.addsMarks_of_isLive standing.linked took.standing.linked
      took.closed.nodup_marks (fun mark own => took.fresh own)
      (took.closed.isLive_iff standing.isLive_cursor)
  | paired took closed =>
    rename_i opener closer body left openerToken closerToken between
    have start := closed.start_fresh
    have stop := closed.stop_eq
    rw [took.slots_eq] at start
    have later :
        ∀ mark ∈ closerToken.marks,
          reader.buffer.slots.size + 2 ≤ mark.slot := by
      simp only [Token.marks, List.mem_cons, List.not_mem_nil, or_false,
        forall_eq_or_imp, forall_eq]
      omega
    have earlier :
        ∀ mark ∈ openerToken.marks,
          mark.slot < reader.buffer.slots.size + 2 := by
      simp [Token.marks, took.start_eq, took.stop_eq]
    have apart : openerToken.marks.Disjoint closerToken.marks := by
      intro mark isFirst isSecond
      have before := earlier mark isFirst
      have behind := later mark isSecond
      omega
    refine Buffer.addsMarks_of_isLive standing.linked closed.standing.linked
      (List.nodup_append'.2 ⟨took.closed.nodup_marks, closed.nodup_marks,
        apart⟩)
      ?_ fun mark => ?_
    · intro mark own
      rcases List.mem_append.1 own with isFirst | isSecond
      · exact took.fresh isFirst
      · exact Nat.le_trans (Nat.le_add_right _ 2) (later mark isSecond)
    · rw [closed.isLive_iff took.standing.isLive_cursor,
        took.closed.isLive_iff standing.isLive_cursor, Node.marks,
        List.mem_append, ← or_assoc, or_comm (a := mark ∈ closerToken.marks)]

/-- Letting go of a node takes its marks away. -/
theorem isLive_releaseNode
    (linked : reader.buffer.Linked)
    (node : Node)
    (mark : Mark) :
    (node.release reader).buffer.IsLive mark ↔
      mark ∉ node.marks ∧ reader.buffer.IsLive mark := by
  cases node with
  | leaf token =>
    have live : (reader.release token).buffer.livePosition? mark = _ :=
      Buffer.livePosition?_releaseToken linked token mark
    show ((reader.release token).buffer.livePosition? mark).isSome = true ↔ _
    rw [live, Node.marks, Buffer.IsLive]
    split <;> simp_all
  | paired opener closer =>
    have first := Buffer.livePosition?_releaseToken linked opener mark
    have second :
        ((reader.release opener).release closer).buffer.livePosition? mark =
          _ :=
      Buffer.livePosition?_releaseToken
        (Buffer.linked_releaseToken linked opener) closer mark
    show
      (((reader.release opener).release closer).buffer.livePosition?
          mark).isSome = true ↔
        _
    rw [second, first, Node.marks, Buffer.IsLive, List.mem_append]
    split
    · simp_all
    · split <;> simp_all

/--
After a node was read and let go of, the live marks are those from before.
-/
theorem NodeTook.addsMarks_release
    (standing : reader.At passed unread)
    (took : NodeTook reader after passed skipped rest block node) :
    reader.buffer.AddsMarks (node.release after).buffer [] := by
  have added := took.addsMarks standing
  refine Buffer.addsMarks_of_isLive standing.linked
    (took.release standing).linked List.nodup_nil (by simp) fun mark => ?_
  rw [isLive_releaseNode took.standing.linked, added.isLive_iff]
  constructor
  · rintro ⟨notOwn, own | before⟩
    · exact absurd own notOwn
    · exact .inr before
  · rintro (nothing | before)
    · cases nothing
    · refine ⟨fun own => ?_, .inr before⟩
      exact Buffer.not_isLive_of_fresh (added.fresh mark own) before

/-! ## Checking a template -/

/-- What a check of a template comes to, before it reads a node. -/
inductive Checks
    (template : Text)
    (delimiters : Delimiters) : Reader → Delimiters → Prop
  | start : Checks template delimiters (ofText template) delimiters
  | node
      {reader after : Reader}
      {pair final : Delimiters}
      {node : Node}
      (checks : Checks template delimiters reader pair)
      (read : reader.nextNode pair = (.ok (some node), final, after)) :
      Checks template delimiters (node.release after) final

theorem cursor_release
    (node : Node)
    (reader : Reader) :
    (node.release reader).cursor = reader.cursor := by
  cases node <;> rfl

theorem NodeTook.cursor_eq
    (took : NodeTook reader after passed skipped rest block node) :
    after.cursor = reader.cursor := by
  cases took with
  | leaf took => exact took.cursor_eq
  | paired took closed => exact closed.cursor_eq.trans took.cursor_eq

/-- Between two nodes a check holds no mark but the cursor. -/
theorem Checks.spec
    {template : Text}
    {pair : Delimiters}
    (checks : Checks template delimiters reader pair) :
    (∃ passed unread budget,
      reader.At passed unread ∧
      unread.length < budget + 1 ∧
      validate template delimiters = checkFrom (budget + 1) reader pair) ∧
    reader.buffer.liveCount = 1 ∧
    ∀ mark, reader.buffer.IsLive mark ↔ mark = reader.cursor := by
  induction checks with
  | start =>
    refine ⟨⟨[], template, template.length, at_ofText template,
      Nat.lt_succ_self _, rfl⟩, rfl, ?_⟩
    intro mark
    rw [Buffer.IsLive, livePosition?_ofText]
    split <;> simp_all
  | @node reader after pair final node _ read ih =>
    rcases ih with ⟨⟨passed, unread, budget, standing, enough, same⟩, one, only⟩
    rcases found_of_nextNode standing read with
      ⟨skipped, block, rest, isScan, took⟩
    have shorter := length_lt_of_scanNode isScan
    have released := took.addsMarks_release standing
    have goesOn : checkFrom (budget + 1) reader pair =
        checkFrom budget (node.release after) final := by
      rw [checkFrom, read]
    refine ⟨⟨_, rest, budget - 1, took.release standing, by omega, ?_⟩, ?_, ?_⟩
    · rw [same, goesOn, Nat.sub_add_cancel (by omega)]
    · rw [released.liveCount_eq, one]
      rfl
    · intro mark
      rw [released.isLive_iff, only, cursor_release, took.cursor_eq]
      simp

/--
A reader that gives a node has made the marks of that node and no others, two
for a token that stands alone and four for a section.  Letting go of the node
takes just these away.  So whenever a check of a template is about to read a
node, the cursor is the only live mark.
-/
theorem marks_of_nodes :
    (∀ (reader after : Reader) (passed unread : Text) (pair final : Delimiters)
        (node : Node),
      reader.At passed unread →
      reader.nextNode pair = (.ok (some node), final, after) →
      node.marks.length = (if node.closer?.isSome then 4 else 2) ∧
        reader.buffer.AddsMarks after.buffer node.marks ∧
        reader.buffer.AddsMarks (node.release after).buffer [] ∧
        ∃ more rest,
          unread = more ++ rest ∧
          after.At (passed ++ more) rest ∧
          (node.release after).At (passed ++ more) rest) ∧
    ∀ (template : Text) (delimiters : Delimiters) (reader : Reader)
        (pair : Delimiters),
      Checks template delimiters reader pair →
      (∃ budget,
          validate template delimiters = checkFrom (budget + 1) reader pair) ∧
        reader.buffer.liveCount = 1 ∧
        ∀ mark, reader.buffer.IsLive mark ↔ mark = reader.cursor := by
  constructor
  · intro reader after passed unread pair final node standing read
    rcases found_of_nextNode standing read with
      ⟨skipped, block, rest, isScan, took⟩
    refine ⟨by cases node <;> rfl, took.addsMarks standing,
      took.addsMarks_release standing, skipped ++ block.source, rest, ?_,
      took.standing, took.release standing⟩
    rw [(scanNode_eq_found isScan).1, List.append_assoc]
  · intro template delimiters reader pair checks
    rcases checks.spec with ⟨⟨-, -, budget, -, -, same⟩, one, only⟩
    exact ⟨⟨budget, same⟩, one, only⟩

/--
A section with another one in it and a change of delimiters, while a text is
still held.
-/
theorem marks_of_nodes_nested :
    let template := "é<#a><#b>x</b><=| |=>|!c||/a||y|".toList
    let pair : Delimiters := ⟨['<'], ['>']⟩
    let text : Node := .leaf ⟨.text, ['é'], ['é'], ⟨1⟩, ⟨2⟩, 1, none⟩
    let node : Node :=
      .paired ⟨.opener, ['a'], "<#a>".toList, ⟨3⟩, ⟨4⟩, 1, none⟩
        ⟨.closer, ['a'], "|/a|".toList, ⟨15⟩, ⟨16⟩, 1, none⟩
    ∃ held after,
      (ofText template).nextNode pair = (.ok (some text), pair, held) ∧
      held.nextNode pair = (.ok (some node), ⟨['|'], ['|']⟩, after) ∧
      held.buffer.liveCount = 3 ∧
      after.buffer.liveCount = 7 ∧
      (node.release after).buffer.liveCount = 3 ∧
      held.buffer.AddsMarks after.buffer node.marks ∧
      Checks template pair (text.release held) pair ∧
      (text.release held).buffer.liveCount = 1 := by
  intro template pair text node
  rcases first : (ofText template).nextNode pair with ⟨answer, next, held⟩
  obtain ⟨rfl, rfl⟩ : answer = .ok (some text) ∧ next = pair := by
    have both : ((ofText template).nextNode pair).1 = .ok (some text) ∧
        ((ofText template).nextNode pair).2.1 = pair := by decide +kernel
    rwa [first] at both
  rcases second : held.nextNode pair with ⟨answer, final, after⟩
  obtain ⟨rfl, rfl⟩ : answer = .ok (some node) ∧ final = ⟨['|'], ['|']⟩ := by
    have both :
        (((ofText template).nextNode pair).2.2.nextNode pair).1 =
          .ok (some node) ∧
        (((ofText template).nextNode pair).2.2.nextNode pair).2.1 =
          ⟨['|'], ['|']⟩ := by
      decide +kernel
    rwa [first, second] at both
  rcases marks_of_nodes.1 _ _ _ _ _ _ _ (at_ofText template) first with
    ⟨-, textAdded, -, more, rest, -, heldAt, -⟩
  rcases marks_of_nodes.1 _ _ _ _ _ _ _ heldAt second with
    ⟨-, added, released, -⟩
  have held3 : held.buffer.liveCount = 3 := textAdded.liveCount_eq
  have checks : Checks template pair (text.release held) pair :=
    .node .start first
  refine ⟨held, after, rfl, second, held3, ?_, ?_, added, checks,
    (marks_of_nodes.2 _ _ _ _ checks).2.1⟩
  · rw [added.liveCount_eq, held3]
    rfl
  · rw [released.liveCount_eq, held3]
    rfl

end Reader

end Mustache
