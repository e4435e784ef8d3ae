import Mathlib.Data.List.FinRange
import Mathlib.Data.List.Perm.Basic
import Mathlib.Data.Option.Basic
import Mustache.Proofs.Buffer.Marks
import Mustache.Proofs.Text.Splice

/-!
# Marks as a table

The live list makes edits fast, but what a buffer tells of its marks is simpler:
there is a table that holds for every mark whether it is live, released or
invalid, and where it is.  Each operation on the buffer is a plain one on the
table, which looks at one mark or changes all of them alike.

A step lemma for each operation says so of buffers whose slots and live entries
belong together (`table_perform?`).  From a buffer without marks on, any
sequence of operations leaves a buffer that shows what the table shows
(`run?_shows_table`).
-/

namespace Mustache

/-- What a table knows about one mark. -/
inductive MarkState where
  /-- The mark moves with edits, and is at this position. -/
  | live (position : Nat)
  /-- The mark stays at this position. -/
  | released (position : Nat)
  /-- The mark has no position. -/
  | invalid
deriving DecidableEq, Repr

namespace MarkState

/-- The position of a mark, unless it is invalid. -/
def position? : MarkState → Option Nat
  | live position | released position => some position
  | invalid => none

/-- Does a mark move with edits? -/
def isLive : MarkState → Bool
  | live _ => true
  | released _ | invalid => false

/-- Move a mark that is live. -/
def move (change : Nat → Nat) : MarkState → MarkState
  | live position => live (change position)
  | released position => released position
  | invalid => invalid

/-- Let a mark stay where it is. -/
def release : MarkState → MarkState
  | live position | released position => released position
  | invalid => invalid

theorem move_of_not_live
    (change : Nat → Nat)
    (state : MarkState)
    (notLive : state.isLive = false) :
    state.move change = state := by
  cases state with
  | live => cases notLive
  | released | invalid => rfl

theorem release_of_not_live
    (state : MarkState)
    (notLive : state.isLive = false) :
    state.release = state := by
  cases state with
  | live => cases notLive
  | released | invalid => rfl

/-- A live mark is at a position of 64 bits. -/
def Fits : MarkState → Prop
  | live position => position < Nat.pow 2 64
  | released _ | invalid => True

instance (state : MarkState) : Decidable state.Fits :=
  match state with
  | live position => inferInstanceAs (Decidable (position < Nat.pow 2 64))
  | released _ | invalid => inferInstanceAs (Decidable True)

end MarkState

/--
A text with the state of every mark that was made in it, each at the place of
its slot.
-/
structure MarkTable where
  text : Text
  states : List MarkState
deriving DecidableEq, Repr

namespace MarkTable

/-- A table without marks. -/
def ofText (text : Text) : MarkTable :=
  ⟨text, []⟩

/-- The position of a mark, unless it is invalid. -/
def position? (table : MarkTable) (mark : Mark) : Option Nat :=
  table.states[mark.slot]?.bind MarkState.position?

/-- The offset of a position.  An invalid mark counts as the end of the text. -/
def offset (table : MarkTable) : Position → Nat
  | .offset bytes => bytes
  | .mark mark => (table.position? mark).getD table.text.byteSize

/-- The number of marks that move with edits. -/
def liveCount (table : MarkTable) : Nat :=
  table.states.countP MarkState.isLive

/-- Make a live mark. -/
def mark (table : MarkTable) (position : Position) : Mark × MarkTable :=
  (⟨table.states.length⟩,
    { table with states := table.states ++ [.live (table.offset position)] })

/-- Change the state of one mark. -/
def modify
    (table : MarkTable)
    (mark : Mark)
    (change : MarkState → MarkState) : MarkTable :=
  { table with states := table.states.modify mark.slot change }

/-- Change the states of all marks. -/
def modifyAll
    (table : MarkTable)
    (change : MarkState → MarkState) : MarkTable :=
  { table with states := table.states.map change }

/--
Where a position is after the bytes from `start` to `stop` became `added` bytes.
-/
def shift (start stop added position : Nat) : Nat :=
  if stop ≤ position then position - (stop - start) + added else position

/--
Replace the text between two positions, in either order and neither beyond the
end.  Every live mark at or after the end of the range moves by the change in
length.
-/
def replaceRange?
    (table : MarkTable)
    (first second : Position)
    (replacement : Text) : Option MarkTable :=
  let start :=
    min (min (table.offset first) (table.offset second)) table.text.byteSize
  let stop :=
    min (max (table.offset first) (table.offset second)) table.text.byteSize
  (table.text.splice? start stop replacement).map fun text =>
    { table.modifyAll (.move (shift start stop replacement.byteSize)) with
      text }

theorem getElem?_states_modify
    (table : MarkTable)
    (mark : Mark)
    (change : MarkState → MarkState)
    (slot : Nat) :
    (table.modify mark change).states[slot]? =
      if mark.slot = slot then
        table.states[slot]?.map change
      else
        table.states[slot]? := by
  simp only [modify, List.getElem?_modify, Option.map_eq_map]
  split
  · rfl
  · exact Option.map_id_apply

@[simp]
theorem getElem?_states_modifyAll
    (table : MarkTable)
    (change : MarkState → MarkState)
    (slot : Nat) :
    (table.modifyAll change).states[slot]? = table.states[slot]?.map change :=
  List.getElem?_map ..

end MarkTable

namespace Buffer

/-- What can be done with a buffer and its marks. -/
inductive Operation where
  | mark (position : Position)
  | replaceRange (first second : Position) (replacement : Text)
  | setPosition (mark : Mark) (position : Position)
  | advance (mark : Mark) (bytes : Nat)
  | release (mark : Mark)
  | releaseAll
  | invalidateAll
deriving DecidableEq, Repr

/--
Do something with a buffer.  The answer holds the mark that was made, if one
was.
-/
def perform? (buffer : Buffer) : Operation → Option (List Mark × Buffer)
  | .mark position =>
    some ([(buffer.mark position).1], (buffer.mark position).2)
  | .replaceRange first second replacement =>
    (buffer.replaceRange? first second replacement).map ([], ·)
  | .setPosition mark position => some ([], buffer.setPosition mark position)
  | .advance mark bytes => some ([], buffer.advance mark bytes)
  | .release mark => some ([], buffer.release mark)
  | .releaseAll => some ([], buffer.releaseAll)
  | .invalidateAll => some ([], buffer.invalidateAll)

/--
Do one thing after the other, given what each of them does.  The answer holds
all marks that were made.
-/
def Operation.run?
    {State : Type}
    (perform? : State → Operation → Option (List Mark × State)) :
    State → List Operation → Option (List Mark × State)
  | state, [] => some ([], state)
  | state, operation :: rest =>
    match perform? state operation with
    | none => none
    | some (made, next) =>
      (run? perform? next rest).map fun (more, final) => (made ++ more, final)

end Buffer

namespace MarkTable

open Buffer (Operation)

/--
Do something with a table.  The answer holds the mark that was made, if one was.
-/
def perform? (table : MarkTable) : Operation → Option (List Mark × MarkTable)
  | .mark position => some ([(table.mark position).1], (table.mark position).2)
  | .replaceRange first second replacement =>
    (table.replaceRange? first second replacement).map ([], ·)
  | .setPosition mark position =>
    some ([], table.modify mark (.move fun _ => table.offset position))
  | .advance mark bytes => some ([], table.modify mark (.move (· + bytes)))
  | .release mark => some ([], table.modify mark .release)
  | .releaseAll => some ([], table.modifyAll .release)
  | .invalidateAll => some ([], table.modifyAll fun _ => .invalid)

/-- All live marks of a table are at positions of 64 bits. -/
def InRange (table : MarkTable) : Prop :=
  ∀ state ∈ table.states, state.Fits

instance (table : MarkTable) : Decidable table.InRange :=
  List.decidableBAll MarkState.Fits table.states

/--
No position grows beyond 64 bits while things are done one after the other.
-/
def StaysInRange : MarkTable → List Operation → Prop
  | _, [] => True
  | table, operation :: rest =>
    match table.perform? operation with
    | some (_, next) => next.InRange ∧ next.StaysInRange rest
    | none => True

instance decidableStaysInRange
    (table : MarkTable)
    (operations : List Operation) : Decidable (table.StaysInRange operations) :=
  match operations with
  | [] => .isTrue trivial
  | operation :: rest =>
    match performed : table.perform? operation with
    | none => .isTrue (by simp [StaysInRange, performed])
    | some (_, next) =>
      have := decidableStaysInRange next rest
      decidable_of_iff (next.InRange ∧ next.StaysInRange rest)
        (by simp [StaysInRange, performed])

end MarkTable

namespace Buffer

/-! ## The table of a buffer -/

/-- What the live entries make of a slot. -/
def stateOf (live : Array LiveMark) : Slot → MarkState
  | .live index =>
    match live[index]? with
    | some entry => .live entry.position
    | none => .invalid
  | .released position => .released position
  | .invalid => .invalid

/-- The table that tells of the marks what the buffer tells. -/
def table (buffer : Buffer) : MarkTable :=
  ⟨buffer.text, buffer.slots.toList.map (stateOf buffer.live)⟩

@[simp]
theorem text_table (buffer : Buffer) : buffer.table.text = buffer.text :=
  rfl

@[simp]
theorem length_states_table (buffer : Buffer) :
    buffer.table.states.length = buffer.slots.size := by
  simp [table]

@[simp]
theorem getElem?_states_table
    (buffer : Buffer)
    (slot : Nat) :
    buffer.table.states[slot]? =
      buffer.slots[slot]?.map (stateOf buffer.live) := by
  simp [table]

@[simp]
theorem table_ofText (text : Text) : (ofText text).table = .ofText text :=
  rfl

theorem position?_table
    (buffer : Buffer)
    (mark : Mark) :
    buffer.table.position? mark = buffer.position? mark := by
  unfold MarkTable.position? position?
  rw [getElem?_states_table]
  cases buffer.slots[mark.slot]? with
  | none => rfl
  | some slot =>
    cases slot with
    | live index =>
      simp only [Option.map_some, Option.bind_some, stateOf]
      cases buffer.live[index]? <;> rfl
    | released | invalid => rfl

theorem offset_table
    (buffer : Buffer)
    (position : Position) :
    buffer.table.offset position = buffer.offset position := by
  cases position with
  | offset bytes => rfl
  | mark mark =>
    rw [MarkTable.offset, position?_table, text_table, byteSize_text]
    rfl

/--
What a buffer tells of its marks is a table, if it tells the same of every slot.
-/
theorem table_eq
    {buffer : Buffer}
    {table : MarkTable}
    (text : buffer.text = table.text)
    (states :
      ∀ slot : Nat,
        buffer.slots[slot]?.map (stateOf buffer.live) = table.states[slot]?) :
    buffer.table = table := by
  have same : buffer.table.states = table.states :=
    List.ext_getElem? fun slot => by
    rw [getElem?_states_table]
    exact states slot
  cases table
  exact congrArg₂ MarkTable.mk text same

theorem stateOf_live
    {live : Array LiveMark}
    {index : Nat}
    {entry : LiveMark}
    (found : live[index]? = some entry) :
    stateOf live (.live index) = .live entry.position := by
  simp only [stateOf, found]

@[simp]
theorem stateOf_released
    (live : Array LiveMark)
    (position : Nat) :
    stateOf live (.released position) = .released position :=
  rfl

@[simp]
theorem stateOf_invalid (live : Array LiveMark) :
    stateOf live .invalid = .invalid :=
  rfl

/--
A change that concerns live marks only leaves the other slots as they are.
-/
theorem map_stateOf_of_not_live
    {buffer : Buffer}
    {slot : Nat}
    (notLive : ∀ index, buffer.slots[slot]? ≠ some (.live index))
    {change : MarkState → MarkState}
    (keeps : ∀ state, state.isLive = false → change state = state) :
    (buffer.slots[slot]?.map (stateOf buffer.live)).map change =
      buffer.slots[slot]?.map (stateOf buffer.live) := by
  cases isSlot : buffer.slots[slot]? with
  | none => rfl
  | some state =>
    cases state with
    | live index => exact absurd isSlot (notLive index)
    | released | invalid => exact congrArg some (keeps _ rfl)

/-- Such a change leaves the table as it is if the mark is not live. -/
theorem modify_table_of_not_live
    {buffer : Buffer}
    {mark : Mark}
    (notLive : ∀ index, buffer.slots[mark.slot]? ≠ some (.live index))
    {change : MarkState → MarkState}
    (keeps : ∀ state, state.isLive = false → change state = state) :
    buffer.table.modify mark change = buffer.table := by
  symm
  refine table_eq rfl fun slot => ?_
  rw [MarkTable.getElem?_states_modify, getElem?_states_table]
  split
  · rename_i own
    subst own
    exact (map_stateOf_of_not_live notLive keeps).symm
  · rfl

/-! ## What each operation does to the table -/

theorem table_mark
    {buffer : Buffer}
    (linked : buffer.Linked)
    (position : Position) :
    (buffer.mark position).2.table = (buffer.table.mark position).2 := by
  refine table_eq rfl fun slot => ?_
  simp only [MarkTable.mark, offset_table, mark, Array.getElem?_push]
  by_cases new : slot = buffer.slots.size
  · subst new
    rw [if_pos rfl, ← length_states_table, List.getElem?_concat_length]
    simp [stateOf]
  · rw [if_neg new]
    by_cases inside : slot < buffer.slots.size
    · rw [List.getElem?_append_left (by simpa using inside),
        getElem?_states_table]
      rcases isSlot : buffer.slots[slot]? with _ | (⟨index⟩ | ⟨⟩ | ⟨⟩) <;>
        try rfl
      rcases linked.entry_of_slot isSlot with ⟨entry, found, -⟩
      have different : index ≠ buffer.live.size := by
        rintro rfl
        simp at found
      simp [stateOf, Array.getElem?_push, different]
    · have outside : buffer.slots.size + 1 ≤ slot := by omega
      have absent : buffer.slots[slot]? = none :=
        Array.getElem?_eq_none (Nat.le_of_not_lt inside)
      rw [absent, List.getElem?_eq_none (by simpa using outside)]
      rfl

theorem table_modifyPosition
    {buffer : Buffer}
    (linked : buffer.Linked)
    (mark : Mark)
    (change : Nat → Nat) :
    (buffer.modifyPosition mark change).table =
      buffer.table.modify mark (.move change) := by
  by_cases isLive : ∃ index, buffer.slots[mark.slot]? = some (.live index)
  · rcases isLive with ⟨index, isLive⟩
    rcases linked.entry_of_slot isLive with ⟨entry, found, -⟩
    refine table_eq (buffer.text_modifyPosition mark change) fun slot => ?_
    rw [modifyPosition_of_live isLive, MarkTable.getElem?_states_modify,
      getElem?_states_table]
    by_cases own : mark.slot = slot
    · subst own
      have moved : (buffer.live.modify index fun entry =>
          { entry with position := change entry.position })[index]? =
            some { entry with position := change entry.position } := by
        rw [Array.getElem?_modify, if_pos rfl, found]
        rfl
      simp [isLive, stateOf_live moved, stateOf_live found, MarkState.move]
    · simp only [if_neg own]
      rcases isSlot : buffer.slots[slot]? with _ | (⟨place⟩ | ⟨⟩ | ⟨⟩) <;>
        try rfl
      have different : index ≠ place := by
        rintro rfl
        exact own (linked.slot_eq_of_index isLive isSlot)
      simp [stateOf, Array.getElem?_modify, different]
  · rw [modifyPosition_of_not_live (not_exists.1 isLive),
      modify_table_of_not_live (not_exists.1 isLive)
        (MarkState.move_of_not_live change)]

theorem table_release
    {buffer : Buffer}
    (linked : buffer.Linked)
    (mark : Mark) :
    (buffer.release mark).table = buffer.table.modify mark .release := by
  by_cases isLive : ∃ index, buffer.slots[mark.slot]? = some (.live index)
  · rcases isLive with ⟨index, isLive⟩
    rcases linked.entries_of_live isLive with
      ⟨entry, last, found, equal, isLast, inside, atEnd⟩
    refine table_eq (buffer.text_release mark) fun slot => ?_
    rw [MarkTable.getElem?_states_modify, getElem?_states_table]
    have known := (Array.getElem?_eq_some_iff.1 atEnd).1
    have atIndex := getElem?_live_release isLive found isLast
    have lastAt : buffer.live[buffer.live.size - 1]? = some last := by
      rw [← Array.back?_eq_getElem?]
      exact isLast
    rw [getElem?_slots_release isLive found isLast known]
    by_cases moved : slot = last.slot ∧ index + 1 < buffer.live.size
    · rcases moved with ⟨rfl, within⟩
      have other : mark.slot ≠ last.slot := by
        intro same
        rw [same, atEnd] at isLive
        cases isLive
        omega
      have filled : (buffer.release mark).live[index]? = some last := by
        rw [atIndex, if_pos within, if_pos rfl]
      simp [within, atEnd, other, stateOf_live filled, stateOf_live lastAt]
    · rw [if_neg moved]
      by_cases own : slot = mark.slot
      · subst own
        simp [isLive, stateOf_live found, MarkState.release]
      · rw [if_neg own]
        rcases isSlot : buffer.slots[slot]? with _ | (⟨place⟩ | ⟨⟩ | ⟨⟩) <;>
          simp only [if_neg (Ne.symm own)] <;> try rfl
        rcases linked.stays isLive isLast isSlot own moved with
          ⟨within, different⟩
        simp [stateOf, atIndex, within, different]
  · rw [release_of_not_live (not_exists.1 isLive),
      modify_table_of_not_live (not_exists.1 isLive)
        MarkState.release_of_not_live]

theorem table_releaseAll
    {buffer : Buffer}
    (linked : buffer.Linked) :
    buffer.releaseAll.table = buffer.table.modifyAll .release := by
  refine table_eq rfl fun slot => ?_
  simp only [MarkTable.getElem?_states_modifyAll, getElem?_states_table]
  by_cases isLive : ∃ index, buffer.slots[slot]? = some (.live index)
  · rcases isLive with ⟨index, isLive⟩
    rcases linked.entry_of_slot isLive with ⟨entry, found, -⟩
    rw [linked.slot_releaseAll_of_live isLive found, isLive]
    simp [stateOf_live found, MarkState.release]
  · rw [linked.slot_releaseAll_of_not_live (not_exists.1 isLive),
      map_stateOf_of_not_live (not_exists.1 isLive)
        MarkState.release_of_not_live]
    rcases isSlot : buffer.slots[slot]? with _ | (⟨index⟩ | ⟨⟩ | ⟨⟩) <;> try rfl
    exact absurd ⟨index, isSlot⟩ isLive

theorem table_invalidateAll (buffer : Buffer) :
    buffer.invalidateAll.table = buffer.table.modifyAll fun _ => .invalid := by
  refine table_eq rfl fun slot => ?_
  simp only [invalidateAll, Array.getElem?_map,
    MarkTable.getElem?_states_modifyAll, getElem?_states_table]
  cases buffer.slots[slot]? <;> rfl

/-- Positions that stay within 64 bits move by the plain rule. -/
theorem rebase_eq_shift
    {start stop added position : Nat}
    (size : Nat)
    (fits : MarkTable.shift start stop added position < Nat.pow 2 64) :
    rebase start stop added size position =
      MarkTable.shift start stop added position := by
  unfold MarkTable.shift at fits ⊢
  unfold rebase
  split
  · rename_i behind
    rw [if_pos behind] at fits
    rw [wrapBeyond_of_lt fits]
  · rfl

theorem table_replaceRange?
    {buffer : Buffer}
    (linked : buffer.Linked)
    (first second : Position)
    (replacement : Text)
    (inRange :
      ∀ table,
        buffer.table.replaceRange? first second replacement = some table →
        table.InRange) :
    (buffer.replaceRange? first second replacement).map table =
      buffer.table.replaceRange? first second replacement := by
  have texts := buffer.text_replaceRange?_eq_splice? first second replacement
  unfold MarkTable.replaceRange? at inRange ⊢
  simp only [offset_table, text_table, byteSize_text] at inRange ⊢
  simp only [clamp] at texts
  rw [← texts] at inRange ⊢
  rw [Option.map_map]
  cases replaced : buffer.replaceRange? first second replacement with
  | none => rfl
  | some edited =>
    rw [replaced] at inRange
    have fits := inRange _ rfl
    rcases live_replaceRange? replaced with ⟨slots, live⟩
    simp only [clamp] at live
    simp only [Option.map_some, Option.some.injEq, Function.comp_apply]
    refine table_eq rfl fun slot => ?_
    simp only
      [MarkTable.getElem?_states_modifyAll, getElem?_states_table, slots]
    rcases isSlot : buffer.slots[slot]? with _ | (⟨index⟩ | ⟨⟩ | ⟨⟩) <;> try rfl
    rcases linked.entry_of_slot isSlot with ⟨entry, found, -⟩
    have known : buffer.table.states[slot]? = some (.live entry.position) := by
      rw [getElem?_states_table, isSlot, Option.map_some, stateOf_live found]
    have fitting := fits _ (List.mem_map_of_mem (List.mem_of_getElem? known))
    have moved :=
      congrArg (fun entries : Array LiveMark => entries[index]?) live
    simp only [Array.getElem?_map, found, Option.map_some] at moved
    simp only
      [Option.map_some, stateOf_live found, stateOf_live moved, MarkState.move]
    rw [rebase_eq_shift _ fitting]

/-! ## Sequences of operations -/

theorem linked_perform?
    {buffer next : Buffer}
    (linked : buffer.Linked)
    {operation : Operation}
    {made : List Mark}
    (performed : buffer.perform? operation = some (made, next)) :
    next.Linked := by
  cases operation with
  | mark position =>
    cases performed
    exact linked_mark linked position
  | replaceRange first second replacement =>
    rcases Option.map_eq_some_iff.1 performed with ⟨edited, replaced, equal⟩
    cases equal
    exact linked_replaceRange? linked replaced
  | setPosition mark position =>
    cases performed
    exact linked_setPosition linked mark position
  | advance mark bytes =>
    cases performed
    rw [advance]
    exact linked_modifyPosition linked mark _
  | release mark =>
    cases performed
    exact linked_release linked mark
  | releaseAll =>
    cases performed
    exact linked_releaseAll linked
  | invalidateAll =>
    cases performed
    exact linked_invalidateAll buffer

/-- Moving a mark by two rules that agree where it is has the same effect. -/
theorem modify_move_congr
    {table : MarkTable}
    {mark : Mark}
    {change other : Nat → Nat}
    (same :
      ∀ position,
        table.states[mark.slot]? = some (.live position) →
        change position = other position) :
    table.modify mark (.move change) = table.modify mark (.move other) := by
  refine congrArg (MarkTable.mk table.text) (List.ext_getElem? fun slot => ?_)
  show (table.modify mark _).states[slot]? = (table.modify mark _).states[slot]?
  simp only [MarkTable.getElem?_states_modify]
  split
  · rename_i own
    subst own
    rcases isState : table.states[mark.slot]? with
      _ | (⟨position⟩ | ⟨⟩ | ⟨⟩) <;> try rfl
    simp only [Option.map_some, MarkState.move, same position isState]
  · rfl

/--
As long as no position overflows, an operation does to the table what it says.
-/
theorem table_perform?
    {buffer : Buffer}
    (linked : buffer.Linked)
    (operation : Operation)
    (inRange :
      ∀ made table,
        buffer.table.perform? operation = some (made, table) → table.InRange) :
    (buffer.perform? operation).map (Prod.map id table) =
      buffer.table.perform? operation := by
  cases operation with
  | mark position =>
    simp only [perform?, MarkTable.perform?, Option.map_some, Prod.map, id,
      table_mark linked, mark_fst, MarkTable.mark, length_states_table]
  | replaceRange first second replacement =>
    have fits :
        ∀ table,
          buffer.table.replaceRange? first second replacement = some table →
          table.InRange :=
      fun table replaced => inRange [] table (by
        rw [MarkTable.perform?, replaced]
        rfl)
    simp only [perform?, MarkTable.perform?,
      ← table_replaceRange? linked _ _ _ fits, Option.map_map,
      Function.comp_def, Prod.map, id]
  | setPosition mark position =>
    simp only [perform?, MarkTable.perform?, Option.map_some, Prod.map, id,
      setPosition, table_modifyPosition linked, offset_table]
  | advance mark bytes =>
    have fits := inRange _ _ rfl
    have exact :
        ∀ position,
          buffer.table.states[mark.slot]? = some (.live position) →
          wrapBeyond buffer.size (position + bytes) = position + bytes := by
      intro position isState
      have moved :
          (buffer.table.modify mark (.move (· + bytes))).states[mark.slot]? =
            some (.live (position + bytes)) := by
        rw [MarkTable.getElem?_states_modify, if_pos rfl, isState]
        rfl
      exact wrapBeyond_of_lt (fits _ (List.mem_of_getElem? moved))
    simp only [perform?, MarkTable.perform?, Option.map_some, Prod.map, id,
      advance, table_modifyPosition linked, modify_move_congr exact]
  | release mark =>
    simp only [perform?, MarkTable.perform?, Option.map_some, Prod.map, id,
      table_release linked]
  | releaseAll =>
    simp only [perform?, MarkTable.perform?, Option.map_some, Prod.map, id,
      table_releaseAll linked]
  | invalidateAll =>
    simp only [perform?, MarkTable.perform?, Option.map_some, Prod.map, id,
      table_invalidateAll]

theorem linked_run?
    {buffer final : Buffer}
    (linked : buffer.Linked)
    {operations : List Operation}
    {made : List Mark}
    (ran : Operation.run? perform? buffer operations = some (made, final)) :
    final.Linked := by
  induction operations generalizing buffer made with
  | nil =>
    cases ran
    exact linked
  | cons operation rest ih =>
    rw [Operation.run?] at ran
    split at ran
    · cases ran
    · rename_i performed
      rcases Option.map_eq_some_iff.1 ran with ⟨⟨more, last⟩, later, equal⟩
      cases equal
      exact ih (linked_perform? linked performed) later

/--
As long as no position overflows, a run does to the table what its operations
say.
-/
theorem table_run?
    {buffer : Buffer}
    (linked : buffer.Linked)
    (operations : List Operation)
    (inRange : buffer.table.StaysInRange operations) :
    (Operation.run? perform? buffer operations).map (Prod.map id table) =
      Operation.run? MarkTable.perform? buffer.table operations := by
  induction operations generalizing buffer with
  | nil => rfl
  | cons operation rest ih =>
    have step := table_perform? linked operation fun made next performed => by
      rw [MarkTable.StaysInRange, performed] at inRange
      exact inRange.1
    rw [Operation.run?, Operation.run?, ← step]
    cases performed : buffer.perform? operation with
    | none => rfl
    | some answer =>
      rcases answer with ⟨made, next⟩
      rw [MarkTable.StaysInRange, ← step, performed] at inRange
      have later := ih (linked_perform? linked performed) inRange.2
      simp only [Option.map_some, Prod.map, id, ← later, Option.map_map,
        Function.comp_def]

/-! ## Counting live marks -/

/-- A slot counts as live in the table when it is. -/
theorem Linked.isLive_stateOf
    {buffer : Buffer}
    (linked : buffer.Linked)
    {slot : Nat}
    {state : Slot}
    (isSlot : buffer.slots[slot]? = some state) :
    (stateOf buffer.live state).isLive = true ↔
      ∃ index, state = .live index := by
  cases state with
  | live index =>
    rcases linked.entry_of_slot isSlot with ⟨entry, found, -⟩
    simp [stateOf_live found, MarkState.isLive]
  | released | invalid => simp [MarkState.isLive]

/-- The slots of different live entries differ. -/
theorem Linked.nodup_slots
    {buffer : Buffer}
    (linked : buffer.Linked) :
    (buffer.live.toList.map LiveMark.slot).Nodup := by
  rw [List.nodup_iff_pairwise_ne, List.pairwise_map, List.pairwise_iff_getElem]
  intro first second inFirst inSecond ordered same
  have isFirst := linked.slot_of_entry
    (Array.getElem?_toList.symm.trans (List.getElem?_eq_getElem inFirst))
  have isSecond := linked.slot_of_entry
    (Array.getElem?_toList.symm.trans (List.getElem?_eq_getElem inSecond))
  rw [same, isSecond] at isFirst
  cases isFirst
  exact Nat.lt_irrefl _ ordered

theorem Linked.mem_slots_iff
    {buffer : Buffer}
    (linked : buffer.Linked)
    {slot : Nat} :
    slot ∈ buffer.live.toList.map LiveMark.slot ↔
      ∃ index, buffer.slots[slot]? = some (.live index) := by
  constructor
  · intro member
    rcases List.mem_map.1 member with ⟨entry, inside, rfl⟩
    rcases List.mem_iff_getElem?.1 inside with ⟨index, found⟩
    rw [Array.getElem?_toList] at found
    exact ⟨index, linked.slot_of_entry found⟩
  · rintro ⟨index, isLive⟩
    rcases linked.entry_of_slot isLive with ⟨entry, found, same⟩
    rw [← Array.getElem?_toList] at found
    exact List.mem_map.2 ⟨entry, List.mem_of_getElem? found, same⟩

/-- There are as many live slots as live entries. -/
theorem liveCount_table
    {buffer : Buffer}
    (linked : buffer.Linked) :
    buffer.table.liveCount = buffer.liveCount := by
  let isLive := MarkState.isLive ∘ stateOf buffer.live
  let live := (List.finRange buffer.slots.toList.length).filter
    (isLive ∘ buffer.slots.toList.get)
  have sameMembers : ∀ slot, slot ∈ live.map Fin.val ↔
      slot ∈ buffer.live.toList.map LiveMark.slot := by
    intro slot
    rw [linked.mem_slots_iff]
    constructor
    · intro member
      rcases List.mem_map.1 member with ⟨place, inside, rfl⟩
      have isSlot :
          buffer.slots[place.val]? = some (buffer.slots.toList.get place) := by
        rw [← Array.getElem?_toList]
        exact List.getElem?_eq_getElem place.isLt
      rcases (linked.isLive_stateOf isSlot).1 (List.mem_filter.1 inside).2 with
        ⟨index, equal⟩
      exact ⟨index, equal ▸ isSlot⟩
    · rintro ⟨index, isSlot⟩
      have counts := (linked.isLive_stateOf isSlot).2 ⟨index, rfl⟩
      rw [← Array.getElem?_toList] at isSlot
      rcases List.getElem?_eq_some_iff.1 isSlot with ⟨known, equal⟩
      refine List.mem_map.2
        ⟨⟨slot, known⟩, List.mem_filter.2 ⟨List.mem_finRange _, ?_⟩, rfl⟩
      rw [← equal] at counts
      exact counts
  have nodup : (live.map Fin.val).Nodup :=
    ((List.nodup_finRange _).filter _).map Fin.val_injective
  have sameSlots :=
    (List.perm_ext_iff_of_nodup nodup linked.nodup_slots).2 sameMembers
  calc buffer.table.liveCount
      = buffer.slots.toList.countP isLive := List.countP_map
    _ = ((List.finRange _).map buffer.slots.toList.get).countP isLive := by
      rw [List.map_get_finRange]
    _ = live.length := by rw [List.countP_map, List.countP_eq_length_filter]
    _ = buffer.liveCount := by simpa [liveCount] using sameSlots.length_eq

/-! ## What a buffer shows -/

/--
A buffer shows the text, the positions and the number of live marks of a table.
-/
structure Shows (buffer : Buffer) (table : MarkTable) : Prop where
  text_eq : buffer.text = table.text
  position_eq : ∀ mark, buffer.position? mark = table.position? mark
  liveCount_eq : buffer.liveCount = table.liveCount

/--
The slots and the live entries of a buffer name each other, and every live entry
has one slot only.
-/
structure OneToOne (buffer : Buffer) : Prop where
  named : ∀ slot index : Nat, buffer.slots[slot]? = some (.live index) ↔
    buffer.live[index]?.map LiveMark.slot = some slot
  unique : ∀ index < buffer.live.size,
    ∃! slot : Nat, buffer.slots[slot]? = some (.live index)

theorem Linked.shows
    {buffer : Buffer}
    (linked : buffer.Linked) :
    buffer.Shows buffer.table where
  text_eq := rfl
  position_eq mark := (buffer.position?_table mark).symm
  liveCount_eq := (liveCount_table linked).symm

theorem Linked.oneToOne
    {buffer : Buffer}
    (linked : buffer.Linked) : buffer.OneToOne where
  named slot index := by
    rw [Option.map_eq_some_iff]
    constructor
    · exact linked.entry_of_slot
    · rintro ⟨entry, found, rfl⟩
      exact linked.slot_of_entry found
  unique index inside := by
    refine ⟨buffer.live[index].slot,
      linked.slot_of_entry (Array.getElem?_eq_getElem inside), ?_⟩
    intro slot isLive
    rcases linked.entry_of_slot isLive with ⟨entry, found, rfl⟩
    rw [Array.getElem?_eq_getElem inside] at found
    cases found
    rfl

/--
A buffer keeps its slots and live entries in order through any sequence of
operations.  As long as no position overflows, it fails where the table of its
marks does, makes the same marks and shows what the table shows.
-/
theorem run?_shows_table
    (text : Text)
    (operations : List Operation) :
    (∀ made buffer,
      Operation.run? perform? (ofText text) operations = some (made, buffer) →
      buffer.OneToOne) ∧
    ((MarkTable.ofText text).StaysInRange operations →
      Option.Rel
        (fun answer expected =>
          answer.1 = expected.1 ∧ answer.2.Shows expected.2)
        (Operation.run? perform? (ofText text) operations)
        (Operation.run? MarkTable.perform? (.ofText text) operations)) := by
  refine ⟨fun made buffer ran =>
      (linked_run? (linked_ofText text) ran).oneToOne, fun inRange => ?_⟩
  have same := table_run? (linked_ofText text) operations inRange
  rw [table_ofText] at same
  rw [← same]
  cases ran : Operation.run? perform? (ofText text) operations with
  | none => exact .none
  | some answer =>
    exact .some ⟨rfl, (linked_run? (linked_ofText text) ran).shows⟩

/--
Marks that are made, moved, released, released again and invalidated in turns.
-/
def interleaved : List Operation :=
  [.mark (.offset 0), .mark (.offset 4), .mark (.offset 99), .release ⟨0⟩,
    .mark (.mark ⟨1⟩), .replaceRange (.mark ⟨1⟩) (.offset 2) ['x', 'é'],
    .release ⟨3⟩, .release ⟨3⟩, .advance ⟨1⟩ 2, .setPosition ⟨2⟩ (.mark ⟨1⟩),
    .replaceRange (.offset 1) (.offset 0) [], .invalidateAll, .mark (.offset 1),
    .mark (.mark ⟨1⟩), .mark (.mark ⟨4⟩), .release ⟨6⟩,
    .replaceRange (.mark ⟨4⟩) (.mark ⟨4⟩) ['y'], .releaseAll, .mark (.mark ⟨4⟩),
    .setPosition ⟨4⟩ (.offset 0)]

theorem run?_shows_table_interleaved :
    (MarkTable.ofText "one two".toList).StaysInRange interleaved ∧
    ∃ buffer,
      Operation.run? perform? (ofText "one two".toList) interleaved =
        some ((List.range 8).map Mark.mk, buffer) ∧
      buffer.Shows ⟨"nyxétwo".toList,
        List.replicate 4 .invalid ++
          [.released 2, .released 8, .released 1, .live 2]⟩ := by
  have inRange :
      (MarkTable.ofText "one two".toList).StaysInRange interleaved := by
    decide +kernel
  have ran :
      Operation.run? MarkTable.perform? (.ofText "one two".toList) interleaved =
        some
          ((List.range 8).map Mark.mk,
            ⟨"nyxétwo".toList,
              List.replicate 4 .invalid ++
                [.released 2, .released 8, .released 1, .live 2]⟩) := by
    decide +kernel
  have shows := (run?_shows_table "one two".toList interleaved).2 inRange
  rw [ran] at shows
  rcases isRun :
      Operation.run? perform? (ofText "one two".toList) interleaved with
    _ | ⟨made, buffer⟩
  · rw [isRun] at shows
    cases shows
  · rw [isRun] at shows
    cases shows with
    | some both =>
      have sameMarks : made = (List.range 8).map Mark.mk := both.1
      subst sameMarks
      exact ⟨inRange, buffer, rfl, both.2⟩

end Buffer

end Mustache
