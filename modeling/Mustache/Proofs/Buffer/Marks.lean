import Mustache.Buffer.Basic
import Mustache.Proofs.Text.Splice

/-!
# Where live marks are

The live list and the slots of a buffer refer to each other by index.  `Linked`
says that they do so consistently, and every operation keeps it.  In a linked
buffer the offsets of the live marks behave like a table that is looked up by
mark: making a mark adds an entry, moving one changes its entry only, releasing
one removes its entry, and a replacement moves all entries by the same rule.
-/

namespace Mustache

namespace Buffer

/-- The offset of a mark that still moves with edits. -/
def livePosition? (buffer : Buffer) (mark : Mark) : Option Nat :=
  match buffer.slots[mark.slot]? with
  | some (.live index) => buffer.live[index]?.map LiveMark.position
  | _ => none

/--
Every live entry is named by its slot, and every live slot names an entry of its
own.
-/
structure Linked (buffer : Buffer) : Prop where
  slot_of_entry :
    ∀ {index : Nat} {entry : LiveMark},
      buffer.live[index]? = some entry →
      buffer.slots[entry.slot]? = some (.live index)
  entry_of_slot :
    ∀ {slot index : Nat},
      buffer.slots[slot]? = some (.live index) →
      ∃ entry, buffer.live[index]? = some entry ∧ entry.slot = slot

theorem position?_of_livePosition?
    {buffer : Buffer}
    {mark : Mark}
    {position : Nat}
    (live : buffer.livePosition? mark = some position) :
    buffer.position? mark = some position := by
  unfold livePosition? at live
  unfold position?
  split at live
  · rename_i index isLive
    simpa only [isLive] using live
  · cases live

theorem offset_of_livePosition?
    {buffer : Buffer}
    {mark : Mark}
    {position : Nat}
    (live : buffer.livePosition? mark = some position) :
    buffer.offset (.mark mark) = position := by
  simp [offset, position?_of_livePosition? live]

theorem slot_lt_of_livePosition?
    {buffer : Buffer}
    {mark : Mark}
    {position : Nat}
    (live : buffer.livePosition? mark = some position) :
    mark.slot < buffer.slots.size := by
  apply Nat.lt_of_not_le
  intro outside
  have absent : buffer.slots[mark.slot]? = none :=
    Array.getElem?_eq_none outside
  simp [livePosition?, absent] at live

theorem linked_ofText (text : Text) : (ofText text).Linked where
  slot_of_entry found := by simp [ofText] at found
  entry_of_slot found := by simp [ofText] at found

@[simp]
theorem livePosition?_ofText
    (text : Text)
    (mark : Mark) :
    (ofText text).livePosition? mark = none := by
  simp [livePosition?, ofText]

/-- Two live slots name different entries. -/
theorem Linked.slot_eq_of_index
    {buffer : Buffer}
    (linked : buffer.Linked)
    {first second index : Nat}
    (isFirst : buffer.slots[first]? = some (.live index))
    (isSecond : buffer.slots[second]? = some (.live index)) :
    first = second := by
  rcases linked.entry_of_slot isFirst with ⟨entry, found, rfl⟩
  rcases linked.entry_of_slot isSecond with ⟨other, found', rfl⟩
  rw [found] at found'
  cases found'
  rfl

/-! ## Making a mark -/

theorem mark_fst
    (buffer : Buffer)
    (position : Position) :
    (buffer.mark position).1 = ⟨buffer.slots.size⟩ :=
  rfl

@[simp]
theorem text_mark
    (buffer : Buffer)
    (position : Position) :
    (buffer.mark position).2.text = buffer.text :=
  rfl

@[simp]
theorem size_slots_mark
    (buffer : Buffer)
    (position : Position) :
    (buffer.mark position).2.slots.size = buffer.slots.size + 1 := by
  simp [mark]

theorem liveCount_mark
    (buffer : Buffer)
    (position : Position) :
    (buffer.mark position).2.liveCount = buffer.liveCount + 1 :=
  Array.size_push _

theorem linked_mark
    {buffer : Buffer}
    (linked : buffer.Linked)
    (position : Position) :
    (buffer.mark position).2.Linked where
  slot_of_entry {index entry} found := by
    simp only [mark, Array.getElem?_push] at found ⊢
    by_cases last : index = buffer.live.size
    · subst last
      rw [if_pos rfl] at found
      cases found
      simp
    · rw [if_neg last] at found
      have known := linked.slot_of_entry found
      have inside : entry.slot ≠ buffer.slots.size := by
        intro equal
        rw [equal] at known
        simp at known
      rw [if_neg inside]
      exact known
  entry_of_slot {slot index} found := by
    simp only [mark, Array.getElem?_push] at found ⊢
    by_cases last : slot = buffer.slots.size
    · subst last
      rw [if_pos rfl] at found
      cases found
      exact ⟨⟨buffer.offset position, buffer.slots.size⟩, by simp, rfl⟩
    · rw [if_neg last] at found
      rcases linked.entry_of_slot found with ⟨entry, isEntry, equal⟩
      have inside : index ≠ buffer.live.size := by
        intro same
        rw [same] at isEntry
        simp at isEntry
      exact ⟨entry, by rw [if_neg inside]; exact isEntry, equal⟩

theorem livePosition?_mark
    {buffer : Buffer}
    (linked : buffer.Linked)
    (position : Position)
    (mark : Mark) :
    (buffer.mark position).2.livePosition? mark =
      if mark = ⟨buffer.slots.size⟩ then
        some (buffer.offset position)
      else
        buffer.livePosition? mark := by
  by_cases new : mark = ⟨buffer.slots.size⟩
  · subst new
    simp [livePosition?, Buffer.mark]
  · rw [if_neg new]
    have old : mark.slot ≠ buffer.slots.size := by
      intro same
      exact new (by cases mark; cases same; rfl)
    simp only [livePosition?, Buffer.mark, Array.getElem?_push, if_neg old]
    cases isLive : buffer.slots[mark.slot]? with
    | none => rfl
    | some slot =>
      cases slot with
      | live index =>
        rcases linked.entry_of_slot isLive with ⟨entry, found, -⟩
        have inside : index ≠ buffer.live.size := by
          intro same
          rw [same] at found
          simp at found
        simp only [if_neg inside]
      | released | invalid => rfl

/-! ## Moving one mark -/

theorem modifyPosition_of_live
    {buffer : Buffer}
    {mark : Mark}
    {index : Nat}
    (isLive : buffer.slots[mark.slot]? = some (.live index))
    (change : Nat → Nat) :
    buffer.modifyPosition mark change =
      { buffer with
        live :=
          buffer.live.modify index fun entry =>
            { entry with position := change entry.position } } := by
  cases buffer
  simp only [modifyPosition, isLive]

theorem modifyPosition_of_not_live
    {buffer : Buffer}
    {mark : Mark}
    (notLive : ∀ index, buffer.slots[mark.slot]? ≠ some (.live index))
    (change : Nat → Nat) :
    buffer.modifyPosition mark change = buffer := by
  cases buffer
  simp only [modifyPosition]

theorem livePosition?_eq_none
    {buffer : Buffer}
    {mark : Mark}
    (notLive : ∀ index, buffer.slots[mark.slot]? ≠ some (.live index)) :
    buffer.livePosition? mark = none := by
  unfold livePosition?
  split
  · rename_i index isLive
    exact absurd isLive (notLive index)
  · rfl

@[simp]
theorem text_modifyPosition
    (buffer : Buffer)
    (mark : Mark)
    (change : Nat → Nat) :
    (buffer.modifyPosition mark change).text = buffer.text := by
  by_cases isLive : ∃ index, buffer.slots[mark.slot]? = some (.live index)
  · rcases isLive with ⟨index, isLive⟩
    rw [modifyPosition_of_live isLive]
    rfl
  · rw [modifyPosition_of_not_live (not_exists.1 isLive)]

@[simp]
theorem slots_modifyPosition
    (buffer : Buffer)
    (mark : Mark)
    (change : Nat → Nat) :
    (buffer.modifyPosition mark change).slots = buffer.slots := by
  by_cases isLive : ∃ index, buffer.slots[mark.slot]? = some (.live index)
  · rcases isLive with ⟨index, isLive⟩
    rw [modifyPosition_of_live isLive]
  · rw [modifyPosition_of_not_live (not_exists.1 isLive)]

theorem linked_modifyPosition
    {buffer : Buffer}
    (linked : buffer.Linked)
    (mark : Mark)
    (change : Nat → Nat) :
    (buffer.modifyPosition mark change).Linked := by
  by_cases isLive : ∃ index, buffer.slots[mark.slot]? = some (.live index)
  · rcases isLive with ⟨index, isLive⟩
    rw [modifyPosition_of_live isLive]
    constructor
    · intro place entry found
      simp only [Array.getElem?_modify] at found
      split at found
      · rcases Option.map_eq_some_iff.1 found with ⟨old, isOld, rfl⟩
        have known := linked.slot_of_entry isOld
        exact known
      · exact linked.slot_of_entry found
    · intro slot place found
      rcases linked.entry_of_slot found with ⟨entry, isEntry, rfl⟩
      simp only [Array.getElem?_modify]
      split
      · exact ⟨{ entry with position := change entry.position },
          by simp [isEntry], rfl⟩
      · exact ⟨entry, isEntry, rfl⟩
  · rw [modifyPosition_of_not_live (not_exists.1 isLive)]
    exact linked

theorem livePosition?_modifyPosition
    {buffer : Buffer}
    (linked : buffer.Linked)
    (moved mark : Mark)
    (change : Nat → Nat) :
    (buffer.modifyPosition moved change).livePosition? mark =
      if mark = moved then
        (buffer.livePosition? mark).map change
      else
        buffer.livePosition? mark := by
  by_cases isLive : ∃ index, buffer.slots[moved.slot]? = some (.live index)
  · rcases isLive with ⟨index, isLive⟩
    rw [modifyPosition_of_live isLive]
    by_cases same : mark = moved
    · subst same
      simp [livePosition?, isLive, Array.getElem?_modify, Function.comp_def]
    · rw [if_neg same]
      simp only [livePosition?, Array.getElem?_modify]
      cases isOther : buffer.slots[mark.slot]? with
      | none => rfl
      | some slot =>
        cases slot with
        | live other =>
          have different : index ≠ other := by
            rintro rfl
            have slots := linked.slot_eq_of_index isOther isLive
            exact same (by cases mark; cases moved; cases slots; rfl)
          simp only [if_neg different]
        | released | invalid => rfl
  · rw [modifyPosition_of_not_live (not_exists.1 isLive)]
    by_cases same : mark = moved
    · subst same
      rw [if_pos rfl, livePosition?_eq_none (not_exists.1 isLive)]
      rfl
    · rw [if_neg same]

@[simp]
theorem text_setPosition
    (buffer : Buffer)
    (mark : Mark)
    (position : Position) :
    (buffer.setPosition mark position).text = buffer.text :=
  buffer.text_modifyPosition mark _

@[simp]
theorem slots_setPosition
    (buffer : Buffer)
    (mark : Mark)
    (position : Position) :
    (buffer.setPosition mark position).slots = buffer.slots :=
  buffer.slots_modifyPosition mark _

theorem linked_setPosition
    {buffer : Buffer}
    (linked : buffer.Linked)
    (mark : Mark)
    (position : Position) :
    (buffer.setPosition mark position).Linked := by
  unfold setPosition
  exact linked_modifyPosition linked mark _

theorem livePosition?_setPosition
    {buffer : Buffer}
    (linked : buffer.Linked)
    (moved mark : Mark)
    (position : Position) :
    (buffer.setPosition moved position).livePosition? mark =
      if mark = moved then
        (buffer.livePosition? mark).map fun _ => buffer.offset position
      else
        buffer.livePosition? mark :=
  livePosition?_modifyPosition linked moved mark _

/-! ## Releasing one mark -/

/-- Taking an entry out of a list by moving the last one into its place. -/
theorem getElem?_setIfInBounds_pop
    {entries : Array LiveMark}
    {last : LiveMark}
    (index place : Nat)
    (inside : index < entries.size) :
    (entries.setIfInBounds index last).pop[place]? =
      if place + 1 < entries.size then
        if place = index then some last else entries[place]?
      else
        none := by
  rw [Array.getElem?_pop, Array.getElem?_setIfInBounds,
    Array.size_setIfInBounds, if_pos inside]
  by_cases within : place + 1 < entries.size
  · have before : place < entries.size - 1 := Nat.lt_sub_of_add_lt within
    simp only [if_pos within, if_pos before, eq_comm]
  · have behind : ¬place < entries.size - 1 := by omega
    rw [if_neg within, if_neg behind]

/-- A live mark has an entry, and then there is a last entry. -/
theorem Linked.entries_of_live
    {buffer : Buffer}
    (linked : buffer.Linked)
    {slot index : Nat}
    (isLive : buffer.slots[slot]? = some (.live index)) :
    ∃ entry last,
      buffer.live[index]? = some entry ∧
      entry.slot = slot ∧
      buffer.live.back? = some last ∧
      index < buffer.live.size ∧
      buffer.slots[last.slot]? = some (.live (buffer.live.size - 1)) := by
  rcases linked.entry_of_slot isLive with ⟨entry, found, equal⟩
  have inside : index < buffer.live.size :=
    (Array.getElem?_eq_some_iff.1 found).1
  have isLast : buffer.live.back? = some buffer.live[buffer.live.size - 1] := by
    rw [Array.back?_eq_getElem?]
    exact Array.getElem?_eq_getElem (by omega)
  refine ⟨entry, _, found, equal, isLast, inside, ?_⟩
  exact linked.slot_of_entry (by rw [← Array.back?_eq_getElem?]; exact isLast)

theorem release_of_not_live
    {buffer : Buffer}
    {mark : Mark}
    (notLive : ∀ index, buffer.slots[mark.slot]? ≠ some (.live index)) :
    buffer.release mark = buffer := by
  cases buffer
  simp only [release]

@[simp]
theorem text_release
    (buffer : Buffer)
    (mark : Mark) :
    (buffer.release mark).text = buffer.text := by
  cases buffer
  simp only [release]
  split
  · split <;> rfl
  · rfl

@[simp]
theorem size_slots_release
    (buffer : Buffer)
    (mark : Mark) :
    (buffer.release mark).slots.size = buffer.slots.size := by
  cases buffer
  simp only [release]
  split
  · split
    · simp only
      split <;> simp
    · rfl
  · rfl

/-- What the slots are after a live mark was released. -/
theorem getElem?_slots_release
    {buffer : Buffer}
    {mark : Mark}
    {index : Nat}
    {entry last : LiveMark}
    (isLive : buffer.slots[mark.slot]? = some (.live index))
    (found : buffer.live[index]? = some entry)
    (isLast : buffer.live.back? = some last)
    (known : last.slot < buffer.slots.size)
    (slot : Nat) :
    (buffer.release mark).slots[slot]? =
      if slot = last.slot ∧ index + 1 < buffer.live.size then
        some (.live index)
      else
        if slot = mark.slot then
          some (.released entry.position)
        else
          buffer.slots[slot]? := by
  cases buffer
  simp only at isLive found isLast known
  have inside := (Array.getElem?_eq_some_iff.1 isLive).1
  simp only [release, isLive, found, isLast]
  grind

/-- What the live entries are after a live mark was released. -/
theorem getElem?_live_release
    {buffer : Buffer}
    {mark : Mark}
    {index : Nat}
    {entry last : LiveMark}
    (isLive : buffer.slots[mark.slot]? = some (.live index))
    (found : buffer.live[index]? = some entry)
    (isLast : buffer.live.back? = some last)
    (place : Nat) :
    (buffer.release mark).live[place]? =
      if place + 1 < buffer.live.size then
        if place = index then some last else buffer.live[place]?
      else
        none := by
  cases buffer
  simp only at isLive found isLast
  have inside := (Array.getElem?_eq_some_iff.1 found).1
  simp only [release, isLive, found, isLast]
  exact getElem?_setIfInBounds_pop index place inside

/-- A mark that is released counts as live no more. -/
theorem Linked.liveCount_release
    {buffer : Buffer}
    (linked : buffer.Linked)
    {mark : Mark}
    {position : Nat}
    (live : buffer.livePosition? mark = some position) :
    (buffer.release mark).liveCount + 1 = buffer.liveCount := by
  obtain ⟨index, isLive⟩ :
      ∃ index, buffer.slots[mark.slot]? = some (.live index) := by
    refine Classical.byContradiction fun notLive => ?_
    rw [livePosition?_eq_none (not_exists.1 notLive)] at live
    cases live
  rcases linked.entries_of_live isLive with
    ⟨entry, last, found, -, isLast, inside, -⟩
  cases buffer
  simp only at isLive found isLast inside
  simp only [release, isLive, found, isLast, liveCount, Array.size_pop,
    Array.size_setIfInBounds]
  omega

/-- An entry that neither is released nor fills the gap stays where it is. -/
theorem Linked.stays
    {buffer : Buffer}
    (linked : buffer.Linked)
    {mark : Mark}
    {index : Nat}
    {last : LiveMark}
    (isLive : buffer.slots[mark.slot]? = some (.live index))
    (isLast : buffer.live.back? = some last)
    {slot place : Nat}
    (isPlace : buffer.slots[slot]? = some (.live place))
    (notOwn : slot ≠ mark.slot)
    (notMoved : ¬(slot = last.slot ∧ index + 1 < buffer.live.size)) :
    place + 1 < buffer.live.size ∧ place ≠ index := by
  rcases linked.entry_of_slot isLive with ⟨entry, found, own⟩
  rcases linked.entry_of_slot isPlace with ⟨other, isOther, sameSlot⟩
  have notIndex : place ≠ index := by
    rintro rfl
    rw [found] at isOther
    cases isOther
    exact notOwn (sameSlot.symm.trans own)
  refine ⟨Nat.lt_of_not_le fun behind => ?_, notIndex⟩
  have inside := (Array.getElem?_eq_some_iff.1 found).1
  have fits := (Array.getElem?_eq_some_iff.1 isOther).1
  have atEnd : place = buffer.live.size - 1 := by omega
  rw [atEnd, ← Array.back?_eq_getElem?, isLast] at isOther
  cases isOther
  exact notMoved ⟨sameSlot.symm, by omega⟩

theorem linked_release
    {buffer : Buffer}
    (linked : buffer.Linked)
    (mark : Mark) :
    (buffer.release mark).Linked := by
  by_cases isLive : ∃ index, buffer.slots[mark.slot]? = some (.live index)
  · rcases isLive with ⟨index, isLive⟩
    rcases linked.entries_of_live isLive with
      ⟨entry, last, found, equal, isLast, inside, atEnd⟩
    have known := (Array.getElem?_eq_some_iff.1 atEnd).1
    constructor
    · intro place other isOther
      rw [getElem?_live_release isLive found isLast] at isOther
      rw [getElem?_slots_release isLive found isLast known]
      split at isOther
      · rename_i within
        split at isOther
        · rename_i isIndex
          cases isOther
          subst isIndex
          rw [if_pos ⟨rfl, within⟩]
        · rename_i notIndex
          have standing := linked.slot_of_entry isOther
          have notLast : other.slot ≠ last.slot := by
            intro same
            rw [same, atEnd] at standing
            cases standing
            omega
          have notOwn : other.slot ≠ mark.slot := by
            intro same
            rw [same, isLive] at standing
            cases standing
            exact notIndex rfl
          rw [if_neg (fun both => notLast both.1), if_neg notOwn, standing]
      · cases isOther
    · intro slot place isPlace
      rw [getElem?_slots_release isLive found isLast known] at isPlace
      rw [getElem?_live_release isLive found isLast]
      split at isPlace
      · rename_i moved
        cases isPlace
        exact ⟨last, by rw [if_pos moved.2, if_pos rfl], moved.1.symm⟩
      · rename_i notMoved
        split at isPlace
        · cases isPlace
        · rename_i notOwn
          rcases linked.entry_of_slot isPlace with ⟨other, isOther, sameSlot⟩
          rcases linked.stays isLive isLast isPlace notOwn notMoved with
            ⟨within, notIndex⟩
          exact ⟨other, by rw [if_pos within, if_neg notIndex, isOther],
            sameSlot⟩
  · rw [release_of_not_live (not_exists.1 isLive)]
    exact linked

theorem livePosition?_release
    {buffer : Buffer}
    (linked : buffer.Linked)
    (released mark : Mark) :
    (buffer.release released).livePosition? mark =
      if mark = released then none else buffer.livePosition? mark := by
  by_cases isLive : ∃ index, buffer.slots[released.slot]? = some (.live index)
  · rcases isLive with ⟨index, isLive⟩
    rcases linked.entries_of_live isLive with
      ⟨entry, last, found, equal, isLast, inside, atEnd⟩
    have known := (Array.getElem?_eq_some_iff.1 atEnd).1
    have atIndex := getElem?_live_release isLive found isLast
    simp only [livePosition?, getElem?_slots_release isLive found isLast known]
    have lastAt : buffer.live[buffer.live.size - 1]? = some last := by
      rw [← Array.back?_eq_getElem?]
      exact isLast
    by_cases same : mark = released
    · subst same
      have different :
          ¬(mark.slot = last.slot ∧ index + 1 < buffer.live.size) := by
        grind
      simp [different]
    · have otherSlot : mark.slot ≠ released.slot := by
        intro slots
        exact same (by cases mark; cases released; cases slots; rfl)
      rw [if_neg otherSlot, if_neg same]
      by_cases moved : mark.slot = last.slot ∧ index + 1 < buffer.live.size
      · rw [if_pos moved, moved.1, atEnd]
        simp [atIndex, moved.2, lastAt]
      · rw [if_neg moved]
        cases isPlace : buffer.slots[mark.slot]? with
        | none => rfl
        | some slot =>
          cases slot with
          | live place =>
            rcases linked.stays isLive isLast isPlace otherSlot moved with
              ⟨within, notIndex⟩
            simp only [atIndex, if_pos within, if_neg notIndex]
          | released | invalid => rfl
  · rw [release_of_not_live (not_exists.1 isLive)]
    by_cases same : mark = released
    · subst same
      rw [if_pos rfl, livePosition?_eq_none (not_exists.1 isLive)]
    · rw [if_neg same]

/-! ## Releasing or invalidating all marks -/

/-- Releasing entries does nothing to the slots of other marks. -/
theorem getElem?_foldl_of_absent
    {entries : List LiveMark}
    {slots : Array Slot}
    {slot : Nat}
    (absent : ∀ entry ∈ entries, entry.slot ≠ slot) :
    (entries.foldl
        (fun slots entry =>
          slots.setIfInBounds entry.slot (.released entry.position))
        slots)[slot]? =
      slots[slot]? := by
  induction entries generalizing slots with
  | nil => rfl
  | cons first rest ih =>
    rw [List.foldl_cons, ih fun entry inside => absent entry (.tail _ inside),
      Array.getElem?_setIfInBounds_ne (absent first (.head _))]

/-- Releasing entries releases each of them where it is. -/
theorem getElem?_foldl_of_mem
    {entries : List LiveMark}
    {slots : Array Slot}
    {entry : LiveMark}
    (inside : entry ∈ entries)
    (only : ∀ other ∈ entries, other.slot = entry.slot → other = entry)
    (known : entry.slot < slots.size) :
    (entries.foldl
        (fun slots entry =>
          slots.setIfInBounds entry.slot (.released entry.position))
        slots)[entry.slot]? =
      some (.released entry.position) := by
  induction entries generalizing slots with
  | nil => cases inside
  | cons first rest ih =>
    rw [List.foldl_cons]
    by_cases later : entry ∈ rest
    · exact ih later (fun other member => only other (.tail _ member))
        (by simpa using known)
    · have isFirst : first = entry := by
        rcases List.mem_cons.1 inside with rfl | member
        · rfl
        · exact absurd member later
      subst isFirst
      have absent : ∀ other ∈ rest, other.slot ≠ first.slot := by
        intro other member same
        rw [only other (.tail _ member) same] at member
        exact later member
      rw [getElem?_foldl_of_absent absent,
        Array.getElem?_setIfInBounds_self_of_lt known]

theorem Linked.slot_releaseAll_of_live
    {buffer : Buffer}
    (linked : buffer.Linked)
    {slot index : Nat}
    {entry : LiveMark}
    (isLive : buffer.slots[slot]? = some (.live index))
    (found : buffer.live[index]? = some entry) :
    buffer.releaseAll.slots[slot]? = some (.released entry.position) := by
  rcases linked.entry_of_slot isLive with ⟨_, found', rfl⟩
  rw [found] at found'
  cases found'
  have known := (Array.getElem?_eq_some_iff.1 isLive).1
  have only :
      ∀ other ∈ buffer.live.toList,
        other.slot = entry.slot → other = entry := by
    intro other inside same
    rcases List.mem_iff_getElem?.1 inside with ⟨place, isPlace⟩
    rw [Array.getElem?_toList] at isPlace
    have standing := linked.slot_of_entry isPlace
    rw [same, isLive] at standing
    cases standing
    rw [found] at isPlace
    cases isPlace
    rfl
  have inside : entry ∈ buffer.live.toList :=
    List.mem_iff_getElem?.2 ⟨index, by rw [Array.getElem?_toList, found]⟩
  unfold releaseAll
  rw [← Array.foldl_toList]
  exact getElem?_foldl_of_mem inside only known

theorem Linked.slot_releaseAll_of_not_live
    {buffer : Buffer}
    (linked : buffer.Linked)
    {slot : Nat}
    (notLive : ∀ index, buffer.slots[slot]? ≠ some (.live index)) :
    buffer.releaseAll.slots[slot]? = buffer.slots[slot]? := by
  have absent : ∀ entry ∈ buffer.live.toList, entry.slot ≠ slot := by
    rintro entry inside rfl
    rcases List.mem_iff_getElem?.1 inside with ⟨index, found⟩
    rw [Array.getElem?_toList] at found
    exact notLive index (linked.slot_of_entry found)
  unfold releaseAll
  rw [← Array.foldl_toList]
  exact getElem?_foldl_of_absent absent

theorem linked_releaseAll
    {buffer : Buffer}
    (linked : buffer.Linked) : buffer.releaseAll.Linked where
  slot_of_entry found := by simp [releaseAll] at found
  entry_of_slot {slot index} found := by
    by_cases isLive : ∃ place, buffer.slots[slot]? = some (.live place)
    · rcases isLive with ⟨place, isLive⟩
      rcases linked.entry_of_slot isLive with ⟨entry, isEntry, -⟩
      rw [linked.slot_releaseAll_of_live isLive isEntry] at found
      cases found
    · rw [linked.slot_releaseAll_of_not_live (not_exists.1 isLive)] at found
      exact absurd ⟨index, found⟩ isLive

theorem linked_invalidateAll (buffer : Buffer) :
    buffer.invalidateAll.Linked where
  slot_of_entry found := by simp [invalidateAll] at found
  entry_of_slot found := by simp [invalidateAll] at found

/-! ## Replacing text -/

/-- What a replacement does to a buffer whose text is cut into three parts. -/
structure Edited
    (buffer edited : Buffer)
    (before within after replacement : Text) : Prop where
  text_eq : edited.text = before ++ (replacement ++ after)
  linked : edited.Linked
  slots_eq : edited.slots = buffer.slots
  live_eq :
    ∀ mark,
      edited.livePosition? mark =
        (buffer.livePosition? mark).map
          (rebase before.byteSize (before ++ within).byteSize
            replacement.byteSize edited.size)
  liveCount_eq : edited.liveCount = buffer.liveCount

/-- A position in the text lands where the same character is afterwards. -/
theorem rebase_of_le
    {start stop added size position : Nat}
    (after : stop ≤ position)
    (fits : position - (stop - start) + added ≤ size) :
    rebase start stop added size position =
      position - (stop - start) + added := by
  rw [rebase, if_pos after, wrapBeyond_of_le fits]

theorem rebase_of_lt
    {start stop added size position : Nat}
    (before : position < stop) :
    rebase start stop added size position = position := by
  rw [rebase, if_neg (by omega)]

theorem clamp_of_text
    {buffer : Buffer}
    {first second : Position}
    {before within after : Text}
    (text : buffer.text = before ++ (within ++ after))
    (atFirst : buffer.offset first = before.byteSize)
    (atSecond : buffer.offset second = (before ++ within).byteSize) :
    buffer.clamp (buffer.offset first) (buffer.offset second) =
      (before.byteSize, (before ++ within).byteSize) := by
  have size :
      buffer.size = before.byteSize + (within.byteSize + after.byteSize) := by
    rw [← buffer.byteSize_text, text, Text.byteSize_append,
      Text.byteSize_append]
  rw [clamp, atFirst, atSecond, Text.byteSize_append, size]
  grind

theorem splitRange?_of_text
    {buffer : Buffer}
    {first second : Position}
    {before within after : Text}
    (text : buffer.text = before ++ (within ++ after))
    (atFirst : buffer.offset first = before.byteSize)
    (atSecond : buffer.offset second = (before ++ within).byteSize) :
    buffer.splitRange? first second = some (before.reverse, within, after) := by
  have outer : buffer.content.walkTo? before.byteSize =
      some (before.reverse, within ++ after) := by
    rw [GappedText.walkTo?_eq_walk, Text.walk_eq_some_iff]
    exact ⟨before, by simp, text, rfl⟩
  have inner : Text.walk [] (within ++ after) within.byteSize =
      some (within.reverse, after) :=
    Text.walk_eq_some_iff.2 ⟨within, by simp, rfl, rfl⟩
  simp [splitRange?, clamp_of_text text atFirst atSecond, outer, inner]

theorem substring_of_text
    {buffer : Buffer}
    {first second : Position}
    {before within after : Text}
    (text : buffer.text = before ++ (within ++ after))
    (atFirst : buffer.offset first = before.byteSize)
    (atSecond : buffer.offset second = (before ++ within).byteSize) :
    buffer.substring first second = within := by
  simp [substring, splitRange?_of_text text atFirst atSecond]

theorem walkTo?_of_text
    {buffer : Buffer}
    {position : Position}
    {before after : Text}
    (text : buffer.text = before ++ after)
    (isAt : buffer.offset position = before.byteSize) :
    buffer.walkTo? position = some (before.reverse, after) := by
  rw [walkTo?_eq_walk, Text.walk_eq_some_iff]
  exact ⟨before, by simp, text, isAt.symm⟩

theorem clamp_ordered
    (buffer : Buffer)
    (first second : Nat) :
    (buffer.clamp first second).1 ≤ (buffer.clamp first second).2 := by
  simp only [clamp]
  omega

/-- A replacement splices the text. -/
theorem text_replaceRange?_eq_splice?
    (buffer : Buffer)
    (first second : Position)
    (replacement : Text) :
    (buffer.replaceRange? first second replacement).map text =
      buffer.text.splice?
        (buffer.clamp (buffer.offset first) (buffer.offset second)).1
        (buffer.clamp (buffer.offset first) (buffer.offset second)).2
        replacement := by
  have ordered :=
    buffer.clamp_ordered (buffer.offset first) (buffer.offset second)
  rw [text_replaceRange?, splitRange?, text, Text.splice?]
  generalize buffer.clamp (buffer.offset first) (buffer.offset second) = range
    at ordered ⊢
  simp only [GappedText.walkTo?_eq_walk]
  cases isStart : Text.walk [] buffer.content.toText range.1 with
  | none => simp [Text.splitAt?, isStart]
  | some walked =>
    rcases walked with ⟨passed, rest⟩
    rcases Text.walk_eq_some_iff.1 isStart with ⟨taken, rfl, isText, size⟩
    have cut : buffer.content.toText.splitAt? range.1 = some (taken, rest) :=
      Text.splitAt?_eq_some_iff.2 ⟨isText, size⟩
    have further : buffer.content.toText.splitAt? range.2 =
        (rest.splitAt? (range.2 - range.1)).map
          fun parts => (taken ++ parts.1, parts.2) := by
      rw [isText, Text.splitAt?_append_of_ge (by omega), size]
    simp only [cut, further]
    unfold Text.splitAt?
    cases Text.walk [] rest (range.2 - range.1) <;> simp

/--
A replacement leaves the slots alone and moves all live entries by one rule.
-/
theorem live_replaceRange?
    {buffer edited : Buffer}
    {first second : Position}
    {replacement : Text}
    (replaced : buffer.replaceRange? first second replacement = some edited) :
    edited.slots = buffer.slots ∧
    edited.live =
      buffer.live.map fun entry =>
        { entry with
          position :=
            rebase (buffer.clamp (buffer.offset first) (buffer.offset second)).1
              (buffer.clamp (buffer.offset first) (buffer.offset second)).2
              replacement.byteSize edited.size entry.position } := by
  unfold replaceRange? at replaced
  simp only at replaced
  split at replaced
  · cases replaced
  · split at replaced
    · cases replaced
    · cases replaced
      exact ⟨rfl, rfl⟩

theorem linked_replaceRange?
    {buffer edited : Buffer}
    (linked : buffer.Linked)
    {first second : Position}
    {replacement : Text}
    (replaced : buffer.replaceRange? first second replacement = some edited) :
    edited.Linked := by
  rcases live_replaceRange? replaced with ⟨slots, live⟩
  constructor
  · intro index entry found
    rw [live, Array.getElem?_map] at found
    rcases Option.map_eq_some_iff.1 found with ⟨old, isOld, rfl⟩
    rw [slots]
    have known := linked.slot_of_entry isOld
    exact known
  · intro slot index found
    rw [slots] at found
    rcases linked.entry_of_slot found with ⟨old, isOld, rfl⟩
    rw [live, Array.getElem?_map, isOld]
    exact ⟨_, rfl, rfl⟩

theorem livePosition?_replaceRange?
    {buffer edited : Buffer}
    {first second : Position}
    {replacement : Text}
    (replaced : buffer.replaceRange? first second replacement = some edited)
    (mark : Mark) :
    edited.livePosition? mark =
      (buffer.livePosition? mark).map
        (rebase (buffer.clamp (buffer.offset first) (buffer.offset second)).1
          (buffer.clamp (buffer.offset first) (buffer.offset second)).2
          replacement.byteSize edited.size) := by
  rcases live_replaceRange? replaced with ⟨slots, live⟩
  simp only [livePosition?, slots, live, Array.getElem?_map]
  cases buffer.slots[mark.slot]? with
  | none => rfl
  | some slot =>
    cases slot with
    | live index => simp [Function.comp_def]
    | released | invalid => rfl

/-- A replacement between two places in the text succeeds. -/
theorem replaceRange?_of_text
    {buffer : Buffer}
    (linked : buffer.Linked)
    {first second : Position}
    {before within after : Text}
    (text : buffer.text = before ++ (within ++ after))
    (atFirst : buffer.offset first = before.byteSize)
    (atSecond : buffer.offset second = (before ++ within).byteSize)
    (replacement : Text) :
    ∃ edited,
      buffer.replaceRange? first second replacement = some edited ∧
      Edited buffer edited before within after replacement := by
  have texts := buffer.text_replaceRange? first second replacement
  rw [splitRange?_of_text text atFirst atSecond] at texts
  rcases Option.map_eq_some_iff.1 texts with ⟨edited, replaced, isText⟩
  have moved := livePosition?_replaceRange? replaced
  rw [clamp_of_text text atFirst atSecond] at moved
  rcases live_replaceRange? replaced with ⟨slots, live⟩
  exact ⟨edited, replaced, by simpa using isText,
    linked_replaceRange? linked replaced, slots, moved,
    by simp [liveCount, live]⟩

end Buffer

end Mustache
