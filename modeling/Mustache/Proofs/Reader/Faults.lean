import Mustache.Accessor
import Mustache.Proofs.Reader.Pairing
import Mustache.Proofs.Scan.Fault
import Mustache.Proofs.Scan.Tags

/-!
# Reading a template to its end reports its fault

Checking a template reads and releases node after node, and inspecting it looks
at the data for each of them.  Neither edits the buffer, so both end as a survey
of the template ends: with the same fault, or without one (`validate_reports`,
`inspect_reports`).  The check gives the line of the fault, too: the line breaks
before its tag are counted (`validate_eq_faultIn`).
-/

namespace Mustache

/--
A fault is reported by an error of its kind with its tag, and no other error is
reported.
-/
def Reports {α : Type} (fault : Option Fault) : Except RenderError α → Prop
  | .ok _ => fault = none
  | .error error =>
    ∃ reported, fault = some reported ∧ error.fault? = some reported

namespace Reader

variable
    {reader after : Reader}
    {passed unread skipped rest : Text}
    {block : Block}
    {node : Node}
    {delimiters : Delimiters}

/-- A reader stands where it stood after it let go of a node. -/
theorem NodeTook.release
    (standing : reader.At passed unread)
    (took : NodeTook reader after passed skipped rest block node) :
    (node.release after).At (passed ++ (skipped ++ block.source)) rest := by
  cases took with
  | leaf took => exact took.standing.release _ (took.after_notMem standing)
  | paired took closed =>
    rename_i opener closer body left openerToken closerToken between
    have known := Buffer.slot_lt_of_livePosition? standing.cursor_eq
    have fresh := closed.start_fresh
    rw [took.slots_eq] at fresh
    have notOpener : after.cursor ∉ openerToken.marks := by
      rw [closed.cursor_eq]
      exact took.after_notMem standing
    have notCloser : after.cursor ∉ closerToken.marks := by
      rw [closed.cursor_eq, took.cursor_eq]
      have stop := closed.stop_eq
      intro own
      rcases List.mem_cons.1 own with same | own
      · rw [same] at known
        omega
      · rw [List.mem_singleton.1 own] at known
        omega
    have standingAfter :
        after.At
          (passed ++ (skipped ++ (Block.paired opener body closer).source))
          rest := by
      simpa only [Block.source, List.append_assoc] using closed.standing
    exact (standingAfter.release openerToken notOpener).release closerToken
      notCloser

theorem checkFrom_reports
    (standing : reader.At passed unread)
    (delimiters : Delimiters)
    {budget : Nat}
    (enough : unread.length < budget) :
    Reports (survey delimiters [] unread).2
      (checkFrom budget reader delimiters) := by
  induction budget generalizing reader passed unread delimiters with
  | zero => cases enough
  | succ budget ih =>
    rw [checkFrom]
    cases result : scanNode delimiters unread with
    | finished =>
      rcases nextNode_of_finished standing result with ⟨after, read, -⟩
      simp only [read, survey_of_node_finished result]
      rfl
    | faulty before fault =>
      rcases nextNode_of_faulty standing result with ⟨after, read⟩
      simp only [read, survey_of_node_faulty result]
      exact ⟨fault, rfl, fault.fault?_onLine _⟩
    | found skipped block final rest =>
      rcases nextNode_of_found standing result with ⟨node, after, read, took⟩
      rcases survey_of_node_found result with ⟨tags, -, surveyed⟩
      have shorter := length_lt_of_scanNode result
      simp only [read, surveyed]
      exact ih (took.release standing) final (by omega)

/-- The line behind a node, once its marks were let go. -/
theorem NodeTook.line_release
    (took : NodeTook reader after passed skipped rest block node) :
    (node.release after).line =
      reader.line +
        (skipped ++ block.source).lineBreaksAfter passed.getLast? := by
  cases took with
  | leaf took => exact took.line_after
  | paired took closed =>
    have line := closed.line_after
    rw [took.line_after, Nat.add_assoc, List.getLast?_append,
      ← Text.lineBreaksAfter_append] at line
    simp only [Block.source]
    rw [← List.append_assoc]
    exact line

theorem checkFrom_eq_faultIn
    (standing : reader.At passed unread)
    (delimiters : Delimiters)
    {budget : Nat}
    (enough : unread.length < budget) :
    checkFrom budget reader delimiters =
      match faultIn delimiters unread with
      | none => .ok ()
      | some (before, fault) =>
        .error
          (fault.onLine
            (reader.line + before.lineBreaksAfter passed.getLast?)) := by
  induction budget generalizing reader passed unread delimiters with
  | zero => cases enough
  | succ budget ih =>
    rw [checkFrom]
    cases result : scanNode delimiters unread with
    | finished =>
      rcases nextNode_of_finished standing result with ⟨after, read, -⟩
      simp only [read, faultIn_of_finished result]
    | faulty before fault =>
      rcases nextNode_of_faulty standing result with ⟨after, read⟩
      simp only [read, faultIn_of_faulty result]
    | found skipped block final rest =>
      rcases nextNode_of_found standing result with ⟨node, after, read, took⟩
      have shorter := length_lt_of_scanNode result
      simp only [read, faultIn_of_found result,
        ih (took.release standing) final (by omega : rest.length < budget),
        took.line_release]
      rcases faultIn final rest with _ | ⟨before, fault⟩
      · rfl
      · simp only [Option.map_some]
        rw [List.getLast?_append, Nat.add_assoc, ← Text.lineBreaksAfter_append,
          List.append_assoc]

theorem inspectRest_reports
    (lambdas : Lambdas)
    (stack : ContextStack)
    (partials : Partials)
    (standing : reader.At passed unread)
    (delimiters : Delimiters)
    {budget : Nat}
    (enough : unread.length < budget)
    (accessors : Array Accessor)
    (store : Store) :
    Reports (survey delimiters [] unread).2
      (inspectRest lambdas stack partials budget reader delimiters accessors
        store).1 := by
  induction budget generalizing reader passed unread delimiters accessors store
    with
  | zero => cases enough
  | succ budget ih =>
    rw [inspectRest]
    cases result : scanNode delimiters unread with
    | finished =>
      rcases nextNode_of_finished standing result with ⟨after, read, -⟩
      simp only [read, survey_of_node_finished result]
      rfl
    | faulty before fault =>
      rcases nextNode_of_faulty standing result with ⟨after, read⟩
      simp only [read, survey_of_node_faulty result]
      exact ⟨fault, rfl, fault.fault?_onLine _⟩
    | found skipped block final rest =>
      rcases nextNode_of_found standing result with ⟨node, after, read, took⟩
      rcases survey_of_node_found result with ⟨tags, -, surveyed⟩
      have shorter := length_lt_of_scanNode result
      simp only [read, surveyed]
      split
      · exact ih took.standing final (by omega) _ _
      · exact ih took.standing final (by omega) accessors store

end Reader

theorem validate_reports
    (template : Text)
    (delimiters : Delimiters) :
    Reports (survey delimiters [] template).2 (validate template delimiters) :=
  Reader.checkFrom_reports (Reader.at_ofText template) delimiters
    (Nat.lt_succ_self _)

/--
The check reports the first fault of a template, on the line that the tag starts
on.
-/
theorem validate_eq_faultIn
    (template : Text)
    (delimiters : Delimiters) :
    validate template delimiters =
      match faultIn delimiters template with
      | none => .ok ()
      | some (before, fault) =>
        .error (fault.onLine (1 + before.countLineBreaks)) := by
  simp only [Text.countLineBreaks_eq]
  exact Reader.checkFrom_eq_faultIn (Reader.at_ofText template) delimiters
    (Nat.lt_succ_self _)

theorem inspect_reports
    (lambdas : Lambdas)
    (template : Text)
    (data : Value)
    (partials : Partials)
    (delimiters : Delimiters)
    (store : Store) :
    Reports (survey delimiters [] template).2
      (inspect lambdas template data partials delimiters store).1 :=
  Reader.inspectRest_reports lambdas (.ofRoot data) partials
    (Reader.at_ofText template) delimiters (Nat.lt_succ_self _) #[] store

end Mustache
