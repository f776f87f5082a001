import StormReview.Engine.Slots
import StormReview.Js.Climb
import StormReview.Workflow.Pipeline

/-! A claim note is not overwritten: the file it is written to belongs to its run alone. -/
namespace StormReview
open Js Zod Engine
open Js.Path (slash suffix_join)

/-! The run id can be read off the path of a note, whatever the claim id and the directory. -/

/-- How the path of a note ends. -/
def noteEnding (runId : Text) : Text := lit "-" ++ runId ++ lit ".txt"

theorem notePath_eq (files : Files) (claimId runId : Text) :
    notePath files claimId runId = Path.join [files.notesDir, claimId ++ noteEnding runId] := by
  rw [notePath, noteEnding, List.append_assoc, List.append_assoc, List.append_assoc]

theorem length_noteEnding (runId : Text) : (noteEnding runId).length = runId.length + 5 := by
  have hdash : (lit "-").length = 1 := by decide
  have hext : (lit ".txt").length = 4 := by decide
  rw [noteEnding, List.length_append, List.length_append, hdash, hext]
  omega

theorem noteEnding_inj {runId runId' : Text} (h : noteEnding runId = noteEnding runId') :
    runId = runId' := by
  rw [noteEnding, noteEnding] at h
  exact List.append_cancel_left (List.append_cancel_right h)

theorem noteEnding_isSuffix (files : Files) (claimId : Text) {runId : Text}
    (h : slash ∉ runId) : noteEnding runId <:+ notePath files claimId runId := by
  rw [notePath_eq]
  apply suffix_join
  · simp only [noteEnding, List.mem_append, not_or]
    exact ⟨⟨by decide, h⟩, by decide⟩
  · rw [length_noteEnding]
    omega

theorem runId_of_notePath {files files' : Files} {claimId claimId' runId runId' : Text}
    (hslash : slash ∉ runId) (hslash' : slash ∉ runId') (hlen : runId.length = runId'.length)
    (h : notePath files claimId runId = notePath files' claimId' runId') : runId = runId' := by
  have hends := noteEnding_isSuffix files claimId hslash
  have hends' := noteEnding_isSuffix files' claimId' hslash'
  rw [← h] at hends'
  have hlen' : (noteEnding runId).length = (noteEnding runId').length := by
    rw [length_noteEnding, length_noteEnding, hlen]
  apply noteEnding_inj
  exact (List.suffix_of_suffix_length_le hends hends' (Nat.le_of_eq hlen')).eq_of_length hlen'

/-! Record steps in a row. -/

/-- A run at its record step. -/
structure RecordStep where
  env : Env
  world : World
  runId : Text
  flow : Flow

namespace RecordStep

def outcome (s : RecordStep) (disk : AuditDisk) : StepOutcome :=
  (record s.env s.world s.runId s.flow disk).1

def left (s : RecordStep) (disk : AuditDisk) : AuditDisk :=
  (record s.env s.world s.runId s.flow disk).2

def path (s : RecordStep) : Text := notePathOf s.world s.runId s.flow

def text (s : RecordStep) : Text := noteText s.runId s.flow (decisionOf s.flow)

end RecordStep

/-- A record step leaves every note but its own as it was. -/
theorem record_slotted : Slots.Slotted AuditDisk.notes RecordStep.path RecordStep.left := by
  intro s disk p hp
  rw [RecordStep.left]
  rcases record_cases s.env s.world s.runId s.flow disk with
    ⟨-, e, h⟩ | ⟨-, ⟨-, e, h⟩ | ⟨-, h⟩⟩
  · rw [h]
  · rw [h]
    rfl
  · rw [h]
    exact Function.update_of_ne (Ne.symm hp) _ _

/-- A record step that goes on has written its note, and says where. -/
theorem record_writes (s : RecordStep) {disk : AuditDisk} {flow : Flow}
    (hnext : s.outcome disk = .next flow) :
    flow.audit.map (·.notePath) = some s.path ∧ (s.left disk).notes s.path = some s.text := by
  rw [RecordStep.outcome] at hnext
  rw [RecordStep.left]
  rcases record_cases s.env s.world s.runId s.flow disk with
    ⟨-, e, h⟩ | ⟨-, ⟨-, e, h⟩ | ⟨-, h⟩⟩
  · rw [h] at hnext
    cases hnext
  · rw [h] at hnext
    cases hnext
  · rw [h] at hnext
    obtain rfl := Outcome.next.inj hnext
    rw [h]
    exact ⟨rfl, Function.update_self _ _ _⟩

/-- Over any record steps of different runs no two notes share a path, and each note that was
written is on the disk at the end, where its run says, with the text its own run wrote. -/
theorem notes_not_overwritten (steps : List RecordStep) (disk : AuditDisk) (n : Nat)
    (hids : (steps.map RecordStep.runId).Nodup) (hlen : ∀ s ∈ steps, s.runId.length = n)
    (hslash : ∀ s ∈ steps, slash ∉ s.runId) :
    (steps.map RecordStep.path).Nodup ∧
      ∀ before s later flow, steps = before ++ s :: later →
        s.outcome (Slots.run RecordStep.left before disk) = .next flow →
        flow.audit.map (·.notePath) = some s.path ∧
          (Slots.run RecordStep.left steps disk).notes s.path = some s.text := by
  have hpaths : (steps.map RecordStep.path).Nodup := by
    apply (List.Nodup.of_map _ hids).map_on
    intro s hs t ht hpath
    apply List.inj_on_of_nodup_map hids hs ht
    exact runId_of_notePath (hslash s hs) (hslash t ht) (by rw [hlen s hs, hlen t ht]) hpath
  refine ⟨hpaths, ?_⟩
  rintro before s later flow rfl hnext
  rw [record_slotted.run_own hpaths]
  exact record_writes s hnext

/-- The record step of the sample case, for a claim of any name. -/
def sampleStep (runId claimId : Text) : RecordStep where
  env := sampleEnv true
  world := sampleWorld (sampleFiles .decline (some sampleWeather) none) .undefined
  runId := runId
  flow :=
    { gateFlow (sampleEnv true) (sampleWorld (sampleFiles .decline (some sampleWeather) none)
        .undefined) (lit "A") sampleCase (sampleLoaded .decline) with claimId := some claimId }

/-- The second claim id climbs back to the first note. -/
theorem notes_not_overwritten_sample :
    let first := sampleStep (lit "a-1") (lit "CLM")
    let second := sampleStep (lit "b-2") (lit "x/../CLM-a-1.txt/../CLM-a")
    first.path ≠ second.path ∧ (∃ flow, first.outcome emptyDisk = .next flow) ∧
      (Slots.run RecordStep.left [first, second] emptyDisk).notes first.path =
        some first.text := by
  intro first second
  have key := notes_not_overwritten [first, second] emptyDisk 3 (by decide) (by decide) (by decide)
  refine ⟨?_, ⟨_, rfl⟩, (key.2 [] first [second] _ rfl rfl).2⟩
  simpa using key.1

end StormReview
