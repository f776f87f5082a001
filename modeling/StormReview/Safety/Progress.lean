import StormReview.Safety.Signing

/-! Whatever state the pages, the server and the network are in, a handler can still run a case
and have any decision on it recorded. -/
namespace StormReview
open Js Zod Engine

/-- From any state, reached or not, and with no move of the server but those the page asks for:
on any page, a case on file that gates, the DRNs returned in its run being texts, can be run, and
whatever its handler then wishes to decide is recorded for that run, if the log can be written. -/
theorem any_decision_can_be_filed {ι : Type} [DecidableEq ι] (n : Network ι) (i : ι) (wish : Wish)
    (m m' : Moment) (moves : ServerState → ServerState → Prop) (caseId : Text)
    (caseRecord : CaseRecord) (report : AdjusterReport) (hready : Ready m n.server)
    (hfile : OnFile m.world.files caseId caseRecord report)
    (htexts : DrnsAreTexts n.server.env m.world caseId caseRecord report)
    (hgate : needsHuman (demoAlwaysGate n.server.env)
      (gateFlow n.server.env m.world caseId caseRecord report) = true)
    (hready' : Ready m' (postRun m.world caseId m.newId n.server).2)
    (happends : m'.world.faults.appends) :
    ∃ n', Relation.ReflTransGen (Rpc.Step session Ready moves) n n' ∧
      ∃ row, n'.server.disk.log = n.server.disk.log ++ [row] ∧ row.runId = m.newId ∧
        row.caseId = caseId ∧ Signs (wish.data row.review) row := by
  obtain ⟨n', body, -, -, -, -, row, hsteps, hlog, hin, hsigns, hid, hcase, -⟩ :=
    wish_served i wish hready ⟨hfile, htexts⟩ hgate hready' happends
  refine ⟨n', hsteps, row, hlog, hin.runId.trans hid, hin.caseId.trans hcase, ?_⟩
  rw [hin.review]
  exact hsigns

/-- Two pages as they are loaded: on one of them the case is run and its decline overturned. -/
theorem any_decision_can_be_filed_sample : ∃ (n : Network Bool) (row : AuditEntry),
    Relation.ReflTransGen (Rpc.Step session Ready fun _ _ => False)
      (Network.initial (sampleEnv true)) n ∧
      n.server.disk.log = [row] ∧ row.caseId = lit "A" ∧ row.decision = .signed .override := by
  obtain ⟨n, hsteps, row, hlog, -, hcase, hsigns⟩ :=
    any_decision_can_be_filed (Network.initial (sampleEnv true)) true sampleWish
      (sampleMoment (lit "r1")) (sampleMoment (lit "r2")) (fun _ _ => False) (lit "A") sampleCase
      (sampleLoaded .decline) (sample_ready rfl (by decide)) sample_onServing
      sample_servingTexts sample_gates
      (sample_ready_next _ rfl) ⟨rfl, rfl⟩
  exact ⟨n, row, hsteps, hlog, hcase, hsigns.decision⟩

end StormReview
