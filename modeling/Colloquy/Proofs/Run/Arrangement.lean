import Colloquy.Proofs.Flowchart.Arrangement
import Colloquy.Proofs.Run.Walk

/-!
What a run takes of its flowchart is the start, the nodes by their ids and the loop continues by
their loops. Flowcharts that agree on these make the same runs, and so do those of specs that were
declared in another order.
-/

namespace Colloquy

namespace Engine

def withFlowchart (engine : Engine) (flowchart : Flowchart) : Engine := { engine with flowchart }

variable (engine : Engine) {other : Flowchart}

theorem enterLoop_withFlowchart (agrees : engine.flowchart.Agrees other) :
    (engine.withFlowchart other).enterLoop = engine.enterLoop := by
  funext node iterator field state
  simp only [enterLoop, withFlowchart, agrees.closer]

theorem visit_withFlowchart (agrees : engine.flowchart.Agrees other) :
    (engine.withFlowchart other).visit = engine.visit := by
  funext node step state
  simp only [visit, engine.enterLoop_withFlowchart agrees]
  rfl

theorem settle_withFlowchart (other : Flowchart) :
    (engine.withFlowchart other).settle = engine.settle := by
  funext client node journal visit
  cases visit <;> rfl

theorem drive_withFlowchart (agrees : engine.flowchart.Agrees other) (client : Client)
    (runId : RunId) (remaining : Nat) (current : NodeId) (state : RunState) (journal : Journal) :
    (engine.withFlowchart other).drive client runId remaining current state journal =
      engine.drive client runId remaining current state journal := by
  induction remaining generalizing current state journal with
  | zero => rfl
  | succ remaining ih =>
    have node : (engine.withFlowchart other).flowchart.node? current =
        engine.flowchart.node? current := (agrees.node current).symm
    rw [drive, drive, node]
    cases engine.flowchart.node? current with
    | none => rfl
    | some node =>
      dsimp only
      rw [settle_withFlowchart, engine.visit_withFlowchart agrees]
      rcases engine.settle client node.id journal
        (engine.visit node journal.trace.length state) with ⟨after, error | visited⟩
      · rfl
      · dsimp only
        cases visited.next with
        | finish output => rfl
        | node next => exact ih next visited.state (after.visited visited)

theorem run_withFlowchart (agrees : engine.flowchart.Agrees other) (client : Client)
    (stamp : RunStamp) (input : String) :
    (engine.withFlowchart other).run client stamp input = engine.run client stamp input := by
  have start : (engine.withFlowchart other).flowchart.start = engine.flowchart.start :=
    agrees.start.symm
  have driven := engine.drive_withFlowchart agrees client stamp.runId engine.config.maxSteps
    engine.flowchart.start { input } {}
  simp only [run, start]
  rw [← driven]
  rfl

end Engine

/-- Whether specs compile does not depend on their order, nor does anything that a run could see of
what they compile to: whatever the client, the same is sent, emitted, recorded and handed back. -/
theorem declaration_order_is_irrelevant {specs arranged : List NodeSpec}
    (perm : specs.Perm arranged) :
    ((∃ flowchart, Flowchart.compile specs = .ok flowchart) ↔
      ∃ flowchart, Flowchart.compile arranged = .ok flowchart) ∧
    ∀ flowchart other, Flowchart.compile specs = .ok flowchart →
      Flowchart.compile arranged = .ok other →
      flowchart.Agrees other ∧
      ∀ (engine : Engine) (client : Client) (stamp : RunStamp) (input : String),
        (engine.withFlowchart other).run client stamp input =
          (engine.withFlowchart flowchart).run client stamp input := by
  refine ⟨⟨Flowchart.compile_arranged perm, Flowchart.compile_arranged perm.symm⟩, ?_⟩
  intro flowchart other compiled rearranged
  have agrees := Flowchart.agrees_of_perm perm compiled rearranged
  refine ⟨agrees, ?_⟩
  intro engine client stamp input
  let first := engine.withFlowchart flowchart
  have same : first.flowchart.Agrees other := agrees
  exact first.run_withFlowchart same client stamp input

theorem rollCall_reversed :
    rollCall.Perm rollCall.reverse ∧
    Flowchart.compile rollCall = .ok RollCall.flowchart ∧
    Flowchart.compile rollCall.reverse = .ok { RollCall.flowchart with
      nodes := RollCall.flowchart.nodes.reverse } ∧
    RollCall.flowchart.Agrees { RollCall.flowchart with
      nodes := RollCall.flowchart.nodes.reverse } := by
  have perm := rollCall.reverse_perm.symm
  have reversed : Flowchart.compile rollCall.reverse = .ok { RollCall.flowchart with
      nodes := RollCall.flowchart.nodes.reverse } := by
    simp only [Flowchart.compile, bind_ok_iff]
    refine ⟨(), rfl, (), rfl, _, rfl, _, rfl, _, rfl, (), rfl, (), ?_, (), rfl, rfl⟩
    exact Flowchart.checkCycles_of_order ["ask", "each", "call", "next", "end"] (by decide)
  exact ⟨perm, RollCall.compiles, reversed,
    ((declaration_order_is_irrelevant perm).2 _ _ RollCall.compiles reversed).1⟩

end Colloquy
