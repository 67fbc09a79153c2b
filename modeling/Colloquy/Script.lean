import Colloquy.Model

/-!
Clients that answer from a script.
-/

namespace Colloquy

/-- Answers with the nodes they are meant for. The answers for one node are given in turn, and the
last one again and again. -/
abbrev Script := List (NodeId × Answer)

namespace Script

def answersFor (script : Script) (node : NodeId) : List Answer :=
  (script.filter (·.1 == node)).map (·.2)

def unscripted (node : NodeId) : Answer :=
  ⟨.error (.invocation s!"no scripted reply for '{node}'"), false⟩

def client (script : Script) : Client := fun earlier request =>
  let answers := script.answersFor request.node
  let turn := earlier.countP (·.node == request.node)
  (answers[min turn (answers.length - 1)]?).getD (unscripted request.node)

end Script

end Colloquy
