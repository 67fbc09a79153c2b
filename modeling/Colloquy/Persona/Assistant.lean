import Colloquy.Persona.Basic
import Colloquy.Persona.Turn
import Colloquy.Run.Basic

/-!
Assistants: a persona that answers turns through its flowcharts.
-/

namespace Colloquy

structure Assistant where
  persona : Persona
  config : EngineConfig := {}

structure Reply where
  text : String
  extracted : Extractions
  trace : Trace
  greeting : Bool

namespace Reply

def extraction? (reply : Reply) (node : NodeId) : Option StructuredValue :=
  (reply.extracted.get? node).bind Extraction.latest?

end Reply

namespace Assistant

def engine (assistant : Assistant) (turn : Turn) : Engine where
  flowchart := if turn.first then assistant.persona.greeting else assistant.persona.conversation
  systemPrompt := assistant.persona.systemPrompt
  config := assistant.config

def reply (assistant : Assistant) (turn : Turn) (outcome : Outcome) : Reply where
  text := assistant.persona.stripSpeaker outcome.output.asText
  extracted := outcome.extracted
  trace := outcome.trace
  greeting := turn.first

def respond (assistant : Assistant) (client : Client) (stamp : RunStamp) (turn : Turn) :
    Except RunError Reply × Transcript :=
  let transcript := (assistant.engine turn).run client stamp turn.render
  (transcript.result.map (assistant.reply turn), transcript)

/-- Replies to several turns; the client remembers the requests of earlier ones. -/
def respondAll (assistant : Assistant) (client : Client) (stamp : RunStamp) :
    List Turn → List (Except RunError Reply × Transcript)
  | [] => []
  | turn :: rest =>
    let (reply, transcript) := assistant.respond client stamp turn
    (reply, transcript) :: assistant.respondAll (client.after transcript.requests) stamp rest

end Assistant

end Colloquy
