import Colloquy.Event.Basic

/-!
Fan-out of events. Buffers and channels are numbered, and a hub delivers every event to each of its
sinks in turn; one that fails is passed over.
-/

namespace Colloquy

inductive Sink where
  | memory (buffer : Nat)
  | channel (receiver : Nat)
  | broken
  deriving DecidableEq, Repr

/-- The receiving end of a channel. Once it is closed, nothing is pending and nothing arrives. -/
structure Receiver where
  pending : List Event := []
  closed : Bool := false

inductive SinkFault where
  | brokenPipe (message : String)
  | other (message : String)
  deriving DecidableEq, Repr

structure Hub where
  sinks : List Sink := []
  buffers : List (List Event) := []
  receivers : List Receiver := []

namespace Receiver

def accept (event : Event) (receiver : Receiver) : Receiver :=
  { receiver with pending := receiver.pending ++ [event] }

def close (_receiver : Receiver) : Receiver := { pending := [], closed := true }

end Receiver

namespace Hub

def empty : Hub := {}

def addSink (hub : Hub) (sink : Sink) : Hub := { hub with sinks := hub.sinks ++ [sink] }

def newBuffer (hub : Hub) : Hub := { hub with buffers := hub.buffers ++ [[]] }

def newChannel (hub : Hub) : Hub := { hub with receivers := hub.receivers ++ [{}] }

def addMemory (hub : Hub) : Hub := hub.newBuffer.addSink (.memory hub.buffers.length)

def addChannel (hub : Hub) : Hub := hub.newChannel.addSink (.channel hub.receivers.length)

/-- Starts over with other sinks; buffers and receivers stay. -/
def withSinks (hub : Hub) (sinks : List Sink) : Hub := { hub with sinks }

def buffer (hub : Hub) (i : Nat) : List Event := hub.buffers[i]?.getD []

def receiver (hub : Hub) (i : Nat) : Receiver := hub.receivers[i]?.getD {}

def handle (event : Event) (hub : Hub) : Sink → Except SinkFault Hub
  | .memory buffer => .ok { hub with buffers := hub.buffers.modify buffer (· ++ [event]) }
  | .channel receiver =>
    if (hub.receiver receiver).closed then .error (.brokenPipe "channel receiver dropped")
    else .ok { hub with receivers := hub.receivers.modify receiver (·.accept event) }
  | .broken => .error (.other "disk full")

def deliver (event : Event) (hub : Hub) (sink : Sink) : Hub :=
  match hub.handle event sink with
  | .ok next => next
  | .error _ => hub

def emit (hub : Hub) (event : Event) : Hub := hub.sinks.foldl (deliver event) hub

def clear (hub : Hub) (i : Nat) : Hub := { hub with buffers := hub.buffers.modify i fun _ => [] }

def close (hub : Hub) (i : Nat) : Hub := { hub with receivers := hub.receivers.modify i (·.close) }

def drain (hub : Hub) (i : Nat) : List Event × Hub :=
  ((hub.receiver i).pending,
   { hub with receivers := hub.receivers.modify i fun receiver => { receiver with pending := [] } })

end Hub

namespace Event

def diagnosticsIn (scope : String) (events : List Event) : List Diagnostic :=
  events.filterMap fun event =>
    match event with
    | .diagnostic notice => if notice.scope = scope then some notice else none
    | _ => none

def records (events : List Event) : List RunRecord :=
  events.filterMap fun event =>
    match event with
    | .audit record => some record
    | _ => none

end Event

end Colloquy
