import Colloquy.Event.Hub
import Mathlib.Data.List.DropRight
import Mathlib.Data.List.Induction

/-!
What a hub delivers over time. Every sink hears for itself: what arrives in a buffer or at a
receiver is a matter of the events and of the sinks that lead there, whatever becomes of the others.
-/

namespace Colloquy

namespace Hub

def Leads (hub : Hub) : Sink → Prop
  | .memory i => i < hub.buffers.length
  | .channel i => i < hub.receivers.length
  | .broken => True

def deaf (hub : Hub) : Sink → Bool
  | .memory _ => false
  | .channel i => (hub.receiver i).closed
  | .broken => true

@[simp]
def inbox (hub : Hub) : Sink → List Event
  | .memory i => hub.buffer i
  | .channel i => (hub.receiver i).pending
  | .broken => []

section

variable {hub next : Hub} {event : Event} {sink other : Sink} {i j : Nat}

/-! ### Buffers and receivers by their numbers -/

theorem buffer_modify {f : List Event → List Event} (inside : j < hub.buffers.length) :
    buffer { hub with buffers := hub.buffers.modify j f } i =
      if j = i then f (hub.buffer i) else hub.buffer i := by
  by_cases same : j = i
  · subst same
    simp [buffer, inside]
  · simp [buffer, same]

theorem receiver_modify {f : Receiver → Receiver} (inside : j < hub.receivers.length) :
    receiver { hub with receivers := hub.receivers.modify j f } i =
      if j = i then f (hub.receiver i) else hub.receiver i := by
  by_cases same : j = i
  · subst same
    simp [receiver, inside]
  · simp [receiver, same]

@[simp]
theorem buffer_newBuffer : hub.newBuffer.buffer i = hub.buffer i := by
  simp only [newBuffer, buffer, List.getElem?_append]
  split
  · rfl
  · rename_i outside
    rw [List.getElem?_eq_none (Nat.le_of_not_lt outside)]
    cases i - hub.buffers.length <;> rfl

@[simp]
theorem receiver_newChannel : hub.newChannel.receiver i = hub.receiver i := by
  simp only [newChannel, receiver, List.getElem?_append]
  split
  · rfl
  · rename_i outside
    rw [List.getElem?_eq_none (Nat.le_of_not_lt outside)]
    cases i - hub.receivers.length <;> rfl

theorem buffer_clear (inside : j < hub.buffers.length) :
    (hub.clear j).buffer i = if j = i then [] else hub.buffer i :=
  buffer_modify inside

theorem receiver_close (inside : j < hub.receivers.length) :
    (hub.close j).receiver i = if j = i then ⟨[], true⟩ else hub.receiver i :=
  receiver_modify inside

theorem receiver_drain (inside : j < hub.receivers.length) : (hub.drain j).2.receiver i =
    if j = i then { hub.receiver i with pending := [] } else hub.receiver i :=
  receiver_modify inside

/-! ### One event for one sink -/

theorem deaf_iff_handle_error :
    hub.deaf sink = true ↔ ∃ fault, hub.handle event sink = .error fault := by
  cases sink with
  | memory i => simp [deaf, handle]
  | channel i => by_cases closed : (hub.receiver i).closed <;> simp [deaf, handle, closed]
  | broken => simp [deaf, handle]

theorem deliver_deaf (deaf : hub.deaf sink = true) : hub.deliver event sink = hub := by
  obtain ⟨fault, failed⟩ := deaf_iff_handle_error.mp deaf
  rw [deliver, failed]

/-- A sink that does not fail changes what it leads to, and nothing else. -/
inductive Takes (hub : Hub) (event : Event) : Sink → Hub → Prop
  | memory (i : Nat) : Takes hub event (.memory i)
      { hub with buffers := hub.buffers.modify i (· ++ [event]) }
  | channel {i : Nat} (live : (hub.receiver i).closed = false) : Takes hub event (.channel i)
      { hub with receivers := hub.receivers.modify i (·.accept event) }

theorem deliver_cases (hub : Hub) (event : Event) (sink : Sink) :
    (hub.deaf sink = true ∧ hub.deliver event sink = hub) ∨
      (hub.deaf sink = false ∧ hub.Takes event sink (hub.deliver event sink)) := by
  cases sink with
  | memory i => exact .inr ⟨rfl, .memory i⟩
  | channel i =>
    by_cases closed : (hub.receiver i).closed
    · exact .inl ⟨closed, deliver_deaf closed⟩
    · refine .inr ⟨by simpa [deaf] using closed, ?_⟩
      simp only [deliver, handle, closed]
      exact .channel (by simpa using closed)
  | broken => exact .inl ⟨rfl, rfl⟩

structure Alike (hub next : Hub) : Prop where
  sinks : next.sinks = hub.sinks
  leads : ∀ sink, next.Leads sink ↔ hub.Leads sink
  deaf : ∀ sink, next.deaf sink = hub.deaf sink

theorem Alike.refl (hub : Hub) : hub.Alike hub := ⟨rfl, fun _ => .rfl, fun _ => rfl⟩

theorem Alike.trans {last : Hub} (first : hub.Alike next) (second : next.Alike last) :
    hub.Alike last where
  sinks := second.sinks.trans first.sinks
  leads sink := (second.leads sink).trans (first.leads sink)
  deaf sink := (second.deaf sink).trans (first.deaf sink)

theorem Takes.alike (takes : hub.Takes event sink next) (leads : hub.Leads sink) :
    hub.Alike next := by
  refine ⟨?_, fun other => ?_, fun other => ?_⟩
  · cases takes <;> rfl
  · cases takes <;> cases other <;> simp [Leads]
  · cases takes with
    | memory i => cases other <;> rfl
    | @channel i live =>
      cases other with
      | channel j =>
        rw [Hub.deaf, Hub.deaf, receiver_modify leads]
        split <;> rfl
      | _ => rfl

theorem Takes.inbox (takes : hub.Takes event sink next) (leads : hub.Leads sink) :
    next.inbox other = hub.inbox other ++ if sink = other then [event] else [] := by
  cases takes with
  | memory i =>
    cases other with
    | memory j =>
      rw [Hub.inbox, Hub.inbox, buffer_modify leads]
      by_cases same : i = j <;> simp [same]
    | _ => simp [Hub.inbox, receiver]
  | @channel i live =>
    cases other with
    | channel j =>
      rw [Hub.inbox, Hub.inbox, receiver_modify leads]
      by_cases same : i = j <;> simp [same, Receiver.accept]
    | _ => simp [Hub.inbox, buffer]

/-! ### One event for all sinks -/

theorem deliver_alike (leads : hub.Leads sink) : hub.Alike (hub.deliver event sink) := by
  rcases hub.deliver_cases event sink with ⟨-, same⟩ | ⟨-, takes⟩
  · rw [same]
    exact .refl hub
  · exact takes.alike leads

theorem inbox_deliver (leads : hub.Leads sink) (hears : hub.deaf other = false) :
    (hub.deliver event sink).inbox other =
      hub.inbox other ++ if sink = other then [event] else [] := by
  rcases hub.deliver_cases event sink with ⟨deaf, same⟩ | ⟨-, takes⟩
  · have apart : sink ≠ other := by
      rintro rfl
      simp [hears] at deaf
    rw [same, if_neg apart, List.append_nil]
  · exact takes.inbox leads

/-- A sink that does not fail takes an event once for each time that it stands among the sinks. -/
theorem foldl_deliver {sinks : List Sink} (leads : ∀ sink ∈ sinks, hub.Leads sink) :
    hub.Alike (sinks.foldl (deliver event) hub) ∧ ∀ other, hub.deaf other = false →
      (sinks.foldl (deliver event) hub).inbox other =
        hub.inbox other ++ List.replicate (sinks.count other) event := by
  induction sinks generalizing hub with
  | nil => exact ⟨.refl hub, fun _ _ => by simp⟩
  | cons sink rest ih =>
    obtain ⟨first, later⟩ := List.forall_mem_cons.mp leads
    have alike : hub.Alike (hub.deliver event sink) := deliver_alike first
    obtain ⟨kept, heard⟩ := ih fun next member => (alike.leads next).mpr (later next member)
    refine ⟨alike.trans kept, fun other hears => ?_⟩
    rw [List.foldl_cons, heard other ((alike.deaf other).trans hears), inbox_deliver first hears,
      List.append_assoc, List.count_cons]
    by_cases same : sink = other
    · simp [same, List.replicate_succ]
    · simp [same]

def Sound (hub : Hub) : Prop := ∀ sink ∈ hub.sinks, hub.Leads sink

theorem Sound.emit_alike (sound : hub.Sound) (event : Event) : hub.Alike (hub.emit event) :=
  (foldl_deliver sound).1

theorem Sound.inbox_emit (sound : hub.Sound) (hears : hub.deaf sink = false) :
    (hub.emit event).inbox sink =
      hub.inbox sink ++ List.replicate (hub.sinks.count sink) event :=
  (foldl_deliver sound).2 sink hears

end

inductive Change where
  | newBuffer
  | newChannel
  | add (sink : Sink)
  | emit (event : Event)
  | clear (buffer : Nat)
  | close (receiver : Nat)
  | drain (receiver : Nat)

namespace Change

def Possible (hub : Hub) : Change → Prop
  | .add sink => hub.Leads sink
  | .clear i => i < hub.buffers.length
  | .close i | .drain i => i < hub.receivers.length
  | _ => True

instance (hub : Hub) (change : Change) : Decidable (change.Possible hub) :=
  match change with
  | .add (.memory i) => inferInstanceAs (Decidable (i < hub.buffers.length))
  | .add (.channel i) => inferInstanceAs (Decidable (i < hub.receivers.length))
  | .add .broken => inferInstanceAs (Decidable True)
  | .clear i => inferInstanceAs (Decidable (i < hub.buffers.length))
  | .close i => inferInstanceAs (Decidable (i < hub.receivers.length))
  | .drain i => inferInstanceAs (Decidable (i < hub.receivers.length))
  | .newBuffer | .newChannel | .emit _ => inferInstanceAs (Decidable True)

@[simp]
def added? : Change → Option Sink
  | .add sink => some sink
  | _ => none

@[simp]
def event? : Change → Option Event
  | .emit event => some event
  | _ => none

@[simp]
def clears (sink : Sink) : Change → Bool
  | .clear i => sink == .memory i
  | _ => false

@[simp]
def copies (times : Nat) : Change → List Event
  | .emit event => List.replicate times event
  | _ => []

end Change

/-- A hub and what has been drained from its receivers. -/
structure Session where
  hub : Hub := .empty
  drained : List (Nat × Event) := []

namespace Session

@[simp]
def given (session : Session) : Sink → List Event
  | .channel i => (session.drained.filter (·.1 == i)).map (·.2)
  | _ => []

def heard (session : Session) (sink : Sink) : List Event :=
  session.given sink ++ session.hub.inbox sink

@[simp]
def next (session : Session) : Change → Session
  | .newBuffer => { session with hub := session.hub.newBuffer }
  | .newChannel => { session with hub := session.hub.newChannel }
  | .add sink => { session with hub := session.hub.addSink sink }
  | .emit event => { session with hub := session.hub.emit event }
  | .clear i => { session with hub := session.hub.clear i }
  | .close i => { session with hub := session.hub.close i }
  | .drain i =>
    ⟨(session.hub.drain i).2, session.drained ++ (session.hub.drain i).1.map fun event => (i, event)⟩

def step (session : Session) (change : Change) : Option Session :=
  if change.Possible session.hub then some (session.next change) else none

def run (history : List Change) : Option Session := history.foldlM step {}

section

variable {session outcome : Session} {change : Change} {history : List Change} {sink : Sink}

theorem run_concat_iff : run (history ++ [change]) = some outcome ↔
    ∃ session, run history = some session ∧ change.Possible session.hub ∧
      session.next change = outcome := by
  simp only [run, List.foldlM_append, List.foldlM_cons, List.foldlM_nil, bind_pure,
    Option.bind_eq_bind, Option.bind_eq_some_iff, step, Option.ite_none_right_eq_some,
    Option.some_inj]

/-! ### One change -/

theorem sinks_next (sound : session.hub.Sound) :
    (session.next change).hub.sinks = session.hub.sinks ++ change.added?.toList := by
  cases change with
  | add sink => rfl
  | emit event => simpa using (sound.emit_alike event).sinks
  | _ => simp [newBuffer, newChannel, Hub.clear, Hub.close, Hub.drain]

theorem leads_next (sound : session.hub.Sound) (leads : session.hub.Leads sink) :
    (session.next change).hub.Leads sink := by
  cases change with
  | emit event => exact ((sound.emit_alike event).leads sink).mpr leads
  | newBuffer | newChannel =>
    cases sink <;> simp only [Leads, next, newBuffer, newChannel, List.length_append] at leads ⊢ <;>
      omega
  | add other => cases sink <;> exact leads
  | clear i | close i | drain i =>
    cases sink <;> simp_all [Leads, next, Hub.clear, Hub.close, Hub.drain]

theorem sound_next (sound : session.hub.Sound) (possible : change.Possible session.hub) :
    (session.next change).hub.Sound := by
  intro sink member
  rw [sinks_next sound] at member
  apply leads_next sound
  rcases List.mem_append.mp member with before | new
  · exact sound sink before
  · cases change with
    | add other =>
      obtain rfl : sink = other := by simpa using new
      exact possible
    | _ => simp at new

theorem deaf_next (sound : session.hub.Sound) (possible : change.Possible session.hub)
    (hears : (session.next change).hub.deaf sink = false) : session.hub.deaf sink = false := by
  cases sink with
  | memory i => rfl
  | broken => cases hears
  | channel i =>
    cases change with
    | emit event => exact ((sound.emit_alike event).deaf _).symm.trans hears
    | newChannel => simpa [deaf] using hears
    | close j =>
      rw [deaf, next, receiver_close possible] at hears
      split at hears
      · cases hears
      · exact hears
    | drain j =>
      rw [deaf, next, receiver_drain possible] at hears
      split at hears <;> exact hears
    | _ => exact hears

/-- What happens to one sink is that it is told of events and that what it leads to is cleared. -/
theorem heard_next (sound : session.hub.Sound) (possible : change.Possible session.hub)
    (hears : (session.next change).hub.deaf sink = false) :
    (session.next change).heard sink = if change.clears sink then [] else
      session.heard sink ++ change.copies (session.hub.sinks.count sink) := by
  -- Only an event reaches several sinks at once; any other change is about one place at most.
  cases change with
  | emit event =>
    change session.given sink ++ (session.hub.emit event).inbox sink = _
    rw [sound.inbox_emit (deaf_next sound possible hears), ← List.append_assoc]
    rfl
  | clear j =>
    cases sink with
    | memory i =>
      by_cases same : i = j
      · subst same
        simp [heard, buffer_clear possible]
      · simp [heard, buffer_clear possible, same, Ne.symm same]
    | _ => exact (List.append_nil _).symm
  | close j =>
    cases sink with
    | channel i =>
      have apart : j ≠ i := by
        rintro rfl
        simp [deaf, receiver_close possible] at hears
      simp [heard, receiver_close possible, apart]
    | _ => exact (List.append_nil _).symm
  | drain j =>
    have drained : (session.hub.drain j).1 = (session.hub.receiver j).pending := rfl
    cases sink with
    | channel i =>
      by_cases same : j = i
      · subst same
        simp [heard, receiver_drain possible, drained, List.filter_map, Function.comp_def]
      · simp [heard, receiver_drain possible, same, List.filter_map, Function.comp_def]
    | _ => exact (List.append_nil _).symm
  | newBuffer | newChannel | add =>
    cases sink <;> simp [heard] <;> rfl

end

end Session

/-! ### A whole history -/

def added (history : List Change) : List Sink := history.filterMap Change.added?

def events (history : List Change) : List Event := history.filterMap Change.event?

/-- What a sink is told in the later part of a history: every event, once for each time that the
sink has been added before it. -/
def told (sink : Sink) (earlier : List Change) : List Change → List Event
  | [] => []
  | change :: later =>
    change.copies ((added earlier).count sink) ++ told sink (earlier ++ [change]) later

def untilCleared (sink : Sink) (history : List Change) : List Change :=
  history.rdropWhile (!·.clears sink)

def sinceCleared (sink : Sink) (history : List Change) : List Change :=
  history.rtakeWhile (!·.clears sink)

section

variable {sink : Sink} {earlier later history : List Change} {change : Change}

theorem added_concat : added (history ++ [change]) = added history ++ change.added?.toList := by
  rw [added, List.filterMap_append]
  cases change <;> rfl

theorem told_concat : told sink earlier (later ++ [change]) =
    told sink earlier later ++ change.copies ((added (earlier ++ later)).count sink) := by
  induction later generalizing earlier with
  | nil => simp [told]
  | cons first rest ih => simp [told, ih]

def toldSince (sink : Sink) (history : List Change) : List Event :=
  told sink (untilCleared sink history) (sinceCleared sink history)

theorem toldSince_concat : toldSince sink (history ++ [change]) = if change.clears sink then [] else
    toldSince sink history ++ change.copies ((added history).count sink) := by
  unfold toldSince untilCleared sinceCleared
  rw [List.rdropWhile_concat, List.rtakeWhile_concat]
  cases cleared : change.clears sink with
  | true => rfl
  | false =>
    simp only [Bool.not_false, if_true, Bool.false_eq_true, if_false, told_concat,
      List.rdropWhile_append_rtakeWhile]

theorem sinceCleared_channel {i : Nat} : sinceCleared (.channel i) history = history :=
  List.rtakeWhile_eq_self_iff.mpr fun change _ => by cases change <;> rfl

theorem toldSince_channel {i : Nat} :
    toldSince (.channel i) history = told (.channel i) [] history := by
  have never : untilCleared (.channel i) history = [] :=
    List.rdropWhile_eq_nil_iff.mpr fun change _ => by cases change <;> rfl
  rw [toldSince, sinceCleared_channel, never]

theorem events_sinceCleared_concat : events (sinceCleared sink (history ++ [change])) =
    if change.clears sink then [] else events (sinceCleared sink history) ++ change.copies 1 := by
  rw [sinceCleared, List.rtakeWhile_concat]
  cases cleared : change.clears sink with
  | true => rfl
  | false =>
    simp only [Bool.not_false, if_true, Bool.false_eq_true, if_false, events, List.filterMap_append]
    cases change <;> rfl

theorem toldSince_eq_nil (never : sink ∉ added history) : toldSince sink history = [] := by
  induction history using List.reverseRecOn with
  | nil => rfl
  | append_singleton history change ih =>
    rw [added_concat, List.mem_append, not_or] at never
    rw [toldSince_concat, ih never.1, List.count_eq_zero.mpr never.1]
    cases change <;> simp

theorem toldSince_eq_events (before : sink ∉ added earlier) (after : sink ∉ added later) :
    toldSince sink (earlier ++ .add sink :: later) = events (sinceCleared sink later) := by
  induction later using List.reverseRecOn with
  | nil =>
    rw [toldSince_concat, toldSince_eq_nil before]
    rfl
  | append_singleton later change ih =>
    rw [added_concat, List.mem_append, not_or] at after
    have once : (added (earlier ++ .add sink :: later)).count sink = 1 := by
      have first := List.count_eq_zero.mpr before
      have second := List.count_eq_zero.mpr after.1
      unfold added at first second ⊢
      simp [first, second]
    rw [← List.cons_append, ← List.append_assoc, toldSince_concat, ih after.1, once,
      events_sinceCleared_concat]

def Change.concerns (sink : Sink) : Change → Bool
  | .add other => other == sink
  | .emit _ => true
  | change => change.clears sink

theorem count_added_filter :
    (added (history.filter (·.concerns sink))).count sink = (added history).count sink := by
  induction history using List.reverseRecOn with
  | nil => rfl
  | append_singleton history change ih =>
    rw [List.filter_append, added_concat, List.count_append]
    by_cases concerned : change.concerns sink
    · rw [List.filter_cons_of_pos concerned, List.filter_nil, added_concat, List.count_append, ih]
    · rw [List.filter_cons_of_neg concerned, List.filter_nil, List.append_nil, ih]
      cases change <;> simp_all [Change.concerns]

theorem toldSince_filter :
    toldSince sink (history.filter (·.concerns sink)) = toldSince sink history := by
  induction history using List.reverseRecOn with
  | nil => rfl
  | append_singleton history change ih =>
    rw [List.filter_append, toldSince_concat]
    by_cases concerned : change.concerns sink
    · rw [List.filter_cons_of_pos concerned, List.filter_nil, toldSince_concat, ih,
        count_added_filter]
    · rw [List.filter_cons_of_neg concerned, List.filter_nil, List.append_nil, ih]
      cases change <;> simp_all [Change.concerns]

end

structure Session.Follows (session : Session) (history : List Change) : Prop where
  sinks : session.hub.sinks = added history
  sound : session.hub.Sound
  heard : ∀ sink, session.hub.deaf sink = false → session.heard sink = toldSince sink history

namespace Session

variable {session : Session} {history : List Change} {change : Change}

theorem Follows.next (follows : session.Follows history) (possible : change.Possible session.hub) :
    (session.next change).Follows (history ++ [change]) where
  sinks := by
    rw [sinks_next follows.sound, follows.sinks, added_concat]
  sound := sound_next follows.sound possible
  heard sink hears := by
    have before := deaf_next follows.sound possible hears
    rw [heard_next follows.sound possible hears, toldSince_concat, follows.heard sink before,
      follows.sinks]

theorem follows (ran : run history = some session) : session.Follows history := by
  induction history using List.reverseRecOn generalizing session with
  | nil =>
    cases ran
    exact ⟨rfl, List.forall_mem_nil _, fun sink _ => by cases sink <;> rfl⟩
  | append_singleton history change ih =>
    obtain ⟨before, earlier, possible, rfl⟩ := run_concat_iff.mp ran
    exact (ih earlier).next possible

structure Hears (session : Session) (history : List Change) : Prop where
  buffer : ∀ i, session.hub.buffer i = toldSince (.memory i) history
  bufferOnce : ∀ i earlier later, history = earlier ++ .add (.memory i) :: later →
    .memory i ∉ added earlier → .memory i ∉ added later →
    session.hub.buffer i = events (sinceCleared (.memory i) later)
  receiver : ∀ i, (session.hub.receiver i).closed = false →
    session.heard (.channel i) = told (.channel i) [] history
  receiverOnce : ∀ i earlier later, history = earlier ++ .add (.channel i) :: later →
    .channel i ∉ added earlier → .channel i ∉ added later →
    (session.hub.receiver i).closed = false → session.heard (.channel i) = events later
  /-- What one sink hears is told by the changes that concern it. -/
  apart : ∀ other outcome, run other = some outcome → ∀ sink,
    session.hub.deaf sink = false → outcome.hub.deaf sink = false →
    other.filter (·.concerns sink) = history.filter (·.concerns sink) →
    outcome.heard sink = session.heard sink

/-- Each buffer holds the events since it was last cleared, once for each time that it has been
added before; each receiver that has not been dropped got all events since its sink was added; and
no sink hears more or less for what becomes of another one. -/
theorem sinks_hear_for_themselves (ran : run history = some session) : session.Hears history := by
  have heard := (follows ran).heard
  constructor
  case buffer => exact fun i => heard (.memory i) rfl
  case bufferOnce =>
    rintro i earlier later rfl before after
    rw [← toldSince_eq_events before after]
    exact heard (.memory i) rfl
  case receiver =>
    intro i live
    rw [heard (.channel i) live, toldSince_channel]
  case receiverOnce =>
    rintro i earlier later rfl before after live
    rw [heard (.channel i) live, toldSince_eq_events before after, sinceCleared_channel]
  case apart =>
    intro other outcome ranToo sink hears hearsToo same
    rw [(follows ranToo).heard sink hearsToo, heard sink hears, ← toldSince_filter, same,
      toldSince_filter]

def note (text : String) : Event := .diagnostic ⟨"note", text⟩

def rehearsal : List Change :=
  [.newBuffer, .add (.memory 0), .emit (note "a"), .add .broken, .newChannel, .add (.channel 0),
    .newChannel, .add (.channel 1), .emit (note "b"), .clear 0, .emit (note "c"),
    .add (.memory 0), .close 0, .emit (note "d"), .drain 1, .emit (note "e")]

theorem rehearsal_is_heard : ∃ session, run rehearsal = some session ∧
    session.hub.buffer 0 = [note "c", note "d", note "d", note "e", note "e"] ∧
    (session.hub.receiver 1).closed = false ∧
    session.heard (.channel 1) = [note "b", note "c", note "d", note "e"] := by
  obtain ⟨session, ran, live⟩ : ∃ session, run rehearsal = some session ∧
      (session.hub.receiver 1).closed = false := ⟨_, rfl, rfl⟩
  have heard := sinks_hear_for_themselves ran
  have before : .channel 1 ∉ added (rehearsal.take 7) := by decide
  have after : .channel 1 ∉ added (rehearsal.drop 8) := by decide
  exact ⟨session, ran, heard.buffer 0, live, heard.receiverOnce 1 _ _ rfl before after live⟩

end Session

end Hub

end Colloquy
