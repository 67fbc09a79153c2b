import Colloquy.Event.Basic

/-!
Events and traces as lines for people, with or without colour.
-/

namespace Colloquy

structure Rendering where
  context : String
  lines : List String
  deriving DecidableEq, Repr

inductive Palette where
  | plain
  | colored
  deriving DecidableEq, Repr

namespace Palette

def contextColor : String := "\x1b[32m"

def lineColor : String := "\x1b[35m"

def resetColor : String := "\x1b[0m"

def paint (palette : Palette) (color text : String) : String :=
  match palette with
  | plain => text
  | colored => color ++ text ++ resetColor

end Palette

def Event.render (palette : Palette) (event : Event) : Rendering :=
  ⟨event.scope, [palette.paint Palette.lineColor event.display ++ "\n"]⟩

def labelledLine (label : String) (text : Option String) : List String :=
  match text with
  | none => []
  | some text => if text.isEmpty then [] else [s!"  {label}: {text}\n"]

namespace TraceEntry

def decisionLine (palette : Palette) (entry : TraceEntry) : List String :=
  match entry.decision with
  | none => []
  | some label =>
    let suffix := if entry.decisionFallback then " (fallback)" else ""
    [palette.paint Palette.lineColor s!"  decision: {label}{suffix}" ++ "\n"]

def optionsLine (entry : TraceEntry) : List String :=
  if entry.options.isEmpty then []
  else ["  options: " ++ ", ".intercalate entry.options ++ "\n"]

def lines (palette : Palette) (entry : TraceEntry) : List String :=
  [palette.paint Palette.contextColor s!"[{entry.step}] {entry.node} ({entry.kind})" ++ "\n"] ++
    labelledLine "prompt" entry.prompt ++
    entry.optionsLine ++
    entry.decisionLine palette ++
    labelledLine "reasoning" entry.reasoning ++
    (match entry.extracted with
     | some value => [s!"  extracted: {value.compact}\n"]
     | none => []) ++
    [match entry.nextNode with
     | some next => s!"  -> {next}\n"
     | none => "  (end)\n"]

end TraceEntry

def Trace.render (palette : Palette) (trace : Trace) : List Rendering :=
  trace.map fun entry => ⟨entry.node, entry.lines palette⟩

end Colloquy
