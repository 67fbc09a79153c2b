import Colloquy.Flowchart.Compile

/-!
Flowcharts in files: the bytes of a file must be text before they can be a document.
-/

namespace Colloquy

inductive FileContent where
  | absent
  | bytes (content : ByteArray)

def Flowchart.ofFile (path : String) : FileContent → Except ConfigError Flowchart
  | .absent => .error (.unreadableFile path "No such file or directory (os error 2)")
  | .bytes content =>
    match String.fromUTF8? content with
    | none => .error (.unreadableFile path "stream did not contain valid UTF-8")
    | some text => Flowchart.parse text

end Colloquy
