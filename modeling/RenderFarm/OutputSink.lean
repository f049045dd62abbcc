import RenderFarm.Text.Utf8

/-!
# Output sinks

Engine output goes to a sink as soon as it is written. A sink takes text, or bytes that it decodes
as lossy UTF-8, and hands every write on as one text; a discarding sink hands nothing on.
-/

namespace RenderFarm

structure OutputSink where
  discards : Bool
  /-- The texts handed on, in order. -/
  received : List String
  deriving DecidableEq

namespace OutputSink

def start (discards : Bool) : OutputSink :=
  ⟨discards, []⟩

def writeText (sink : OutputSink) (text : String) : OutputSink :=
  if sink.discards then sink else { sink with received := sink.received ++ [text] }

/-- Writes bytes with one call; gives the number of bytes taken, which is all of them. -/
def writeBytes (sink : OutputSink) (bytes : List UInt8) : Nat × OutputSink :=
  (bytes.length, sink.writeText (String.ofList (Text.decodeLossy bytes)))

/-- Writes bytes with one call after another until all are taken; none where a call takes none of
them. -/
def writeAll (sink : OutputSink) (bytes : List UInt8) : Option OutputSink :=
  match bytes with
  | [] => some sink
  | byte :: rest =>
    let (taken, sink) := sink.writeBytes (byte :: rest)
    if taken = 0 then none else sink.writeAll ((byte :: rest).drop taken)
termination_by bytes.length
decreasing_by simp only [List.length_drop, List.length_cons]; omega

/-- The words for a sink. -/
def describe (_ : OutputSink) : String :=
  "OutputSink"

end OutputSink

end RenderFarm
