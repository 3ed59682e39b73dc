/-
Byte sinks. A sink holds what has been written to it; one with a limit keeps the first bytes up to
it and refuses the rest, and flushing may fail.
-/
import AlphaCodemod.Text.Utf8

namespace AlphaCodemod

/-- Why a sink did not do as told. -/
inductive SinkFault where
  | full
  | flushFailed
deriving DecidableEq, Repr

def SinkFault.message : SinkFault → String
  | .full => "sink full"
  | .flushFailed => "flush failed"

structure Sink where
  limit : Option Nat := none
  flushFails : Bool := false
  held : Bytes := []
deriving DecidableEq, Repr

namespace Sink

/-- The sink after a write: everything is kept that fits. -/
def push (s : Sink) (bs : Bytes) : Sink :=
  { s with
    held := match s.limit with
      | none => s.held ++ bs
      | some n => (s.held ++ bs).take n }

/-- Whether a write goes beyond the limit. -/
def overflows (s : Sink) (bs : Bytes) : Bool :=
  match s.limit with
  | none => false
  | some n => decide (n < s.held.length + bs.length)

/-- Writes bytes; what does not fit any more is a fault. -/
def write (bs : Bytes) : EStateM SinkFault Sink Unit := do
  let s ← get
  set (s.push bs)
  if s.overflows bs then throw .full

/-- Writes a line of text. -/
def writeLine (text : String) : EStateM SinkFault Sink Unit :=
  write (Utf8.encode (text.toList ++ ['\n']))

def flush : EStateM SinkFault Sink Unit := do
  if (← get).flushFails then throw .flushFailed

end Sink
end AlphaCodemod
