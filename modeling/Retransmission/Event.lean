import Retransmission.SeqNum
import Retransmission.Capacity

namespace Retransmission

inductive Level where
  | trace
  | debug
  | warning
deriving DecidableEq, Repr

def Level.name : Level → String
  | .trace => "TRACE"
  | .debug => "DEBUG"
  | .warning => "WARN"

inductive Event where
  /-- The statistics start over at a number out of range of the highest one. -/
  | streamRestarted (highest next : SeqNum)
  /-- The arrival window starts over at a number out of range of its start. -/
  | windowRestarted (first next : SeqNum)
  /-- The arrival window moved forwards to cover `next` with its last bit. -/
  | windowSlid (shift : UInt16) (next : SeqNum)
  | resizeIgnored (cause : CapacityError)
  /-- A shrink at or below the tail moved every packet it kept. -/
  | indicesInvalidated (old new tail : Nat)
  | resized (old new : Nat)
deriving DecidableEq, Repr

namespace Event

def level : Event → Level
  | .windowSlid .. => .trace
  | .streamRestarted .. | .windowRestarted .. | .resized .. => .debug
  | .resizeIgnored .. | .indicesInvalidated .. => .warning

def message : Event → String
  | .streamRestarted highest next => s!"sequence discontinuity: {highest} -> {next}, re-anchoring"
  | .windowRestarted first next => s!"arrival window reset: first {first} -> {next}"
  | .windowSlid shift next => s!"arrival window slide by {shift} to seqno {next}"
  | .resizeIgnored cause => "packet cache resize ignored: " ++ cause.message
  | .indicesInvalidated old new tail =>
    s!"packet cache shrink {old} -> {new} below tail {tail}, slot indices invalidated"
  | .resized old new => s!"packet cache resized {old} -> {new}"

end Event

end Retransmission
