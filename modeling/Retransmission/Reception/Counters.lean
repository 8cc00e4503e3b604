import Retransmission.Event
import Retransmission.Reception.Report

/-! Reception statistics. Skipped numbers are counted as lost when the stream
runs ahead of them, and one loss is taken back for each late arrival. How an
arrival counts is decided first, as an `Arrival`; the new counters and the log
record both follow from it. -/

namespace Retransmission

/-- How an arrival counts against the highest number so far. -/
inductive Arrival where
  /-- The first packet of all. -/
  | opening
  /-- The arrival is out of range of `highest`, and the stream starts over. -/
  | restart (highest : SeqNum)
  /-- The arrival is `gap` ahead, and `wrapped` tells whether that passes the
  end of the cycle. -/
  | ahead (gap : UInt16) (wrapped : Bool)
  /-- A repeated number, or one within the reordering limit. -/
  | late
deriving DecidableEq, Repr

/-- Running counters, all of which wrap. `expected` and `lost` belong to the present report
period and `lostBefore` to earlier ones. -/
structure Counters where
  highest : Option SeqNum
  cycles : UInt16
  expected : UInt32
  lost : UInt32
  lostBefore : UInt32
deriving DecidableEq, Repr

namespace Counters

def start : Counters := ⟨none, 0, 0, 0, 0⟩

def classify (counters : Counters) (arrival : SeqNum) : Arrival :=
  match counters.highest with
  | none => .opening
  | some highest =>
    if arrival.OutOfRange highest then .restart highest
    else if highest.Behind arrival then
      .ahead (arrival.aheadOf highest) (decide (arrival.word < highest.word))
    else .late

def record (counters : Counters) (arrival : SeqNum) : Counters :=
  match counters.classify arrival with
  | .opening | .restart _ =>
    { counters with highest := some arrival, expected := counters.expected + 1 }
  | .ahead gap wrapped =>
    { counters with
      highest := some arrival
      cycles := if wrapped then counters.cycles + 1 else counters.cycles
      expected := counters.expected + gap.toUInt32
      lost := counters.lost + (gap.toUInt32 - 1) }
  | .late =>
    { counters with lost := if counters.lost = 0 then 0 else counters.lost - 1 }

def recordEvents (counters : Counters) (arrival : SeqNum) : List Event :=
  match counters.classify arrival with
  | .restart highest => [.streamRestarted highest arrival]
  | .opening | .ahead .. | .late => []

/-- Count packets that are known to be absent from the stream. -/
def expect (counters : Counters) (count : UInt32) : Counters :=
  { counters with expected := counters.expected + count }

/-- The highest number, or 0 before the first packet, with the passed ends of
the cycle counted in the upper half. -/
def extendedSeq (counters : Counters) : UInt32 :=
  counters.cycles.toUInt32 * 0x10000 + (counters.highest.getD ⟨0⟩).word.toUInt32

def report (counters : Counters) : Report where
  expected := counters.expected
  lost := counters.lost
  totalLost := counters.lostBefore + counters.lost
  extendedSeq := counters.extendedSeq

/-- Begin a new report period. The losses of the present one join the earlier ones. -/
def closePeriod (counters : Counters) : Counters :=
  { counters with expected := 0, lost := 0, lostBefore := counters.lostBefore + counters.lost }

end Counters

end Retransmission
