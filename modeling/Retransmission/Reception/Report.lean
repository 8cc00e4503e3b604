namespace Retransmission

/-- Packet counts since the last report, losses since the start of the stream, and the highest
sequence number with the turns of the cycle above it. -/
structure Report where
  expected : UInt32
  lost : UInt32
  totalLost : UInt32
  extendedSeq : UInt32
deriving DecidableEq, Repr

namespace Report

/-- The share of packets lost since the last report, in 256ths and at most 255. -/
def fractionLost (report : Report) : UInt8 :=
  if report.expected = 0 then 0
  else .ofNat (min (report.lost.toNat * 256 / report.expected.toNat) 255)

/-- The largest count that a report field of 24 bits can hold. -/
def cumulativeLimit : UInt32 := 0xFFFFFF

def cumulativeLost (report : Report) : UInt32 :=
  min report.totalLost cumulativeLimit

end Report

end Retransmission
