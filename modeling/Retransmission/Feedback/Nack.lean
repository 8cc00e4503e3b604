import Retransmission.SeqNum

namespace Retransmission

/-- Bit `i` of `mask` stands for the number `i + 1` steps after `packetId`. -/
structure Nack where
  packetId : SeqNum
  mask : BitVec 16
deriving DecidableEq, Repr

namespace Nack

/-- The numbers after `packetId` that the mask reports, nearest first. -/
def following (entry : Nack) : List SeqNum :=
  ((List.range 16).filter fun bit => entry.mask.getLsbD bit).map fun bit =>
    entry.packetId.advance (.ofNat (bit + 1))

/-- Every number the entry asks for, in order of distance from `packetId`. -/
def missing (entry : Nack) : List SeqNum :=
  entry.packetId :: entry.following

/-- The missing numbers in brackets, separated by commas. -/
def render (entry : Nack) : String :=
  "[" ++ ", ".intercalate (entry.missing.map toString) ++ "]"

instance : ToString Nack := ⟨render⟩

end Nack

end Retransmission
