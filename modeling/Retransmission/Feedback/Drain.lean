import Retransmission.Feedback.Nack
import Retransmission.Feedback.Window

namespace Retransmission

/-- What a drained block says: its first missing number and a mask of those after it, or its
start when none is missing. -/
structure Drain where
  hasLoss : Bool
  seq : SeqNum
  mask : BitVec 16
deriving DecidableEq, Repr

/-- The feedback owed for a block, if it owes any. -/
def Drain.nack? (drain : Drain) : Option Nack :=
  if drain.hasLoss then some ⟨drain.seq, drain.mask⟩ else none

namespace Window

def blockWidth : Nat := 17

/-- The numbers of the front block that have not arrived, as a mask. -/
def gaps (window : Window) : BitVec blockWidth :=
  (~~~window.bits).setWidth blockWidth

def frontBlock (window : Window) : Drain :=
  if window.gaps = 0 then ⟨false, window.first, 0⟩
  else
    let skipped := window.gaps.ctz.toNat
    ⟨true, window.first.advance (.ofNat skipped), (window.gaps >>> (skipped + 1)).setWidth 16⟩

/-- The window past its front block. It moves on whether or not anything was
missing. -/
def dropBlock (window : Window) : Window :=
  ⟨window.first.advance (.ofNat blockWidth), window.bits >>> blockWidth⟩

theorem first_dropBlock (window : Window) : window.dropBlock.first = window.first.advance 17 :=
  rfl

theorem bits_dropBlock (window : Window) (offset : Nat) :
    window.dropBlock.bits.getLsbD offset = window.bits.getLsbD (17 + offset) :=
  BitVec.getLsbD_ushiftRight ..

theorem bits_dropBlock_of_empty {window : Window} (empty : window.bits = 0) :
    window.dropBlock.bits = 0 := by
  simp [dropBlock, empty]

end Window

end Retransmission
