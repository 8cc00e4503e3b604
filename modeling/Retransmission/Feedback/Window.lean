import Retransmission.Event

/-! The arrival window: 32 consecutive sequence numbers, each marked once its
packet arrives. How an arrival falls against the window is decided first, as a
`Placement`; the marked window and the log record both follow from it. -/

namespace Retransmission

/-- Bit `i` of `bits` is set when the number `i` steps after `first` has
arrived. A window without bits has no place yet. -/
structure Window where
  first : SeqNum
  bits : BitVec 32
deriving DecidableEq, Repr

/-- Where an arrival falls. -/
inductive Placement where
  /-- The window is empty and begins at the arrival. -/
  | anchor
  /-- The arrival is out of range and the window begins again there. -/
  | restart
  /-- The arrival is older than the window. -/
  | stale
  | inside (offset : UInt16)
  /-- The arrival lies past the end, which has to move by `shift`. -/
  | beyond (shift : UInt16)
deriving DecidableEq, Repr

namespace Window

def width : UInt16 := 32

def empty : Window := ⟨⟨0⟩, 0⟩

/-- How an arrival falls. An empty window takes any arrival as its start. -/
def place (window : Window) (arrival : SeqNum) : Placement :=
  let offset := arrival.aheadOf window.first
  if window.bits = 0 then .anchor
  else if arrival.OutOfRange window.first then .restart
  else if arrival.Behind window.first then .stale
  else if offset < width then .inside offset
  else .beyond (offset - (width - 1))

/-- The window after an arrival has been marked in it. -/
def mark (window : Window) (arrival : SeqNum) : Window :=
  match window.place arrival with
  | .anchor | .restart => ⟨arrival, .twoPow 32 0⟩
  | .stale => window
  | .inside offset => { window with bits := window.bits ||| .twoPow 32 offset.toNat }
  | .beyond shift =>
    { first := window.first.advance shift
      bits := window.bits >>> shift.toNat ||| .twoPow 32 31 }

def markEvents (window : Window) (arrival : SeqNum) : List Event :=
  match window.place arrival with
  | .restart => [.windowRestarted window.first arrival]
  | .beyond shift => [.windowSlid shift arrival]
  | .anchor | .stale | .inside _ => []

end Window

end Retransmission
