import Retransmission.Cache.Request
import Retransmission.Machine.Memory

/-! The cache on a machine. Every step that could leave a word or the memory is one
that the machine may refuse, and then the whole request has no result. -/

namespace Retransmission

/-- Count an arrival. Neither the skipped packets nor the losses may fall below zero. -/
def Counters.record? (counters : Counters) (arrival : SeqNum) : Option Counters :=
  match counters.classify arrival with
  | .opening | .restart _ =>
    some { counters with highest := some arrival, expected := counters.expected + 1 }
  | .ahead gap wrapped => do
    let skipped ← Machine.sub? gap.toUInt32 1
    return { counters with
      highest := some arrival
      cycles := if wrapped then counters.cycles + 1 else counters.cycles
      expected := counters.expected + gap.toUInt32
      lost := counters.lost + skipped }
  | .late =>
    if counters.lost = 0 then some counters
    else do return { counters with lost := ← Machine.sub? counters.lost 1 }

/-- The passed ends of the cycle in the upper half and the highest number in the lower. -/
def Counters.extendedSeq? (counters : Counters) : Option UInt32 := do
  let upper ← Machine.shiftLeft? (counters.cycles.toBitVec.setWidth 32) 16
  return .ofBitVec (upper ||| (counters.highest.getD ⟨0⟩).word.toBitVec.setWidth 32)

def Counters.report? (counters : Counters) : Option Report := do
  return { counters.report with extendedSeq := ← counters.extendedSeq? }

namespace Window

def place? (window : Window) (arrival : SeqNum) : Option Placement :=
  let offset := arrival.aheadOf window.first
  if window.bits = 0 then some .anchor
  else if arrival.OutOfRange window.first then some .restart
  else if arrival.Behind window.first then some .stale
  else if offset < width then some (.inside offset)
  else do return .beyond (← Machine.sub? offset (width - 1))

def mark? (window : Window) (arrival : SeqNum) : Option Window := do
  match ← window.place? arrival with
  | .anchor | .restart => return ⟨arrival, 1⟩
  | .stale => return window
  | .inside offset =>
    return { window with bits := window.bits ||| (← Machine.shiftLeft? 1 offset.toNat) }
  | .beyond shift =>
    -- A way longer than the window only clears it, and any distance will do.
    return {
      first := window.first.advance shift
      bits := window.bits >>> shift.toNat ||| (← Machine.shiftLeft? 1 (width - 1).toNat) }

def drain? (window : Window) : Option (Drain × Window) := do
  let dropped : Window :=
    ⟨window.first.advance (.ofNat blockWidth), ← Machine.shiftRight? window.bits blockWidth⟩
  if window.gaps = 0 then return (⟨false, window.first, 0⟩, dropped)
  let zeros := window.gaps.ctz.toNat
  let skipped ← Machine.narrow? zeros
  let later ← Machine.shiftRight? (window.gaps.setWidth 32) (← Machine.add? UInt32.size zeros 1)
  let mask ← Machine.narrow? later.toNat
  return (⟨true, window.first.advance skipped, mask.toBitVec⟩, dropped)

end Window

/-- A cache as a machine holds it. -/
structure Machine where
  counters : Counters
  window : Window
  memory : Machine.Memory
deriving DecidableEq

namespace Machine

def create (capacity : Nat) : Except CapacityError Machine :=
  match Capacity.fault? capacity with
  | some fault => .error fault
  | none => .ok ⟨.start, .empty, .blank capacity⟩

def store? (machine : Machine) (packet : Packet) : Option (Reply × Machine) := do
  let counters ← machine.counters.record? packet.seq
  let window ← machine.window.mark? packet.seq
  let (index, memory) ← machine.memory.insert? packet
  return (.stored window.first index.toNat, ⟨counters, window, memory⟩)

def resize? (machine : Machine) (target : Nat) : Option Machine :=
  match Capacity.fault? target with
  | some _ => some machine
  | none => do return { machine with memory := ← machine.memory.resize? target }

/-- Change the number of slots when it is far from the target and the tail is early. -/
def resizeIfAdmitted? (machine : Machine) (target : Nat) : Option (Bool × Machine) :=
  match Capacity.fault? target with
  | some _ => some (false, machine)
  | none => do
    let current := machine.memory.entries.size
    let tail := machine.memory.tail.toNat
    let double ← mul? UInt64.size target 2
    if target / 2 ≤ current ∧ current < double then return (false, machine)
    if current / 2 < tail ∧ target / 2 < tail then return (false, machine)
    return (true, { machine with memory := ← machine.memory.resize? target })

def step? (machine : Machine) : Request → Option (Reply × Machine)
  | .store seq payload => machine.store? ⟨seq, payload⟩
  | .expect count => some (.done, { machine with counters := machine.counters.expect count })
  | .read seq out => do return (.delivered (← machine.memory.read? seq out), machine)
  | .readAt seq index out => do
    return (.delivered (← machine.memory.readAt? seq index out), machine)
  | .readNewest out => do return (.delivered (← machine.memory.readNewest? out), machine)
  | .capacity => some (.capacity machine.memory.entries.size, machine)
  | .first => some (.first machine.window.first, machine)
  | .resize target => do return (.done, ← machine.resize? target)
  | .resizeIfAdmitted target => do
    let (resized, machine) ← machine.resizeIfAdmitted? target
    return (.admitted resized, machine)
  | .drain => do
    let (drain, window) ← machine.window.drain?
    return (.drained drain, { machine with window })
  | .report reset => do
    return (.reported (← machine.counters.report?),
      if reset then { machine with counters := machine.counters.closePeriod } else machine)

/-- Answer a series of requests, as long as no step is refused. -/
def run? (machine : Machine) : List Request → Option (List Reply × Machine)
  | [] => some ([], machine)
  | request :: rest => do
    let (reply, next) ← machine.step? request
    let (replies, final) ← next.run? rest
    return (reply :: replies, final)

end Machine

end Retransmission
