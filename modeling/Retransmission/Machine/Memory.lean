import Retransmission.Machine.Checks
import Retransmission.Ring.Storage

namespace Retransmission.Machine

/-- A slot with the bytes of its packet in front of those left over from others. -/
structure Entry where
  seq : SeqNum
  length : UInt16
  buffer : ByteArray
deriving DecidableEq

def Entry.blank : Entry := ⟨⟨0⟩, 0, ⟨.replicate Packet.payloadLimit 0⟩⟩

/-- Copy the first bytes of one buffer over those of another. -/
def copyFront? (source target : ByteArray) (count : Nat) : Option ByteArray := do
  let bytes ← slice? source.data 0 count
  return ⟨← overwrite? target.data 0 count bytes⟩

/-- Copy as much of the packet as a reader's buffer holds to its front. -/
def Entry.copyTo? (entry : Entry) (out : ByteArray) : Option Delivery := do
  let count := min entry.length.toNat out.size
  return ⟨count, ← copyFront? entry.buffer out count⟩

structure Memory where
  entries : Array Entry
  tail : UInt16
deriving DecidableEq

namespace Memory

def blank (capacity : Nat) : Memory := ⟨.replicate capacity .blank, 0⟩

/-- Write a packet into the slot at the tail. Its index is given back. -/
def insert? (memory : Memory) (packet : Packet) : Option (UInt16 × Memory) := do
  let index := memory.tail.toNat
  let count := min packet.payload.size Packet.payloadLimit
  let entry ← memory.entries[index]?
  let buffer ← copyFront? packet.payload entry.buffer count
  let length ← narrow? count
  let after ← mod? (← add? UInt64.size index 1) memory.entries.size
  let tail ← narrow? after
  let place ← narrow? index
  return (place, ⟨memory.entries.setIfInBounds index ⟨packet.seq, length, buffer⟩, tail⟩)

def read? (memory : Memory) (seq : SeqNum) (out : ByteArray) : Option Delivery :=
  match memory.entries.find? fun entry => entry.length ≠ 0 ∧ entry.seq = seq with
  | some entry => entry.copyTo? out
  | none => some ⟨0, out⟩

/-- An index outside the ring is no fault, and nothing is read there. -/
def readAt? (memory : Memory) (seq : SeqNum) (index : Nat) (out : ByteArray) : Option Delivery :=
  match memory.entries[index]? with
  | some entry => if entry.seq = seq then entry.copyTo? out else some ⟨0, out⟩
  | none => some ⟨0, out⟩

def beforeTail? (memory : Memory) : Option Nat :=
  if memory.tail = 0 then sub? memory.entries.size 1 else sub? memory.tail.toNat 1

def readNewest? (memory : Memory) (out : ByteArray) : Option Delivery := do
  let entry ← memory.entries[← memory.beforeTail?]?
  entry.copyTo? out

/-- Copy the slots that are kept into fresh ones, block by block. -/
def resize? (memory : Memory) (target : Nat) : Option Memory :=
  let old := memory.entries.size
  let tail := memory.tail.toNat
  let fresh : Array Entry := .replicate target .blank
  if target = old then some memory
  else if old < target ∧ tail = 0 then do
    let entries ← overwrite? fresh 0 old memory.entries
    return ⟨entries, ← narrow? old⟩
  else if old < target then do
    let entries ← overwrite? fresh 0 tail (← slice? memory.entries 0 tail)
    let start ← sub? (← add? UInt64.size tail target) old
    let entries ← overwrite? entries start target (← slice? memory.entries tail old)
    return ⟨entries, memory.tail⟩
  else if tail < target then do
    let entries ← overwrite? fresh 0 tail (← slice? memory.entries 0 tail)
    let start ← sub? (← add? UInt64.size tail old) target
    let entries ← overwrite? entries tail target (← slice? memory.entries start old)
    return ⟨entries, memory.tail⟩
  else do
    let start ← sub? tail target
    let entries ← overwrite? fresh 0 target (← slice? memory.entries start tail)
    return ⟨entries, 0⟩

end Memory

end Retransmission.Machine
