import Retransmission.Feedback.Nack

namespace Retransmission.Nack

/-- A place between two numbers of an entry. -/
structure Cursor where
  entry : Nack
  /-- Whether the packet id has been read. -/
  started : Bool
  /-- The bit of the mask to look at next. -/
  bit : Nat
deriving DecidableEq, Repr

/-- The place before the packet id. -/
def cursor (entry : Nack) : Cursor := ⟨entry, false, 0⟩

namespace Cursor

/-- The first bit from here on that is set in the mask. -/
def nextBit? (cursor : Cursor) : Option Nat :=
  (List.range' cursor.bit (16 - cursor.bit)).find? fun bit => cursor.entry.mask.getLsbD bit

/-- Read one number, if there is one left. -/
def next? (cursor : Cursor) : Option (SeqNum × Cursor) :=
  if cursor.started then
    cursor.nextBit?.map fun bit =>
      (cursor.entry.packetId.advance (.ofNat (bit + 1)), { cursor with bit := bit + 1 })
  else some (cursor.entry.packetId, { cursor with started := true })

def take (cursor : Cursor) : Nat → List SeqNum × Cursor
  | 0 => ([], cursor)
  | count + 1 =>
    match cursor.next? with
    | none => ([], cursor)
    | some (number, later) =>
      let (numbers, place) := later.take count
      (number :: numbers, place)

/-- How many places may still follow. -/
def room (cursor : Cursor) : Nat := (!cursor.started).toNat + (16 - cursor.bit)

theorem nextBit?_bounds {cursor : Cursor} {bit : Nat} (found : cursor.nextBit? = some bit) :
    cursor.bit ≤ bit ∧ bit < 16 := by
  have member := List.mem_of_find?_eq_some found
  rw [List.mem_range'_1] at member
  omega

theorem room_lt {cursor later : Cursor} {number : SeqNum}
    (read : cursor.next? = some (number, later)) : later.room < cursor.room := by
  obtain ⟨entry, started, position⟩ := cursor
  cases started with
  | false =>
    obtain ⟨rfl, rfl⟩ := Prod.mk.inj (Option.some.inj read)
    simp [room]
  | true =>
    obtain ⟨bit, found, same⟩ := Option.map_eq_some_iff.mp read
    obtain ⟨rfl, rfl⟩ := Prod.mk.inj same
    have bounds := nextBit?_bounds found
    simp only [room] at bounds ⊢
    omega

def rest (cursor : Cursor) : List SeqNum :=
  match _ : cursor.next? with
  | none => []
  | some (number, later) => number :: later.rest
termination_by cursor.room
decreasing_by exact room_lt ‹_›

end Cursor

end Retransmission.Nack
