namespace Retransmission

/-- A position on the cycle of 65536 sequence numbers. -/
structure SeqNum where
  word : UInt16
deriving DecidableEq, Inhabited, Repr

namespace SeqNum

instance : ToString SeqNum := ⟨fun number => toString number.word.toNat⟩

/-- The number reached after `distance` steps forwards. -/
def advance (number : SeqNum) (distance : UInt16) : SeqNum :=
  ⟨number.word + distance⟩

/-- Steps forwards from `origin` to `number`. -/
def aheadOf (number origin : SeqNum) : UInt16 :=
  number.word - origin.word

/-- A number lies behind a reference when reaching it forwards takes half the
cycle or more. -/
def Behind (number reference : SeqNum) : Prop :=
  0x8000 ≤ number.aheadOf reference

instance (number reference : SeqNum) : Decidable (number.Behind reference) :=
  inferInstanceAs (Decidable (_ ≤ _))

/-- The longest way back that still counts as reordering. -/
def reorderLimit : UInt16 := 256

/-- A number too far behind the reference to be a late packet of the same
stream. Any way forwards is accepted, however long. -/
def OutOfRange (number reference : SeqNum) : Prop :=
  number.Behind reference ∧ reorderLimit < reference.aheadOf number

instance (number reference : SeqNum) : Decidable (number.OutOfRange reference) :=
  inferInstanceAs (Decidable (_ ∧ _))

@[simp] theorem aheadOf_advance (origin : SeqNum) (distance : UInt16) :
    (origin.advance distance).aheadOf origin = distance := by
  simp only [advance, aheadOf]
  grind

@[simp] theorem advance_aheadOf (number origin : SeqNum) :
    origin.advance (number.aheadOf origin) = number := by
  cases number
  simp only [advance, aheadOf, mk.injEq]
  grind

@[simp] theorem aheadOf_self (number : SeqNum) : number.aheadOf number = 0 := by
  simp [aheadOf]

@[simp] theorem advance_zero (number : SeqNum) : number.advance 0 = number := by
  simp [advance]

theorem advance_advance (number : SeqNum) (first second : UInt16) :
    (number.advance first).advance second = number.advance (first + second) := by
  simp only [advance, mk.injEq]
  grind

/-- Moving both numbers round the cycle by the same way keeps their distance. -/
theorem aheadOf_advance_advance (number origin : SeqNum) (distance : UInt16) :
    (number.advance distance).aheadOf (origin.advance distance) = number.aheadOf origin := by
  simp only [advance, aheadOf]
  grind

theorem advance_inj {number reference : SeqNum} {distance : UInt16} :
    number.advance distance = reference.advance distance ↔ number = reference := by
  constructor
  · intro same
    rw [← advance_aheadOf number reference, ← aheadOf_advance_advance number reference distance,
      same, aheadOf_self, advance_zero]
  · intro same
    rw [same]

end SeqNum

end Retransmission
