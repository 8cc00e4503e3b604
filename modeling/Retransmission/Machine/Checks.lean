namespace Retransmission.Machine

/-- A value that is good only under a condition. -/
def check (condition : Prop) [Decidable condition] (value : α) : Option α :=
  if condition then some value else none

/-- A sum that fits in a word, for words of so many values. -/
def add? (values left right : Nat) : Option Nat :=
  check (left + right < values) (left + right)

/-- A difference that is not below zero. -/
def sub? [LE α] [DecidableLE α] [Sub α] (left right : α) : Option α :=
  check (right ≤ left) (left - right)

def mul? (values left right : Nat) : Option Nat :=
  check (left * right < values) (left * right)

/-- A remainder, which nothing leaves on division by zero. -/
def mod? (left right : Nat) : Option Nat :=
  check (right ≠ 0) (left % right)

/-- Shifts go no further than the word is wide. -/
def shiftLeft? (word : BitVec width) (distance : Nat) : Option (BitVec width) :=
  check (distance < width) (word <<< distance)

def shiftRight? (word : BitVec width) (distance : Nat) : Option (BitVec width) :=
  check (distance < width) (word >>> distance)

/-- The same number in 16 bits. -/
def narrow? (number : Nat) : Option UInt16 :=
  check (number < 65536) (.ofNat number)

/-- The items from `start` up to, but not including, `stop`. -/
def slice? (items : Array α) (start stop : Nat) : Option (Array α) :=
  check (start ≤ stop ∧ stop ≤ items.size) (items.extract start stop)

/-- Copy as many items as there are from `start` to `stop` over those. -/
def overwrite? (items : Array α) (start stop : Nat) (source : Array α) : Option (Array α) :=
  check ((start ≤ stop ∧ stop ≤ items.size) ∧ source.size = stop - start)
    (items.extract 0 start ++ source ++ items.extract stop items.size)

end Retransmission.Machine
