import Retransmission.SeqNum

namespace Retransmission.SeqNum

theorem aheadOf_ne_zero {number reference : SeqNum} (behind : reference.Behind number) :
    number.aheadOf reference ≠ 0 := by
  intro zero
  have same : reference.aheadOf number = 0 := by
    simp only [aheadOf] at zero ⊢
    grind
  rw [Behind, same] at behind
  exact absurd behind (by decide)

theorem toNat_aheadOf_eq_zero_iff {number origin : SeqNum} :
    (number.aheadOf origin).toNat = 0 ↔ number = origin := by
  constructor
  · intro zero
    rw [← advance_aheadOf number origin, UInt16.toNat_inj.mp (zero.trans UInt16.toNat_zero.symm),
      advance_zero]
  · rintro rfl
    rw [aheadOf_self, UInt16.toNat_zero]

/-- The number under which the packet at a position is sent. -/
def ofInt (position : Int) : SeqNum := ⟨.ofInt position⟩

theorem toNat_ofInt (position : Int) : ((ofInt position).word.toNat : Int) = position % 65536 := by
  simp only [ofInt, UInt16.ofInt, UInt16.toNat_ofNat']
  omega

theorem ofInt_eq_iff (position : Int) (number : SeqNum) :
    ofInt position = number ↔ position % 65536 = number.word.toNat := by
  rw [← toNat_ofInt]
  constructor
  · intro same
    rw [same]
  · intro same
    cases number
    simp only [ofInt, mk.injEq]
    exact UInt16.toNat_inj.mp (Int.ofNat_inj.mp same)

theorem ofInt_eq_ofInt_iff (position other : Int) :
    ofInt position = ofInt other ↔ position % 65536 = other % 65536 := by
  rw [ofInt_eq_iff, toNat_ofInt]

theorem advance_ofInt (position : Int) (distance : UInt16) :
    (ofInt position).advance distance = ofInt (position + distance.toNat) := by
  symm
  rw [ofInt_eq_iff, advance, UInt16.toNat_add]
  have residue := toNat_ofInt position
  omega

theorem toNat_distance {distance : Int} (low : 0 ≤ distance) (high : distance < 65536) :
    (UInt16.ofInt distance).toNat = distance.toNat := by
  have residue := toNat_ofInt distance
  simp only [ofInt] at residue
  omega

theorem aheadOf_ofInt (position origin : Int) :
    (ofInt position).aheadOf (ofInt origin) = .ofInt (position - origin) := by
  simp [aheadOf, ofInt, Int.sub_eq_add_neg, UInt16.sub_eq_add_neg]

theorem toNat_aheadOf_ofInt (position origin : Int) :
    (((ofInt position).aheadOf (ofInt origin)).toNat : Int) = (position - origin) % 65536 := by
  rw [aheadOf_ofInt]
  exact toNat_ofInt (position - origin)

/-- Every number has a position within half a cycle of a given one. -/
theorem exists_position (number : SeqNum) (origin : Int) :
    ∃ position, ofInt position = number ∧
      origin - 32768 ≤ position ∧ position < origin + 32768 := by
  have bound := number.word.toNat_lt
  refine ⟨origin - 32768 + (number.word.toNat - (origin - 32768)) % 65536, ?_, ?_, ?_⟩
  · rw [ofInt_eq_iff]
    omega
  · omega
  · omega

section HalfCycle

variable {position origin : Int} (low : origin - 32768 ≤ position)
  (high : position < origin + 32768)
include low high

theorem behind_ofInt_iff : (ofInt position).Behind (ofInt origin) ↔ position < origin := by
  have distance := toNat_aheadOf_ofInt position origin
  rw [Behind, UInt16.le_iff_toNat_le]
  change 32768 ≤ _ ↔ _
  omega

theorem outOfRange_ofInt_iff :
    (ofInt position).OutOfRange (ofInt origin) ↔ position < origin - 256 := by
  have distance := toNat_aheadOf_ofInt origin position
  rw [OutOfRange, behind_ofInt_iff low high, reorderLimit, UInt16.lt_iff_toNat_lt]
  change _ ∧ 256 < _ ↔ _
  omega

end HalfCycle

end Retransmission.SeqNum
