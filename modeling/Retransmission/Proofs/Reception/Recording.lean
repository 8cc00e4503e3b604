import Retransmission.Reception.Counters
import Retransmission.Proofs.Position

namespace Retransmission.Counters

variable {counters : Counters} {arrival : SeqNum} {highest position : Int}

/-- Only an arrival other than the highest number can be ahead of it. -/
theorem gap_ne_zero {gap : UInt16} {wrapped : Bool}
    (kind : counters.classify arrival = .ahead gap wrapped) : gap ≠ 0 := by
  rw [classify] at kind
  split at kind
  · cases kind
  · split at kind
    · cases kind
    · split at kind
      · rename_i behind
        cases kind
        exact SeqNum.aheadOf_ne_zero behind
      · cases kind

theorem record_opening (unknown : counters.highest = none) :
    counters.record arrival =
      { counters with highest := some arrival, expected := counters.expected + 1 } := by
  simp [record, classify, unknown]

theorem record_restart {last : SeqNum} (known : counters.highest = some last)
    (far : arrival.OutOfRange last) :
    counters.record arrival =
      { counters with highest := some arrival, expected := counters.expected + 1 } := by
  simp [record, classify, known, far]

private theorem classify_near (known : counters.highest = some (.ofInt highest))
    (low : highest - 256 ≤ position) (high : position < highest + 32768) :
    counters.classify (.ofInt position) =
      if highest < position then
        .ahead ((SeqNum.ofInt position).aheadOf (.ofInt highest))
          (decide ((SeqNum.ofInt position).word < (SeqNum.ofInt highest).word))
      else .late := by
  have near : ¬ (SeqNum.ofInt position).OutOfRange (.ofInt highest) := by
    rw [SeqNum.outOfRange_ofInt_iff (by omega) high]
    omega
  have behind : (SeqNum.ofInt highest).Behind (.ofInt position) ↔ highest < position :=
    SeqNum.behind_ofInt_iff (by omega) (by omega)
  simp [classify, known, near, behind]

/-- A packet ahead adds its whole way to the expected packets, and the skipped part to the lost. -/
theorem record_ahead (known : counters.highest = some (.ofInt highest))
    (ahead : highest < position) (high : position < highest + 32768) :
    counters.record (.ofInt position) =
      { counters with
        highest := some (.ofInt position)
        cycles := counters.cycles + .ofInt (position / 65536 - highest / 65536)
        expected := counters.expected + .ofInt (position - highest)
        lost := counters.lost + .ofInt (position - highest - 1) } := by
  have distance := SeqNum.toNat_aheadOf_ofInt position highest
  have gap : ((SeqNum.ofInt position).aheadOf (.ofInt highest)).toUInt32 =
      .ofInt (position - highest) := by
    apply UInt32.toNat_inj.mp
    simp only [UInt16.toNat_toUInt32, UInt32.ofInt, UInt32.toNat_ofNat']
    omega
  have turn : (if (SeqNum.ofInt position).word < (SeqNum.ofInt highest).word
      then counters.cycles + 1 else counters.cycles) =
      counters.cycles + .ofInt (position / 65536 - highest / 65536) := by
    have residue := SeqNum.toNat_ofInt position
    have oldResidue := SeqNum.toNat_ofInt highest
    split
    · rename_i wrapped
      rw [UInt16.lt_iff_toNat_lt] at wrapped
      have once : position / 65536 - highest / 65536 = 1 := by omega
      rw [once]
      rfl
    · rename_i straight
      rw [UInt16.lt_iff_toNat_lt] at straight
      have never : position / 65536 - highest / 65536 = 0 := by omega
      rw [never]
      exact (UInt16.add_zero _).symm
  have lost : UInt32.ofInt (position - highest) - 1 = .ofInt (position - highest - 1) := by
    rw [@Int.sub_eq_add_neg (position - highest) 1, UInt32.ofInt_add, UInt32.ofInt_neg_one,
      UInt32.sub_eq_add_neg]
  rw [record, classify_near known (by omega) high, if_pos ahead]
  simp only [decide_eq_true_eq, turn, gap, lost]

theorem toNat_retract (lost : UInt32) :
    (if lost = 0 then 0 else lost - 1).toNat = lost.toNat - 1 := by
  split
  · rename_i unlost
    simp [unlost]
  · rename_i counted
    have positive : 0 < lost.toNat :=
      Nat.pos_of_ne_zero fun zero => counted (UInt32.toNat_inj.mp zero)
    exact UInt32.toNat_sub_of_le _ _ (UInt32.le_iff_toNat_le.mpr positive)

theorem record_late (known : counters.highest = some (.ofInt highest))
    (low : highest - 256 ≤ position) (late : position ≤ highest) :
    counters.record (.ofInt position) =
      { counters with lost := if counters.lost = 0 then 0 else counters.lost - 1 } := by
  have notAhead : ¬ highest < position := by omega
  simp [record, classify_near known low (by omega), notAhead]

/-- The number of turns and the highest number fill the two halves without overlap. -/
theorem toNat_extendedSeq (counters : Counters) :
    counters.extendedSeq.toNat =
      65536 * counters.cycles.toNat + (counters.highest.getD ⟨0⟩).word.toNat := by
  have cyclesBound := counters.cycles.toNat_lt
  have numberBound := (counters.highest.getD ⟨0⟩).word.toNat_lt
  simp only [extendedSeq, UInt32.toNat_add, UInt32.toNat_mul, UInt16.toNat_toUInt32,
    UInt32.reduceToNat]
  omega

end Retransmission.Counters
