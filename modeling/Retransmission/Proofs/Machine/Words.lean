import Retransmission.Machine.Basic
import Retransmission.Proofs.Feedback.Block
import Retransmission.Proofs.Machine.Memory
import Retransmission.Proofs.Reception.Recording

namespace Retransmission

open Machine

namespace Counters

variable {counters : Counters} {arrival : SeqNum}

/-- The way ahead is at least 1, and a loss is taken back only if there is one. -/
theorem record?_eq (counters : Counters) (arrival : SeqNum) :
    counters.record? arrival = some (counters.record arrival) := by
  rw [record?, record]
  cases kind : counters.classify arrival with
  | opening | restart => rfl
  | ahead gap wrapped =>
    have skipped : (1 : UInt32) ≤ gap.toUInt32 := by
      rw [UInt32.le_iff_toNat_le, UInt16.toNat_toUInt32]
      exact Nat.pos_of_ne_zero fun zero => gap_ne_zero kind (UInt16.toNat_inj.mp zero)
    simp only [sub?_of_le skipped, Option.bind_eq_bind, Option.bind_some]
    rfl
  | late =>
    by_cases noLoss : counters.lost = 0
    · obtain ⟨_, _, _, lost, _⟩ := counters
      cases noLoss
      rfl
    · have lost : 1 ≤ counters.lost := by
        rw [UInt32.le_iff_toNat_le]
        exact Nat.pos_of_ne_zero fun zero => noLoss (UInt32.toNat_inj.mp zero)
      simp only [noLoss, if_false, sub?_of_le lost, Option.bind_eq_bind, Option.bind_some]
      rfl

/-- The halves of the word do not overlap, so joining their bits adds them. -/
theorem extendedSeq?_eq (counters : Counters) :
    counters.extendedSeq? = some counters.extendedSeq := by
  have shifted := check_pos (show 16 < 32 by decide) (counters.cycles.toBitVec.setWidth 32 <<< 16)
  rw [extendedSeq?, shiftLeft?, shifted]
  refine congrArg some (UInt32.toNat_inj.mp ?_)
  have upper : 65536 * counters.cycles.toNat % 4294967296 = 65536 * counters.cycles.toNat := by
    have bound := counters.cycles.toNat_lt
    omega
  have lower := (counters.highest.getD ⟨0⟩).word.toNat_lt
  have joined := Nat.shiftLeft_add_eq_or_of_lt lower counters.cycles.toNat
  rw [toNat_extendedSeq]
  simpa [upper, Nat.shiftLeft_eq, Nat.mul_comm] using joined.symm

theorem report?_eq (counters : Counters) : counters.report? = some counters.report := by
  rw [report?, extendedSeq?_eq]
  rfl

end Counters

namespace Window

theorem place?_eq (window : Window) (arrival : SeqNum) :
    window.place? arrival = some (window.place arrival) := by
  rw [place?, place]
  split
  · rfl
  split
  · rfl
  split
  · rfl
  split
  · rfl
  · rename_i past
    have beyond : width - 1 ≤ arrival.aheadOf window.first := by
      simp only [width] at past ⊢
      grind
    rw [sub?_of_le beyond]
    rfl

theorem lt_width_of_inside {window : Window} {arrival : SeqNum} {offset : UInt16}
    (kind : window.place arrival = .inside offset) : offset < width := by
  rw [place] at kind
  split at kind
  · cases kind
  split at kind
  · cases kind
  split at kind
  · cases kind
  split at kind
  · rename_i short
    cases kind
    exact short
  · cases kind

/-- A mark goes to one of the 32 bits, or to the last of them. -/
theorem mark?_eq (window : Window) (arrival : SeqNum) :
    window.mark? arrival = some (window.mark arrival) := by
  rw [mark?, place?_eq, mark]
  cases kind : window.place arrival with
  | anchor | restart | stale | beyond => rfl
  | inside offset =>
    have shifted := check_pos (show offset.toNat < 32 from lt_width_of_inside kind)
      ((1 : BitVec 32) <<< offset.toNat)
    simp only [shiftLeft?, shifted, Option.bind_eq_bind, Option.bind_some]
    rfl

theorem ctz_gaps_lt {window : Window} (missing : window.gaps ≠ 0) :
    window.gaps.ctz.toNat < 17 := by
  have found := BitVec.getLsbD_true_ctz_of_ne_zero missing
  rw [getLsbD_gaps, Bool.and_eq_true, decide_eq_true_eq] at found
  exact found.1

/-- Of the 17 bits of a block at least one is shifted out, so 16 hold the rest. -/
theorem toNat_gaps_shiftRight_lt (window : Window) (skipped : Nat) :
    window.gaps.toNat >>> (skipped + 1) < 65536 := by
  have bound : window.gaps.toNat < 2 ^ 17 := window.gaps.isLt
  have shorter := Nat.shiftRight_le window.gaps.toNat skipped
  rw [Nat.shiftRight_succ]
  omega

theorem drain?_eq (window : Window) :
    window.drain? = some (window.frontBlock, window.dropBlock) := by
  have dropped := check_pos (show blockWidth < 32 by decide) (window.bits >>> blockWidth)
  simp only [drain?, shiftRight?, dropped, Option.bind_eq_bind, Option.bind_some, frontBlock]
  by_cases whole : window.gaps = 0
  · simp only [whole, if_true]
    rfl
  · have skipped := ctz_gaps_lt whole
    generalize window.gaps.ctz.toNat = zeros at skipped
    have number := narrow?_of_lt (show zeros < 65536 by omega)
    have sum : add? UInt32.size zeros 1 = some (zeros + 1) :=
      check_pos (show zeros + 1 < 4294967296 by omega) _
    have shifted := check_pos (show zeros + 1 < 32 by omega)
      (window.gaps.setWidth 32 >>> (zeros + 1))
    have bound : window.gaps.toNat < 2 ^ 17 := window.gaps.isLt
    have widened : (window.gaps.setWidth 32 >>> (zeros + 1)).toNat =
        window.gaps.toNat >>> (zeros + 1) := by
      rw [BitVec.toNat_ushiftRight, BitVec.toNat_setWidth, Nat.mod_eq_of_lt (by omega)]
    have mask : (UInt16.ofNat (window.gaps.toNat >>> (zeros + 1))).toBitVec =
        (window.gaps >>> (zeros + 1)).setWidth 16 := by
      apply BitVec.eq_of_toNat_eq
      rw [BitVec.toNat_setWidth, BitVec.toNat_ushiftRight]
      exact UInt16.toNat_ofNat'
    simp only [whole, if_false, number, sum, shifted, widened,
      narrow?_of_lt (window.toNat_gaps_shiftRight_lt zeros), mask, Option.bind_some]
    rfl

end Window

end Retransmission
