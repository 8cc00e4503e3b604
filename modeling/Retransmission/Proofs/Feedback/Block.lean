import Retransmission.Feedback.Drain

namespace Retransmission

/-- Every number that a drain reports, or none when it owes no feedback. -/
def Drain.missing (drain : Drain) : List SeqNum :=
  (drain.nack?.map Nack.missing).getD []

namespace Window

theorem getLsbD_gaps (window : Window) (offset : Nat) :
    window.gaps.getLsbD offset = (decide (offset < 17) && !window.bits.getLsbD offset) := by
  simp only [gaps, blockWidth, BitVec.getLsbD_setWidth, BitVec.getLsbD_not]
  by_cases within : offset < 17
  · simp [within, Nat.lt_trans within (by decide : 17 < 32)]
  · simp [within]

theorem gaps_eq_zero_iff (window : Window) :
    window.gaps = 0 ↔ ∀ offset < 17, window.bits.getLsbD offset = true := by
  constructor
  · intro complete offset within
    have gap := window.getLsbD_gaps offset
    simpa [complete, within] using gap
  · intro marked
    apply BitVec.eq_of_getLsbD_eq
    intro offset within
    have bound : offset < 17 := within
    simp [getLsbD_gaps, marked offset bound]

/-- The members of a range that pass a test, given where the first of them is. -/
private theorem filter_range_first {test : Nat → Bool} {first rest : Nat}
    (before : ∀ offset < first, test offset = false) (found : test first = true) :
    (List.range (first + 1 + rest)).filter test =
      first :: ((List.range rest).filter fun offset => test (first + 1 + offset)).map
        (first + 1 + ·) := by
  have unlisted : (List.range first).filter test = [] := by
    rw [List.filter_eq_nil_iff]
    intro offset member
    simp [before offset (List.mem_range.mp member)]
  rw [List.range_add, List.filter_append, List.range_succ, List.filter_append, unlisted,
    List.filter_map]
  simp [found, Function.comp_def]

private theorem filter_range_last {test : Nat → Bool} {count rest : Nat}
    (after : ∀ offset, count ≤ offset → test offset = false) :
    (List.range (count + rest)).filter test = (List.range count).filter test := by
  have unlisted : ((List.range rest).map (count + ·)).filter test = [] := by
    rw [List.filter_eq_nil_iff]
    intro offset member
    obtain ⟨step, _, rfl⟩ := List.mem_map.mp member
    simp [after (count + step) (Nat.le_add_right ..)]
  rw [List.range_add, List.filter_append, unlisted, List.append_nil]

theorem missing_frontBlock (window : Window) :
    window.frontBlock.missing =
      ((List.range 17).filter fun offset => !window.bits.getLsbD offset).map fun offset =>
        window.first.advance (.ofNat offset) := by
  have tests : (List.range 17).filter (fun offset => !window.bits.getLsbD offset) =
      (List.range 17).filter window.gaps.getLsbD := by
    apply List.filter_congr
    intro offset member
    simp [getLsbD_gaps, List.mem_range.mp member]
  rw [tests]
  by_cases complete : window.gaps = 0
  · simp only [Drain.missing, Drain.nack?, frontBlock, if_pos complete]
    simp [complete]
  · have found := BitVec.getLsbD_true_ctz_of_ne_zero complete
    have before (offset : Nat) (lower : offset < window.gaps.ctz.toNat) :=
      BitVec.getLsbD_false_of_lt_ctz lower
    simp only [Drain.missing, Drain.nack?, frontBlock, if_neg complete]
    generalize window.gaps.ctz.toNat = skipped at found before
    have within : skipped < 17 := by
      rw [getLsbD_gaps, Bool.and_eq_true, decide_eq_true_eq] at found
      exact found.1
    -- Bits of the mask past the block are clear, so they list nothing.
    have mask : ((List.range 16).filter fun bit =>
          decide (bit < 16) && window.gaps.getLsbD (skipped + 1 + bit)) =
        (List.range (16 - skipped)).filter fun bit => window.gaps.getLsbD (skipped + 1 + bit) := by
      have whole : List.range 16 = List.range (16 - skipped + skipped) := by
        congr 1
        omega
      rw [whole, filter_range_last]
      · apply List.filter_congr
        intro bit member
        have below : bit < 16 := by
          have bound := List.mem_range.mp member
          omega
        simp [below]
      · intro bit after
        have past : ¬ skipped + 1 + bit < 17 := by omega
        simp [getLsbD_gaps, past]
    have step (bit : Nat) : UInt16.ofNat skipped + (UInt16.ofNat bit + 1) =
        .ofNat (skipped + 1 + bit) := by
      rw [UInt16.ofNat_add, UInt16.ofNat_add, UInt16.add_comm _ 1, ← UInt16.add_assoc]
      rfl
    have parts : 17 = skipped + 1 + (16 - skipped) := by omega
    rw [parts, filter_range_first before found]
    simp [Nack.missing, Nack.following, SeqNum.advance_advance, mask, step]

theorem hasLoss_frontBlock (window : Window) :
    window.frontBlock.hasLoss = false ↔ ∀ offset < 17, window.bits.getLsbD offset = true := by
  rw [← gaps_eq_zero_iff, frontBlock]
  split <;> simp_all

end Window

end Retransmission
