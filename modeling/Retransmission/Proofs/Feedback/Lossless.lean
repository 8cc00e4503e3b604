import Retransmission.Cache.Request
import Retransmission.Proofs.Feedback.Block

namespace Retransmission

theorem SeqNum.advance_ofNat_inj {number : SeqNum} {steps other : Nat} (within : steps < 65536)
    (withinOther : other < 65536) :
    number.advance (.ofNat steps) = number.advance (.ofNat other) ↔ steps = other := by
  constructor
  · intro same
    have distance := congrArg (fun reached => (reached.aheadOf number).toNat) same
    simpa [Nat.mod_eq_of_lt within, Nat.mod_eq_of_lt withinOther] using distance
  · rintro rfl
    rfl

namespace Drain

theorem nack?_eq_none_iff {drain : Drain} : drain.nack? = none ↔ drain.hasLoss = false := by
  rw [nack?]
  split <;> simp_all

theorem missing_of_nack {drain : Drain} {entry : Nack} (owed : drain.nack? = some entry) :
    entry.missing = drain.missing ∧ entry.packetId = drain.seq := by
  refine ⟨?_, ?_⟩
  · rw [missing, owed]
    rfl
  · rw [nack?] at owed
    split at owed
    · rw [← Option.some.inj owed]
    · cases owed

end Drain

namespace Window

variable {window other : Window}

theorem frontBlock_complete (complete : ∀ offset < 17, window.bits.getLsbD offset = true) :
    window.frontBlock = ⟨false, window.first, 0⟩ :=
  if_pos (window.gaps_eq_zero_iff.mpr complete)

theorem mem_missing_frontBlock_iff (window : Window) {offset : Nat} (within : offset < 17) :
    window.first.advance (.ofNat offset) ∈ window.frontBlock.missing ↔
      window.bits.getLsbD offset = false := by
  rw [missing_frontBlock, List.mem_map]
  constructor
  · rintro ⟨gap, member, same⟩
    obtain ⟨bound, absent⟩ := List.mem_filter.mp member
    have inside := List.mem_range.mp bound
    obtain rfl := (SeqNum.advance_ofNat_inj (by omega) (by omega)).mp same
    simpa using absent
  · intro absent
    exact ⟨offset, List.mem_filter.mpr ⟨List.mem_range.mpr within, by simp [absent]⟩, rfl⟩

theorem nodup_missing_frontBlock (window : Window) : window.frontBlock.missing.Nodup := by
  rw [missing_frontBlock, List.Nodup, List.pairwise_map]
  apply List.Pairwise.imp_of_mem _ (List.nodup_range.filter _)
  intro gap other member otherMember different same
  have inside := List.mem_range.mp (List.mem_filter.mp member).1
  have otherInside := List.mem_range.mp (List.mem_filter.mp otherMember).1
  exact different ((SeqNum.advance_ofNat_inj (by omega) (by omega)).mp same)

/-- The gaps of the block tell its marks, and the next window has all others. -/
theorem eq_of_drained (reported : window.frontBlock = other.frontBlock)
    (left : window.dropBlock = other.dropBlock) : window = other := by
  have first : window.first = other.first :=
    SeqNum.advance_inj.mp (congrArg Window.first left)
  have bits : window.bits = other.bits := by
    apply BitVec.eq_of_getLsbD_eq
    intro offset _
    by_cases front : offset < 17
    · have gap := window.mem_missing_frontBlock_iff front
      rw [reported, first, other.mem_missing_frontBlock_iff front] at gap
      cases marked : other.bits.getLsbD offset with
      | false => exact gap.mp marked
      | true => simpa [marked] using gap
    · have mark := congrArg (fun next => next.bits.getLsbD (offset - 17)) left
      have place : 17 + (offset - 17) = offset := by omega
      simpa only [bits_dropBlock, place] using mark
  exact congr (congrArg Window.mk first) bits

end Window

/-- A drain loses nothing: its reply lists all gaps of the front block in order, and the window
left has every mark after it. -/
theorem Cache.drain_lossless (cache : Cache) :
    let window := cache.window
    let left := (cache.next .drain).window
    ∃ drain, cache.reply .drain = .drained drain ∧
      left.first = window.first.advance 17 ∧
      (∀ offset < 15, left.bits.getLsbD offset = window.bits.getLsbD (17 + offset)) ∧
      (∀ offset ≥ 15, left.bits.getLsbD offset = false) ∧
      (drain.nack? = none ↔ ∀ offset < 17, window.bits.getLsbD offset = true) ∧
      (drain.nack? = none → drain.seq = window.first ∧ drain.mask = 0) ∧
      (∀ entry, drain.nack? = some entry →
        entry.missing = ((List.range 17).filter fun offset => !window.bits.getLsbD offset).map
          (fun offset => window.first.advance (.ofNat offset)) ∧
        entry.missing.Nodup ∧ entry.missing.head? = some drain.seq) ∧
      ∀ other : Cache, other.reply .drain = .drained drain → (other.next .drain).window = left →
        other.window = window := by
  intro window left
  have complete : window.frontBlock.nack? = none ↔
      ∀ offset < 17, window.bits.getLsbD offset = true := by
    rw [Drain.nack?_eq_none_iff, window.hasLoss_frontBlock]
  refine ⟨window.frontBlock, rfl, rfl, ?_, ?_, complete, ?_, ?_, ?_⟩
  · intro offset _
    exact window.bits_dropBlock offset
  · intro offset past
    exact (window.bits_dropBlock offset).trans (BitVec.getLsbD_of_ge _ _ (by omega))
  · intro unowed
    rw [Window.frontBlock_complete (complete.mp unowed)]
    exact ⟨rfl, rfl⟩
  · intro entry owed
    obtain ⟨missing, first⟩ := Drain.missing_of_nack owed
    refine ⟨?_, ?_, congrArg some first⟩
    · rw [missing, window.missing_frontBlock]
    · rw [missing]
      exact window.nodup_missing_frontBlock
  · intro other reply after
    exact Window.eq_of_drained (Reply.drained.inj reply) after

/-- A block whose only gaps are its two ends, across the end of the cycle, and one
without gaps. -/
theorem Cache.drain_lossless_ends :
    let cache : Cache := ⟨.start, ⟨⟨65530⟩, 0xFFFEFFFE⟩, .empty ⟨1, rfl⟩⟩
    let entry : Nack := ⟨⟨65530⟩, 0x8000⟩
    let whole : Cache := ⟨.start, ⟨⟨65530⟩, 0x8001FFFF⟩, .empty ⟨1, rfl⟩⟩
    cache.reply .drain = .drained ⟨true, ⟨65530⟩, 0x8000⟩ ∧
      Drain.nack? ⟨true, ⟨65530⟩, 0x8000⟩ = some entry ∧ entry.missing = [⟨65530⟩, ⟨10⟩] ∧
      (cache.next .drain).window = ⟨⟨11⟩, 0x7FFF⟩ ∧
      (∀ other : Cache, other.reply .drain = .drained ⟨true, ⟨65530⟩, 0x8000⟩ →
        (other.next .drain).window = ⟨⟨11⟩, 0x7FFF⟩ → other.window = ⟨⟨65530⟩, 0xFFFEFFFE⟩) ∧
      ∃ drain, whole.reply .drain = .drained drain ∧ drain.nack? = none ∧
        drain.seq = ⟨65530⟩ := by
  intro cache entry whole
  obtain ⟨drain, reply, _, _, _, _, _, owed, told⟩ := cache.drain_lossless
  obtain ⟨block, answer, _, _, _, complete, first, _⟩ := whole.drain_lossless
  have replied : cache.reply .drain = .drained ⟨true, ⟨65530⟩, 0x8000⟩ := by decide
  have left : (cache.next .drain).window = ⟨⟨11⟩, 0x7FFF⟩ := by decide
  rw [replied] at reply
  obtain rfl := Reply.drained.inj reply
  rw [left] at told
  have listed : entry.missing = [⟨65530⟩, ⟨10⟩] := by
    rw [(owed entry rfl).1]
    decide
  have unowed := complete.mpr (by decide)
  exact ⟨replied, rfl, listed, left, told, block, answer, unowed, (first unowed).1⟩

end Retransmission
