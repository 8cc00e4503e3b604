import Retransmission.Proofs.Reception.Periods

namespace Retransmission

/-- The packets that an arrival adds to those expected. -/
def Counters.gain (counters : Counters) (arrival : SeqNum) : Nat :=
  match counters.classify arrival with
  | .opening | .restart _ => 1
  | .ahead gap _ => gap.toNat
  | .late => 0

def Cache.gain (cache : Cache) (request : Request) : Nat :=
  request.packet?.elim request.announced fun packet => cache.counters.gain packet.seq

/-- The packets added to those expected since the last report that closed a period, when
`sum` were added before the run. -/
def Cache.gained (cache : Cache) (sum : Nat) : List Request → Nat
  | [] => sum
  | request :: rest =>
    (cache.next request).gained (if request = .report true then 0 else sum + cache.gain request)
      rest

/-- The counters of a period in which `sum` packets were added to those expected, with the
losses below the sum as long as it can be counted. -/
structure Counters.Sums (counters : Counters) (sum : Nat) : Prop where
  expected : counters.expected.toNat = sum % 4294967296
  lost : sum < 4294967296 → counters.lost.toNat ≤ sum - 1

namespace Counters

variable {counters : Counters} {sum : Nat}

theorem toNat_expected_record (counters : Counters) (arrival : SeqNum) :
    (counters.record arrival).expected.toNat =
      (counters.expected.toNat + counters.gain arrival) % 4294967296 := by
  have bound := counters.expected.toNat_lt
  cases kind : counters.classify arrival with
  | opening | restart => simp [record, gain, kind]
  | ahead gap wrapped => simp [record, gain, kind]
  | late =>
    simp only [record, gain, kind, Nat.add_zero]
    exact (Nat.mod_eq_of_lt bound).symm

/-- Among the packets that an arrival adds is the arrival itself. -/
theorem skipped_eq (counters : Counters) (arrival : SeqNum) :
    counters.skipped arrival = counters.gain arrival - 1 := by
  cases kind : counters.classify arrival <;> simp [skipped, gain, kind]

theorem gain_pos {arrival : SeqNum} (counted : counters.classify arrival ≠ .late) :
    0 < counters.gain arrival := by
  cases kind : counters.classify arrival with
  | opening | restart => simp [gain, kind]
  | ahead gap wrapped =>
    simp only [gain, kind]
    exact Nat.pos_of_ne_zero fun zero => gap_ne_zero kind (UInt16.toNat_inj.mp zero)
  | late => exact absurd kind counted

theorem Sums.record (sums : counters.Sums sum) (arrival : SeqNum) :
    (counters.record arrival).Sums (sum + counters.gain arrival) where
  expected := by
    rw [toNat_expected_record, sums.expected, Nat.mod_add_mod]
  lost := by
    intro few
    have before := sums.lost (by omega)
    have skipped := counters.skipped_eq arrival
    rw [counters.toNat_lost_record arrival (by omega), skipped]
    split
    · omega
    · -- Without the arrival itself the losses could catch up with the sum.
      rename_i counted
      have positive := gain_pos counted
      omega

theorem Sums.expect (sums : counters.Sums sum) (count : UInt32) :
    (counters.expect count).Sums (sum + count.toNat) where
  expected := by
    rw [Counters.expect, UInt32.toNat_add, sums.expected, Nat.mod_add_mod]
  lost := by
    intro few
    have before := sums.lost (by omega)
    exact Nat.le_trans before (by omega)

theorem Sums.below (sums : counters.Sums sum) (few : sum < 4294967296) :
    counters.lost = 0 ∧ counters.expected = 0 ∨ counters.lost < counters.expected := by
  have expected := sums.expected
  have lost := sums.lost few
  rw [Nat.mod_eq_of_lt few] at expected
  by_cases idle : sum = 0
  · subst idle
    exact .inl ⟨UInt32.toNat_inj.mp (Nat.le_zero.mp lost), UInt32.toNat_inj.mp expected⟩
  · exact .inr (UInt32.lt_iff_toNat_lt.mpr (by omega))

theorem sums_closePeriod (counters : Counters) : counters.closePeriod.Sums 0 :=
  ⟨rfl, fun _ => Nat.le_refl 0⟩

end Counters

theorem Counters.Sums.next {cache : Cache} {sum : Nat} (sums : cache.counters.Sums sum)
    (request : Request) :
    (cache.next request).counters.Sums
      (if request = .report true then 0 else sum + cache.gain request) := by
  cases request.counts with
  | arrival seq payload => exact sums.record seq
  | closing => exact sums_closePeriod _
  | announcing count storeless unclosing announced counted =>
    rw [counted, if_neg unclosing, Cache.gain, storeless, Option.elim_none, announced]
    exact sums.expect count

theorem Counters.Sums.run {cache : Cache} {sum : Nat} (sums : cache.counters.Sums sum)
    (requests : List Request) :
    (cache.run requests).counters.Sums (cache.gained sum requests) := by
  induction requests generalizing cache sum with
  | nil => exact sums
  | cons request rest ih => exact ih (sums.next request)

namespace Report

variable {report other : Report}

theorem toNat_fractionLost (expected : report.expected ≠ 0) :
    report.fractionLost.toNat = min (report.lost.toNat * 256 / report.expected.toNat) 255 := by
  rw [fractionLost, if_neg expected]
  exact Nat.mod_eq_of_lt (Nat.lt_succ_of_le (Nat.min_le_right ..))

/-- When only some of the packets are lost, their share needs no limit. -/
theorem toNat_fractionLost_of_below
    (below : report.lost = 0 ∧ report.expected = 0 ∨ report.lost < report.expected) :
    report.fractionLost.toNat =
        (if report.expected = 0 then 0
          else 256 * report.lost.toNat / report.expected.toNat) ∧
      256 * report.lost.toNat / report.expected.toNat < 256 := by
  rcases below with ⟨_, idle⟩ | fewer
  · rw [fractionLost, if_pos idle, if_pos idle, idle]
    exact ⟨rfl, by simp⟩
  · have expected : report.expected ≠ 0 := fun idle => by
      rw [idle] at fewer
      exact UInt32.not_lt_zero fewer
    have share : 256 * report.lost.toNat / report.expected.toNat < 256 := by
      rw [UInt32.lt_iff_toNat_lt] at fewer
      apply Nat.div_lt_of_lt_mul
      omega
    rw [if_neg expected, toNat_fractionLost expected, Nat.mul_comm _ 256]
    exact ⟨Nat.min_eq_left (Nat.le_of_lt_succ share), share⟩

theorem fractionLost_mono (same : report.expected = other.expected)
    (fewer : report.lost ≤ other.lost) : report.fractionLost ≤ other.fractionLost := by
  by_cases idle : report.expected = 0
  · rw [fractionLost, if_pos idle]
    exact UInt8.zero_le
  · rw [UInt8.le_iff_toNat_le, toNat_fractionLost idle, toNat_fractionLost (same ▸ idle), same]
    have share : report.lost.toNat * 256 / other.expected.toNat ≤
        other.lost.toNat * 256 / other.expected.toNat :=
      Nat.div_le_div_right (Nat.mul_le_mul_right 256 (UInt32.le_iff_toNat_le.mp fewer))
    omega

end Report

/-- In a period of fewer than 2 ^ 32 expected packets, fewer are lost than expected or none are
expected, so the share needs no limit. -/
theorem Cache.run_fraction_exact {capacity : Nat} {cache : Cache}
    (created : Cache.create capacity = .ok cache) {requests : List Request}
    (few : cache.gained 0 requests < 4294967296) (reset : Bool) :
    ∃ figures, (cache.run requests).reply (.report reset) = .reported figures ∧
      figures.expected.toNat = cache.gained 0 requests ∧
      (figures.lost = 0 ∧ figures.expected = 0 ∨ figures.lost < figures.expected) ∧
      figures.fractionLost.toNat =
        (if figures.expected = 0 then 0
          else 256 * figures.lost.toNat / figures.expected.toNat) ∧
      256 * figures.lost.toNat / figures.expected.toNat < 256 ∧
      ∀ other : Report, other.expected = figures.expected →
        (other.lost ≤ figures.lost → other.fractionLost ≤ figures.fractionLost) ∧
          (figures.lost ≤ other.lost → figures.fractionLost ≤ other.fractionLost) := by
  have start : cache.counters.Sums 0 := by
    rw [counters_of_create created]
    exact ⟨rfl, fun _ => Nat.le_refl 0⟩
  have sums := start.run requests
  have expected := sums.expected.trans (Nat.mod_eq_of_lt few)
  let figures := (cache.run requests).counters.report
  have below : figures.lost = 0 ∧ figures.expected = 0 ∨ figures.lost < figures.expected :=
    sums.below few
  have share := Report.toNat_fractionLost_of_below below
  refine ⟨figures, rfl, expected, below, share.1, share.2, ?_⟩
  intro other same
  exact ⟨Report.fractionLost_mono same, Report.fractionLost_mono same.symm⟩

/-- The first period is too long to be counted. In the second a packet skipped in the first
arrives, which takes no loss back. -/
theorem Cache.run_fraction_exact_late :
    let cache : Cache := .new ⟨4, rfl⟩
    let requests : List Request :=
      [.store ⟨65534⟩ .empty, .expect 0xFFFFFFFF, .store ⟨3⟩ .empty, .report true,
        .store ⟨1⟩ .empty, .store ⟨7⟩ .empty, .store ⟨5⟩ .empty, .expect 2]
    Cache.create 4 = .ok cache ∧ cache.gained 0 requests = 6 ∧
      ∃ figures, (cache.run requests).reply (.report true) = .reported figures ∧
        figures.expected = 6 ∧ figures.lost = 2 ∧ figures.lost < figures.expected ∧
        figures.fractionLost.toNat = 256 * 2 / 6 ∧
        figures.fractionLost ≤ Report.fractionLost ⟨6, 3, 0, 0⟩ := by
  intro cache requests
  have created : Cache.create 4 = .ok cache := rfl
  have counted : cache.gained 0 requests = 6 := by decide +kernel
  obtain ⟨figures, reply, _, below, share, _, monotone⟩ :=
    Cache.run_fraction_exact created (show cache.gained 0 requests < _ by
      rw [counted]
      decide) true
  have reported : (cache.run requests).reply (.report true) =
      .reported ⟨6, 2, 6, 0x10007⟩ := by decide +kernel
  rw [reported] at reply
  obtain rfl := Reply.reported.inj reply
  have fewer := below.resolve_left (by decide)
  have more := (monotone ⟨6, 3, 0, 0⟩ rfl).2 (by decide)
  exact ⟨created, counted, _, reported, rfl, rfl, fewer, share, more⟩

end Retransmission
