import Retransmission.Proofs.Reception.Epochs

/-! A run whose report periods are closed now and then, beside the same run in one open
period. A loss that was reported when its period closed is not taken back by a late packet
of a later period. So closed periods never have fewer losses in all, and never more than
they reported. -/

namespace Retransmission

/-- The losses that an arrival counts. Late ones may take them back. -/
def Counters.skipped (counters : Counters) (arrival : SeqNum) : Nat :=
  match counters.classify arrival with
  | .ahead gap _ => gap.toNat - 1
  | .opening | .restart _ | .late => 0

def Cache.skipped (cache : Cache) (request : Request) : Nat :=
  request.packet?.elim 0 fun packet => cache.counters.skipped packet.seq

/-- The losses that a run counts, whether they are taken back or not. -/
def Cache.skippedIn (cache : Cache) : List Request → Nat
  | [] => 0
  | request :: rest => cache.skipped request + (cache.next request).skippedIn rest

/-- The requests of a run that leave its report periods open. -/
def Request.unclosing (requests : List Request) : List Request :=
  requests.filter (· ≠ .report true)

namespace Counters

theorem classify_congr {counters other : Counters} (same : counters.highest = other.highest)
    (arrival : SeqNum) : counters.classify arrival = other.classify arrival := by
  rw [classify, classify, same]

theorem skipped_congr {counters other : Counters} (same : counters.highest = other.highest)
    (arrival : SeqNum) : counters.skipped arrival = other.skipped arrival := by
  rw [skipped, skipped, classify_congr same]

theorem toNat_lost_record (counters : Counters) (arrival : SeqNum)
    (few : counters.lost.toNat + counters.skipped arrival < 4294967296) :
    (counters.record arrival).lost.toNat =
      if counters.classify arrival = .late then counters.lost.toNat - 1
      else counters.lost.toNat + counters.skipped arrival := by
  cases kind : counters.classify arrival with
  | opening | restart => simp [record, skipped, kind]
  | ahead gap wrapped =>
    have positive : 0 < gap.toNat :=
      Nat.pos_of_ne_zero fun zero => gap_ne_zero kind (UInt16.toNat_inj.mp zero)
    have bound := gap.toNat_lt
    simp only [skipped, kind] at few
    simp only [record, skipped, kind, reduceCtorEq, if_false, UInt32.toNat_add, UInt32.toNat_sub,
      UInt16.toNat_toUInt32, UInt32.reduceToNat]
    omega
  | late => simp [record, kind, toNat_retract]

end Counters

/-- Counters of a run that reported `passed` expected and `folded` lost packets when periods
closed, beside those of the run in one period. -/
structure Alongside (closed whole : Counters) (passed folded : Nat) : Prop where
  highest : closed.highest = whole.highest
  cycles : closed.cycles = whole.cycles
  expected : (passed + closed.expected.toNat : Int) ≡ whole.expected.toNat [ZMOD 4294967296]
  lost_le : closed.lost.toNat ≤ whole.lost.toNat
  lost_le_add : whole.lost.toNat ≤ folded + closed.lost.toNat
  lostBefore : closed.lostBefore.toNat = folded
  unclosed : whole.lostBefore = 0

namespace Alongside

variable {closed whole : Counters} {passed folded : Nat}

private theorem expected_add (alongside : Alongside closed whole passed folded) (count : UInt32) :
    (passed + (closed.expected + count).toNat : Int) ≡ (whole.expected + count).toNat
      [ZMOD 4294967296] := by
  have expected := alongside.expected
  simp only [Int.ModEq, UInt32.toNat_add] at *
  omega

/-- Both runs count the same losses, and a late packet takes one back from each that has one
left. -/
theorem record (alongside : Alongside closed whole passed folded) (arrival : SeqNum)
    (few : folded + closed.lost.toNat + whole.skipped arrival < 4294967296) :
    Alongside (closed.record arrival) (whole.record arrival) passed folded ∧
      (closed.record arrival).lost.toNat ≤ closed.lost.toNat + whole.skipped arrival := by
  have kind := Counters.classify_congr alongside.highest arrival
  have skipped := Counters.skipped_congr alongside.highest arrival
  have lost_le := alongside.lost_le
  have lost_le_add := alongside.lost_le_add
  have lost := closed.toNat_lost_record arrival (by omega)
  have lostWhole := whole.toNat_lost_record arrival (by omega)
  rw [kind, skipped] at lost
  cases counted : whole.classify arrival with
  | opening | restart =>
    rw [counted] at kind
    simp only [Counters.record, kind, counted]
    refine ⟨{ alongside with highest := rfl, expected := alongside.expected_add 1 }, ?_⟩
    exact Nat.le_add_right ..
  | ahead gap wrapped =>
    rw [counted] at kind
    simp only [Counters.record, kind, counted, reduceCtorEq, if_false] at lost lostWhole ⊢
    refine ⟨{ alongside with
      highest := rfl
      cycles := by rw [alongside.cycles]
      expected := alongside.expected_add gap.toUInt32
      lost_le := ?_
      lost_le_add := ?_ }, Nat.le_of_eq lost⟩
    · rw [lost, lostWhole]
      exact Nat.add_le_add_right lost_le _
    · rw [lost, lostWhole]
      omega
  | late =>
    rw [counted] at kind
    simp only [Counters.record, kind, counted, if_true] at lost lostWhole ⊢
    refine ⟨{ alongside with lost_le := ?_, lost_le_add := ?_ }, ?_⟩
    · rw [lost, lostWhole]
      exact Nat.sub_le_sub_right lost_le 1
    · rw [lost, lostWhole]
      omega
    · rw [lost]
      omega

theorem expect (alongside : Alongside closed whole passed folded) (count : UInt32) :
    Alongside (closed.expect count) (whole.expect count) passed folded :=
  { alongside with expected := alongside.expected_add count }

/-- The losses of a closed period stay what they are, while the whole run may still take them
back. -/
theorem close (alongside : Alongside closed whole passed folded)
    (few : folded + closed.lost.toNat < 4294967296) :
    Alongside closed.closePeriod whole (passed + closed.expected.toNat)
      (folded + closed.lost.toNat) where
  highest := alongside.highest
  cycles := alongside.cycles
  expected := by simpa [Counters.closePeriod] using alongside.expected
  lost_le := by simp [Counters.closePeriod]
  lost_le_add := by simpa [Counters.closePeriod] using alongside.lost_le_add
  lostBefore := by
    have before := alongside.lostBefore
    simp only [Counters.closePeriod, UInt32.toNat_add]
    omega
  unclosed := alongside.unclosed

end Alongside

/-- Any request that closes no period does the same to both runs. -/
theorem Alongside.next {closed whole : Cache} {passed folded : Nat}
    (alongside : Alongside closed.counters whole.counters passed folded) {request : Request}
    (unclosing : request ≠ .report true)
    (few : folded + closed.counters.lost.toNat + whole.skipped request < 4294967296) :
    Alongside (closed.next request).counters (whole.next request).counters passed folded ∧
      (closed.next request).counters.lost.toNat ≤
        closed.counters.lost.toNat + whole.skipped request := by
  cases request.counts with
  | arrival seq payload => exact alongside.record seq few
  | closing => exact absurd rfl unclosing
  | announcing count _ _ _ counted =>
    rw [counted, counted]
    exact ⟨alongside.expect count, Nat.le_add_right ..⟩

theorem Alongside.run {closed whole : Cache} {passed folded : Nat}
    (alongside : Alongside closed.counters whole.counters passed folded) {requests : List Request}
    (few : folded + closed.counters.lost.toNat +
      whole.skippedIn (Request.unclosing requests) < 4294967296) :
    Alongside (closed.run requests).counters (whole.run (Request.unclosing requests)).counters
        (passed + ((closed.closingReports requests).map (·.expected.toNat)).sum)
        (folded + ((closed.closingReports requests).map (·.lost.toNat)).sum) ∧
      folded + ((closed.closingReports requests).map (·.lost.toNat)).sum +
        (closed.run requests).counters.lost.toNat < 4294967296 := by
  induction requests generalizing closed whole passed folded with
  | nil =>
    refine ⟨alongside, ?_⟩
    simp only [Cache.closingReports, List.map_nil, List.sum_nil, Cache.run_nil]
    omega
  | cons request rest ih =>
    by_cases closing : request = .report true
    · subst closing
      have shut := alongside.close (by omega)
      have later := @ih (closed.next (.report true)) whole _ _ shut few
      simpa [Request.unclosing, Cache.closingReports, Request.closingReport?, Cache.reply,
        Counters.report, Nat.add_assoc] using later
    · have kept : Request.unclosing (request :: rest) = request :: Request.unclosing rest :=
        List.filter_cons_of_pos (decide_eq_true closing)
      rw [kept, Cache.skippedIn] at few
      obtain ⟨stepped, lost⟩ := alongside.next closing (by omega)
      have later := ih stepped (by omega)
      simpa [kept, Cache.closingReports, Request.closingReport?_eq_none closing] using later

/-- Closing report periods changes no expected packet. It only keeps losses that a late packet
would have taken back, at most as many as were reported. -/
theorem Cache.run_reports_delay {capacity : Nat} {cache : Cache}
    (created : Cache.create capacity = .ok cache) {requests : List Request}
    (few : cache.skippedIn (Request.unclosing requests) < 4294967296) :
    let closed := cache.closingReports requests
    ∃ figures whole, (cache.run requests).reply (.report false) = .reported figures ∧
      (cache.run (Request.unclosing requests)).reply (.report false) = .reported whole ∧
      figures.extendedSeq = whole.extendedSeq ∧
      ((closed.map (·.expected.toNat)).sum + figures.expected.toNat : Int) ≡
        whole.expected.toNat [ZMOD 4294967296] ∧
      figures.lost ≤ whole.lost ∧ whole.totalLost ≤ figures.totalLost ∧
      figures.totalLost.toNat - whole.totalLost.toNat ≤ (closed.map (·.lost.toNat)).sum := by
  intro closed
  have start : Alongside cache.counters cache.counters 0 0 := by
    rw [counters_of_create created]
    exact ⟨rfl, rfl, rfl, Nat.le_refl _, Nat.zero_le _, rfl, rfl⟩
  have counted : 0 + cache.counters.lost.toNat +
      cache.skippedIn (Request.unclosing requests) < 4294967296 := by
    simpa [counters_of_create created, Counters.start] using few
  obtain ⟨alongside, short⟩ := start.run counted
  rw [Nat.zero_add, Nat.zero_add] at alongside
  rw [Nat.zero_add] at short
  have total : (cache.run requests).counters.report.totalLost.toNat =
      (closed.map (·.lost.toNat)).sum + (cache.run requests).counters.lost.toNat := by
    rw [Counters.report, UInt32.toNat_add, alongside.lostBefore]
    exact Nat.mod_eq_of_lt short
  have totalWhole : (cache.run (Request.unclosing requests)).counters.report.totalLost =
      (cache.run (Request.unclosing requests)).counters.lost := by
    rw [Counters.report, alongside.unclosed, UInt32.zero_add]
  have lost_le := alongside.lost_le
  refine ⟨_, _, rfl, rfl, ?_, alongside.expected, UInt32.le_iff_toNat_le.mpr lost_le, ?_, ?_⟩
  · simp only [Counters.report, Counters.extendedSeq, alongside.highest, alongside.cycles]
  · rw [UInt32.le_iff_toNat_le, total, totalWhole]
    exact alongside.lost_le_add
  · rw [total, totalWhole]
    omega

/-- Two periods close with four and three losses, and between them a packet arrives whose loss
was reported. Only the run in one period takes it back. -/
theorem Cache.run_reports_delay_late :
    let cache : Cache := .new ⟨4, rfl⟩
    let requests : List Request :=
      [.store ⟨65534⟩ .empty, .store ⟨3⟩ .empty, .report true, .store ⟨1⟩ .empty, .expect 2,
        .store ⟨7⟩ .empty, .report true, .store ⟨9⟩ .empty]
    Cache.create 4 = .ok cache ∧ cache.skippedIn (Request.unclosing requests) = 8 ∧
      ∃ figures whole, (cache.run requests).reply (.report false) = .reported figures ∧
        (cache.run (Request.unclosing requests)).reply (.report false) = .reported whole ∧
        figures.lost ≤ whole.lost ∧ whole.totalLost ≤ figures.totalLost ∧
        figures.totalLost.toNat - whole.totalLost.toNat ≤ 4 + 3 := by
  intro cache requests
  have created : Cache.create 4 = .ok cache := rfl
  have counted : cache.skippedIn (Request.unclosing requests) = 8 := by decide +kernel
  have closed : (cache.closingReports requests).map (·.lost.toNat) = [4, 3] := by decide +kernel
  obtain ⟨figures, whole, reply, replyWhole, _, _, lost, total, folded⟩ :=
    Cache.run_reports_delay created (show cache.skippedIn (Request.unclosing requests) < _ by
      rw [counted]
      decide)
  rw [closed] at folded
  exact ⟨created, counted, figures, whole, reply, replyWhole, lost, total, folded⟩

end Retransmission
