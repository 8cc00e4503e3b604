import Retransmission.Proofs.Reception.Epochs

namespace Retransmission

namespace Counters

/-- A late arrival when no loss is counted in the present period. -/
def Unmatched (counters : Counters) (arrival : SeqNum) : Prop :=
  counters.classify arrival = .late ∧ counters.lost = 0

instance (counters : Counters) (arrival : SeqNum) : Decidable (counters.Unmatched arrival) :=
  inferInstanceAs (Decidable (_ ∧ _))

/-- Expected packets of the present period, less the lost ones of all periods. -/
def net (counters : Counters) : Int :=
  counters.expected.toNat - (counters.lostBefore.toNat + counters.lost.toNat)

/-- Each arrival adds one, by one more expected packet or by one loss fewer. -/
theorem net_record (counters : Counters) (arrival : SeqNum) :
    (counters.record arrival).net ≡
      counters.net + 1 - (if counters.Unmatched arrival then 1 else 0) [ZMOD 4294967296] := by
  cases counted : counters.classify arrival with
  | opening | restart =>
    simp only [record, Unmatched, counted, reduceCtorEq, false_and, if_false, net, Int.ModEq,
      UInt32.toNat_add, UInt32.reduceToNat]
    omega
  | ahead gap wrapped =>
    simp only [record, Unmatched, counted, reduceCtorEq, false_and, if_false, net, Int.ModEq,
      UInt32.toNat_add, UInt32.toNat_sub, UInt32.reduceToNat]
    omega
  | late =>
    by_cases unlost : counters.lost = 0
    · simp only [record, Unmatched, counted, unlost, and_self, if_true, net, Int.ModEq,
        UInt32.toNat_zero]
      omega
    · simp only [record, Unmatched, counted, unlost, and_false, if_false, net, Int.ModEq,
        UInt32.toNat_sub, UInt32.reduceToNat]
      omega

end Counters

/-- The stores of a run that are late when no loss is counted in their period. -/
def Cache.unmatched (cache : Cache) : List Request → Nat
  | [] => 0
  | request :: rest =>
    (request.packet?.filter fun packet => cache.counters.Unmatched packet.seq).toList.length +
      (cache.next request).unmatched rest

namespace Cache

variable (cache : Cache)

theorem net_next (request : Request) :
    (cache.next request).counters.net +
        ((request.closingReport? (cache.reply request)).toList.map (·.expected.toNat)).sum ≡
      cache.counters.net + request.packet?.toList.length + request.announced -
        (request.packet?.filter fun packet =>
          cache.counters.Unmatched packet.seq).toList.length [ZMOD 4294967296] := by
  cases request.counts with
  | arrival seq payload =>
    have recorded := cache.counters.net_record seq
    have count : ((Request.packet? (.store seq payload)).filter fun packet =>
        decide (cache.counters.Unmatched packet.seq)).toList.length =
          if cache.counters.Unmatched seq then 1 else 0 := by
      by_cases unmatched : cache.counters.Unmatched seq <;>
        simp [Request.packet?, unmatched]
    rw [count]
    simpa [next, store, Request.closingReport?, Request.packet?, Request.announced] using recorded
  | closing =>
    simp only [next, reply, Counters.report, Counters.closePeriod, Counters.net,
      Request.closingReport?, Request.packet?, Request.announced, Int.ModEq, UInt32.toNat_add,
      UInt32.toNat_zero, if_true, Option.toList_none, Option.toList_some, Option.filter_none,
      List.map_cons, List.map_nil, List.sum_cons, List.sum_nil, List.length_nil]
    omega
  | announcing count storeless unclosing announced counted =>
    rw [counted, storeless, announced, Request.closingReport?_eq_none unclosing]
    simp only [Counters.expect, Counters.net, Int.ModEq, UInt32.toNat_add, Option.toList_none,
      Option.filter_none, List.map_nil, List.sum_nil, List.length_nil]
    omega

/-- Losses join the earlier ones only when their period closes, and all of them then. -/
theorem lostBefore_next (request : Request) :
    ((cache.next request).counters.lostBefore.toNat : Int) ≡
      cache.counters.lostBefore.toNat +
        ((request.closingReport? (cache.reply request)).toList.map (·.lost.toNat)).sum
          [ZMOD 4294967296] := by
  cases request.counts with
  | arrival seq payload =>
    have same : (cache.counters.record seq).lostBefore = cache.counters.lostBefore := by
      simp only [Counters.record]
      split <;> rfl
    simp [next, store, same, Request.closingReport?]
  | closing =>
    simp only [next, reply, Counters.report, Counters.closePeriod, Request.closingReport?,
      Int.ModEq, UInt32.toNat_add, if_true, Option.toList_some, List.map_cons, List.map_nil,
      List.sum_cons, List.sum_nil]
    omega
  | announcing count _ unclosing _ counted =>
    rw [counted, Request.closingReport?_eq_none unclosing]
    simp [Counters.expect]

theorem net_run (requests : List Request) :
    (cache.run requests).counters.net +
        ((cache.closingReports requests).map (·.expected.toNat)).sum ≡
      cache.counters.net + (requests.filterMap Request.packet?).length +
        (requests.map Request.announced).sum - cache.unmatched requests [ZMOD 4294967296] := by
  induction requests generalizing cache with
  | nil => simp [closingReports, unmatched]
  | cons request rest ih =>
    have step := cache.net_next request
    have later := ih (cache.next request)
    have stores : (request :: rest).filterMap Request.packet? =
        request.packet?.toList ++ rest.filterMap Request.packet? := by
      cases brought : request.packet? <;> simp [brought]
    simp only [run_cons, closingReports, unmatched, stores, List.map_cons, List.sum_cons,
      List.map_append, List.sum_append, List.length_append, Int.ModEq] at *
    omega

theorem lostBefore_run (requests : List Request) :
    ((cache.run requests).counters.lostBefore.toNat : Int) ≡
      cache.counters.lostBefore.toNat +
        ((cache.closingReports requests).map (·.lost.toNat)).sum [ZMOD 4294967296] := by
  induction requests generalizing cache with
  | nil => simp [closingReports]
  | cons request rest ih =>
    have step := cache.lostBefore_next request
    have later := ih (cache.next request)
    simp only [run_cons, closingReports, List.map_append, List.sum_append, Int.ModEq] at *
    omega

end Cache

/-- Expected packets of all periods less all lost ones are the stores and the announced packets,
less the stores that found no loss to take back. -/
theorem Cache.run_conserves {capacity : Nat} {cache : Cache}
    (created : Cache.create capacity = .ok cache) (requests : List Request) :
    let closed := cache.closingReports requests
    ∃ figures, (cache.run requests).reply (.report false) = .reported figures ∧
      ((closed.map (·.expected.toNat)).sum + figures.expected.toNat : Int) -
          figures.totalLost.toNat ≡
        (requests.filterMap Request.packet?).length + (requests.map Request.announced).sum -
          cache.unmatched requests [ZMOD 4294967296] ∧
      (figures.totalLost.toNat : Int) ≡
        (closed.map (·.lost.toNat)).sum + figures.lost.toNat [ZMOD 4294967296] := by
  intro closed
  have net := cache.net_run requests
  have lostBefore := cache.lostBefore_run requests
  rw [counters_of_create created] at net lostBefore
  refine ⟨_, rfl, ?_, ?_⟩
  · simp only [closed, Counters.net, Counters.start, Counters.report, Int.ModEq, UInt32.toNat_add,
      UInt32.toNat_zero] at *
    omega
  · simp only [closed, Counters.start, Counters.report, Int.ModEq, UInt32.toNat_add,
      UInt32.toNat_zero] at *
    omega

/-- A repeated packet, a restart and a late packet after its loss was reported. The repeated and
the late one are unmatched. -/
theorem Cache.run_conserves_restarted :
    let cache : Cache := .new ⟨4, rfl⟩
    let requests : List Request :=
      [.store ⟨65534⟩ .empty, .store ⟨65534⟩ .empty, .store ⟨1⟩ .empty, .report true,
        .store ⟨65535⟩ .empty, .expect 9, .store ⟨40000⟩ .empty]
    Cache.create 4 = .ok cache ∧
      ∃ figures, (cache.run requests).reply (.report false) = .reported figures ∧
        (4 + figures.expected.toNat : Int) - figures.totalLost.toNat ≡ 5 + 9 - 2
          [ZMOD 4294967296] ∧
        (figures.totalLost.toNat : Int) ≡ 2 + figures.lost.toNat [ZMOD 4294967296] := by
  intro cache requests
  have created : Cache.create 4 = .ok cache := rfl
  obtain ⟨figures, reply, balance, lost⟩ := Cache.run_conserves created requests
  have expected : (cache.closingReports requests).map (·.expected.toNat) = [4] := by decide +kernel
  have losses : (cache.closingReports requests).map (·.lost.toNat) = [2] := by decide +kernel
  have unmatched : cache.unmatched requests = 2 := by decide +kernel
  rw [expected, unmatched] at balance
  rw [losses] at lost
  exact ⟨created, figures, reply, balance, lost⟩

end Retransmission
