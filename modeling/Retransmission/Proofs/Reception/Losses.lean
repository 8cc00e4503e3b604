import Mathlib.Data.Int.Interval
import Retransmission.Proofs.Reception.Epochs

/-! The losses of one epoch, counted against the positions where nothing was
stored. Packets ahead leave positions out, and a late packet fills one of them or,
as a repeated one or one from before the opening, fills none and is still taken
for a filled one. So the counter never exceeds the missing positions. -/

namespace Retransmission

namespace Epoch

/-- The positions of the epoch where nothing was stored. -/
def missing (epoch : Epoch) (stored : List Int) : Finset Int :=
  -- Analysis orders the integers by an instance that cannot be computed, so this one is named.
  @Finset.Icc Int instLatticeInt.toPartialOrder.toPreorder Int.instLocallyFiniteOrder
    epoch.opening epoch.highest \ stored.toFinset

/-- Arrivals that stay in the epoch, by their positions and in their order. -/
def Continues (epoch : Epoch) : List Int → Prop
  | [] => True
  | position :: rest =>
    (epoch.highest - 256 ≤ position ∧ position ≤ epoch.highest + 32767) ∧
      (epoch.reach position).Continues rest

/-- The epoch of arrivals that open it at a position and go on with others. -/
def covering (opening : Int) (later : List Int) : Epoch :=
  later.foldl reach ⟨opening, opening⟩

variable {epoch : Epoch} {stored : List Int} {position : Int}

theorem mem_missing : position ∈ epoch.missing stored ↔
    (epoch.opening ≤ position ∧ position ≤ epoch.highest) ∧ position ∉ stored := by
  rw [missing, Finset.mem_sdiff, Finset.mem_Icc, List.mem_toFinset]

theorem card_missing_le (opened : epoch.opening ≤ epoch.highest) :
    ((epoch.missing stored).card : Int) ≤ epoch.span := by
  have bound : (epoch.missing stored).card ≤ (Finset.Icc epoch.opening epoch.highest).card :=
    Finset.card_le_card Finset.sdiff_subset
  rw [Int.card_Icc] at bound
  rw [span]
  omega

/-- A packet ahead leaves out the positions between it and the highest one before. -/
theorem card_missing_ahead (opened : epoch.opening ≤ epoch.highest)
    (covered : ∀ earlier ∈ stored, earlier ≤ epoch.highest) (ahead : epoch.highest < position) :
    ((epoch.reach position).missing (position :: stored)).card =
      (epoch.missing stored).card + (position - epoch.highest - 1).toNat := by
  have skipped : (epoch.reach position).missing (position :: stored) =
      epoch.missing stored ∪ Finset.Ioo epoch.highest position := by
    ext other
    simp only [mem_missing, Finset.mem_union, Finset.mem_Ioo, List.mem_cons, reach,
      max_eq_right (Int.le_of_lt ahead)]
    have bound := covered other
    by_cases earlier : other ∈ stored
    · simp only [earlier, or_true, not_true_eq_false, and_false, false_or, false_iff]
      have below := bound earlier
      omega
    · simp only [earlier, or_false, not_false_eq_true, and_true]
      omega
  have apart : Disjoint (epoch.missing stored) (Finset.Ioo epoch.highest position) := by
    rw [Finset.disjoint_left]
    intro other old new
    exact Int.not_lt.mpr (mem_missing.mp old).1.2 (Finset.mem_Ioo.mp new).1
  rw [skipped, Finset.card_union_of_disjoint apart, Int.card_Ioo]

theorem missing_late (late : position ≤ epoch.highest) :
    (epoch.reach position).missing (position :: stored) =
      (epoch.missing stored).erase position := by
  have same : epoch.reach position = epoch := by
    rw [reach, max_eq_left late]
  rw [same, missing, List.toFinset_cons, Finset.sdiff_insert, missing]

theorem opening_foldl_reach (epoch : Epoch) (positions : List Int) :
    (positions.foldl reach epoch).opening = epoch.opening := by
  induction positions generalizing epoch with
  | nil => rfl
  | cons position rest ih => exact ih (epoch.reach position)

theorem highest_le_foldl_reach (epoch : Epoch) (positions : List Int) :
    epoch.highest ≤ (positions.foldl reach epoch).highest := by
  induction positions generalizing epoch with
  | nil => exact le_refl _
  | cons position rest ih => exact le_trans (le_max_left ..) (ih (epoch.reach position))

theorem span_le_foldl_reach (epoch : Epoch) (positions : List Int) :
    epoch.span ≤ (positions.foldl reach epoch).span := by
  have opening := epoch.opening_foldl_reach positions
  have highest := epoch.highest_le_foldl_reach positions
  simp only [span]
  omega

/-- Counters that took the stored positions of one epoch in. When no arrival was wasted, the
lost packets are all that are missing. -/
structure Balance (counters : Counters) (epoch : Epoch) (stored : List Int) : Prop where
  highest : counters.highest = some (.ofInt epoch.highest)
  opened : epoch.opening ≤ epoch.highest
  covered : ∀ position ∈ stored, position ≤ epoch.highest
  lost_le : counters.lost.toNat ≤ (epoch.missing stored).card
  exact : stored.Nodup → (∀ position ∈ stored, epoch.opening ≤ position) →
    counters.lost.toNat = (epoch.missing stored).card

namespace Balance

variable {counters : Counters}

theorem opening (unopened : counters.highest = none) (unlost : counters.lost = 0) (position : Int) :
    Balance (counters.record (.ofInt position)) ⟨position, position⟩ [position] := by
  have filled : (Epoch.mk position position).missing [position] = ∅ := by
    rw [Finset.eq_empty_iff_forall_notMem]
    intro other member
    obtain ⟨within, apart⟩ := mem_missing.mp member
    exact apart (List.mem_singleton.mpr (Int.le_antisymm within.2 within.1))
  rw [Counters.record_opening unopened]
  refine ⟨rfl, le_refl _, by simp, ?_, ?_⟩
  · simp [unlost]
  · intro _ _
    simp [unlost, filled]

private theorem covered_reach (balance : Balance counters epoch stored) :
    ∀ earlier ∈ position :: stored, earlier ≤ (epoch.reach position).highest := by
  intro earlier member
  rcases List.mem_cons.mp member with rfl | older
  · exact le_max_right ..
  · exact le_trans (balance.covered earlier older) (le_max_left ..)

private theorem ahead (balance : Balance counters epoch stored)
    (above : epoch.highest < position) (high : position ≤ epoch.highest + 32767)
    (short : (epoch.reach position).span < 4294967296) :
    Balance (counters.record (.ofInt position)) (epoch.reach position) (position :: stored) := by
  have skipped := card_missing_ahead balance.opened balance.covered above
  have opened : (epoch.reach position).opening ≤ (epoch.reach position).highest :=
    le_trans balance.opened (le_max_left ..)
  have bound : ((epoch.reach position).missing (position :: stored)).card ≤
      (epoch.reach position).span := card_missing_le opened
  have lost_le := balance.lost_le
  have added : (counters.lost + .ofInt (position - epoch.highest - 1)).toNat =
      counters.lost.toNat + (position - epoch.highest - 1).toNat := by
    simp only [UInt32.toNat_add, UInt32.ofInt, UInt32.toNat_ofNat']
    omega
  rw [Counters.record_ahead balance.highest above (by omega)]
  refine ⟨?_, opened, balance.covered_reach, ?_, ?_⟩
  · rw [reach, max_eq_right (by omega)]
  · rw [added, skipped]
    omega
  · intro distinct within
    have exact := balance.exact (List.nodup_cons.mp distinct).2
      fun earlier member => within earlier (List.mem_cons_of_mem _ member)
    rw [added, skipped, exact]

/-- Whatever a late packet fills, one loss is taken back. Only when it fills no
missing position can the counter fall behind. -/
private theorem late (balance : Balance counters epoch stored)
    (low : epoch.highest - 256 ≤ position) (below : position ≤ epoch.highest) :
    Balance (counters.record (.ofInt position)) (epoch.reach position) (position :: stored) := by
  have retracted := Counters.toNat_retract counters.lost
  have lost_le := balance.lost_le
  rw [Counters.record_late balance.highest low below]
  refine ⟨?_, ?_, balance.covered_reach, ?_, ?_⟩
  · rw [reach, max_eq_left below]
    exact balance.highest
  · exact le_trans balance.opened (le_max_left ..)
  · rw [missing_late below, retracted]
    have erased := Finset.pred_card_le_card_erase (s := epoch.missing stored) (a := position)
    omega
  · intro distinct within
    obtain ⟨fresh, rest⟩ := List.nodup_cons.mp distinct
    have exact := balance.exact rest
      fun earlier member => within earlier (List.mem_cons_of_mem _ member)
    have hole : position ∈ epoch.missing stored :=
      mem_missing.mpr ⟨⟨within position List.mem_cons_self, below⟩, fresh⟩
    rw [missing_late below, retracted, exact, Finset.card_erase_of_mem hole]

theorem record (balance : Balance counters epoch stored)
    (low : epoch.highest - 256 ≤ position) (high : position ≤ epoch.highest + 32767)
    (short : (epoch.reach position).span < 4294967296) :
    Balance (counters.record (.ofInt position)) (epoch.reach position) (position :: stored) := by
  rcases Int.lt_or_le epoch.highest position with above | below
  · exact balance.ahead above high short
  · exact balance.late low below

end Balance

theorem Balance.run {cache : Cache} {requests : List Request} {positions : List Int}
    (balance : Balance cache.counters epoch stored)
    (arrivals : (requests.filterMap Request.packet?).map Packet.seq =
      positions.map SeqNum.ofInt)
    (continues : epoch.Continues positions) (unclosed : Request.report true ∉ requests)
    (short : (positions.foldl reach epoch).span < 4294967296) :
    Balance (cache.run requests).counters (positions.foldl reach epoch)
      (positions.reverse ++ stored) := by
  induction requests generalizing cache epoch stored positions with
  | nil =>
    obtain rfl : positions = [] := List.map_eq_nil_iff.mp arrivals.symm
    exact balance
  | cons request rest ih =>
    obtain ⟨different, remaining⟩ := List.ne_and_not_mem_of_not_mem_cons unclosed
    cases brought : request.packet? with
    | none =>
      have highest := cache.highest_next_quiet brought
      have lost := cache.lost_next_quiet brought different.symm
      rw [List.filterMap_cons_none brought] at arrivals
      refine ih ?_ arrivals continues remaining short
      exact ⟨highest.trans balance.highest, balance.opened, balance.covered,
        lost ▸ balance.lost_le, lost ▸ balance.exact⟩
    | some packet =>
      rw [List.filterMap_cons_some brought, List.map_cons] at arrivals
      cases positions with
      | nil => cases arrivals
      | cons position later =>
        obtain ⟨seq, others⟩ := List.cons.inj arrivals
        have within := (epoch.reach position).span_le_foldl_reach later
        have recorded := balance.record continues.1.1 continues.1.2 (lt_of_le_of_lt within short)
        rw [← seq, ← cache.counters_next_store brought] at recorded
        rw [List.reverse_cons, List.append_assoc]
        exact ih recorded others continues.2 remaining short

theorem Balance.run_new {cache : Cache} {requests : List Request} {opening : Int}
    {later : List Int} (unopened : cache.counters.highest = none) (unlost : cache.counters.lost = 0)
    (arrivals : (requests.filterMap Request.packet?).map Packet.seq =
      (opening :: later).map SeqNum.ofInt)
    (continues : Continues ⟨opening, opening⟩ later) (unclosed : Request.report true ∉ requests)
    (short : (covering opening later).span < 4294967296) :
    Balance (cache.run requests).counters (covering opening later)
      (later.reverse ++ [opening]) := by
  induction requests generalizing cache with
  | nil => cases arrivals
  | cons request rest ih =>
    obtain ⟨different, remaining⟩ := List.ne_and_not_mem_of_not_mem_cons unclosed
    cases brought : request.packet? with
    | none =>
      have highest := cache.highest_next_quiet brought
      have lost := cache.lost_next_quiet brought different.symm
      rw [List.filterMap_cons_none brought] at arrivals
      exact ih (highest.trans unopened) (lost.trans unlost) arrivals remaining
    | some packet =>
      rw [List.filterMap_cons_some brought, List.map_cons] at arrivals
      obtain ⟨seq, others⟩ := List.cons.inj arrivals
      have opened := Balance.opening unopened unlost opening
      rw [← seq, ← cache.counters_next_store brought] at opened
      exact opened.run others continues remaining short

theorem Balance.lost_eq {counters : Counters} (balance : Balance counters epoch stored)
    (distinct : stored.Nodup) (within : ∀ position ∈ stored, epoch.opening ≤ position) :
    (counters.lost.toNat : Int) = epoch.span - stored.length := by
  have inside : stored.toFinset ⊆ Finset.Icc epoch.opening epoch.highest := by
    intro position member
    have stored := List.mem_toFinset.mp member
    exact Finset.mem_Icc.mpr ⟨within position stored, balance.covered position stored⟩
  have fits := Finset.card_le_card inside
  rw [balance.exact distinct within, missing, Finset.card_sdiff_of_subset inside]
  rw [List.toFinset_card_of_nodup distinct, Int.card_Icc] at *
  have opened := balance.opened
  simp only [span] at *
  omega

end Epoch

/-- In an open period of one epoch no more packets are reported lost than are missing, and as
many when none arrives twice or before the opening. -/
theorem Cache.run_lost_le_missing {capacity : Nat} {cache : Cache}
    (created : Cache.create capacity = .ok cache) {requests : List Request} {opening : Int}
    {later : List Int}
    (arrivals : (requests.filterMap Request.packet?).map Packet.seq =
      (opening :: later).map SeqNum.ofInt)
    (continues : Epoch.Continues ⟨opening, opening⟩ later)
    (unclosed : Request.report true ∉ requests)
    (short : (Epoch.covering opening later).span < 4294967296) :
    let epoch := Epoch.covering opening later
    let stored := opening :: later
    ∃ figures, (cache.run requests).reply (.report false) = .reported figures ∧
      figures.lost.toNat ≤ (epoch.missing stored).card ∧
      (stored.Nodup → (∀ position ∈ stored, opening ≤ position) →
        figures.lost.toNat = (epoch.missing stored).card ∧
        (figures.lost.toNat : Int) = epoch.highest - opening + 1 - stored.length) := by
  intro epoch stored
  have balance : Epoch.Balance (cache.run requests).counters epoch
      (later.reverse ++ [opening]) := by
    have begun := counters_of_create created
    exact .run_new (congrArg Counters.highest begun) (congrArg Counters.lost begun) arrivals
      continues unclosed short
  have reordered : later.reverse ++ [opening] = stored.reverse := List.reverse_cons.symm
  have same : epoch.missing stored.reverse = epoch.missing stored := by
    simp only [Epoch.missing, List.toFinset_reverse]
  have start : epoch.opening = opening := Epoch.opening_foldl_reach _ later
  rw [reordered] at balance
  refine ⟨_, rfl, same ▸ balance.lost_le, ?_⟩
  intro distinct within
  have distinct' : stored.reverse.Nodup := List.nodup_reverse.mpr distinct
  have within' : ∀ position ∈ stored.reverse, epoch.opening ≤ position := by
    intro position member
    exact start ▸ within position (List.mem_reverse.mp member)
  have lost := balance.lost_eq distinct' within'
  rw [Epoch.span, start, List.length_reverse] at lost
  exact ⟨same ▸ balance.exact distinct' within', lost⟩

/-- A gap of two across the end of the cycle, a late packet in it and another gap leave two lost. -/
theorem Cache.run_lost_le_missing_reordered :
    let cache : Cache := .new ⟨4, rfl⟩
    let requests : List Request :=
      [.expect 3, .store ⟨65534⟩ .empty, .store ⟨1⟩ .empty, .report false, .store ⟨65535⟩ .empty,
        .expect 9, .store ⟨3⟩ .empty, .read ⟨1⟩ .empty]
    Cache.create 4 = .ok cache ∧
      ∃ figures, (cache.run requests).reply (.report false) = .reported figures ∧
        (figures.lost.toNat : Int) = 65539 - 65534 + 1 - 4 := by
  intro cache requests
  have created : Cache.create 4 = .ok cache := rfl
  have arrivals : (requests.filterMap Request.packet?).map Packet.seq =
      [65534, 65537, 65535, 65539].map SeqNum.ofInt := by decide
  have continues : Epoch.Continues ⟨65534, 65534⟩ [65537, 65535, 65539] := by
    simp [Epoch.Continues, Epoch.reach]
  obtain ⟨figures, reply, _, exact⟩ :=
    Cache.run_lost_le_missing created arrivals continues (by decide) (by decide)
  exact ⟨created, figures, reply, (exact (by decide) (by decide)).2⟩

end Retransmission
