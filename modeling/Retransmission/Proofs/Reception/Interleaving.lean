import Retransmission.Proofs.Reception.Losses

namespace Retransmission

/-- An order in which the calls of several callers may take the lock, each caller making its own
calls in turn. -/
inductive Interleaving : List (List Request) → List Request → Prop where
  | done (finished : ∀ calls ∈ callers, calls = []) : Interleaving callers []
  | call (before after : List (List Request))
      (rest : Interleaving (before ++ calls :: after) order) :
      Interleaving (before ++ (request :: calls) :: after) (request :: order)

/-- Every call of every caller is made once. -/
theorem Interleaving.perm (interleaved : Interleaving callers order) :
    order.Perm callers.flatten := by
  induction interleaved with
  | done finished =>
    rw [List.flatten_eq_nil_iff.mpr finished]
  | @call calls order request before after rest ih =>
    have moved : (before ++ (request :: calls) :: after).flatten.Perm
        (request :: (before ++ calls :: after).flatten) := by
      simp only [List.flatten_append, List.flatten_cons, List.cons_append]
      exact List.perm_middle
    exact (ih.cons request).trans moved.symm

namespace SeqNum

/-- Consecutive numbers, beginning with a given one. -/
def block (start : SeqNum) (count : Nat) : List SeqNum :=
  (List.range count).map fun offset => start.advance (.ofNat offset)

theorem mem_block {number start : SeqNum} {count : Nat} (short : count ≤ 65536) :
    number ∈ start.block count ↔ (number.aheadOf start).toNat < count := by
  rw [block, List.mem_map]
  constructor
  · rintro ⟨offset, member, rfl⟩
    have within := List.mem_range.mp member
    have exact : (UInt16.ofNat offset).toNat = offset :=
      UInt16.toNat_ofNat_of_lt (Nat.lt_of_lt_of_le within short)
    rwa [aheadOf_advance, exact]
  · intro within
    refine ⟨(number.aheadOf start).toNat, List.mem_range.mpr within, ?_⟩
    rw [UInt16.ofNat_toNat, advance_aheadOf]

/-- The position of a number at or after `start`, when `start` itself is at `base`. -/
def positionFrom (start : SeqNum) (base : Int) (number : SeqNum) : Int :=
  base + (number.aheadOf start).toNat

theorem ofInt_positionFrom {start : SeqNum} {base : Int} (placed : ofInt base = start)
    (number : SeqNum) : ofInt (start.positionFrom base number) = number := by
  rw [positionFrom, ← advance_ofInt, placed, advance_aheadOf]

end SeqNum

/-- A request that leaves the expected packets to the stores. -/
def Request.Quiet (request : Request) : Prop :=
  request.announced = 0 ∧ request ≠ .report true

instance (request : Request) : Decidable request.Quiet :=
  inferInstanceAs (Decidable (_ ∧ _))

theorem Cache.counters_next_still (cache : Cache) {request : Request} (quiet : request.Quiet)
    (storeless : request.packet? = none) : (cache.next request).counters = cache.counters := by
  cases request.counts with
  | arrival seq payload => cases storeless
  | closing => exact absurd rfl quiet.2
  | announcing count _ _ announced counted =>
    have zero : count = 0 := UInt32.toNat_inj.mp (announced.symm.trans quiet.1)
    rw [counted, zero, Counters.expect, UInt32.add_zero]

theorem Cache.counters_run_quiet (cache : Cache) {requests : List Request}
    (quiet : ∀ request ∈ requests, request.Quiet) :
    (cache.run requests).counters =
      ((requests.filterMap Request.packet?).map Packet.seq).foldl Counters.record
        cache.counters := by
  induction requests generalizing cache with
  | nil => rfl
  | cons request rest ih =>
    obtain ⟨first, others⟩ := List.forall_mem_cons.mp quiet
    rw [run_cons, ih _ others]
    cases brought : request.packet? with
    | none => rw [List.filterMap_cons_none brought, cache.counters_next_still first brought]
    | some packet =>
      rw [List.filterMap_cons_some brought, List.map_cons, List.foldl_cons,
        cache.counters_next_store brought]

namespace Epoch

variable {epoch : Epoch} {positions : List Int}

/-- Positions within the reordering limit of one another stay in one epoch. -/
theorem continues_of_within {low : Int}
    (within : ∀ position ∈ epoch.highest :: positions, low ≤ position ∧ position ≤ low + 256) :
    epoch.Continues positions := by
  induction positions generalizing epoch with
  | nil => trivial
  | cons position rest ih =>
    obtain ⟨⟨opened, reached⟩, ⟨above, below⟩, others⟩ :
        (low ≤ epoch.highest ∧ epoch.highest ≤ low + 256) ∧
          (low ≤ position ∧ position ≤ low + 256) ∧
          ∀ other ∈ rest, low ≤ other ∧ other ≤ low + 256 := by simpa using within
    refine ⟨⟨by omega, by omega⟩, ih (List.forall_mem_cons.mpr ⟨⟨?_, ?_⟩, others⟩)⟩
    · exact le_trans opened (le_max_left ..)
    · exact max_le reached below

theorem foldl_reach_eq {top : Int}
    (within : ∀ position ∈ epoch.highest :: positions, position ≤ top)
    (attained : top ∈ epoch.highest :: positions) :
    positions.foldl reach epoch = { epoch with highest := top } := by
  induction positions generalizing epoch with
  | nil =>
    cases List.mem_singleton.mp attained
    rfl
  | cons position rest ih =>
    obtain ⟨reached, below, others⟩ : epoch.highest ≤ top ∧ position ≤ top ∧
        ∀ other ∈ rest, other ≤ top := by simpa using within
    refine @ih (epoch.reach position) ?_ ?_
    · exact List.forall_mem_cons.mpr ⟨max_le reached below, others⟩
    · rcases List.mem_cons.mp attained with same | later
      · rw [reach, ← same, max_eq_left below]
        exact List.mem_cons_self
      · rcases List.mem_cons.mp later with same | after
        · rw [reach, ← same, max_eq_right reached]
          exact List.mem_cons_self
        · exact List.mem_cons_of_mem _ after

theorem Tally.foldl_record {counters : Counters} (tally : Tally counters [epoch] due)
    (continues : epoch.Continues positions) :
    Tally ((positions.map SeqNum.ofInt).foldl Counters.record counters)
      [positions.foldl Epoch.reach epoch] due := by
  induction positions generalizing counters epoch with
  | nil => exact tally
  | cons position rest ih => exact ih (tally.reach continues.1.1 continues.1.2) continues.2

end Epoch

/-- Of a short block, the numbers from its first arrival on are expected. -/
theorem Counters.expected_block {start first : SeqNum} {later : List SeqNum} {count : Nat}
    (short : count ≤ 256)
    (stored : ∀ number, number ∈ first :: later ↔ (number.aheadOf start).toNat < count) :
    (later.foldl record (Counters.start.record first)).expected.toNat +
      (first.aheadOf start).toNat = count := by
  have begun : (first.aheadOf start).toNat < count := (stored first).mp List.mem_cons_self
  -- The positions are counted so that the first arrival stands at its number.
  obtain ⟨base, placed⟩ : ∃ base : Int, base + (first.aheadOf start).toNat = first.word.toNat :=
    ⟨first.word.toNat - (first.aheadOf start).toNat, Int.sub_add_cancel ..⟩
  have stands : SeqNum.ofInt base = start := by
    rw [SeqNum.ofInt_eq_iff]
    have bound := start.word.toNat_lt
    simp only [SeqNum.aheadOf, UInt16.toNat_sub] at placed
    omega
  let position := start.positionFrom base
  have opened : Epoch.opened first = ⟨position first, position first⟩ := by
    simp only [position, SeqNum.positionFrom, placed, Epoch.opened]
  have within : ∀ other ∈ position first :: later.map position,
      base ≤ other ∧ other ≤ base + (count - 1 : Nat) := by
    rw [← List.map_cons, List.forall_mem_map]
    intro number arrived
    have near := (stored number).mp arrived
    simp only [position, SeqNum.positionFrom]
    omega
  have attained : base + (count - 1 : Nat) ∈ position first :: later.map position := by
    have distance : ((start.advance (.ofNat (count - 1))).aheadOf start).toNat = count - 1 := by
      rw [SeqNum.aheadOf_advance]
      exact UInt16.toNat_ofNat_of_lt (by change _ < 65536; omega)
    rw [← List.map_cons]
    refine List.mem_map.mpr ⟨start.advance (.ofNat (count - 1)), (stored _).mpr (by omega), ?_⟩
    simp only [position, SeqNum.positionFrom, distance]
  have tally : Epoch.Tally (later.foldl record (Counters.start.record first))
      [⟨position first, base + (count - 1 : Nat)⟩] 0 := by
    have opening := Epoch.tally_start.open first
    rw [opened, ← record_opening rfl] at opening
    have continues : Epoch.Continues ⟨position first, position first⟩ (later.map position) := by
      apply Epoch.continues_of_within
      intro other member
      obtain ⟨low, high⟩ := within other member
      exact ⟨low, by omega⟩
    have recorded := opening.foldl_record continues
    have numbers : (later.map position).map SeqNum.ofInt = later := by
      rw [List.map_map]
      exact List.map_id'' (SeqNum.ofInt_positionFrom stands) later
    rwa [numbers, Epoch.foldl_reach_eq (fun other member => (within other member).2) attained]
      at recorded
  have expected := tally.expected
  have bound := (later.foldl record (Counters.start.record first)).expected.toNat_lt
  simp only [List.map_cons, List.map_nil, List.sum_cons, List.sum_nil, Epoch.span, position,
    SeqNum.positionFrom, Int.ModEq] at expected
  omega

/-- However the callers interleave, the packets expected of a block that is stored once are
those from the first one stored to its end. -/
theorem Cache.run_expected_interleaved {capacity : Nat} {cache : Cache}
    (created : Cache.create capacity = .ok cache) {callers : List (List Request)}
    {order : List Request} (interleaved : Interleaving callers order) {start : SeqNum}
    {count : Nat} (positive : 0 < count) (short : count ≤ 256)
    (once : ((callers.flatten.filterMap Request.packet?).map Packet.seq).Perm (start.block count))
    (quiet : ∀ request ∈ callers.flatten, request.Quiet) :
    ∃ figures first, (cache.run order).reply (.report false) = .reported figures ∧
      ((order.filterMap Request.packet?).map Packet.seq).head? = some first ∧
      figures.expected.toNat + (first.aheadOf start).toNat = count ∧
      (figures.expected.toNat = count ↔ first = start) := by
  have same : ((order.filterMap Request.packet?).map Packet.seq).Perm (start.block count) :=
    ((interleaved.perm.filterMap _).map _).trans once
  have still : ∀ request ∈ order, request.Quiet :=
    fun request member => quiet request (interleaved.perm.mem_iff.mp member)
  have counters := cache.counters_run_quiet still
  have stored (number : SeqNum) : number ∈ (order.filterMap Request.packet?).map Packet.seq ↔
      (number.aheadOf start).toNat < count :=
    same.mem_iff.trans (SeqNum.mem_block (by omega))
  cases listed : (order.filterMap Request.packet?).map Packet.seq with
  | nil =>
    have member := (stored start).mpr (by simpa using positive)
    simp [listed] at member
  | cons first later =>
    simp only [listed] at stored counters
    have expected := Counters.expected_block short stored
    rw [counters_of_create created, List.foldl_cons] at counters
    rw [← counters] at expected
    refine ⟨_, first, rfl, rfl, expected, ?_⟩
    rw [← SeqNum.toNat_aheadOf_eq_zero_iff]
    change (cache.run order).counters.expected.toNat = count ↔ _
    omega

/-- The two ends of a block across the end of the cycle come from one caller, and the number
between them from another one that is first. -/
theorem Cache.run_expected_interleaved_late :
    let cache : Cache := .new ⟨4, rfl⟩
    let callers : List (List Request) :=
      [[.store ⟨65535⟩ .empty, .readNewest .empty, .store ⟨1⟩ .empty], [.store ⟨0⟩ .empty, .drain]]
    let order : List Request :=
      [.store ⟨0⟩ .empty, .store ⟨65535⟩ .empty, .readNewest .empty, .drain, .store ⟨1⟩ .empty]
    Cache.create 4 = .ok cache ∧ Interleaving callers order ∧
      ∃ figures, (cache.run order).reply (.report false) = .reported figures ∧
        figures.expected.toNat + 1 = 3 := by
  intro cache callers order
  have created : Cache.create 4 = .ok cache := rfl
  have interleaved : Interleaving callers order :=
    .call [[.store ⟨65535⟩ .empty, .readNewest .empty, .store ⟨1⟩ .empty]] []
      (.call [] [[.drain]] (.call [] [[.drain]] (.call [[.store ⟨1⟩ .empty]] []
        (.call [] [[]] (.done (by simp))))))
  obtain ⟨figures, first, reply, leading, expected, _⟩ :=
    Cache.run_expected_interleaved created interleaved (show 0 < 3 by decide) (by decide)
      (show List.Perm _ ((SeqNum.mk 65535).block 3) by decide) (by decide)
  cases leading
  exact ⟨created, interleaved, figures, reply, expected⟩

/-- Two callers store a block of two numbers, and the second number is first to take the lock. -/
theorem Cache.expected_misses_late :
    let cache : Cache := .new ⟨4, rfl⟩
    let callers : List (List Request) := [[.store ⟨0⟩ .empty], [.store ⟨1⟩ .empty]]
    let order : List Request := [.store ⟨1⟩ .empty, .store ⟨0⟩ .empty]
    Cache.create 4 = .ok cache ∧ Interleaving callers order ∧
      ((callers.flatten.filterMap Request.packet?).map Packet.seq).Perm ((SeqNum.mk 0).block 2) ∧
      ∃ figures, (cache.run order).reply (.report false) = .reported figures ∧
        figures.expected = 1 := by
  intro cache callers order
  have interleaved : Interleaving callers order :=
    .call [[.store ⟨0⟩ .empty]] [] (.call [] [[]] (.done (by simp)))
  exact ⟨rfl, interleaved, by decide, _, rfl, by decide +kernel⟩

end Retransmission
