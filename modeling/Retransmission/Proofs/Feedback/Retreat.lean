import Mathlib.Data.List.Induction
import Retransmission.Cache.Request
import Retransmission.Proofs.Feedback.Marking

namespace Retransmission

/-- An arrival takes the start back just when it lies behind the start and begins the window
anew. -/
theorem Window.first_mark_behind_iff (window : Window) (arrival : SeqNum) :
    (window.mark arrival).first.Behind window.first ↔
      arrival.Behind window.first ∧ (window.bits = 0 ∨ arrival.OutOfRange window.first) := by
  by_cases empty : window.bits = 0
  · simp [mark_empty empty, empty]
  · by_cases far : arrival.OutOfRange window.first
    · simp [mark_outOfRange far, far]
    · obtain ⟨start, placed, _⟩ := window.first.exists_position 0
      obtain ⟨position, rfl, low, high⟩ := arrival.exists_position start
      have near : start - 256 ≤ position := by
        rw [← placed, SeqNum.outOfRange_ofInt_iff low high] at far
        omega
      rw [first_mark_near placed.symm empty near high, ← placed,
        SeqNum.behind_ofInt_iff (by omega) (by omega), placed]
      simp only [empty, far, or_self, and_false, iff_false]
      omega

theorem Window.first_dropBlock_not_behind (window : Window) :
    ¬ window.dropBlock.first.Behind window.first := by
  rw [first_dropBlock, SeqNum.Behind, SeqNum.aheadOf_advance]
  decide

namespace Cache

theorem first_next_behind_iff (cache : Cache) (request : Request) :
    (cache.next request).first.Behind cache.first ↔
      ∃ packet, request.packet? = some packet ∧ packet.seq.Behind cache.first ∧
        (cache.window.bits = 0 ∨ packet.seq.OutOfRange cache.first) := by
  have still : ¬ cache.window.first.Behind cache.window.first := by
    rw [SeqNum.Behind, SeqNum.aheadOf_self]
    decide
  rw [first, first]
  cases brought : request.packet? with
  | some packet =>
    rw [cache.window_next_store brought]
    simpa using cache.window.first_mark_behind_iff packet.seq
  | none =>
    by_cases drained : request = .drain
    · subst drained
      simpa [next] using cache.window.first_dropBlock_not_behind
    · rw [cache.window_next_quiet brought drained]
      simpa using still

theorem bits_next_ne_zero (cache : Cache) {request : Request}
    (brought : request.packet? = some packet) : (cache.next request).window.bits ≠ 0 := by
  rw [cache.window_next_store brought]
  exact cache.window.bits_mark_ne_zero packet.seq

theorem exists_drain_of_empty (cache : Cache) {requests : List Request}
    (stored : requests.filterMap Request.packet? ≠ [])
    (empty : (cache.run requests).window.bits = 0) :
    ∃ earlier later, requests = earlier ++ .drain :: later ∧
      later.filterMap Request.packet? = [] := by
  induction requests using List.reverseRecOn with
  | nil => exact absurd rfl stored
  | append_singleton requests request ih =>
    rw [run_append, run_cons, run_nil] at empty
    cases brought : request.packet? with
    | some packet => exact absurd empty (bits_next_ne_zero _ brought)
    | none =>
      by_cases drained : request = .drain
      · subst drained
        exact ⟨requests, [], rfl, rfl⟩
      · rw [window_next_quiet _ brought drained] at empty
        have before : requests.filterMap Request.packet? ≠ [] := by
          simpa [brought] using stored
        obtain ⟨earlier, later, rfl, quiet⟩ := ih before empty
        exact ⟨earlier, later ++ [request], by simp, by simp [quiet, brought]⟩

/-- The start of the window moves back exactly when a number behind it is stored that is out of
range or finds the window empty. -/
theorem run_first_retreats_iff (cache : Cache) {requests : List Request}
    (stored : requests.filterMap Request.packet? ≠ []) (request : Request) :
    let before := cache.run requests
    ((before.next request).first.Behind before.first ↔
        ∃ packet, request.packet? = some packet ∧ packet.seq.Behind before.first ∧
          (before.window.bits = 0 ∨ packet.seq.OutOfRange before.first)) ∧
      (before.window.bits = 0 → ∃ earlier later, requests = earlier ++ .drain :: later ∧
        later.filterMap Request.packet? = []) :=
  ⟨first_next_behind_iff _ request, cache.exists_drain_of_empty stored⟩

/-- A drain takes the last mark past the end of the cycle, and a packet from the drained
block takes the start back. -/
theorem run_first_retreats_iff_drained :
    let requests : List Request :=
      [.store ⟨65530⟩ ⟨#[0]⟩, .store ⟨10⟩ ⟨#[1]⟩, .drain, .report true]
    let before := (Cache.new ⟨4, rfl⟩).run requests
    create 4 = .ok (.new ⟨4, rfl⟩) ∧ before.first = ⟨11⟩ ∧
      (before.next (.store ⟨9⟩ ⟨#[2]⟩)).first.Behind before.first ∧
      ∃ earlier later, requests = earlier ++ .drain :: later ∧
        later.filterMap Request.packet? = [] := by
  intro requests before
  have stored : requests.filterMap Request.packet? ≠ [] := by simp [requests, Request.packet?]
  have empty : before.window.bits = 0 := by decide +kernel
  obtain ⟨retreats, drained⟩ :=
    run_first_retreats_iff (.new ⟨4, rfl⟩) stored (.store ⟨9⟩ ⟨#[2]⟩)
  exact ⟨rfl, by decide +kernel, retreats.mpr ⟨_, rfl, by decide +kernel, .inl empty⟩,
    drained empty⟩

/-- After a drain that empties the window, a late packet in range takes its start back. -/
theorem first_retreats_late :
    let cache : Cache := .new ⟨4, rfl⟩
    let before := cache.run [.store ⟨5⟩ ⟨#[0]⟩, .drain]
    create 4 = .ok cache ∧ ¬ (SeqNum.mk 4).OutOfRange before.first ∧
      (before.next (.store ⟨4⟩ ⟨#[0]⟩)).first.Behind before.first := by
  intro cache before
  exact ⟨rfl, by decide +kernel, by decide +kernel⟩

end Cache

end Retransmission
