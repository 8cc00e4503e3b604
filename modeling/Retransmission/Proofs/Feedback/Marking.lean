import Retransmission.Cache.Request
import Retransmission.Proofs.Position

namespace Retransmission.Window

variable {window : Window} {arrival : SeqNum} {start position : Int}

theorem mark_empty (empty : window.bits = 0) : window.mark arrival = ⟨arrival, .twoPow 32 0⟩ := by
  simp [mark, place, empty]

theorem mark_outOfRange (far : arrival.OutOfRange window.first) :
    window.mark arrival = ⟨arrival, .twoPow 32 0⟩ := by
  by_cases empty : window.bits = 0
  · exact mark_empty empty
  · simp only [mark, place, if_neg empty, if_pos far]

/-- An arrival leaves a mark in the window, whether of its own or of earlier ones. -/
theorem bits_mark_ne_zero (window : Window) (arrival : SeqNum) :
    (window.mark arrival).bits ≠ 0 := by
  have own : BitVec.twoPow 32 0 ≠ 0 := by decide
  by_cases empty : window.bits = 0
  · rw [mark_empty empty]
    exact own
  · rw [mark]
    cases window.place arrival with
    | anchor | restart => exact own
    | stale => exact empty
    | inside offset =>
      intro cleared
      exact empty (BitVec.or_eq_zero_iff.mp cleared).1
    | beyond shift =>
      intro cleared
      exact absurd (BitVec.or_eq_zero_iff.mp cleared).2 (by decide)

theorem first_dropBlock_ofInt (placed : window.first = .ofInt start) :
    window.dropBlock.first = .ofInt (start + 17) := by
  rw [first_dropBlock, placed, SeqNum.advance_ofInt]
  rfl

variable (placed : window.first = .ofInt start) (nonempty : window.bits ≠ 0)
include placed nonempty

private theorem place_near (low : start - 256 ≤ position) (high : position < start + 32768) :
    window.place (.ofInt position) =
      if position < start then .stale
      else if position < start + 32 then .inside (.ofInt (position - start))
      else .beyond (.ofInt (position - start - 31)) := by
  have near : ¬ (SeqNum.ofInt position).OutOfRange (.ofInt start) := by
    rw [SeqNum.outOfRange_ofInt_iff (by omega) high]
    omega
  have behind : (SeqNum.ofInt position).Behind (.ofInt start) ↔ position < start :=
    SeqNum.behind_ofInt_iff (by omega) high
  have past : UInt16.ofInt (position - start) - (Window.width - 1) =
      .ofInt (position - start - 31) := by
    have last : UInt16.ofInt (-31) = -(Window.width - 1) := by decide
    rw [@Int.sub_eq_add_neg (position - start) 31, UInt16.ofInt_add, last, UInt16.sub_eq_add_neg]
  simp only [place, placed, if_neg nonempty, if_neg near, behind, SeqNum.aheadOf_ofInt, past]
  by_cases before : position < start
  · simp only [if_pos before]
  · have inside : UInt16.ofInt (position - start) < width ↔ position < start + 32 := by
      rw [UInt16.lt_iff_toNat_lt, SeqNum.toNat_distance (by omega) (by omega)]
      change _ < 32 ↔ _
      omega
    simp only [if_neg before, inside]

theorem mark_before (low : start - 256 ≤ position) (before : position < start) :
    window.mark (.ofInt position) = window := by
  simp [mark, place_near placed nonempty low (by omega), before]

theorem mark_inside (low : start ≤ position) (high : position < start + 32) :
    window.mark (.ofInt position) =
      { window with bits := window.bits ||| .twoPow 32 (position - start).toNat } := by
  have distance : (UInt16.ofInt (position - start)).toNat = (position - start).toNat :=
    SeqNum.toNat_distance (by omega) (by omega)
  rw [mark, place_near placed nonempty (by omega) (by omega), if_neg (by omega), if_pos high]
  simp only [distance]

theorem mark_beyond (low : start + 32 ≤ position) (high : position < start + 32768) :
    window.mark (.ofInt position) =
      ⟨.ofInt (position - 31),
        window.bits >>> (position - start - 31).toNat ||| .twoPow 32 31⟩ := by
  have distance : (UInt16.ofInt (position - start - 31)).toNat = (position - start - 31).toNat :=
    SeqNum.toNat_distance (by omega) (by omega)
  have moved : start + (position - start - 31).toNat = position - 31 := by omega
  rw [mark, place_near placed nonempty (by omega) high, if_neg (by omega), if_neg (by omega)]
  simp only [placed, SeqNum.advance_ofInt, distance, moved]

/-- An arrival in range moves the start no further than it has to. -/
theorem first_mark_near (low : start - 256 ≤ position) (high : position < start + 32768) :
    (window.mark (.ofInt position)).first = .ofInt (max start (position - 31)) := by
  by_cases before : position < start
  · rw [mark_before placed nonempty low before, placed, Int.max_eq_left (by omega)]
  · by_cases inside : position < start + 32
    · rw [mark_inside placed nonempty (by omega) inside, Int.max_eq_left (by omega)]
      exact placed
    · rw [mark_beyond placed nonempty (by omega) high, Int.max_eq_right (by omega)]

end Retransmission.Window

namespace Retransmission.Cache

theorem window_next_store (cache : Cache) {request : Request}
    (brought : request.packet? = some packet) :
    (cache.next request).window = cache.window.mark packet.seq := by
  cases request with
  | store seq payload =>
    cases brought
    rfl
  | _ => cases brought

/-- Only stores and drains change the window. -/
theorem window_next_quiet (cache : Cache) {request : Request} (quiet : request.packet? = none)
    (kept : request ≠ .drain) : (cache.next request).window = cache.window := by
  cases request with
  | store seq payload => cases quiet
  | drain => exact absurd rfl kept
  | report reset => cases reset <;> rfl
  | resize | resizeIfAdmitted => simp [next]
  | expect | read | readAt | readNewest | capacity | first => rfl

end Retransmission.Cache
