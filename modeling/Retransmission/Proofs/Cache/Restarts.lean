import Retransmission.Proofs.Feedback.Marking
import Retransmission.Proofs.Reception.Counting
import Retransmission.Proofs.Reception.Recording

/-! Restarts of the statistics and of the arrival window. The statistics measure an
arrival from the highest number and the window from its first one. The two numbers
stay close, and an arrival restarts one side alone just when it lies between their
limits of range. -/

namespace Retransmission

/-- An arrival with which the statistics start over. -/
def Counters.Restarts (counters : Counters) (arrival : SeqNum) : Prop :=
  ∃ highest, counters.classify arrival = .restart highest

/-- An arrival at which the window begins again. -/
def Window.Restarts (window : Window) (arrival : SeqNum) : Prop :=
  window.place arrival = .restart

namespace SeqNum

/-- The number of a position from `low` up to, but not including, `high`. -/
def Between (number : SeqNum) (low high : Int) : Prop :=
  ∃ position, ofInt position = number ∧ low ≤ position ∧ position < high

/-- Counted forwards, the numbers out of range are those from half the cycle on
that come before the reordering limit. -/
theorem outOfRange_iff_between (number : SeqNum) (origin : Int) :
    number.OutOfRange (.ofInt origin) ↔ number.Between (origin + 32768) (origin + 65280) := by
  obtain ⟨position, rfl, low, high⟩ := number.exists_position origin
  rw [outOfRange_ofInt_iff low high]
  constructor
  · intro far
    refine ⟨position + 65536, ?_, by omega, by omega⟩
    rw [ofInt_eq_ofInt_iff]
    omega
  · rintro ⟨turned, same, above, below⟩
    rw [ofInt_eq_ofInt_iff] at same
    omega

/-- A number is out of range of one of two near references alone when it lies between their
limits. -/
theorem outOfRange_apart_iff (number : SeqNum) {origin other : Int}
    (low : other - 32512 ≤ origin) (high : origin ≤ other + 32512) :
    number.OutOfRange (.ofInt origin) ∧ ¬ number.OutOfRange (.ofInt other) ↔
      number.Between (other - 256) (origin - 256) ∨
        number.Between (origin + 32768) (other + 32768) := by
  simp only [outOfRange_iff_between]
  constructor
  · rintro ⟨⟨position, stands, past, short⟩, apart⟩
    by_cases half : position < other + 32768
    · exact .inr ⟨position, stands, past, half⟩
    · have beyond : other + 65280 ≤ position := by
        apply Int.not_lt.mp
        intro within
        exact apart ⟨position, stands, by omega, within⟩
      refine .inl ⟨position - 65536, ?_, by omega, by omega⟩
      rw [← stands, ofInt_eq_ofInt_iff]
      omega
  · rintro (⟨position, rfl, past, short⟩ | ⟨position, rfl, past, short⟩)
    · refine ⟨⟨position + 65536, ?_, by omega, by omega⟩, ?_⟩
      · rw [ofInt_eq_ofInt_iff]
        omega
      · rintro ⟨turned, same, above, below⟩
        rw [ofInt_eq_ofInt_iff] at same
        omega
    · refine ⟨⟨position, rfl, past, by omega⟩, ?_⟩
      rintro ⟨turned, same, above, below⟩
      rw [ofInt_eq_ofInt_iff] at same
      omega

/-- Near references agree on what is out of range only when they are the same. -/
theorem outOfRange_agree_iff {origin other : Int}
    (low : other - 32512 ≤ origin) (high : origin ≤ other + 32512) :
    (∀ number : SeqNum, number.OutOfRange (.ofInt origin) ↔ number.OutOfRange (.ofInt other)) ↔
      origin = other := by
  constructor
  · intro agree
    rcases Int.lt_trichotomy origin other with lower | same | higher
    · have between : (ofInt (origin - 256)).Between (origin - 256) (other - 256) :=
        ⟨origin - 256, rfl, by omega, by omega⟩
      obtain ⟨far, near⟩ := (outOfRange_apart_iff _ (by omega) (by omega)).mpr (.inl between)
      exact absurd ((agree _).mpr far) near
    · exact same
    · have between : (ofInt (other - 256)).Between (other - 256) (origin - 256) :=
        ⟨other - 256, rfl, by omega, by omega⟩
      obtain ⟨far, near⟩ := (outOfRange_apart_iff _ low high).mpr (.inl between)
      exact absurd ((agree _).mp far) near
  · intro same number
    rw [same]

end SeqNum

theorem Counters.restarts_iff {counters : Counters} {highest : SeqNum}
    (known : counters.highest = some highest) (arrival : SeqNum) :
    counters.Restarts arrival ↔ arrival.OutOfRange highest := by
  by_cases far : arrival.OutOfRange highest
  · simp [Restarts, classify, known, far]
  · by_cases ahead : highest.Behind arrival <;> simp [Restarts, classify, known, far, ahead]

theorem Window.restarts_iff {window : Window} (nonempty : window.bits ≠ 0) (arrival : SeqNum) :
    window.Restarts arrival ↔ arrival.OutOfRange window.first := by
  by_cases far : arrival.OutOfRange window.first
  · simp only [Restarts, place, if_neg nonempty, far, if_true]
  · simp only [Restarts, place, if_neg nonempty, if_neg far]
    split
    · simp [far]
    · split <;> simp [far]

/-- An arrival becomes the highest number, unless it is late. -/
theorem Counters.highest_record {counters : Counters} {highest : Int}
    (known : counters.highest = some (.ofInt highest)) (arrival : SeqNum) :
    (counters.record arrival).highest = some arrival ∨
      (counters.record arrival).highest = some (.ofInt highest) ∧
        ∃ position, .ofInt position = arrival ∧
          highest - 256 ≤ position ∧ position ≤ highest := by
  by_cases far : arrival.OutOfRange (.ofInt highest)
  · rw [record_restart known far]
    exact .inl rfl
  · obtain ⟨position, rfl, low, high⟩ := arrival.exists_position highest
    rw [SeqNum.outOfRange_ofInt_iff low high] at far
    by_cases ahead : highest < position
    · rw [record_ahead known ahead high]
      exact .inl rfl
    · rw [record_late known (by omega) (by omega)]
      exact .inr ⟨known, position, rfl, by omega, by omega⟩

/-- An arrival begins the window again, or moves its start no further than it has to. -/
theorem Window.first_mark {window : Window} {start : Int}
    (placed : window.first = .ofInt start) (nonempty : window.bits ≠ 0) (arrival : SeqNum) :
    window.mark arrival = ⟨arrival, .twoPow 32 0⟩ ∨
      ∃ position, .ofInt position = arrival ∧
        start - 256 ≤ position ∧ position < start + 32768 ∧
        (window.mark arrival).first = .ofInt (max start (position - 31)) ∧
        (position < start → window.mark arrival = window) := by
  by_cases far : arrival.OutOfRange window.first
  · exact .inl (mark_outOfRange far)
  · obtain ⟨position, rfl, low, high⟩ := arrival.exists_position start
    rw [placed, SeqNum.outOfRange_ofInt_iff low high] at far
    exact .inr ⟨position, rfl, by omega, high, first_mark_near placed nonempty (by omega) high,
      mark_before placed nonempty (by omega)⟩

/-- The references of the two sides, at positions near one another. One drain may take the
window past the highest number. -/
structure References (counters : Counters) (window : Window) (start highest : Int) : Prop where
  placed : window.first = .ofInt start
  known : counters.highest = some (.ofInt highest)
  above : highest ≤ start + 256
  below : start - 256 ≤ highest ∨
    start - 273 ≤ highest ∧ ∀ offset ≥ 15, window.bits.getLsbD offset = false

namespace References

variable {counters : Counters} {window : Window} {start highest : Int}

/-- A window that begins at an arrival is near the highest number, whether the arrival
is late or becomes the highest itself. -/
theorem anchor (arrival : SeqNum) (anchored : window.mark arrival = ⟨arrival, .twoPow 32 0⟩) :
    ∃ start highest, References (counters.record arrival) (window.mark arrival) start highest := by
  have first : (window.mark arrival).first = arrival := by rw [anchored]
  have raised (becomes : (counters.record arrival).highest = some arrival) :
      ∃ start highest,
        References (counters.record arrival) (window.mark arrival) start highest := by
    obtain ⟨position, rfl, _⟩ := arrival.exists_position 0
    exact ⟨position, position, first, becomes, by omega, .inl (by omega)⟩
  cases known : counters.highest with
  | none =>
    apply raised
    rw [Counters.record_opening known]
  | some number =>
    obtain ⟨highest, rfl, _⟩ := number.exists_position 0
    rcases Counters.highest_record known arrival with becomes | ⟨stays, position, rfl, low, high⟩
    · exact raised becomes
    · exact ⟨position, highest, first, stays, by omega, .inl (by omega)⟩

theorem store (references : References counters window start highest)
    (nonempty : window.bits ≠ 0) (arrival : SeqNum) :
    ∃ start highest, References (counters.record arrival) (window.mark arrival) start highest := by
  rcases Window.first_mark references.placed nonempty arrival with
    anchored | ⟨position, stands, low, high, moved, stale⟩
  · exact anchor arrival anchored
  · have above := references.above
    have below := references.below
    rcases Counters.highest_record references.known arrival with
      becomes | ⟨stays, late, same, lowLate, highLate⟩
    · exact ⟨_, position, moved, by rw [becomes, stands], by omega, .inl (by omega)⟩
    · -- Near references give a late arrival the same position on both sides.
      have agree : late = position := by
        rw [← stands, SeqNum.ofInt_eq_ofInt_iff] at same
        omega
      by_cases before : position < start
      · refine ⟨start, highest, ?_, stays, above, ?_⟩
        · rw [stale before]
          exact references.placed
        · rw [stale before]
          exact below
      · exact ⟨_, highest, moved, stays, by omega, .inl (by omega)⟩

theorem drain (references : References counters window start highest)
    (remaining : window.dropBlock.bits ≠ 0) :
    References counters window.dropBlock (start + 17) highest where
  placed := Window.first_dropBlock_ofInt references.placed
  known := references.known
  above := by
    have above := references.above
    omega
  below := by
    rcases references.below with near | ⟨_, front⟩
    · refine .inr ⟨by omega, ?_⟩
      intro offset past
      rw [Window.bits_dropBlock]
      exact BitVec.getLsbD_of_ge _ _ (by omega)
    · -- The marks of the front are all in the block that is dropped.
      refine absurd (BitVec.eq_of_getLsbD_eq ?_) remaining
      intro offset _
      rw [Window.bits_dropBlock, front (17 + offset) (by omega)]
      exact BitVec.getLsbD_zero.symm

end References

theorem Cache.references_run (cache : Cache)
    (before : cache.window.bits ≠ 0 → ∃ start highest,
      References cache.counters cache.window start highest) (requests : List Request)
    (nonempty : (cache.run requests).window.bits ≠ 0) :
    ∃ start highest,
      References (cache.run requests).counters (cache.run requests).window start highest := by
  induction requests generalizing cache with
  | nil => exact before nonempty
  | cons request rest ih =>
    refine ih (cache.next request) ?_ nonempty
    intro marks
    cases brought : request.packet? with
    | some packet =>
      rw [cache.counters_next_store brought, cache.window_next_store brought] at *
      by_cases empty : cache.window.bits = 0
      · exact References.anchor packet.seq (Window.mark_empty empty)
      · obtain ⟨start, highest, references⟩ := before empty
        exact references.store empty packet.seq
    | none =>
      have known := cache.highest_next_quiet brought
      by_cases drained : request = .drain
      · subst drained
        have earlier : cache.window.bits ≠ 0 := fun empty =>
          marks (Window.bits_dropBlock_of_empty empty)
        obtain ⟨start, highest, references⟩ := before earlier
        exact ⟨start + 17, highest, references.drain marks⟩
      · have same := cache.window_next_quiet brought drained
        rw [same] at marks ⊢
        obtain ⟨start, highest, references⟩ := before marks
        exact ⟨start, highest, references.placed, known.trans references.known, references.above,
          references.below⟩

/-- A store restarts the statistics alone, or the window alone, just when its number lies
between the limits of the highest number and the window start. -/
theorem Cache.run_restarts_apart {capacity : Nat} {cache : Cache}
    (created : Cache.create capacity = .ok cache) (requests : List Request)
    (nonempty : (cache.run requests).window.bits ≠ 0) :
    let after := cache.run requests
    ∃ start highest : Int, after.first = .ofInt start ∧
      after.counters.highest = some (.ofInt highest) ∧
      start - 273 ≤ highest ∧ highest ≤ start + 256 ∧
      (∀ seq, (after.counters.Restarts seq ↔ seq.OutOfRange (.ofInt highest)) ∧
        (after.window.Restarts seq ↔ seq.OutOfRange (.ofInt start)) ∧
        (after.counters.Restarts seq ∧ ¬ after.window.Restarts seq ↔
          seq.Between (start - 256) (highest - 256) ∨
            seq.Between (highest + 32768) (start + 32768)) ∧
        (after.window.Restarts seq ∧ ¬ after.counters.Restarts seq ↔
          seq.Between (highest - 256) (start - 256) ∨
            seq.Between (start + 32768) (highest + 32768))) ∧
      ((∀ seq, after.counters.Restarts seq ↔ after.window.Restarts seq) ↔ highest = start) := by
  intro after
  have unmarked : cache.window.bits = 0 := congrArg Window.bits (window_of_create created)
  obtain ⟨start, highest, references⟩ :=
    cache.references_run (absurd unmarked ·) requests nonempty
  have above := references.above
  have below : start - 273 ≤ highest := by
    rcases references.below with near | ⟨near, _⟩
    · omega
    · exact near
  have counted (seq : SeqNum) := Counters.restarts_iff references.known seq
  have placed (seq : SeqNum) : after.window.Restarts seq ↔ seq.OutOfRange (.ofInt start) := by
    rw [Window.restarts_iff nonempty, references.placed]
  refine ⟨start, highest, references.placed, references.known, below, above, ?_, ?_⟩
  · intro seq
    refine ⟨counted seq, placed seq, ?_, ?_⟩
    · rw [counted, placed]
      exact seq.outOfRange_apart_iff (by omega) (by omega)
    · rw [counted, placed]
      exact seq.outOfRange_apart_iff (by omega) (by omega)
  · simp only [after, counted, placed]
    exact SeqNum.outOfRange_agree_iff (by omega) (by omega)

/-- A drain leaves the first number behind the highest one. From there a way forwards
of half the cycle restarts the window alone. -/
theorem Cache.run_restarts_apart_drained :
    let cache : Cache := .new ⟨4, rfl⟩
    let after := cache.run [.store ⟨0⟩ ⟨#[0]⟩, .store ⟨31⟩ ⟨#[0]⟩, .drain]
    Cache.create 4 = .ok cache ∧ after.window.bits ≠ 0 ∧
      after.window.Restarts ⟨32790⟩ ∧ ¬ after.counters.Restarts ⟨32790⟩ := by
  intro cache after
  have created : Cache.create 4 = .ok cache := rfl
  have nonempty : after.window.bits ≠ 0 := by decide +kernel
  obtain ⟨start, highest, first, last, below, above, apart, _⟩ :=
    Cache.run_restarts_apart created _ nonempty
  have placed : SeqNum.ofInt start = ⟨17⟩ := first.symm.trans (by decide +kernel)
  have known : SeqNum.ofInt highest = ⟨31⟩ :=
    Option.some.inj (last.symm.trans (by decide +kernel))
  rw [SeqNum.ofInt_eq_iff] at placed known
  simp only [UInt16.reduceToNat] at placed known
  refine ⟨created, nonempty, (apart ⟨32790⟩).2.2.2.mpr (.inr ⟨start + 32773, ?_, ?_, ?_⟩)⟩
  · rw [SeqNum.ofInt_eq_iff]
    simp only [UInt16.reduceToNat]
    omega
  · omega
  · omega

/-- A packet too far behind the highest number, but not behind the window start, restarts the
statistics and leaves the window as it is. -/
theorem Cache.restarts_statistics_alone :
    let cache : Cache := .new ⟨4, rfl⟩
    let after := cache.run [.store ⟨0⟩ ⟨#[0]⟩, .store ⟨31⟩ ⟨#[0]⟩]
    Cache.create 4 = .ok cache ∧ after.window.bits ≠ 0 ∧
      after.counters.Restarts ⟨65310⟩ ∧ ¬ after.window.Restarts ⟨65310⟩ ∧
      after.window.mark ⟨65310⟩ = after.window := by
  intro cache after
  refine ⟨rfl, by decide +kernel, ⟨⟨31⟩, by decide +kernel⟩, ?_, by decide +kernel⟩
  rw [Window.Restarts]
  decide +kernel

end Retransmission
