import Retransmission.Proofs.Feedback.Exactness

/-! What the drains of an in-order stream say of the positions that it skipped. The
drained blocks follow one another as long as the window has marks. Where a drain takes
the last mark, the next packet begins the window anew, and the blocks leave out the
positions that it passes over. -/

namespace Retransmission

/-- The answer of a drain, with the position where its block began. -/
structure Feedback where
  start : Int
  drain : Drain
deriving DecidableEq, Repr

namespace Feedback

def Covers (feedback : Feedback) (position : Int) : Prop :=
  feedback.start ≤ position ∧ position < feedback.start + 17

instance (feedback : Feedback) (position : Int) : Decidable (feedback.Covers position) :=
  inferInstanceAs (Decidable (_ ∧ _))

def Reports (feedback : Feedback) (position : Int) : Prop :=
  feedback.Covers position ∧ .ofInt position ∈ feedback.drain.missing

instance (feedback : Feedback) (position : Int) : Decidable (feedback.Reports position) :=
  inferInstanceAs (Decidable (_ ∧ _))

/-- A drain moves the start past just the positions that its block covers. -/
theorem crossing (feedback : Feedback) (position : Int) :
    (if feedback.Covers position then 1 else 0) + (if position < feedback.start then 1 else 0) =
      if position < feedback.start + 17 then 1 else 0 := by
  grind [Covers]

end Feedback

/-- An arrival at which an empty window began anew, and where the window had stood. -/
structure Anchor where
  stood : Int
  arrival : Int
deriving DecidableEq, Repr

namespace Anchor

def PassesOver (anchor : Anchor) (position : Int) : Prop :=
  anchor.stood ≤ position ∧ position < anchor.arrival

instance (anchor : Anchor) (position : Int) : Decidable (anchor.PassesOver position) :=
  inferInstanceAs (Decidable (_ ∧ _))

/-- The position was behind the window before the arrival and is no longer. -/
def TakesBack (anchor : Anchor) (position : Int) : Prop :=
  anchor.arrival ≤ position ∧ position < anchor.stood

instance (anchor : Anchor) (position : Int) : Decidable (anchor.TakesBack position) :=
  inferInstanceAs (Decidable (_ ∧ _))

/-- A jump moves the start past the positions that it passes over, or back before those that
it takes back. -/
theorem crossing (anchor : Anchor) (position : Int) :
    (if anchor.PassesOver position then 1 else 0) + (if position < anchor.stood then 1 else 0) =
      (if position < anchor.arrival then 1 else 0) +
        if anchor.TakesBack position then 1 else 0 := by
  grind [PassesOver, TakesBack]

end Anchor

/-- What has become of the windows of a stream, with the newest first. -/
structure Journal where
  feedback : List Feedback
  anchors : List Anchor
deriving DecidableEq, Repr

/-- In-order streams with drains at any time. Drains before the first packet speak of no
position of the stream and are left out of the journal. -/
inductive InOrder : Cache → Stream → Journal → Prop where
  | opened (created : Cache.create capacity = .ok cache) (leading : Nat) :
      InOrder ((cache.run (.replicate leading .drain)).next (.store (.ofInt position) payload))
        (.opened position) ⟨[], []⟩
  | anchored (earlier : InOrder cache stream journal) (empty : cache.window.bits = 0)
      (ordered : stream.highest < position) (near : position < stream.start + 32) :
      InOrder (cache.next (.store (.ofInt position) payload)) (stream.anchor position)
        { journal with anchors := ⟨stream.start, position⟩ :: journal.anchors }
  | arrived (earlier : InOrder cache stream journal) (nonempty : cache.window.bits ≠ 0)
      (ordered : stream.highest < position) (near : position < stream.start + 32) :
      InOrder (cache.next (.store (.ofInt position) payload)) (stream.arrive position) journal
  | drained (earlier : InOrder cache stream journal)
      (answered : cache.reply .drain = .drained drain) :
      InOrder (cache.next .drain) stream.drain
        { journal with feedback := ⟨stream.start, drain⟩ :: journal.feedback }

theorem Cache.bits_run_drain {cache : Cache} (empty : cache.window.bits = 0) (leading : Nat) :
    (cache.run (.replicate leading .drain)).window.bits = 0 := by
  induction leading generalizing cache with
  | zero => exact empty
  | succ leading ih =>
    rw [List.replicate_succ, run_cons]
    apply ih
    exact Window.bits_dropBlock_of_empty empty

namespace InOrder

variable {cache : Cache} {stream : Stream} {journal : Journal}

theorem faithful (run : InOrder cache stream journal) : Faithful cache.window stream := by
  induction run with
  | @opened _ cache position _ created leading =>
    have empty : cache.window.bits = 0 := congrArg Window.bits (Cache.window_of_create created)
    have opened := Faithful.opened position
    rw [Window.mark_empty rfl, ← Window.mark_empty (Cache.bits_run_drain empty leading)] at opened
    exact opened
  | anchored _ empty ordered _ ih => exact ih.anchor empty (by omega)
  | arrived _ nonempty ordered near ih =>
    have behind := ih.start_le nonempty
    exact ih.arrive nonempty (by omega) (by omega)
  | drained _ _ ih => exact ih.drain

theorem reports_iff_covers (run : InOrder cache stream journal) {feedback : Feedback}
    (member : feedback ∈ journal.feedback) (skipped : position ∉ stream.stored) :
    feedback.Reports position ↔ feedback.Covers position := by
  induction run with
  | opened => cases member
  | anchored _ _ _ _ ih | arrived _ _ _ _ ih =>
    exact ih member fun stored => skipped (List.mem_cons_of_mem _ stored)
  | @drained cache stream journal drain earlier answered ih =>
    rcases List.mem_cons.mp member with rfl | older
    · rw [Feedback.Reports, and_iff_left_iff_imp]
      intro covered
      cases Reply.drained.inj answered
      rw [earlier.faithful.mem_missing (Stream.mem_block.mpr covered)]
      exact fun recent => skipped (earlier.faithful.recent_stored position recent)
    · exact ih older skipped

/-- The start passes a position in a drain or in a jump ahead, and returns to it only in a jump
back. -/
theorem crossings (run : InOrder cache stream journal) (past : stream.opening ≤ position) :
    journal.feedback.countP (·.Covers position) + journal.anchors.countP (·.PassesOver position) =
      (if position < stream.start then 1 else 0) +
        journal.anchors.countP (·.TakesBack position) := by
  induction run with
  | opened =>
    have ahead : ¬ position < (Stream.opened _).start := Int.not_lt.mpr past
    simp [ahead]
  | @anchored cache stream journal arrival _ _ _ _ _ ih =>
    have before := ih past
    have jump := Anchor.crossing ⟨stream.start, arrival⟩ position
    have start : (stream.anchor arrival).start = arrival := rfl
    simp only [List.countP_cons, decide_eq_true_eq, start] at jump ⊢
    omega
  | @arrived cache stream journal arrival _ _ _ _ near ih =>
    have start : (stream.arrive arrival).start = stream.start := by
      simp only [Stream.arrive, if_pos (Int.lt_trans near (by omega : _ < stream.start + 32768))]
      exact Int.max_eq_left (by omega)
    rw [start]
    exact ih past
  | @drained cache stream journal drain _ _ ih =>
    have before := ih past
    have block := Feedback.crossing ⟨stream.start, drain⟩ position
    have start : stream.drain.start = stream.start + 17 := rfl
    simp only [List.countP_cons, decide_eq_true_eq, start] at block ⊢
    omega

/-- A skipped position behind the window was reported by exactly one drain, unless a packet that
found the window empty began it anew past the position. -/
theorem reported_once (run : InOrder cache stream journal) :
    cache.first = .ofInt stream.start ∧
      ∀ position, stream.opening ≤ position → position < stream.start →
        position ∉ stream.stored → (∀ anchor ∈ journal.anchors, ¬ anchor.TakesBack position) →
        journal.feedback.countP (·.Reports position) =
          if ∃ anchor ∈ journal.anchors, anchor.PassesOver position then 0 else 1 := by
  refine ⟨run.faithful.first, ?_⟩
  intro position past behind skipped kept
  have reported : journal.feedback.countP (·.Reports position) =
      journal.feedback.countP (·.Covers position) := by
    apply List.countP_congr
    intro feedback member
    simpa using run.reports_iff_covers member skipped
  have crossed := run.crossings past
  have untaken : journal.anchors.countP (·.TakesBack position) = 0 := by
    rw [List.countP_eq_zero]
    simpa using kept
  rw [if_pos behind, untaken] at crossed
  rw [reported]
  split
  · rename_i passed
    have positive : 0 < journal.anchors.countP (·.PassesOver position) := by
      rw [List.countP_pos_iff]
      simpa using passed
    omega
  · rename_i unpassed
    have zero : journal.anchors.countP (·.PassesOver position) = 0 := by
      rw [List.countP_eq_zero]
      simpa using unpassed
    omega

/-- A drain takes the last mark at the end of the cycle, and the next packet passes over two
positions that no drain reports. -/
theorem reported_once_resumed :
    let cache : Cache := .new ⟨4, rfl⟩
    let first := cache.run [.drain, .store (.ofInt 65530) ⟨#[1]⟩, .store (.ofInt 65533) ⟨#[2]⟩]
    let second := first.run [.drain, .store (.ofInt 65549) ⟨#[3]⟩, .store (.ofInt 65551) ⟨#[4]⟩]
    let feedback : List Feedback :=
      [⟨65549, second.window.frontBlock⟩, ⟨65530, first.window.frontBlock⟩]
    Cache.create 4 = .ok cache ∧ (second.next .drain).first = ⟨30⟩ ∧
      feedback.countP (·.Reports 65531) = 1 ∧ feedback.countP (·.Reports 65547) = 0 ∧
      feedback.countP (·.Reports 65550) = 1 := by
  intro cache first second feedback
  have created : Cache.create 4 = .ok cache := rfl
  have run : InOrder (second.next .drain)
      ⟨65530, 65551, [65551, 65549, 65533, 65530], [65551, 65549], 65566, 2⟩
      ⟨feedback, [⟨65547, 65549⟩]⟩ :=
    .drained (.arrived (.anchored (.drained (.arrived (.opened created 1)
      (by decide +kernel) (by decide) (by decide)) rfl)
      (by decide +kernel) (by decide) (by decide))
      (by decide +kernel) (by decide) (by decide)) rfl
  obtain ⟨start, counted⟩ := run.reported_once
  refine ⟨created, start, ?_, ?_, ?_⟩
  · exact counted 65531 (by decide) (by decide) (by decide) (by decide)
  · exact counted 65547 (by decide) (by decide) (by decide) (by decide)
  · exact counted 65550 (by decide) (by decide) (by decide) (by decide)

/-- A drain takes the only mark and leaves the start at 17. Packet 20 begins the window anew,
and no drain has reported that 17 is missing. -/
theorem passed_over_unreported :
    let cache : Cache := .new ⟨4, rfl⟩
    let before := cache.run [.store (.ofInt 0) ⟨#[1]⟩]
    let after := before.run [.drain, .store (.ofInt 20) ⟨#[2]⟩]
    let stream : Stream := ⟨0, 20, [20, 0], [20], 20, 1⟩
    let journal : Journal := ⟨[⟨0, before.window.frontBlock⟩], [⟨17, 20⟩]⟩
    Cache.create 4 = .ok cache ∧ InOrder after stream journal ∧ after.first = ⟨20⟩ ∧
      stream.opening ≤ 17 ∧ 17 < stream.start ∧ 17 ∉ stream.stored ∧
      journal.feedback.countP (·.Reports 17) = 0 := by
  intro cache before after stream journal
  have created : Cache.create 4 = .ok cache := rfl
  have run : InOrder after stream journal :=
    .anchored (.drained (.opened created 0) rfl) (by decide +kernel) (by decide) (by decide)
  exact ⟨created, run, by decide +kernel, by decide, by decide, by decide, by decide +kernel⟩

end InOrder

end Retransmission
