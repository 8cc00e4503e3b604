import Mathlib.Data.List.Sort
import Retransmission.Feedback.Cursor
import Retransmission.Proofs.Feedback.Lossless

/-! NACK entries and the lists of their numbers tell each other. An entry is known by the
distances of its numbers from the packet id, which the list gives back, and so do its text
and a reader that takes the numbers one at a time. -/

namespace Retransmission

namespace Nack

variable {entry other : Nack}

/-- The distances of the numbers after the packet id, nearest first. -/
def steps (entry : Nack) : List Nat :=
  ((List.range 16).filter fun bit => entry.mask.getLsbD bit).map (· + 1)

theorem mem_steps_iff {step : Nat} :
    step ∈ entry.steps ↔ (1 ≤ step ∧ step ≤ 16) ∧ entry.mask.getLsbD (step - 1) = true := by
  rw [steps, List.mem_map]
  constructor
  · rintro ⟨bit, member, rfl⟩
    obtain ⟨within, set⟩ := List.mem_filter.mp member
    have bound := List.mem_range.mp within
    exact ⟨by omega, set⟩
  · rintro ⟨bounds, set⟩
    refine ⟨step - 1, List.mem_filter.mpr ⟨List.mem_range.mpr ?_, set⟩, ?_⟩
    · omega
    · omega

theorem pairwise_steps (entry : Nack) : entry.steps.Pairwise (· < ·) := by
  rw [steps, List.pairwise_map]
  apply (List.pairwise_lt_range.filter _).imp
  intro bit later before
  exact Nat.succ_lt_succ before

private theorem countP_getLsbD (mask : BitVec width) (count : Nat) :
    (List.range count).countP (fun bit => mask.getLsbD bit) = mask.cpopNatRec count 0 := by
  induction count with
  | zero => rfl
  | succ count ih =>
    rw [List.range_succ, List.countP_append, ih, BitVec.cpopNatRec_succ, BitVec.cpopNatRec_add]
    cases set : mask.getLsbD count <;> simp [set]

theorem length_steps (entry : Nack) : entry.steps.length = entry.mask.cpop.toNat := by
  rw [steps, List.length_map, ← List.countP_eq_length_filter, countP_getLsbD, BitVec.toNat_cpop]

theorem eq_of_steps (first : entry.packetId = other.packetId) (same : entry.steps = other.steps) :
    entry = other := by
  have mask : entry.mask = other.mask := by
    apply BitVec.eq_of_getLsbD_eq
    intro bit within
    have told : bit + 1 ∈ entry.steps ↔ bit + 1 ∈ other.steps := by rw [same]
    have bounds : 1 ≤ bit + 1 ∧ bit + 1 ≤ 16 := by omega
    simpa [mem_steps_iff, bounds, ← Bool.eq_iff_iff] using told
  exact congr (congrArg Nack.mk first) mask

/-- The list of an entry is its distances, counted on from the packet id. -/
theorem missing_eq (entry : Nack) :
    entry.missing =
      entry.packetId :: entry.steps.map fun step => entry.packetId.advance (.ofNat step) := by
  rw [missing, following, steps, List.map_map]
  rfl

theorem distances_missing (entry : Nack) :
    entry.missing.map (fun number => (number.aheadOf entry.packetId).toNat) = 0 :: entry.steps := by
  have back (step : Nat) (member : step ∈ entry.steps) :
      ((entry.packetId.advance (.ofNat step)).aheadOf entry.packetId).toNat = step := by
    have bounds := (mem_steps_iff.mp member).1
    rw [SeqNum.aheadOf_advance, UInt16.toNat_ofNat']
    omega
  rw [missing_eq, List.map_cons, SeqNum.aheadOf_self, List.map_map]
  exact congrArg (0 :: ·) ((List.map_congr_left back).trans (List.map_id' _))

theorem distance_le (entry : Nack) {number : SeqNum} (member : number ∈ entry.missing) :
    (number.aheadOf entry.packetId).toNat ≤ 16 := by
  have distance : (number.aheadOf entry.packetId).toNat ∈ 0 :: entry.steps := by
    rw [← distances_missing]
    exact List.mem_map.mpr ⟨number, member, rfl⟩
  rcases List.mem_cons.mp distance with start | later
  · omega
  · exact (mem_steps_iff.mp later).1.2

theorem pairwise_missing (entry : Nack) :
    entry.missing.Pairwise fun nearer farther =>
      nearer.aheadOf entry.packetId < farther.aheadOf entry.packetId := by
  have distances : (0 :: entry.steps).Pairwise (· < ·) := by
    refine List.pairwise_cons.mpr ⟨?_, entry.pairwise_steps⟩
    intro step member
    have bounds := (mem_steps_iff.mp member).1
    omega
  rw [← distances_missing, List.pairwise_map] at distances
  exact distances

theorem eq_of_missing (same : entry.missing = other.missing) : entry = other := by
  have first : entry.packetId = other.packetId := (List.cons.inj same).1
  have distances := entry.distances_missing
  rw [same, first, other.distances_missing] at distances
  exact eq_of_steps first (List.cons.inj distances).2.symm

/-- The entry with a bit in its mask for each of the distances. -/
def ofSteps (first : SeqNum) (steps : List Nat) : Nack :=
  ⟨first, steps.foldr (fun step mask => mask ||| .twoPow 16 (step - 1)) 0⟩

private theorem getLsbD_foldr {steps : List Nat} (positive : ∀ step ∈ steps, 1 ≤ step) (bit : Nat) :
    (steps.foldr (fun step mask => mask ||| .twoPow 16 (step - 1)) (0 : BitVec 16)).getLsbD bit =
      true ↔ bit < 16 ∧ bit + 1 ∈ steps := by
  induction steps with
  | nil => simp
  | cons step rest ih =>
    obtain ⟨first, others⟩ := List.forall_mem_cons.mp positive
    have place : step - 1 = bit ↔ bit + 1 = step := by omega
    rw [List.foldr_cons, BitVec.getLsbD_or, Bool.or_eq_true, ih others, BitVec.getLsbD_twoPow,
      List.mem_cons]
    simp only [Bool.and_eq_true, decide_eq_true_eq, place]
    grind

theorem steps_ofSteps (first : SeqNum) {steps : List Nat} (increasing : steps.Pairwise (· < ·))
    (bounds : ∀ step ∈ steps, 1 ≤ step ∧ step ≤ 16) : (ofSteps first steps).steps = steps := by
  apply (pairwise_steps _).eq_of_mem_iff increasing
  intro step
  rw [mem_steps_iff, ofSteps, getLsbD_foldr fun step member => (bounds step member).1]
  grind

/-! The text of an entry. A reader of digits finds the numbers of the list in it. -/

/-- The runs of digits in a text, without what is between them. -/
def digitRuns (text : List Char) : List (List Char) :=
  (text.splitOnP fun char => !char.isDigit).filter (· ≠ [])

/-- The numbers that the runs of digits in a text spell. -/
def numerals (text : String) : List Nat :=
  (digitRuns text.toList).map fun digits => Nat.ofDigitChars 10 digits 0

private theorem digitRuns_between {char : Char} (between : char.isDigit = false)
    (rest : List Char) : digitRuns (char :: rest) = digitRuns rest := by
  simp [digitRuns, List.splitOnP_cons_eq_if_modifyHead, between]

private theorem digitRuns_run {run : List Char} (nonempty : run ≠ [])
    (digits : ∀ char ∈ run, char.isDigit = true) {char : Char} (after : char.isDigit = false)
    (rest : List Char) : digitRuns (run ++ char :: rest) = run :: digitRuns rest := by
  have whole : ∀ char ∈ run, (!char.isDigit) = false := by
    intro char member
    rw [digits char member]
    rfl
  have ended : (!char.isDigit) = true := by rw [after]; rfl
  rw [digitRuns, List.splitOnP_append_cons_of_forall_mem whole char ended,
    List.filter_cons_of_pos (by simpa using nonempty)]
  rfl

private theorem digitRuns_listed {runs : List (List Char)} (nonempty : ∀ run ∈ runs, run ≠ [])
    (digits : ∀ run ∈ runs, ∀ char ∈ run, char.isDigit = true) :
    digitRuns ([',', ' '].intercalate runs ++ [']']) = runs := by
  induction runs with
  | nil => rfl
  | cons run rest ih =>
    obtain ⟨first, others⟩ := List.forall_mem_cons.mp nonempty
    obtain ⟨firstDigits, otherDigits⟩ := List.forall_mem_cons.mp digits
    have listed := ih others otherDigits
    cases rest with
    | nil =>
      rw [List.intercalate_singleton, digitRuns_run first firstDigits rfl]
      rfl
    | cons next later =>
      rw [List.intercalate_cons_cons, List.append_assoc, List.append_assoc, List.cons_append,
        digitRuns_run first firstDigits rfl, List.cons_append, digitRuns_between rfl,
        List.nil_append, listed]

private theorem toList_render (entry : Nack) :
    entry.render.toList = '[' :: ([',', ' '].intercalate
      (entry.missing.map fun number => Nat.toDigits 10 number.word.toNat) ++ [']']) := by
  have digits : (entry.missing.map toString).map String.toList =
      entry.missing.map fun number => Nat.toDigits 10 number.word.toNat := by
    rw [List.map_map]
    apply List.map_congr_left
    intro number _
    exact Nat.toList_repr
  rw [render, String.toList_append, String.toList_append, String.toList_intercalate, digits]
  rfl

theorem numerals_render (entry : Nack) :
    numerals entry.render = entry.missing.map fun number => number.word.toNat := by
  have runs : digitRuns entry.render.toList =
      entry.missing.map fun number => Nat.toDigits 10 number.word.toNat := by
    rw [toList_render, digitRuns_between rfl, digitRuns_listed]
    · intro run member
      obtain ⟨number, _, rfl⟩ := List.mem_map.mp member
      exact Nat.toDigits_ne_nil
    · intro run member char
      obtain ⟨number, _, rfl⟩ := List.mem_map.mp member
      exact Nat.isDigit_of_mem_toDigits (by decide) (by decide)
  rw [numerals, runs, List.map_map]
  apply List.map_congr_left
  intro number _
  exact Nat.ofDigitChars_ten_toDigits

theorem eq_of_render (same : entry.render = other.render) : entry = other := by
  have numbers := congrArg numerals same
  rw [numerals_render, numerals_render] at numbers
  apply eq_of_missing
  refine List.map_injective_iff.mpr ?_ numbers
  intro number reference same
  cases number
  cases reference
  exact congrArg SeqNum.mk (UInt16.toNat_inj.mp same)

/-! A reader that takes the numbers one at a time. -/

namespace Cursor

def pending (cursor : Cursor) : List SeqNum :=
  let later := ((List.range' cursor.bit (16 - cursor.bit)).filter fun bit =>
    cursor.entry.mask.getLsbD bit).map fun bit => cursor.entry.packetId.advance (.ofNat (bit + 1))
  if cursor.started then later else cursor.entry.packetId :: later

theorem pending_cursor (entry : Nack) : entry.cursor.pending = entry.missing := by
  rw [pending, missing, following, List.range_eq_range']
  rfl

theorem pending_of_none {cursor : Cursor} (ended : cursor.next? = none) : cursor.pending = [] := by
  obtain ⟨entry, started, position⟩ := cursor
  cases started with
  | false => cases ended
  | true =>
    have clear := List.find?_eq_none.mp (Option.map_eq_none_iff.mp ended)
    rw [pending, List.filter_eq_nil_iff.mpr clear]
    rfl

private theorem eq_range'_of_split {start count bit : Nat} {before after : List Nat}
    (range : List.range' start count = before ++ bit :: after) :
    after = List.range' (bit + 1) (start + count - (bit + 1)) := by
  obtain ⟨skipped, _, _, remaining⟩ := List.range'_eq_append_iff.mp range
  obtain ⟨found, _, later⟩ := List.range'_eq_cons_iff.mp remaining.symm
  have size : count - skipped - 1 = start + count - (bit + 1) := by omega
  rw [later, size]

theorem pending_of_some {cursor later : Cursor} {number : SeqNum}
    (read : cursor.next? = some (number, later)) : cursor.pending = number :: later.pending := by
  obtain ⟨entry, started, position⟩ := cursor
  cases started with
  | false =>
    obtain ⟨rfl, rfl⟩ := Prod.mk.inj (Option.some.inj read)
    rfl
  | true =>
    obtain ⟨bit, found, same⟩ := Option.map_eq_some_iff.mp read
    obtain ⟨rfl, rfl⟩ := Prod.mk.inj same
    obtain ⟨set, before, after, range, clear⟩ := List.find?_eq_some_iff_append.mp found
    have bounds := nextBit?_bounds found
    have left : after = List.range' (bit + 1) (16 - (bit + 1)) := by
      have size : position + (16 - position) = 16 := by
        simp only at bounds
        omega
      rw [eq_range'_of_split range, size]
    have skipped : before.filter (fun bit => entry.mask.getLsbD bit) = [] := by
      apply List.filter_eq_nil_iff.mpr
      intro passed member
      simpa using clear passed member
    rw [pending, range, List.filter_append, skipped, List.nil_append,
      List.filter_cons_of_pos set, left]
    rfl

theorem take_eq (cursor : Cursor) (count : Nat) :
    (cursor.take count).1 = cursor.pending.take count ∧
      (cursor.take count).2.pending = cursor.pending.drop count := by
  induction count generalizing cursor with
  | zero => exact ⟨rfl, rfl⟩
  | succ count ih =>
    rw [take]
    cases read : cursor.next? with
    | none => simp [pending_of_none read]
    | some next =>
      obtain ⟨number, later⟩ := next
      obtain ⟨taken, left⟩ := ih later
      rw [pending_of_some read]
      exact ⟨congrArg (number :: ·) taken, left⟩

theorem rest_eq_pending (cursor : Cursor) : cursor.rest = cursor.pending := by
  fun_induction rest cursor with
  | case1 cursor ended => exact (pending_of_none ended).symm
  | case2 cursor number later read ih => rw [ih, pending_of_some read]

end Cursor

end Nack

/-- An entry lists its packet id and a number for each bit of its mask, and the list, like the
text, belongs to no other entry. -/
theorem Nack.missing_tells_entry (entry : Nack) :
    (entry.missing.length = 1 + entry.mask.cpop.toNat ∧ entry.missing.Nodup ∧
      entry.missing.head? = some entry.packetId ∧
      (entry.missing.Pairwise fun nearer farther =>
        nearer.aheadOf entry.packetId < farther.aheadOf entry.packetId) ∧
      ∀ number ∈ entry.missing, (number.aheadOf entry.packetId).toNat ≤ 16) ∧
    (∀ (first : SeqNum) (steps : List Nat), steps.Pairwise (· < ·) →
      (∀ step ∈ steps, 1 ≤ step ∧ step ≤ 16) →
      ∃! told : Nack, told.missing = first :: steps.map fun step => first.advance (.ofNat step)) ∧
    (∀ other : Nack, (entry.missing = other.missing → entry = other) ∧
      (entry.render = other.render → entry = other)) ∧
    ∀ count, (entry.cursor.take count).1 = entry.missing.take count ∧
      (entry.cursor.take count).1 ++ (entry.cursor.take count).2.rest = entry.missing := by
  refine ⟨⟨?_, ?_, rfl, entry.pairwise_missing, fun _ => entry.distance_le⟩, ?_, ?_, ?_⟩
  · rw [missing_eq, List.length_cons, List.length_map, length_steps, Nat.add_comm]
  · apply entry.pairwise_missing.imp
    rintro number _ farther rfl
    exact UInt16.lt_irrefl _ farther
  · intro first steps increasing bounds
    have listed : (ofSteps first steps).missing =
        first :: steps.map fun step => first.advance (.ofNat step) := by
      rw [missing_eq, steps_ofSteps first increasing bounds]
      rfl
    exact ⟨ofSteps first steps, listed, fun other same => eq_of_missing (same.trans listed.symm)⟩
  · intro other
    exact ⟨eq_of_missing, eq_of_render⟩
  · intro count
    obtain ⟨taken, left⟩ := entry.cursor.take_eq count
    rw [Cursor.pending_cursor] at taken left
    refine ⟨taken, ?_⟩
    rw [Cursor.rest_eq_pending, taken, left, List.take_append_drop]

/-- A list across the end of the cycle that ends with the last bit of the mask. -/
theorem Nack.missing_tells_entry_wrapped :
    let entry : Nack := ⟨⟨65534⟩, 0x8003⟩
    let list : List SeqNum := [⟨65534⟩, ⟨65535⟩, ⟨0⟩, ⟨14⟩]
    entry.missing = list ∧ [1, 2, 16].Pairwise (· < ·) ∧
      (∀ step ∈ [1, 2, 16], 1 ≤ step ∧ step ≤ 16) ∧
      (∃! told : Nack, told.missing = list) ∧ entry.render = "[65534, 65535, 0, 14]" ∧
      (∀ other : Nack, "[65534, 65535, 0, 14]" = other.render → entry = other) ∧
      (entry.cursor.take 3).1 = [⟨65534⟩, ⟨65535⟩, ⟨0⟩] ∧
      (entry.cursor.take 3).1 ++ (entry.cursor.take 3).2.rest = list := by
  intro entry list
  obtain ⟨_, known, told, reading⟩ := entry.missing_tells_entry
  have listed : entry.missing = list := by decide
  have text : entry.render = "[65534, 65535, 0, 14]" := by decide
  have increasing : [1, 2, 16].Pairwise (· < ·) := by decide
  have bounds : ∀ step ∈ [1, 2, 16], 1 ≤ step ∧ step ≤ 16 := by decide
  have one := known ⟨65534⟩ [1, 2, 16] increasing bounds
  obtain ⟨taken, whole⟩ := reading 3
  rw [listed] at taken whole
  refine ⟨listed, increasing, bounds, one, text, ?_, taken, whole⟩
  intro other same
  exact (told other).2 (text.trans same)

end Retransmission
