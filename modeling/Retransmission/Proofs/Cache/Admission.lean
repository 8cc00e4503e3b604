import Mathlib.Data.List.Chain
import Retransmission.Proofs.Cache.Absorption

/-! When an optional resize is made. It has to halve the ring or more than double it, and the
guard against a late tail only ever stops a ring from shrinking: the tail lies within the
ring, so it is never past the middle of a target that is twice as large. -/

namespace Retransmission

/-- A capacity and a later one that is at most half of it or more than its double. -/
def Capacity.Apart (earlier later : Nat) : Prop :=
  2 * later ≤ earlier ∨ 2 * earlier + 2 ≤ later

namespace Ring

variable {ring : Ring α} {target : Nat}

theorem not_nearTarget_iff : ¬ ring.NearTarget target ↔ Capacity.Apart ring.capacity target := by
  rw [NearTarget, Capacity.Apart]
  omega

theorem not_lateTail_of_double (double : 2 * ring.capacity ≤ target) : ¬ ring.LateTail target := by
  have inside := ring.inside
  rw [LateTail]
  omega

/-- Of the two middles the one of the larger ring decides. -/
theorem lateTail_iff_of_le (smaller : target ≤ ring.capacity) :
    ring.LateTail target ↔ ring.capacity / 2 < ring.tail := by
  rw [LateTail]
  omega

end Ring

/-- The target of a request that was taken up, as the reply tells. -/
def Request.admitted? : Request → Reply → Option Nat
  | .resizeIfAdmitted target, .admitted true => some target
  | _, _ => none

namespace Cache

variable {cache : Cache}

/-- The targets that a run of requests takes up, in order. -/
def admissions (cache : Cache) : List Request → List Nat
  | [] => []
  | request :: rest =>
    (request.admitted? (cache.reply request)).toList ++ (cache.next request).admissions rest

theorem admits_iff (target : Nat) :
    cache.Admits target ↔ (1 ≤ target ∧ target ≤ 65536) ∧
      (2 * cache.capacity + 2 ≤ target ∨
        2 * target ≤ cache.capacity ∧ cache.ring.tail ≤ cache.capacity / 2) := by
  rw [Admits, Capacity.fault?_eq_none_iff, Ring.not_nearTarget_iff]
  refine and_congr Iff.rfl ?_
  constructor
  · rintro ⟨shrunk | grown, early⟩
    · rw [Ring.lateTail_iff_of_le (by omega)] at early
      exact .inr ⟨shrunk, Nat.not_lt.mp early⟩
    · exact .inl grown
  · rintro (grown | ⟨shrunk, early⟩)
    · exact ⟨.inr grown, Ring.not_lateTail_of_double (by rw [capacity] at grown; omega)⟩
    · refine ⟨.inl shrunk, ?_⟩
      rw [Ring.lateTail_iff_of_le (by rw [capacity] at shrunk; omega)]
      exact Nat.not_lt.mpr early

theorem next_of_admits {target : Nat} (admitted : cache.Admits target) :
    cache.next (.resizeIfAdmitted target) = cache.next (.resize target) :=
  if_pos admitted

theorem next_of_not_admits {target : Nat} (refused : ¬ cache.Admits target) :
    cache.next (.resizeIfAdmitted target) = cache :=
  if_neg refused

theorem change_of_admits {target : Nat} (admitted : cache.Admits target) :
    cache.change (.resizeIfAdmitted target) = cache.change (.resize target) := by
  rw [change, change, dif_pos admitted, dif_pos admitted.1]

theorem change_of_not_admits {target : Nat} (refused : ¬ cache.Admits target) :
    cache.change (.resizeIfAdmitted target) = .keep :=
  dif_neg refused

theorem capacity_of_admits {target : Nat} (admitted : cache.Admits target) :
    (cache.next (.resizeIfAdmitted target)).capacity = target := by
  rw [next_of_admits admitted, next, resize, dif_pos admitted.1]
  exact cache.ring.capacity_resize ⟨target, admitted.1⟩

/-- Unless it is told to resize, a cache keeps its capacity but for the targets that it
takes up. -/
theorem capacity_next {request : Request} (optional : ∀ target, request ≠ .resize target) :
    (request.admitted? (cache.reply request) = none ∧
        (cache.next request).capacity = cache.capacity) ∨
      ∃ target, request.admitted? (cache.reply request) = some target ∧
        (cache.next request).capacity = target ∧ Capacity.Apart cache.capacity target := by
  cases request with
  | resize target => exact absurd rfl (optional target)
  | resizeIfAdmitted target =>
    by_cases admitted : cache.Admits target
    · refine .inr ⟨target, ?_, capacity_of_admits admitted,
        Ring.not_nearTarget_iff.mp admitted.2.1⟩
      simp [reply, admitted, Request.admitted?]
    · refine .inl ⟨?_, congrArg capacity (next_of_not_admits admitted)⟩
      simp [reply, admitted, Request.admitted?]
  | store seq payload => exact .inl ⟨rfl, cache.ring.capacity_insert _⟩
  | report reset => cases reset <;> exact .inl ⟨rfl, rfl⟩
  | expect | read | readAt | readNewest | capacity | first | drain => exact .inl ⟨rfl, rfl⟩

theorem admissions_apart {requests : List Request}
    (optional : ∀ target, Request.resize target ∉ requests) :
    (cache.capacity :: cache.admissions requests).IsChain Capacity.Apart ∧
      (cache.admissions requests).getLastD cache.capacity = (cache.run requests).capacity := by
  induction requests generalizing cache with
  | nil => exact ⟨.singleton _, rfl⟩
  | cons request rest ih =>
    have first (target : Nat) : request ≠ .resize target := by
      rintro rfl
      exact optional target (List.mem_cons_self ..)
    obtain ⟨chain, last⟩ := ih
      fun target member => optional target (List.mem_cons_of_mem _ member)
    rw [admissions, run_cons]
    rcases capacity_next first with ⟨refused, same⟩ | ⟨target, admitted, size, apart⟩
    · rw [same] at chain last
      rw [refused]
      exact ⟨chain, last⟩
    · rw [size] at chain last
      rw [admitted, Option.toList_some, List.singleton_append, List.getLastD_cons]
      exact ⟨.cons_cons apart chain, last⟩

end Cache

/-- A valid target is taken up when it more than doubles the capacity, or at most halves it and
the tail is not past the middle. -/
theorem Cache.run_admits_iff (cache : Cache) (requests : List Request) :
    let after := cache.run requests
    let memory := Storage.after cache
    (∀ target, ∃ resized, after.reply (.resizeIfAdmitted target) = .admitted resized ∧
      (resized = true ↔ (1 ≤ target ∧ target ≤ 65536) ∧
        (2 * after.capacity + 2 ≤ target ∨
          2 * target ≤ after.capacity ∧ after.ring.tail ≤ after.capacity / 2)) ∧
      (resized = true → after.next (.resizeIfAdmitted target) = after.next (.resize target) ∧
        memory (requests ++ [.resizeIfAdmitted target]) = memory (requests ++ [.resize target]) ∧
        (after.next (.resizeIfAdmitted target)).capacity = target ∧ target ≠ after.capacity) ∧
      (resized = false → after.next (.resizeIfAdmitted target) = after ∧
        memory (requests ++ [.resizeIfAdmitted target]) = memory requests)) ∧
    ∀ later, (∀ target, Request.resize target ∉ later) →
      (after.capacity :: after.admissions later).IsChain Capacity.Apart ∧
        (after.admissions later).getLastD after.capacity = (after.run later).capacity := by
  intro after memory
  refine ⟨?_, fun later => admissions_apart⟩
  intro target
  refine ⟨decide (after.Admits target), rfl, ?_, ?_, ?_⟩
  · rw [decide_eq_true_iff]
    exact admits_iff target
  · intro resized
    have admitted := of_decide_eq_true resized
    have apart := Ring.not_nearTarget_iff.mp admitted.2.1
    refine ⟨next_of_admits admitted, ?_, capacity_of_admits admitted, ?_⟩
    · simp only [memory]
      rw [Storage.after_append_singleton, Storage.after_append_singleton,
        change_of_admits admitted]
    · rintro rfl
      have positive := after.ring.positive
      rw [Cache.capacity, Capacity.Apart] at apart
      omega
  · intro kept
    have refused := of_decide_eq_false kept
    refine ⟨next_of_not_admits refused, ?_⟩
    simp only [memory]
    rw [Storage.after_append_singleton, change_of_not_admits refused]
    rfl

/-- With its tail past the middle a ring of four slots does not shrink, but it grows to ten, the
least target that more than doubles it. -/
theorem Cache.run_admits_iff_late :
    let cache : Cache := .new ⟨4, rfl⟩
    let requests : List Request :=
      [.store ⟨7⟩ ⟨#[1]⟩, .store ⟨8⟩ ⟨#[2]⟩, .store ⟨9⟩ ⟨#[3]⟩]
    let later : List Request :=
      [.resizeIfAdmitted 2, .resizeIfAdmitted 9, .resizeIfAdmitted 10, .resizeIfAdmitted 5]
    let after := cache.run requests
    Cache.create 4 = .ok cache ∧ after.capacity = 4 ∧ after.ring.tail = 3 ∧
      after.reply (.resizeIfAdmitted 2) = .admitted false ∧
      after.next (.resizeIfAdmitted 2) = after ∧
      after.reply (.resizeIfAdmitted 10) = .admitted true ∧
      after.next (.resizeIfAdmitted 10) = after.next (.resize 10) ∧
      (∀ target, Request.resize target ∉ later) ∧ after.admissions later = [10, 5] ∧
      [4, 10, 5].IsChain Capacity.Apart ∧ (after.run later).capacity = 5 := by
  intro cache requests later after
  have created : Cache.create 4 = .ok cache := rfl
  have size : after.capacity = 4 := by decide +kernel
  have tail : after.ring.tail = 3 := by decide +kernel
  have optional : ∀ target, Request.resize target ∉ later := by simp [later]
  have taken : after.admissions later = [10, 5] := by decide +kernel
  obtain ⟨decided, settled⟩ := Cache.run_admits_iff cache requests
  obtain ⟨chain, last⟩ := settled later optional
  obtain ⟨shrunk, refusal, late, _, kept⟩ := decided 2
  obtain ⟨grown, consent, wide, made, _⟩ := decided 10
  rw [size, tail] at late wide
  cases shrunk with
  | true => exact absurd (late.mp rfl) (by decide)
  | false =>
    cases grown with
    | false => exact absurd (wide.mpr (by decide)) (by decide)
    | true =>
      rw [taken, size] at chain last
      exact ⟨created, size, tail, refusal, (kept rfl).1, consent, (made rfl).1, optional, taken,
        chain, last.symm⟩

end Retransmission
