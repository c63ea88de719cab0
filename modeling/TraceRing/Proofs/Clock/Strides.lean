import Mathlib.Logic.Function.Iterate
import TraceRing.Proofs.Clock.Monotone

/-!
# Time in strides

Simulated time passes in strides: none goes beyond the next underflow, and the handler runs at the
end of each if it is due (`TickedClock.strides`). `TickedClock.advance` takes the strides of whole
periods at once. Both are as many single ticks (`strides_eq_iterate`, `advance_eq_iterate`), so
that it does not matter how time is cut.

After a reset the clock can be told from the number of ticks alone (`TickedClock.passed`): a period
takes one tick less than it counts, for the reload counts as one as well.
-/

namespace TraceRing.TickedClock

open Clock (Fits period top)

variable {bits : Nat}

/-! ## Strides -/

/-- Lets ticks pass and runs the handler if it is due. -/
def stride (k : TickedClock bits) (n : Nat) : TickedClock bits :=
  if (tick k n).1 then (tick k n).2.rollOver else (tick k n).2

/-- A single tick, with the handler if it is due. -/
def pulse (k : TickedClock bits) : TickedClock bits :=
  stride k 1

/-- The length of the next stride: up to the next underflow, and a single tick where the counter
stands at 0 already. -/
def nextStride (k : TickedClock bits) (left : Nat) : Nat :=
  min left (max k.counter.value.val 1)

theorem nextStride_pos (k : TickedClock bits) {left : Nat} (h : left ≠ 0) :
    0 < nextStride k left := by
  unfold nextStride
  omega

theorem nextStride_le (k : TickedClock bits) (left : Nat) : nextStride k left ≤ left :=
  Nat.min_le_left ..

/-- Lets ticks pass, stride by stride. -/
def strides (k : TickedClock bits) (left : Nat) : TickedClock bits :=
  if left = 0 then k
  else strides (stride k (nextStride k left)) (left - nextStride k left)
termination_by left
decreasing_by
  have hpos := nextStride_pos k ‹left ≠ 0›
  omega

/-! ## Single ticks -/

/-- The counter does not move: it stands still, or it is at 0 already. -/
def IsStill (k : TickedClock bits) : Prop :=
  k.counter.running = true → k.counter.value.val = 0

theorem IsStill.stride {k : TickedClock bits} (h : k.IsStill) (n : Nat) : stride k n = k := by
  obtain ⟨⟨value, running, unmasked⟩, seq⟩ := k
  cases running with
  | false => rfl
  | true =>
    obtain rfl : value = ⟨0, Nat.two_pow_pos bits⟩ := Fin.ext (h rfl)
    simp [TickedClock.stride, tick, TickedCounter.tick]

theorem tick_zero (k : TickedClock bits) : tick k 0 = (false, k) := by
  obtain ⟨⟨value, running, unmasked⟩, seq⟩ := k
  cases running with
  | false => rfl
  | true =>
    -- no tick passes, so a counter that is at 0 was there before
    simp only [tick, TickedCounter.tick, if_true, Nat.sub_zero, Prod.mk.injEq, and_true]
    cases hzero : decide (value.val = 0) with
    | false => simp
    | true => simp [of_decide_eq_true hzero]

theorem stride_zero (k : TickedClock bits) : stride k 0 = k := by
  simp [stride, tick_zero]

/-- A stride that ends before the underflow can be followed by a tick. -/
theorem stride_succ {k : TickedClock bits} {n : Nat} (h : n < k.counter.value.val) :
    stride k (n + 1) = pulse (stride k n) := by
  have hleft : k.counter.value.val - n ≠ 0 := by omega
  have hpos : 0 < k.counter.value.val - n := by omega
  have hvalue : 0 < k.counter.value.val := by omega
  cases hrunning : k.counter.running with
  | false => simp [pulse, stride, tick, TickedCounter.tick, hrunning]
  | true =>
    simp [pulse, stride, tick, TickedCounter.tick, hrunning, hleft, hpos, hvalue, Nat.sub_sub]

/-- A stride is as many single ticks. -/
theorem stride_eq_iterate {k : TickedClock bits} {n : Nat} (h : n ≤ max k.counter.value.val 1) :
    stride k n = pulse^[n] k := by
  induction n with
  | zero => exact stride_zero k
  | succ n ih =>
    rcases Nat.lt_or_ge n k.counter.value.val with hlt | hge
    · rw [Function.iterate_succ_apply', ← ih (by omega)]
      exact stride_succ hlt
    · -- the counter stands at 0, and the stride is a single tick
      obtain rfl : n = 0 := by omega
      rfl

/-- Time in strides is as many single ticks. -/
theorem strides_eq_iterate (k : TickedClock bits) (n : Nat) : strides k n = pulse^[n] k := by
  fun_induction strides k n with
  | case1 k => rfl
  | case2 k left hleft ih =>
    have hstride : stride k (nextStride k left) = pulse^[nextStride k left] k :=
      stride_eq_iterate (Nat.min_le_right ..)
    rw [ih, hstride, ← Function.iterate_add_apply, Nat.sub_add_cancel (nextStride_le k left)]

/-! ## The clock after a number of ticks -/

/-- A clock that was running and unmasked with a full counter when `n` ticks ago its sequence word
was `seq`. -/
def passed (bits : Nat) (seq : UInt32) (n : Nat) : TickedClock bits :=
  ⟨⟨⟨top bits - n % top bits, Nat.lt_of_le_of_lt (Nat.sub_le ..) (Clock.top_lt bits)⟩, true, true⟩,
    seq + UInt32.ofNat (2 * (n / top bits))⟩

theorem passed_zero (bits : Nat) (seq : UInt32) : passed bits seq 0 = afresh bits seq := by
  simp [passed, afresh, TickedCounter.full]

theorem top_pos (hbits : 0 < bits) : 0 < top bits :=
  Nat.sub_pos_of_lt (Nat.one_lt_two_pow (Nat.ne_of_gt hbits))

/-- Inside a period a tick takes one from the counter, and the last tick of it starts the next. -/
theorem pulse_passed (hbits : 0 < bits) (seq : UInt32) (n : Nat) :
    pulse (passed bits seq n) = passed bits seq (n + 1) := by
  have htop := top_pos hbits
  have hmod := Nat.mod_lt n htop
  have hnext : (n + 1) % top bits = (n % top bits + 1) % top bits := (Nat.mod_add_mod n _ 1).symm
  rcases (show n % top bits + 1 < top bits ∨ n % top bits + 1 = top bits by omega) with
    hinside | hlast
  · rw [Nat.mod_eq_of_lt hinside] at hnext
    have hdiv : (n + 1) / top bits = n / top bits :=
      Nat.succ_div_of_mod_ne_zero (by omega)
    have hleft : top bits - n % top bits - 1 ≠ 0 := by omega
    have hvalue : top bits - (n % top bits + 1) = top bits - n % top bits - 1 := by omega
    simp [pulse, stride, tick, TickedCounter.tick, passed, hnext, hdiv, hleft, hvalue]
  · have hzero : (n + 1) % top bits = 0 := by
      rw [hnext, hlast, Nat.mod_self]
    have hdiv : (n + 1) / top bits = n / top bits + 1 := Nat.succ_div_of_mod_eq_zero hzero
    have hone : top bits - n % top bits = 1 := by omega
    have hafresh : passed bits seq (n + 1) =
        afresh bits (seq + UInt32.ofNat (2 * (n / top bits)) + 2) := by
      simp only [passed, afresh, TickedCounter.full, hzero, hdiv, Nat.sub_zero,
        Clock.ofNat_two_mul_succ, UInt32.add_assoc]
    rw [hafresh]
    simp only [pulse, stride, tick, TickedCounter.tick, passed, hone, if_true]
    rfl

theorem iterate_afresh (hbits : 0 < bits) (seq : UInt32) (n : Nat) :
    pulse^[n] (afresh bits seq) = passed bits seq n := by
  induction n with
  | zero => exact (passed_zero bits seq).symm
  | succ n ih => rw [Function.iterate_succ_apply', ih, pulse_passed hbits]

/-! ## Periods at once -/

/-- The handler is due only where the counter ran down in the tick, running and unmasked. -/
theorem of_tick_due {k : TickedClock bits} {n : Nat} (h : (tick k n).1 = true) :
    0 < k.counter.value.val ∧ k.counter.value.val ≤ n ∧
      (tick k n).2.rollOver = afresh bits (k.seq + 2) := by
  obtain ⟨⟨value, running, unmasked⟩, seq⟩ := k
  cases running with
  | false => cases h
  | true =>
    simp only [tick, TickedCounter.tick, if_true, Bool.and_eq_true, decide_eq_true_eq] at h ⊢
    obtain ⟨⟨hpos, hdown⟩, rfl⟩ := h
    exact ⟨hpos, by omega, rfl⟩

/-- A counter that got as many ticks as it had left does not move any more. -/
theorem isStill_tick {k : TickedClock bits} {n : Nat} (hn : k.counter.value.val ≤ n) :
    (tick k n).2.IsStill := by
  intro hrunning
  obtain ⟨⟨value, running, unmasked⟩, seq⟩ := k
  cases running with
  | false => cases hrunning
  | true =>
    simp only [tick, TickedCounter.tick, if_true]
    exact Nat.sub_eq_zero_of_le hn

/-- Some handler runs in a row and the ticks of part of a period are the time after them. -/
theorem tick_rollOverMore {k : TickedClock bits} {seq : UInt32}
    (h : k.rollOver = afresh bits seq) (left : Nat) :
    (tick (rollOverMore k (left / top bits)) (left % top bits)).2 = passed bits seq left := by
  simp only [rollOverMore, h, tick, TickedCounter.tick, afresh, passed, TickedCounter.full, if_true]

/-- The first stride is taken as it is; if the handler is due after it, the periods follow. -/
theorem advance_eq (k : TickedClock bits) (n : Nat) :
    advance k n =
      if (tick k (nextStride k n)).1 then
        let left := n - k.counter.value.val
        (tick (rollOverMore (tick k (nextStride k n)).2 (left / top bits)) (left % top bits)).2
      else (tick k (nextStride k n)).2 :=
  rfl

/-- Time with whole periods taken at once is as many single ticks. -/
theorem advance_eq_iterate (k : TickedClock bits) (n : Nat) : advance k n = pulse^[n] k := by
  have hstride : stride k (nextStride k n) = pulse^[nextStride k n] k :=
    stride_eq_iterate (Nat.min_le_right ..)
  have hsplit : pulse^[n] k = pulse^[n - nextStride k n] (stride k (nextStride k n)) := by
    rw [hstride, ← Function.iterate_add_apply, Nat.sub_add_cancel (nextStride_le k n)]
  rw [hsplit, stride, advance_eq]
  cases hdue : (tick k (nextStride k n)).1 with
  | true =>
    -- the stride took the counter to 0, and the rest starts with a full one
    obtain ⟨hpos, hle, hrollOver⟩ := of_tick_due hdue
    have hlength : nextStride k n = k.counter.value.val := by
      have hmax : nextStride k n ≤ max k.counter.value.val 1 := Nat.min_le_right ..
      omega
    have hbits : 0 < bits := by
      rcases Nat.eq_zero_or_pos bits with rfl | hbits
      · have hlt := k.counter.value.isLt
        omega
      · exact hbits
    simp only [if_true]
    rw [tick_rollOverMore hrollOver, hrollOver, iterate_afresh hbits, hlength]
  | false =>
    simp only [Bool.false_eq_true, if_false]
    rcases Nat.lt_or_eq_of_le (nextStride_le k n) with hmore | hall
    · have hvalue : k.counter.value.val ≤ nextStride k n := by
        unfold nextStride at hmore ⊢
        omega
      exact (Function.iterate_fixed ((isStill_tick hvalue).stride 1) _).symm
    · rw [hall, Nat.sub_self]
      rfl

/-! ## What such a clock shows -/

/-- What a clock shows that was reset some ticks ago and whose handler ran whenever it was due. -/
structure Shows (k : TickedClock bits) (ticks : Nat) : Prop where
  counter : k.counter.value.val = top bits - ticks % top bits
  wraps : k.wraps.toNat = ticks / top bits % 2 ^ 31
  now : ticks / top bits < 2 ^ 31 → ticks / top bits * period bits < 2 ^ 64 →
    ∃ t, k.now = .ok t ∧ t.toNat = ticks + ticks / top bits

theorem counts_passed (bits n : Nat) : (passed bits 0 n).Counts (n / top bits) :=
  UInt32.zero_add _

/-- The periods that passed count their ticks and their reloads. -/
theorem time_passed (hbits : 0 < bits) (n : Nat) :
    (passed bits 0 n).time (n / top bits) = n + n / top bits := by
  have hmod := Nat.mod_lt n (top_pos hbits)
  have hticks : top bits - (top bits - n % top bits) = n % top bits := by omega
  have hperiod : period bits = top bits + 1 := (Nat.sub_add_cancel (Nat.two_pow_pos bits)).symm
  have hsplit := Nat.div_add_mod n (top bits)
  calc (passed bits 0 n).time (n / top bits)
      = n / top bits * (top bits + 1) + n % top bits := by
        rw [← hperiod, ← hticks]
        rfl
    _ = top bits * (n / top bits) + n % top bits + n / top bits := by
        rw [Nat.mul_succ, Nat.mul_comm, Nat.add_right_comm]
    _ = n + n / top bits := by rw [hsplit]

theorem shows_passed (hbits : 0 < bits) (hwide : bits ≤ 64) (n : Nat) :
    (passed bits 0 n).Shows n where
  counter := rfl
  wraps := by
    rw [Clock.wraps, counts_passed, Clock.toNat_wrapsOf, UInt32.toNat_ofNat']
    omega
  now hcount hproduct := by
    obtain ⟨t, hnow, ht⟩ := (counts_passed bits n).now hwide ⟨hcount, hproduct⟩
    exact ⟨t, hnow, ht.trans (time_passed hbits n)⟩

/-! ## All cuts -/

/-- Some stretches of time are as many single ticks, whichever way they are taken. -/
theorem after_advances (k : TickedClock bits) (ns : List Nat) :
    after k (ns.map .advance) = pulse^[ns.sum] k ∧ ns.foldl strides k = pulse^[ns.sum] k := by
  induction ns generalizing k with
  | nil => exact ⟨rfl, rfl⟩
  | cons n rest ih =>
    obtain ⟨hafter, hstrides⟩ := ih (pulse^[n] k)
    have hsum : pulse^[(n :: rest).sum] k = pulse^[rest.sum] (pulse^[n] k) := by
      rw [List.sum_cons, Nat.add_comm, Function.iterate_add_apply]
    rw [hsum]
    constructor
    · rw [← hafter, ← advance_eq_iterate]
      rfl
    · rw [← hstrides, ← strides_eq_iterate]
      rfl

/-- The law of simulated time. However the ticks after a reset are cut into stretches: what the
clock shows is told by their number, and it is as after so many single ticks, and as after the same
stretches taken stride by stride. -/
theorem shows_after_reset (hbits : 0 < bits) (hwide : bits ≤ 64) (k : TickedClock bits)
    (ns : List Nat) :
    (after k.reset (ns.map .advance)).Shows ns.sum ∧
    ns.foldl strides k.reset = after k.reset (ns.map .advance) ∧
    pulse^[ns.sum] k.reset = after k.reset (ns.map .advance) ∧
    ∀ ms : List Nat, ms.sum = ns.sum →
      after k.reset (ms.map .advance) = after k.reset (ns.map .advance) := by
  obtain ⟨hafter, hstrides⟩ := after_advances k.reset ns
  have hpassed : after k.reset (ns.map .advance) = passed bits 0 ns.sum := by
    rw [hafter]
    exact iterate_afresh hbits 0 ns.sum
  refine ⟨?_, hstrides.trans hafter.symm, hafter.symm, fun ms hsum => ?_⟩
  · rw [hpassed]
    exact shows_passed hbits hwide ns.sum
  · rw [(after_advances k.reset ms).1, hsum, hafter]

/-- Three periods of 15 ticks, cut in another way. -/
theorem shows_after_reset_of_threePeriods :
    (0 : Nat) < 4 ∧ (4 : Nat) ≤ 64 ∧
    (after (new 4).reset ([20, 0, 25].map .advance)).Shows 45 ∧
    (∃ t, (after (new 4).reset ([20, 0, 25].map .advance)).now = .ok t ∧ t.toNat = 48) ∧
    pulse^[45] (new 4).reset = after (new 4).reset ([15, 15, 15].map .advance) := by
  have hlaw := shows_after_reset (by decide) (by decide) (new 4) [20, 0, 25]
  obtain ⟨hshows, -, hpulses, hcuts⟩ := hlaw
  exact ⟨by decide, by decide, hshows, hshows.now (by decide) (by decide),
    hpulses.trans (hcuts [15, 15, 15] rfl).symm⟩

end TraceRing.TickedClock
