import TraceRing.Clock.Ticked

/-!
# Time that does not go back

A clock that counted `w` wraparounds stands at `w` periods and the ticks since the last reload
(`Clock.time`). This is a number without any bound, and no operation but a reset or a direct write
of the counter makes it less. A timestamp shows it as long as both words that carry it are wide
enough (`Clock.Fits`): the sequence word counts to less than `2 ^ 31`, and the high part has 64
bits.

The first of the two limits is met without a sign: the wraparound number `2 ^ 31` makes the
sequence word 0, and the clock starts again from 0 (`TickedClock.now_goes_back`).
-/

namespace TraceRing

namespace Clock

/-! ## Words -/

/-- The sequence word and the high part of a timestamp hold `w` wraparounds. -/
structure Fits (bits w : Nat) : Prop where
  count : w < 2 ^ 31
  product : w * period bits < 2 ^ 64

instance (bits w : Nat) : Decidable (Fits bits w) :=
  decidable_of_iff (w < 2 ^ 31 ∧ w * period bits < 2 ^ 64)
    ⟨fun h => ⟨h.1, h.2⟩, fun h => ⟨h.1, h.2⟩⟩

theorem Fits.mono {bits v w : Nat} (h : Fits bits w) (hle : v ≤ w) : Fits bits v where
  count := Nat.lt_of_le_of_lt hle h.count
  product := Nat.lt_of_le_of_lt (Nat.mul_le_mul_right _ hle) h.product

/-- Up to 33 bits the high part is wide enough for every count of the sequence word. -/
theorem fits_of_count {bits w : Nat} (hbits : bits ≤ 33) (hcount : w < 2 ^ 31) :
    Fits bits w := by
  refine ⟨hcount, ?_⟩
  have hperiod : period bits ≤ 2 ^ 33 := Nat.pow_le_pow_right (by decide) hbits
  calc w * period bits ≤ w * 2 ^ 33 := Nat.mul_le_mul_left w hperiod
    _ < 2 ^ 31 * 2 ^ 33 := Nat.mul_lt_mul_of_pos_right hcount (by decide)
    _ = 2 ^ 64 := by decide

/-- The high part comes in whole periods, so with it the ticks of a period fit as well. -/
theorem Fits.succ_mul_period_le {bits w : Nat} (h : Fits bits w) (hbits : bits ≤ 64) :
    (w + 1) * period bits ≤ 2 ^ 64 := by
  have hsplit : 2 ^ 64 = 2 ^ (64 - bits) * period bits := by
    rw [period, ← Nat.pow_add, Nat.sub_add_cancel hbits]
  have hproduct := h.product
  rw [hsplit] at hproduct ⊢
  exact Nat.mul_le_mul_right _ (Nat.lt_of_mul_lt_mul_right hproduct)

theorem toNat_wrapsOf (seq : UInt32) : (wrapsOf seq).toNat = seq.toNat / 2 :=
  UInt32.toNat_div ..

theorem inHandler_eq (seq : UInt32) : inHandler seq = (seq.toNat % 2 != 0) := by
  have hrest : (seq % 2).toNat = seq.toNat % 2 := UInt32.toNat_mod ..
  rw [inHandler, ← hrest, Bool.eq_iff_iff]
  simp [← UInt32.toNat_inj]

theorem toNat_wrapsOf_even {w : Nat} (hcount : w < 2 ^ 31) :
    (wrapsOf (UInt32.ofNat (2 * w))).toNat = w := by
  rw [toNat_wrapsOf, UInt32.toNat_ofNat']
  omega

theorem toNat_wrapsOf_odd {w : Nat} (hcount : w < 2 ^ 31) :
    (wrapsOf (UInt32.ofNat (2 * w) + 1)).toNat = w := by
  rw [toNat_wrapsOf, UInt32.toNat_add, UInt32.toNat_ofNat', UInt32.toNat_one]
  omega

theorem inHandler_even (w : Nat) : inHandler (UInt32.ofNat (2 * w)) = false := by
  have heven : (UInt32.ofNat (2 * w)).toNat % 2 = 0 := by
    rw [UInt32.toNat_ofNat']
    omega
  rw [inHandler_eq, heven]
  rfl

theorem inHandler_odd (w : Nat) : inHandler (UInt32.ofNat (2 * w) + 1) = true := by
  have hodd : (UInt32.ofNat (2 * w) + 1).toNat % 2 = 1 := by
    rw [UInt32.toNat_add, UInt32.toNat_ofNat', UInt32.toNat_one]
    omega
  rw [inHandler_eq, hodd]
  rfl

/-- A handler run takes the sequence word from one count to the next. -/
theorem ofNat_two_mul_succ (w : Nat) :
    UInt32.ofNat (2 * (w + 1)) = UInt32.ofNat (2 * w) + 2 := by
  rw [Nat.mul_add, UInt32.ofNat_add]
  rfl

/-- The timestamp of a count that fits is a sum of periods and ticks. -/
theorem stamp_of_fits {bits w ticks : Nat} {seq : UInt32} (hbits : bits ≤ 64) (h : Fits bits w)
    (hseq : (wrapsOf seq).toNat = w) (hticks : ticks < 2 ^ bits) :
    ∃ t, stamp bits seq ticks = .ok t ∧ t.toNat = w * period bits + ticks := by
  have hall := h.succ_mul_period_le hbits
  rw [Nat.succ_mul] at hall
  have hlow : ticks < period bits := hticks
  refine ⟨UInt64.ofNat (w * period bits + ticks), ?_, ?_⟩
  · simp only [stamp, hseq, high_or_ticks bits w hticks]
    rw [if_neg (Nat.not_le.mpr h.product)]
  · exact UInt64.toNat_ofNat_of_lt' (Nat.lt_of_lt_of_le (Nat.add_lt_add_left hlow _) hall)

/-! ## Time -/

variable {C : Type} {bits : Nat} [Countdown C bits]

/-- The time of a clock that counted `w` wraparounds. -/
def time (k : Clock C) (w : Nat) : Nat :=
  w * period bits + (top bits - (Countdown.read k.counter).val)

/-- The sequence word shows `w` wraparounds, and no handler is at work. -/
def Counts (k : Clock C) (w : Nat) : Prop :=
  k.seq = UInt32.ofNat (2 * w)

theorem time_lt (k : Clock C) (w : Nat) : k.time w < (w + 1) * period bits := by
  have htop : top bits < period bits := top_lt bits
  simp only [time, Nat.succ_mul]
  omega

/-- With more wraparounds it is later, whatever the counters hold. -/
theorem time_lt_time (k k' : Clock C) {v w : Nat} (h : v < w) : k.time v < k'.time w :=
  calc k.time v < (v + 1) * period bits := k.time_lt v
    _ ≤ w * period bits := Nat.mul_le_mul_right _ h
    _ ≤ k'.time w := Nat.le_add_right ..

/-- The timestamp of a clock is its time. -/
theorem Counts.now {k : Clock C} {w : Nat} (h : k.Counts w) (hbits : bits ≤ 64)
    (hfits : Fits bits w) : ∃ t, k.now = .ok t ∧ t.toNat = k.time w := by
  have hticks : top bits - (Countdown.read k.counter).val < 2 ^ bits :=
    Nat.lt_of_le_of_lt (Nat.sub_le ..) (top_lt bits)
  rw [Counts] at h
  simp only [Clock.now, h, inHandler_even]
  exact stamp_of_fits hbits hfits (toNat_wrapsOf_even hfits.count) hticks

theorem counts_reset (k : Clock C) : k.reset.Counts 0 :=
  rfl

theorem Counts.rollOver {k : Clock C} {w : Nat} (h : k.Counts w) : k.rollOver.Counts (w + 1) := by
  unfold Counts at h ⊢
  rw [ofNat_two_mul_succ, ← h]
  rfl

end Clock

/-! ## Simulated clocks -/

namespace TickedClock

open Clock (Counts Fits time period top)

variable {bits : Nat}

/-- Whether an operation neither resets the clock nor writes to its counter. -/
def Op.isGentle : Op → Bool
  | .reset | .set _ | .refillCounter => false
  | _ => true

/-- The number of times the handler runs in an operation. -/
def turns (k : TickedClock bits) : Op → Nat
  | .rollOver => 1
  | .advance n =>
    if (tick k (min n (max k.counter.value.val 1))).1 then
      (n - k.counter.value.val) / top bits + 1
    else 0
  | _ => 0

/-- The number of times the handler runs in some operations, one after the other. -/
def turnsIn : TickedClock bits → List Op → Nat
  | _, [] => 0
  | k, op :: rest => turns k op + turnsIn (run k op).2 rest

/-- The clock after some operations. -/
def after (k : TickedClock bits) (ops : List Op) : TickedClock bits :=
  ops.foldl (fun k op => (run k op).2) k

theorem after_append (k : TickedClock bits) (ops later : List Op) :
    after k (ops ++ later) = after (after k ops) later :=
  List.foldl_append

theorem turnsIn_append (k : TickedClock bits) (ops later : List Op) :
    turnsIn k (ops ++ later) = turnsIn k ops + turnsIn (after k ops) later := by
  induction ops generalizing k with
  | nil => exact (Nat.zero_add _).symm
  | cons op rest ih =>
    simp only [List.cons_append, turnsIn, ih, Nat.add_assoc]
    rfl

/-! ## What an operation does to the time -/

theorem counts_tick {k : TickedClock bits} {w : Nat} (h : k.Counts w) (n : Nat) :
    (tick k n).2.Counts w :=
  h

theorem time_le_tick (k : TickedClock bits) (w n : Nat) : k.time w ≤ (tick k n).2.time w := by
  apply Nat.add_le_add_left
  apply Nat.sub_le_sub_left
  change (k.counter.tick n).2.value.val ≤ k.counter.value.val
  unfold TickedCounter.tick
  split
  · exact Nat.sub_le ..
  · exact Nat.le_refl _

theorem counts_rollOverMore {k : TickedClock bits} {w : Nat} (h : k.Counts w) (more : Nat) :
    (rollOverMore k more).Counts (w + (more + 1)) := by
  induction more with
  | zero =>
    have honce : rollOverMore k 0 = k.rollOver := by
      simp [rollOverMore]
    rw [honce]
    exact h.rollOver
  | succ more ih =>
    rw [rollOverMore_succ]
    exact ih.rollOver

theorem counts_advance {k : TickedClock bits} {w : Nat} (h : k.Counts w) (n : Nat) :
    (advance k n).Counts (w + turns k (.advance n)) := by
  simp only [advance, turns]
  split
  · exact counts_tick (counts_rollOverMore (counts_tick h _) _) _
  · exact counts_tick h _

theorem time_le_advance (k : TickedClock bits) (w n : Nat) :
    k.time w ≤ (advance k n).time (w + turns k (.advance n)) := by
  simp only [advance, turns]
  split
  -- once the handler ran, the high part alone makes it later
  · exact Nat.le_of_lt (Clock.time_lt_time _ _ (Nat.lt_add_of_pos_right (Nat.succ_pos _)))
  · exact time_le_tick k w _

/-- An operation counts its handler runs. -/
theorem counts_run {k : TickedClock bits} {w : Nat} (h : k.Counts w) {op : Op}
    (hop : op.isGentle = true) : (run k op).2.Counts (w + turns k op) := by
  cases op with
  | rollOver => exact h.rollOver
  | advance n => exact counts_advance h n
  | reset => cases hop
  | set n => cases hop
  | refillCounter => cases hop
  | _ => exact h

/-- No operation turns the time back. -/
theorem time_le_run (k : TickedClock bits) (w : Nat) {op : Op} (hop : op.isGentle = true) :
    k.time w ≤ (run k op).2.time (w + turns k op) := by
  cases op with
  | tick n => exact time_le_tick k w n
  | rollOver => exact Nat.le_of_lt (Clock.time_lt_time _ _ (Nat.lt_succ_self w))
  | advance n => exact time_le_advance k w n
  | reset => cases hop
  | set n => cases hop
  | refillCounter => cases hop
  | _ => exact Nat.le_refl _

theorem counts_after {k : TickedClock bits} {w : Nat} (h : k.Counts w) {ops : List Op}
    (hops : ∀ op ∈ ops, op.isGentle = true) : (after k ops).Counts (w + turnsIn k ops) := by
  induction ops generalizing k w with
  | nil => exact h
  | cons op rest ih =>
    obtain ⟨hop, hrest⟩ := List.forall_mem_cons.mp hops
    have hlater := ih (counts_run h hop) hrest
    rw [Nat.add_assoc] at hlater
    exact hlater

theorem time_le_after (k : TickedClock bits) (w : Nat) {ops : List Op}
    (hops : ∀ op ∈ ops, op.isGentle = true) :
    k.time w ≤ (after k ops).time (w + turnsIn k ops) := by
  induction ops generalizing k w with
  | nil => exact Nat.le_refl _
  | cons op rest ih =>
    obtain ⟨hop, hrest⟩ := List.forall_mem_cons.mp hops
    have hlater := ih (run k op).2 (w + turns k op) hrest
    rw [Nat.add_assoc] at hlater
    exact Nat.le_trans (time_le_run k w hop) hlater

/-! ## All runs -/

/-- The law of time. After a reset, with fewer than `2 ^ 31` wraparounds and whatever ticks, stops
and handler runs there are, the clock can be read at any time, and no timestamp is less than an
earlier one. -/
theorem now_le_now (hbits : bits ≤ 33) (k : TickedClock bits) (before later : List Op)
    (hgentle : ∀ op ∈ before ++ later, op.isGentle = true)
    (hturns : turnsIn k.reset (before ++ later) < 2 ^ 31) :
    ∃ t t', (after k.reset before).now = .ok t ∧
      (after k.reset (before ++ later)).now = .ok t' ∧ t ≤ t' := by
  obtain ⟨hfirst, hrest⟩ := List.forall_mem_append.mp hgentle
  rw [turnsIn_append] at hturns
  rw [after_append]
  have hwide : bits ≤ 64 := Nat.le_trans hbits (by decide)
  have hlast : Fits bits (turnsIn k.reset before + turnsIn (after k.reset before) later) :=
    Clock.fits_of_count hbits hturns
  -- both timestamps are the times of the clock, and these are ordered
  have hbefore : (after k.reset before).Counts (turnsIn k.reset before) := by
    simpa using counts_after k.counts_reset hfirst
  obtain ⟨t, hnow, ht⟩ := hbefore.now hwide (hlast.mono (Nat.le_add_right ..))
  obtain ⟨t', hnow', ht'⟩ := (counts_after hbefore hrest).now hwide hlast
  refine ⟨t, t', hnow, hnow', ?_⟩
  rw [UInt64.le_iff_toNat_le, ht, ht']
  exact time_le_after _ _ hrest

theorem now_le_now_of_fewTurns :
    (4 : Nat) ≤ 33 ∧
    (∀ op ∈ [Op.tick 9] ++ [.tick 20, .stop, .rollOver, .tick 3], op.isGentle = true) ∧
    turnsIn (new 4).reset ([.tick 9] ++ [.tick 20, .stop, .rollOver, .tick 3]) < 2 ^ 31 ∧
    ∃ t t', (after (new 4).reset [.tick 9]).now = .ok t ∧
      (after (new 4).reset ([.tick 9] ++ [.tick 20, .stop, .rollOver, .tick 3])).now = .ok t' ∧
      t ≤ t' := by
  have hgentle : ∀ op ∈ [Op.tick 9] ++ [.tick 20, .stop, .rollOver, .tick 3],
      op.isGentle = true := by decide
  have hturns : turnsIn (new 4).reset ([.tick 9] ++ [.tick 20, .stop, .rollOver, .tick 3])
      < 2 ^ 31 := by decide
  exact ⟨by decide, hgentle, hturns, now_le_now (by decide) (new 4) _ _ hgentle hturns⟩

/-! ## The end of time -/

/-- Whether a clock only ticks and stops, and its handler runs only when a tick said that it is
due. -/
def isDutiful : Bool → TickedClock bits → List Op → Bool
  | _, _, [] => true
  | due, k, .tick n :: rest => isDutiful (due || (tick k n).1) (tick k n).2 rest
  | due, k, .rollOver :: rest => due && isDutiful false k.rollOver rest
  | due, k, .stop :: rest => isDutiful due k.stop rest
  | _, _, _ :: _ => false

/-- Whole periods, with the handler at the end of each. -/
def periods (bits : Nat) : Nat → List Op
  | 0 => []
  | n + 1 => .tick (top bits) :: .rollOver :: periods bits n

/-- A running, unmasked clock with a full counter. -/
def afresh (bits : Nat) (seq : UInt32) : TickedClock bits :=
  ⟨⟨TickedCounter.full bits, true, true⟩, seq⟩

theorem periods_add (bits m n : Nat) : periods bits (m + n) = periods bits m ++ periods bits n := by
  induction m with
  | zero => rw [Nat.zero_add]; rfl
  | succ m ih => rw [Nat.succ_add, periods, ih]; rfl

theorem tick_afresh (hbits : 0 < bits) (seq : UInt32) :
    (tick (afresh bits seq) (top bits)).1 = true := by
  have htop : 0 < top bits := Nat.sub_pos_of_lt (Nat.one_lt_two_pow (Nat.ne_of_gt hbits))
  simp [tick, afresh, TickedCounter.tick, TickedCounter.full, htop]

/-- A whole period adds a wraparound and changes nothing else. -/
theorem rollOver_tick_afresh (seq : UInt32) :
    (tick (afresh bits seq) (top bits)).2.rollOver = afresh bits (seq + 2) :=
  rfl

theorem after_periods (seq : UInt32) (n : Nat) :
    after (afresh bits seq) (periods bits n) = afresh bits (seq + UInt32.ofNat (2 * n)) := by
  induction n generalizing seq with
  | zero => simp [periods, after]
  | succ n ih =>
    have hseq : seq + UInt32.ofNat (2 * (n + 1)) = seq + 2 + UInt32.ofNat (2 * n) := by
      rw [Clock.ofNat_two_mul_succ, UInt32.add_assoc, UInt32.add_comm 2]
    rw [hseq, ← ih, ← rollOver_tick_afresh seq]
    rfl

theorem isDutiful_periods (hbits : 0 < bits) (seq : UInt32) (n : Nat) :
    isDutiful false (afresh bits seq) (periods bits n) = true := by
  induction n generalizing seq with
  | zero => rfl
  | succ n ih =>
    simp only [periods, isDutiful, tick_afresh hbits, Bool.or_true, Bool.true_and]
    exact ih (seq + 2)

/-- Without a bound on the wraparounds the law fails, here for a counter of one bit: the first of
`2 ^ 31` periods ends at 2, and the last of them at 0. -/
theorem now_goes_back :
    (new 1).reset = afresh 1 0 ∧
    isDutiful false (afresh 1 0) (periods 1 1 ++ periods 1 (2 ^ 31 - 1)) = true ∧
    (after (afresh 1 0) (periods 1 1)).now = .ok 2 ∧
    (after (afresh 1 0) (periods 1 1 ++ periods 1 (2 ^ 31 - 1))).now = .ok 0 := by
  rw [← periods_add]
  refine ⟨rfl, isDutiful_periods Nat.one_pos 0 _, rfl, ?_⟩
  rw [after_periods]
  rfl

end TickedClock

end TraceRing
