import TraceRing.Proofs.Clock.Monotone

/-!
# Stopped clocks

A stopped clock stands still: no tick moves it, and no tick makes its handler due. But a handler may
be owed to a tick before the stop, and the handler does not ask whether the clock was stopped: it
counts the wraparound, reloads the counter and starts it. The clock is then `TickedClock.thawed`: it
runs again with its interrupt masked, to the end of that one period. These are all the ways there
are (`TickedClock.stopped_cases`).
-/

namespace TraceRing.TickedClock

open Clock (Counts Fits period top)

variable {bits : Nat}

/-! ## Ticks in a row -/

/-- The ticks an operation lets pass. -/
def Op.ticks : Op → Nat
  | .tick n => n
  | _ => 0

/-- The ticks some operations let pass. -/
def ticksIn (ops : List Op) : Nat :=
  (ops.map Op.ticks).sum

/-- The operations from the first handler run on. -/
def fromHandler (ops : List Op) : List Op :=
  ops.dropWhile (· ≠ .rollOver)

/-- Ticks do not move a counter that stands still. -/
theorem tick_of_stopped {k : TickedClock bits} (h : k.counter.running = false) (n : Nat) :
    tick k n = (false, k) := by
  simp only [tick, TickedCounter.tick, h, Bool.false_eq_true, if_false]

/-! ## The handler after a stop -/

/-- A clock whose handler ran after it was stopped, some ticks later. -/
def thawed (bits : Nat) (seq : UInt32) (ticks : Nat) : TickedClock bits :=
  ⟨⟨⟨top bits - ticks, Nat.lt_of_le_of_lt (Nat.sub_le ..) (Clock.top_lt bits)⟩, true, false⟩,
    seq + 2⟩

theorem rollOver_stop (k : TickedClock bits) : k.stop.rollOver = thawed bits k.seq 0 :=
  rfl

/-- The handler is not due again, for the interrupt is masked. -/
theorem tick_thawed (seq : UInt32) (ticks n : Nat) :
    tick (thawed bits seq ticks) n = (false, thawed bits seq (ticks + n)) := by
  simp [tick, TickedCounter.tick, thawed, Nat.sub_sub]

theorem after_thawed {seq : UInt32} {ticks : Nat} {ops : List Op}
    (hduty : isDutiful false (thawed bits seq ticks) ops = true) (hstop : .stop ∉ ops) :
    .rollOver ∉ ops ∧
      after (thawed bits seq ticks) ops = thawed bits seq (ticks + ticksIn ops) := by
  induction ops generalizing ticks with
  | nil => exact ⟨List.not_mem_nil, rfl⟩
  | cons op rest ih =>
    cases op with
    | tick n =>
      rw [isDutiful, tick_thawed] at hduty
      obtain ⟨hroll, hafter⟩ := ih hduty (List.not_mem_of_not_mem_cons hstop)
      refine ⟨List.not_mem_cons_of_ne_of_not_mem (by simp) hroll, ?_⟩
      have hstep : after (thawed bits seq ticks) (.tick n :: rest) =
          after (tick (thawed bits seq ticks) n).2 rest := rfl
      have hticks : ticksIn (.tick n :: rest) = n + ticksIn rest := List.sum_cons
      rw [hstep, tick_thawed, hafter, hticks, Nat.add_assoc]
    | stop => exact absurd List.mem_cons_self hstop
    | _ => cases hduty

/-- The time of such a clock: a wraparound more, and the ticks as long as there are any left. -/
theorem now_thawed {k : TickedClock bits} {w : Nat} (h : k.Counts w) (hbits : bits ≤ 64)
    (hfits : Fits bits (w + 1)) (ticks : Nat) :
    ∃ t, (thawed bits k.seq ticks).now = .ok t ∧
      t.toNat = (w + 1) * period bits + min ticks (top bits) := by
  have hcounts : (thawed bits k.seq ticks).Counts (w + 1) := by
    have hseq : k.seq = UInt32.ofNat (2 * w) := h
    rw [Counts, Clock.ofNat_two_mul_succ, ← hseq]
    rfl
  obtain ⟨t, hnow, ht⟩ := hcounts.now hbits hfits
  refine ⟨t, hnow, ht.trans (congrArg ((w + 1) * period bits + ·) ?_)⟩
  change top bits - (top bits - ticks) = min ticks (top bits)
  omega

/-! ## After a stop -/

/-- Ticks and dutiful handler runs after a stop: nothing moves before the handler runs, and it runs
at most once, if it was owed at the stop. -/
theorem stopped_cases {k : TickedClock bits} {owed : Bool} {ops : List Op}
    (hduty : isDutiful owed k.stop ops = true) (hstop : .stop ∉ ops) :
    (.rollOver ∉ ops ∧ after k.stop ops = k.stop) ∨
      (owed = true ∧ ops.count .rollOver = 1 ∧
        after k.stop ops = thawed bits k.seq (ticksIn (fromHandler ops))) := by
  induction ops with
  | nil => exact .inl ⟨List.not_mem_nil, rfl⟩
  | cons op rest ih =>
    have hrest := List.not_mem_of_not_mem_cons hstop
    cases op with
    | tick n =>
      have hstill : tick k.stop n = (false, k.stop) := tick_of_stopped rfl n
      have hstep : after k.stop (.tick n :: rest) = after k.stop rest :=
        congrArg (fun ticked => after ticked.2 rest) hstill
      rw [isDutiful, hstill, Bool.or_false] at hduty
      rw [hstep]
      obtain ⟨hroll, hafter⟩ | ⟨howed, honce, hafter⟩ := ih hduty hrest
      · exact .inl ⟨List.not_mem_cons_of_ne_of_not_mem (by simp) hroll, hafter⟩
      · refine .inr ⟨howed, ?_, hafter⟩
        rw [List.count_cons_of_ne (by simp), honce]
    | rollOver =>
      obtain ⟨howed, hlater⟩ := Bool.and_eq_true_iff.mp hduty
      rw [rollOver_stop] at hlater
      obtain ⟨hroll, hafter⟩ := after_thawed hlater hrest
      refine .inr ⟨howed, ?_, hafter⟩
      rw [List.count_cons_self, List.count_eq_zero_of_not_mem hroll]
    | stop => exact absurd List.mem_cons_self hstop
    | _ => cases hduty

/-- A stop keeps the time, and as long as no handler runs that was owed before it nothing moves the
clock, whatever ticks pass. A handler that was owed sets the clock in motion: the time is one
wraparound more, goes on with the ticks up to the end of that period, and then stands still for
good. It is the only one that runs before the next reset. -/
theorem stopped_until_owed (k : TickedClock bits) (owed : Bool) {ops : List Op}
    (hduty : isDutiful owed k.stop ops = true) (hstop : .stop ∉ ops) :
    let ticks := ticksIn (fromHandler ops)
    k.stop.now = k.now ∧ k.stop.counter.running = false ∧
    (owed = false ∨ .rollOver ∉ ops → after k.stop ops = k.stop) ∧
    (.rollOver ∈ ops → owed = true ∧ ops.count .rollOver = 1 ∧
      after k.stop ops = thawed bits k.seq ticks ∧
      ∀ w, k.Counts w → bits ≤ 64 → Fits bits (w + 1) → ∃ t, (after k.stop ops).now = .ok t ∧
        t.toNat = (w + 1) * period bits + min ticks (top bits)) := by
  intro ticks
  refine ⟨rfl, rfl, ?_⟩
  obtain ⟨hroll, hafter⟩ | ⟨howed, honce, hafter⟩ := stopped_cases hduty hstop
  · exact ⟨fun _ => hafter, fun hmem => absurd hmem hroll⟩
  · refine ⟨fun hnone => ?_, fun _ => ⟨howed, honce, hafter, fun w hcounts hbits hfits => ?_⟩⟩
    · rcases hnone with hnone | hnone
      · rw [howed] at hnone
        cases hnone
      · rw [List.count_eq_zero_of_not_mem hnone] at honce
        cases honce
    · rw [hafter]
      exact now_thawed hcounts hbits hfits ticks

/-- A counter of four bits that ran down before the stop: it stands at 15, and once its handler ran
it goes on from 16. -/
theorem stopped_until_owed_of_ranDown :
    let ranDown : TickedClock 4 := (tick (new 4).reset 15).2
    let ops : List Op := [.tick 2, .rollOver, .tick 3]
    isDutiful true ranDown.stop ops = true ∧ .stop ∉ ops ∧ ranDown.stop.now = .ok 15 ∧
      ∃ t, (after ranDown.stop ops).now = .ok t ∧ t.toNat = 19 := by
  have hlast : (tick (new 4).reset 15).2.now = .ok 15 := rfl
  intro ranDown ops
  have hduty : isDutiful true ranDown.stop ops = true := rfl
  have hstop : .stop ∉ ops := by decide
  obtain ⟨hnow, -, -, hruns⟩ := stopped_until_owed ranDown true hduty hstop
  obtain ⟨-, -, -, htime⟩ := hruns (by decide)
  exact ⟨hduty, hstop, hnow.trans hlast, htime 0 rfl (by decide) (by decide)⟩

/-- A clock that was stopped when its handler was owed does not stand still: the time goes from 15
to 16, and the counter runs. -/
theorem stop_thaws :
    isDutiful false (new 4).reset [.tick 15, .stop, .rollOver] = true ∧
      (after (new 4).reset [.tick 15, .stop]).now = .ok 15 ∧
      (after (new 4).reset [.tick 15, .stop, .rollOver]).now = .ok 16 ∧
      (after (new 4).reset [.tick 15, .stop, .rollOver]).counter.running = true :=
  ⟨rfl, rfl, rfl, rfl⟩

end TraceRing.TickedClock
