import Mathlib.Data.Nat.Basic
import Mathlib.Order.Monotone.Defs
import TraceRing.Clock.Elapsed

/-!
# Counters by time and by hand

A counter that is driven by elapsed time is a counter that is ticked by hand, only that it reckons
its ticks when it is asked (`ElapsedCounter.ticked`). Some operations look at the time and some do
not (`CounterOp.looks`), and which they are depends on whether the counter runs. If a counter that
is ticked by hand gets, from each look to the next, as many ticks as the time has gone on
(`Looking.InStep`), both show the same (`Looking.shows_in_step`). What the counter has left is told
by the time in which it ran (`Looking.ran`), and no subtraction it does goes below 0.
-/

namespace TraceRing

open Clock (top)

variable {bits : Nat}

/-! ## Operations -/

/-- What is done to a counter. -/
inductive CounterOp where
  | stop
  | refill
  | start
  | setIrq (enabled : Bool)
  | read
  deriving DecidableEq, Repr

namespace CounterOp

/-- Does an operation. A reading leaves the counter as it is. -/
def perform {C : Type} [Countdown C bits] (c : C) : CounterOp → C
  | .stop => Countdown.stop c
  | .refill => Countdown.refill c
  | .start => Countdown.start c
  | .setIrq enabled => Countdown.setIrq enabled c
  | .read => c

/-- Whether an operation looks at the time, on a counter that runs or does not. -/
def looks (running : Bool) : CounterOp → Bool
  | .stop | .read => running
  | .refill => true
  | .start => !running
  | .setIrq _ => false

end CounterOp

/-- What an operation shows: the value, if it is a reading, and the flags after it. -/
structure Shown (bits : Nat) where
  value : Option (Fin (2 ^ bits))
  running : Bool
  unmasked : Bool
  deriving DecidableEq

namespace TickedCounter

variable {c : TickedCounter bits}

/-- What a counter shows after an operation. -/
def shown (c : TickedCounter bits) (op : CounterOp) : Shown bits :=
  ⟨if op = .read then some c.value else none, c.running, c.unmasked⟩

/-- What a counter gets that is ticked by hand. -/
inductive Beat where
  | tick (n : Nat)
  | op (op : CounterOp)

/-- The operations among ticks. -/
def operations (script : List Beat) : List CounterOp :=
  script.filterMap fun
    | .tick _ => none
    | .op op => some op

/-- What is shown by the operations among ticks. -/
def shows : TickedCounter bits → List Beat → List (Shown bits)
  | _, [] => []
  | c, .tick n :: rest => shows (c.tick n).2 rest
  | c, .op op :: rest => (op.perform c).shown op :: shows (op.perform c) rest

theorem tick_of_stopped (h : c.running = false) (n : Nat) : (c.tick n).2 = c := by
  simp [tick, h]

theorem tick_of_running (h : c.running = true) (n : Nat) :
    (c.tick n).2 =
      { c with value := ⟨c.value.val - n, Nat.lt_of_le_of_lt (Nat.sub_le ..) c.value.isLt⟩ } := by
  simp [tick, h]

@[simp] theorem tick_zero (c : TickedCounter bits) : (c.tick 0).2 = c := by
  cases hrunning : c.running with
  | false => exact tick_of_stopped hrunning 0
  | true => exact tick_of_running hrunning 0

@[simp] theorem running_tick (c : TickedCounter bits) (n : Nat) :
    (c.tick n).2.running = c.running := by
  cases hrunning : c.running <;> simp [tick, hrunning]

@[simp] theorem unmasked_tick (c : TickedCounter bits) (n : Nat) :
    (c.tick n).2.unmasked = c.unmasked := by
  cases hrunning : c.running <;> simp [tick, hrunning]

theorem value_tick_of_running (h : c.running = true) (n : Nat) :
    (c.tick n).2.value.val = c.value.val - n := by
  rw [tick_of_running h]

/-- Only a refill changes the value. -/
theorem value_perform (c : TickedCounter bits) (op : CounterOp) :
    (op.perform c).value = if op = .refill then full bits else c.value := by
  cases op <;> rfl

/-- Ticks add up. -/
@[simp] theorem tick_tick (c : TickedCounter bits) (m n : Nat) :
    ((c.tick m).2.tick n).2 = (c.tick (m + n)).2 := by
  cases hrunning : c.running with
  | false => simp only [tick_of_stopped hrunning]
  | true => simp [tick, hrunning, Nat.sub_sub]

/-- Where the time is not looked at, ticks may come before an operation or after it. -/
theorem perform_tick {op : CounterOp} (h : op.looks c.running = false) (n : Nat) :
    op.perform (c.tick n).2 = ((op.perform c).tick n).2 := by
  cases op with
  | refill => cases h
  | read => rfl
  | setIrq enabled =>
    cases hrunning : c.running with
    | false =>
      have hset : (CounterOp.perform c (.setIrq enabled)).running = false := hrunning
      rw [tick_of_stopped hrunning, tick_of_stopped hset]
    | true =>
      have hset : (CounterOp.perform c (.setIrq enabled)).running = true := hrunning
      rw [tick_of_running hrunning, tick_of_running hset]
      rfl
  | stop =>
    have hstopped : (CounterOp.perform c .stop).running = false := rfl
    rw [tick_of_stopped h, tick_of_stopped hstopped]
  | start =>
    have hrunning : c.running = true := by simpa [CounterOp.looks] using h
    have hstarted : (CounterOp.perform c .start).running = true := rfl
    rw [tick_of_running hrunning, tick_of_running hstarted]
    rfl

/-- Nor does such an operation show whether they came before it. -/
theorem shown_perform_tick {op : CounterOp} (h : op.looks c.running = false) (n : Nat) :
    (op.perform (c.tick n).2).shown op = (op.perform c).shown op := by
  rw [perform_tick h]
  by_cases hread : op = .read
  · subst hread
    rw [tick_of_stopped (by exact h)]
  · simp [shown, hread]

end TickedCounter

namespace ElapsedCounter

variable {c : ElapsedCounter bits}

/-- What a counter shows after an operation. -/
def shown (c : ElapsedCounter bits) (op : CounterOp) : Shown bits :=
  ⟨if op = .read then some c.value else none, c.running, c.unmasked⟩

/-- The counter once a later time is seen. -/
def seen (c : ElapsedCounter bits) (now : Nat) : ElapsedCounter bits :=
  { c with elapsed := now }

theorem value_of_stopped (h : c.running = false) : c.value = c.resting := by
  simp [value, h]

theorem value_of_running (h : c.running = true) :
    c.value.val = top bits - (c.elapsed - c.fullAt) := by
  simp [value, h]

theorem start_of_running (h : c.running = true) : Countdown.start c = c := by
  simp [Countdown.start, resume, h]

theorem start_of_stopped (h : c.running = false) :
    Countdown.start c =
      { c with running := true, fullAt := c.elapsed - (top bits - c.resting.val) } := by
  simp [Countdown.start, resume, h]

theorem value_seen (h : c.running = false) (now : Nat) : (c.seen now).value = c.value := by
  rw [value_of_stopped h, value_of_stopped (by exact h)]
  rfl

/-- What does not look at the time does not depend on it. -/
theorem perform_seen {op : CounterOp} (h : op.looks c.running = false) (now : Nat) :
    op.perform (c.seen now) = (op.perform c).seen now ∧
      (op.perform (c.seen now)).shown op = (op.perform c).shown op := by
  cases op with
  | refill => cases h
  | setIrq enabled => exact ⟨rfl, rfl⟩
  | start =>
    have hrunning : c.running = true := by simpa [CounterOp.looks] using h
    have hseen : (c.seen now).running = true := hrunning
    rw [CounterOp.perform, CounterOp.perform, start_of_running hrunning, start_of_running hseen]
    exact ⟨rfl, rfl⟩
  | stop =>
    have hstop : CounterOp.perform (c.seen now) .stop = (CounterOp.perform c .stop).seen now := by
      simp only [CounterOp.perform, Countdown.stop, value_seen h]
      rfl
    rw [hstop]
    exact ⟨rfl, rfl⟩
  | read => exact ⟨rfl, by simp only [CounterOp.perform, shown, value_seen h]; rfl⟩

/-! ## What a counter reckons -/

/-- The counter ticked by hand that a counter stands for. -/
def ticked (c : ElapsedCounter bits) : TickedCounter bits :=
  ⟨c.value, c.running, c.unmasked⟩

/-- The counter was full at a time that is past, and what it has spent when it rests is not more
than all the time there was. -/
structure IsSound (c : ElapsedCounter bits) : Prop where
  full : c.fullAt ≤ c.elapsed
  spent : top bits - c.resting.val ≤ c.elapsed

/-- Whether no subtraction of an operation goes below 0, where the time is `now`; but that from the
largest value, which stops at 0 when the counter ran down. -/
def IsExact (now : Nat) (c : ElapsedCounter bits) : CounterOp → Prop
  | .stop | .read => c.running = true → c.fullAt ≤ now
  | .start => c.running = false → c.resting.val ≤ top bits ∧ top bits - c.resting.val ≤ now
  | .refill | .setIrq _ => True

@[simp] theorem elapsed_perform (c : ElapsedCounter bits) (op : CounterOp) :
    (op.perform c).elapsed = c.elapsed := by
  cases op with
  | start =>
    change (Countdown.start c).elapsed = _
    cases hrunning : c.running with
    | false => rw [start_of_stopped hrunning]
    | true => rw [start_of_running hrunning]
  | _ => rfl

/-- What does not look at the time neither stops the counter nor sets it going. -/
theorem running_perform {op : CounterOp} (h : op.looks c.running = false) :
    (op.perform c).running = c.running := by
  cases op with
  | refill => cases h
  | setIrq enabled => rfl
  | read => rfl
  | stop => exact h.symm
  | start =>
    have hrunning : c.running = true := by simpa [CounterOp.looks] using h
    rw [CounterOp.perform, start_of_running hrunning]

namespace IsSound

theorem exact_of_le (h : c.IsSound) {now : Nat} (hnow : c.elapsed ≤ now) (op : CounterOp) :
    c.IsExact now op := by
  cases op with
  | refill => trivial
  | setIrq enabled => trivial
  | stop => exact fun _ => Nat.le_trans h.full hnow
  | read => exact fun _ => Nat.le_trans h.full hnow
  | start =>
    exact fun _ => ⟨Nat.le_sub_one_of_lt c.resting.isLt, Nat.le_trans h.spent hnow⟩

theorem later (h : c.IsSound) {now : Nat} (hnow : c.elapsed ≤ now) : (c.seen now).IsSound :=
  ⟨Nat.le_trans h.full hnow, Nat.le_trans h.spent hnow⟩

theorem perform (h : c.IsSound) (op : CounterOp) : (op.perform c).IsSound := by
  cases op with
  | setIrq enabled => exact ⟨h.full, h.spent⟩
  | read => exact h
  | refill =>
    refine ⟨Nat.le_refl _, ?_⟩
    change top bits - top bits ≤ c.elapsed
    omega
  | stop =>
    refine ⟨h.full, ?_⟩
    change top bits - c.value.val ≤ c.elapsed
    cases hrunning : c.running with
    | false =>
      rw [value_of_stopped hrunning]
      exact h.spent
    | true =>
      -- it has spent no more than the time since it was full
      rw [value_of_running hrunning]
      omega
  | start =>
    change (Countdown.start c).IsSound
    cases hrunning : c.running with
    | true =>
      rw [start_of_running hrunning]
      exact h
    | false =>
      rw [start_of_stopped hrunning]
      exact ⟨Nat.sub_le .., h.spent⟩

/-- A counter that starts goes on from what it holds. -/
theorem value_start (h : c.IsSound) : (Countdown.start c).value = c.value := by
  cases hrunning : c.running with
  | true => rw [start_of_running hrunning]
  | false =>
    have hresting : c.resting.val ≤ top bits := Nat.le_sub_one_of_lt c.resting.isLt
    have hspent := h.spent
    rw [start_of_stopped hrunning, value_of_stopped hrunning]
    apply Fin.ext
    rw [value_of_running rfl]
    change top bits - (c.elapsed - (c.elapsed - (top bits - c.resting.val))) = c.resting.val
    -- by `hspent` the time at which it was full is not cut off at 0
    omega

/-- An operation does the same to both counters. -/
theorem ticked_perform (h : c.IsSound) (op : CounterOp) :
    (op.perform c).ticked = op.perform c.ticked := by
  cases op with
  | stop => rfl
  | setIrq enabled => rfl
  | read => rfl
  | refill =>
    have hvalue : (Countdown.refill c).value = TickedCounter.full bits := by
      cases hrunning : c.running with
      | false => exact value_of_stopped hrunning
      | true =>
        apply Fin.ext
        rw [value_of_running (c := Countdown.refill c) hrunning]
        change top bits - (c.elapsed - c.elapsed) = top bits
        omega
    simp only [CounterOp.perform, ticked, hvalue]
    rfl
  | start =>
    have hflags : (Countdown.start c).running = true ∧
        (Countdown.start c).unmasked = c.unmasked := by
      cases hrunning : c.running with
      | true => rw [start_of_running hrunning]; exact ⟨hrunning, rfl⟩
      | false => rw [start_of_stopped hrunning]; exact ⟨rfl, rfl⟩
    simp only [CounterOp.perform, ticked, h.value_start, hflags]
    rfl

/-- Time that goes on is as many ticks; to a counter that stands still neither matters. -/
theorem ticked_seen (h : c.IsSound) {now n : Nat} (hnow : c.running = true → c.elapsed + n = now) :
    (c.seen now).ticked = (c.ticked.tick n).2 := by
  cases hrunning : c.running with
  | false =>
    rw [TickedCounter.tick_of_stopped hrunning, ticked, value_seen hrunning]
    rfl
  | true =>
    have hfull := h.full
    have htime := hnow hrunning
    have hvalue : (c.seen now).value = ⟨c.value.val - n, by omega⟩ := by
      apply Fin.ext
      change _ = c.value.val - n
      rw [value_of_running hrunning, value_of_running (c := c.seen now) hrunning]
      change top bits - (now - c.fullAt) = _
      omega
    rw [TickedCounter.tick_of_running hrunning, ticked, hvalue]
    rfl

end IsSound

end ElapsedCounter

/-! ## Counters in step -/

/-- A counter driven by time that has looked at the time some number of times. What it sees there
is `e 0`, `e 1` and so on. -/
structure Looking (bits : Nat) where
  counter : ElapsedCounter bits
  looks : Nat

namespace Looking

open TickedCounter (Beat operations tick_zero tick_tick perform_tick shown_perform_tick)

variable {e : Nat → Nat} {s : Looking bits} {op : CounterOp}

/-- A counter that was just made. -/
def new (bits : Nat) : Looking bits :=
  ⟨.new bits, 0⟩

/-- How far the time goes on from the last look to the next. Before the first look nothing is due:
the counter stands still. -/
def gap (e : Nat → Nat) (s : Looking bits) : Nat :=
  e s.looks - e (s.looks - 1)

/-- Does an operation, which may look at the time before. -/
def step (e : Nat → Nat) (s : Looking bits) (op : CounterOp) : Looking bits :=
  if op.looks s.counter.running then ⟨op.perform (s.counter.seen (e s.looks)), s.looks + 1⟩
  else { s with counter := op.perform s.counter }

def after (e : Nat → Nat) (s : Looking bits) (ops : List CounterOp) : Looking bits :=
  ops.foldl (step e) s

/-- What is shown by operations. -/
def shows (e : Nat → Nat) : Looking bits → List CounterOp → List (Shown bits)
  | _, [] => []
  | s, op :: rest => (s.step e op).counter.shown op :: shows e (s.step e op) rest

/-- Whether among operations there are, from each look at the time to the next, as many ticks as
the time goes on. Since the last look there were `ticks`. -/
def InStep (e : Nat → Nat) : Looking bits → Nat → List Beat → Prop
  | _, _, [] => True
  | s, ticks, .tick n :: rest => InStep e s (ticks + n) rest
  | s, ticks, .op op :: rest =>
    if op.looks s.counter.running then ticks = s.gap e ∧ InStep e (s.step e op) 0 rest
    else InStep e (s.step e op) ticks rest

instance InStep.decidable (e : Nat → Nat) :
    (s : Looking bits) → (ticks : Nat) → (script : List Beat) → Decidable (InStep e s ticks script)
  | _, _, [] => inferInstanceAs (Decidable True)
  | s, ticks, .tick n :: rest => InStep.decidable e s (ticks + n) rest
  | s, ticks, .op op :: rest =>
    have := InStep.decidable e (s.step e op) 0 rest
    have := InStep.decidable e (s.step e op) ticks rest
    inferInstanceAs (Decidable (if op.looks s.counter.running then
      ticks = s.gap e ∧ InStep e (s.step e op) 0 rest else InStep e (s.step e op) ticks rest))

/-- Operations with the ticks right before each look. -/
def paced (e : Nat → Nat) : Looking bits → List CounterOp → List Beat
  | _, [] => []
  | s, op :: rest =>
    if op.looks s.counter.running then .tick (s.gap e) :: .op op :: paced e (s.step e op) rest
    else .op op :: paced e (s.step e op) rest

/-- The time in which the counter was seen to run since it was last filled, after one more
operation: up to now it was `n`. -/
def ranOn (e : Nat → Nat) (s : Looking bits) (n : Nat) (op : CounterOp) : Nat :=
  if op = .refill then 0
  else if s.counter.running && op.looks s.counter.running then n + s.gap e
  else n

/-- The time in which the counter was seen to run since it was last filled. -/
def ran (e : Nat → Nat) : Looking bits → Nat → List CounterOp → Nat
  | _, n, [] => n
  | s, n, op :: rest => ran e (s.step e op) (s.ranOn e n op) rest

theorem step_of_looks (h : op.looks s.counter.running = true) :
    s.step e op = ⟨op.perform (s.counter.seen (e s.looks)), s.looks + 1⟩ := by
  simp [step, h]

theorem step_of_not_looks (h : op.looks s.counter.running = false) :
    s.step e op = { s with counter := op.perform s.counter } := by
  simp [step, h]

theorem operations_paced (s : Looking bits) (ops : List CounterOp) :
    operations (paced e s ops) = ops := by
  induction ops generalizing s with
  | nil => rfl
  | cons op rest ih =>
    have hrest := ih (s.step e op)
    rw [operations] at hrest
    unfold paced operations
    split <;> simp [hrest]

theorem inStep_paced (s : Looking bits) (ops : List CounterOp) :
    InStep e s 0 (paced e s ops) := by
  induction ops generalizing s with
  | nil => trivial
  | cons op rest ih => cases h : op.looks s.counter.running <;> simp [paced, h, InStep, ih]

/-! ### What every look finds -/

/-- The counter is sound, the next look finds no time before the last one, and a counter that runs
has seen the time of the last look. -/
structure IsSound (e : Nat → Nat) (s : Looking bits) : Prop where
  counter : s.counter.IsSound
  past : s.counter.elapsed ≤ e s.looks
  last : s.counter.running = true → s.counter.elapsed = e (s.looks - 1)

theorem isSound_new (e : Nat → Nat) (bits : Nat) : (new bits).IsSound e :=
  ⟨⟨Nat.le_refl 0, Nat.le_of_eq (Nat.sub_self (top bits))⟩, Nat.zero_le _, Bool.noConfusion⟩

namespace IsSound

theorem step (he : Monotone e) (h : s.IsSound e) (op : CounterOp) : (s.step e op).IsSound e := by
  cases hlooks : op.looks s.counter.running with
  | true =>
    rw [step_of_looks hlooks]
    refine ⟨(h.counter.later h.past).perform op, ?_, fun _ => ?_⟩
    · rw [ElapsedCounter.elapsed_perform]
      exact he (Nat.le_succ s.looks)
    · exact ElapsedCounter.elapsed_perform _ op
  | false =>
    rw [step_of_not_looks hlooks]
    refine ⟨h.counter.perform op, ?_, fun hrunning => ?_⟩
    · rw [ElapsedCounter.elapsed_perform]
      exact h.past
    · rw [ElapsedCounter.elapsed_perform]
      exact h.last (ElapsedCounter.running_perform hlooks ▸ hrunning)

theorem after (he : Monotone e) (h : s.IsSound e) (ops : List CounterOp) :
    (s.after e ops).IsSound e := by
  induction ops generalizing s with
  | nil => exact h
  | cons op rest ih => exact ih (h.step he op)

theorem elapsed_add_gap (he : Monotone e) (h : s.IsSound e) (hrunning : s.counter.running = true) :
    s.counter.elapsed + s.gap e = e s.looks := by
  rw [h.last hrunning, gap]
  exact Nat.add_sub_cancel' (he (Nat.sub_le ..))

/-- With the ticks that are due, an operation that looks does the same to both counters. -/
theorem ticked_step_of_looks (he : Monotone e) (h : s.IsSound e)
    (hlooks : op.looks s.counter.running = true) :
    (s.step e op).counter.ticked = op.perform (s.counter.ticked.tick (s.gap e)).2 := by
  rw [step_of_looks hlooks, (h.counter.later h.past).ticked_perform op,
    h.counter.ticked_seen (h.elapsed_add_gap he)]

/-- So does one that does not look, without ticks. -/
theorem ticked_step_of_not_looks (h : s.IsSound e) (hlooks : op.looks s.counter.running = false) :
    (s.step e op).counter.ticked = op.perform s.counter.ticked := by
  rw [step_of_not_looks hlooks]
  exact h.counter.ticked_perform op

/-- A counter in step with the time shows what the counter shows that is driven by it. -/
theorem shows_eq (he : Monotone e) (h : s.IsSound e) {ticks : Nat}
    {script : List Beat} (hstep : InStep e s ticks script) :
    (s.counter.ticked.tick ticks).2.shows script = s.shows e (operations script) := by
  -- the counter that is ticked by hand is ahead by the ticks since the last look
  induction script generalizing s ticks with
  | nil => rfl
  | cons beat rest ih =>
    cases beat with
    | tick n =>
      rw [TickedCounter.shows, tick_tick]
      exact ih h hstep
    | op op =>
      rw [TickedCounter.shows]
      change _ = (s.step e op).counter.shown op :: shows e (s.step e op) (operations rest)
      cases hlooks : op.looks s.counter.running with
      | true =>
        -- a look brings both together
        obtain ⟨rfl, hrest⟩ : ticks = s.gap e ∧ InStep e (s.step e op) 0 rest := by
          simpa [InStep, hlooks] using hstep
        rw [← h.ticked_step_of_looks he hlooks, ← ih (h.step he op) hrest, tick_zero]
        rfl
      | false =>
        -- without one the ticks may as well come after the operation
        have hrest : InStep e (s.step e op) ticks rest := by
          simpa [InStep, hlooks] using hstep
        have hticked : s.counter.ticked.running = s.counter.running := rfl
        rw [shown_perform_tick (hticked ▸ hlooks), perform_tick (hticked ▸ hlooks),
          ← h.ticked_step_of_not_looks hlooks, ih (h.step he op) hrest]
        rfl

/-! ### What is left -/

theorem left_step (he : Monotone e) (h : s.IsSound e) {n : Nat}
    (hleft : s.counter.value.val = top bits - n) (op : CounterOp) :
    (s.step e op).counter.value.val = top bits - s.ranOn e n op := by
  have hvalue : (s.step e op).counter.value = (s.step e op).counter.ticked.value := rfl
  cases hlooks : op.looks s.counter.running with
  | false =>
    have hkept : op ≠ .refill := by
      rintro rfl
      cases hlooks
    have hran : s.ranOn e n op = n := by simp [ranOn, hkept, hlooks]
    rw [hvalue, h.ticked_step_of_not_looks hlooks, TickedCounter.value_perform, if_neg hkept, hran]
    exact hleft
  | true =>
    rw [hvalue, h.ticked_step_of_looks he hlooks, TickedCounter.value_perform]
    by_cases hrefill : op = .refill
    · simp [ranOn, hrefill, TickedCounter.full]
    · rw [if_neg hrefill]
      cases hrunning : s.counter.running with
      | false =>
        have hran : s.ranOn e n op = n := by simp [ranOn, hrefill, hrunning]
        rw [TickedCounter.tick_of_stopped hrunning, hran]
        exact hleft
      | true =>
        have hran : s.ranOn e n op = n + s.gap e := by
          rw [ranOn, if_neg hrefill, hlooks, hrunning]
          rfl
        rw [TickedCounter.value_tick_of_running hrunning, hran]
        change s.counter.value.val - s.gap e = _
        omega

/-- What is left is told by the time the counter was seen to run since it was last filled. -/
theorem left_after (he : Monotone e) (h : s.IsSound e) {n : Nat}
    (hleft : s.counter.value.val = top bits - n) (ops : List CounterOp) :
    (s.after e ops).counter.value.val = top bits - s.ran e n ops := by
  induction ops generalizing s n with
  | nil => exact hleft
  | cons op rest ih => exact ih (h.step he op) (h.left_step he hleft op)

end IsSound

/-- Until the counter is filled, the time in which it ran does not get less. -/
theorem le_ran {ops : List CounterOp} (h : .refill ∉ ops) (s : Looking bits) (n : Nat) :
    n ≤ s.ran e n ops := by
  induction ops generalizing s n with
  | nil => exact Nat.le_refl n
  | cons op rest ih =>
    obtain ⟨hop, hrest⟩ := not_or.mp (List.mem_cons.not.mp h)
    have hon : n ≤ s.ranOn e n op := by
      rw [ranOn, if_neg (Ne.symm hop)]
      split
      · exact Nat.le_add_right n _
      · exact Nat.le_refl n
    exact Nat.le_trans hon (ih hrest (s.step e op) (s.ranOn e n op))

/-- A counter that ran down stays so until it is filled. -/
theorem IsSound.run_down (he : Monotone e) (h : s.IsSound e) {ops : List CounterOp}
    (hdown : s.counter.value.val = 0) (hops : .refill ∉ ops) :
    (s.after e ops).counter.value.val = 0 := by
  -- it may have run for longer, but what counts is that it ran down
  have hleft := h.left_after he (n := top bits) (by omega) ops
  have hran := le_ran (e := e) hops s (top bits)
  omega

/-- A counter driven by time is one that is ticked by hand. Let the time never go back, and let both
counters get the same operations, and the one of them as many ticks from each look at the time to
the next as the time goes on; for any operations there is such a script. Then all readings and flags
are the same. No subtraction goes below 0. What is left is always the largest value less the time in
which the counter ran since it was last filled, however often it was stopped and started. A counter
that ran down stays at 0 until it is filled. What an operation does that does not look at the time
is the same at every time. -/
theorem shows_in_step (he : Monotone e) (bits : Nat) (ops : List CounterOp) :
    (∃ script, operations script = ops ∧ InStep e (new bits) 0 script) ∧
    (∀ script, operations script = ops → InStep e (new bits) 0 script →
      (new bits).shows e ops = (TickedCounter.new bits).shows script) ∧
    (∀ before op rest, ops = before ++ op :: rest →
      let s := (new bits).after e before
      s.counter.IsExact (e s.looks) op) ∧
    ((new bits).after e ops).counter.value.val = top bits - (new bits).ran e 0 ops ∧
    (∀ before rest, ops = before ++ rest → .refill ∉ rest →
      ((new bits).after e before).counter.value.val = 0 →
      ((new bits).after e ops).counter.value.val = 0) ∧
    ∀ (c : ElapsedCounter bits) (op : CounterOp) (now : Nat), op.looks c.running = false →
      op.perform (c.seen now) = (op.perform c).seen now ∧
        (op.perform (c.seen now)).shown op = (op.perform c).shown op := by
  have hnew := isSound_new e bits
  refine ⟨⟨_, operations_paced _ ops, inStep_paced (new bits) ops⟩, ?_, ?_, ?_, ?_,
    fun c op now hlooks => ElapsedCounter.perform_seen hlooks now⟩
  · rintro script rfl hstep
    exact (hnew.shows_eq he hstep).symm
  · intro before op rest _
    have hsound := hnew.after he before
    exact hsound.counter.exact_of_le hsound.past op
  · exact hnew.left_after he rfl ops
  · rintro before rest rfl hrest hdown
    rw [after, List.foldl_append]
    exact (hnew.after he before).run_down he hdown hrest

/-- A counter that is started twice, stopped, started again and runs down. -/
def interlude : List Beat :=
  [.op (.setIrq true), .op .refill, .tick 2, .tick 3, .op .start, .tick 1, .op .start, .tick 4,
    .op .read, .tick 5, .op .stop, .tick 4, .op .read, .tick 1, .op .start, .tick 5, .op .read]

/-- Looks that find the time 5 later each. The counter of four bits shows 10, then 5 while it is
stopped, and at last 0. -/
theorem shows_in_step_interlude :
    Monotone (fun k => 5 * k + 3) ∧
    InStep (fun k => 5 * k + 3) (new 4) 0 interlude ∧
    (new 4).shows (fun k => 5 * k + 3) (operations interlude) =
      (TickedCounter.new 4).shows interlude ∧
    ((TickedCounter.new 4).shows interlude).filterMap (·.value) = [10, 5, 0] := by
  have he : Monotone (fun k => 5 * k + 3) := fun _ _ h => by
    dsimp only
    omega
  have hstep : InStep (fun k => 5 * k + 3) (new 4) 0 interlude := by decide
  exact ⟨he, hstep, (shows_in_step he 4 (operations interlude)).2.1 interlude rfl hstep, by decide⟩

end Looking

end TraceRing
