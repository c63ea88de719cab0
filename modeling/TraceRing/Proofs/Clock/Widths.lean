import Mathlib.Logic.Function.Iterate
import TraceRing.Proofs.Clock.Preemption

/-!
# The width of timestamps

The high part of a timestamp is a product that has to fit 64 bits, and its factors are the count of
the sequence word and the period. So a timestamp overflows if and only if the wraparounds are too
many for the width of the counter, whoever takes it and whatever the handler does meanwhile; and if
it does not, the two parts of it share no bit (`IsStamp`).

The count has 31 bits. Up to a width of 33 bits it is always small enough. From 34 bits on a clock
that never overflowed is one that counted less than `2 ^ (64 - bits)` wraparounds: a `Scene` is a
clock with all who are at work on it, and in each of its runs the first state that overflows is
the one in which that many are counted (`Scene.now_at_every_width`).
-/

namespace TraceRing.Clock

/-! ## Both parts of a timestamp -/

/-- The answer of one who takes a timestamp of `w` wraparounds and `low` ticks. -/
structure IsStamp (bits w low : Nat) (answer : Except Fault UInt64) : Prop where
  /-- There is a timestamp if and only if the high part has 64 bits. -/
  completes_iff : (∃ t, answer = .ok t) ↔ w * 2 ^ bits ≤ 2 ^ 64 - 1
  overflows_iff : answer = .error .productOverflow ↔ 2 ^ 64 - 1 < w * 2 ^ bits
  /-- To set the bits of the low part is to add it. -/
  eq_or : ∀ t, answer = .ok t → t.toNat = w * period bits ||| low
  eq_add : ∀ t, answer = .ok t → t.toNat = w * period bits + low
  high : ∀ t, answer = .ok t → t.toNat / period bits = w
  low : ∀ t, answer = .ok t → t.toNat % period bits = low

theorem wrapsOf_lt (seq : UInt32) : (wrapsOf seq).toNat < 2 ^ 31 := by
  have hseq := seq.toNat_lt
  rw [toNat_wrapsOf]
  omega

theorem isStamp_stamp {bits low : Nat} (hbits : bits ≤ 63) (hlow : low < 2 ^ bits) (seq : UInt32) :
    IsStamp bits (wrapsOf seq).toNat low (stamp bits seq low) := by
  generalize hw : (wrapsOf seq).toNat = w
  have hcount : w < 2 ^ 31 := hw ▸ wrapsOf_lt seq
  have hor : w * period bits ||| low = w * period bits + low := high_or_ticks bits w hlow
  rcases Nat.lt_or_ge (w * 2 ^ bits) (2 ^ 64) with hproduct | hproduct
  · obtain ⟨t, hstamp, hvalue⟩ :=
      stamp_of_fits (Nat.le_trans hbits (by decide)) ⟨hcount, hproduct⟩ hw hlow
    rw [hstamp]
    have hperiod : low < period bits := hlow
    have hhigh : (w * period bits + low) / period bits = w := by
      rw [Nat.add_comm, Nat.add_mul_div_right _ _ (Nat.zero_lt_of_lt hperiod),
        Nat.div_eq_of_lt hperiod, Nat.zero_add]
    have hrest : (w * period bits + low) % period bits = low := by
      rw [Nat.add_comm, Nat.add_mul_mod_self_right, Nat.mod_eq_of_lt hperiod]
    refine ⟨iff_of_true ⟨t, rfl⟩ (Nat.le_sub_one_of_lt hproduct),
      iff_of_false (fun h => by cases h) (Nat.not_lt.mpr (Nat.le_sub_one_of_lt hproduct)),
      ?_, ?_, ?_, ?_⟩
    all_goals
      rintro _ ⟨⟩
      simp only [hvalue, hor, hhigh, hrest]
  · have hstamp : stamp bits seq low = .error .productOverflow := by
      rw [stamp, hw]
      exact if_pos hproduct
    rw [hstamp]
    have hover : 2 ^ 64 - 1 < w * 2 ^ bits := by omega
    have hnone : ∀ t : UInt64, (.error .productOverflow : Except Fault UInt64) ≠ .ok t := by simp
    refine ⟨iff_of_false (fun h => h.elim hnone) (Nat.not_le.mpr hover), iff_of_true rfl hover,
      ?_, ?_, ?_, ?_⟩
    all_goals exact fun t h => absurd h (hnone t)

/-- What a counter width leaves for the wraparounds. -/
theorem mul_period_le_iff {bits : Nat} (hbits : bits ≤ 64) (w : Nat) :
    w * 2 ^ bits ≤ 2 ^ 64 - 1 ↔ w < 2 ^ (64 - bits) := by
  have hsplit : 2 ^ 64 = 2 ^ (64 - bits) * 2 ^ bits := by
    rw [← Nat.pow_add, Nat.sub_add_cancel hbits]
  have hpos : 0 < 2 ^ bits := Nat.two_pow_pos bits
  rw [← Nat.mul_lt_mul_right hpos, ← hsplit]
  omega

theorem IsStamp.completes_iff_lt {bits w low : Nat} {answer : Except Fault UInt64}
    (h : IsStamp bits w low answer) (hbits : bits ≤ 63) :
    (∃ t, answer = .ok t) ↔ w < 2 ^ (64 - bits) :=
  h.completes_iff.trans (mul_period_le_iff (Nat.le_trans hbits (by decide)) w)

/-! ## Clocks that stand still -/

section

variable {C : Type} {bits : Nat} [Countdown C bits]

/-- The ticks a timestamp shows: all of the period, while the handler is at work. -/
def lowPart (k : Clock C) : Nat :=
  if inHandler k.seq then top bits else top bits - (Countdown.read k.counter).val

theorem lowPart_lt (k : Clock C) : k.lowPart < 2 ^ bits := by
  have htop := top_lt bits
  unfold lowPart
  split <;> omega

theorem now_eq_stamp (k : Clock C) : k.now = stamp bits k.seq k.lowPart := by
  unfold now lowPart
  split <;> rfl

theorem isStamp_now (hbits : bits ≤ 63) (k : Clock C) :
    IsStamp bits k.wraps.toNat k.lowPart k.now := by
  rw [now_eq_stamp]
  exact isStamp_stamp hbits k.lowPart_lt k.seq

end

namespace Reader

variable {bits : Nat} {r : Reader} {seq : UInt32} {value : UInt64}

/-- The ticks a reader shows if it answers now: those it read, or all of the period if it gives
up. -/
def low (bits : Nat) (r : Reader) : Nat :=
  match r.phase with
  | .comparing _ ticks => ticks
  | _ => top bits

theorem low_access_lt (h : r.low bits < 2 ^ bits) (seq : UInt32) (value : UInt64) :
    (r.access bits seq value).low bits < 2 ^ bits := by
  have htop := top_lt bits
  obtain ⟨phase, odd⟩ := r
  cases phase with
  | loading =>
    simp only [access]
    split
    · split <;> exact htop
    · exact htop
  | reading before => exact Nat.lt_of_le_of_lt (Nat.sub_le ..) htop
  | comparing before ticks =>
    simp only [access]
    split <;> exact htop
  | done answer => exact htop

/-- A reader answers with the sequence word of its last access, whether it found the word as it was
before or gives up. -/
theorem answer_access (hopen : r.answer? = none) {answer : Except Fault UInt64}
    (hanswer : (r.access bits seq value).answer? = some answer) :
    answer = stamp bits seq (r.low bits) := by
  obtain ⟨phase, odd⟩ := r
  cases phase with
  | loading =>
    simp only [access] at hanswer
    split at hanswer
    · split at hanswer
      · exact (Option.some.inj hanswer).symm
      · cases hanswer
    · cases hanswer
  | reading before => cases hanswer
  | comparing before ticks =>
    simp only [access] at hanswer
    split at hanswer
    · next hsame =>
      rw [← hsame]
      exact (Option.some.inj hanswer).symm
    · cases hanswer
  | done answer => cases hopen

/-! ### Readers that are left alone -/

theorem iterate_access_of_odd (hodd : inHandler seq = true) {odd n : Nat}
    (hlt : odd + n < patience) :
    (access bits · seq value)^[n] ⟨.loading, odd⟩ = ⟨.loading, odd + n⟩ := by
  induction n with
  | zero => rfl
  | succ n ih =>
    have hmore : ¬ patience ≤ odd + n + 1 := Nat.not_le.mpr hlt
    rw [Function.iterate_succ_apply', ih (Nat.lt_of_succ_lt hlt)]
    simp only [access, hodd, if_true]
    exact if_neg hmore

/-- A reader that nothing comes in between has its answer when its patience is over. -/
theorem answer_iterate_access (bits : Nat) (seq : UInt32) (value : UInt64) :
    ((access bits · seq value)^[patience] new).answer? =
      some (stamp bits seq
        (if inHandler seq then top bits else top bits - min value.toNat (top bits))) := by
  cases hodd : inHandler seq with
  | true =>
    -- all accesses but the last are spent waiting
    have hwait : (access bits · seq value)^[63] new = ⟨.loading, 63⟩ :=
      iterate_access_of_odd hodd (by decide)
    have hlast : access bits ⟨.loading, 63⟩ seq value =
        ⟨.done (stamp bits seq (top bits)), 64⟩ := by
      simp [access, hodd, patience]
    rw [patience, Function.iterate_succ_apply', hwait, hlast]
    rfl
  | false =>
    -- three accesses are enough, and then it is done
    have hthree : (access bits · seq value)^[3] new =
        ⟨.done (stamp bits seq (top bits - min value.toNat (top bits))), 0⟩ := by
      simp [access, new, hodd]
    have hrest : patience = 61 + 3 := rfl
    rw [hrest, Function.iterate_add_apply, hthree, Function.iterate_fixed rfl]
    rfl

end Reader

/-! ## Runs -/

/-- A clock and all who are at work on it. -/
structure Scene (C : Type) where
  clock : Clock C
  /-- What is left to be done of a reset or a stop; nothing if there is none. -/
  pending : List Action
  /-- What is left to be done by the handler at work; nothing if there is none. -/
  handler : List Action
  reader : Reader

/-- Who goes on. -/
inductive Event (C : Type) where
  /-- The hardware goes on: the counter is now this one. -/
  | count (counter : C)
  | reset
  | stop
  /-- The reset or the stop does its next action. -/
  | proceed
  /-- An underflow strikes. -/
  | strike
  /-- The handler does its next action. -/
  | serve
  /-- One starts to take a timestamp. -/
  | ask
  /-- The reader makes its next access. -/
  | access

namespace Scene

variable {C : Type} {bits : Nat} [Countdown C bits]

/-- A new clock. -/
def start (counter : C) : Scene C :=
  ⟨.new counter, [], [], .new⟩

/-- Lets one party go on, if it can. They do not wait for each other, but there is one handler, and
one reset or stop at a time. -/
def step (s : Scene C) : Event C → Scene C
  | .count counter => { s with clock := { s.clock with counter := counter } }
  | .reset => if s.pending.isEmpty then { s with pending := resetActions } else s
  | .stop => if s.pending.isEmpty then { s with pending := stopActions } else s
  | .proceed =>
    match s.pending with
    | [] => s
    | action :: rest => { s with clock := s.clock.perform action, pending := rest }
  | .strike =>
    if s.handler.isEmpty then { s with handler := rollOverActions s.clock.seq } else s
  | .serve =>
    match s.handler with
    | [] => s
    | action :: rest => { s with clock := s.clock.perform action, handler := rest }
  | .ask => { s with reader := .new }
  | .access =>
    { s with
      reader := s.reader.access bits s.clock.seq
        (UInt64.ofNat (Countdown.read s.clock.counter).val) }

def after (s : Scene C) (events : List (Event C)) : Scene C :=
  events.foldl step s

theorem after_cons (s : Scene C) (event : Event C) (rest : List (Event C)) :
    s.after (event :: rest) = (s.step event).after rest :=
  rfl

/-- A run of accesses with nothing in between. -/
theorem after_access (s : Scene C) (n : Nat) :
    s.after (List.replicate n .access) =
      { s with
        reader := (Reader.access bits · s.clock.seq
          (UInt64.ofNat (Countdown.read s.clock.counter).val))^[n] s.reader } := by
  induction n generalizing s with
  | zero => rfl
  | succ n ih =>
    rw [Function.iterate_succ_apply]
    exact ih (s.step .access)

/-- A reader takes a counter for what it shows. -/
theorem min_read (hbits : bits ≤ 63) (shown : Fin (2 ^ bits)) :
    min (UInt64.ofNat shown.val).toNat (top bits) = shown.val := by
  have hwide : 2 ^ bits < 2 ^ 64 := Nat.pow_lt_pow_right (by decide) (Nat.lt_succ_of_le hbits)
  have hvalue : (UInt64.ofNat shown.val).toNat = shown.val :=
    UInt64.toNat_ofNat_of_lt' (Nat.lt_trans shown.isLt hwide)
  rw [hvalue]
  exact Nat.min_eq_left (Nat.le_sub_one_of_lt shown.isLt)

/-- Whoever asks and is left alone gets what the clock shows. -/
theorem answer_after_ask (hbits : bits ≤ 63) (s : Scene C) :
    (s.after (.ask :: List.replicate patience .access)).reader.answer? = some s.clock.now := by
  rw [after_cons, after_access, now_eq_stamp, lowPart]
  simp only [step, Reader.answer_iterate_access, min_read hbits]

/-! ### The low part -/

/-- The low part of a timestamp is what the reader found when it read the counter. -/
theorem low_step_access (hbits : bits ≤ 63) {s : Scene C} {seq : UInt32}
    (hreading : s.reader.phase = .reading seq) :
    (s.step .access).reader.low bits = top bits - (Countdown.read s.clock.counter).val := by
  simp only [step, Reader.access, hreading, Reader.low, min_read hbits]

theorem low_after (s : Scene C) (h : s.reader.low bits < 2 ^ bits) (events : List (Event C)) :
    (s.after events).reader.low bits < 2 ^ bits := by
  induction events generalizing s with
  | nil => exact h
  | cons event rest ih =>
    refine ih (s.step event) ?_
    cases event with
    | ask => exact top_lt bits
    | access => exact s.reader.low_access_lt h _ _
    | count counter => exact h
    | _ =>
      simp only [step]
      split <;> exact h

/-! ### The high part -/

/-- No action stores a word of more than `limit` wraparounds. -/
def StoresWithin (limit : Nat) (actions : List Action) : Prop :=
  ∀ seq, .store seq ∈ actions → (wrapsOf seq).toNat ≤ limit

/-- The clock has counted at most `limit` wraparounds, and nobody is about to store more. -/
structure Within (limit : Nat) (s : Scene C) : Prop where
  count : s.clock.wraps.toNat ≤ limit
  pending : StoresWithin limit s.pending
  handler : StoresWithin limit s.handler

theorem StoresWithin.perform {k : Clock C} {action : Action} {rest : List Action} {limit : Nat}
    (h : StoresWithin limit (action :: rest)) (hk : k.wraps.toNat ≤ limit) :
    (k.perform action).wraps.toNat ≤ limit ∧ StoresWithin limit rest := by
  refine ⟨?_, fun seq hstore => h seq (List.mem_cons_of_mem action hstore)⟩
  cases action with
  | store seq => exact h seq List.mem_cons_self
  | _ => exact hk

/-- A handler stores one wraparound more. -/
theorem wraps_rollOverActions {old new : UInt32} (h : .store new ∈ rollOverActions old) :
    (wrapsOf new).toNat ≤ (wrapsOf old).toNat + 1 := by
  have hnew : new = old + 1 ∨ new = old + 2 := by simpa [rollOverActions] using h
  rw [toNat_wrapsOf, toNat_wrapsOf]
  rcases hnew with rfl | rfl
  · rw [UInt32.toNat_add, UInt32.toNat_one]
    omega
  · have htwo : (2 : UInt32).toNat = 2 := rfl
    rw [UInt32.toNat_add, htwo]
    omega

/-- As long as less is counted, what comes next is at most the limit. -/
theorem Within.step {limit : Nat} {s : Scene C} (h : s.Within limit)
    (hless : s.clock.wraps.toNat < limit) (event : Event C) : (s.step event).Within limit := by
  cases event with
  | count counter => exact ⟨h.count, h.pending, h.handler⟩
  | ask => exact ⟨h.count, h.pending, h.handler⟩
  | access => exact ⟨h.count, h.pending, h.handler⟩
  | reset =>
    simp only [Scene.step]
    split
    · refine ⟨h.count, fun seq hstore => ?_, h.handler⟩
      obtain rfl : seq = 0 := by simpa [resetActions] using hstore
      exact Nat.zero_le limit
    · exact h
  | stop =>
    simp only [Scene.step]
    split
    · exact ⟨h.count, fun seq hstore => by simp [stopActions] at hstore, h.handler⟩
    · exact h
  | strike =>
    simp only [Scene.step]
    split
    · exact ⟨h.count, h.pending, fun seq hstore =>
        Nat.le_trans (wraps_rollOverActions hstore) hless⟩
    · exact h
  | proceed =>
    simp only [Scene.step]
    split
    · exact h
    · next action rest hpending =>
      obtain ⟨hcount, hrest⟩ := (hpending ▸ h.pending).perform h.count
      exact ⟨hcount, hrest, h.handler⟩
  | serve =>
    simp only [Scene.step]
    split
    · exact h
    · next action rest hhandler =>
      obtain ⟨hcount, hrest⟩ := (hhandler ▸ h.handler).perform h.count
      exact ⟨hcount, h.pending, hrest⟩

theorem within_start (limit : Nat) (counter : C) : (start counter).Within limit := by
  have hcount : (start counter).clock.wraps.toNat = 0 := toNat_wrapsOf 0
  exact ⟨hcount ▸ Nat.zero_le limit, nofun, nofun⟩

/-- A run passes no count without having it: before it comes to more it comes to the limit. -/
theorem Within.after {limit : Nat} {s : Scene C} (h : s.Within limit) {events : List (Event C)}
    (hless : ∀ earlier, earlier <+: events → earlier ≠ events →
      (s.after earlier).clock.wraps.toNat < limit) :
    (s.after events).Within limit := by
  induction events generalizing s with
  | nil => exact h
  | cons event rest ih =>
    refine ih (h.step (hless [] List.nil_prefix nofun) event) ?_
    intro earlier hprefix hne
    exact hless (event :: earlier) ((List.prefix_cons_inj event).mpr hprefix)
      fun heq => hne (List.cons.inj heq).2

/-! ## Every width -/

/-- A clock that is ticked by hand counts the periods it goes through. -/
theorem wraps_periods {n : Nat} (hn : n < 2 ^ 31) :
    (TickedClock.after (TickedClock.new bits).reset (TickedClock.periods bits n)).wraps.toNat =
      n := by
  have hreset : (TickedClock.new bits).reset = TickedClock.afresh bits 0 := rfl
  rw [hreset, TickedClock.after_periods, UInt32.zero_add]
  exact toNat_wrapsOf_even hn

/-- The law of widths. Whatever was done to a clock and however far all who are at work on it have
come: a timestamp taken without interruption is what the clock shows and is there after `patience`
accesses, and one that is interrupted is made of the wraparounds counted when it is there and of the
ticks that were read. It overflows if and only if that many periods are no number of 64 bits, so up
to 33 bits never. From 34 bits on the first state of a run that overflows is the one with
`2 ^ (64 - bits)` wraparounds, and a clock that is ticked by hand comes there in as many periods. -/
theorem now_at_every_width (hbits : bits ≤ 63) (counter : C) (events : List (Event C)) :
    let s := (start counter).after events
    let k := fun n => TickedClock.after (TickedClock.new bits).reset (TickedClock.periods bits n)
    IsStamp bits s.clock.wraps.toNat s.clock.lowPart s.clock.now ∧
    (s.after (.ask :: List.replicate patience .access)).reader.answer? = some s.clock.now ∧
    (∀ answer, s.reader.answer? = none → (s.step .access).reader.answer? = some answer →
      IsStamp bits s.clock.wraps.toNat (s.reader.low bits) answer) ∧
    (∀ seq, s.reader.phase = .reading seq →
      (s.step .access).reader.low bits = top bits - (Countdown.read s.clock.counter).val) ∧
    (bits ≤ 33 → ∃ t, s.clock.now = .ok t) ∧
    (34 ≤ bits →
      ((∀ earlier, earlier <+: events → earlier ≠ events →
          ∃ t, ((start counter).after earlier).clock.now = .ok t) →
        ((∃ t, s.clock.now = .ok t) ↔ s.clock.wraps.toNat ≠ 2 ^ (64 - bits))) ∧
      ∀ n ≤ 2 ^ (64 - bits),
        TickedClock.isDutiful false (TickedClock.new bits).reset (TickedClock.periods bits n) =
          true ∧
        (k n).wraps.toNat = n ∧ ((∃ t, (k n).now = .ok t) ↔ n ≠ 2 ^ (64 - bits))) := by
  intro s k
  refine ⟨isStamp_now hbits s.clock, answer_after_ask hbits s, ?_,
    fun _ => low_step_access hbits, ?_, fun hwide => ⟨?_, ?_⟩⟩
  · intro answer hopen hanswer
    rw [Reader.answer_access hopen hanswer]
    exact isStamp_stamp hbits (low_after _ (top_lt bits) events) s.clock.seq
  · intro hnarrow
    exact (isStamp_now hbits s.clock).completes_iff.mpr
      (Nat.le_sub_one_of_lt (fits_of_count hnarrow (wrapsOf_lt s.clock.seq)).product)
  · intro hfine
    -- no earlier state overflowed, so all of them counted less than the limit
    have hwithin : s.Within (2 ^ (64 - bits)) :=
      (within_start _ counter).after fun earlier hprefix hne =>
        ((isStamp_now hbits _).completes_iff_lt hbits).mp (hfine earlier hprefix hne)
    rw [(isStamp_now hbits s.clock).completes_iff_lt hbits]
    exact Nat.lt_iff_le_and_ne.trans ⟨And.right, fun hne => ⟨hwithin.count, hne⟩⟩
  · intro n hn
    have hcount : n < 2 ^ 31 :=
      Nat.lt_of_le_of_lt hn (Nat.pow_lt_pow_right (by decide) (by omega))
    have hwraps : (k n).wraps.toNat = n := wraps_periods hcount
    refine ⟨TickedClock.isDutiful_periods (Nat.zero_lt_of_lt hwide) 0 n, hwraps, ?_⟩
    rw [(isStamp_now hbits (k n)).completes_iff_lt hbits, hwraps]
    exact Nat.lt_iff_le_and_ne.trans ⟨And.right, fun hne => ⟨hn, hne⟩⟩

/-- A clock whose handler was at work once and is again, with a reader that gives up. -/
def struckAgain : List (Event (TickedCounter 4)) :=
  [.reset, .proceed, .proceed, .proceed, .proceed, .proceed, .strike, .serve, .serve, .serve,
    .serve, .strike, .serve, .ask] ++ List.replicate 63 .access

/-- It shows the last timestamp of its period, and the last access of the reader brings the same.
With a counter of 34 bits the period number `2 ^ 30` has no timestamp. -/
theorem now_at_every_width_of_struckAgain :
    ((4 : Nat) ≤ 63 ∧
      let s := (start (TickedCounter.new 4)).after struckAgain
      s.clock.now = .ok 31 ∧ IsStamp 4 1 15 s.clock.now ∧
      (s.step .access).reader.answer? = some (.ok 31) ∧ IsStamp 4 1 15 (.ok 31)) ∧
    ((34 : Nat) ≤ 63 ∧ ∃ k : TickedClock 34, k.wraps.toNat = 2 ^ 30 ∧ ¬ ∃ t, k.now = .ok t) := by
  refine ⟨⟨by decide, ?_⟩, by decide, ?_⟩
  · obtain ⟨hnow, -, hreader, -⟩ := now_at_every_width (by decide) (TickedCounter.new 4) struckAgain
    exact ⟨rfl, hnow, rfl, hreader (.ok 31) rfl rfl⟩
  · obtain ⟨-, -, -, -, -, hwide⟩ := now_at_every_width (by decide) (TickedCounter.new 34) []
    obtain ⟨-, hwraps, hcompletes⟩ := (hwide (by decide)).2 (2 ^ 30) (by decide)
    exact ⟨_, hwraps, fun hok => hcompletes.mp hok rfl⟩

end Scene

end TraceRing.Clock
