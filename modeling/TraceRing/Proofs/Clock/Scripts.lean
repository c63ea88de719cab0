import TraceRing.Clock.Bench
import TraceRing.Proofs.Clock.Preemption

/-!
# Readers on the bench

The timestamps of a bench are those of runs of preemptions (`Bench.now_eq_after`). A bench is read
with the underflows of its script, all of them between the reading of the counter and the second
load of the sequence word, and armed it has a reader in every call of their handlers.
-/

namespace TraceRing.Clock

theorem Action.effect_of_isCall {action : Action} {seq : UInt32} (h : action.isCall = true) :
    action.effect seq = seq := by
  cases action with
  | store new => cases h
  | _ => rfl

/-! ## Benches -/

namespace Bench

variable {bits : Nat}

/-- The timestamps taken inside calls, in order. -/
def timestamps (b : Bench bits) : List UInt64 :=
  b.calls.filterMap fun
    | .observed t => some t
    | _ => none

/-- How often the counter was read. -/
def readings (b : Bench bits) : Nat :=
  b.calls.count .read

/-- The number of underflows in a script. -/
def underflowsIn (script : List Reading) : Nat :=
  (script.map (·.underflows)).sum

@[simp] theorem timestamps_observed (b : Bench bits) (t : UInt64) :
    (b.note (.observed t)).timestamps = b.timestamps ++ [t] := by
  simp [timestamps]

@[simp] theorem readings_observed (b : Bench bits) (t : UInt64) :
    (b.note (.observed t)).readings = b.readings := by
  simp [readings]

@[simp] theorem timestamps_read (b : Bench bits) :
    (b.note .read).timestamps = b.timestamps := by
  simp [timestamps]

@[simp] theorem readings_read (b : Bench bits) :
    (b.note .read).readings = b.readings + 1 := by
  simp [readings]

@[simp] theorem timestamps_act (b : Bench bits) (action : Action) :
    (b.act action).timestamps = b.timestamps := by
  cases action <;> simp [act, timestamps, note, calls]

@[simp] theorem readings_act (b : Bench bits) (action : Action) :
    (b.act action).readings = b.readings := by
  cases action <;> simp [act, readings, note, calls]

theorem seq_act (b : Bench bits) (action : Action) :
    (b.act action).seq = action.effect b.seq := by
  cases action <;> rfl

theorem perform_of_isCall (b : Bench bits) {action : Action} (h : action.isCall = true) :
    b.perform action = (b.act action).observe := by
  cases action with
  | store seq => cases h
  | _ => rfl

theorem perform_of_not_isCall (b : Bench bits) {action : Action} (h : action.isCall = false) :
    b.perform action = (.ok (), b.act action) := by
  cases action with
  | store seq => rfl
  | _ => cases h

/-- Inside the handler a timestamp is there at once. -/
theorem observe_of_inHandler {b : Bench bits} {t : UInt64} (hodd : inHandler b.seq = true)
    (ht : stamp bits b.seq (top bits) = .ok t) :
    b.observe = (.ok (), if b.armed then b.note (.observed t) else b) := by
  have hlook : ({ b with armed := false } : Bench bits).look =
      (.ok t, { b with armed := false }) := by
    unfold look takeStamp
    split <;> simp [hodd, ht]
  unfold observe
  split
  · next harmed => simp [hlook, note, harmed]
  · rfl

/-- A reading outside the handler. -/
theorem takeStamp_cons {b b' : Bench bits} {reading : Reading} {rest : List Reading}
    (heven : inHandler b.seq = false)
    (hstrike : strike rollOver reading.underflows
      (({ b with script := rest } : Bench bits).note .read) = (.ok (), b')) :
    takeStamp rollOver (reading :: rest) b =
      if b.seq = b'.seq then
        (stamp bits b.seq (top bits - min reading.value.toNat (top bits)), b')
      else takeStamp rollOver rest b' := by
  simp [takeStamp, heven, hstrike, eq_comm]

end Bench

open Preemption

variable {bits W : Nat} {b b' : Bench bits} {s : Preemption bits}

/-- A bench and a preemption have come equally far, on a clock that counts at most `W` wraparounds
when the handler at work is through. -/
structure Mirrors (W : Nat) (b : Bench bits) (s : Preemption bits) : Prop where
  sound : ∃ w, s.Sound w ∧ w + s.atWork ≤ W
  seq : s.seq = b.seq
  readings : s.readings = b.readings
  observed : s.observed.map (·.2) = b.timestamps.map .ok
  nested : s.nested = none

namespace Mirrors

/-- The bound on the wraparounds through a choice. -/
theorem sound_step (h : Mirrors W b s) (c : Choice) :
    ∃ w, (s.step c).Sound w ∧ w + (s.step c).atWork ≤ W + strikes [c] := by
  obtain ⟨w, hsound, hcount⟩ := h.sound
  obtain ⟨w', hsound', hcount'⟩ := hsound.next c
  exact ⟨w', hsound', Nat.le_trans hcount' (Nat.add_le_add_right hcount _)⟩

/-- The handler goes on. -/
theorem stepHandler (h : Mirrors W b s) {action : Action} {rest : List Action}
    (hhandler : s.handler = action :: rest) (hseq : b'.seq = action.effect b.seq)
    (hreadings : b'.readings = b.readings) (htimestamps : b'.timestamps = b.timestamps) :
    Mirrors W b' (s.step .handler) := by
  have hstep : s.step .handler = { s with seq := action.effect s.seq, handler := rest } := by
    simp only [step, hhandler, h.nested]
  refine ⟨h.sound_step .handler, ?_, ?_, ?_, ?_⟩
  · rw [hstep, hseq, ← h.seq]
  · rw [hstep, hreadings, ← h.readings]
  · rw [hstep, htimestamps, ← h.observed]
  · rw [hstep, ← h.nested]

/-- Inside a call of the handler the timestamp is the last of the period. -/
theorem stamp_of_isCall (h : Mirrors W b s) (hbits : bits ≤ 64) (hfits : Fits bits W)
    {action : Action} {rest : List Action} (hhandler : s.handler = action :: rest)
    (hcall : action.isCall = true) :
    inHandler s.seq = true ∧ ∃ t, stamp bits s.seq (top bits) = .ok t := by
  obtain ⟨w, hsound, hcount⟩ := h.sound
  have hat := hsound.handler
  rw [hhandler] at hat
  have hfitsW : Fits bits w := hfits.mono (Nat.le_trans (Nat.le_add_right ..) hcount)
  rw [hat.seq_of_isCall hcall]
  obtain ⟨t, ht, -⟩ := stamp_of_fits hbits hfitsW (toNat_wrapsOf_odd hfitsW.count) (top_lt bits)
  exact ⟨inHandler_odd w, t, ht⟩

/-- A timestamp taken inside a call. -/
theorem ask (h : Mirrors W b s) {action : Action} {rest : List Action}
    (hhandler : s.handler = action :: rest) (hcall : action.isCall = true) {t : UInt64}
    (ht : stamp bits s.seq (top bits) = .ok t) :
    ∃ choices, strikes choices = 0 ∧ Mirrors W (b.note (.observed t)) (s.after choices) ∧
      (s.after choices).handler = s.handler ∧ (s.after choices).reader = s.reader := by
  obtain ⟨w, hsound, hcount⟩ := h.sound
  have hlength : (List.replicate patience (0 : UInt64)).length = patience :=
    List.length_replicate ..
  have hask := hsound.after_ask hhandler hcall h.nested hlength
  have hstrikes : strikes (.ask :: (List.replicate patience (0 : UInt64)).map .nested) = 0 := by
    simp [strikes]
  obtain ⟨w', hsound', hcount'⟩ := hsound.after
    (.ask :: (List.replicate patience (0 : UInt64)).map .nested)
  rw [hstrikes, Nat.add_zero] at hcount'
  refine ⟨_, hstrikes, ⟨⟨w', hsound', Nat.le_trans hcount' hcount⟩, ?_, ?_, ?_, ?_⟩, ?_, ?_⟩
  all_goals rw [hask]
  · exact h.seq
  · exact h.readings.trans (b.readings_observed t).symm
  · simp [h.observed, ht]
  · exact h.nested

/-- The handler does one action, with the timestamp taken in it. -/
theorem perform (h : Mirrors W b s) (hbits : bits ≤ 64) (hfits : Fits bits W) {action : Action}
    {rest : List Action} (hhandler : s.handler = action :: rest) :
    ∃ choices, strikes choices = 0 ∧ (b.perform action).1 = .ok () ∧
      Mirrors W (b.perform action).2 (s.after choices) ∧
      (s.after choices).handler = rest ∧ (s.after choices).reader = s.reader := by
  have hstep : ∀ s' : Preemption bits, s'.handler = action :: rest → s'.nested = none →
      (s'.step .handler).handler = rest ∧ (s'.step .handler).reader = s'.reader := by
    intro s' hhandler' hnested'
    simp [step, hhandler', hnested']
  cases hcall : action.isCall with
  | false =>
    rw [Bench.perform_of_not_isCall b hcall]
    refine ⟨[.handler], rfl, rfl, ?_, hstep s hhandler h.nested⟩
    exact h.stepHandler hhandler (b.seq_act action) (b.readings_act action)
      (b.timestamps_act action)
  | true =>
    obtain ⟨hodd, t, ht⟩ := h.stamp_of_isCall hbits hfits hhandler hcall
    have hseq : (b.act action).seq = b.seq :=
      (b.seq_act action).trans (Action.effect_of_isCall hcall)
    have hact : Mirrors W (b.act action) s :=
      ⟨h.sound, h.seq.trans hseq.symm, h.readings.trans (b.readings_act action).symm,
        by rw [h.observed, b.timestamps_act action], h.nested⟩
    rw [Bench.perform_of_isCall b hcall,
      Bench.observe_of_inHandler (t := t) (by rw [← hact.seq, hodd]) (by rw [← hact.seq, ht])]
    split
    · obtain ⟨choices, hnone, hask, hhandler', hreader⟩ := hact.ask hhandler hcall ht
      rw [hhandler] at hhandler'
      have hdone := hstep _ hhandler' hask.nested
      refine ⟨choices ++ [.handler], ?_, rfl, ?_, ?_⟩
      · rw [strikes_append, hnone]
        rfl
      · rw [after_append]
        exact hask.stepHandler hhandler' (Action.effect_of_isCall hcall).symm rfl rfl
      · rw [after_append, ← hreader]
        exact hdone
    · refine ⟨[.handler], rfl, rfl, ?_, hstep s hhandler h.nested⟩
      exact hact.stepHandler hhandler (Action.effect_of_isCall hcall).symm rfl rfl

/-- The handler runs to its end. -/
theorem performAll (h : Mirrors W b s) (hbits : bits ≤ 64) (hfits : Fits bits W)
    {actions : List Action} (hhandler : s.handler = actions) :
    ∃ choices, strikes choices = 0 ∧ (Bench.performAll actions b).1 = .ok () ∧
      Mirrors W (Bench.performAll actions b).2 (s.after choices) ∧
      (s.after choices).handler = [] ∧ (s.after choices).reader = s.reader := by
  induction actions generalizing b s with
  | nil => exact ⟨[], rfl, rfl, h, hhandler, rfl⟩
  | cons action rest ih =>
    obtain ⟨first, hfirst, hok, hnext, hrest, hreader⟩ := h.perform hbits hfits hhandler
    obtain ⟨later, hlater, hok', hend, hidle, hreader'⟩ := ih hnext hrest
    have hall : Bench.performAll (action :: rest) b =
        Bench.performAll rest (b.perform action).2 := by
      rw [Bench.performAll]
      generalize b.perform action = outcome at hok
      obtain ⟨answer, b'⟩ := outcome
      obtain rfl : answer = .ok () := hok
      rfl
    rw [hall]
    refine ⟨first ++ later, ?_, hok', ?_, ?_, ?_⟩
    · rw [strikes_append, hfirst, hlater]
    all_goals rw [after_append]
    · exact hend
    · exact hidle
    · exact hreader'.trans hreader

/-- An underflow strikes a reader that has no answer yet, and its handler runs. -/
theorem rollOver (h : Mirrors W b s) (hbits : bits ≤ 64) (hfits : Fits bits (W + 1))
    (hidle : s.handler = []) (hreader : s.reader.answer? = none) :
    ∃ choices, strikes choices = 1 ∧ b.rollOver.1 = .ok () ∧
      Mirrors (W + 1) b.rollOver.2 (s.after choices) ∧
      (s.after choices).handler = [] ∧ (s.after choices).reader = s.reader := by
  have hstruck : s.step .strike = { s with handler := rollOverActions s.seq } := by
    simp only [step, hidle, hreader]
  have hbegun : Mirrors (W + 1) b (s.step .strike) := by
    refine ⟨h.sound_step .strike, ?_, ?_, ?_, ?_⟩
    all_goals rw [hstruck]
    · exact h.seq
    · exact h.readings
    · exact h.observed
    · exact h.nested
  have hhandler : (s.step .strike).handler = rollOverActions b.seq := by
    rw [hstruck, h.seq]
  obtain ⟨choices, hnone, hok, hend, hidle', hreader'⟩ := hbegun.performAll hbits hfits hhandler
  refine ⟨.strike :: choices, ?_, hok, hend, hidle', ?_⟩
  · rw [← List.singleton_append, strikes_append, hnone]
    rfl
  · refine hreader'.trans ?_
    rw [hstruck]

/-- Underflows strike one after the other. -/
theorem strike (h : Mirrors W b s) (hbits : bits ≤ 64) (n : Nat) (hfits : Fits bits (W + n))
    (hidle : s.handler = []) (hreader : s.reader.answer? = none) :
    ∃ choices, strikes choices = n ∧ (Bench.strike Bench.rollOver n b).1 = .ok () ∧
      Mirrors (W + n) (Bench.strike Bench.rollOver n b).2 (s.after choices) ∧
      (s.after choices).handler = [] ∧ (s.after choices).reader = s.reader := by
  induction n generalizing W b s with
  | zero => exact ⟨[], rfl, rfl, h, hidle, rfl⟩
  | succ n ih =>
    rw [Nat.add_comm n 1, ← Nat.add_assoc] at hfits ⊢
    obtain ⟨first, hfirst, hok, hnext, hidle', hsame⟩ :=
      h.rollOver hbits (hfits.mono (Nat.le_add_right ..)) hidle hreader
    obtain ⟨later, hlater, hok', hend, hidle'', hsame'⟩ :=
      ih hnext hfits hidle' (by rw [hsame, hreader])
    have hall : Bench.strike Bench.rollOver (1 + n) b =
        Bench.strike Bench.rollOver n b.rollOver.2 := by
      rw [Nat.add_comm 1 n, Bench.strike]
      generalize b.rollOver = outcome at hok
      obtain ⟨answer, b'⟩ := outcome
      obtain rfl : answer = .ok () := hok
      rfl
    rw [hall]
    refine ⟨first ++ later, ?_, hok', ?_, ?_, ?_⟩
    · rw [strikes_append, hfirst, hlater]
    all_goals rw [after_append]
    · exact hend
    · exact hidle''
    · exact hsame'.trans hsame

theorem mono {W' : Nat} (h : Mirrors W b s) (hle : W ≤ W') : Mirrors W' b s := by
  obtain ⟨w, hsound, hcount⟩ := h.sound
  exact ⟨⟨w, hsound, Nat.le_trans hcount hle⟩, h.seq, h.readings, h.observed, h.nested⟩

theorem inHandler_of_idle (h : Mirrors W b s) (hidle : s.handler = []) :
    inHandler s.seq = false := by
  obtain ⟨w, hsound, -⟩ := h.sound
  rw [hsound.seq_of_nil hidle]
  exact inHandler_even w

/-- The reader starts over and reads the counter. -/
theorem load_read (h : Mirrors W b s) (hidle : s.handler = []) (hphase : s.reader.phase = .loading)
    (value : UInt64) (script : List Reading) :
    Mirrors W ({ b with script := script }.note .read)
      ((s.step (.reader value)).step (.reader value)) := by
  obtain ⟨w, hsound, hcount⟩ := h.sound
  have hstep := step_load_read hidle hphase (h.inHandler_of_idle hidle) value
  refine ⟨⟨w, (hsound.stepReader value).stepReader value, ?_⟩, ?_, ?_, ?_, ?_⟩
  all_goals rw [hstep]
  · exact hcount
  · exact h.seq
  · exact congrArg (· + 1) h.readings |>.trans (Bench.readings_read _).symm
  · exact h.observed.trans (congrArg _ (Bench.timestamps_read _).symm)
  · exact h.nested

/-- The reader looks whether a handler ran. -/
theorem compare (h : Mirrors W b s) (hidle : s.handler = []) {before : UInt32} {ticks : Nat}
    (hphase : s.reader.phase = .comparing before ticks) (value : UInt64) :
    Mirrors W b (s.step (.reader value)) := by
  obtain ⟨w, hsound, hcount⟩ := h.sound
  have hstep := step_compare hidle hphase value
  refine ⟨⟨w, hsound.stepReader value, ?_⟩, ?_, ?_, ?_, ?_⟩
  all_goals rw [hstep]
  · exact hcount
  · exact h.seq
  · exact h.readings
  · exact h.observed
  · exact h.nested

/-- One reading of the counter, with the underflows that strike during it: the reader has its
answer if there were none, and starts over otherwise. -/
theorem reading (h : Mirrors W b s) (hbits : bits ≤ 64) (hidle : s.handler = [])
    (hphase : s.reader.phase = .loading) (value : UInt64) (n : Nat) (hfits : Fits bits (W + n))
    (script : List Reading) {outcome : Except Fault Unit × Bench bits}
    (houtcome : Bench.strike Bench.rollOver n ({ b with script := script }.note .read) = outcome) :
    ∃ choices, strikes choices = n ∧ outcome.1 = .ok () ∧
      Mirrors (W + n) outcome.2 (s.after choices) ∧ (s.after choices).handler = [] ∧
      (s.after choices).reader.phase =
        if b.seq = outcome.2.seq then
          .done (stamp bits b.seq (top bits - min value.toNat (top bits)))
        else .loading := by
  have hstep := step_load_read hidle hphase (h.inHandler_of_idle hidle) value
  have hread := h.load_read hidle hphase value script
  obtain ⟨struck, hstruck, hok, hend, hidle', hreader⟩ :=
    hread.strike hbits n hfits (by rw [hstep, hidle]) (by rw [hstep]; rfl)
  rw [houtcome] at hok hend
  have hcomparing : (((s.step (.reader value)).step (.reader value)).after struck).reader.phase =
      .comparing s.seq (top bits - min value.toNat (top bits)) := by
    rw [hreader, hstep]
  have hafter : s.after ([.reader value, .reader value] ++ struck ++ [.reader value]) =
      (((s.step (.reader value)).step (.reader value)).after struck).step (.reader value) := by
    rw [after_append, after_append]
    rfl
  refine ⟨[.reader value, .reader value] ++ struck ++ [.reader value], ?_, hok, ?_, ?_, ?_⟩
  · rw [strikes_append, strikes_append, hstruck]
    exact Nat.zero_add n
  all_goals rw [hafter]
  · exact hend.compare hidle' hcomparing value
  · rw [step_compare hidle' hcomparing value]
    exact hidle'
  · rw [step_compare hidle' hcomparing value, ← hend.seq, ← h.seq]

/-- The reader answers what is answered on the bench. -/
theorem takeStamp (h : Mirrors W b s) (hbits : bits ≤ 64) {script : List Reading}
    (hfits : Fits bits (W + Bench.underflowsIn script)) (hidle : s.handler = [])
    (hphase : s.reader.phase = .loading) :
    ∃ choices, strikes choices ≤ Bench.underflowsIn script ∧
      (s.after choices).reader.answer? = some (Bench.takeStamp Bench.rollOver script b).1 ∧
      Mirrors (W + Bench.underflowsIn script) (Bench.takeStamp Bench.rollOver script b).2
        (s.after choices) := by
  induction script generalizing W b s with
  | nil =>
    have htake : Bench.takeStamp Bench.rollOver [] b =
        (stamp bits b.seq 0, { b with script := [] }.note .read) := by
      simp [Bench.takeStamp, ← h.seq, h.inHandler_of_idle hidle]
    -- after the script the counter is full
    have hfull : top bits - min (UInt64.ofNat (2 ^ 64 - 1)).toNat (top bits) = 0 := by
      have htop : top bits ≤ 2 ^ 64 - 1 :=
        Nat.sub_le_sub_right (Nat.pow_le_pow_right Nat.two_pos hbits) 1
      rw [UInt64.toNat_ofNat_of_lt' (by decide), Nat.min_eq_right htop, Nat.sub_self]
    have hnone : Bench.strike Bench.rollOver 0 (({ b with script := [] } : Bench bits).note .read) =
        (.ok (), ({ b with script := [] } : Bench bits).note .read) := rfl
    obtain ⟨choices, hcount, -, hend, -, hanswer⟩ :=
      h.reading hbits hidle hphase (UInt64.ofNat (2 ^ 64 - 1)) 0 hfits [] hnone
    have hsame : b.seq = (({ b with script := [] } : Bench bits).note .read).seq := rfl
    rw [if_pos hsame, hfull] at hanswer
    rw [htake]
    refine ⟨choices, Nat.le_of_eq hcount, ?_, hend⟩
    rw [Reader.answer?, hanswer]
  | cons reading rest ih =>
    have hsum : Bench.underflowsIn (reading :: rest) =
        reading.underflows + Bench.underflowsIn rest := by
      simp [Bench.underflowsIn]
    rw [hsum, ← Nat.add_assoc] at hfits ⊢
    cases houtcome : Bench.strike Bench.rollOver reading.underflows
      (({ b with script := rest } : Bench bits).note .read) with
    | mk answer b' =>
      obtain ⟨first, hfirst, hok, hend, hidle', hanswer⟩ :=
        h.reading hbits hidle hphase reading.value reading.underflows
          (hfits.mono (Nat.le_add_right ..)) rest houtcome
      obtain rfl : answer = .ok () := hok
      have heven : inHandler b.seq = false := by
        rw [← h.seq]
        exact h.inHandler_of_idle hidle
      rw [Bench.takeStamp_cons heven houtcome]
      by_cases hsame : b.seq = b'.seq
      · rw [if_pos hsame] at hanswer
        rw [if_pos hsame]
        refine ⟨first, ?_, ?_, hend.mono (Nat.le_add_right ..)⟩
        · exact Nat.le_trans (Nat.le_of_eq hfirst) (Nat.le_add_right ..)
        · rw [Reader.answer?, hanswer]
      · rw [if_neg hsame] at hanswer
        rw [if_neg hsame]
        obtain ⟨later, hlater, hanswer', hend'⟩ := ih hend hfits hidle' hanswer
        refine ⟨first ++ later, ?_, ?_, ?_⟩
        · rw [strikes_append, hfirst]
          exact Nat.add_le_add_left hlater _
        all_goals rw [after_append]
        · exact hanswer'
        · exact hend'

end Mirrors

/-- Every timestamp taken on a bench between two handler runs is that of a run of preemptions, with
the same underflows at most, the same readings of the counter and the same timestamps inside. -/
theorem Bench.now_eq_after {w : Nat} (hseq : b.seq = UInt32.ofNat (2 * w)) (hnotes : b.notes = [])
    (hbits : bits ≤ 64) (hfits : Fits bits (w + underflowsIn b.script)) :
    ∃ choices, strikes choices ≤ underflowsIn b.script ∧
      ((start bits w).after choices).reader.answer? = some b.now.1 ∧
      ((start bits w).after choices).seq = b.now.2.seq ∧
      ((start bits w).after choices).readings = b.now.2.readings ∧
      ((start bits w).after choices).observed.map (·.2) = b.now.2.timestamps.map .ok := by
  have hstart : Mirrors w b (start bits w) := by
    refine ⟨⟨w, sound_start bits w, Nat.le_refl w⟩, hseq.symm, ?_, ?_, rfl⟩
    · simp [start, readings, calls, hnotes]
    · simp [start, timestamps, calls, hnotes]
  obtain ⟨choices, hcount, hanswer, hend⟩ := hstart.takeStamp hbits hfits rfl rfl
  exact ⟨choices, hcount, hanswer, hend.seq, hend.readings, hend.observed⟩

end TraceRing.Clock
