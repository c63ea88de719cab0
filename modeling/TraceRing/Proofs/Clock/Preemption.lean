import TraceRing.Proofs.Clock.Monotone

/-!
# Timestamps inside the handler

A reader takes a timestamp in single accesses: it loads the sequence word, reads the counter, and
loads the word again. Between any two of them an underflow may strike, and its handler then runs
to its end. Inside the calls that the handler makes to the hardware, tracing code may take
timestamps of its own. It cannot wait for the handler it interrupts, so a reader that found the
word odd `patience` times gives up and answers the last timestamp of the period.

A `Preemption` is such a reader with all that goes on inside it; if nothing goes on, it answers
what the clock answers (`Preemption.Sound.answer_alone`). What the hardware does, the values
it shows, the underflows and the timestamps asked for, is a list of choices, and the laws hold of
all of them (`Preemption.bracketed`).
-/

namespace TraceRing.Clock

/-! ## Readers -/

/-- The number of times a reader finds the handler at work before it gives up. -/
def patience : Nat := 64

/-- What the next access of a reader is. -/
inductive ReaderPhase where
  /-- It loads the sequence word. -/
  | loading
  /-- It found no handler at work and reads the counter. -/
  | reading (seq : UInt32)
  /-- It loads the sequence word again, to see whether a handler was at work meanwhile. -/
  | comparing (seq : UInt32) (ticks : Nat)
  | done (answer : Except Fault UInt64)

/-- One who takes a timestamp. -/
structure Reader where
  phase : ReaderPhase
  /-- How often the handler was found at work. -/
  odd : Nat

namespace Reader

def new : Reader :=
  ⟨.loading, 0⟩

/-- Makes the next access; `value` is what the counter shows if it is read. -/
def access (bits : Nat) (r : Reader) (seq : UInt32) (value : UInt64) : Reader :=
  match r.phase with
  | .loading =>
    if inHandler seq then
      if patience ≤ r.odd + 1 then ⟨.done (stamp bits seq (top bits)), r.odd + 1⟩
      else ⟨.loading, r.odd + 1⟩
    else { r with phase := .reading seq }
  | .reading before =>
    { r with phase := .comparing before (top bits - min value.toNat (top bits)) }
  | .comparing before ticks =>
    { r with phase := if before = seq then .done (stamp bits before ticks) else .loading }
  | .done _ => r

/-- The number of counter readings in the next access. -/
def readings (r : Reader) : Nat :=
  match r.phase with
  | .reading _ => 1
  | _ => 0

/-- The answer, if the reader has one. -/
def answer? (r : Reader) : Option (Except Fault UInt64) :=
  match r.phase with
  | .done answer => some answer
  | _ => none

end Reader

/-- Whether an action is a call to the hardware. -/
def Action.isCall : Action → Bool
  | .store _ => false
  | _ => true

/-- The sequence word after an action. -/
def Action.effect (seq : UInt32) : Action → UInt32
  | .store new => new
  | _ => seq

/-! ## Preemptions -/

/-- A reader with the handlers that strike and the readers inside them. -/
structure Preemption (bits : Nat) where
  seq : UInt32
  /-- How often the counter was read. -/
  readings : Nat
  reader : Reader
  /-- What is left to be done by the handler at work; nothing if there is none. -/
  handler : List Action
  /-- The reader inside the call that the handler is making. -/
  nested : Option Reader
  /-- The timestamps taken inside handlers, each with the wraparounds counted then. -/
  observed : List (UInt32 × Except Fault UInt64)

/-- Who goes on, and with what. -/
inductive Choice where
  /-- The reader makes its next access; the counter shows `value`. -/
  | reader (value : UInt64)
  /-- An underflow strikes. -/
  | strike
  /-- The handler does its next action. -/
  | handler
  /-- Tracing code inside a call of the handler starts to take a timestamp. -/
  | ask
  /-- The reader inside the call makes its next access; the counter would show `value`. -/
  | nested (value : UInt64)

namespace Preemption

variable {bits : Nat}

/-- A reader about to start, on a clock that counted `w` wraparounds. -/
def start (bits w : Nat) : Preemption bits where
  seq := UInt32.ofNat (2 * w)
  readings := 0
  reader := .new
  handler := []
  nested := none
  observed := []

def wraps (s : Preemption bits) : UInt32 :=
  wrapsOf s.seq

/-- The reader inside the call after its next access; with its answer it is gone. -/
def stepNested (s : Preemption bits) (r : Reader) (value : UInt64) : Preemption bits :=
  let r' := r.access bits s.seq value
  let readings := s.readings + r.readings
  match r'.answer? with
  | none => { s with nested := some r', readings := readings }
  | some answer =>
    { s with
      nested := none
      readings := readings
      observed := s.observed ++ [(s.wraps, answer)] }

/-- Lets one party go on, if it can: a handler is not interrupted by underflows, what it interrupts
waits for its end, and the handler waits for the readers inside its calls. -/
def step (s : Preemption bits) : Choice → Preemption bits
  | .reader value =>
    match s.handler with
    | [] =>
      { s with
        reader := s.reader.access bits s.seq value
        readings := s.readings + s.reader.readings }
    | _ :: _ => s
  | .strike =>
    match s.handler, s.reader.answer? with
    | [], none => { s with handler := rollOverActions s.seq }
    | _, _ => s
  | .handler =>
    match s.handler, s.nested with
    | action :: rest, none => { s with seq := action.effect s.seq, handler := rest }
    | _, _ => s
  | .ask =>
    match s.handler, s.nested with
    | action :: _, none => if action.isCall then { s with nested := some .new } else s
    | _, _ => s
  | .nested value =>
    match s.nested with
    | none => s
    | some r => s.stepNested r value

/-- The parties after some choices. -/
def after (s : Preemption bits) (choices : List Choice) : Preemption bits :=
  choices.foldl step s

/-- The number of underflows among some choices. -/
def strikes (choices : List Choice) : Nat :=
  choices.countP fun
    | .strike => true
    | _ => false

theorem after_append (s : Preemption bits) (choices later : List Choice) :
    s.after (choices ++ later) = (s.after choices).after later :=
  List.foldl_append

theorem strikes_append (choices later : List Choice) :
    strikes (choices ++ later) = strikes choices + strikes later :=
  List.countP_append

/-- The number of handlers at work. -/
def atWork (s : Preemption bits) : Nat :=
  match s.handler with
  | [] => 0
  | _ :: _ => 1

/-! ## What holds in between -/

/-- Where a handler is that runs on a clock with `w` wraparounds. -/
inductive HandlerAt (w : Nat) : UInt32 → List Action → Prop where
  | idle : HandlerAt w (UInt32.ofNat (2 * w)) []
  | raising : HandlerAt w (UInt32.ofNat (2 * w)) (rollOverActions (UInt32.ofNat (2 * w)))
  | refilling :
    HandlerAt w (UInt32.ofNat (2 * w) + 1) [.refill, .start, .store (UInt32.ofNat (2 * w) + 2)]
  | starting : HandlerAt w (UInt32.ofNat (2 * w) + 1) [.start, .store (UInt32.ofNat (2 * w) + 2)]
  | settling : HandlerAt w (UInt32.ofNat (2 * w) + 1) [.store (UInt32.ofNat (2 * w) + 2)]

/-- The word is even as long as no handler is at work. -/
theorem HandlerAt.seq_of_nil {w : Nat} {seq : UInt32} (h : HandlerAt w seq []) :
    seq = UInt32.ofNat (2 * w) := by
  cases h
  rfl

/-- It is odd inside the calls of the handler. -/
theorem HandlerAt.seq_of_isCall {w : Nat} {seq : UInt32} {action : Action} {rest : List Action}
    (h : HandlerAt w seq (action :: rest)) (hcall : action.isCall = true) :
    seq = UInt32.ofNat (2 * w) + 1 := by
  cases h with
  | raising => cases hcall
  | settling => cases hcall
  | refilling => rfl
  | starting => rfl

/-- Conversely, an odd word is that of a handler at work. -/
theorem HandlerAt.of_inHandler {w : Nat} {seq : UInt32} {handler : List Action}
    (h : HandlerAt w seq handler) (hodd : inHandler seq = true) :
    seq = UInt32.ofNat (2 * w) + 1 ∧ handler ≠ [] := by
  cases h with
  | idle =>
    rw [inHandler_even] at hodd
    cases hodd
  | raising =>
    rw [inHandler_even] at hodd
    cases hodd
  | refilling => exact ⟨rfl, nofun⟩
  | starting => exact ⟨rfl, nofun⟩
  | settling => exact ⟨rfl, nofun⟩

/-- The handler goes on, and its last action counts the wraparound. -/
theorem HandlerAt.tail {w : Nat} {seq : UInt32} {action : Action} {rest : List Action}
    (h : HandlerAt w seq (action :: rest)) :
    (rest ≠ [] ∧ HandlerAt w (action.effect seq) rest) ∨
      (rest = [] ∧ HandlerAt (w + 1) (action.effect seq) rest) := by
  cases h with
  | raising => exact .inl ⟨nofun, .refilling⟩
  | refilling => exact .inl ⟨nofun, .starting⟩
  | starting => exact .inl ⟨nofun, .settling⟩
  | settling =>
    refine .inr ⟨rfl, ?_⟩
    have hseq : UInt32.ofNat (2 * w) + 2 = UInt32.ofNat (2 * (w + 1)) := (ofNat_two_mul_succ w).symm
    simp only [Action.effect, hseq]
    exact .idle

/-- What the reader knows in its phase. -/
def ReaderKnows (s : Preemption bits) : Prop :=
  match s.reader.phase with
  | .loading | .reading _ => True
  | .comparing _ ticks => ticks < 2 ^ bits
  | .done answer => s.handler = [] ∧ ∃ ticks < 2 ^ bits, answer = stamp bits s.seq ticks

/-- Between the steps of all parties, on a clock with `w` wraparounds. -/
structure Sound (s : Preemption bits) (w : Nat) : Prop where
  handler : HandlerAt w s.seq s.handler
  reader : s.ReaderKnows
  /-- A reader inside a call waits for the handler in vain. -/
  nested : ∀ r, s.nested = some r → r.phase = .loading ∧ inHandler s.seq = true
  /-- A timestamp was taken inside the handler that ended a period. -/
  observed : ∀ x answer, (x, answer) ∈ s.observed → ∃ v, v < w + s.atWork ∧
    x = wrapsOf (UInt32.ofNat (2 * v) + 1) ∧
    answer = stamp bits (UInt32.ofNat (2 * v) + 1) (top bits)

theorem sound_start (bits w : Nat) : (start bits w).Sound w where
  handler := .idle
  reader := trivial
  nested r hr := by cases hr
  observed x answer h := by cases h

namespace Sound

variable {s : Preemption bits} {w : Nat}

theorem seq_of_nil (h : s.Sound w) (hidle : s.handler = []) : s.seq = UInt32.ofNat (2 * w) := by
  have hhandler := h.handler
  rw [hidle] at hhandler
  exact hhandler.seq_of_nil

theorem stepReader (h : s.Sound w) (value : UInt64) : (s.step (.reader value)).Sound w := by
  simp only [Preemption.step]
  split
  · next hidle =>
    have heven : inHandler s.seq = false := by
      rw [h.seq_of_nil hidle]
      exact inHandler_even w
    refine ⟨h.handler, ?_, h.nested, h.observed⟩
    have hknows := h.reader
    -- the word the reader compares with is the one the answer is made of
    simp only [ReaderKnows, Reader.access] at hknows ⊢
    cases hphase : s.reader.phase with
    | loading => simp [heven]
    | reading before => exact Nat.lt_of_le_of_lt (Nat.sub_le ..) (top_lt bits)
    | comparing before ticks =>
      rw [hphase] at hknows
      by_cases hsame : before = s.seq
      · simpa [hsame, hidle] using ⟨ticks, hknows, rfl⟩
      · simp [hsame]
    | done answer =>
      rw [hphase] at hknows
      simpa [hphase] using hknows
  · exact h

theorem stepStrike (h : s.Sound w) : (s.step .strike).Sound w := by
  simp only [Preemption.step]
  split
  · next hidle hnone =>
    have hseq := h.seq_of_nil hidle
    refine ⟨?_, ?_, h.nested, ?_⟩
    · simp only [hseq]
      exact .raising
    · -- a reader that has its answer is not struck
      have hknows := h.reader
      simp only [ReaderKnows, Reader.answer?] at hknows hnone ⊢
      cases hphase : s.reader.phase with
      | done answer =>
        rw [hphase] at hnone
        cases hnone
      | comparing before ticks =>
        rw [hphase] at hknows
        exact hknows
      | loading => trivial
      | reading before => trivial
    · intro x answer hmem
      obtain ⟨v, hv, hx⟩ := h.observed x answer hmem
      simp only [atWork, hidle] at hv
      exact ⟨v, Nat.lt_succ_of_lt hv, hx⟩
  · exact h

theorem stepHandler (h : s.Sound w) :
    ∃ w', (s.step .handler).Sound w' ∧ w' + (s.step .handler).atWork = w + s.atWork := by
  simp only [Preemption.step]
  split
  · next action rest hhandler hnested =>
    have htail := h.handler
    rw [hhandler] at htail
    have hreader : ∀ seq,
        ({ s with seq := seq, handler := rest } : Preemption bits).ReaderKnows := by
      intro seq
      have hknows := h.reader
      simp only [ReaderKnows] at hknows ⊢
      cases hphase : s.reader.phase with
      | done answer =>
        -- no handler is at work once the reader has its answer
        rw [hphase] at hknows
        exact absurd (hhandler.symm.trans hknows.1) (List.cons_ne_nil _ _)
      | comparing before ticks =>
        rw [hphase] at hknows
        exact hknows
      | loading => trivial
      | reading before => trivial
    have hnone : ∀ r, s.nested = some r →
        r.phase = .loading ∧ inHandler (action.effect s.seq) = true := by
      intro r hr
      rw [hnested] at hr
      cases hr
    have hobserved := h.observed
    simp only [atWork, hhandler] at hobserved ⊢
    rcases htail.tail with ⟨hmore, hnext⟩ | ⟨rfl, hnext⟩
    · obtain ⟨action', rest', rfl⟩ := List.exists_cons_of_ne_nil hmore
      exact ⟨w, ⟨hnext, hreader _, hnone, hobserved⟩, rfl⟩
    · exact ⟨w + 1, ⟨hnext, hreader _, hnone, hobserved⟩, rfl⟩
  · exact ⟨w, h, rfl⟩

theorem stepAsk (h : s.Sound w) : (s.step .ask).Sound w := by
  simp only [Preemption.step]
  split
  · next action rest hhandler hnested =>
    split
    · next hcall =>
      have hodd := h.handler
      rw [hhandler] at hodd
      refine ⟨h.handler, h.reader, ?_, h.observed⟩
      intro r hr
      cases hr
      refine ⟨rfl, ?_⟩
      rw [hodd.seq_of_isCall hcall]
      exact inHandler_odd w
    · exact h
  · exact h

end Sound

/-! ## Readers inside the handler -/

/-- The parties while a reader is inside a call of the handler. -/
def within (s : Preemption bits) (r : Reader) : Preemption bits :=
  { s with nested := some r }

theorem within_of_nested {s : Preemption bits} {r : Reader} (h : s.nested = some r) :
    s.within r = s := by
  simp only [within, ← h]

/-- A reader inside a call that is not at the end of its patience goes on waiting. -/
theorem stepNested_of_lt {s : Preemption bits} {odd : Nat} (hodd : inHandler s.seq = true)
    (hlt : odd + 1 < patience) (value : UInt64) :
    (s.within ⟨.loading, odd⟩).step (.nested value) = s.within ⟨.loading, odd + 1⟩ := by
  have hmore : ¬ patience ≤ odd + 1 := Nat.not_le.mpr hlt
  simp [step, stepNested, within, Reader.access, Reader.readings, Reader.answer?, hodd, hmore]

/-- At the end of its patience it answers the last timestamp of the period. -/
theorem stepNested_of_le {s : Preemption bits} {odd : Nat} (hodd : inHandler s.seq = true)
    (hle : patience ≤ odd + 1) (value : UInt64) :
    (s.within ⟨.loading, odd⟩).step (.nested value) =
      { s with
        nested := none
        observed := s.observed ++ [(s.wraps, stamp bits s.seq (top bits))] } := by
  simp [step, stepNested, within, wraps, Reader.access, Reader.readings, Reader.answer?, hodd, hle]

theorem Sound.stepNested {s : Preemption bits} {w : Nat} (h : s.Sound w) (value : UInt64) :
    (s.step (.nested value)).Sound w := by
  cases hnested : s.nested with
  | none => simpa only [Preemption.step, hnested] using h
  | some r =>
    obtain ⟨hphase, hodd⟩ := h.nested r hnested
    obtain ⟨phase, odd⟩ := r
    obtain rfl : phase = .loading := hphase
    rw [← within_of_nested hnested]
    rcases Nat.lt_or_ge (odd + 1) patience with hlt | hle
    · rw [stepNested_of_lt hodd hlt]
      refine ⟨h.handler, h.reader, ?_, h.observed⟩
      intro r' hr'
      cases hr'
      exact ⟨rfl, hodd⟩
    · rw [stepNested_of_le hodd hle]
      refine ⟨h.handler, h.reader, nofun, ?_⟩
      intro x answer hmem
      rcases List.mem_append.mp hmem with hold | hnew
      · exact h.observed x answer hold
      · -- the new timestamp is that of the handler at work
        obtain ⟨hseq, hwork⟩ := h.handler.of_inHandler hodd
        obtain ⟨action, rest, hhandler⟩ := List.exists_cons_of_ne_nil hwork
        obtain ⟨rfl, rfl⟩ := Prod.mk.inj (List.mem_singleton.mp hnew)
        refine ⟨w, ?_, by rw [wraps, hseq], by rw [hseq]⟩
        simp [atWork, hhandler]

theorem after_nested_of_lt {s : Preemption bits} {odd : Nat} (hodd : inHandler s.seq = true)
    {values : List UInt64} (hlt : odd + values.length < patience) :
    (s.within ⟨.loading, odd⟩).after (values.map .nested) =
      s.within ⟨.loading, odd + values.length⟩ := by
  induction values generalizing odd with
  | nil => rfl
  | cons value rest ih =>
    rw [List.length_cons, Nat.add_comm rest.length, ← Nat.add_assoc] at hlt ⊢
    change ((s.within ⟨.loading, odd⟩).step (.nested value)).after (rest.map .nested) = _
    rw [stepNested_of_lt hodd (by omega), ih hlt]

/-- A timestamp asked for inside a call of the handler is there after `patience` loads of the
sequence word. The counter is not read for it, and nothing else has changed. -/
theorem Sound.after_ask {s : Preemption bits} {w : Nat} (h : s.Sound w) {action : Action}
    {rest : List Action} (hhandler : s.handler = action :: rest) (hcall : action.isCall = true)
    (hnested : s.nested = none) {values : List UInt64} (hvalues : values.length = patience) :
    s.after (.ask :: values.map .nested) =
      { s with observed := s.observed ++ [(s.wraps, stamp bits s.seq (top bits))] } := by
  have hodd : inHandler s.seq = true := by
    have hat := h.handler
    rw [hhandler] at hat
    rw [hat.seq_of_isCall hcall]
    exact inHandler_odd w
  have hask : s.step .ask = s.within ⟨.loading, 0⟩ := by
    simp only [step, hhandler, hnested, hcall, if_true, within]
    rfl
  -- all accesses but the last are spent waiting
  have hne : values ≠ [] := by
    rintro rfl
    cases hvalues
  obtain ⟨waits, last, rfl⟩ : ∃ waits last, values = waits ++ [last] :=
    ⟨values.dropLast, values.getLast hne, (List.dropLast_concat_getLast hne).symm⟩
  rw [List.length_append, List.length_singleton] at hvalues
  have hsplit : s.after (.ask :: (waits ++ [last]).map .nested) =
      ((s.step .ask).after (waits.map .nested)).step (.nested last) := by
    simp only [after, List.map_append, List.map_cons, List.map_nil, List.foldl_cons,
      List.foldl_append, List.foldl_nil]
  rw [hsplit, hask, after_nested_of_lt hodd (by omega), stepNested_of_le hodd (by omega),
    ← hnested]

/-! ## Readers that are left alone -/

/-- A reader that starts over finds no handler at work and reads the counter. -/
theorem step_load_read {s : Preemption bits} (hidle : s.handler = [])
    (hphase : s.reader.phase = .loading) (heven : inHandler s.seq = false) (value : UInt64) :
    (s.step (.reader value)).step (.reader value) =
      { s with
        reader :=
          { s.reader with phase := .comparing s.seq (top bits - min value.toNat (top bits)) }
        readings := s.readings + 1 } := by
  simp [step, hidle, Reader.access, Reader.readings, hphase, heven]

/-- It has its answer unless a handler ran since. -/
theorem step_compare {s : Preemption bits} (hidle : s.handler = []) {before : UInt32} {ticks : Nat}
    (hphase : s.reader.phase = .comparing before ticks) (value : UInt64) :
    s.step (.reader value) =
      { s with
        reader :=
          { s.reader with
            phase := if before = s.seq then .done (stamp bits before ticks) else .loading } } := by
  simp [step, hidle, Reader.access, Reader.readings, hphase]

/-- A reader that nothing strikes any more answers what the clock answers. -/
theorem Sound.answer_alone {s : Preemption bits} {w : Nat} (h : s.Sound w) (hbits : bits ≤ 64)
    {C : Type} [Countdown C bits] {k : Clock C} (hseq : k.seq = s.seq) (hidle : s.handler = [])
    (hphase : s.reader.phase = .loading) :
    (s.after (List.replicate 3
      (.reader (UInt64.ofNat (Countdown.read k.counter).val)))).reader.answer? = some k.now := by
  have hvalue : (UInt64.ofNat (Countdown.read k.counter).val).toNat =
      (Countdown.read k.counter).val := by
    apply UInt64.toNat_ofNat_of_lt'
    exact Nat.lt_of_lt_of_le (Fin.isLt _) (Nat.pow_le_pow_right Nat.two_pos hbits)
  have hclamp : min (Countdown.read k.counter).val (top bits) = (Countdown.read k.counter).val :=
    Nat.min_eq_left (Nat.le_sub_one_of_lt (Fin.isLt _))
  have heven : inHandler s.seq = false := by
    rw [h.seq_of_nil hidle]
    exact inHandler_even w
  have hread := step_load_read hidle hphase heven (UInt64.ofNat (Countdown.read k.counter).val)
  rw [hvalue, hclamp] at hread
  simp only [List.replicate, after, List.foldl_cons, List.foldl_nil]
  rw [hread, step_compare (by exact hidle) rfl]
  simp [Reader.answer?, Clock.now, hseq, heven]

/-- Inside a call of the handler the clock answers the last timestamp of the period. -/
theorem now_of_inHandler {C : Type} [Countdown C bits] {k : Clock C} {seq : UInt32}
    (hseq : k.seq = seq) (hodd : inHandler seq = true) : k.now = stamp bits seq (top bits) := by
  rw [Clock.now, hseq, if_pos hodd]

/-! ## Runs -/

theorem Sound.next {s : Preemption bits} {w : Nat} (h : s.Sound w) (c : Choice) :
    ∃ w', (s.step c).Sound w' ∧ w' + (s.step c).atWork ≤ w + s.atWork + strikes [c] := by
  cases c with
  | reader value =>
    refine ⟨w, h.stepReader value, ?_⟩
    simp only [step]
    split <;> exact Nat.le_refl _
  | strike =>
    refine ⟨w, h.stepStrike, ?_⟩
    simp only [step]
    split
    · next hidle _ => simp [atWork, hidle, strikes, rollOverActions]
    · exact Nat.le_add_right ..
  | handler =>
    obtain ⟨w', hsound, hcount⟩ := h.stepHandler
    exact ⟨w', hsound, Nat.le_of_eq hcount⟩
  | ask =>
    refine ⟨w, h.stepAsk, ?_⟩
    simp only [step]
    split
    · split <;> exact Nat.le_refl _
    · exact Nat.le_refl _
  | nested value =>
    refine ⟨w, h.stepNested value, ?_⟩
    simp only [step]
    split
    · exact Nat.le_refl _
    · next r hr =>
      simp only [Preemption.stepNested]
      split <;> exact Nat.le_refl _

theorem Sound.after {s : Preemption bits} {w : Nat} (h : s.Sound w) (choices : List Choice) :
    ∃ w', (s.after choices).Sound w' ∧
      w' + (s.after choices).atWork ≤ w + s.atWork + strikes choices := by
  induction choices generalizing s w with
  | nil => exact ⟨w, h, Nat.le_refl _⟩
  | cons c rest ih =>
    obtain ⟨w', hnext, hcount⟩ := h.next c
    obtain ⟨w'', hafter, hrest⟩ := ih hnext
    have hsplit : strikes (c :: rest) = strikes [c] + strikes rest := strikes_append [c] rest
    refine ⟨w'', hafter, Nat.le_trans hrest ?_⟩
    rw [hsplit, ← Nat.add_assoc]
    exact Nat.add_le_add_right hcount _

/-! ## Timestamps and their periods -/

/-- Some reader, preempted or inside a handler, can answer `t` on a clock that has counted `w`
wraparounds when it answers. -/
def Answers (bits w : Nat) (t : UInt64) : Prop :=
  ∃ w₀ choices, Fits bits (w₀ + strikes choices) ∧
    ((((start bits w₀).after choices).reader.answer? = some (.ok t) ∧
        ((start bits w₀).after choices).wraps.toNat = w) ∨
      ∃ x, (x, .ok t) ∈ ((start bits w₀).after choices).observed ∧ x.toNat = w)

/-- Where the timestamps taken inside handlers lie. -/
structure IsBracketed (s : Preemption bits) : Prop where
  /-- A reader that nothing strikes any more answers what a clock with its sequence word and its
  counter answers. -/
  alone : ∀ (C : Type) [Countdown C bits] (k : Clock C), k.seq = s.seq → s.handler = [] →
    s.reader.phase = .loading →
      (s.after (List.replicate 3
        (.reader (UInt64.ofNat (Countdown.read k.counter).val)))).reader.answer? = some k.now
  /-- A timestamp that is asked for inside a call of the handler is there after `patience` loads of
  the sequence word. It is the last one of the period, the one that a clock answers there; the
  counter is not read for it, and nothing else has changed. -/
  taken : ∀ action rest, s.handler = action :: rest → action.isCall = true → s.nested = none →
    ∃ t, t.toNat = s.wraps.toNat * period bits + top bits ∧
      (∀ (C : Type) [Countdown C bits] (k : Clock C), k.seq = s.seq → k.now = .ok t) ∧
      ∀ values : List UInt64, values.length = patience →
        s.after (.ask :: values.map .nested) =
          { s with observed := s.observed ++ [(s.wraps, .ok t)] }
  /-- It is not less than any timestamp of its period, and less than all of the next. -/
  between : ∀ x answer, (x, answer) ∈ s.observed →
    ∃ t, answer = .ok t ∧ t.toNat = x.toNat * period bits + top bits ∧
      (∀ t', Answers bits x.toNat t' → t' ≤ t) ∧ (∀ t', Answers bits (x.toNat + 1) t' → t < t')
  /-- It is less than the answer of the reader that the handler preempted. -/
  below : ∀ answer, s.reader.answer? = some answer →
    ∃ t, answer = .ok t ∧ ∀ x answer', (x, answer') ∈ s.observed → ∃ t', answer' = .ok t' ∧ t' < t

namespace Sound

variable {s : Preemption bits} {w : Nat}

/-- The answer of the reader, once it has one. -/
theorem answer (h : s.Sound w) (hbits : bits ≤ 64) (hfits : Fits bits w)
    {answer : Except Fault UInt64} (hanswer : s.reader.answer? = some answer) :
    s.handler = [] ∧ s.wraps.toNat = w ∧
      ∃ t, answer = .ok t ∧ ∃ ticks < period bits, t.toNat = w * period bits + ticks := by
  have hknows := h.reader
  simp only [Reader.answer?, ReaderKnows] at hanswer hknows
  split at hanswer
  · next found hphase =>
    rw [Option.some.injEq] at hanswer
    subst hanswer
    rw [hphase] at hknows
    obtain ⟨hidle, ticks, hticks, rfl⟩ := hknows
    have hwraps : (wrapsOf s.seq).toNat = w := by
      rw [h.seq_of_nil hidle]
      exact toNat_wrapsOf_even hfits.count
    obtain ⟨t, ht, hvalue⟩ := stamp_of_fits hbits hfits hwraps hticks
    exact ⟨hidle, hwraps, t, ht, ticks, hticks, hvalue⟩
  · cases hanswer

/-- The answer of a reader inside a handler is the last timestamp of a period. -/
theorem observed_eq (h : s.Sound w) (hbits : bits ≤ 64) (hfits : Fits bits (w + s.atWork))
    {x : UInt32} {answer : Except Fault UInt64} (hmem : (x, answer) ∈ s.observed) :
    x.toNat < w + s.atWork ∧
      ∃ t, answer = .ok t ∧ t.toNat = x.toNat * period bits + top bits := by
  obtain ⟨v, hv, rfl, rfl⟩ := h.observed x answer hmem
  have hfitsV : Fits bits v := hfits.mono (Nat.le_of_lt hv)
  rw [toNat_wrapsOf_odd hfitsV.count]
  exact ⟨hv, stamp_of_fits hbits hfitsV (toNat_wrapsOf_odd hfitsV.count) (top_lt bits)⟩

/-- The answer comes after all timestamps taken inside handlers: these closed earlier periods. -/
theorem observed_lt_answer (h : s.Sound w) (hbits : bits ≤ 64) (hfits : Fits bits w)
    {answer : Except Fault UInt64} (hanswer : s.reader.answer? = some answer) :
    ∃ t, answer = .ok t ∧
      ∀ x answer', (x, answer') ∈ s.observed → ∃ t', answer' = .ok t' ∧ t' < t := by
  obtain ⟨hidle, -, t, ht, ticks, -, hvalue⟩ := h.answer hbits hfits hanswer
  -- no handler is at work any more, so its period is over
  have hwork : w + s.atWork = w := by simp only [atWork, hidle, Nat.add_zero]
  refine ⟨t, ht, ?_⟩
  intro x answer' hmem
  obtain ⟨hx, t', ht', hvalue'⟩ := h.observed_eq hbits (hwork.symm ▸ hfits) hmem
  rw [hwork] at hx
  refine ⟨t', ht', ?_⟩
  have htop : top bits < period bits := top_lt bits
  have hperiods : (x.toNat + 1) * period bits ≤ w * period bits := Nat.mul_le_mul_right _ hx
  rw [UInt64.lt_iff_toNat_lt, hvalue, hvalue']
  rw [Nat.succ_mul] at hperiods
  omega

end Sound

/-- The timestamps of a period lie in it. -/
theorem Answers.bounds {w : Nat} {t : UInt64} (h : Answers bits w t) (hbits : bits ≤ 64) :
    w * period bits ≤ t.toNat ∧ t.toNat ≤ w * period bits + top bits := by
  obtain ⟨w₀, choices, hfits, hcases⟩ := h
  obtain ⟨v, hsound, hcount⟩ := (sound_start bits w₀).after choices
  rw [show (start bits w₀).atWork = 0 from rfl, Nat.add_zero] at hcount
  have hfitsV : Fits bits (v + ((start bits w₀).after choices).atWork) := hfits.mono hcount
  rcases hcases with ⟨hanswer, hwraps⟩ | ⟨x, hmem, rfl⟩
  · obtain ⟨-, hv, t', ht', ticks, hticks, hvalue⟩ :=
      hsound.answer hbits (hfitsV.mono (Nat.le_add_right ..)) hanswer
    cases ht'
    have hwv : v = w := hv.symm.trans hwraps
    have hlast : ticks ≤ top bits := Nat.le_sub_one_of_lt hticks
    rw [hvalue, hwv]
    exact ⟨Nat.le_add_right .., Nat.add_le_add_left hlast _⟩
  · obtain ⟨-, t', ht', hvalue⟩ := hsound.observed_eq hbits hfitsV hmem
    cases ht'
    rw [hvalue]
    exact ⟨Nat.le_add_right .., Nat.le_refl _⟩

/-- The law of preemption. Whatever the hardware does, and however often and wherever the handler
strikes and takes timestamps: these are taken without waiting, they are the last ones of their
periods, and the reader that was preempted answers a later one. Left alone, inside the handler or
outside of it, a reader answers what the clock answers. -/
theorem bracketed {w : Nat} (hbits : bits ≤ 64) {choices : List Choice}
    (hfits : Fits bits (w + strikes choices)) : ((start bits w).after choices).IsBracketed := by
  obtain ⟨v, hsound, hcount⟩ := (sound_start bits w).after choices
  rw [show (start bits w).atWork = 0 from rfl, Nat.add_zero] at hcount
  generalize (start bits w).after choices = s at hsound hcount
  have hfitsS : Fits bits (v + s.atWork) := hfits.mono hcount
  have hfitsV : Fits bits v := hfitsS.mono (Nat.le_add_right ..)
  have htop : top bits < period bits := top_lt bits
  refine ⟨fun C _ k => hsound.answer_alone hbits, ?_, ?_, ?_⟩
  · intro action rest hhandler hcall hnested
    have hat := hsound.handler
    rw [hhandler] at hat
    have hseq := hat.seq_of_isCall hcall
    have hwraps : (wrapsOf s.seq).toNat = v := by
      rw [hseq]
      exact toNat_wrapsOf_odd hfitsV.count
    have hodd : inHandler s.seq = true := by
      rw [hseq]
      exact inHandler_odd v
    obtain ⟨t, ht, hvalue⟩ := stamp_of_fits hbits hfitsV hwraps (top_lt bits)
    refine ⟨t, ?_, fun C _ k hclock => (now_of_inHandler hclock hodd).trans ht, ?_⟩
    · rw [hvalue, wraps, hwraps]
    · intro values hvalues
      rw [hsound.after_ask hhandler hcall hnested hvalues, ht]
  · intro x answer hmem
    obtain ⟨-, t, ht, hvalue⟩ := hsound.observed_eq hbits hfitsS hmem
    refine ⟨t, ht, hvalue, ?_, ?_⟩
    · intro t' hanswers
      rw [UInt64.le_iff_toNat_le, hvalue]
      exact (hanswers.bounds hbits).2
    · intro t' hanswers
      rw [UInt64.lt_iff_toNat_lt, hvalue]
      have hnext := (hanswers.bounds hbits).1
      rw [Nat.succ_mul] at hnext
      omega
  · intro answer hanswer
    exact hsound.observed_lt_answer hbits hfitsV hanswer

/-- A reader on a counter of four bits that is struck between its two loads of the sequence word,
with a timestamp taken while the handler starts the counter. -/
def struck : List Choice :=
  [.reader 0, .reader 2, .strike, .handler, .handler, .ask] ++
    List.replicate patience (.nested 9) ++
    [.handler, .handler, .reader 0, .reader 0, .reader 14, .reader 0]

set_option maxRecDepth 2048 in
theorem bracketed_of_struck :
    (4 : Nat) ≤ 64 ∧ Fits 4 (3 + strikes struck) ∧
    ((start 4 3).after struck).observed = [(3, .ok 63)] ∧
    ((start 4 3).after struck).reader.answer? = some (.ok 65) ∧
    ((start 4 3).after struck).IsBracketed :=
  have hstrikes : strikes struck = 1 := rfl
  have hfits : Fits 4 (3 + strikes struck) := hstrikes ▸ ⟨by decide, by decide⟩
  ⟨by decide, hfits, rfl, rfl, bracketed (by decide) hfits⟩

end Preemption

end TraceRing.Clock
