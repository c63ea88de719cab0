import TraceRing.Proofs.Clock.Scripts

/-!
# Readings that are repeated

A timestamp is made of two words that are not read at once. A reading of the counter in which an
underflow strikes is thrown away and repeated, so a timestamp is that of the first reading in which
none strikes (`Bench.calmAt`), with the wraparounds counted until then: both parts are of one
period. The sequence word tells of underflows unless `2 ^ 31` of them strike in one reading.
-/

namespace TraceRing.Clock.Bench

variable {bits : Nat}

/-- The place of the first reading in which no underflow strikes. After its script the counter is
calm. -/
def calmAt (script : List Reading) : Nat :=
  script.findIdx fun reading => reading.underflows == 0

/-- What the counter shows in the reading at a place. It is full after its script, and never shows
more than that. -/
def shownAt (bits : Nat) (script : List Reading) (i : Nat) : Nat :=
  match script[i]? with
  | some reading => min reading.value.toNat (top bits)
  | none => top bits

/-- The underflows that strike before the first calm reading. -/
def strikesBefore (script : List Reading) : Nat :=
  underflowsIn (script.take (calmAt script))

variable {reading : Reading} {rest : List Reading}

theorem calmAt_of_calm (h : (reading.underflows == 0) = true) :
    calmAt (reading :: rest) = 0 := by
  simp [calmAt, List.findIdx_cons, h]

theorem calmAt_of_struck (h : (reading.underflows == 0) = false) :
    calmAt (reading :: rest) = calmAt rest + 1 := by
  simp [calmAt, List.findIdx_cons, h]

theorem strikesBefore_of_struck (h : (reading.underflows == 0) = false) :
    strikesBefore (reading :: rest) = reading.underflows + strikesBefore rest := by
  simp [strikesBefore, calmAt_of_struck h, underflowsIn]

theorem shownAt_succ (bits i : Nat) :
    shownAt bits (reading :: rest) (i + 1) = shownAt bits rest i := by
  simp [shownAt]

/-! ## Handlers that take no timestamps -/

/-- From one bench to another only handlers were at work: they counted `n` wraparounds. -/
structure Struck (b b' : Bench bits) (n : Nat) : Prop where
  seq : b'.seq = b.seq + UInt32.ofNat (2 * n)
  script : b'.script = b.script
  readings : b'.readings = b.readings
  armed : b'.armed = b.armed

theorem Struck.trans {b b' b'' : Bench bits} {m n : Nat} (h : Struck b b' m)
    (h' : Struck b' b'' n) : Struck b b'' (m + n) where
  seq := by rw [h'.seq, h.seq, Nat.mul_add, UInt32.ofNat_add, UInt32.add_assoc]
  script := h'.script.trans h.script
  readings := h'.readings.trans h.readings
  armed := h'.armed.trans h.armed

theorem struck_rollOver {b : Bench bits} (hquiet : b.armed = false) :
    b.rollOver.1 = .ok () ∧ Struck b b.rollOver.2 1 := by
  have hrollOver : b.rollOver = (.ok (), (rollOverActions b.seq).foldl act b) := by
    simp [rollOver, performAll, rollOverActions, perform, observe, act, note, hquiet]
  rw [hrollOver]
  refine ⟨rfl, rfl, rfl, ?_, rfl⟩
  simp [rollOverActions]

theorem struck_strike {b : Bench bits} (hquiet : b.armed = false) (n : Nat) :
    ∃ b', strike rollOver n b = (.ok (), b') ∧ Struck b b' n := by
  induction n generalizing b with
  | zero => exact ⟨b, rfl, (UInt32.add_zero _).symm, rfl, rfl, rfl⟩
  | succ n ih =>
    obtain ⟨hok, hfirst⟩ := struck_rollOver hquiet
    obtain ⟨b', hstrike, hlater⟩ := ih (hfirst.armed.trans hquiet)
    refine ⟨b', ?_, ?_⟩
    · rw [strike]
      generalize b.rollOver = outcome at hok hstrike
      obtain ⟨answer, next⟩ := outcome
      obtain rfl : answer = .ok () := hok
      exact hstrike
    · rw [Nat.add_comm]
      exact hfirst.trans hlater

/-- An underflow or more, but not `2 ^ 31` of them, show in the sequence word. -/
theorem Struck.seq_ne {b b' : Bench bits} {n : Nat} (h : Struck b b' n) (hpos : n ≠ 0)
    (hlt : n < 2 ^ 31) : b.seq ≠ b'.seq := by
  intro hsame
  have hword : b.seq + 0 = b.seq + UInt32.ofNat (2 * n) := by
    rw [UInt32.add_zero, ← h.seq, hsame]
  have hzero := congrArg UInt32.toNat ((UInt32.add_right_inj _).mp hword)
  rw [UInt32.toNat_ofNat', UInt32.toNat_zero] at hzero
  omega

/-- Handlers leave the sequence word even. -/
theorem Struck.inHandler {b b' : Bench bits} {n : Nat} (h : Struck b b' n)
    (heven : inHandler b.seq = false) : inHandler b'.seq = false := by
  rw [inHandler_eq, bne_eq_false_iff_eq] at heven ⊢
  rw [h.seq, UInt32.toNat_add, UInt32.toNat_ofNat']
  omega

/-! ## Repeated readings -/

/-- A timestamp was taken in a number of readings: it is the stamp of the last one, at the sequence
word after all underflows that struck. -/
structure Settles (b : Bench bits) (script : List Reading)
    (done : Except Fault UInt64 × Bench bits) : Prop where
  struck : done.2.seq = b.seq + UInt32.ofNat (2 * strikesBefore script)
  left : done.2.script = script.drop (calmAt script + 1)
  readings : done.2.readings = b.readings + (calmAt script + 1)
  answer : done.1 = stamp bits done.2.seq (top bits - shownAt bits script (calmAt script))

theorem settles_takeStamp {b : Bench bits} (hquiet : b.armed = false)
    (heven : inHandler b.seq = false) {script : List Reading}
    (hscript : ∀ reading ∈ script, reading.underflows < 2 ^ 31) :
    Settles b script (takeStamp rollOver script b) := by
  induction script generalizing b with
  | nil =>
    have htake : takeStamp rollOver [] b =
        (stamp bits b.seq 0, { b with script := [] }.note .read) := by
      simp [takeStamp, heven]
    rw [htake]
    refine ⟨(UInt32.add_zero _).symm, rfl, ?_, ?_⟩
    · simp [calmAt, readings, note, calls]
    · simp [calmAt, shownAt, note]
  | cons reading rest ih =>
    obtain ⟨hfirst, hrest⟩ := List.forall_mem_cons.mp hscript
    obtain ⟨b', hstrike, hstruck⟩ :=
      struck_strike (b := ({ b with script := rest } : Bench bits).note .read) hquiet
        reading.underflows
    have hreadings : b'.readings = b.readings + 1 := by
      rw [hstruck.readings, readings_read]
      rfl
    have hseq : b'.seq = b.seq + UInt32.ofNat (2 * reading.underflows) := hstruck.seq
    rw [takeStamp_cons heven hstrike]
    cases hcalm : reading.underflows == 0 with
    | true =>
      have hsame : b.seq = b'.seq := by
        rw [hseq, beq_iff_eq.mp hcalm]
        exact (UInt32.add_zero _).symm
      have hat : calmAt (reading :: rest) = 0 := calmAt_of_calm hcalm
      rw [if_pos hsame]
      refine ⟨?_, ?_, ?_, ?_⟩
      · simp [strikesBefore, hat, underflowsIn, hsame]
      · simp [hat, hstruck.script, note]
      · simp [hat, hreadings]
      · simp [hat, shownAt, hsame]
    | false =>
      have hne : b.seq ≠ b'.seq := hstruck.seq_ne (by simpa using hcalm) hfirst
      have hat : calmAt (reading :: rest) = calmAt rest + 1 := calmAt_of_struck hcalm
      have hlater := ih (hstruck.armed.trans hquiet) (hstruck.inHandler heven) hrest
      rw [if_neg hne]
      refine ⟨?_, ?_, ?_, ?_⟩
      · rw [hlater.struck, hseq, strikesBefore_of_struck hcalm, Nat.mul_add, UInt32.ofNat_add,
          UInt32.add_assoc]
      · rw [hlater.left, hat, List.drop_succ_cons]
      · rw [hlater.readings, hreadings, hat]
        omega
      · rw [hlater.answer, hat, shownAt_succ]

/-- From an even sequence word `n` more wraparounds are counted, and the count wraps at `2 ^ 31`. -/
theorem wraps_add {seq : UInt32} (heven : inHandler seq = false) (n : Nat) :
    (wrapsOf (seq + UInt32.ofNat (2 * n))).toNat = ((wrapsOf seq).toNat + n) % 2 ^ 31 ∧
      inHandler (seq + UInt32.ofNat (2 * n)) = false := by
  rw [inHandler_eq, bne_eq_false_iff_eq] at heven ⊢
  rw [toNat_wrapsOf, toNat_wrapsOf, UInt32.toNat_add, UInt32.toNat_ofNat']
  omega

/-- The law of snapshots. Whatever the counter shows and however many underflows strike, as long as
they are fewer than `2 ^ 31` in one reading: the script is used up to its first calm reading, and
the timestamp is made of what the counter shows there and of the wraparounds counted until then. A
reader among preemptions answers the same and reads the counter as often, as long as timestamps do
not overflow. -/
theorem now_settles (hwide : bits ≤ 64) {b : Bench bits} (hquiet : b.armed = false)
    (heven : inHandler b.seq = false)
    (hscript : ∀ reading ∈ b.script, reading.underflows < 2 ^ 31) :
    let m := calmAt b.script
    let w := (b.wraps.toNat + strikesBefore b.script) % 2 ^ 31
    b.now.2.script = b.script.drop (m + 1) ∧
    b.now.2.readings = b.readings + (m + 1) ∧
    b.now.2.wraps.toNat = w ∧ inHandler b.now.2.seq = false ∧
    (w * period bits < 2 ^ 64 →
      ∃ t, b.now.1 = .ok t ∧ t.toNat = w * period bits + (top bits - shownAt bits b.script m)) ∧
    (2 ^ 64 ≤ w * period bits → b.now.1 = .error .productOverflow) ∧
    ∀ w₀, b.seq = UInt32.ofNat (2 * w₀) → b.notes = [] →
      Fits bits (w₀ + underflowsIn b.script) →
      ∃ choices, Preemption.strikes choices ≤ underflowsIn b.script ∧
        let s := (Preemption.start bits w₀).after choices
        s.reader.answer? = some b.now.1 ∧ s.seq = b.now.2.seq ∧ s.readings = b.now.2.readings ∧
          s.observed.map (·.2) = b.now.2.timestamps.map .ok := by
  intro m w
  have hsettles : Settles b b.script b.now := settles_takeStamp hquiet heven hscript
  obtain ⟨hwraps, heven'⟩ := wraps_add heven (strikesBefore b.script)
  rw [← hsettles.struck] at hwraps heven'
  refine ⟨hsettles.left, hsettles.readings, hwraps, heven', fun hproduct => ?_,
    fun hproduct => ?_, fun w₀ hseq hnotes hfits => now_eq_after hseq hnotes hwide hfits⟩
  · have hcount : w < 2 ^ 31 := Nat.mod_lt _ (Nat.two_pow_pos 31)
    have hticks : top bits - shownAt bits b.script m < 2 ^ bits :=
      Nat.lt_of_le_of_lt (Nat.sub_le ..) (top_lt bits)
    rw [hsettles.answer]
    exact stamp_of_fits hwide ⟨hcount, hproduct⟩ hwraps hticks
  · rw [hsettles.answer, stamp, hwraps]
    exact if_pos hproduct

/-- A clock of four bits that counted one wraparound: three underflows strike in its first two
readings, and in the third it shows a value that does not fit the counter. -/
def struckTwice : Bench 4 :=
  ⟨2, [⟨3, 2⟩, ⟨0, 1⟩, ⟨200, 0⟩, ⟨7, 5⟩], [], false⟩

theorem now_settles_of_struckTwice :
    (4 : Nat) ≤ 64 ∧ struckTwice.armed = false ∧ inHandler struckTwice.seq = false ∧
    (∀ reading ∈ struckTwice.script, reading.underflows < 2 ^ 31) ∧
    struckTwice.now.2.script = [⟨7, 5⟩] ∧
    struckTwice.now.2.readings = 3 ∧ struckTwice.now.2.wraps.toNat = 4 ∧
    ∃ t, struckTwice.now.1 = .ok t ∧ t.toNat = 64 := by
  have hscript : ∀ reading ∈ struckTwice.script, reading.underflows < 2 ^ 31 := by decide
  obtain ⟨hleft, hreadings, hwraps, -, hanswer, -⟩ :=
    now_settles (b := struckTwice) (by decide) rfl rfl hscript
  exact ⟨by decide, rfl, rfl, hscript, hleft, hreadings, hwraps, hanswer (by decide)⟩

end TraceRing.Clock.Bench
