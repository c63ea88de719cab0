import TraceRing.Proofs.Producer.Discipline
import TraceRing.Proofs.Transport.History

/-!
# Waiting for a free slot

A producer that found its ring full does not look at the ring again until its timeout has passed,
and drops its packets until then. `Producer.Asking` lists the ways in which the question for a free
slot can go.

In a disciplined run on a clock that does not go back (`Link.isSteady`), a producer that waits has
no packet open and may open none, and what it remembers is the time of the last look that found the
ring full (`Link.Paced`). The rules of waiting follow for all such runs (`Link.backsOff_after`).
-/

namespace TraceRing

variable {g : Geometry} {C E : Type} {bits : Nat} [Countdown C bits]

/-! ## Questions -/

/-- A time lies before a timeout that runs from an earlier one. -/
theorem sub_lt_iff {t last timeout : UInt64} (h : last ≤ t) :
    t - last < timeout ↔ t.toNat < last.toNat + timeout.toNat := by
  have hle := UInt64.le_iff_toNat_le.mp h
  rw [UInt64.lt_iff_toNat_lt, UInt64.toNat_sub_of_le _ _ h]
  omega

namespace Producer

/-- Whether the question for a free slot leads to a look at the ring. -/
def looks (p : Producer (Clock C) E g) : Bool :=
  p.isDue.1.toOption.getD false

theorem looks_eq (p : Producer (Clock C) E g) :
    p.looks =
      if p.waiting then
        match p.now with
        | .ok t => !decide (t - p.lastCheck < p.timeout)
        | .error _ => false
      else true := by
  unfold looks isDue
  cases p.waiting with
  | false => rfl
  | true =>
    cases p.now with
    | error fault => rfl
    | ok t => by_cases hearly : t - p.lastCheck < p.timeout <;> simp [hearly, Except.toOption]

/-- How the question for a free slot can go. -/
inductive Asking (p : Producer (Clock C) E g) (consumerIndex : UInt32) :
    Except Fault Bool × Producer (Clock C) E g → Prop where
  /-- The clock cannot be read. -/
  | timeless {fault : Fault} {p' : Producer (Clock C) E g} (hnow : p.now = .error fault) :
      Asking p consumerIndex (.error fault, p')
  /-- The wait goes on, and the ring is not looked at. -/
  | early {t : UInt64} (hwaiting : p.waiting = true) (hnow : p.now = .ok t)
      (hearly : t - p.lastCheck < p.timeout) : Asking p consumerIndex (.ok true, p)
  /-- The ring is full, and a wait starts. -/
  | full {t : UInt64} (hlooks : p.looks = true) (hnow : p.now = .ok t)
      (hfull : Ring.isFull g p.index consumerIndex = true) :
      Asking p consumerIndex (.ok true, { p with waiting := true, lastCheck := t })
  /-- A slot is free. -/
  | free {last : UInt64} (hlooks : p.looks = true)
      (hroom : Ring.isFull g p.index consumerIndex = false) :
      Asking p consumerIndex (.ok false, { p with waiting := false, lastCheck := last })

theorem asking_of_look (p : Producer (Clock C) E g) (consumerIndex : UInt32) {last : UInt64}
    (hlooks : p.looks = true) :
    Asking p consumerIndex
      (({ p with lastCheck := last } : Producer (Clock C) E g).look consumerIndex) := by
  simp only [look]
  cases hfull : Ring.isFull g p.index consumerIndex with
  | false => exact .free hlooks hfull
  | true =>
    simp only [if_true]
    split
    · next fault hnow => exact .timeless hnow
    · next t hnow => exact .full hlooks hnow hfull

theorem asking (p : Producer (Clock C) E g) (consumerIndex : UInt32) :
    Asking p consumerIndex (p.isBlocked consumerIndex) := by
  rw [isBlocked_eq]
  split
  · next hwaiting =>
    split
    · next fault hnow => exact .timeless hnow
    · next t hnow =>
      split
      · next hearly => exact .early hwaiting hnow hearly
      · next hlate =>
        exact p.asking_of_look consumerIndex (by simp [looks_eq, hwaiting, hnow, hlate])
  · next hidle => exact p.asking_of_look consumerIndex (by simp [looks_eq, hidle])

variable [PacketEncoder E g]

/-- Only questions and resets change what is remembered of looks. -/
theorem kept_endPacket (p : Producer (Clock C) E g) (r : Ring g) :
    (p.endPacket r).2.1.waiting = p.waiting ∧ (p.endPacket r).2.1.lastCheck = p.lastCheck := by
  have hending := p.ending r
  generalize p.endPacket r = done at hending ⊢
  cases hending <;> exact ⟨rfl, rfl⟩

theorem kept_endSession (p : Producer (Clock C) E g) (r : Ring g) :
    (p.endSession r).2.1.waiting = p.waiting ∧ (p.endSession r).2.1.lastCheck = p.lastCheck :=
  endSession_keeps (motive := fun p' _ => p'.waiting = p.waiting ∧ p'.lastCheck = p.lastCheck)
    ⟨rfl, rfl⟩ (p.kept_endPacket r) fun _ _ hkept => hkept

end Producer

namespace Link

variable [PacketEncoder E g] {k : Link C E g} {sent : List (Packet g)} {taken : Nat}
  {checks : List UInt64}

/-! ## Questions in a run -/

/-- The producer that asks for a free slot in a step. -/
def asker? (k : Link C E g) : Step C E g → Option (Producer (Clock C) E g)
  | .call .isBlocked | .call .tryPacket => some k.producer
  | .call .startSession => if k.producer.tracing then none else some k.producer.blank
  | _ => none

/-- What is answered to the question of a step: whether no slot is free. -/
def verdict? (k : Link C E g) (s : Step C E g) : Option Bool :=
  (k.asker? s).bind fun p => (p.isBlocked k.lane.ring.consumerIndex).1.toOption

/-- The time of the look in a step that finds the ring full. -/
def fullCheck? (k : Link C E g) (s : Step C E g) : Option UInt64 :=
  (k.asker? s).bind fun p =>
    if p.looks && Ring.isFull g p.index k.lane.ring.consumerIndex then p.now.toOption else none

/-- The producers that ask along a run, each as it stands when it asks. -/
def askers (k : Link C E g) (steps : List (Step C E g)) : List (Producer (Clock C) E g) :=
  along next (fun k s => (k.asker? s).toList) k steps

/-- The answers along a run. -/
def verdicts (k : Link C E g) (steps : List (Step C E g)) : List Bool :=
  along next (fun k s => (k.verdict? s).toList) k steps

/-- The times of the looks along a run that found the ring full. -/
def fullChecks (k : Link C E g) (steps : List (Step C E g)) : List UInt64 :=
  along next (fun k s => (k.fullCheck? s).toList) k steps

/-- The packets published along a run. -/
def published (k : Link C E g) (steps : List (Step C E g)) : List (Packet g) :=
  along next sentBy k steps

/-- The parts of a producer that a question for a free slot leaves alone or sets. -/
theorem producer_of_ask {s : Step C E g} {p : Producer (Clock C) E g} (hask : k.asker? s = some p) :
    ∃ encoder packet dropped tracing,
      (k.next s).producer =
        { (p.isBlocked k.lane.ring.consumerIndex).2 with
          encoder := encoder
          packet := packet
          dropped := dropped
          tracing := tracing } ∧
      ((p.isBlocked k.lane.ring.consumerIndex).1 ≠ .ok false → encoder = k.producer.encoder) ∧
      (k.next s).lane = k.lane ∧ k.sentBy s = [] ∧ p.index = k.producer.index := by
  cases s with
  | call c =>
    cases c with
    | isBlocked =>
      cases hask
      have hencoder := k.producer.encoder_isBlocked k.lane.ring.consumerIndex
      exact ⟨_, _, _, _, rfl, fun _ => hencoder, rfl, rfl, rfl⟩
    | tryPacket =>
      cases hask
      obtain ⟨encoder, packet, dropped, htry, hencoder⟩ :=
        k.producer.tryPacket_snd k.lane.ring.consumerIndex
      exact ⟨encoder, packet, dropped, _, htry, hencoder, rfl, rfl, rfl⟩
    | startSession =>
      cases htracing : k.producer.tracing with
      | true => simp [asker?, htracing] at hask
      | false =>
        simp only [asker?, htracing, Bool.false_eq_true, if_false, Option.some.injEq] at hask
        subst hask
        obtain ⟨encoder, packet, dropped, htry, hencoder⟩ :=
          k.producer.blank.tryPacket_snd k.lane.ring.consumerIndex
        refine ⟨encoder, packet, dropped,
          (k.producer.startSession k.lane.ring.consumerIndex).2.tracing, ?_, hencoder, rfl, rfl,
          rfl⟩
        change (k.producer.startSession k.lane.ring.consumerIndex).2 = _
        rw [Producer.startSession_of_idle htracing]
        dsimp only
        rw [htry]
    | _ => cases hask
  | _ => cases hask

omit [PacketEncoder E g] in
/-- A question on a clock that can be read is answered. -/
theorem exists_verdict {s : Step C E g} {p : Producer (Clock C) E g} {t : UInt64}
    (hask : k.asker? s = some p) (hnow : p.now = .ok t) : ∃ full, k.verdict? s = some full := by
  have hasking := p.asking k.lane.ring.consumerIndex
  simp only [verdict?, hask, Option.bind_some]
  generalize p.isBlocked k.lane.ring.consumerIndex = asked at hasking
  cases hasking with
  | timeless herror => cases herror.symm.trans hnow
  | _ => exact ⟨_, rfl⟩

/-- A yes makes the producer wait. -/
theorem waiting_of_verdict {s : Step C E g} (hyes : k.verdict? s = some true) :
    (k.next s).producer.waiting = true ∧ k.sentBy s = [] := by
  cases hask : k.asker? s with
  | none => simp [verdict?, hask] at hyes
  | some p =>
    obtain ⟨encoder, packet, dropped, tracing, hproducer, -, -, hsent, -⟩ := producer_of_ask hask
    have hasking := p.asking k.lane.ring.consumerIndex
    refine ⟨?_, hsent⟩
    simp only [verdict?, hask, Option.bind_some] at hyes
    rw [hproducer]
    generalize p.isBlocked k.lane.ring.consumerIndex = asked at hasking hyes
    cases hasking with
    | timeless herror => cases hyes
    | early hwait hsame hearly => exact hwait
    | full hlooks hsame hfull => rfl
    | free hlooks hroom => cases hyes

/-- A look that finds the ring full is answered with yes, and its time is remembered. -/
theorem recorded_of_fullCheck {s : Step C E g} {recorded : UInt64}
    (hcheck : k.fullCheck? s = some recorded) :
    k.verdict? s = some true ∧ (k.next s).producer.lastCheck = recorded ∧
      Ring.isFull g k.producer.index k.lane.ring.consumerIndex = true := by
  cases hask : k.asker? s with
  | none => simp [fullCheck?, hask] at hcheck
  | some p =>
    obtain ⟨encoder, packet, dropped, tracing, hproducer, -, -, -, hindex⟩ := producer_of_ask hask
    have hasking := p.asking k.lane.ring.consumerIndex
    simp only [fullCheck?, hask, Option.bind_some, Option.ite_none_right_eq_some,
      Bool.and_eq_true] at hcheck
    obtain ⟨⟨hlooks, hfull⟩, hnow⟩ := hcheck
    simp only [verdict?, hask, Option.bind_some]
    rw [hproducer, ← hindex]
    generalize p.isBlocked k.lane.ring.consumerIndex = asked at hasking
    cases hasking with
    | timeless herror => simp [herror, Except.toOption] at hnow
    | early hwaiting hsame hearly => simp [Producer.looks_eq, hwaiting, hsame, hearly] at hlooks
    | full _ hsame _ =>
      refine ⟨rfl, ?_, hfull⟩
      simpa [hsame, Except.toOption] using hnow
    | free _ hroom => exact absurd (hroom.symm.trans hfull) Bool.false_ne_true

/-! ## Steady clocks -/

/-- Whether a step starts the clock again. -/
def resets (k : Link C E g) : Step C E g → Bool
  | .call .restart => true
  | .call .startSession => !k.producer.tracing
  | _ => false

/-- Whether the clock can be read after a step, and shows no earlier time than before it, unless
the step resets it. -/
def goesOn (k : Link C E g) (s : Step C E g) : Bool :=
  match (k.next s).producer.now with
  | .error _ => false
  | .ok t' =>
    k.resets s ||
      match k.producer.now with
      | .error _ => false
      | .ok t => decide (t ≤ t')

/-- Whether the clock goes on in each step of a run, and is not reset once the producer has asked
for a free slot. -/
def isSteady : Bool → Link C E g → List (Step C E g) → Bool
  | _, _, [] => true
  | started, k, s :: rest =>
    k.goesOn s && !(started && k.resets s) &&
      isSteady (started || (k.asker? s).isSome) (k.next s) rest

/-- A producer that waits has no packet open and may open none, and it remembers the time of the
last look that found the ring full. -/
structure Paced (k : Link C E g) (found started : Bool) (checks : List UInt64) : Prop where
  fresh : started = false → k.producer.waiting = false
  idle : k.producer.waiting = true → k.producer.isOpen = false ∧ found = false
  recorded : k.producer.waiting = true →
    checks.getLast? = some k.producer.lastCheck ∧
      ∃ t, k.producer.now = .ok t ∧ k.producer.lastCheck ≤ t

theorem now_of_goesOn {s : Step C E g} (h : k.goesOn s = true) :
    ∃ t', (k.next s).producer.now = .ok t' ∧
      (k.resets s = false → ∃ t, k.producer.now = .ok t ∧ t ≤ t') := by
  unfold goesOn at h
  split at h
  · cases h
  · next t' hnow' =>
    refine ⟨t', hnow', fun hreset => ?_⟩
    rw [hreset, Bool.false_or] at h
    split at h
    · cases h
    · next t hnow => exact ⟨t, hnow, of_decide_eq_true h⟩

/-- Steps that neither ask nor reset leave alone what is remembered of looks. -/
theorem kept_of_quiet {s : Step C E g} (hask : k.asker? s = none) (hreset : k.resets s = false) :
    (k.next s).producer.waiting = k.producer.waiting ∧
      (k.next s).producer.lastCheck = k.producer.lastCheck := by
  cases s with
  | call c =>
    cases c with
    | endPacket => exact k.producer.kept_endPacket k.lane.ring
    | endSession => exact k.producer.kept_endSession k.lane.ring
    | startPacket =>
      rw [Link.next, Producer.call, Producer.startPacket_snd]
      exact ⟨rfl, rfl⟩
    | startSession =>
      have htracing : k.producer.tracing = true := by simpa [resets] using hreset
      simp [Link.next, Producer.call, Producer.startSession_eq, htracing]
    | isBlocked => cases hask
    | tryPacket => cases hask
    | restart => cases hreset
    | _ => exact ⟨rfl, rfl⟩
  | _ => exact ⟨rfl, rfl⟩

theorem waiting_of_reset {s : Step C E g} (hask : k.asker? s = none) (hreset : k.resets s = true) :
    (k.next s).producer.waiting = false := by
  cases s with
  | call c =>
    cases c with
    | restart => rfl
    | startSession =>
      have htracing : k.producer.tracing = false := by simpa [resets] using hreset
      simp [asker?, htracing] at hask
    | _ => cases hreset
  | _ => cases hreset

/-- A step that opens a packet asks for a slot, or does without. -/
theorem isOpen_of_quiet [LawfulEncoder E g] {s : Step C E g} {found : Bool}
    (hask : k.asker? s = none) (hallowed : s.isAllowed found k = true)
    (hopen : (k.next s).producer.isOpen = true) :
    k.producer.isOpen = true ∨ found = true := by
  cases s with
  | call c =>
    cases c with
    | startPacket => exact .inr hallowed
    | endPacket => exact .inl (Producer.isOpen_of_endPacket hopen).1
    | endSession => exact .inl (Producer.isOpen_of_endSession hopen).1
    | edit work =>
      refine .inl ?_
      cases hbefore : k.producer.isOpen with
      | true => rfl
      | false =>
        have hafter : (k.producer.edit work).isOpen = true := hopen
        simp [Step.isAllowed, Producer.Call.isBlind, hbefore, hafter] at hallowed
    | startSession =>
      cases htracing : k.producer.tracing with
      | true =>
        refine .inl ?_
        rw [Link.next, Producer.call, Producer.startSession_eq, if_pos htracing] at hopen
        exact hopen
      | false => simp [asker?, htracing] at hask
    | isBlocked => cases hask
    | tryPacket => cases hask
    | writeText message => exact .inl (by simpa only [Link.next, Producer.call] using hopen)
    | _ => exact .inl hopen
  | _ => exact .inl hopen

omit [PacketEncoder E g] in
theorem finds_of_quiet {s : Step C E g} {found : Bool} (hask : k.asker? s = none)
    (hfinds : s.finds found k = true) : found = true := by
  cases s with
  | call c =>
    cases c with
    | isBlocked => cases hask
    | _ => cases hfinds
  | _ => exact hfinds

omit [PacketEncoder E g] in
/-- A question that was answered with yes allows no packet. -/
theorem finds_of_ask {s : Step C E g} {p : Producer (Clock C) E g} {found : Bool}
    (hask : k.asker? s = some p) (hyes : (p.isBlocked k.lane.ring.consumerIndex).1 = .ok true) :
    s.finds found k = false := by
  cases s with
  | call c =>
    cases c with
    | isBlocked =>
      cases hask
      simp [Step.finds, hyes]
    | tryPacket => rfl
    | startSession => rfl
    | _ => cases hask
  | _ => cases hask

omit [PacketEncoder E g] in
/-- The producer asks as it is, unless a session starts. -/
theorem eq_of_ask {s : Step C E g} {p : Producer (Clock C) E g} (hask : k.asker? s = some p) :
    p = k.producer ∨ p = k.producer.blank ∧ k.resets s = true := by
  cases s with
  | call c =>
    cases c with
    | isBlocked => exact .inl (Option.some.inj hask).symm
    | tryPacket => exact .inl (Option.some.inj hask).symm
    | startSession =>
      cases htracing : k.producer.tracing with
      | true => simp [asker?, htracing] at hask
      | false =>
        simp only [asker?, htracing, Bool.false_eq_true, if_false, Option.some.injEq] at hask
        exact .inr ⟨hask.symm, by simp [resets, htracing]⟩
    | _ => cases hask
  | _ => cases hask

/-- Without an open packet nothing is published. -/
theorem sentBy_of_closed (hclosed : k.producer.isOpen = false) (s : Step C E g) :
    k.sentBy s = [] := by
  have hclosing : k.producer.closing k.lane.ring = none := by
    unfold Producer.closing
    split <;> simp [hclosed]
  cases s with
  | call c => cases c <;> simp [sentBy, Producer.sent, Producer.lastClosing, hclosing, hclosed]
  | _ => rfl

omit [PacketEncoder E g] in
theorem not_hasRoom_of_isFull
    (hfull : Ring.isFull g k.producer.index k.lane.ring.consumerIndex = true) : ¬ k.HasRoom := by
  intro hroom
  rw [Ring.isFull, beq_iff_eq] at hfull
  rw [HasRoom, hfull] at hroom
  exact UInt32.lt_irrefl _ hroom

namespace Paced

variable {found started : Bool} {s : Step C E g}

/-- Of a producer that does not wait nothing is said. -/
theorem of_idle (hidle : k.producer.waiting = false) : k.Paced found started checks where
  fresh _ := hidle
  idle hwaiting := absurd (hidle.symm.trans hwaiting) Bool.false_ne_true
  recorded hwaiting := absurd (hidle.symm.trans hwaiting) Bool.false_ne_true

theorem next_of_ask (h : k.Paced found started checks) (hready : k.Ready found)
    (hgoes : k.goesOn s = true) {p : Producer (Clock C) E g} (hask : k.asker? s = some p) :
    (k.next s).Paced (s.finds found k) true (checks ++ (k.fullCheck? s).toList) := by
  obtain ⟨encoder, packet, dropped, tracing, hproducer, hencoder, -, -, hindex⟩ :=
    producer_of_ask hask
  obtain ⟨t', hnow', -⟩ := now_of_goesOn hgoes
  have hnow : p.now = .ok t' := by
    rw [hproducer, Producer.isBlocked_snd] at hnow'
    exact hnow'
  have hasking := p.asking k.lane.ring.consumerIndex
  have hfinds : (p.isBlocked k.lane.ring.consumerIndex).1 = .ok true → s.finds found k = false :=
    finds_of_ask hask
  generalize p.isBlocked k.lane.ring.consumerIndex = asked at hproducer hencoder hasking hfinds
  cases hasking with
  | timeless herror => cases herror.symm.trans hnow
  | early hwaiting hsame hearly =>
    -- the ring is not looked at, and what is remembered stays
    obtain rfl : p = k.producer := by
      rcases eq_of_ask hask with hsame | ⟨rfl, -⟩
      · exact hsame
      · -- a session starts without a wait
        cases hwaiting
    have hnone : k.fullCheck? s = none := by
      simp [fullCheck?, hask, Producer.looks_eq, hwaiting, hsame, hearly]
    have hlast : (k.next s).producer.lastCheck = k.producer.lastCheck := by rw [hproducer]
    refine ⟨nofun, fun _ => ⟨?_, hfinds rfl⟩, fun _ => ?_⟩
    · rw [hproducer]
      exact hencoder (by simp) ▸ (h.idle hwaiting).1
    · obtain ⟨hrecorded, t, hold, hle⟩ := h.recorded hwaiting
      cases hold.symm.trans hnow
      rw [hnone, Option.toList_none, List.append_nil, hlast]
      exact ⟨hrecorded, t', hnow', hle⟩
  | full hlooks hsame hfull =>
    -- with an open packet there would be room for it
    cases hsame.symm.trans hnow
    have hcheck : k.fullCheck? s = some t' := by
      simp [fullCheck?, hask, hlooks, hfull, hnow, Except.toOption]
    have hlast : (k.next s).producer.lastCheck = t' := by rw [hproducer]
    rw [hindex] at hfull
    have hclosed : k.producer.isOpen = false :=
      Bool.eq_false_iff.mpr fun hopen => not_hasRoom_of_isFull hfull (hready (.inl hopen))
    refine ⟨nofun, fun _ => ⟨?_, hfinds rfl⟩, fun _ => ?_⟩
    · rw [hproducer]
      exact hencoder (by simp) ▸ hclosed
    · rw [hcheck, hlast, Option.toList_some, List.getLast?_concat]
      exact ⟨rfl, t', hnow', UInt64.le_refl _⟩
  | free hlooks hroom =>
    apply of_idle
    rw [hproducer]

theorem next_of_quiet [LawfulEncoder E g] (h : k.Paced found started checks)
    (hallowed : s.isAllowed found k = true) (hgoes : k.goesOn s = true)
    (hask : k.asker? s = none) : (k.next s).Paced (s.finds found k) started checks := by
  obtain ⟨t', hnow', hgoesOn⟩ := now_of_goesOn hgoes
  cases hagain : k.resets s with
  | true => exact of_idle (waiting_of_reset hask hagain)
  | false =>
    obtain ⟨hwait, hlast⟩ := kept_of_quiet hask hagain
    obtain ⟨t, hnow, hle⟩ := hgoesOn hagain
    refine ⟨fun hfresh => hwait.trans (h.fresh hfresh), ?_, ?_⟩
    · intro hwaiting
      rw [hwait] at hwaiting
      obtain ⟨hclosed, hnone⟩ := h.idle hwaiting
      refine ⟨?_, ?_⟩
      · refine Bool.eq_false_iff.mpr fun hopen => ?_
        rcases isOpen_of_quiet hask hallowed hopen with hbefore | hfound
        · exact absurd (hclosed.symm.trans hbefore) Bool.false_ne_true
        · exact absurd (hnone.symm.trans hfound) Bool.false_ne_true
      · exact Bool.eq_false_iff.mpr fun hfinds =>
          absurd (hnone.symm.trans (finds_of_quiet hask hfinds)) Bool.false_ne_true
    · intro hwaiting
      rw [hwait] at hwaiting
      obtain ⟨hrecorded, t₀, hold, hle₀⟩ := h.recorded hwaiting
      cases hold.symm.trans hnow
      rw [hlast]
      exact ⟨hrecorded, t', hnow', UInt64.le_trans hle₀ hle⟩

end Paced

theorem paced_new (grid : Grid) (core : Core) (clock : Clock C) (encoder : E) (timeout : UInt64)
    (sink : Sink) : (new grid core clock encoder timeout sink : Link C E g).Paced false false [] :=
  .of_idle rfl

/-! ## Runs -/

/-- A link in the middle of a run, with what was sent, taken and found before, and the steps that
are left. -/
structure Orderly (k : Link C E g) (sent : List (Packet g)) (taken : Nat) (checks : List UInt64)
    (rest : List (Step C E g)) : Prop where
  sound : k.Sound sent taken
  flags : ∃ found started, k.Ready found ∧ k.Paced found started checks ∧
    isDisciplined found k rest = true ∧ isSteady started k rest = true

namespace Orderly

variable {s : Step C E g} {rest : List (Step C E g)}

/-- A producer that waits has asked, so the clock is not reset any more. -/
theorem resets_of_waiting (h : k.Orderly sent taken checks (s :: rest))
    (hwaiting : k.producer.waiting = true) : k.resets s = false := by
  obtain ⟨found, started, -, hpaced, -, hsteady⟩ := h.flags
  cases started with
  | true =>
    simp only [isSteady, Bool.true_and, Bool.and_eq_true, Bool.not_eq_true'] at hsteady
    exact hsteady.1.2
  | false => exact absurd ((hpaced.fresh rfl).symm.trans hwaiting) Bool.false_ne_true

/-- It asks as it is, and not before the time of its last look. -/
theorem asker_of_waiting (h : k.Orderly sent taken checks (s :: rest))
    (hwaiting : k.producer.waiting = true) {p : Producer (Clock C) E g}
    (hask : k.asker? s = some p) :
    p = k.producer ∧ checks.getLast? = some p.lastCheck ∧
      ∃ t, p.now = .ok t ∧ p.lastCheck ≤ t := by
  obtain ⟨found, started, -, hpaced, -, -⟩ := h.flags
  have hsame : p = k.producer := by
    rcases eq_of_ask hask with hsame | ⟨-, hreset⟩
    · exact hsame
    · exact absurd ((h.resets_of_waiting hwaiting).symm.trans hreset) Bool.false_ne_true
  obtain ⟨hrecorded, hnow⟩ := hpaced.recorded hwaiting
  rw [hsame]
  exact ⟨rfl, hrecorded, hnow⟩

/-- While the answer is yes, a producer that waits goes on waiting, and publishes nothing. -/
theorem next_waiting (h : k.Orderly sent taken checks (s :: rest))
    (hwaiting : k.producer.waiting = true) (hyes : k.verdict? s ≠ some false) :
    (k.next s).producer.waiting = true ∧ k.sentBy s = [] := by
  obtain ⟨found, started, -, hpaced, -, -⟩ := h.flags
  cases hask : k.asker? s with
  | some p =>
    obtain ⟨-, -, t, hnow, -⟩ := h.asker_of_waiting hwaiting hask
    obtain ⟨full, hverdict⟩ := exists_verdict hask hnow
    cases full with
    | true => exact waiting_of_verdict hverdict
    | false => exact absurd hverdict hyes
  | none =>
    obtain ⟨hwait, -⟩ := kept_of_quiet hask (h.resets_of_waiting hwaiting)
    exact ⟨hwait.trans hwaiting, sentBy_of_closed (hpaced.idle hwaiting).1 s⟩

/-- A question that comes before the timeout has passed is answered without a look. -/
theorem next_early (h : k.Orderly sent taken checks (s :: rest))
    (hwaiting : k.producer.waiting = true)
    (hearly : ∀ p ∈ k.asker? s, ∀ t, p.now = .ok t →
      t.toNat < k.producer.lastCheck.toNat + p.timeout.toNat) :
    k.verdict? s ≠ some false ∧ (k.next s).producer.lastCheck = k.producer.lastCheck := by
  cases hask : k.asker? s with
  | some p =>
    obtain ⟨encoder, packet, dropped, tracing, hproducer, -, -, -, -⟩ := producer_of_ask hask
    obtain ⟨rfl, -, t, hnow, hle⟩ := h.asker_of_waiting hwaiting hask
    have hbefore : t - k.producer.lastCheck < k.producer.timeout :=
      (sub_lt_iff hle).mpr (hearly _ hask t hnow)
    have hyes : k.producer.isBlocked k.lane.ring.consumerIndex = (.ok true, k.producer) := by
      simp [Producer.isBlocked_eq, hwaiting, hnow, hbefore]
    rw [hproducer, hyes]
    refine ⟨?_, rfl⟩
    simp [verdict?, hask, hyes, Except.toOption]
  | none =>
    refine ⟨?_, (kept_of_quiet hask (h.resets_of_waiting hwaiting)).2⟩
    simp [verdict?, hask]

variable [LawfulEncoder E g]

theorem next (h : k.Orderly sent taken checks (s :: rest)) :
    ∃ taken', taken ≤ taken' ∧
      (k.next s).Orderly (sent ++ k.sentBy s) taken' (checks ++ (k.fullCheck? s).toList) rest := by
  obtain ⟨found, started, hready, hpaced, hdisciplined, hsteady⟩ := h.flags
  simp only [isDisciplined, isSteady, Bool.and_eq_true] at hdisciplined hsteady
  obtain ⟨hallowed, hdisciplined⟩ := hdisciplined
  obtain ⟨⟨hgoes, hreset⟩, hsteady⟩ := hsteady
  obtain ⟨taken', hle, hsound⟩ := h.sound.next s
  refine ⟨taken', hle, hsound, s.finds found k, started || (k.asker? s).isSome,
    hready.next h.sound.feeds hallowed, ?_, hdisciplined, hsteady⟩
  cases hask : k.asker? s with
  | none =>
    have hnone : k.fullCheck? s = none := by simp [fullCheck?, hask]
    rw [hnone, Option.toList_none, List.append_nil, Option.isSome_none, Bool.or_false]
    exact hpaced.next_of_quiet hallowed hgoes hask
  | some p =>
    rw [Option.isSome_some, Bool.or_true]
    exact hpaced.next_of_ask hready hgoes hask

theorem after {steps : List (Step C E g)} (h : k.Orderly sent taken checks (steps ++ rest)) :
    ∃ taken', taken ≤ taken' ∧
      (k.after steps).Orderly (sent ++ k.published steps) taken' (checks ++ k.fullChecks steps)
        rest := by
  induction steps generalizing k sent taken checks with
  | nil => exact ⟨taken, Nat.le_refl _, by simpa [Link.after, published, fullChecks, along] using h⟩
  | cons s later ih =>
    obtain ⟨taken', hle, hnext⟩ := h.next
    obtain ⟨taken'', hle', hafter⟩ := ih hnext
    refine ⟨taken'', Nat.le_trans hle hle', ?_⟩
    simpa [Link.after, published, fullChecks, along, List.append_assoc] using hafter

theorem after_waiting {between : List (Step C E g)}
    (h : k.Orderly sent taken checks (between ++ rest)) (hwaiting : k.producer.waiting = true)
    (hyes : false ∉ k.verdicts between) :
    (k.after between).producer.waiting = true ∧ k.published between = [] := by
  induction between generalizing k sent taken checks with
  | nil => exact ⟨hwaiting, rfl⟩
  | cons s later ih =>
    simp only [verdicts, along, List.mem_append, not_or] at hyes
    have hverdict : k.verdict? s ≠ some false := by
      intro hno
      exact hyes.1 (by simp [hno])
    obtain ⟨hwait, hsent⟩ := h.next_waiting hwaiting hverdict
    obtain ⟨taken', -, hnext⟩ := h.next
    obtain ⟨hlast, hnone⟩ := ih hnext hwait hyes.2
    refine ⟨hlast, ?_⟩
    simp only [published, along, hsent, List.nil_append]
    exact hnone

theorem after_early {between : List (Step C E g)} {recorded : UInt64}
    (h : k.Orderly sent taken checks (between ++ rest)) (hwaiting : k.producer.waiting = true)
    (hlast : k.producer.lastCheck = recorded)
    (hearly : ∀ p ∈ k.askers between, ∀ t, p.now = .ok t →
      t.toNat < recorded.toNat + p.timeout.toNat) :
    false ∉ k.verdicts between ∧ (k.after between).producer.lastCheck = recorded := by
  induction between generalizing k sent taken checks with
  | nil => exact ⟨List.not_mem_nil, hlast⟩
  | cons s later ih =>
    have hfirst : ∀ p ∈ k.asker? s, ∀ t, p.now = .ok t →
        t.toNat < k.producer.lastCheck.toNat + p.timeout.toNat := by
      intro p hp
      rw [hlast]
      apply hearly
      simp only [askers, along, List.mem_append]
      exact .inl (Option.mem_toList.mpr hp)
    obtain ⟨hverdict, hsame⟩ := h.next_early hwaiting hfirst
    obtain ⟨hwait, -⟩ := h.next_waiting hwaiting hverdict
    obtain ⟨taken', -, hnext⟩ := h.next
    obtain ⟨hnone, hafter⟩ := ih hnext hwait (hsame.trans hlast) (by
      intro p hp
      apply hearly
      simp only [askers, along, List.mem_append]
      exact .inr hp)
    refine ⟨?_, hafter⟩
    simp only [verdicts, along, List.mem_append, not_or]
    exact ⟨fun hno => hverdict (Option.mem_toList.mp hno), hnone⟩

end Orderly

/-! ## All runs -/

/-- The rules of waiting along a run. -/
structure BacksOff (k : Link C E g) (steps : List (Step C E g)) : Prop where
  /-- After a yes the shared index of the producer does not move before a no. -/
  silent : ∀ before s between rest, steps = before ++ s :: (between ++ rest) →
    (k.after before).verdict? s = some true →
    false ∉ ((k.after before).next s).verdicts between →
    (((k.after before).next s).after between).lane.ring.producerIndex =
      (k.after before).lane.ring.producerIndex
  /-- The no that ends a wait comes at the timeout after the last look that found the ring full, or
  later. -/
  waited : ∀ before s between s' rest, steps = before ++ s :: (between ++ s' :: rest) →
    (k.after before).verdict? s = some true →
    false ∉ ((k.after before).next s).verdicts between →
    (((k.after before).next s).after between).verdict? s' = some false →
    ∃ recorded p t, (k.fullChecks (before ++ s :: between)).getLast? = some recorded ∧
      (((k.after before).next s).after between).asker? s' = some p ∧ p.now = .ok t ∧
      recorded.toNat + p.timeout.toNat ≤ t.toNat
  /-- A slot that was found is free, and stays free until this producer publishes. -/
  kept : ∀ before s between rest, steps = before ++ s :: (between ++ rest) →
    (k.after before).verdict? s = some false →
    (k.after before).lane.ring.backlog < g.slots ∧
      (((k.after before).next s).published between = [] →
        (((k.after before).next s).after between).lane.ring.backlog < g.slots)
  /-- A slot that the consumer gave back since a look that found the ring full is found by the first
  question that comes at the timeout after the look, or later, and it ends the wait. -/
  freed : ∀ before s between s' rest recorded p t,
    steps = before ++ s :: (between ++ s' :: rest) →
    (k.after before).fullCheck? s = some recorded →
    (∀ q ∈ ((k.after before).next s).askers between, ∀ u, q.now = .ok u →
      u.toNat < recorded.toNat + q.timeout.toNat) →
    (((k.after before).next s).after between).lane.ring.consumerIndex ≠
      (k.after before).lane.ring.consumerIndex →
    (((k.after before).next s).after between).asker? s' = some p → p.now = .ok t →
    recorded.toNat + p.timeout.toNat ≤ t.toNat →
    (((k.after before).next s).after between).producer.waiting = true ∧
      (((k.after before).next s).after between).verdict? s' = some false ∧
      ((((k.after before).next s).after between).next s').producer.waiting = false

variable [LawfulEncoder E g]

namespace Orderly

variable {between rest : List (Step C E g)} {s s' : Step C E g}

theorem silent (h : k.Orderly sent taken checks (s :: (between ++ rest)))
    (hyes : k.verdict? s = some true) (hnone : false ∉ (k.next s).verdicts between) :
    ((k.next s).after between).lane.ring.producerIndex = k.lane.ring.producerIndex := by
  obtain ⟨hwaiting, hsent⟩ := waiting_of_verdict hyes
  obtain ⟨taken', -, hnext⟩ := h.next
  obtain ⟨-, hpublished⟩ := hnext.after_waiting hwaiting hnone
  obtain ⟨taken'', -, hafter⟩ := hnext.after
  -- the index counts what was published, and that is nothing
  have hindex := hafter.sound.feeds.ring.producerIndex
  rw [hsent, hpublished, List.append_nil, List.append_nil] at hindex
  exact hindex.trans h.sound.feeds.ring.producerIndex.symm

theorem waited (h : k.Orderly sent taken checks (s :: (between ++ s' :: rest)))
    (hyes : k.verdict? s = some true) (hnone : false ∉ (k.next s).verdicts between)
    (hno : ((k.next s).after between).verdict? s' = some false) :
    ∃ recorded p t,
      (checks ++ (k.fullCheck? s).toList ++ (k.next s).fullChecks between).getLast? =
        some recorded ∧
      ((k.next s).after between).asker? s' = some p ∧ p.now = .ok t ∧
      recorded.toNat + p.timeout.toNat ≤ t.toNat := by
  obtain ⟨hwaiting, -⟩ := waiting_of_verdict hyes
  obtain ⟨taken', -, hnext⟩ := h.next
  obtain ⟨hstill, -⟩ := hnext.after_waiting hwaiting hnone
  obtain ⟨taken'', -, hafter⟩ := hnext.after
  generalize (k.next s).after between = m at hstill hafter hno ⊢
  cases hask : m.asker? s' with
  | none => simp [verdict?, hask] at hno
  | some p =>
    obtain ⟨hsame, hrecorded, t, hnow, hle⟩ := hafter.asker_of_waiting hstill hask
    refine ⟨p.lastCheck, p, t, hrecorded, rfl, hnow, ?_⟩
    have hasking := p.asking m.lane.ring.consumerIndex
    simp only [verdict?, hask, Option.bind_some] at hno
    generalize p.isBlocked m.lane.ring.consumerIndex = asked at hasking hno
    cases hasking with
    | free hlooks hroom =>
      have hlate : ¬ t - p.lastCheck < p.timeout := by
        simpa [Producer.looks_eq, hsame ▸ hstill, hnow] using hlooks
      rw [sub_lt_iff hle] at hlate
      exact Nat.le_of_not_lt hlate
    | _ => cases hno

theorem kept (h : k.Orderly sent taken checks (s :: (between ++ rest)))
    (hno : k.verdict? s = some false) :
    k.lane.ring.backlog < g.slots ∧ ((k.next s).published between = [] →
      ((k.next s).after between).lane.ring.backlog < g.slots) := by
  have hslots := g.slots_pos
  have hfree : sent.length < taken + g.slots ∧ k.sentBy s = [] := by
    cases hask : k.asker? s with
    | none => simp [verdict?, hask] at hno
    | some p =>
      obtain ⟨-, -, -, -, -, -, -, hsent, hindex⟩ := producer_of_ask hask
      have hanswer : (p.isBlocked k.lane.ring.consumerIndex).1 = .ok false := by
        simp only [verdict?, hask, Option.bind_some] at hno
        cases hresult : (p.isBlocked k.lane.ring.consumerIndex).1 with
        | error fault => simp [hresult, Except.toOption] at hno
        | ok full => simpa [hresult, Except.toOption] using hno
      exact ⟨(h.sound.feeds.congr hindex).room_of_isBlocked hanswer, hsent⟩
  refine ⟨?_, fun hpublished => ?_⟩
  · rw [h.sound.feeds.ring.backlog_eq]
    omega
  · obtain ⟨taken', hle, hnext⟩ := h.next
    obtain ⟨taken'', hle', hafter⟩ := hnext.after
    -- the consumer only makes more room
    rw [hafter.sound.feeds.ring.backlog_eq, hfree.2, hpublished, List.append_nil, List.append_nil]
    omega

theorem freed (h : k.Orderly sent taken checks (s :: (between ++ s' :: rest))) {recorded t : UInt64}
    {p : Producer (Clock C) E g} (hcheck : k.fullCheck? s = some recorded)
    (hearly : ∀ q ∈ (k.next s).askers between, ∀ u, q.now = .ok u →
      u.toNat < recorded.toNat + q.timeout.toNat)
    (hmoved : ((k.next s).after between).lane.ring.consumerIndex ≠ k.lane.ring.consumerIndex)
    (hask : ((k.next s).after between).asker? s' = some p) (hnow : p.now = .ok t)
    (hlate : recorded.toNat + p.timeout.toNat ≤ t.toNat) :
    ((k.next s).after between).producer.waiting = true ∧
      ((k.next s).after between).verdict? s' = some false ∧
      (((k.next s).after between).next s').producer.waiting = false := by
  obtain ⟨hyes, hlast, hfull⟩ := recorded_of_fullCheck hcheck
  obtain ⟨hwaiting, hsent⟩ := waiting_of_verdict hyes
  obtain ⟨taken', hle, hnext⟩ := h.next
  obtain ⟨hnone, hsame⟩ := hnext.after_early hwaiting hlast hearly
  obtain ⟨hstill, hpublished⟩ := hnext.after_waiting hwaiting hnone
  obtain ⟨taken'', hle', hafter⟩ := hnext.after
  rw [hsent, hpublished, List.append_nil, List.append_nil] at hafter
  generalize (k.next s).after between = m at *
  obtain ⟨hself, -, t', hnow', hafterLast⟩ := hafter.asker_of_waiting hstill hask
  cases hnow.symm.trans hnow'
  -- the ring was full at the look, and a packet was taken since
  have hroom : Ring.isFull g p.index m.lane.ring.consumerIndex ≠ true := by
    have htaken : taken ≠ taken'' := by
      rintro rfl
      exact hmoved (hafter.sound.feeds.ring.consumerIndex.trans
        h.sound.feeds.ring.consumerIndex.symm)
    have hbefore := h.sound.feeds.isFull_iff.mp hfull
    rw [hself, Ne, hafter.sound.feeds.isFull_iff]
    omega
  have hwait : ¬ t - p.lastCheck < p.timeout := by
    rw [sub_lt_iff hafterLast, hself, hsame, ← hself]
    exact Nat.not_lt.mpr hlate
  obtain ⟨encoder, packet, dropped, tracing, hproducer, -, -, -, -⟩ := producer_of_ask hask
  have hasking := p.asking m.lane.ring.consumerIndex
  refine ⟨hstill, ?_⟩
  simp only [verdict?, hask, Option.bind_some]
  rw [hproducer]
  generalize p.isBlocked m.lane.ring.consumerIndex = asked at hasking
  cases hasking with
  | timeless herror => cases herror.symm.trans hnow
  | early _ hagain hearly' =>
    cases hagain.symm.trans hnow
    exact absurd hearly' hwait
  | full _ _ hfull' => exact absurd hfull' hroom
  | free _ _ => exact ⟨rfl, rfl⟩

end Orderly

omit [LawfulEncoder E g] in
theorem orderly_new {grid : Grid} {core : Core} {clock : Clock C} {encoder : E} {timeout : UInt64}
    {sink : Sink} {steps : List (Step C E g)}
    (hdisciplined : isDisciplined false (new grid core clock encoder timeout sink) steps = true)
    (hsteady : isSteady false (new grid core clock encoder timeout sink) steps = true) :
    (new grid core clock encoder timeout sink).Orderly [] 0 [] steps :=
  ⟨sound_new grid core clock encoder timeout sink, false, false,
    ready_new grid core clock encoder timeout sink,
    paced_new grid core clock encoder timeout sink, hdisciplined, hsteady⟩

/-- The law of waiting. In every disciplined run on a clock that does not go back, with any timeout
and whatever the consumer does: after a yes nothing is published before a no; the no that ends a
wait does not come before the timeout; it is kept until the next packet is published; and it comes
as soon as a slot was given back and the timeout has passed. -/
theorem backsOff_after (grid : Grid) (core : Core) (clock : Clock C) (encoder : E)
    (timeout : UInt64) (sink : Sink) {steps : List (Step C E g)}
    (hdisciplined : isDisciplined false (new grid core clock encoder timeout sink) steps = true)
    (hsteady : isSteady false (new grid core clock encoder timeout sink) steps = true) :
    (new grid core clock encoder timeout sink).BacksOff steps := by
  have hnew := orderly_new hdisciplined hsteady
  generalize (new grid core clock encoder timeout sink : Link C E g) = k at hnew
  -- each rule is one of the link after the steps before
  have hsplit : ∀ before rest, steps = before ++ rest →
      ∃ sent taken, (k.after before).Orderly sent taken (k.fullChecks before) rest := by
    rintro before rest rfl
    obtain ⟨taken, -, hafter⟩ := hnew.after
    exact ⟨_, taken, hafter⟩
  refine ⟨?_, ?_, ?_, ?_⟩
  · intro before s between rest hsteps hyes hnone
    obtain ⟨sent, taken, hbefore⟩ := hsplit before _ hsteps
    exact hbefore.silent hyes hnone
  · intro before s between s' rest hsteps hyes hnone hno
    obtain ⟨sent, taken, hbefore⟩ := hsplit before _ hsteps
    have hchecks : k.fullChecks (before ++ s :: between) = k.fullChecks before ++
        ((k.after before).fullCheck? s).toList ++ ((k.after before).next s).fullChecks between := by
      rw [List.append_assoc]
      exact along_append next _ k before (s :: between)
    rw [hchecks]
    exact hbefore.waited hyes hnone hno
  · intro before s between rest hsteps hno
    obtain ⟨sent, taken, hbefore⟩ := hsplit before _ hsteps
    exact hbefore.kept hno
  · intro before s between s' rest recorded p t hsteps hcheck hearly hmoved hask hnow hlate
    obtain ⟨sent, taken, hbefore⟩ := hsplit before _ hsteps
    exact hbefore.freed hcheck hearly hmoved hask hnow hlate

/-- Two slots are filled. The next packet is dropped at the time 5, and the slot that the consumer
gives back is found at the timeout, and not before it. -/
def wait : List (Step (TickedCounter 16) Encoder .pair) :=
  [.call .startSession, .call .endPacket, .call .tryPacket, .call .endPacket,
    .clock fun k => (TickedClock.tick k 5).2, .call .tryPacket, .move ⟨0, 0⟩ 0 false,
    .clock fun k => (TickedClock.tick k 9).2, .call .isBlocked,
    .clock fun k => (TickedClock.tick k 1).2, .call .isBlocked, .call .startPacket,
    .call .endPacket]

/-- A new link with two slots of 32 bytes and a timeout of 10. -/
def patient : Link (TickedCounter 16) Encoder .pair :=
  new .single ⟨0, 0⟩ (TickedClock.new 16) .new 10 .accepting

theorem backsOff_after_wait :
    isDisciplined false patient wait = true ∧ isSteady false patient wait = true ∧
      patient.verdicts wait = [false, false, true, true, false] ∧ patient.fullChecks wait = [5] ∧
      patient.BacksOff wait := by
  have hdisciplined : isDisciplined false patient wait = true := by decide +kernel
  have hsteady : isSteady false patient wait = true := by decide +kernel
  exact ⟨hdisciplined, hsteady, by decide +kernel, by decide +kernel,
    backsOff_after .single ⟨0, 0⟩ (TickedClock.new 16) Encoder.new 10 .accepting hdisciplined
      hsteady⟩

end Link

end TraceRing
