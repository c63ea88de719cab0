import TraceRing.Proofs.Producer.Backoff

/-!
# The pace of looks

A producer that waits for a free slot looks at the ring at most once in each timeout, and between
two looks it cannot tell one ring from another (`Producer.WaitsOut`).

Both laws hold whatever the ring is like and whatever the producer does. A `Beat` is a step of a
producer with the ring as it is found at that time, and the clock may go on within the beat, between
the reading before a look and the one after it. Steps of a `Link` are beats in which the clock
stands still (`Link.producer_after`).
-/

namespace TraceRing

variable {g : Geometry} {C E : Type} {bits : Nat} [Countdown C bits]

namespace Producer

/-! ## Questions that take their time -/

/-- How a look can go: the clock cannot be read after it, a wait starts with the reading after it,
or a slot is free. -/
theorem look_cases (p : Producer (Clock C) E g) (consumerIndex : UInt32) :
    (∃ fault, (p.look consumerIndex).1 = .error fault ∧
      (p.look consumerIndex).2.now = .error fault) ∨
    ((p.look consumerIndex).1 = .ok true ∧ (p.look consumerIndex).2.waiting = true ∧
      (p.look consumerIndex).2.now = .ok (p.look consumerIndex).2.lastCheck) ∨
    (p.look consumerIndex).1 = .ok false := by
  simp only [look]
  split
  · next hfull =>
    split
    · next fault hnow => exact .inl ⟨fault, rfl, hnow⟩
    · next t hnow => exact .inr (.inl ⟨rfl, hfull, hnow⟩)
  · exact .inr (.inr rfl)

/-- A question that leads to a look goes as the look does. -/
theorem isBlockedAmid_of_looks {p : Producer (Clock C) E g} (h : p.looks = true)
    (work : Clock C → Clock C) (consumerIndex : UInt32) :
    let asked := p.isBlockedAmid work consumerIndex
    (∃ fault, asked.1 = .error fault ∧ asked.2.now = .error fault) ∨
    (asked.1 = .ok true ∧ asked.2.waiting = true ∧ asked.2.now = .ok asked.2.lastCheck) ∨
    asked.1 = .ok false := by
  unfold looks at h
  unfold isBlockedAmid
  generalize p.isDue = due at h ⊢
  obtain ⟨_ | _ | _, p'⟩ := due
  · cases h
  · cases h
  · exact look_cases _ consumerIndex

/-- It is time to look, or nothing happens. -/
theorem isDue_of_not_looks {p : Producer (Clock C) E g} (h : p.looks = false) :
    p.isDue.1 ≠ .ok true ∧ p.isDue.2 = p := by
  refine ⟨fun hdue => ?_, ?_⟩
  · rw [looks, hdue] at h
    cases h
  · rw [looks_eq] at h
    unfold isDue
    split
    · next hwaiting =>
      rw [if_pos hwaiting] at h
      split
      · rfl
      · next t hnow =>
        have hwait : t - p.lastCheck < p.timeout := by simpa [hnow] using h
        rw [if_pos hwait]
    · rfl

/-- A question that does not lead to a look is not answered with no, and it is answered alike at all
rings. -/
theorem isBlockedAmid_of_not_looks {p : Producer (Clock C) E g} (h : p.looks = false) :
    ∃ a, a ≠ .ok false ∧ ∀ work consumerIndex, p.isBlockedAmid work consumerIndex = (a, p) := by
  obtain ⟨hnot, hkept⟩ := isDue_of_not_looks h
  unfold isBlockedAmid
  generalize p.isDue = due at hnot hkept
  obtain ⟨_ | _ | _, p'⟩ := due
  · exact ⟨.error _, nofun, fun _ _ => congrArg (Prod.mk _) hkept⟩
  · exact ⟨.ok true, nofun, fun _ _ => congrArg (Prod.mk _) hkept⟩
  · exact absurd rfl hnot

end Producer

/-! ## Beats -/

/-- A step of a producer. -/
structure Beat (C E : Type) (g : Geometry) where
  /-- The ring as the producer finds it. -/
  ring : Ring g
  step : Link.Step C E g
  /-- What happens to the clock while the producer asks for a free slot. -/
  work : Clock C → Clock C

/-- What the questions of a producer's user are answered. -/
inductive Answer where
  | truth (answer : Except Fault Bool)
  | time (answer : Except Fault UInt64)
  | nothing

/-- Whether a step is a question, or something that happens to the clock. -/
def Link.Step.isQuery : Link.Step C E g → Bool
  | .call .isBlocked | .call .tryPacket | .call .now | .clock _ => true
  | _ => false

variable [PacketEncoder E g]

namespace Producer

/-- A producer and a ring. -/
def link (p : Producer (Clock C) E g) (r : Ring g) : Link C E g :=
  ⟨p, Lane.new r .accepting⟩

/-- The producer after a beat. -/
def beat (p : Producer (Clock C) E g) (b : Beat C E g) : Producer (Clock C) E g :=
  match b.step with
  | .call .isBlocked => (p.isBlockedAmid b.work b.ring.consumerIndex).2
  | .call .tryPacket => (p.tryPacketAmid b.work b.ring.consumerIndex).2
  | .call .startSession => (p.startSessionAmid b.work b.ring.consumerIndex).2
  | s => ((p.link b.ring).next s).producer

def answer (p : Producer (Clock C) E g) (b : Beat C E g) : Answer :=
  match b.step with
  | .call .isBlocked => .truth (p.isBlockedAmid b.work b.ring.consumerIndex).1
  | .call .tryPacket => .truth (p.tryPacketAmid b.work b.ring.consumerIndex).1
  | .call .now => .time p.now
  | _ => .nothing

/-- The producer that asks for a free slot in a beat. -/
def asker? (p : Producer (Clock C) E g) (b : Beat C E g) : Option (Producer (Clock C) E g) :=
  (p.link b.ring).asker? b.step

/-- What is answered to the question of a beat: whether no slot is free. -/
def verdict? (p : Producer (Clock C) E g) (b : Beat C E g) : Option Bool :=
  (p.asker? b).bind fun q => (q.isBlockedAmid b.work b.ring.consumerIndex).1.toOption

/-- Whether the shared consumer index is loaded to answer the question of a beat. -/
def loads (p : Producer (Clock C) E g) (b : Beat C E g) : Bool :=
  (p.asker? b).any looks

/-- Whether the clock is read before and after a beat that does not reset it, and shows no earlier
time then. -/
def goesOn (p : Producer (Clock C) E g) (b : Beat C E g) : Bool :=
  !(p.link b.ring).resets b.step &&
    match p.now, (p.beat b).now with
    | .ok t, .ok t' => decide (t ≤ t')
    | _, _ => false

def after (p : Producer (Clock C) E g) (beats : List (Beat C E g)) : Producer (Clock C) E g :=
  beats.foldl beat p

/-- Whether the clock goes on in each beat. -/
def isSteady (p : Producer (Clock C) E g) (beats : List (Beat C E g)) : Bool :=
  (along beat (fun p b => [p.goesOn b]) p beats).all id

def verdicts (p : Producer (Clock C) E g) (beats : List (Beat C E g)) : List Bool :=
  along beat (fun p b => (p.verdict? b).toList) p beats

/-- The producers that ask in some beats, each as it stands when it asks. -/
def askers (p : Producer (Clock C) E g) (beats : List (Beat C E g)) :
    List (Producer (Clock C) E g) :=
  along beat (fun p b => (p.asker? b).toList) p beats

/-- The answers in some beats, and the producers they leave. -/
def outcomes (p : Producer (Clock C) E g) (beats : List (Beat C E g)) :
    List (Answer × Producer (Clock C) E g) :=
  along beat (fun p b => [(p.answer b, p.beat b)]) p beats

end Producer

namespace Link

/-- The steps of a run, with the rings that the producer finds. -/
def beats (k : Link C E g) (steps : List (Step C E g)) : List (Beat C E g) :=
  along next (fun k s => [⟨k.lane.ring, s, id⟩]) k steps

/-- A step is a beat in which the clock stands still. -/
theorem producer_next (k : Link C E g) (s : Step C E g) :
    (k.next s).producer = k.producer.beat ⟨k.lane.ring, s, id⟩ := by
  cases s with
  | call c => cases c <;> rfl
  | _ => rfl

/-- The producer of a link goes through the beats of the run, so that the laws of waiting hold in
every run of a link. -/
theorem producer_after (k : Link C E g) (steps : List (Step C E g)) :
    (k.after steps).producer = k.producer.after (k.beats steps) := by
  induction steps generalizing k with
  | nil => rfl
  | cons s rest ih =>
    have hrest := ih (k.next s)
    rw [producer_next] at hrest
    exact hrest

end Link

namespace Producer

/-! ## Questions in a run -/

/-- A beat that asks does with what is remembered of looks what the question does. -/
theorem kept_of_ask {p q : Producer (Clock C) E g} {b : Beat C E g} (hask : p.asker? b = some q) :
    (p.beat b).waiting = (q.isBlockedAmid b.work b.ring.consumerIndex).2.waiting ∧
      (p.beat b).lastCheck = (q.isBlockedAmid b.work b.ring.consumerIndex).2.lastCheck ∧
      (p.beat b).clock = (q.isBlockedAmid b.work b.ring.consumerIndex).2.clock := by
  obtain ⟨ring, step, work⟩ := b
  cases step with
  | call c =>
    cases c with
    | isBlocked =>
      cases hask
      exact ⟨rfl, rfl, rfl⟩
    | tryPacket =>
      cases hask
      obtain ⟨encoder, packet, dropped, htry, -⟩ :=
        proceed_snd (p.isBlockedAmid work ring.consumerIndex)
      simp only [beat, tryPacketAmid, htry]
      exact ⟨rfl, rfl, rfl⟩
    | startSession =>
      cases htracing : p.tracing with
      | true => simp [asker?, Link.asker?, link, htracing] at hask
      | false =>
        simp only [asker?, Link.asker?, link, htracing, Bool.false_eq_true, if_false,
          Option.some.injEq] at hask
        subst hask
        obtain ⟨encoder, packet, dropped, htry, -⟩ :=
          proceed_snd (p.blank.isBlockedAmid work ring.consumerIndex)
        simp only [beat]
        rw [startSessionAmid_of_idle htracing, tryPacketAmid, htry]
        exact ⟨rfl, rfl, rfl⟩
    | _ => cases hask
  | _ => cases hask

/-- A beat without a question, on a clock that is not reset, leaves alone what is remembered of
looks. -/
theorem kept_of_quiet {p : Producer (Clock C) E g} {b : Beat C E g} (hask : p.asker? b = none)
    (hreset : (p.link b.ring).resets b.step = false) :
    (p.beat b).waiting = p.waiting ∧ (p.beat b).lastCheck = p.lastCheck := by
  have hkept := Link.kept_of_quiet hask hreset
  obtain ⟨ring, step, work⟩ := b
  cases step with
  | call c =>
    cases c with
    | isBlocked => cases hask
    | tryPacket => cases hask
    | startSession =>
      have htracing : p.tracing = true := by simpa [Link.resets, link] using hreset
      simp [beat, startSessionAmid, htracing]
    | _ => exact hkept
  | _ => exact hkept

theorem goesOn_iff {p : Producer (Clock C) E g} {b : Beat C E g} :
    p.goesOn b = true ↔ (p.link b.ring).resets b.step = false ∧
      ∃ t t', p.now = .ok t ∧ (p.beat b).now = .ok t' ∧ t ≤ t' := by
  unfold goesOn
  cases hnow : p.now <;> cases hnow' : (p.beat b).now <;> simp

/-- A clock that goes on in a beat can be read before it. -/
theorem now_of_steady {p : Producer (Clock C) E g} {between : List (Beat C E g)} {b : Beat C E g}
    (h : p.isSteady (between ++ [b]) = true) : ∃ t, p.now = .ok t := by
  cases between with
  | nil =>
    have hgoes : p.goesOn b = true := by simpa [isSteady, along] using h
    obtain ⟨-, t, -, hnow, -⟩ := goesOn_iff.mp hgoes
    exact ⟨t, hnow⟩
  | cons first rest =>
    simp only [isSteady, List.cons_append, along, List.all_cons, id, Bool.and_eq_true] at h
    obtain ⟨-, t, -, hnow, -⟩ := goesOn_iff.mp h.1
    exact ⟨t, hnow⟩

omit [PacketEncoder E g] in
/-- The producer asks as it is, unless a session starts. -/
theorem eq_of_ask {p q : Producer (Clock C) E g} {b : Beat C E g} (hask : p.asker? b = some q)
    (hreset : (p.link b.ring).resets b.step = false) : q = p := by
  rcases Link.eq_of_ask hask with hself | ⟨-, hstarts⟩
  · exact hself
  · rw [hreset] at hstarts
    cases hstarts

/-! ## The rate of looks -/

/-- The producer has waited since some time at least. -/
structure Waits (p : Producer (Clock C) E g) (since : UInt64) : Prop where
  waiting : p.waiting = true
  since_le : since ≤ p.lastCheck
  past : ∃ t, p.now = .ok t ∧ p.lastCheck ≤ t

omit [PacketEncoder E g] in
/-- A wait goes on while what is remembered of looks is left alone. -/
theorem Waits.congr {p p' : Producer (Clock C) E g} {since t t' : UInt64} (h : p.Waits since)
    (hwaiting : p'.waiting = p.waiting) (hlast : p'.lastCheck = p.lastCheck)
    (hnow : p.now = .ok t) (hnow' : p'.now = .ok t') (hle : t ≤ t') : p'.Waits since := by
  obtain ⟨u, hu, hpast⟩ := h.past
  cases hnow.symm.trans hu
  refine ⟨hwaiting.trans h.waiting, hlast ▸ h.since_le, t', hnow', ?_⟩
  rw [hlast]
  exact UInt64.le_trans hpast hle

/-- A look that finds the ring full starts a wait from the time after it. -/
theorem waits_of_load {p : Producer (Clock C) E g} {b : Beat C E g} {t : UInt64}
    (hloads : p.loads b = true) (hfull : p.verdict? b = some true)
    (hnow : (p.beat b).now = .ok t) : (p.beat b).Waits t := by
  cases hask : p.asker? b with
  | none => simp [verdict?, hask] at hfull
  | some q =>
    obtain ⟨hwaiting, hlast, hclock⟩ := kept_of_ask hask
    simp only [loads, hask, Option.any_some] at hloads
    simp only [verdict?, hask, Option.bind_some] at hfull
    rcases isBlockedAmid_of_looks hloads b.work b.ring.consumerIndex with
      ⟨fault, herror, -⟩ | ⟨-, hwait, hread⟩ | hno
    · rw [herror] at hfull
      cases hfull
    · rw [now, ← hclock, ← hlast] at hread
      cases hread.symm.trans hnow
      exact ⟨hwaiting.trans hwait, UInt64.le_refl _, _, hnow, UInt64.le_refl _⟩
    · rw [hno] at hfull
      cases hfull

/-- A wait goes on as long as no slot is found. -/
theorem Waits.beat {p : Producer (Clock C) E g} {b : Beat C E g} {since : UInt64}
    (h : p.Waits since) (hgoes : p.goesOn b = true) (hnone : p.verdict? b ≠ some false) :
    (p.beat b).Waits since := by
  obtain ⟨hreset, t, t', hnow, hnow', hle⟩ := goesOn_iff.mp hgoes
  cases hask : p.asker? b with
  | none =>
    obtain ⟨hwaiting, hlast⟩ := kept_of_quiet hask hreset
    exact h.congr hwaiting hlast hnow hnow' hle
  | some q =>
    obtain rfl := eq_of_ask hask hreset
    obtain ⟨hwaiting, hlast, hclock⟩ := kept_of_ask hask
    simp only [verdict?, hask, Option.bind_some] at hnone
    cases hlooks : q.looks with
    | false =>
      obtain ⟨a, -, ha⟩ := isBlockedAmid_of_not_looks hlooks
      rw [ha] at hwaiting hlast
      exact h.congr hwaiting hlast hnow hnow' hle
    | true =>
      rcases isBlockedAmid_of_looks hlooks b.work b.ring.consumerIndex with
        ⟨fault, -, hread⟩ | ⟨-, hwait, hread⟩ | hno
      · rw [now, ← hclock] at hread
        cases hread.symm.trans hnow'
      · rw [now, ← hclock, ← hlast] at hread
        cases hread.symm.trans hnow'
        -- the new wait starts later than the one before
        obtain ⟨u, hu, hpast⟩ := h.past
        cases hnow.symm.trans hu
        have hsince := UInt64.le_trans h.since_le (UInt64.le_trans hpast hle)
        exact ⟨hwaiting.trans hwait, hsince, _, hnow', UInt64.le_refl _⟩
      · exact absurd (congrArg Except.toOption hno) hnone

theorem Waits.after {p : Producer (Clock C) E g} {beats : List (Beat C E g)} {since : UInt64}
    (h : p.Waits since) (hsteady : p.isSteady beats = true) (hnone : false ∉ p.verdicts beats) :
    (p.after beats).Waits since := by
  induction beats generalizing p with
  | nil => exact h
  | cons b rest ih =>
    simp only [isSteady, along, List.singleton_append, List.all_cons, id, Bool.and_eq_true]
      at hsteady
    simp only [verdicts, along, List.mem_append, not_or, Option.mem_toList] at hnone
    exact ih (h.beat hsteady.1 hnone.1) hsteady.2 hnone.2

omit [PacketEncoder E g] in
/-- A producer that waits looks when the timeout has passed since the last look, or later. -/
theorem Waits.le_of_load {p : Producer (Clock C) E g} {b : Beat C E g} {since : UInt64}
    (h : p.Waits since) (hreset : (p.link b.ring).resets b.step = false)
    (hloads : p.loads b = true) :
    ∃ t, p.now = .ok t ∧ since.toNat + p.timeout.toNat ≤ t.toNat := by
  obtain ⟨t, hnow, hpast⟩ := h.past
  cases hask : p.asker? b with
  | none => simp [loads, hask] at hloads
  | some q =>
    obtain rfl := eq_of_ask hask hreset
    have hlate : ¬ t - q.lastCheck < q.timeout := by
      simpa [loads, hask, looks_eq, h.waiting, hnow] using hloads
    rw [sub_lt_iff hpast] at hlate
    have hsince := UInt64.le_iff_toNat_le.mp h.since_le
    exact ⟨t, hnow, by omega⟩

/-! ## One ring for another -/

/-- Whether the timeout since the last look of a producer has not passed yet for another, as far as
its clock can be read. -/
def IsEarly (p q : Producer (Clock C) E g) : Prop :=
  ∀ t, q.now = .ok t →
    p.lastCheck ≤ t ∧ t.toNat < p.lastCheck.toNat + p.timeout.toNat

omit [PacketEncoder E g] in
theorem looks_of_early {p : Producer (Clock C) E g} (hwaiting : p.waiting = true)
    (hearly : p.IsEarly p) : p.looks = false := by
  rw [looks_eq, if_pos hwaiting]
  split
  · next t hnow =>
    obtain ⟨hle, hlt⟩ := hearly t hnow
    simp [(sub_lt_iff hle).mpr hlt]
  · rfl

/-- A beat that does not load the shared index does the same at every ring. -/
theorem beat_of_not_loads {p : Producer (Clock C) E g} {b b' : Beat C E g}
    (hstep : b.step = b'.step) (hquery : b.step.isQuery = true) (hloads : p.loads b = false) :
    p.answer b = p.answer b' ∧ p.beat b = p.beat b' ∧ (p.beat b).waiting = p.waiting ∧
      (p.beat b).lastCheck = p.lastCheck ∧ (p.beat b).timeout = p.timeout := by
  obtain ⟨ring, step, work⟩ := b
  obtain ⟨ring', step', work'⟩ := b'
  cases hstep
  cases step with
  | call c =>
    cases c with
    | isBlocked =>
      obtain ⟨a, -, ha⟩ := isBlockedAmid_of_not_looks (p := p) hloads
      simp [answer, beat, ha]
    | tryPacket =>
      obtain ⟨a, hyes, ha⟩ := isBlockedAmid_of_not_looks (p := p) hloads
      simp only [answer, beat, tryPacketAmid, ha, true_and]
      obtain _ | _ | _ := a
      · exact ⟨rfl, rfl, rfl⟩
      · exact absurd rfl hyes
      · exact ⟨rfl, rfl, rfl⟩
    | now => exact ⟨rfl, rfl, rfl, rfl, rfl⟩
    | _ => cases hquery
  | clock work => exact ⟨rfl, rfl, rfl, rfl, rfl⟩
  | _ => cases hquery

omit [PacketEncoder E g] in
/-- No early beat loads it. -/
theorem loads_of_early {p : Producer (Clock C) E g} {b : Beat C E g}
    (hquery : b.step.isQuery = true) (hwaiting : p.waiting = true)
    (hearly : ∀ q, p.asker? b = some q → p.IsEarly q) : p.loads b = false := by
  obtain ⟨ring, step, work⟩ := b
  cases step with
  | call c =>
    cases c with
    | isBlocked => exact looks_of_early hwaiting (hearly p rfl)
    | tryPacket => exact looks_of_early hwaiting (hearly p rfl)
    | now => rfl
    | _ => cases hquery
  | clock work => rfl
  | _ => cases hquery

/-- Two runs of the same queries answer the same and leave the same producers as long as all
questions in one of them are early. -/
theorem outcomes_of_early {first p : Producer (Clock C) E g} {beats beats' : List (Beat C E g)}
    (hsteps : beats.map Beat.step = beats'.map Beat.step)
    (hqueries : ∀ b ∈ beats, b.step.isQuery = true) (hwaiting : p.waiting = true)
    (hlast : p.lastCheck = first.lastCheck) (htimeout : p.timeout = first.timeout)
    (hearly : ∀ q ∈ p.askers beats, first.IsEarly q) : p.outcomes beats = p.outcomes beats' := by
  induction beats generalizing p beats' with
  | nil =>
    cases beats' with
    | nil => rfl
    | cons b' rest' => cases hsteps
  | cons b rest ih =>
    cases beats' with
    | nil => cases hsteps
    | cons b' rest' =>
      obtain ⟨hstep, hrest⟩ := List.cons.inj hsteps
      obtain ⟨hquery, hqueries⟩ := List.forall_mem_cons.mp hqueries
      simp only [askers, along, List.mem_append, Option.mem_toList] at hearly
      have hnow : ∀ q, p.asker? b = some q → p.IsEarly q := by
        intro q hask
        unfold IsEarly
        rw [hlast, htimeout]
        exact hearly q (.inl hask)
      obtain ⟨hanswer, hbeat, hwaiting', hlast', htimeout'⟩ :=
        beat_of_not_loads hstep hquery (loads_of_early hquery hwaiting hnow)
      have hlater := ih hrest hqueries (hwaiting'.trans hwaiting) (hlast'.trans hlast)
        (htimeout'.trans htimeout)
        fun q hq => hearly q (.inr hq)
      simp only [outcomes, along, hanswer] at hlater ⊢
      rw [hlater, hbeat]

/-! ## The laws of waiting -/

/-- What a producer does in a wait, whatever the ring is like. -/
structure WaitsOut (p : Producer (Clock C) E g) : Prop where
  /-- Between a look that found the ring full and another look in the same wait the timeout passes
  at least: from the time after the one to the time before the other. -/
  apart : ∀ (b : Beat C E g) (between : List (Beat C E g)) (b' : Beat C E g),
    p.loads b = true → p.verdict? b = some true →
    (p.beat b).isSteady (between ++ [b']) = true → false ∉ (p.beat b).verdicts between →
    ((p.beat b).after between).loads b' = true →
    ∃ t t', (p.beat b).now = .ok t ∧ ((p.beat b).after between).now = .ok t' ∧
      t.toNat + ((p.beat b).after between).timeout.toNat ≤ t'.toNat
  /-- Until the timeout since the last look has passed, no answer and nothing in the producer
  depends on the ring. -/
  blind : ∀ beats beats' : List (Beat C E g), beats.map Beat.step = beats'.map Beat.step →
    (∀ b ∈ beats, b.step.isQuery = true) → p.waiting = true →
    (∀ q ∈ p.askers beats, p.IsEarly q) → p.outcomes beats = p.outcomes beats'
  /-- A query for which the shared index is not loaded does the same at every ring. -/
  unlooked : ∀ b b' : Beat C E g, b.step = b'.step → b.step.isQuery = true → p.loads b = false →
    p.answer b = p.answer b' ∧ p.beat b = p.beat b'
  /-- The producer of a link goes through the beats of its run. -/
  linked : ∀ (k : Link C E g) (steps : List (Link.Step C E g)), k.producer = p →
    (k.after steps).producer = p.after (k.beats steps)

/-- The laws of waiting hold for every producer, in whatever state and with whatever timeout. -/
theorem waitsOut (p : Producer (Clock C) E g) : p.WaitsOut where
  apart b between b' hloads hfull hsteady hnone hloads' := by
    obtain ⟨t, hnow⟩ := now_of_steady hsteady
    simp only [isSteady, along_append, List.all_append, Bool.and_eq_true] at hsteady
    obtain ⟨hbetween, hlast⟩ := hsteady
    have hgoes : ((p.beat b).after between).goesOn b' = true := by
      simpa [along, after] using hlast
    -- the wait lasts up to the second look
    have hwaits := (waits_of_load hloads hfull hnow).after hbetween hnone
    obtain ⟨t', hnow', hle⟩ := hwaits.le_of_load (goesOn_iff.mp hgoes).1 hloads'
    exact ⟨t, t', hnow, hnow', hle⟩
  blind beats beats' hsteps hqueries hwaiting hearly :=
    outcomes_of_early hsteps hqueries hwaiting rfl rfl hearly
  unlooked b b' hstep hquery hloads :=
    have hsame := beat_of_not_loads hstep hquery hloads
    ⟨hsame.1, hsame.2.1⟩
  linked k steps hproducer := hproducer ▸ k.producer_after steps

/-- A question at a ring whose consumer index is `consumed`. The clock goes on by `ticks` while the
producer looks. -/
def question (consumed : UInt32) (ticks : Nat) : Beat (TickedCounter 16) Encoder .pair :=
  ⟨{ Ring.empty .pair with consumerIndex := consumed }, .call .isBlocked,
    fun k => (TickedClock.tick k ticks).2⟩

def pause (ticks : Nat) : Beat (TickedCounter 16) Encoder .pair :=
  ⟨Ring.empty .pair, .clock fun k => (TickedClock.tick k ticks).2, id⟩

/-- A producer that published two packets, with a timeout of 10. -/
def atTwo : Producer (TickedClock 16) Encoder .pair :=
  { (new .single ⟨0, 0⟩ (TickedClock.new 16) Encoder.new 10).restart with index := 2 }

/-- The clock goes on to 5 while the ring is found full. The next look is at 15, and what the ring
is like at 14 does not matter. -/
theorem waitsOut_atTwo :
    atTwo.loads (question 0 5) = true ∧
    (∃ t t', (atTwo.beat (question 0 5)).now = .ok t ∧
      ((atTwo.beat (question 0 5)).after [pause 9, question 1 0, pause 1]).now = .ok t' ∧
      t.toNat + 10 ≤ t'.toNat) ∧
    (atTwo.beat (question 0 5)).outcomes [pause 9, question 0 0] =
      (atTwo.beat (question 0 5)).outcomes [pause 9, question 1 0] := by
  refine ⟨by decide +kernel, ?_, ?_⟩
  · exact (waitsOut atTwo).apart (question 0 5) [pause 9, question 1 0, pause 1] (question 0 0)
      (by decide +kernel) (by decide +kernel) (by decide +kernel) (by decide +kernel)
      (by decide +kernel)
  · refine (waitsOut (atTwo.beat (question 0 5))).blind _ _ rfl (by decide +kernel)
      (by decide +kernel) fun q hq t hnow => ?_
    have htime : ∀ q ∈ (atTwo.beat (question 0 5)).askers [pause 9, question 0 0],
        q.now.toOption = some 14 := by decide +kernel
    obtain rfl : t = 14 := by simpa [hnow, Except.toOption] using htime q hq
    decide +kernel

end Producer

end TraceRing
