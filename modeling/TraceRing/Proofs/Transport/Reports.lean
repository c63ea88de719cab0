import TraceRing.Proofs.Consumer.Closings
import TraceRing.Proofs.Consumer.Readings
import TraceRing.Proofs.Transport.Isolation
import TraceRing.Proofs.Transport.Silences

/-!
# What is reported of a core

The consumer reports the texts of a core as they change. Along any run, with whatever sinks and
requests to shut down, the reports of a core are the texts that the sweeps read there, without the
empty ones and without those that say the same as the one before (`Transport.reports_change`).
Nothing but sweeps reads or reports, and apart from the texts themselves a run does not depend on
them.
-/

namespace TraceRing

variable {bits : Nat} {g : Geometry}

/-- The end of the lanes reports no text. -/
theorem Consumer.textOf?_finish (grid : Grid) (lanes : List (Lane g)) (core : Core) :
    ∀ e ∈ (finish grid lanes).2, e.textOf? core = none := by
  intro e he
  rw [finish, events_finishFrom] at he
  obtain ⟨l, -, hl⟩ := List.mem_flatMap.mp he
  rw [Lane.closing, Lane.complaint] at hl
  cases hflush : l.1.sink.flushError with
  | none =>
    simp only [hflush, Option.map_none, Option.toList_none, List.map_nil, List.nil_append,
      List.mem_cons, List.not_mem_nil, or_false] at hl
    rcases hl with rfl | rfl <;> rfl
  | some source =>
    simp only [hflush, Option.map_some, Option.toList_some, List.map_cons, List.map_nil,
      List.cons_append, List.nil_append, List.mem_cons, List.not_mem_nil, or_false] at hl
    rcases hl with rfl | rfl | rfl <;> rfl

/-- A run of the consumer tells of its start and its stop, and reports nothing with it. -/
theorem Consumer.textsAt_run (grid : Grid) (verbose : Bool) (pollNanos : Nat)
    (lanes : List (Lane g)) (shutdown : Bool) (place : Nat) :
    textsAt grid place (run grid verbose pollNanos lanes shutdown).events =
      textsAt grid place (drain grid verbose lanes shutdown).events := by
  have hstart : ∀ events : List Event,
      textsAt grid place (startNotice grid pollNanos :: events) = textsAt grid place events :=
    fun _ => rfl
  have hstop : ∀ lanes : List (Lane g), textsAt grid place [stopNotice lanes] = [] :=
    fun _ => rfl
  simp only [run]
  split
  · rw [hstart, textsAt_append, hstop, List.append_nil]
    rfl
  · exact hstart _

namespace Transport

/-- The texts that the sweeps of a step read at a place. -/
def readingsBy (t : Transport bits g) (place : Nat) : Step g → List Bytes
  | .consumer .sweep =>
    if t.finished then [] else Consumer.readings t.lanes t.shutdown place
  | .consumer (.run _) =>
    if t.finished then []
    else Consumer.drainReadings t.grid t.verbose t.lanes t.shutdown place
  | _ => []

/-- The texts that the sweeps of a run read at a place. -/
def readings (t : Transport bits g) (place : Nat) (steps : List (Step g)) : List Bytes :=
  along next (fun t s => t.readingsBy place s) t steps

/-- The texts that are reported of the core at a place along a run. -/
def reports (t : Transport bits g) (place : Nat) (steps : List (Step g)) : List Bytes :=
  along next (fun t s => textsAt t.grid place (t.step s).events) t steps

/-! ## Steps -/

section Step

variable {t : Transport bits g} {place : Nat} {l : Lane g}

/-- What is reported of a lane in a step is the news of what the step read there. -/
def Informs (t : Transport bits g) (place : Nat) (l : Lane g) (s : Step g) : Prop :=
  ∃ l', (t.next s).lanes[place]? = some l' ∧
    l.Reports l' (t.readingsBy place s) (textsAt t.grid place (t.step s).events)

/-- A ring that is replaced is not read. -/
theorem reported_setRing {q : Nat} {r : Ring g} (hl : t.lanes[place]? = some l) :
    ∃ l', (t.setRing q r).lanes[place]? = some l' ∧ l'.reported = l.reported := by
  rw [getElem?_setRing, hl]
  refine ⟨_, rfl, ?_⟩
  split <;> rfl

theorem informs_producer (hl : t.lanes[place]? = some l) (i : Nat) (op : ProducerOp) :
    t.Informs place l (.producer i op) := by
  simp only [Informs, readingsBy, next, step, stepProducer]
  cases t.stations[i]? with
  | none => exact ⟨l, hl, .nothing rfl⟩
  | some s =>
    dsimp only
    cases t.lanes[s.place]? with
    | none => exact ⟨l, hl, .nothing rfl⟩
    | some l₀ =>
      have hsilent : textsAt t.grid place (runProducer s.producer l₀.ring op).1.2 = [] :=
        textsAt_eq_nil fun e he =>
          Event.textOf?_eq_none (isOf_runProducer t.grid place s.producer l₀.ring op he)
      obtain ⟨l', hl', hreported⟩ := reported_setRing (q := s.place)
        (r := (runProducer s.producer l₀.ring op).2.2)
        (t := { t with
          stations := t.stations.set i
            { s with producer := (runProducer s.producer l₀.ring op).2.1 } }) hl
      refine ⟨l', hl', ?_⟩
      rw [hsilent]
      exact .nothing hreported

theorem informs_ring (hl : t.lanes[place]? = some l) (q : Nat) (op : Ring.Op g) :
    t.Informs place l (.ring q op) := by
  simp only [Informs, readingsBy, next, step]
  cases t.lanes[q]? with
  | none => exact ⟨l, hl, .nothing rfl⟩
  | some l₀ =>
    obtain ⟨l', hl', hreported⟩ := reported_setRing (q := q) (r := (l₀.ring.run op).2) hl
    exact ⟨l', hl', .nothing hreported⟩

/-- A packet that is moved past the sweeps does not count as a reading. -/
theorem informs_move (hl : t.lanes[place]? = some l) (core : Core) :
    ∃ l', (t.stepMove core).transport.lanes[place]? = some l' ∧
      l.Reports l' [] (textsAt t.grid place (t.stepMove core).events) := by
  simp only [stepMove]
  cases hlane : t.laneOf core with
  | error fault => exact ⟨l, hl, .nothing rfl⟩
  | ok found =>
    obtain ⟨q, l₀⟩ := found
    have hl₀ := lanes_of_laneOf hlane
    dsimp only
    rw [textsAt_eq_nil (l₀.textOf?_move core _ q t.verbose), getElem?_set_of_some hl₀]
    split
    · next hplace =>
      subst hplace
      obtain rfl : l₀ = l := Option.some.inj (hl₀.symm.trans hl)
      exact ⟨_, rfl, .nothing (l₀.reported_move core q t.verbose)⟩
    · exact ⟨l, hl, .nothing rfl⟩

theorem informs_consumer (hl : t.lanes[place]? = some l) (op : ConsumerOp) :
    t.Informs place l (.consumer op) := by
  cases hfinished : t.finished with
  | true =>
    have hnone : t.readingsBy place (.consumer op) = [] := by
      cases op <;> simp [readingsBy, hfinished]
    simp only [Informs, hnone, next, step, hfinished, if_true]
    exact ⟨l, hl, .nothing rfl⟩
  | false =>
    simp only [Informs, next, step, hfinished, Bool.false_eq_true, if_false]
    cases op with
    | move core => exact informs_move hl core
    | sweep =>
      simp only [readingsBy, hfinished, Bool.false_eq_true, if_false]
      exact Consumer.reports_sweep t.grid t.verbose t.shutdown hl
    | run pollNanos =>
      simp only [readingsBy, hfinished, Bool.false_eq_true, if_false, runConsumer, ofPass,
        Consumer.lanes_run, Consumer.textsAt_run]
      exact Consumer.reports_drain t.grid t.verbose t.shutdown hl
    | consumed core => exact ⟨l, hl, .nothing rfl⟩
    | received core => exact ⟨l, hl, .nothing rfl⟩
    | finish =>
      have hsilent := textsAt_eq_nil (Consumer.textOf?_finish t.grid t.lanes (t.grid.coreAt place))
      refine ⟨l, hl, ?_⟩
      simp only [runConsumer, hsilent]
      exact .nothing rfl

theorem informs (hl : t.lanes[place]? = some l) (s : Step g) : t.Informs place l s := by
  cases s with
  | producer i op => exact informs_producer hl i op
  | edit i work =>
    simp only [Informs, readingsBy, next, step, stepEdit]
    cases t.stations[i]? <;> exact ⟨l, hl, .nothing rfl⟩
  | ring q op => exact informs_ring hl q op
  | setShutdown requested => exact ⟨l, hl, .nothing rfl⟩
  | consumer op => exact informs_consumer hl op

end Step

/-! ## Runs -/

/-- Along a run the reports of a core are the news of its readings. -/
theorem reports_after (t : Transport bits g) (steps : List (Step g)) {place : Nat} {l : Lane g}
    (hl : t.lanes[place]? = some l) :
    ∃ l', (t.after steps).lanes[place]? = some l' ∧
      l.Reports l' (t.readings place steps) (t.reports place steps) := by
  induction steps generalizing t l with
  | nil => exact ⟨l, hl, .nothing rfl⟩
  | cons s rest ih =>
    obtain ⟨middle, hmiddle, hfirst⟩ := informs hl s
    obtain ⟨l', hl', hlater⟩ := ih (t.next s) hmiddle
    exact ⟨l', hl', hfirst.append hlater⟩

/-- Texts are reported as they change. After any run from empty rings the texts reported of a core
are the texts that the sweeps read there, without the empty ones and with one of those that are
equal in a row; bytes that are no text are shown as such. What the run makes of everything else is
what it makes of it without the steps that write texts. -/
theorem reports_change {grid : Grid} {rings : Nat} {sinks : List Sink}
    {producers : List (Core × UInt64)} {verbose shutdown : Bool} {t : Transport bits g}
    (hbuild : build bits g grid rings sinks producers verbose shutdown = .ok t)
    (steps : List (Step g)) {place : Nat} (hplace : place < grid.count) :
    t.reports place steps =
      ((t.readings place steps).filter (· ≠ [])).destutter (· ≠ ·) ∧
    (∀ text, (Log.Notice.coreText (grid.coreAt place) text).message =
      "core " ++ (grid.coreAt place).display ++ ": " ++ Text.lossy text) ∧
    (t.after steps).mute = t.after (steps.filter (!·.isText)) := by
  have hlength : t.lanes.length = grid.count := Consumer.length_of_attach (parts_of_build hbuild).2
  obtain ⟨l, hl⟩ : ∃ l, t.lanes[place]? = some l :=
    ⟨_, List.getElem?_eq_getElem (hlength ▸ hplace)⟩
  obtain ⟨sink, -, rfl⟩ := lane_of_build hbuild hl
  obtain ⟨l', -, hreports⟩ := t.reports_after steps hl
  refine ⟨?_, fun _ => rfl, ?_⟩
  · rw [hreports.texts]
    exact news_eq_destutter _
  · have hafter := t.mute_after steps
    rwa [mute_of_build hbuild] at hafter

/-- Two cores with a producer each; the first write of the first core's sink fails. -/
def stumbling : Transport 16 .pair :=
  { sideBySide with
    lanes := [.new (.empty _) ⟨[⟨.fail (.reported .other "busy"), false⟩], none, []⟩,
      .new (.empty _) .accepting] }

/-- The second core writes texts, two of them of different bytes that are shown alike. One sweep
ends before it, an empty text is read between equal ones, and one text is overwritten before the
run of sweeps that would have read it. -/
def chatter : List (Step .pair) :=
  [.producer 0 .publishEvent, .producer 1 (.writeText [255]), .consumer .sweep, .consumer .sweep,
    .producer 1 (.writeText [254]), .consumer .sweep, .ring 1 (.writeText []), .consumer .sweep,
    .producer 1 (.writeText [254]), .consumer .sweep, .setShutdown true,
    .producer 1 (.writeText [104]), .consumer .sweep, .setShutdown false,
    .producer 1 (.writeText [105]), .producer 1 .publishEvent, .consumer (.run 0)]

theorem reports_change_of_chatter :
    build 16 .pair stumbling.grid 2 (stumbling.lanes.map Lane.sink) [(⟨0, 0⟩, 0), (⟨0, 1⟩, 0)]
      true false = .ok stumbling ∧
    1 < stumbling.grid.count ∧
    stumbling.readings 1 chatter = [[255], [254], [], [254], [105], [105]] ∧
    stumbling.reports 1 chatter = [[255], [254], [105]] ∧
    Text.lossy [255] = Text.lossy [254] ∧
    (stumbling.after chatter).mute = stumbling.after (chatter.filter (!·.isText)) := by
  have hbuild : build 16 .pair stumbling.grid 2 (stumbling.lanes.map Lane.sink)
      [(⟨0, 0⟩, 0), (⟨0, 1⟩, 0)] true false = .ok stumbling := rfl
  have hplace : 1 < stumbling.grid.count := by decide
  have hreadings : stumbling.readings 1 chatter = [[255], [254], [], [254], [105], [105]] := by
    decide +kernel
  obtain ⟨hreports, -, hmute⟩ := reports_change hbuild chatter hplace
  rw [hreadings] at hreports
  exact ⟨hbuild, hplace, hreadings, hreports, by decide +kernel, hmute⟩

end Transport

end TraceRing
