import TraceRing.Proofs.Consumer.Visits
import TraceRing.Proofs.Transport.Texts

/-!
# A transport without texts

Texts go from the cores to the operator and have no part in anything else. A transport that is
`muted` holds no text and has reported none. Every step that writes no text does the same to it as
to the transport itself, and a step that writes one does nothing to it at all
(`Transport.mute_next`). So what a run makes of everything but the texts is what the run makes of it
without the steps that write them (`Transport.mute_after`).
-/

namespace TraceRing

variable {bits : Nat} {g : Geometry}

/-! ## Rings -/

namespace Ring

/-- The ring with an empty text area. -/
def mute (r : Ring g) : Ring g :=
  { r with textArea := Vector.replicate _ 0 }

@[simp] theorem text_mute (r : Ring g) : r.mute.text = [] :=
  (text_congr rfl).trans (text_empty g)

@[simp] theorem mute_writeText (r : Ring g) (message : Bytes) :
    (r.writeText message).mute = r.mute := by
  simp only [mute, producerIndex_writeText, consumerIndex_writeText, packets_writeText]

theorem mute_run (r : Ring g) (op : Op g) :
    (r.run op).2.mute = if op.message?.isSome then r.mute else (r.mute.run op).2 := by
  cases op with
  | writeText message => exact r.mute_writeText message
  | pop =>
    have hpop : r.mute.pop.2 = r.pop.2.mute := by
      have hindices : hasData r.mute.producerIndex r.mute.consumerIndex =
        hasData r.producerIndex r.consumerIndex := rfl
      simp only [pop, hindices]
      split <;> rfl
    exact hpop.symm
  | _ => rfl

end Ring

/-! ## Lanes -/

namespace Lane

/-- The lane with an empty text area, of which nothing was reported. -/
def mute (l : Lane g) : Lane g :=
  { l with ring := l.ring.mute, reported := [] }

theorem move_mute (l : Lane g) (core : Core) (place : Nat) (verbose : Bool) :
    (l.mute.move core place verbose).result = (l.move core place verbose).result ∧
      (l.mute.move core place verbose).lane = (l.move core place verbose).lane.mute ∧
      (l.mute.move core place verbose).tripped = (l.move core place verbose).tripped := by
  cases hdata : Ring.hasData l.ring.producerIndex l.ring.consumerIndex with
  | true =>
    have hslot : l.mute.ring.getSlot l.ring.consumerIndex = l.ring.getSlot l.ring.consumerIndex :=
      rfl
    simp only [move, mute, Ring.mute, hdata, if_true] at hslot ⊢
    rw [hslot]
    cases (writeAll l.sink.script (l.ring.getSlot l.ring.consumerIndex).toList).result with
    | ok u => exact ⟨rfl, rfl, rfl⟩
    | error e => exact ⟨rfl, rfl, rfl⟩
  | false =>
    have hempty : l.mute.IsEmpty := hdata
    rw [move_of_empty hempty, move_of_empty hdata]
    exact ⟨rfl, rfl, rfl⟩

theorem reportText_mute (l : Lane g) (core : Core) :
    (l.mute.reportText core).2 = (l.reportText core).2.mute := by
  have hsilent : l.mute.ring.text = [] := l.ring.text_mute
  simp only [reportText, hsilent, true_or, if_true]
  split <;> rfl

theorem unnoticed_mute : Unnoticed (g := g) mute where
  move := move_mute
  report := reportText_mute

end Lane

/-! ## Producers -/

namespace Producer

variable {K E : Type} [TimeSource K] [PacketEncoder E g]

theorem endPacket_mute (p : Producer K E g) (r : Ring g) :
    p.endPacket r.mute =
      ((p.endPacket r).1, (p.endPacket r).2.1, (p.endPacket r).2.2.mute) := by
  have hconsumer : r.mute.consumerIndex = r.consumerIndex := rfl
  simp only [endPacket, hconsumer]
  split
  · split
    · rfl
    · split
      · rfl
      · split <;> rfl
  · rfl

theorem endSession_mute (p : Producer K E g) (r : Ring g) :
    p.endSession r.mute =
      ((p.endSession r).1, (p.endSession r).2.1, (p.endSession r).2.2.mute) := by
  simp only [endSession, endPacket_mute]
  by_cases htracing : p.tracing = true
  · simp only [if_pos htracing]
    by_cases hfilled : (p.isOpen && !p.isEmpty) = true
    · simp only [if_pos hfilled]
      obtain ⟨result, p', r'⟩ := p.endPacket r
      cases result <;> rfl
    · simp only [if_neg hfilled]
  · simp only [if_neg htracing]

theorem publishEvent_mute (p : Producer K Encoder g) (r : Ring g) :
    p.publishEvent r.mute =
      ((p.publishEvent r).1, (p.publishEvent r).2.1, (p.publishEvent r).2.2.mute) := by
  have hconsumer : r.mute.consumerIndex = r.consumerIndex := rfl
  simp only [publishEvent, hconsumer, endPacket_mute]
  obtain ⟨started, p'⟩ := p.tryPacket r.consumerIndex
  cases started with
  | error fault => rfl
  | ok started =>
    cases started with
    | false => rfl
    | true =>
      dsimp only
      obtain ⟨result, p'', r'⟩ := (p'.addEvents 1).endPacket r
      cases result <;> rfl

theorem burst_mute (n : Nat) (p : Producer K E g) (r : Ring g) :
    burst n p r.mute = ((burst n p r).1, (burst n p r).2.1, (burst n p r).2.2.mute) := by
  induction n generalizing p r with
  | zero => rfl
  | succ n ih =>
    have hconsumer : r.mute.consumerIndex = r.consumerIndex := rfl
    simp only [burst, hconsumer, endPacket_mute]
    obtain ⟨blocked, p'⟩ := p.isBlocked r.consumerIndex
    cases blocked with
    | error fault => rfl
    | ok blocked =>
      cases blocked with
      | true =>
        dsimp only
        split
        · rfl
        · exact ih p' r
      | false =>
        dsimp only
        obtain ⟨started, p''⟩ := p'.startPacket
        cases started with
        | error fault => rfl
        | ok =>
          dsimp only
          obtain ⟨result, p₃, r₃⟩ := p''.endPacket r
          cases result with
          | error fault => rfl
          | ok =>
            dsimp only
            rw [ih p₃ r₃]

end Producer

/-! ## Steps -/

namespace Transport

/-- An operation of a producer does not look at the text. -/
theorem runProducer_mute (p : Producer (TickedClock bits) Encoder g) (r : Ring g) {op : ProducerOp}
    (h : op.message? = none) :
    runProducer p r.mute op =
      ((runProducer p r op).1, (runProducer p r op).2.1, (runProducer p r op).2.2.mute) := by
  have hconsumer : r.mute.consumerIndex = r.consumerIndex := rfl
  cases op with
  | writeText message => cases h
  | say level pieces => cases h
  | startSession =>
    simp only [runProducer, hconsumer]
    split <;> rfl
  | endSession =>
    simp only [runProducer, Producer.endSession_mute]
    split <;> rfl
  | endPacket => simp only [runProducer, Producer.endPacket_mute]
  | publishEvent => simp only [runProducer, Producer.publishEvent_mute]
  | burst n => simp only [runProducer, Producer.burst_mute]
  | _ => rfl

/-- An operation that writes a text does nothing else. -/
theorem runProducer_of_message (p : Producer (TickedClock bits) Encoder g) (r : Ring g)
    {op : ProducerOp} (h : op.message?.isSome = true) :
    (runProducer p r op).2.1 = p ∧ (runProducer p r op).2.2.mute = r.mute := by
  cases op with
  | writeText message => exact ⟨rfl, r.mute_writeText message⟩
  | say level pieces => exact ⟨rfl, r.mute_writeText _⟩
  | _ => cases h

/-- The transport with empty text areas, of which no text was reported. -/
def mute (t : Transport bits g) : Transport bits g :=
  { t with lanes := t.lanes.map Lane.mute }

/-- Whether a step writes a text. -/
def Step.isText : Step g → Bool
  | .producer _ op => op.message?.isSome
  | .ring _ op => op.message?.isSome
  | _ => false

@[simp] theorem getElem?_lanes_mute (t : Transport bits g) (place : Nat) :
    t.mute.lanes[place]? = t.lanes[place]?.map Lane.mute :=
  List.getElem?_map ..

theorem mute_setRing (t : Transport bits g) (place : Nat) (r : Ring g) :
    (t.setRing place r).mute = t.mute.setRing place r.mute := by
  have hlanes : (t.lanes.modify place fun l => { l with ring := r }).map Lane.mute =
      (t.lanes.map Lane.mute).modify place fun l => { l with ring := r.mute } := by
    apply List.ext_getElem?
    intro q
    simp only [List.getElem?_map, List.getElem?_modify]
    cases t.lanes[q]? with
    | none => rfl
    | some l => by_cases hplace : place = q <;> simp [hplace, Lane.mute]
  simp only [setRing, mute, hlanes]

/-- A ring that differs in its text only is not noticed. -/
theorem mute_setRing_self {t : Transport bits g} {place : Nat} {l : Lane g} {r : Ring g}
    (hl : t.lanes[place]? = some l) (hr : r.mute = l.ring.mute) :
    (t.setRing place r).mute = t.mute := by
  have hmuted : t.mute.lanes[place]? = some l.mute := by rw [getElem?_lanes_mute, hl]; rfl
  rw [mute_setRing, hr]
  exact setRing_self hmuted

/-! ### Producers and rings -/

theorem mute_stepProducer (t : Transport bits g) (i : Nat) (op : ProducerOp) :
    (t.stepProducer i op).transport.mute =
      if op.message?.isSome then t.mute else (t.mute.stepProducer i op).transport := by
  have hstations : t.mute.stations = t.stations := rfl
  simp only [stepProducer, hstations, getElem?_lanes_mute]
  cases hs : t.stations[i]? with
  | none => exact (ite_self _).symm
  | some s =>
    dsimp only
    cases hl : t.lanes[s.place]? with
    | none => exact (ite_self _).symm
    | some l =>
      simp only [Option.map_some]
      by_cases htext : op.message?.isSome = true
      · obtain ⟨hproducer, hring⟩ := runProducer_of_message s.producer l.ring htext
        have hsame : t.stations.set i { s with producer := s.producer } = t.stations := by
          obtain ⟨hlt, hi⟩ := List.getElem?_eq_some_iff.mp hs
          subst hi
          exact List.set_getElem_self hlt
        rw [if_pos htext, hproducer, hsame]
        exact mute_setRing_self hl hring
      · have hrun := runProducer_mute s.producer l.ring (Option.not_isSome_iff_eq_none.mp htext)
        rw [if_neg htext, mute_setRing]
        rw [show l.mute.ring = l.ring.mute from rfl, hrun]
        rfl

theorem mute_stepRing (t : Transport bits g) (place : Nat) (op : Ring.Op g) :
    (t.next (.ring place op)).mute =
      if op.message?.isSome then t.mute else t.mute.next (.ring place op) := by
  simp only [next, step, getElem?_lanes_mute]
  cases hl : t.lanes[place]? with
  | none => exact (ite_self _).symm
  | some l =>
    have hrun := l.ring.mute_run op
    simp only [Option.map_some]
    split at hrun
    · next htext =>
      rw [if_pos htext]
      exact mute_setRing_self hl hrun
    · next hquiet =>
      rw [if_neg hquiet, mute_setRing, hrun]
      rfl

/-! ### The consumer -/

theorem mute_runConsumer (t : Transport bits g) (op : ConsumerOp) :
    (t.runConsumer op).transport.mute = (t.mute.runConsumer op).transport := by
  cases op with
  | move core =>
    have hgrid : t.mute.grid = t.grid := rfl
    cases hindex : t.grid.index core with
    | error fault => simp only [runConsumer, stepMove, laneOf, hgrid, hindex]
    | ok place =>
      simp only [runConsumer, stepMove, laneOf, hgrid, hindex, getElem?_lanes_mute]
      cases hl : t.lanes[place]? with
      | none => rfl
      | some l =>
        obtain ⟨-, hlane, htripped⟩ := l.move_mute core place t.verbose
        simp only [Option.map_some, mute, List.map_set, hlane, htripped]
  | sweep =>
    obtain ⟨-, hlanes, hshutdown⟩ := Consumer.sweepFrom_map Lane.unnoticed_mute t.grid t.verbose 0
      t.lanes t.shutdown
    simp only [runConsumer, ofPass, mute, Consumer.sweep, hlanes, hshutdown]
  | run pollNanos =>
    obtain ⟨-, hlanes, hshutdown⟩ := Consumer.drain_map Lane.unnoticed_mute t.grid t.verbose
      t.lanes t.shutdown
    simp only [runConsumer, ofPass, mute, Consumer.lanes_run, shutdown_run, hlanes, hshutdown]
  | _ => rfl

/-! ### Runs -/

/-- A step that writes a text does nothing to a muted transport, and any other step does the same to
it as to the transport itself. -/
theorem mute_next (t : Transport bits g) (s : Step g) :
    (t.next s).mute = if s.isText then t.mute else t.mute.next s := by
  cases s with
  | producer i op => exact t.mute_stepProducer i op
  | edit i work =>
    simp only [next, step, stepEdit, Step.isText]
    cases hs : t.stations[i]? <;> simp [mute, hs]
  | ring place op => exact t.mute_stepRing place op
  | setShutdown requested => rfl
  | consumer op =>
    have hfinished : t.mute.finished = t.finished := rfl
    simp only [next, step, hfinished, Step.isText]
    split
    · rfl
    · exact t.mute_runConsumer op

/-- What a run makes of everything but the texts is what it makes of it without the steps that write
texts. -/
theorem mute_after (t : Transport bits g) (steps : List (Step g)) :
    (t.after steps).mute = t.mute.after (steps.filter (!·.isText)) := by
  induction steps generalizing t with
  | nil => rfl
  | cons s rest ih =>
    have hrest := ih (t.next s)
    rw [mute_next] at hrest
    cases htext : s.isText with
    | true =>
      rw [htext, if_pos rfl] at hrest
      rw [List.filter_cons_of_neg (by simp [htext])]
      exact hrest
    | false =>
      rw [htext, if_neg Bool.false_ne_true] at hrest
      rw [List.filter_cons_of_pos (by simp [htext])]
      exact hrest

/-- A new transport has no texts. -/
theorem mute_of_build {grid : Grid} {rings : Nat} {sinks : List Sink}
    {producers : List (Core × UInt64)} {verbose shutdown : Bool} {t : Transport bits g}
    (hbuild : build bits g grid rings sinks producers verbose shutdown = .ok t) : t.mute = t := by
  have hlane : ∀ l ∈ t.lanes, l.mute = l := by
    intro l hl
    obtain ⟨place, hplace⟩ := List.mem_iff_getElem?.mp hl
    obtain ⟨sink, -, rfl⟩ := lane_of_build hbuild hplace
    rfl
  have hlanes : t.lanes.map Lane.mute = t.lanes :=
    (List.map_congr_left hlane).trans (List.map_id' t.lanes)
  simp only [mute, hlanes]

end Transport

end TraceRing
