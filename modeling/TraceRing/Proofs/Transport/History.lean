import TraceRing.Proofs.Consumer.Tours
import TraceRing.Proofs.Producer.Calls
import TraceRing.Transport

/-!
# The history of a transport

What a step of a transport sends and moves is read off the results of the calls it makes, and not
off the indices of the rings: `sentBy` lists the packets that ended up published, as they stood in
the memory of the producer, and `tour` tells from which rings the consumer moved a packet and where
a write failed.

A run collects them with `along`. `Transport.Sound` ties the history of a run to the rings, the
producers' own indices included; every proper step keeps it (`Transport.Sound.step`).
-/

namespace TraceRing

/-- What is shown along a run, step after step. -/
def along {σ ι α : Type} (next : σ → ι → σ) (shows : σ → ι → List α) : σ → List ι → List α
  | _, [] => []
  | s, i :: rest => shows s i ++ along next shows (next s i) rest

theorem along_append {σ ι α : Type} (next : σ → ι → σ) (shows : σ → ι → List α) (s : σ)
    (is js : List ι) :
    along next shows s (is ++ js) =
      along next shows s is ++ along next shows (is.foldl next s) js := by
  induction is generalizing s with
  | nil => rfl
  | cons i rest ih => simp only [List.cons_append, along, ih, List.append_assoc, List.foldl_cons]

namespace Transport

variable {bits : Nat} {g : Geometry}

/-! ## Steps -/

/-- Whether an operation on a ring writes neither an index nor a slot. -/
def keepsPackets : Ring.Op g → Bool
  | .read _ | .writeText _ | .readText _ => true
  | .write .. | .publishProducer _ | .publishConsumer _ | .push _ | .pop => false

theorem carries_run {r : Ring g} {base taken : Nat} {sent : List (Packet g)}
    (h : r.Carries base sent taken) {op : Ring.Op g} (hop : keepsPackets op = true) :
    (r.run op).2.Carries base sent taken := by
  cases op with
  | read index => exact h
  | readText buffer => exact h
  | writeText message => exact h.writeText message
  | _ => cases hop

/-- Whether a step goes through the parties of the transport: none writes an index or a slot of a
ring past them. -/
def Step.isProper : Step g → Bool
  | .ring _ op => keepsPackets op
  | _ => true

/-- The call that an operation of a producer makes, if it makes a single one. -/
def ProducerOp.call? : ProducerOp → Option (Producer.Call Encoder g)
  | .startSession => some .startSession
  | .endSession => some .endSession
  | .restart => some .restart
  | .now => some .now
  | .isBlocked => some .isBlocked
  | .startPacket => some .startPacket
  | .endPacket => some .endPacket
  | .tryPacket => some .tryPacket
  | .addEvents n => some (.edit fun encoder packet => (encoder.addEvents n, packet))
  | .poke offset bytes =>
    some (.edit fun encoder packet =>
      (encoder, match packet.patch offset bytes with
        | .error _ => packet
        | .ok patched => patched))
  | .setTimeout timeout => some (.setTimeout timeout)
  | .writeText message => some (.writeText message)
  | .say level pieces => some (.writeText (Log.coreMessage level pieces))
  | .clock _ | .publishEvent | .burst _ => none

theorem runProducer_of_call (p : Producer (TickedClock bits) Encoder g) (r : Ring g)
    {op : ProducerOp} {c : Producer.Call Encoder g} (h : op.call? = some c) :
    (runProducer p r op).2 = (p.call r c).2 := by
  cases op with
  | clock op => cases h
  | publishEvent => cases h
  | burst n => cases h
  | startSession =>
    cases h
    simp only [runProducer, Producer.call]
    split <;> rfl
  | endSession =>
    cases h
    simp only [runProducer, Producer.call]
    split <;> rfl
  | poke offset bytes =>
    cases h
    simp only [runProducer, Producer.call, Producer.poke, Producer.edit]
    cases p.packet.patch offset bytes <;> rfl
  | _ =>
    cases h
    rfl

/-- The packets that an operation of a producer publishes. -/
def sentIn (p : Producer (TickedClock bits) Encoder g) (r : Ring g) (op : ProducerOp) :
    List (Packet g) :=
  match op with
  | .publishEvent => p.eventSent r
  | .burst n => Producer.burstSent n p r
  | op =>
    match op.call? with
    | some c => p.sent r c
    | none => []

/-- Every operation of a producer sends what `sentIn` says, and nothing else. -/
theorem feeds_runProducer {p : Producer (TickedClock bits) Encoder g} {r : Ring g}
    {base taken : Nat} {sent : List (Packet g)} (h : p.Feeds r base sent taken) (op : ProducerOp) :
    (runProducer p r op).2.1.Feeds (runProducer p r op).2.2 base (sent ++ sentIn p r op) taken := by
  match hcall : (op.call? : Option (Producer.Call Encoder g)) with
  | some c =>
    have hsent : sentIn p r op = p.sent r c := by
      -- only the operations that make no single call have a clause of their own
      cases op <;> simp_all [sentIn, ProducerOp.call?]
    rw [runProducer_of_call p r hcall, hsent]
    exact h.call c
  | none =>
    cases op with
    | clock op =>
      simp only [sentIn, ProducerOp.call?, runProducer, List.append_nil]
      exact h.congr rfl
    | publishEvent => exact h.publishEvent
    | burst n => exact h.burst n
    | _ => cases hcall

/-- The packets that a step publishes in the ring at a place, as they stand in the memory of the
producer when they are closed. -/
def sentBy (t : Transport bits g) (place : Nat) : Step g → List (Packet g)
  | .producer i op =>
    match t.stations[i]?, t.lanes[place]? with
    | some s, some l => if s.place = place then sentIn s.producer l.ring op else []
    | _, _ => []
  | _ => []

/-- The tour of the consumer in an operation. -/
def tourIn (t : Transport bits g) : ConsumerOp → Tour
  | .move core =>
    match t.laneOf core with
    | .error _ => .idle
    | .ok (place, l) => .ofResult place (l.move core place t.verbose).result
  | .sweep => Consumer.sweepTour t.grid t.verbose 0 t.lanes t.shutdown
  | .run _ => Consumer.drainTour t.grid t.verbose t.lanes t.shutdown
  | .consumed _ | .received _ | .finish => .idle

/-- The tour of the consumer in a step. -/
def tour (t : Transport bits g) : Step g → Tour
  | .consumer op => if t.finished then .idle else t.tourIn op
  | _ => .idle

/-- The transport after a step. -/
def next (t : Transport bits g) (s : Step g) : Transport bits g :=
  (t.step s).transport

/-- The packets published in the ring at a place along a run. -/
def sent (t : Transport bits g) (place : Nat) (steps : List (Step g)) : List (Packet g) :=
  along next (fun t s => t.sentBy place s) t steps

/-- The number of packets the consumer moved from the ring at a place along a run. -/
def taken (t : Transport bits g) (place : Nat) (steps : List (Step g)) : Nat :=
  (along next (fun t s => (t.tour s).moved) t steps).count place

/-- The places at which a write failed along a run. -/
def failures (t : Transport bits g) (steps : List (Step g)) : List Nat :=
  along next (fun t s => (t.tour s).failed.toList) t steps

/-! ## The history and the rings -/

/-- No two producers are at one ring. -/
def Apart (t : Transport bits g) : Prop :=
  (t.stations.map Station.place).Nodup

theorem Apart.eq_of_place {t : Transport bits g} (h : t.Apart) {i j : Nat} {s s' : Station bits g}
    (hi : t.stations[i]? = some s) (hj : t.stations[j]? = some s') (hplace : s.place = s'.place) :
    i = j := by
  have hlt : i < (t.stations.map Station.place).length := by
    simpa using (List.getElem?_eq_some_iff.mp hi).1
  refine (List.getElem?_inj hlt h).mp ?_
  rw [List.getElem?_map, List.getElem?_map, hi, hj, Option.map_some, Option.map_some, hplace]

/-- The rings carry what was sent and not taken, and the producers know what they sent. -/
structure Sound (t : Transport bits g) (sent : Nat → List (Packet g)) (taken : Nat → Nat) :
    Prop where
  apart : t.Apart
  index : ∀ (i : Nat) (s : Station bits g), t.stations[i]? = some s →
    s.producer.index = UInt32.ofNat (sent s.place).length
  carries : ∀ (place : Nat) (l : Lane g), t.lanes[place]? = some l →
    l.ring.Carries 0 (sent place) (taken place)

namespace Sound

variable {t : Transport bits g} {sent : Nat → List (Packet g)} {taken : Nat → Nat}

theorem feeds (h : t.Sound sent taken) {i : Nat} {s : Station bits g} {l : Lane g}
    (hs : t.stations[i]? = some s) (hl : t.lanes[s.place]? = some l) :
    s.producer.Feeds l.ring 0 (sent s.place) (taken s.place) :=
  ⟨h.carries s.place l hl, by simpa using h.index i s hs⟩

end Sound

/-! ## Lanes in a step -/

theorem getElem?_setRing (t : Transport bits g) (place q : Nat) (r : Ring g) :
    (t.setRing place r).lanes[q]? =
      (t.lanes[q]?).map fun l => if place = q then { l with ring := r } else l :=
  List.getElem?_modify ..

theorem lanes_of_laneOf {t : Transport bits g} {core : Core} {place : Nat} {l : Lane g}
    (h : t.laneOf core = .ok (place, l)) : t.lanes[place]? = some l := by
  simp only [laneOf] at h
  split at h
  · cases h
  · split at h
    · cases h
    · next hl =>
      cases h
      exact hl

theorem index_of_laneOf {t : Transport bits g} {core : Core} {place : Nat} {l : Lane g}
    (h : t.laneOf core = .ok (place, l)) : t.grid.index core = .ok place := by
  simp only [laneOf] at h
  split at h
  · cases h
  · next hindex =>
    split at h
    · cases h
    · cases h
      exact hindex

/-- An operation of the consumer takes each lane along a course. -/
theorem course_runConsumer (t : Transport bits g) (op : ConsumerOp) {place : Nat} {l' : Lane g}
    (h : (t.runConsumer op).transport.lanes[place]? = some l') :
    ∃ l, t.lanes[place]? = some l ∧
      l.Course ((t.tourIn op).moved.count place) ((t.tourIn op).failedAt place) l' := by
  cases op with
  | move core =>
    simp only [runConsumer, stepMove, tourIn] at h ⊢
    cases hlane : t.laneOf core with
    | error fault =>
      rw [hlane] at h
      exact ⟨l', h, .done l'⟩
    | ok found =>
      obtain ⟨q, l⟩ := found
      have hl := lanes_of_laneOf hlane
      simp only [hlane] at h ⊢
      -- other lanes than the one moved from are left alone
      by_cases hplace : q = place
      · subst hplace
        rw [List.getElem?_set_self (List.getElem?_eq_some_iff.mp hl).1] at h
        cases h
        exact ⟨l, hl, l.course_move core q t.verbose⟩
      · rw [List.getElem?_set_ne hplace] at h
        obtain ⟨hcount, hfailed⟩ := Tour.ofResult_of_ne hplace (l.move core q t.verbose).result
        rw [hcount, hfailed]
        exact ⟨l', h, .done l'⟩
  | sweep =>
    have hsweep := Consumer.course_sweepFrom t.grid t.verbose 0 t.lanes t.shutdown h
    rw [Nat.zero_add] at hsweep
    exact hsweep
  | run pollNanos =>
    have hlanes : (t.runConsumer (.run pollNanos)).transport.lanes =
        (Consumer.drain t.grid t.verbose t.lanes t.shutdown).lanes :=
      Consumer.lanes_run t.grid t.verbose pollNanos t.lanes t.shutdown
    rw [hlanes] at h
    exact Consumer.course_drain t.grid t.verbose t.lanes t.shutdown h
  | consumed core => exact ⟨l', h, .done l'⟩
  | received core => exact ⟨l', h, .done l'⟩
  | finish => exact ⟨l', h, .done l'⟩

/-- A producer sends nothing to other rings than its own. -/
theorem sentBy_of_ne {t : Transport bits g} {i place : Nat} {s : Station bits g}
    (hs : t.stations[i]? = some s) (hne : s.place ≠ place) (op : ProducerOp) :
    t.sentBy place (.producer i op) = [] := by
  simp only [sentBy, hs]
  cases t.lanes[place]? with
  | none => rfl
  | some l => exact if_neg hne

/-- A producer without a ring sends nothing. -/
theorem sentBy_of_absent {t : Transport bits g} {i : Nat} {s : Station bits g}
    (hs : t.stations[i]? = some s) (hl : t.lanes[s.place]? = none) (op : ProducerOp)
    (place : Nat) : t.sentBy place (.producer i op) = [] := by
  by_cases hplace : s.place = place
  · subst hplace
    simp only [sentBy, hs, hl]
  · exact sentBy_of_ne hs hplace op

namespace Sound

variable {t : Transport bits g} {sent : Nat → List (Packet g)} {taken : Nat → Nat}

/-- A lane that a step leaves as it was. -/
theorem passage_refl (h : t.Sound sent taken) {place : Nat} {l : Lane g}
    (hl : t.lanes[place]? = some l) :
    ∃ l', t.lanes[place]? = some l' ∧ l'.Passage l (sent place ++ []) (taken place) 0 false :=
  ⟨l, hl, .still (by simpa using h.carries place l hl) rfl rfl⟩

theorem passage_producer (h : t.Sound sent taken) (i : Nat) (op : ProducerOp) {place : Nat}
    {l' : Lane g} (hl' : (t.stepProducer i op).transport.lanes[place]? = some l') :
    ∃ l, t.lanes[place]? = some l ∧
      l.Passage l' (sent place ++ t.sentBy place (.producer i op)) (taken place) 0 false := by
  simp only [stepProducer] at hl'
  cases hstation : t.stations[i]? with
  | none =>
    rw [hstation] at hl'
    simpa only [sentBy, hstation] using h.passage_refl hl'
  | some s =>
    simp only [hstation] at hl'
    cases hlane : t.lanes[s.place]? with
    | none =>
      simp only [hlane] at hl'
      rw [sentBy_of_absent hstation hlane]
      exact h.passage_refl hl'
    | some l =>
      simp only [hlane, getElem?_setRing] at hl'
      by_cases hplace : s.place = place
      · subst hplace
        have hfeeds := feeds_runProducer (h.feeds hstation hlane) op
        simp only [hlane, Option.map_some, if_true, Option.some.injEq] at hl'
        subst hl'
        simp only [sentBy, hstation, hlane, if_true]
        exact ⟨l, rfl, .still hfeeds.ring rfl rfl⟩
      · simp only [hplace, if_false, Option.map_id'] at hl'
        rw [sentBy_of_ne hstation hplace]
        exact h.passage_refl hl'

theorem passage_ring (h : t.Sound sent taken) (q : Nat) {op : Ring.Op g}
    (hop : keepsPackets op = true) {place : Nat} {l' : Lane g}
    (hl' : (t.next (.ring q op)).lanes[place]? = some l') :
    ∃ l, t.lanes[place]? = some l ∧ l.Passage l' (sent place ++ []) (taken place) 0 false := by
  simp only [next, step] at hl'
  split at hl'
  · exact h.passage_refl hl'
  · next l hl =>
    rw [getElem?_setRing] at hl'
    by_cases hplace : q = place
    · subst hplace
      have hring := carries_run (h.carries q l hl) hop
      simp only [hl, Option.map_some, if_true, Option.some.injEq] at hl'
      subst hl'
      exact ⟨l, hl, .still (by simpa using hring) rfl rfl⟩
    · simp only [hplace, if_false, Option.map_id'] at hl'
      exact h.passage_refl hl'

/-- What a proper step does to each lane. -/
theorem passage (h : t.Sound sent taken) {s : Step g} (hs : s.isProper = true) {place : Nat}
    {l' : Lane g} (hl' : (t.next s).lanes[place]? = some l') :
    ∃ l, t.lanes[place]? = some l ∧
      l.Passage l' (sent place ++ t.sentBy place s) (taken place)
        ((t.tour s).moved.count place) ((t.tour s).failedAt place) := by
  cases s with
  | producer i op => exact h.passage_producer i op hl'
  | edit i work =>
    simp only [next, step, stepEdit] at hl'
    split at hl' <;> exact h.passage_refl hl'
  | ring q op => exact h.passage_ring q hs hl'
  | setShutdown requested => exact h.passage_refl hl'
  | consumer op =>
    simp only [next, step] at hl'
    simp only [sentBy, tour]
    split at hl'
    · next hfinished =>
      rw [if_pos hfinished]
      exact h.passage_refl hl'
    · next hgo =>
      rw [if_neg hgo]
      obtain ⟨l, hl, hcourse⟩ := t.course_runConsumer op hl'
      rw [List.append_nil]
      exact ⟨l, hl, hcourse.passage (h.carries place l hl)⟩

end Sound

/-! ## Producers in a step -/

variable {t : Transport bits g} {sent : Nat → List (Packet g)} {taken : Nat → Nat}

theorem stations_runConsumer (t : Transport bits g) (op : ConsumerOp) :
    (t.runConsumer op).transport.stations = t.stations := by
  cases op with
  | move core =>
    simp only [runConsumer, stepMove]
    split <;> rfl
  | _ => rfl

/-- A step leaves a producer at its ring, and its index goes on by the packets it sent. -/
theorem Sound.station (h : t.Sound sent taken) (s : Step g) {i : Nat} {st' : Station bits g}
    (hst' : (t.next s).stations[i]? = some st') :
    ∃ st, t.stations[i]? = some st ∧ st'.place = st.place ∧
      st'.producer.index = UInt32.ofNat (sent st.place ++ t.sentBy st.place s).length := by
  -- most steps leave the producer as it is and send nothing to its ring
  have hsame : t.stations[i]? = some st' → t.sentBy st'.place s = [] →
      ∃ st, t.stations[i]? = some st ∧ st'.place = st.place ∧
        st'.producer.index = UInt32.ofNat (sent st.place ++ t.sentBy st.place s).length := by
    intro hst hnone
    refine ⟨st', hst, rfl, ?_⟩
    rw [hnone, List.append_nil]
    exact h.index i st' hst
  cases s with
  | producer j op =>
    simp only [next, step, stepProducer] at hst'
    cases hstation : t.stations[j]? with
    | none =>
      simp only [hstation] at hst'
      exact hsame hst' (by simp only [sentBy, hstation])
    | some s =>
      simp only [hstation] at hst'
      cases hlane : t.lanes[s.place]? with
      | none =>
        simp only [hlane] at hst'
        exact hsame hst' (sentBy_of_absent hstation hlane op _)
      | some l =>
        simp only [hlane, setRing] at hst'
        by_cases hij : j = i
        · subst hij
          rw [List.getElem?_set_self (List.getElem?_eq_some_iff.mp hstation).1] at hst'
          cases hst'
          have hfeeds := feeds_runProducer (h.feeds hstation hlane) op
          refine ⟨s, hstation, rfl, ?_⟩
          simpa [sentBy, hstation, hlane] using hfeeds.index
        · rw [List.getElem?_set_ne hij] at hst'
          -- another producer sends to another ring
          refine hsame hst' (sentBy_of_ne hstation ?_ op)
          exact fun hplace => hij (h.apart.eq_of_place hstation hst' hplace)
  | edit j work =>
    simp only [next, step, stepEdit] at hst'
    cases hstation : t.stations[j]? with
    | none =>
      simp only [hstation] at hst'
      exact hsame hst' rfl
    | some s =>
      simp only [hstation] at hst'
      by_cases hij : j = i
      · subst hij
        rw [List.getElem?_set_self (List.getElem?_eq_some_iff.mp hstation).1] at hst'
        cases hst'
        refine ⟨s, hstation, rfl, ?_⟩
        simpa [sentBy, Producer.edit] using h.index j s hstation
      · rw [List.getElem?_set_ne hij] at hst'
        exact hsame hst' rfl
  | ring q op =>
    simp only [next, step] at hst'
    split at hst' <;> exact hsame hst' rfl
  | setShutdown requested => exact hsame hst' rfl
  | consumer op =>
    simp only [next, step] at hst'
    split at hst'
    · exact hsame hst' rfl
    · rw [stations_runConsumer] at hst'
      exact hsame hst' rfl

theorem map_place_set {stations : List (Station bits g)} {i : Nat} {s : Station bits g}
    (hs : stations[i]? = some s) (p : Producer (TickedClock bits) Encoder g) :
    (stations.set i { s with producer := p }).map Station.place = stations.map Station.place := by
  obtain ⟨hlt, rfl⟩ := List.getElem?_eq_some_iff.mp hs
  have hlt' : i < (stations.map Station.place).length := by simpa using hlt
  have hplace : (stations.map Station.place)[i] = stations[i].place := List.getElem_map ..
  rw [List.map_set]
  dsimp only
  rw [← hplace, List.set_getElem_self]

/-- No step moves a producer to another ring. -/
theorem map_place_next (t : Transport bits g) (s : Step g) :
    (t.next s).stations.map Station.place = t.stations.map Station.place := by
  cases s with
  | producer i op =>
    simp only [next, step, stepProducer]
    split
    · rfl
    · next hs =>
      split
      · rfl
      · exact map_place_set hs _
  | edit i work =>
    simp only [next, step, stepEdit]
    split
    · rfl
    · next hs => exact map_place_set hs _
  | ring q op =>
    simp only [next, step]
    split <;> rfl
  | setShutdown requested => rfl
  | consumer op =>
    simp only [next, step]
    split
    · rfl
    · rw [stations_runConsumer]

/-- A proper step keeps the rings and the history together. -/
theorem Sound.step (h : t.Sound sent taken) {s : Step g} (hs : s.isProper = true) :
    (t.next s).Sound (fun place => sent place ++ t.sentBy place s)
      (fun place => taken place + (t.tour s).moved.count place) where
  apart := by
    have hmap := t.map_place_next s
    simp only [Apart, hmap]
    exact h.apart
  index i st' hst' := by
    obtain ⟨st, -, hplace, hindex⟩ := h.station s hst'
    rw [hplace]
    exact hindex
  carries place l' hl' := by
    obtain ⟨l, -, hpassage⟩ := h.passage hs hl'
    exact hpassage.carries

end Transport

end TraceRing
