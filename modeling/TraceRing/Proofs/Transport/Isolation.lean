import TraceRing.Proofs.Consumer.Visits
import TraceRing.Proofs.Transport.Queues

/-!
# Cores do not interfere

Two transports agree at a place if its ring, its sink and its producers are the same in both
(`Transport.Agree`). A step of another place keeps the place as it was (`Transport.agree_next`),
and a step of the place does the same in transports that agree there (`Transport.Agree.next`).
Steps of different places therefore commute (`Transport.commute`).

Sweeps are of all places. One that neither fails nor is stopped treats each lane by itself, so a
place does not tell a run from the run of its own steps and the sweeps (`Transport.isolated`): in
the latter the other rings stay empty (`Transport.Shadow`).
-/

namespace TraceRing

variable {bits : Nat} {g : Geometry}

theorem getElem?_set_of_some {α : Type} {xs : List α} {i : Nat} {x : α} (h : xs[i]? = some x)
    (y : α) (k : Nat) : (xs.set i y)[k]? = if i = k then some y else xs[k]? := by
  by_cases hik : i = k
  · subst hik
    rw [if_pos rfl, List.getElem?_set_self (List.getElem?_eq_some_iff.mp h).1]
  · rw [if_neg hik, List.getElem?_set_ne hik]

namespace Transport

/-! ## Places -/

/-- The place that a step is of, if it is of one. Sweeps are of all. -/
def placeOf (t : Transport bits g) : Step g → Option Nat
  | .producer i _ | .edit i _ => (t.stations[i]?).map Station.place
  | .ring place _ => some place
  | .consumer (.move core) => (t.grid.index core).toOption
  | _ => none

/-- Whether a step uses the consumer through moves and sweeps only, if at all. -/
def Step.isGradual : Step g → Bool
  | .consumer (.move _) | .consumer .sweep => true
  | .consumer _ => false
  | _ => true

/-- Steps have their places from the grid and from where the producers are. -/
theorem placeOf_congr {t u : Transport bits g} (hgrid : t.grid = u.grid)
    (hplaces : t.stations.map Station.place = u.stations.map Station.place) (s : Step g) :
    t.placeOf s = u.placeOf s := by
  have hstation : ∀ i : Nat,
      (t.stations[i]?).map Station.place = (u.stations[i]?).map Station.place := by
    intro i
    rw [← List.getElem?_map, ← List.getElem?_map, hplaces]
  cases s with
  | producer i op => exact hstation i
  | edit i work => exact hstation i
  | ring q op => rfl
  | setShutdown requested => rfl
  | consumer op =>
    cases op with
    | move core => simp only [placeOf, hgrid]
    | _ => rfl

theorem grid_next (t : Transport bits g) (s : Step g) : (t.next s).grid = t.grid := by
  cases s with
  | producer i op =>
    simp only [next, step, stepProducer]
    split
    · rfl
    · split <;> rfl
  | edit i work =>
    simp only [next, step, stepEdit]
    split <;> rfl
  | ring place op =>
    simp only [next, step]
    split <;> rfl
  | setShutdown requested => rfl
  | consumer op =>
    simp only [next, step]
    split
    · rfl
    · cases op with
      | move core =>
        simp only [runConsumer, stepMove]
        split <;> rfl
      | _ => rfl

theorem placeOf_next (t : Transport bits g) (s s' : Step g) :
    (t.next s').placeOf s = t.placeOf s :=
  placeOf_congr (t.grid_next s') (t.map_place_next s') s

theorem placeOf_after (t : Transport bits g) (steps : List (Step g)) (s : Step g) :
    (t.after steps).placeOf s = t.placeOf s := by
  induction steps generalizing t with
  | nil => rfl
  | cons s' rest ih => exact (ih (t.next s')).trans (t.placeOf_next s s')

/-- A place is the same in both transports, and so is what they have in common for all. -/
structure Agree (place : Nat) (t u : Transport bits g) : Prop where
  grid : t.grid = u.grid
  verbose : t.verbose = u.verbose
  finished : t.finished = u.finished
  places : t.stations.map Station.place = u.stations.map Station.place
  cores : t.lanes.length = u.lanes.length
  lane : t.lanes[place]? = u.lanes[place]?
  station : ∀ (i : Nat) (s : Station bits g), s.place = place →
    (t.stations[i]? = some s ↔ u.stations[i]? = some s)

namespace Agree

variable {t u v : Transport bits g} {place : Nat}

theorem refl (place : Nat) (t : Transport bits g) : t.Agree place t :=
  ⟨rfl, rfl, rfl, rfl, rfl, rfl, fun _ _ _ => Iff.rfl⟩

theorem symm (h : t.Agree place u) : u.Agree place t :=
  ⟨h.grid.symm, h.verbose.symm, h.finished.symm, h.places.symm, h.cores.symm, h.lane.symm,
    fun i s hs => (h.station i s hs).symm⟩

theorem trans (h : t.Agree place u) (h' : u.Agree place v) : t.Agree place v :=
  ⟨h.grid.trans h'.grid, h.verbose.trans h'.verbose, h.finished.trans h'.finished,
    h.places.trans h'.places, h.cores.trans h'.cores, h.lane.trans h'.lane,
    fun i s hs => (h.station i s hs).trans (h'.station i s hs)⟩

theorem placeOf (h : t.Agree place u) (s : Step g) : t.placeOf s = u.placeOf s :=
  placeOf_congr h.grid h.places s

/-- Transports that agree everywhere are the same. -/
theorem eq (h : ∀ place, t.Agree place u) (hshutdown : t.shutdown = u.shutdown) : t = u := by
  have hlanes : t.lanes = u.lanes := List.ext_getElem? fun place => (h place).lane
  have hstations : t.stations = u.stations := by
    apply List.ext_getElem?
    intro i
    have hlength : t.stations.length = u.stations.length := by
      simpa using congrArg List.length (h 0).places
    cases hs : t.stations[i]? with
    | none =>
      rw [List.getElem?_eq_none_iff, hlength] at hs
      exact (List.getElem?_eq_none_iff.mpr hs).symm
    | some s => exact (((h s.place).station i s rfl).mp hs).symm
  obtain ⟨hgrid, hverbose, hfinished, -, -, -, -⟩ := h 0
  cases t
  cases u
  simp_all

end Agree

/-! ## One place is written -/

/-- The transport after the producer of a station went on. -/
def setProducer (t : Transport bits g) (i : Nat) (s : Station bits g)
    (p : Producer (TickedClock bits) Encoder g) : Transport bits g :=
  { t with stations := t.stations.set i { s with producer := p } }

/-- The transport after the lane at a place was visited. -/
def setLane (t : Transport bits g) (place : Nat) (l : Lane g) (tripped : Bool) :
    Transport bits g :=
  { t with lanes := t.lanes.set place l, shutdown := t.shutdown || tripped }

section Write

variable {t u : Transport bits g} {place q : Nat}

theorem agree_setRing (t : Transport bits g) (hne : place ≠ q) (r : Ring g) :
    t.Agree q (t.setRing place r) := by
  refine ⟨rfl, rfl, rfl, rfl, ?_, ?_, fun _ _ _ => Iff.rfl⟩
  · exact (List.length_modify ..).symm
  · simp [getElem?_setRing, hne]

theorem agree_setLane (t : Transport bits g) (hne : place ≠ q) (l : Lane g) (tripped : Bool) :
    t.Agree q (t.setLane place l tripped) := by
  refine ⟨rfl, rfl, rfl, rfl, ?_, ?_, fun _ _ _ => Iff.rfl⟩
  · exact (List.length_set ..).symm
  · exact (List.getElem?_set_ne hne).symm

theorem agree_setProducer {i : Nat} {s : Station bits g} (hs : t.stations[i]? = some s)
    (hne : s.place ≠ q) (p : Producer (TickedClock bits) Encoder g) :
    t.Agree q (t.setProducer i s p) := by
  refine ⟨rfl, rfl, rfl, (map_place_set hs p).symm, rfl, rfl, fun k s' hs' => ?_⟩
  rw [setProducer, getElem?_set_of_some hs]
  split
  · next hik =>
    subst hik
    rw [hs, Option.some.injEq, Option.some.injEq]
    -- neither the old station nor the new one is at the place `q`
    refine iff_of_false ?_ ?_
    · rintro rfl
      exact hne hs'
    · rintro rfl
      exact hne hs'
  · exact Iff.rfl

namespace Agree

theorem setRing (h : t.Agree place u) (r : Ring g) :
    (t.setRing place r).Agree place (u.setRing place r) := by
  refine ⟨h.grid, h.verbose, h.finished, h.places, ?_, ?_, h.station⟩
  · simpa only [Transport.setRing, List.length_modify] using h.cores
  · rw [getElem?_setRing, getElem?_setRing, h.lane]

theorem setLane (h : t.Agree place u) (l : Lane g) (tripped : Bool) :
    (t.setLane place l tripped).Agree place (u.setLane place l tripped) := by
  refine ⟨h.grid, h.verbose, h.finished, h.places, ?_, ?_, h.station⟩
  · simpa only [Transport.setLane, List.length_set] using h.cores
  · simp only [Transport.setLane, List.getElem?_set, h.cores]
    simp

theorem setProducer (h : t.Agree place u) {i : Nat} {s : Station bits g}
    (hs : t.stations[i]? = some s) (hplace : s.place = place)
    (p : Producer (TickedClock bits) Encoder g) :
    (t.setProducer i s p).Agree place (u.setProducer i s p) := by
  have hs' : u.stations[i]? = some s := (h.station i s hplace).mp hs
  refine ⟨h.grid, h.verbose, h.finished, ?_, h.cores, h.lane, fun k st hst => ?_⟩
  · rw [Transport.setProducer, Transport.setProducer, map_place_set hs, map_place_set hs', h.places]
  · rw [Transport.setProducer, Transport.setProducer, getElem?_set_of_some hs,
      getElem?_set_of_some hs']
    split
    · exact Iff.rfl
    · exact h.station k st hst

end Agree

end Write

/-! ## Steps of one place -/

/-- The outcomes of a step in two transports in which it does the same at a place: it writes there
or nowhere. -/
inductive Twin (t u : Transport bits g) (place : Nat) : Outcome bits g → Outcome bits g → Prop where
  /-- There is no ring at the place, or the consumer has finished. -/
  | nothing (result : Except Fault (Answer g)) : Twin t u place ⟨result, t, []⟩ ⟨result, u, []⟩
  | call {i : Nat} {s : Station bits g} (hs : t.stations[i]? = some s) (hplace : s.place = place)
      (p : Producer (TickedClock bits) Encoder g) (r : Ring g) (result : Except Fault (Answer g))
      (events : List Event) :
      Twin t u place ⟨result, (t.setProducer i s p).setRing place r, events⟩
        ⟨result, (u.setProducer i s p).setRing place r, events⟩
  | edit {i : Nat} {s : Station bits g} (hs : t.stations[i]? = some s) (hplace : s.place = place)
      (p : Producer (TickedClock bits) Encoder g) (result : Except Fault (Answer g)) :
      Twin t u place ⟨result, t.setProducer i s p, []⟩ ⟨result, u.setProducer i s p, []⟩
  | ring (r : Ring g) (result : Except Fault (Answer g)) :
      Twin t u place ⟨result, t.setRing place r, []⟩ ⟨result, u.setRing place r, []⟩
  | move (l : Lane g) (tripped : Bool) (result : Except Fault (Answer g)) (events : List Event) :
      Twin t u place ⟨result, t.setLane place l tripped, events⟩
        ⟨result, u.setLane place l tripped, events⟩

namespace Twin

variable {t u : Transport bits g} {place : Nat} {o o' : Outcome bits g}

theorem result (h : t.Twin u place o o') : o.result = o'.result := by
  cases h <;> rfl

theorem events (h : t.Twin u place o o') : o.events = o'.events := by
  cases h <;> rfl

theorem agree (h : t.Twin u place o o') (hagree : t.Agree place u) :
    o.transport.Agree place o'.transport := by
  cases h with
  | nothing result => exact hagree
  | call hs hplace p r => exact (hagree.setProducer hs hplace p).setRing r
  | edit hs hplace p => exact hagree.setProducer hs hplace p
  | ring r => exact hagree.setRing r
  | move l tripped => exact hagree.setLane l tripped

/-- Other places are left as they were. -/
theorem agree_of_ne (h : t.Twin u place o o') {q : Nat} (hne : place ≠ q) :
    t.Agree q o.transport := by
  cases h with
  | nothing result => exact .refl q t
  | call hs hplace p r =>
    exact (agree_setProducer hs (hplace ▸ hne) p).trans (agree_setRing _ hne r)
  | edit hs hplace p => exact agree_setProducer hs (hplace ▸ hne) p
  | ring r => exact agree_setRing t hne r
  | move l tripped => exact agree_setLane t hne l tripped

theorem shutdown (h : t.Twin u place o o') :
    ∃ tripped, o.transport.shutdown = (t.shutdown || tripped) ∧
      o'.transport.shutdown = (u.shutdown || tripped) := by
  cases h with
  | move l tripped => exact ⟨tripped, rfl, rfl⟩
  | _ => exact ⟨false, (Bool.or_false _).symm, (Bool.or_false _).symm⟩

end Twin

theorem stepMove_of_index {t : Transport bits g} {core : Core} {place : Nat}
    (h : t.grid.index core = .ok place) :
    t.stepMove core = match t.lanes[place]? with
      | none => ⟨.error (.indexOutOfBounds t.lanes.length place), t, []⟩
      | some l =>
        let m := l.move core place t.verbose
        ⟨.ok (match m.result with
            | .error e => .failed e
            | .ok moved => .flag moved), t.setLane place m.lane m.tripped, m.events⟩ := by
  simp only [stepMove, laneOf, h]
  cases t.lanes[place]? <;> rfl

theorem index_of_placeOf {t : Transport bits g} {core : Core} {place : Nat}
    (h : t.placeOf (.consumer (.move core)) = some place) : t.grid.index core = .ok place := by
  simp only [placeOf] at h
  cases hindex : t.grid.index core with
  | error fault =>
    rw [hindex] at h
    cases h
  | ok q =>
    rw [hindex] at h
    cases h
    rfl

/-- A step of a place does the same in transports that agree there. -/
theorem Agree.twin {t u : Transport bits g} {place : Nat} (h : t.Agree place u) {s : Step g}
    (hs : t.placeOf s = some place) : t.Twin u place (t.step s) (u.step s) := by
  cases s with
  | producer i op =>
    simp only [Transport.placeOf, Option.map_eq_some_iff] at hs
    obtain ⟨station, hstation, rfl⟩ := hs
    have hstation' := (h.station i station rfl).mp hstation
    simp only [step, stepProducer, hstation, hstation', ← h.lane, ← h.cores]
    cases t.lanes[station.place]? with
    | none => exact .nothing _
    | some l => exact .call hstation rfl _ _ _ _
  | edit i work =>
    simp only [Transport.placeOf, Option.map_eq_some_iff] at hs
    obtain ⟨station, hstation, rfl⟩ := hs
    have hstation' := (h.station i station rfl).mp hstation
    simp only [step, stepEdit, hstation, hstation']
    exact .edit hstation rfl _ _
  | ring q op =>
    cases hs
    simp only [step, ← h.lane, ← h.cores]
    cases t.lanes[place]? with
    | none => exact .nothing _
    | some l => exact .ring _ _
  | setShutdown requested => cases hs
  | consumer op =>
    cases op with
    | move core =>
      have hindex := index_of_placeOf hs
      have hindex' := h.grid ▸ hindex
      simp only [step, ← h.finished]
      split
      · exact .nothing _
      · simp only [runConsumer, stepMove_of_index hindex, stepMove_of_index hindex', ← h.lane,
          ← h.cores, ← h.verbose]
        cases t.lanes[place]? with
        | none => exact .nothing _
        | some l => exact .move _ _ _ _
    | _ => cases hs

/-- A step of one place leaves the others as they were. -/
theorem agree_next {t : Transport bits g} {s : Step g} {p : Nat} (hs : t.placeOf s = some p)
    {q : Nat} (hne : p ≠ q) : t.Agree q (t.next s) :=
  ((Agree.refl p t).twin hs).agree_of_ne hne

theorem Agree.next {t u : Transport bits g} {p : Nat} (h : t.Agree p u) {s : Step g}
    (hs : t.placeOf s = some p) : (t.next s).Agree p (u.next s) :=
  (h.twin hs).agree h

/-- Two steps of different places, one after the other in either order. -/
structure Commute (t : Transport bits g) (s s' : Step g) : Prop where
  transport : (t.next s).next s' = (t.next s').next s
  result : ((t.next s').step s).result = (t.step s).result
  events : ((t.next s').step s).events = (t.step s).events
  result' : ((t.next s).step s').result = (t.step s').result
  events' : ((t.next s).step s').events = (t.step s').events

/-- Steps of different places commute. -/
theorem commute {t : Transport bits g} {s s' : Step g} {p q : Nat} (hs : t.placeOf s = some p)
    (hs' : t.placeOf s' = some q) (hne : p ≠ q) : t.Commute s s' := by
  -- each step finds its place as if it were the first
  have hp : t.Agree p (t.next s') := agree_next hs' hne.symm
  have hq : t.Agree q (t.next s) := agree_next hs hne
  have hlate : (t.next s').placeOf s = some p := (hp.placeOf s).symm.trans hs
  have hlate' : (t.next s).placeOf s' = some q := (hq.placeOf s').symm.trans hs'
  have htwin := hp.twin hs
  have htwin' := hq.twin hs'
  refine ⟨Agree.eq (fun k => ?_) ?_, htwin.result.symm, htwin.events.symm, htwin'.result.symm,
    htwin'.events.symm⟩
  · by_cases hkp : p = k
    · subst hkp
      exact (agree_next hlate' hne.symm).symm.trans (hp.next hs)
    · by_cases hkq : q = k
      · subst hkq
        exact (hq.next hs').symm.trans (agree_next hlate hne)
      · have hone := (agree_next hs hkp).trans (agree_next hlate' hkq)
        have hother := (agree_next hs' hkq).trans (agree_next hlate hkp)
        exact hone.symm.trans hother
  · obtain ⟨tripped, hfirst, hsecond⟩ := htwin.shutdown
    obtain ⟨tripped', hfirst', hsecond'⟩ := htwin'.shutdown
    change ((t.next s).step s').transport.shutdown = ((t.next s').step s).transport.shutdown
    rw [hsecond, hsecond']
    change ((t.step s).transport.shutdown || _) = ((t.step s').transport.shutdown || _)
    rw [hfirst, hfirst', Bool.or_right_comm]

/-! ## Sweeps -/

/-- In the next sweep no write will fail and no shutdown will be requested. -/
def IsCalm (t : Transport bits g) : Prop :=
  ∀ (place : Nat) (l : Lane g), t.lanes[place]? = some l →
    l.IsCalm (t.grid.coreAt place) place t.verbose

/-- The visits of a sweep. -/
def visits (t : Transport bits g) : List (Lane g × List Event) :=
  Consumer.visits t.grid t.verbose 0 t.lanes

theorem getElem?_visits (t : Transport bits g) (place : Nat) :
    t.visits[place]? =
      (t.lanes[place]?).map fun l => l.visit (t.grid.coreAt place) place t.verbose := by
  rw [visits, Consumer.getElem?_visits, Nat.zero_add]

theorem step_sweep {t : Transport bits g} (hworks : t.finished = false)
    (hgoesOn : t.shutdown = false) (hcalm : t.IsCalm) :
    ∃ n, t.step (.consumer .sweep) =
      ⟨.ok (.count n), { t with lanes := t.visits.map Prod.fst },
        (t.visits.map Prod.snd).flatten⟩ := by
  have hlanes : ∀ (i : Nat) (l : Lane g), t.lanes[i]? = some l →
      l.IsCalm (t.grid.coreAt (0 + i)) (0 + i) t.verbose := by
    intro i l hl
    rw [Nat.zero_add]
    exact hcalm i l hl
  obtain ⟨n, hn⟩ := Consumer.sweepFrom_of_calm hlanes
  refine ⟨n, ?_⟩
  simp only [step, hworks, Bool.false_eq_true, if_false, runConsumer, ofPass, Consumer.sweep,
    hgoesOn, hn, visits]

theorem isCalm_of_sweep {t : Transport bits g} (hworks : t.finished = false)
    (hgoesOn : t.shutdown = false) (hclean : (t.tour (.consumer .sweep)).failed = none)
    (hgoesOn' : (t.next (.consumer .sweep)).shutdown = false) : t.IsCalm := by
  simp only [tour, hworks, Bool.false_eq_true, if_false, tourIn, hgoesOn] at hclean
  simp only [next, step, hworks, Bool.false_eq_true, if_false, runConsumer, ofPass, hgoesOn,
    Consumer.sweep] at hgoesOn'
  have hresult := Consumer.result_sweepFrom t.grid t.verbose 0 t.lanes false
  rw [hclean] at hresult
  intro place l hl
  have hcalm := Consumer.calm_of_sweepFrom hresult hgoesOn' hl
  rwa [Nat.zero_add] at hcalm

/-! ## What is seen of a place -/

/-- The result and the events of a step, if it is of the place. -/
def resultsOf (t : Transport bits g) (place : Nat) (s : Step g) :
    List (Except Fault (Answer g) × List Event) :=
  if t.placeOf s = some place then [((t.step s).result, (t.step s).events)] else []

/-- What the consumer does and reports at a place in a step. -/
def eventsAt (t : Transport bits g) (place : Nat) (s : Step g) : List Event :=
  (t.step s).events.filter (·.isOf t.grid place)

/-- The results of the steps of a place along a run. -/
def results (t : Transport bits g) (place : Nat) (steps : List (Step g)) :
    List (Except Fault (Answer g) × List Event) :=
  along next (fun t s => t.resultsOf place s) t steps

/-- What the consumer does and reports at a place along a run. -/
def drained (t : Transport bits g) (place : Nat) (steps : List (Step g)) : List Event :=
  along next (fun t s => t.eventsAt place s) t steps

/-- Whether a step is not of another place. -/
def keeps (t : Transport bits g) (place : Nat) (s : Step g) : Bool :=
  (t.placeOf s).all (· == place)

/-- A run without the steps of other places. -/
def own (t : Transport bits g) (place : Nat) (steps : List (Step g)) : List (Step g) :=
  steps.filter (t.keeps place)

/-- What producers report is not of the consumer's work. -/
theorem isOf_runProducer (grid : Grid) (q : Nat) (p : Producer (TickedClock bits) Encoder g)
    (r : Ring g) (op : ProducerOp) {e : Event} (he : e ∈ (runProducer p r op).1.2) :
    e.isOf grid q = false := by
  cases op with
  | startSession =>
    simp only [runProducer] at he
    split at he
    · cases he
    · next notice hstart =>
      rw [Producer.startSession_eq] at hstart
      split at hstart
      · cases hstart
        cases he
      · split at hstart
        · cases hstart
        · cases hstart
          obtain rfl := List.mem_singleton.mp he
          rfl
  | endSession =>
    simp only [runProducer] at he
    split at he
    · cases he
    · next notice hend =>
      simp only [Producer.endSession] at hend
      split at hend
      · split at hend
        · cases hend
        · cases hend
          obtain rfl := List.mem_singleton.mp he
          rfl
      · cases hend
        cases he
  | _ => cases he

/-- The steps of one place show nothing of another. -/
theorem eventsAt_of_ne {t : Transport bits g} {s : Step g} {p : Nat} (hs : t.placeOf s = some p)
    {q : Nat} (hne : p ≠ q) : t.eventsAt q s = [] := by
  refine List.filter_eq_nil_iff.mpr fun e he => Bool.eq_false_iff.mp ?_
  cases s with
  | producer i op =>
    simp only [step, stepProducer] at he
    split at he
    · cases he
    · split at he
      · cases he
      · exact isOf_runProducer t.grid q _ _ op he
  | edit i work =>
    simp only [step, stepEdit] at he
    split at he <;> cases he
  | ring place op =>
    simp only [step] at he
    split at he <;> cases he
  | setShutdown requested => cases hs
  | consumer op =>
    cases op with
    | move core =>
      have hindex := index_of_placeOf hs
      simp only [step] at he
      split at he
      · cases he
      · simp only [runConsumer, stepMove_of_index hindex] at he
        split at he
        · cases he
        · have hcore : core = t.grid.coreAt q ↔ p = q := by
            refine iff_of_false ?_ hne
            rintro rfl
            exact hne (Grid.eq_of_index_coreAt hindex).symm
          rw [Lane.isOf_move t.grid _ t.verbose hcore he, decide_eq_false hne]
    | _ => cases hs

/-! ## Shadows -/

/-- A transport in which the place is the same, while nothing was ever sent to other rings. -/
structure Shadow (place : Nat) (t u : Transport bits g) : Prop where
  agree : t.Agree place u
  goesOn : u.shutdown = false
  others : ∀ (q : Nat) (l : Lane g), u.lanes[q]? = some l → place ≠ q → l.IsEmpty

/-- What two transports show of a place in a step is the same. -/
structure Same (place : Nat) (t u : Transport bits g) (s : Step g) : Prop where
  results : t.resultsOf place s = u.resultsOf place s
  events : t.eventsAt place s = u.eventsAt place s

namespace Shadow

variable {t u : Transport bits g} {place : Nat}

/-- A step of another place is not seen. -/
theorem skip (h : t.Shadow place u) {s : Step g} {p : Nat} (hs : t.placeOf s = some p)
    (hne : p ≠ place) :
    (t.next s).Shadow place u ∧ t.resultsOf place s = [] ∧ t.eventsAt place s = [] := by
  refine ⟨⟨?_, h.goesOn, h.others⟩, ?_, eventsAt_of_ne hs hne⟩
  · exact (agree_next hs hne).symm.trans h.agree
  · rw [resultsOf, hs, if_neg (fun heq => hne (Option.some.inj heq))]

/-- A step of the place is the same in both. -/
theorem follow (h : t.Shadow place u) {s : Step g} (hs : t.placeOf s = some place)
    (hgoesOn : (t.next s).shutdown = false) :
    (t.next s).Shadow place (u.next s) ∧ t.Same place u s := by
  have hplace : u.placeOf s = some place := (h.agree.placeOf s).symm.trans hs
  have htwin := h.agree.twin hs
  refine ⟨⟨h.agree.next hs, ?_, fun q l hl hne => ?_⟩, ?_, ?_⟩
  · obtain ⟨tripped, hfirst, hsecond⟩ := htwin.shutdown
    have hcalm : (t.shutdown || tripped) = false := hfirst.symm.trans hgoesOn
    rw [Bool.or_eq_false_iff] at hcalm
    change (u.step s).transport.shutdown = false
    rw [hsecond, h.goesOn, hcalm.2, Bool.false_or]
  · rw [← (agree_next hplace hne).lane] at hl
    exact h.others q l hl hne
  · rw [resultsOf, resultsOf, hs, hplace, htwin.result, htwin.events]
  · rw [eventsAt, eventsAt, htwin.events, h.agree.grid]

theorem isCalm (h : t.Shadow place u) (hcalm : t.IsCalm) : u.IsCalm := by
  intro q l hl
  by_cases hq : place = q
  · subst hq
    rw [← h.agree.lane] at hl
    rw [← h.agree.grid, ← h.agree.verbose]
    exact hcalm place l hl
  · exact Lane.isCalm_of_empty (h.others q l hl hq) _ q u.verbose

/-- A step without a place that does nothing in either. -/
theorem pause (h : t.Shadow place u) {s : Step g} (hs : t.placeOf s = none)
    {a b : Except Fault (Answer g)} (ht : t.step s = ⟨a, t, []⟩) (hu : u.step s = ⟨b, u, []⟩) :
    (t.next s).Shadow place (u.next s) ∧ t.Same place u s := by
  have hplace : u.placeOf s = none := (h.agree.placeOf s).symm.trans hs
  rw [next, next, ht, hu]
  refine ⟨h, ?_, ?_⟩
  · rw [resultsOf, resultsOf, hs, hplace, if_neg (Option.some_ne_none _).symm,
      if_neg (Option.some_ne_none _).symm]
  · rw [eventsAt, eventsAt, ht, hu, List.filter_nil, List.filter_nil]

/-- In a sweep that visits all lanes, each lane is treated by itself. -/
theorem sweep (h : t.Shadow place u) (hgoesOn : t.shutdown = false)
    (hclean : (t.tour (.consumer .sweep)).failed = none)
    (hgoesOn' : (t.next (.consumer .sweep)).shutdown = false) :
    (t.next (.consumer .sweep)).Shadow place (u.next (.consumer .sweep)) ∧
      t.Same place u (.consumer .sweep) := by
  cases hfinished : t.finished with
  | true =>
    have hfinished' : u.finished = true := h.agree.finished ▸ hfinished
    exact h.pause rfl (if_pos hfinished) (if_pos hfinished')
  | false =>
    have hfinished' : u.finished = false := h.agree.finished ▸ hfinished
    have hcalm := isCalm_of_sweep hfinished hgoesOn hclean hgoesOn'
    obtain ⟨n, ht⟩ := step_sweep hfinished hgoesOn hcalm
    obtain ⟨m, hu⟩ := step_sweep hfinished' h.goesOn (h.isCalm hcalm)
    have hvisit : t.visits[place]? = u.visits[place]? := by
      rw [getElem?_visits, getElem?_visits, h.agree.lane, h.agree.grid, h.agree.verbose]
    have hcores : (t.next (.consumer .sweep)).lanes.length
        = (u.next (.consumer .sweep)).lanes.length := by
      rw [length_lanes_next, length_lanes_next, h.agree.cores]
    simp only [next, ht, hu] at hcores ⊢
    refine ⟨⟨⟨h.agree.grid, h.agree.verbose, h.agree.finished, h.agree.places, hcores, ?_,
      h.agree.station⟩, h.goesOn, fun q l hl hne => ?_⟩, rfl, ?_⟩
    · simp only [List.getElem?_map, hvisit]
    · simp only [List.getElem?_map, getElem?_visits, Option.map_map, Option.map_eq_some_iff] at hl
      obtain ⟨before, hbefore, rfl⟩ := hl
      exact Lane.isEmpty_visit (h.others q before hbefore hne) _ q u.verbose
    · simp only [eventsAt, ht, hu, visits, Consumer.filter_visits, Nat.zero_le, if_true,
        Nat.sub_zero, h.agree.lane, h.agree.grid, h.agree.verbose]

/-- A step that is of no single place. -/
theorem stay (h : t.Shadow place u) {s : Step g} (hgradual : s.isGradual = true)
    (hs : t.placeOf s = none) (hgoesOn : t.shutdown = false) (hclean : (t.tour s).failed = none)
    (hgoesOn' : (t.next s).shutdown = false) :
    (t.next s).Shadow place (u.next s) ∧ t.Same place u s := by
  have hs' : u.placeOf s = none := (h.agree.placeOf s).symm.trans hs
  cases s with
  | producer i op =>
    -- there is no such producer
    rw [placeOf, Option.map_eq_none_iff] at hs hs'
    refine h.pause (a := .ok .absent) (b := .ok .absent) ?_ ?_ ?_
    · rw [placeOf, hs, Option.map_none]
    · simp only [step, stepProducer, hs]
    · simp only [step, stepProducer, hs']
  | edit i work =>
    rw [placeOf, Option.map_eq_none_iff] at hs hs'
    refine h.pause (a := .ok .absent) (b := .ok .absent) ?_ ?_ ?_
    · rw [placeOf, hs, Option.map_none]
    · simp only [step, stepEdit, hs]
    · simp only [step, stepEdit, hs']
  | ring q op => cases hs
  | setShutdown requested =>
    obtain ⟨hgrid, hverbose, hfinished, hplaces, hcores, hlane, hstation⟩ := h.agree
    exact ⟨⟨⟨hgrid, hverbose, hfinished, hplaces, hcores, hlane, hstation⟩, hgoesOn', h.others⟩,
      rfl, rfl⟩
  | consumer op =>
    cases op with
    | move core =>
      cases hindex : t.grid.index core with
      | ok q =>
        rw [placeOf, hindex] at hs
        cases hs
      | error fault =>
        -- the core is too far away to have a place
        have hnone : ∀ v : Transport bits g, v.grid = t.grid →
            ∃ a, v.step (.consumer (.move core)) = ⟨a, v, []⟩ := by
          intro v hv
          by_cases hfinished : v.finished = true
          · exact ⟨_, if_pos hfinished⟩
          · refine ⟨.error fault, (if_neg hfinished).trans ?_⟩
            simp only [runConsumer, stepMove, laneOf, hv, hindex]
        obtain ⟨a, ht⟩ := hnone t rfl
        obtain ⟨b, hu⟩ := hnone u h.agree.grid.symm
        exact h.pause hs ht hu
    | sweep => exact h.sweep hgoesOn hclean hgoesOn'
    | _ => cases hgradual

theorem step (h : t.Shadow place u) {s : Step g} (hgradual : s.isGradual = true)
    (hgoesOn : t.shutdown = false) (hclean : (t.tour s).failed = none)
    (hgoesOn' : (t.next s).shutdown = false) (hkeeps : t.keeps place s = true) :
    (t.next s).Shadow place (u.next s) ∧ t.Same place u s := by
  cases hs : t.placeOf s with
  | none => exact h.stay hgradual hs hgoesOn hclean hgoesOn'
  | some p =>
    rw [keeps, hs, Option.all_some, beq_iff_eq] at hkeeps
    subst hkeeps
    exact h.follow hs hgoesOn'

end Shadow

/-! ## Runs -/

theorem keeps_next (t : Transport bits g) (place : Nat) (s : Step g) :
    (t.next s).keeps place = t.keeps place := by
  funext s'
  rw [keeps, keeps, placeOf_next]

/-- Two runs are the same at a place: what it is in the end, and all that was seen of it. -/
structure SameAlong (place : Nat) (t : Transport bits g) (steps : List (Step g))
    (u : Transport bits g) (steps' : List (Step g)) : Prop where
  agree : (t.after steps).Agree place (u.after steps')
  results : t.results place steps = u.results place steps'
  drained : t.drained place steps = u.drained place steps'

theorem Shadow.after {t u : Transport bits g} {place : Nat} (h : t.Shadow place u)
    {steps : List (Step g)} (hgradual : ∀ s ∈ steps, s.isGradual = true)
    (hclean : t.failures steps = [])
    (hgoesOn : ∀ run, run <+: steps → (t.after run).shutdown = false) :
    SameAlong place t steps u (t.own place steps) := by
  induction steps generalizing t u with
  | nil => exact ⟨h.agree, rfl, rfl⟩
  | cons s rest ih =>
    obtain ⟨hs, hrest⟩ := List.forall_mem_cons.mp hgradual
    simp only [failures, along, List.append_eq_nil_iff, Option.toList_eq_nil_iff] at hclean
    have hnow : t.shutdown = false := hgoesOn [] List.nil_prefix
    have hsoon : (t.next s).shutdown = false := hgoesOn [s] ⟨rest, rfl⟩
    have hlater : ∀ run, run <+: rest → ((t.next s).after run).shutdown = false := by
      intro run hrun
      exact hgoesOn (s :: run) ((List.prefix_cons_inj s).mpr hrun)
    have hown : (t.next s).own place rest = t.own place rest := by
      rw [own, own, keeps_next]
    cases hkeeps : t.keeps place s with
    | true =>
      obtain ⟨hshadow, hsame⟩ := h.step hs hnow hclean.1 hsoon hkeeps
      have hall := ih hshadow hrest hclean.2 hlater
      rw [hown] at hall
      rw [own, List.filter_cons_of_pos hkeeps]
      refine ⟨hall.agree, ?_, ?_⟩
      · rw [results, along, hsame.results]
        exact congrArg _ hall.results
      · rw [drained, along, hsame.events]
        exact congrArg _ hall.drained
    | false =>
      obtain ⟨p, hp, hne⟩ : ∃ p, t.placeOf s = some p ∧ p ≠ place := by
        cases hp : t.placeOf s with
        | none => simp [keeps, hp] at hkeeps
        | some p => exact ⟨p, rfl, by simpa [keeps, hp] using hkeeps⟩
      obtain ⟨hshadow, hnoResult, hnoEvent⟩ := h.skip hp hne
      have hall := ih hshadow hrest hclean.2 hlater
      rw [hown] at hall
      rw [own, List.filter_cons_of_neg (Bool.eq_false_iff.mp hkeeps)]
      refine ⟨hall.agree, ?_, ?_⟩
      · rw [results, along, hnoResult]
        exact hall.results
      · rw [drained, along, hnoEvent]
        exact hall.drained

theorem shadow_of_build {grid : Grid} {rings : Nat} {sinks : List Sink}
    {producers : List (Core × UInt64)} {verbose shutdown : Bool} {t : Transport bits g}
    (hbuild : build bits g grid rings sinks producers verbose shutdown = .ok t)
    (hgoesOn : t.shutdown = false) (place : Nat) : t.Shadow place t := by
  refine ⟨.refl place t, hgoesOn, fun q l hl _ => ?_⟩
  obtain ⟨sink, -, rfl⟩ := lane_of_build hbuild hl
  rfl

/-- Cores do not interfere. Along every run from empty rings in which no write fails and no
shutdown is requested, each place is as if the steps of the other places had not been made, and
so is all that was seen of it; and wherever such a run leads to, steps of different places
commute. -/
theorem isolated {grid : Grid} {rings : Nat} {sinks : List Sink}
    {producers : List (Core × UInt64)} {verbose shutdown : Bool} {t : Transport bits g}
    (hbuild : build bits g grid rings sinks producers verbose shutdown = .ok t)
    {steps : List (Step g)} (hgradual : ∀ s ∈ steps, s.isGradual = true)
    (hclean : t.failures steps = [])
    (hgoesOn : ∀ run, run <+: steps → (t.after run).shutdown = false) :
    (∀ place, SameAlong place t steps t (t.own place steps)) ∧
    ∀ (s s' : Step g) (p q : Nat), t.placeOf s = some p → t.placeOf s' = some q → p ≠ q →
      (t.after steps).Commute s s' := by
  refine ⟨fun place => ?_, fun s s' p q hs hs' hne => ?_⟩
  · have hshadow := shadow_of_build hbuild (hgoesOn [] List.nil_prefix) place
    exact hshadow.after hgradual hclean hgoesOn
  · rw [← t.placeOf_after steps] at hs hs'
    exact commute hs hs' hne

/-- A new transport of two cores, each with a producer. -/
def sideBySide : Transport 16 .pair where
  grid := ⟨1, 2, by decide, by decide⟩
  lanes := [.new (.empty _) .accepting, .new (.empty _) .accepting]
  stations := [⟨.new ⟨1, 2, by decide, by decide⟩ ⟨0, 0⟩ (TickedClock.new 16) .new 0, 0⟩,
    ⟨.new ⟨1, 2, by decide, by decide⟩ ⟨0, 1⟩ (TickedClock.new 16) .new 0, 1⟩]
  verbose := true
  shutdown := false
  finished := false

/-- Both cores publish and report, and are drained by moves and sweeps. -/
def mixed : List (Step .pair) :=
  [.producer 0 .publishEvent, .producer 1 (.clock (.tick 5)), .producer 1 .publishEvent,
    .producer 1 .publishEvent, .producer 1 (.writeText [104, 105]), .consumer .sweep,
    .producer 0 (.clock (.tick 5)), .producer 0 .publishEvent, .consumer (.move ⟨0, 1⟩),
    .consumer .sweep]

theorem isolated_of_mixed :
    build 16 .pair sideBySide.grid 2 [.accepting, .accepting] [(⟨0, 0⟩, 0), (⟨0, 1⟩, 0)] true false
      = .ok sideBySide ∧
    (∀ s ∈ mixed, s.isGradual = true) ∧ sideBySide.failures mixed = [] ∧
    (∀ run, run <+: mixed → (sideBySide.after run).shutdown = false) ∧
    (sideBySide.own 1 mixed).length = 7 ∧
    SameAlong 1 sideBySide mixed sideBySide (sideBySide.own 1 mixed) ∧
    (sideBySide.after mixed).Commute (.producer 0 .publishEvent) (.consumer (.move ⟨0, 1⟩)) := by
  have hbuild : build 16 .pair sideBySide.grid 2 [.accepting, .accepting]
      [(⟨0, 0⟩, 0), (⟨0, 1⟩, 0)] true false = .ok sideBySide := rfl
  have hgradual : ∀ s ∈ mixed, s.isGradual = true := by simp [mixed, Step.isGradual]
  have hclean : sideBySide.failures mixed = [] := by decide +kernel
  have htake : ∀ n ≤ mixed.length, (sideBySide.after (mixed.take n)).shutdown = false := by
    decide +kernel
  have hgoesOn : ∀ run, run <+: mixed → (sideBySide.after run).shutdown = false := by
    intro run hrun
    rw [List.prefix_iff_eq_take.mp hrun]
    exact htake _ hrun.length_le
  obtain ⟨hsame, hcommute⟩ := isolated hbuild hgradual hclean hgoesOn
  refine ⟨hbuild, hgradual, hclean, hgoesOn, by decide +kernel, hsame 1, ?_⟩
  exact hcommute _ _ 0 1 rfl rfl (by decide)

end Transport

end TraceRing
