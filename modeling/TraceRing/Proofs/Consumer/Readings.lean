import Mathlib.Data.List.Destutter
import TraceRing.Proofs.Consumer.Sweeps

/-!
# Readings of the text

A sweep reads the text of a core when it has moved what there was to move, so there is a reading
for each visit that a sweep completes: the sweep comes to the core, no write of an earlier core
failed, and neither does that of the core itself (`Consumer.completes`). What is reported of the
readings is `news`: empty ones are passed over, and so is one that says what was reported last
(`news_eq_destutter`). What was reported last outlives the empty readings and the sweeps that read
nothing, so a lane and its reports go through sweeps as a fold over the readings
(`Consumer.reports_sweep`, `Consumer.reports_drain`).
-/

namespace TraceRing

variable {g : Geometry}

/-! ## Readings and reports -/

/-- What is reported of some readings after `last` was reported. -/
def news (last : Bytes) : List Bytes → List Bytes
  | [] => []
  | text :: later =>
    if text = [] ∨ last = text then news last later else text :: news text later

/-- What was reported last after some readings, if it was `last` before them. -/
def lastTold (last : Bytes) (readings : List Bytes) : Bytes :=
  readings.foldl (fun last text => if text = [] then last else text) last

theorem news_append (last : Bytes) (readings later : List Bytes) :
    news last (readings ++ later) = news last readings ++ news (lastTold last readings) later := by
  induction readings generalizing last with
  | nil => rfl
  | cons text rest ih =>
    simp only [List.cons_append, news, lastTold, List.foldl_cons]
    by_cases hempty : text = []
    · rw [if_pos (.inl hempty), if_pos (.inl hempty), if_pos hempty]
      exact ih last
    · rw [if_neg hempty]
      by_cases hsame : last = text
      · rw [if_pos (.inr hsame), if_pos (.inr hsame), ← hsame]
        exact ih last
      · have hnew : ¬ (text = [] ∨ last = text) := not_or.mpr ⟨hempty, hsame⟩
        rw [if_neg hnew, if_neg hnew, List.cons_append]
        exact congrArg _ (ih text)

theorem lastTold_append (last : Bytes) (readings later : List Bytes) :
    lastTold last (readings ++ later) = lastTold (lastTold last readings) later :=
  List.foldl_append

theorem cons_news (last : Bytes) (readings : List Bytes) :
    last :: news last readings = (readings.filter (· ≠ [])).destutter' (· ≠ ·) last := by
  induction readings generalizing last with
  | nil => rfl
  | cons text rest ih =>
    simp only [news]
    by_cases hempty : text = []
    · rw [if_pos (.inl hempty), List.filter_cons_of_neg (by simpa using hempty)]
      exact ih last
    · rw [List.filter_cons_of_pos (by simpa using hempty)]
      by_cases hsame : last = text
      · rw [if_pos (.inr hsame), List.destutter'_cons_neg _ (not_not.mpr hsame)]
        exact ih last
      · rw [if_neg (not_or.mpr ⟨hempty, hsame⟩), List.destutter'_cons_pos _ hsame, ih text]

/-- If nothing was reported before, the reports are the readings without the empty ones, and of
equal ones in a row there is one. -/
theorem news_eq_destutter (readings : List Bytes) :
    news [] readings = (readings.filter (· ≠ [])).destutter (· ≠ ·) := by
  have hnews := cons_news [] readings
  match hfilter : readings.filter (· ≠ []) with
  | [] =>
    rw [hfilter] at hnews
    exact List.tail_eq_of_cons_eq hnews
  | text :: rest =>
    -- the first reading that is not empty is new
    have htext : [] ≠ text := by
      have hmem : text ∈ readings.filter (· ≠ []) := hfilter ▸ List.mem_cons_self
      exact fun hempty => of_decide_eq_true (List.mem_filter.mp hmem).2 hempty.symm
    rw [hfilter, List.destutter'_cons_pos _ htext] at hnews
    exact List.tail_eq_of_cons_eq hnews

/-- The text that is reported of a core, if one is. -/
def Event.textOf? (core : Core) : Event → Option Bytes
  | .log (.coreText c text) => if c = core then some text else none
  | _ => none

theorem Event.textOf?_eq_none {grid : Grid} {place : Nat} {e : Event}
    (h : e.isOf grid place = false) : e.textOf? (grid.coreAt place) = none := by
  match e with
  | .log notice =>
    cases notice with
    | coreText core text => exact if_neg (of_decide_eq_false h)
    | _ => rfl
  | .write .. | .flush _ | .drop _ => rfl

/-- The texts that are reported of the core at a place. -/
def textsAt (grid : Grid) (place : Nat) (events : List Event) : List Bytes :=
  events.filterMap (Event.textOf? (grid.coreAt place))

@[simp] theorem textsAt_append (grid : Grid) (place : Nat) (events later : List Event) :
    textsAt grid place (events ++ later) = textsAt grid place events ++ textsAt grid place later :=
  List.filterMap_append ..

theorem textsAt_eq_nil {grid : Grid} {place : Nat} {events : List Event}
    (h : ∀ e ∈ events, e.textOf? (grid.coreAt place) = none) : textsAt grid place events = [] :=
  List.filterMap_eq_nil_iff.mpr h

/-- A text is reported of its place only. -/
theorem textsAt_filter (grid : Grid) (place : Nat) (events : List Event) :
    textsAt grid place (events.filter (·.isOf grid place)) = textsAt grid place events := by
  rw [textsAt, textsAt, List.filterMap_filter]
  congr 1
  funext e
  cases h : e.isOf grid place with
  | true => rfl
  | false => exact (Event.textOf?_eq_none h).symm

namespace Lane

/-- From some readings a lane reported what was news, and remembers the last of it. -/
structure Reports (l l' : Lane g) (readings texts : List Bytes) : Prop where
  texts : texts = news l.reported readings
  reported : l'.reported = lastTold l.reported readings

namespace Reports

variable {l l' l'' : Lane g} {readings later texts texts' : List Bytes}

theorem nothing (h : l'.reported = l.reported) : l.Reports l' [] [] :=
  ⟨rfl, h⟩

theorem append (h : l.Reports l' readings texts) (h' : l'.Reports l'' later texts') :
    l.Reports l'' (readings ++ later) (texts ++ texts') where
  texts := by rw [h.texts, h'.texts, h.reported, news_append]
  reported := by rw [h'.reported, h.reported, lastTold_append]

end Reports

/-! ## One visit -/

/-- What is moved is not reported as a text. -/
theorem textOf?_move (l : Lane g) (core core' : Core) (place : Nat) (verbose : Bool) :
    ∀ e ∈ (l.move core place verbose).events, e.textOf? core' = none := by
  intro e he
  have hevents : ∀ (notices : List Event) (offers : List Bytes),
      (∀ n ∈ notices, n.textOf? core' = none) →
      e ∈ notices ++ offers.map (Event.write place) → e.textOf? core' = none := by
    intro notices offers hnotices hmem
    rcases List.mem_append.mp hmem with hnotice | hoffer
    · exact hnotices e hnotice
    · obtain ⟨offer, -, rfl⟩ := List.mem_map.mp hoffer
      rfl
  simp only [move] at he
  split at he
  · split at he <;> refine hevents _ _ ?_ he <;> cases verbose <;> simp [Event.textOf?]
  · cases he

theorem reported_move (l : Lane g) (core : Core) (place : Nat) (verbose : Bool) :
    (l.move core place verbose).lane.reported = l.reported := by
  simp only [move]
  split
  · split <;> rfl
  · rfl

theorem text_move (l : Lane g) (core : Core) (place : Nat) (verbose : Bool) :
    (l.move core place verbose).lane.ring.text = l.ring.text := by
  simp only [move]
  split
  · split <;> rfl
  · rfl

/-- A visit is one reading. -/
theorem reports_visit (l : Lane g) (grid : Grid) (place : Nat) (verbose : Bool) :
    let visit := l.visit (grid.coreAt place) place verbose
    l.Reports visit.1 [l.ring.text] (textsAt grid place visit.2) := by
  have hreported := l.reported_move (grid.coreAt place) place verbose
  have htext := l.text_move (grid.coreAt place) place verbose
  have hmove : textsAt grid place (l.move (grid.coreAt place) place verbose).events = [] :=
    textsAt_eq_nil (l.textOf?_move _ _ _ _)
  simp only [visit, textsAt_append, hmove, List.nil_append]
  constructor
  · simp only [reportText, htext, hreported, news]
    split
    · rfl
    · simp [textsAt, Event.textOf?]
  · rw [reported_reportText, htext, hreported]
    rfl

end Lane

namespace Consumer

/-! ## A sweep -/

/-- Whether a sweep completes its visit of the lane at a place. -/
def completes (lanes : List (Lane g)) (shutdown : Bool) (place : Nat) : Bool :=
  !requested lanes shutdown place &&
    (lanes.take (place + 1)).all fun l => l.delivery.result.isOk

/-- The text that a sweep reads at a place, if it completes its visit there. -/
def readings (lanes : List (Lane g)) (shutdown : Bool) (place : Nat) : List Bytes :=
  if completes lanes shutdown place then (lanes[place]?.map fun l => l.ring.text).toList else []

variable {grid : Grid} {verbose shutdown : Bool} {lanes : List (Lane g)} {q n : Nat} {l : Lane g}

theorem Swept.completes_iff {p : Pass g Nat} (h : Swept grid verbose 0 lanes shutdown n p)
    (hl : lanes[q]? = some l) : completes lanes shutdown q = true ↔ q < n := by
  have hlt : q < lanes.length := (List.getElem?_eq_some_iff.mp hl).1
  simp only [completes, Bool.and_eq_true, Bool.not_eq_true', List.all_eq_true]
  constructor
  · rintro ⟨hgoesOn, hok⟩
    refine h.lt_of_ok hl hgoesOn fun j k hj hk => ?_
    have hmem : k ∈ lanes.take (q + 1) := by
      rw [List.mem_iff_getElem?]
      exact ⟨j, by rw [List.getElem?_take_of_lt (Nat.lt_succ_of_le hj), hk]⟩
    have hk := hok k hmem
    cases hresult : k.delivery.result with
    | error e =>
      rw [hresult] at hk
      cases hk
    | ok => rfl
  · intro hq
    refine ⟨(h.visited q l hq hl).1, fun k hmem => ?_⟩
    obtain ⟨j, hj⟩ := List.mem_iff_getElem?.mp hmem
    rw [List.getElem?_take] at hj
    split at hj
    · next hle =>
      rw [(h.visited j k (by omega) hj).2.1]
      rfl
    · cases hj

/-- Of the visits before the end of a sweep, the texts at a place are those of its visit. -/
theorem textsAt_visits (grid : Grid) (verbose : Bool) (n : Nat) (hl : lanes[q]? = some l) :
    textsAt grid q ((visits grid verbose 0 (lanes.take n)).map Prod.snd).flatten =
      if q < n then textsAt grid q (l.visit (grid.coreAt q) q verbose).2 else [] := by
  rw [← textsAt_filter, filter_visits, if_pos (Nat.zero_le q), Nat.sub_zero, List.getElem?_take]
  split
  · rw [hl, Option.map_some, Option.getD_some]
  · rfl

/-- What a sweep reports of a core is the news of its reading there. -/
theorem reports_sweep (grid : Grid) (verbose shutdown : Bool) (hl : lanes[q]? = some l) :
    let swept := sweep grid verbose lanes shutdown
    ∃ l', swept.lanes[q]? = some l' ∧
      l.Reports l' (readings lanes shutdown q) (textsAt grid q swept.events) := by
  obtain ⟨n, hswept⟩ := exists_swept grid verbose 0 lanes shutdown
  intro swept
  change Swept grid verbose 0 lanes shutdown n swept at hswept
  have hcompletes := hswept.completes_iff hl
  have htexts : textsAt grid q swept.events =
      if q < n then textsAt grid q (l.visit (grid.coreAt q) q verbose).2 else [] := by
    rw [← textsAt_visits grid verbose n hl]
    cases hswept.ends with
    | clear _ _ _ events => rw [events]
    | broken _ _ _ _ _ _ events =>
      rw [events, textsAt_append, textsAt_eq_nil (Lane.textOf?_move _ _ _ _ _), List.append_nil]
  rcases Nat.lt_trichotomy q n with hvisited | rfl | hbehind
  · obtain ⟨-, -, l', hl', hl'_visited⟩ := hswept.visited q l hvisited hl
    refine ⟨l', hl', ?_⟩
    rw [readings, if_pos (hcompletes.mpr hvisited), hl, htexts, if_pos hvisited]
    exact ⟨(l.reports_visit grid q verbose).texts, hl'_visited.reported⟩
  · have hnone : readings lanes shutdown q = [] :=
      if_neg fun h => Nat.lt_irrefl q (hcompletes.mp h)
    rw [hnone, htexts, if_neg (Nat.lt_irrefl q)]
    cases hswept.ends with
    | clear _ kept => exact ⟨l, kept.trans hl, .nothing rfl⟩
    | broken _ lane _ lane' failed =>
      obtain rfl : _ = l := Option.some.inj (lane.symm.trans hl)
      exact ⟨_, lane', .nothing failed.reported⟩
  · have hnone : readings lanes shutdown q = [] :=
      if_neg fun h => Nat.lt_asymm hbehind (hcompletes.mp h)
    rw [hnone, htexts, if_neg (Nat.lt_asymm hbehind)]
    exact ⟨l, (hswept.kept q hbehind).trans hl, .nothing rfl⟩

/-! ## Repeated sweeps -/

/-- The readings at a place of all sweeps until one moves nothing or fails. -/
def drainReadings (grid : Grid) (verbose : Bool) (lanes : List (Lane g)) (shutdown : Bool)
    (place : Nat) : List Bytes :=
  let s := sweep grid verbose lanes shutdown
  match _h : s.result with
  | .error _ => readings lanes shutdown place
  | .ok 0 => readings lanes shutdown place
  | .ok (_ + 1) =>
    readings lanes shutdown place ++ drainReadings grid verbose s.lanes s.shutdown place
termination_by backlog lanes
decreasing_by
  have hstep := backlog_sweepFrom grid verbose 0 lanes shutdown _h
  change backlog (sweepFrom grid verbose 0 lanes shutdown).lanes < backlog lanes
  omega

/-- What the sweeps report of a core is the news of their readings there, one sweep after the
other. -/
theorem reports_drain (grid : Grid) (verbose shutdown : Bool) (hl : lanes[q]? = some l) :
    let drained := drain grid verbose lanes shutdown
    ∃ l', drained.lanes[q]? = some l' ∧
      l.Reports l' (drainReadings grid verbose lanes shutdown q)
        (textsAt grid q drained.events) := by
  -- a sweep that moves something leaves less to move
  induction hm : backlog lanes using Nat.strongRecOn generalizing lanes shutdown l with
  | ind m ih =>
    obtain ⟨middle, hmiddle, hfirst⟩ := reports_sweep grid verbose shutdown hl
    rw [drain_eq, drainReadings]
    split
    · next e hresult =>
      simp only [hresult]
      exact ⟨middle, hmiddle, hfirst⟩
    · next hresult =>
      simp only [hresult]
      exact ⟨middle, hmiddle, hfirst⟩
    · next n hresult =>
      have hstep := backlog_sweepFrom grid verbose 0 lanes shutdown hresult
      have hfewer : backlog (sweep grid verbose lanes shutdown).lanes < m := by
        change backlog (sweepFrom grid verbose 0 lanes shutdown).lanes < m
        omega
      obtain ⟨l', hl', hlater⟩ := ih _ hfewer _ hmiddle rfl
      simp only [hresult, Pass.behind, textsAt_append]
      exact ⟨l', hl', hfirst.append hlater⟩

end Consumer

end TraceRing
