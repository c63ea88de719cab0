import TraceRing.Consumer

/-!
# Closing the sinks

At the end the consumer goes once over its lanes. It flushes each sink and lets it go before it
comes to the next one, and a sink that cannot be flushed is told of and keeps none of the later
ones from being flushed. What the end answers is the failure of the first of these sinks, or the
packets moved through each lane (`Consumer.finish_closes`).
-/

namespace TraceRing

/-- Whether a sink is flushed or let go. -/
def Event.isClosing : Event → Bool
  | .flush _ => true
  | .drop _ => true
  | _ => false

def Event.notice? : Event → Option Log.Notice
  | .log notice => some notice
  | _ => none

variable {g : Geometry}

namespace Lane

/-- What is told of the end of a lane. -/
def complaint (l : Lane g) (core : Core) : Option Log.Notice :=
  l.sink.flushError.map (.flushFailed core)

/-- What is seen of the end of a lane. -/
def closing (l : Lane g) (core : Core) (place : Nat) : List Event :=
  .flush place :: ((l.complaint core).toList.map .log ++ [.drop place])

theorem events_finish (l : Lane g) (core : Core) (place : Nat) :
    (l.finish core place).2 = l.closing core place := by
  cases h : l.sink.flushError <;> simp [finish, closing, complaint, h]

theorem level_of_mem_complaint {l : Lane g} {core : Core} {notice : Log.Notice}
    (h : notice ∈ l.complaint core) : notice.level = .error := by
  obtain ⟨e, -, rfl⟩ := Option.map_eq_some_iff.mp h
  rfl

theorem filter_isClosing_closing (l : Lane g) (core : Core) (place : Nat) :
    (l.closing core place).filter Event.isClosing = [.flush place, .drop place] := by
  rw [closing]
  cases l.complaint core <;> rfl

theorem filterMap_notice?_closing (l : Lane g) (core : Core) (place : Nat) :
    (l.closing core place).filterMap Event.notice? = (l.complaint core).toList := by
  rw [closing]
  cases l.complaint core <;> rfl

end Lane

namespace Consumer

/-! ## What is seen -/

theorem events_finishFrom_cons (grid : Grid) (place : Nat) (l : Lane g) (rest : List (Lane g)) :
    (finishFrom grid place (l :: rest)).2 =
      l.closing (grid.coreAt place) place ++ (finishFrom grid (place + 1) rest).2 := by
  rw [← Lane.events_finish]
  simp only [finishFrom]
  split <;> rfl

/-- One lane is closed after the other, whether or not an earlier one failed. -/
theorem events_finishFrom (grid : Grid) (place : Nat) (lanes : List (Lane g)) :
    (finishFrom grid place lanes).2 =
      (lanes.zipIdx place).flatMap fun l => l.1.closing (grid.coreAt l.2) l.2 := by
  induction lanes generalizing place with
  | nil => rfl
  | cons l rest ih =>
    rw [events_finishFrom_cons, ih, List.zipIdx_cons, List.flatMap_cons]

/-- Every sink is flushed once, and let go before the next one is flushed. -/
theorem filter_isClosing_finishFrom (grid : Grid) (place : Nat) (lanes : List (Lane g)) :
    (finishFrom grid place lanes).2.filter Event.isClosing =
      (List.range' place lanes.length).flatMap fun i => [.flush i, .drop i] := by
  induction lanes generalizing place with
  | nil => rfl
  | cons l rest ih =>
    rw [events_finishFrom_cons, List.filter_append, Lane.filter_isClosing_closing, ih,
      List.length_cons, List.range'_succ, List.flatMap_cons]

/-- Each sink that cannot be flushed is told of once. -/
theorem filterMap_notice?_finishFrom (grid : Grid) (place : Nat) (lanes : List (Lane g)) :
    (finishFrom grid place lanes).2.filterMap Event.notice? =
      (lanes.zipIdx place).filterMap fun l => l.1.complaint (grid.coreAt l.2) := by
  induction lanes generalizing place with
  | nil => rfl
  | cons l rest ih =>
    rw [events_finishFrom_cons, List.filterMap_append, Lane.filterMap_notice?_closing, ih,
      List.zipIdx_cons, List.filterMap_cons]
    cases l.complaint (grid.coreAt place) <;> rfl

/-! ## What is answered -/

/-- The failure of the first lane is the answer, whatever comes later. -/
theorem result_finishFrom_cons (grid : Grid) (place : Nat) (l : Lane g) (rest : List (Lane g)) :
    (finishFrom grid place (l :: rest)).1 =
      match l.sink.flushError with
      | some e => .error (.packetNotWritten (grid.coreAt place) e)
      | none => (finishFrom grid (place + 1) rest).1.map (l.consumed :: ·) := by
  simp only [finishFrom, Lane.finish]
  cases l.sink.flushError <;> rfl

/-- The end succeeds if every sink can be flushed, and then it answers what was moved. -/
theorem finishFrom_eq_ok_iff (grid : Grid) (place : Nat) (lanes : List (Lane g))
    {counts : List Nat} :
    (finishFrom grid place lanes).1 = .ok counts ↔
      (∀ l ∈ lanes, l.sink.flushError = none) ∧ counts = lanes.map Lane.consumed := by
  induction lanes generalizing place counts with
  | nil => simp [finishFrom, eq_comm]
  | cons l rest ih =>
    rw [result_finishFrom_cons, List.forall_mem_cons, List.map_cons]
    cases hfirst : l.sink.flushError with
    | some e => simp
    | none =>
      cases hrest : (finishFrom grid (place + 1) rest).1 with
      | error f =>
        have hfails : ∀ later, ¬ ((∀ k ∈ rest, k.sink.flushError = none) ∧ later = _) :=
          fun later hlater => by cases hrest.symm.trans ((ih (place + 1)).mpr hlater)
        simp only [Except.map, reduceCtorEq, true_and, false_iff]
        exact fun hall => hfails _ ⟨hall.1, rfl⟩
      | ok later =>
        obtain ⟨hall, rfl⟩ := (ih (place + 1)).mp hrest
        simp only [Except.map, Except.ok.injEq, true_and, eq_comm]
        exact ⟨fun hcounts => ⟨hall, hcounts⟩, And.right⟩

/-- The end fails with the failure of the first sink that cannot be flushed. -/
theorem finishFrom_eq_error_iff (grid : Grid) (place : Nat) (lanes : List (Lane g))
    {failure : TransportFailure} :
    (finishFrom grid place lanes).1 = .error failure ↔
      ∃ (i : Nat) (l : Lane g) (e : IoError), lanes[i]? = some l ∧
        l.sink.flushError = some e ∧ (∀ k ∈ lanes.take i, k.sink.flushError = none) ∧
        failure = .packetNotWritten (grid.coreAt (place + i)) e := by
  induction lanes generalizing place with
  | nil => simp [finishFrom]
  | cons l rest ih =>
    rw [result_finishFrom_cons]
    cases hfirst : l.sink.flushError with
    | some e =>
      constructor
      · intro hfailure
        cases hfailure
        exact ⟨0, l, e, rfl, hfirst, by simp, rfl⟩
      · rintro ⟨i, k, e', hk, hfails, hbefore, rfl⟩
        -- No later sink is the first that fails.
        cases i with
        | succ i => simp [hfirst] at hbefore
        | zero =>
          cases hk
          cases hfirst.symm.trans hfails
          rfl
    | none =>
      have hmap : ((finishFrom grid (place + 1) rest).1.map (l.consumed :: ·) = .error failure) ↔
          (finishFrom grid (place + 1) rest).1 = .error failure := by
        cases (finishFrom grid (place + 1) rest).1 <;> simp [Except.map]
      rw [hmap, ih (place + 1)]
      constructor
      · rintro ⟨i, k, e, hk, hfails, hbefore, rfl⟩
        refine ⟨i + 1, k, e, hk, hfails, ?_, ?_⟩
        · rw [List.take_succ_cons]
          exact List.forall_mem_cons.mpr ⟨hfirst, hbefore⟩
        · rw [Nat.add_right_comm, Nat.add_assoc]
      · rintro ⟨i, k, e, hk, hfails, hbefore, rfl⟩
        cases i with
        | zero =>
          cases hk
          cases hfirst.symm.trans hfails
        | succ i =>
          rw [List.take_succ_cons, List.forall_mem_cons] at hbefore
          exact ⟨i, k, e, hk, hfails, hbefore.2, by rw [Nat.add_right_comm, Nat.add_assoc]⟩

/-! ## The end -/

/-- The end closes every sink and tells of each that fails. It answers the failure at the lowest
place, and if there is none, the packets moved through each lane, which are all that were moved. -/
theorem finish_closes (grid : Grid) (lanes : List (Lane g)) :
    let done := finish grid lanes
    -- Lane after lane, also after one that failed.
    done.2 = (lanes.zipIdx.flatMap fun l => l.1.closing (grid.coreAt l.2) l.2) ∧
    done.2.filter Event.isClosing =
      ((List.range lanes.length).flatMap fun i => [.flush i, .drop i]) ∧
    done.2.filterMap Event.notice? =
      (lanes.zipIdx.filterMap fun l =>
        l.1.sink.flushError.map (Log.Notice.flushFailed (grid.coreAt l.2))) ∧
    (∀ notice ∈ done.2.filterMap Event.notice?, notice.level = .error) ∧
    (∀ failure, done.1 = .error failure ↔
      ∃ (i : Nat) (l : Lane g) (e : IoError), lanes[i]? = some l ∧
        l.sink.flushError = some e ∧ (∀ k ∈ lanes.take i, k.sink.flushError = none) ∧
        failure = .packetNotWritten (grid.coreAt i) e) ∧
    (∀ counts, done.1 = .ok counts ↔
      (∀ l ∈ lanes, l.sink.flushError = none) ∧ counts = lanes.map Lane.consumed) ∧
    (∀ counts, done.1 = .ok counts →
      counts.length = lanes.length ∧ counts.sum = total lanes) := by
  have hnotices := filterMap_notice?_finishFrom grid 0 lanes
  refine ⟨events_finishFrom grid 0 lanes, ?_, hnotices, ?_, ?_, ?_, ?_⟩
  · rw [List.range_eq_range']
    exact filter_isClosing_finishFrom grid 0 lanes
  · intro notice hnotice
    rw [finish, hnotices] at hnotice
    obtain ⟨l, -, hl⟩ := List.mem_filterMap.mp hnotice
    exact Lane.level_of_mem_complaint hl
  · intro failure
    simpa only [finish, Nat.zero_add] using finishFrom_eq_error_iff grid 0 lanes
  · exact fun counts => finishFrom_eq_ok_iff grid 0 lanes
  · intro counts hcounts
    obtain ⟨-, rfl⟩ := (finishFrom_eq_ok_iff grid 0 lanes).mp hcounts
    exact ⟨List.length_map _, rfl⟩

end Consumer

end TraceRing
