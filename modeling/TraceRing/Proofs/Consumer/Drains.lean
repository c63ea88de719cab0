import TraceRing.Proofs.Consumer.Pieces

/-!
# Draining

A sink is willing if it takes something of whatever it is offered, now or after an interruption,
and nobody requests shutdown meanwhile. With willing sinks a sweep moves one packet of each lane
that has one, so that each gap shrinks by one (`Consumer.gaps_sweep`). Lanes of different gaps
finish at different times, and the last sweep, which finds nothing, comes after the widest gap is
closed (`Consumer.drain_of_willing`).
-/

namespace TraceRing

variable {g : Geometry}

/-! ## Willing sinks -/

namespace Turn

/-- Whether a turn neither ends a write nor requests shutdown. -/
def isWilling (t : Turn) : Bool :=
  t.failure?.isNone && !t.tripsShutdown

variable {t : Turn} {script : List Turn}

theorem failure?_of_isWilling (h : t.isWilling = true) : t.failure? = none :=
  Option.isNone_iff_eq_none.mp (Bool.and_eq_true_iff.mp h).1

theorem tripsShutdown_of_isWilling (h : t.isWilling = true) : t.tripsShutdown = false := by
  simpa using (Bool.and_eq_true_iff.mp h).2

/-- By a script of such turns every write ends well. -/
theorem result_writeAll_of_isWilling (h : ∀ t ∈ script, t.isWilling = true) (offer : Bytes) :
    (writeAll script offer).result = .ok () := by
  cases hresult : (writeAll script offer).result with
  | ok u => rfl
  | error e =>
    obtain ⟨t, ht, hfails⟩ := List.exists_of_findSome?_eq_some (error_writeAll hresult)
    rw [failure?_of_isWilling (h t ht)] at hfails
    cases hfails

theorem tripped_writeAll_of_isWilling (h : ∀ t ∈ script, t.isWilling = true) (offer : Bytes) :
    (writeAll script offer).tripped = false := by
  fun_induction writeAll script offer with
  | case1 script => rfl
  | case2 offer hne => rfl
  | case3 turn script offer hne hreply => exact tripsShutdown_of_isWilling (h turn (.head _))
  | case4 turn script offer hne hreply => exact tripsShutdown_of_isWilling (h turn (.head _))
  | case5 turn script offer hne n hreply ih =>
    obtain ⟨hturn, hrest⟩ := List.forall_mem_cons.mp h
    simp [Delivery.after, tripsShutdown_of_isWilling hturn, ih hrest]
  | case6 turn script offer hne e hreply hkind ih =>
    obtain ⟨hturn, hrest⟩ := List.forall_mem_cons.mp h
    simp [Delivery.after, tripsShutdown_of_isWilling hturn, ih hrest]
  | case7 turn script offer hne e hreply hkind =>
    exact tripsShutdown_of_isWilling (h turn (.head _))

end Turn

/-- A sink that takes all it is offered in the end, without a request to shut down. -/
def Sink.IsWilling (s : Sink) : Prop :=
  ∀ t ∈ s.script, t.isWilling = true

instance (s : Sink) : Decidable s.IsWilling :=
  inferInstanceAs (Decidable (∀ t ∈ s.script, t.isWilling = true))

namespace Lane

variable {l l' : Lane g}

/-- What is left of the script after a delivery is a part of it. -/
theorem willing_delivery (h : l.sink.IsWilling) :
    ∀ t ∈ l.delivery.script, t.isWilling = true := by
  intro t ht
  rw [delivery, script_writeAll] at ht
  exact h t (List.mem_of_mem_drop ht)

theorem backlog_of_empty (h : l.IsEmpty) : l.ring.backlog = 0 := by
  refine Nat.eq_zero_of_not_pos fun hpos => ?_
  exact Bool.false_ne_true (h.symm.trans (l.ring.backlog_pos_iff.mp hpos))

/-- A visit that came to its end took the oldest packet, if there was one. -/
theorem Visited.took (h : l.Visited l') : l.Took l' (min 1 l.ring.backlog) false := by
  cases hdata : Ring.hasData l.ring.producerIndex l.ring.consumerIndex with
  | false =>
    obtain ⟨hring, hsink, hconsumed⟩ := h.kept hdata
    rw [backlog_of_empty hdata]
    exact .still hring hconsumed hsink
  | true =>
    have hpos := l.ring.backlog_pos_iff.mpr hdata
    obtain ⟨hring, hsink, hconsumed⟩ := h.moved hdata
    rw [Nat.min_eq_left hpos]
    refine ⟨hpos, hring, hconsumed, [], ?_, fun _ => rfl, nofun⟩
    rw [hsink, Sink.received_took, offer, if_pos hdata, Ring.pending_eq_cons hdata]
    simp [stream]

/-- The sink of a lane stays willing in a visit. -/
theorem Visited.isWilling (h : l.Visited l') (hsink : l.sink.IsWilling) : l'.sink.IsWilling := by
  cases hdata : Ring.hasData l.ring.producerIndex l.ring.consumerIndex with
  | false =>
    rw [(h.kept hdata).2.1]
    exact hsink
  | true =>
    rw [(h.moved hdata).sink]
    exact willing_delivery hsink

/-- Every packet that waited was taken, in order, and nothing else. -/
structure Drained (l l' : Lane g) : Prop where
  /-- The consumer index came to the producer index, and nothing else of the ring changed. -/
  ring : l'.ring = l.ring.publishConsumer l.ring.producerIndex
  empty : l'.IsEmpty
  received : l'.sink.received = l.sink.received ++ stream l.ring.pending
  consumed : l'.consumed = l.consumed + l.ring.backlog

theorem Took.drained (h : l.Took l' l.ring.backlog false) : l.Drained l' := by
  have hring : l'.ring = l.ring.publishConsumer l.ring.producerIndex := by
    rw [h.ring, Ring.released, Ring.backlog, Ring.gap, UInt32.ofNat_toNat, UInt32.add_comm,
      UInt32.sub_add_cancel]
  obtain ⟨bytes, hreceived, hnone, -⟩ := h.received
  refine ⟨hring, ?_, ?_, h.consumed⟩
  · simp [IsEmpty, hring, Ring.publishConsumer, Ring.hasData]
  · rw [hreceived, hnone rfl, List.append_nil, List.take_of_length_le (by simp)]

end Lane

namespace Consumer

/-! ## Sweeps -/

/-- The packets that wait in each lane. -/
def gaps (lanes : List (Lane g)) : List Nat :=
  lanes.map fun l => l.ring.backlog

/-- What each sweep moves until one moves nothing, with some packets in each lane: the sweep after
`k` others finds a packet where more than `k` were waiting. -/
def counts (gaps : List Nat) : List Nat :=
  (List.range (gaps.foldr max 0 + 1)).map fun k => gaps.countP (k < ·)

theorem foldr_max_eq_zero_iff {gaps : List Nat} :
    gaps.foldr max 0 = 0 ↔ gaps.countP (0 < ·) = 0 := by
  induction gaps with
  | nil => simp
  | cons gap rest ih =>
    simp only [List.foldr_cons, List.countP_cons]
    split
    · next hpos =>
      have := of_decide_eq_true hpos
      omega
    · next hzero =>
      have := of_decide_eq_false (Bool.eq_false_iff.mpr hzero)
      omega

theorem foldr_max_pred (gaps : List Nat) :
    (gaps.map (· - 1)).foldr max 0 = gaps.foldr max 0 - 1 := by
  induction gaps with
  | nil => rfl
  | cons gap rest ih =>
    simp only [List.map_cons, List.foldr_cons, ih]
    omega

/-- The sweeps after the first one are those of gaps that are smaller by one. -/
theorem counts_eq (gaps : List Nat) :
    counts gaps =
      match gaps.countP (0 < ·) with
      | 0 => [0]
      | n + 1 => (n + 1) :: counts (gaps.map (· - 1)) := by
  cases hfirst : gaps.countP (0 < ·) with
  | zero => simp [counts, foldr_max_eq_zero_iff.mpr hfirst, hfirst]
  | succ n =>
    have hpos : gaps.foldr max 0 = (gaps.map (· - 1)).foldr max 0 + 1 := by
      have hne : gaps.foldr max 0 ≠ 0 := by
        rw [ne_eq, foldr_max_eq_zero_iff, hfirst]
        exact Nat.succ_ne_zero n
      rw [foldr_max_pred]
      omega
    have hlater : ∀ k, (gaps.map (· - 1)).countP (k < ·) = gaps.countP (k + 1 < ·) := by
      intro k
      rw [List.countP_map]
      refine List.countP_congr fun gap _ => ?_
      simp
      omega
    rw [counts, hpos, List.range_succ_eq_map, List.map_cons, hfirst, List.map_map]
    simp only [counts, hlater]
    rfl

/-! ## Draining -/

section Willing

variable {lanes : List (Lane g)}

/-- With willing sinks a sweep comes to its end in every lane. -/
theorem sweep_of_willing (grid : Grid) (verbose : Bool) (h : ∀ l ∈ lanes, l.sink.IsWilling) :
    (sweep grid verbose lanes false).result = .ok ((gaps lanes).countP (0 < ·)) ∧
      (sweep grid verbose lanes false).shutdown = false ∧
      ∀ (i : Nat) (l' : Lane g), (sweep grid verbose lanes false).lanes[i]? = some l' →
        ∃ l, lanes[i]? = some l ∧ l.Visited l' := by
  have hok : ∀ (i : Nat) (l : Lane g), lanes[i]? = some l → l.delivery.result = .ok () :=
    fun i l hl => Turn.result_writeAll_of_isWilling (h l (List.mem_of_getElem? hl)) _
  have hgoesOn : ∀ i, requested lanes false i = false := by
    intro i
    simp only [requested, Bool.false_or, List.any_eq_false]
    intro l hl htrips
    have hno := Turn.tripped_writeAll_of_isWilling (h l (List.mem_of_mem_take hl)) l.offer
    exact Bool.false_ne_true (hno.symm.trans htrips)
  obtain ⟨n, hswept⟩ := exists_swept grid verbose 0 lanes false
  -- a sweep stops short only at a lane that fails or for a request to shut down
  have hall : n = lanes.length := by
    refine Nat.le_antisymm hswept.le (Nat.le_of_not_lt fun hlt => ?_)
    exact Nat.lt_irrefl n (hswept.lt_of_ok (List.getElem?_eq_getElem hlt) (hgoesOn n)
      fun j k _ hk => hok j k hk)
  subst hall
  refine ⟨?_, ?_, fun i l' hl' => ?_⟩
  · have hready : (gaps lanes).countP (0 < ·) = ready lanes := by
      rw [gaps, List.countP_map]
      refine List.countP_congr fun l _ => ?_
      simp [Ring.backlog_pos_iff]
    rw [hready]
    cases hswept.ends with
    | clear stop kept result events => rwa [List.take_length] at result
    | broken goesOn lane fails => simp at lane
  · rw [sweep, hswept.shutdown]
    exact hgoesOn _
  · have hi : i < lanes.length := by
      rw [← hswept.length]
      exact (List.getElem?_eq_some_iff.mp hl').1
    obtain ⟨-, -, l'', hl'', hvisited⟩ := hswept.visited i lanes[i] hi (List.getElem?_eq_getElem hi)
    obtain rfl : l' = l'' := Option.some.inj (hl'.symm.trans hl'')
    exact ⟨lanes[i], List.getElem?_eq_getElem hi, hvisited⟩

/-- A sweep makes each gap smaller by one, unless it is closed already. -/
theorem gaps_sweep (grid : Grid) (verbose : Bool) (h : ∀ l ∈ lanes, l.sink.IsWilling) :
    gaps (sweep grid verbose lanes false).lanes = (gaps lanes).map (· - 1) := by
  obtain ⟨-, -, hvisited⟩ := sweep_of_willing grid verbose h
  have hlength : (sweep grid verbose lanes false).lanes.length = lanes.length :=
    length_sweepFrom grid verbose 0 lanes false
  apply List.ext_getElem
  · simpa [gaps] using hlength
  · intro i hi hi'
    simp only [gaps, List.length_map, List.getElem_map] at hi hi' ⊢
    obtain ⟨l, hl, hvisit⟩ := hvisited i _ (List.getElem?_eq_getElem hi)
    rw [List.getElem?_eq_getElem hi', Option.some.injEq] at hl
    rw [hl, hvisit.took.ring, Ring.backlog_released hvisit.took.le]
    omega

/-- Sweeping until nothing moves takes all packets of each lane. -/
theorem took_drain (grid : Grid) (verbose : Bool) (h : ∀ l ∈ lanes, l.sink.IsWilling) :
    (drain grid verbose lanes false).result = .ok (counts (gaps lanes)) ∧
      (drain grid verbose lanes false).shutdown = false ∧
      ∀ (i : Nat) (l' : Lane g), (drain grid verbose lanes false).lanes[i]? = some l' →
        ∃ l, lanes[i]? = some l ∧ l.Took l' l.ring.backlog false := by
  -- a sweep that moves something leaves fewer packets in all lanes together
  induction hm : backlog lanes using Nat.strongRecOn generalizing lanes with
  | ind m ih =>
    obtain ⟨hresult, hshutdown, hvisited⟩ := sweep_of_willing grid verbose h
    rw [drain_eq, counts_eq]
    cases hcount : (gaps lanes).countP (0 < ·) with
    | zero =>
      rw [hcount] at hresult
      simp only [hresult, hshutdown, true_and]
      intro i l' hl'
      obtain ⟨l, hl, hvisit⟩ := hvisited i l' hl'
      refine ⟨l, hl, ?_⟩
      -- no lane had a packet
      have hempty : l.ring.backlog = 0 := by
        have hnone := List.countP_eq_zero.mp hcount l.ring.backlog
          (List.mem_map_of_mem (List.mem_of_getElem? hl))
        simpa using hnone
      have htook := hvisit.took
      rwa [hempty] at htook ⊢
    | succ n =>
      rw [hcount] at hresult
      have hstep := backlog_sweepFrom grid verbose 0 lanes false hresult
      have hfewer : backlog (sweep grid verbose lanes false).lanes < m := by
        change backlog (sweepFrom grid verbose 0 lanes false).lanes < m
        omega
      have hwilling : ∀ l' ∈ (sweep grid verbose lanes false).lanes, l'.sink.IsWilling := by
        intro l' hl'
        obtain ⟨i, hi⟩ := List.getElem?_of_mem hl'
        obtain ⟨l, hl, hvisit⟩ := hvisited i l' hi
        exact hvisit.isWilling (h l (List.mem_of_getElem? hl))
      obtain ⟨hlater, hgoesOn, htook⟩ := ih _ hfewer hwilling rfl
      simp only [hresult, hshutdown, Pass.behind, hlater, hgoesOn, gaps_sweep grid verbose h,
        Except.map, List.singleton_append, true_and]
      intro i l' hl'
      obtain ⟨middle, hmiddle, hrest⟩ := htook i l' hl'
      obtain ⟨l, hl, hvisit⟩ := hvisited i middle hmiddle
      refine ⟨l, hl, ?_⟩
      have hfirst := hvisit.took
      have hall := hfirst.trans hrest
      rw [hfirst.ring, Ring.backlog_released hfirst.le] at hall
      rwa [Nat.add_sub_cancel' hfirst.le] at hall

/-- Willing sinks are drained: sweeping until nothing moves takes one sweep more than there are
packets in the fullest ring, each of them moves a packet of every lane that still has one, and in
the end every packet that waited is in its sink and no ring has any left. -/
theorem drain_of_willing (grid : Grid) (verbose : Bool) (h : ∀ l ∈ lanes, l.sink.IsWilling) :
    (drain grid verbose lanes false).result = .ok (counts (gaps lanes)) ∧
      (drain grid verbose lanes false).shutdown = false ∧
      (drain grid verbose lanes false).lanes.length = lanes.length ∧
      ∀ (i : Nat) (l' : Lane g), (drain grid verbose lanes false).lanes[i]? = some l' →
        ∃ l, lanes[i]? = some l ∧ l.Drained l' := by
  obtain ⟨hresult, hshutdown, htook⟩ := took_drain grid verbose h
  refine ⟨hresult, hshutdown, length_drain grid verbose lanes false, fun i l' hl' => ?_⟩
  obtain ⟨l, hl, hall⟩ := htook i l' hl'
  exact ⟨l, hl, hall.drained⟩

end Willing

/-- Three lanes with two packets, none and one. The indices of the first ring wrap around between
its packets, and its sink takes a piece and is then interrupted. -/
def uneven : List (Lane .pair) :=
  [.new { Ring.empty .pair with consumerIndex := 4294967295, producerIndex := 1 }
      ⟨[⟨.takeUpTo 5, false⟩, ⟨.fail (.reported .interrupted "try again"), false⟩], none, []⟩,
    .new (.empty .pair) .accepting,
    .new { Ring.empty .pair with producerIndex := 1 } .accepting]

theorem drain_of_uneven :
    (∀ l ∈ uneven, l.sink.IsWilling) ∧
    (drain ⟨1, 3, by decide, by decide⟩ false uneven false).result.toOption = some [2, 1, 0] ∧
    ∃ l', (drain ⟨1, 3, by decide, by decide⟩ false uneven false).lanes[0]? = some l' ∧
      l'.ring.consumerIndex = 1 ∧ l'.sink.received.length = 64 ∧ l'.consumed = 2 := by
  have hwilling : ∀ l ∈ uneven, l.sink.IsWilling := by decide
  obtain ⟨hresult, -, hlength, hdrained⟩ :=
    drain_of_willing ⟨1, 3, by decide, by decide⟩ false hwilling
  refine ⟨hwilling, ?_, ?_⟩
  · rw [hresult]
    decide
  · have hlt : 0 < (drain ⟨1, 3, by decide, by decide⟩ false uneven false).lanes.length := by
      rw [hlength]
      decide
    have hl' := List.getElem?_eq_getElem hlt
    obtain ⟨l, hl, hall⟩ := hdrained 0 _ hl'
    cases hl
    refine ⟨_, hl', ?_, ?_, hall.consumed⟩
    · rw [hall.ring]
      rfl
    · rw [hall.received, List.length_append, length_stream, Ring.length_pending]
      rfl

end Consumer

end TraceRing
