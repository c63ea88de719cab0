import TraceRing.Proofs.Ring.Carries
import TraceRing.Consumer

/-!
# Packets on their way to a sink

A move takes the oldest packet of a lane to its sink, whole, and gives its slot back; or the sink
fails after it took a proper part of the packet, and then nothing else of the lane changes.

A `Lane.Course` is what one stretch of a consumer's work does to a lane: moves, reports of
diagnostic text, and at the end perhaps a move that fails. `Lane.Took` says what came of it: which
of the packets that waited the sink got (`Lane.Course.took`). A `Lane.Passage` says the same of the
window the ring carries, while more packets are sent (`Lane.Course.passage`).
-/

namespace TraceRing

variable {g : Geometry}

/-! ## Streams -/

/-- The bytes of some packets, one after the other. -/
def stream (packets : List (Packet g)) : Bytes :=
  packets.flatMap Vector.toList

@[simp] theorem stream_nil : stream ([] : List (Packet g)) = [] :=
  rfl

@[simp] theorem stream_append (ps qs : List (Packet g)) :
    stream (ps ++ qs) = stream ps ++ stream qs :=
  List.flatMap_append

@[simp] theorem length_stream (packets : List (Packet g)) :
    (stream packets).length = packets.length * g.packetSize := by
  induction packets with
  | nil => simp
  | cons p ps ih =>
    have hcons : stream (p :: ps) = p.toList ++ stream ps := rfl
    rw [hcons, List.length_append, ih, Vector.length_toList, List.length_cons, Nat.succ_mul]
    omega

/-- The bytes of one packet in a stream. -/
theorem take_drop_stream (packets : List (Packet g)) {k : Nat} (hk : k < packets.length) :
    ((stream packets).drop (k * g.packetSize)).take g.packetSize = packets[k].toList := by
  induction packets generalizing k with
  | nil => exact absurd hk (Nat.not_lt_zero k)
  | cons first rest ih =>
    have hcons : stream (first :: rest) = first.toList ++ stream rest := rfl
    have hlength : first.toList.length = g.packetSize := Vector.length_toList
    cases k with
    | zero =>
      rw [Nat.zero_mul, List.drop_zero, hcons, List.take_left' hlength]
      rfl
    | succ k =>
      rw [List.getElem_cons_succ, ← ih (Nat.lt_of_succ_lt_succ hk), hcons, Nat.succ_mul,
        Nat.add_comm, ← List.drop_drop, List.drop_left' hlength]

/-- The bytes are a part from the start of the packet after the first `k`, and not all of it. -/
def IsCut (bytes : Bytes) (packets : List (Packet g)) (k : Nat) : Prop :=
  ∃ h : k < packets.length, bytes <+: packets[k].toList ∧ bytes.length < g.packetSize

/-- The packets before some place are not disturbed by those sent later. -/
theorem take_drop_append {sent : List (Packet g)} {taken n : Nat} (h : taken + n ≤ sent.length)
    (more : List (Packet g)) :
    ((sent ++ more).drop taken).take n = (sent.drop taken).take n := by
  rw [List.drop_append_of_le_length (by omega),
    List.take_append_of_le_length (by rw [List.length_drop]; omega)]

/-- Bytes cut from a packet stay so while more packets are sent. -/
theorem IsCut.append {bytes : Bytes} {packets : List (Packet g)} {k : Nat}
    (h : IsCut bytes packets k) (more : List (Packet g)) : IsCut bytes (packets ++ more) k := by
  obtain ⟨hlt, hprefix, hshort⟩ := h
  have hlt' : k < (packets ++ more).length := by
    rw [List.length_append]
    omega
  refine ⟨hlt', ?_, hshort⟩
  rw [List.getElem_append_left hlt]
  exact hprefix

theorem IsCut.of_drop {bytes : Bytes} {packets : List (Packet g)} {taken k : Nat}
    (h : IsCut bytes (packets.drop taken) k) : IsCut bytes packets (taken + k) := by
  obtain ⟨hlt, hprefix, hshort⟩ := h
  rw [List.getElem_drop] at hprefix
  exact ⟨by rw [List.length_drop] at hlt; omega, hprefix, hshort⟩

/-! ## Writing a packet -/

/-- A sink takes all it is offered, or a proper part of it before a write fails. -/
theorem writeAll_taken (script : List Turn) (offer : Bytes) :
    let d := writeAll script offer
    (d.result = .ok () ∧ d.taken = offer) ∨
    ((∃ e, d.result = .error e) ∧ d.taken <+: offer ∧ d.taken.length < offer.length) := by
  -- one case per reply: only a partial write and an interruption go on to the next turn
  fun_induction writeAll script offer with
  | case1 script => exact .inl ⟨rfl, rfl⟩
  | case2 offer hne => exact .inl ⟨rfl, rfl⟩
  | case3 offer turn script hne hreply => exact .inl ⟨rfl, rfl⟩
  | case4 offer turn script hne hreply =>
    refine .inr ⟨⟨_, rfl⟩, List.nil_prefix, ?_⟩
    exact List.length_pos_iff.mpr hne
  | case5 offer turn script hne n hreply ih =>
    simp only [Delivery.after]
    rcases ih with ⟨hok, htaken⟩ | ⟨herror, hprefix, hlt⟩
    · refine .inl ⟨hok, ?_⟩
      rw [htaken, List.take_append_drop]
    · refine .inr ⟨herror, ?_, ?_⟩
      · obtain ⟨tail, htail⟩ := hprefix
        refine ⟨tail, ?_⟩
        rw [List.append_assoc, htail, List.take_append_drop]
      · simp only [List.length_append, List.length_take, List.length_drop] at hlt ⊢
        omega
  | case6 offer turn script hne e hreply hkind ih =>
    simpa [Delivery.after] using ih
  | case7 offer turn script hne e hreply hkind =>
    refine .inr ⟨⟨_, rfl⟩, List.nil_prefix, ?_⟩
    exact List.length_pos_iff.mpr hne

namespace Lane

/-! ## One move -/

/-- The ring of the lane has no packet. -/
def IsEmpty (l : Lane g) : Prop :=
  Ring.hasData l.ring.producerIndex l.ring.consumerIndex = false

theorem move_of_empty {l : Lane g} (h : l.IsEmpty) (core : Core) (place : Nat) (verbose : Bool) :
    l.move core place verbose = ⟨.ok false, l, false, []⟩ := by
  rw [IsEmpty] at h
  simp [move, h]

/-- A move leaves all slots as they are. -/
theorem packets_move (l : Lane g) (core : Core) (place : Nat) (verbose : Bool) :
    (l.move core place verbose).lane.ring.packets = l.ring.packets := by
  simp only [move]
  split
  · split <;> rfl
  · rfl

@[simp] theorem sink_reportText (l : Lane g) (core : Core) :
    (l.reportText core).2.sink = l.sink := by
  simp only [reportText]
  split <;> rfl

@[simp] theorem consumed_reportText (l : Lane g) (core : Core) :
    (l.reportText core).2.consumed = l.consumed := by
  simp only [reportText]
  split <;> rfl

/-! ## Packets taken -/

/-- From one lane to another, some of the packets that waited in the ring were moved to the sink,
the oldest first, and their slots were given back; nothing else happened to the ring. If the write
of one more failed, the sink holds a proper part of it. -/
structure Took (l l' : Lane g) (n : Nat) (failed : Bool) : Prop where
  le : n ≤ l.ring.backlog
  ring : l'.ring = l.ring.released n
  consumed : l'.consumed = l.consumed + n
  received : ∃ bytes,
    l'.sink.received = l.sink.received ++ stream (l.ring.pending.take n) ++ bytes ∧
    (failed = false → bytes = []) ∧ (failed = true → IsCut bytes l.ring.pending n)

namespace Took

variable {l m l' : Lane g} {n k : Nat} {failed : Bool}

/-- The indices, the sink and the count stay as they were. -/
theorem still (hring : l'.ring = l.ring) (hconsumed : l'.consumed = l.consumed)
    (hsink : l'.sink = l.sink) : Took l l' 0 false :=
  ⟨Nat.zero_le _, by simpa using hring, hconsumed, [], by simp [hsink]⟩

theorem trans (h : Took l m n false) (h' : Took m l' k failed) : Took l l' (n + k) failed := by
  have hbacklog : m.ring.backlog = l.ring.backlog - n := by
    rw [h.ring, Ring.backlog_released h.le]
  have hpending : m.ring.pending = l.ring.pending.drop n := by
    rw [h.ring, Ring.pending_released h.le]
  obtain ⟨none, hfirst, hnone, -⟩ := h.received
  obtain ⟨bytes, hsecond, hwhole, hcut⟩ := h'.received
  refine ⟨?_, ?_, ?_, bytes, ?_, hwhole, fun hfailed => ?_⟩
  · have hle := h.le
    have hle' := h'.le
    omega
  · rw [h'.ring, h.ring, Ring.released_released]
  · rw [h'.consumed, h.consumed, Nat.add_assoc]
  · rw [hsecond, hfirst, hnone rfl, hpending, List.take_add, stream_append]
    simp only [List.append_nil, List.append_assoc]
  · exact (hpending ▸ hcut hfailed).of_drop

/-- The packets taken leave the window. -/
theorem carries (h : Took l l' n failed) {base taken : Nat} {sent : List (Packet g)}
    (hring : l.ring.Carries base sent taken) : l'.ring.Carries base sent (taken + n) := by
  have hle := h.le
  have htaken := hring.taken_le
  rw [hring.backlog_eq] at hle
  rw [h.ring]
  exact hring.released (by omega)

end Took

theorem took_move (l : Lane g) (core : Core) (place : Nat) (verbose : Bool) :
    match (l.move core place verbose).result with
    | .ok moved => l.Took (l.move core place verbose).lane moved.toNat false
    | .error _ => l.Took (l.move core place verbose).lane 0 true := by
  cases hdata : Ring.hasData l.ring.producerIndex l.ring.consumerIndex with
  | false =>
    rw [move_of_empty hdata]
    exact .still rfl rfl rfl
  | true =>
    have hpos : 1 ≤ l.ring.backlog := l.ring.backlog_pos_iff.mpr hdata
    have hpending := Ring.pending_eq_cons hdata
    have hwrite := writeAll_taken l.sink.script (l.ring.getSlot l.ring.consumerIndex).toList
    simp only [move, hdata, if_true]
    generalize writeAll l.sink.script (l.ring.getSlot l.ring.consumerIndex).toList = d at hwrite ⊢
    rcases hwrite with ⟨hok, htaken⟩ | ⟨⟨e, herror⟩, hprefix, hshort⟩
    · simp only [hok]
      refine ⟨hpos, rfl, rfl, [], ?_, fun _ => rfl, fun hfailed => nomatch hfailed⟩
      simp [htaken, hpending, stream]
    · simp only [herror]
      refine ⟨Nat.zero_le _, (Ring.released_zero _).symm, rfl, d.taken, by simp,
        fun hgo => (nomatch hgo), fun _ => ⟨?_, ?_, ?_⟩⟩
      · rwa [Ring.length_pending]
      · simpa only [hpending, List.getElem_cons_zero] using hprefix
      · simpa using hshort

theorem exists_took_move (l : Lane g) (core : Core) (place : Nat) (verbose : Bool) :
    ∃ n failed, l.Took (l.move core place verbose).lane n failed := by
  have htook := l.took_move core place verbose
  split at htook
  · exact ⟨_, _, htook⟩
  · exact ⟨_, _, htook⟩

/-! ## Passages -/

/-- From one lane to another, some packets were moved to the sink, of all that were sent in the
end. If the write of one more failed, the sink holds a proper part of it. -/
structure Passage (l l' : Lane g) (sent : List (Packet g)) (taken n : Nat) (failed : Bool) :
    Prop where
  carries : l'.ring.Carries 0 sent (taken + n)
  consumed : l'.consumed = l.consumed + n
  received : ∃ bytes,
    l'.sink.received = l.sink.received ++ stream ((sent.drop taken).take n) ++ bytes ∧
    (failed = false → bytes = []) ∧ (failed = true → IsCut bytes sent (taken + n))

namespace Passage

variable {l m l' : Lane g} {sent : List (Packet g)} {taken n k : Nat} {failed : Bool}

/-- The sink and the count stay as they were. -/
theorem still (h : l'.ring.Carries 0 sent taken) (hconsumed : l'.consumed = l.consumed)
    (hsink : l'.sink = l.sink) : Passage l l' sent taken 0 false :=
  ⟨h, hconsumed, [], by simp [hsink]⟩

/-- One passage after another, with more packets sent meanwhile. -/
theorem trans (more : List (Packet g)) (h : Passage l m sent taken n false)
    (h' : Passage m l' (sent ++ more) (taken + n) k failed) :
    Passage l l' (sent ++ more) taken (n + k) failed := by
  have hle := h.carries.taken_le
  obtain ⟨none, hfirst, hnone, -⟩ := h.received
  obtain ⟨bytes, hsecond, hbytes⟩ := h'.received
  have htaken : taken + (n + k) = taken + n + k := (Nat.add_assoc ..).symm
  refine ⟨by rw [htaken]; exact h'.carries, ?_, bytes, ?_, by rw [htaken]; exact hbytes⟩
  · rw [h'.consumed, h.consumed, Nat.add_assoc]
  · rw [hsecond, hfirst, hnone rfl, List.take_add, take_drop_append hle, List.drop_drop,
      stream_append]
    simp only [List.append_nil, List.append_assoc]

/-- After a passage, failed or not, more packets are sent and none is moved. -/
theorem rest (more : List (Packet g)) (h : Passage l m sent taken n failed)
    (h' : Passage m l' (sent ++ more) (taken + n) 0 false) :
    Passage l l' (sent ++ more) taken n failed := by
  have hle := h.carries.taken_le
  obtain ⟨bytes, hfirst, hnone, hcut⟩ := h.received
  obtain ⟨nothing, hsecond, hnothing, -⟩ := h'.received
  refine ⟨h'.carries, h'.consumed.trans h.consumed, bytes, ?_, hnone, fun hfailed => ?_⟩
  · rw [hsecond, hfirst, hnothing rfl, take_drop_append hle]
    simp
  · exact (hcut hfailed).append more

end Passage

/-- What was taken is a passage of the window the ring carries. -/
theorem Took.passage {l l' : Lane g} {n : Nat} {failed : Bool} (h : Took l l' n failed)
    {sent : List (Packet g)} {taken : Nat} (hring : l.ring.Carries 0 sent taken) :
    l.Passage l' sent taken n failed := by
  obtain ⟨bytes, hreceived, hwhole, hcut⟩ := h.received
  rw [hring.pending_eq] at hreceived
  refine ⟨h.carries hring, h.consumed, bytes, hreceived, hwhole, fun hfailed => ?_⟩
  exact (hring.pending_eq ▸ hcut hfailed).of_drop

/-! ## Courses -/

/-- A stretch of work at a lane that moves a number of packets, and ends in a failure or not. -/
inductive Course : Lane g → Nat → Bool → Lane g → Prop where
  | done (l : Lane g) : Course l 0 false l
  | report {l l' : Lane g} {n : Nat} {failed : Bool} (core : Core)
      (rest : Course (l.reportText core).2 n failed l') : Course l n failed l'
  | move {l l' : Lane g} {n : Nat} {failed moved : Bool} (core : Core) (place : Nat)
      (verbose : Bool) (hmoved : (l.move core place verbose).result = .ok moved)
      (rest : Course (l.move core place verbose).lane n failed l') :
      Course l (moved.toNat + n) failed l'
  | fail {l : Lane g} {e : TransportFailure} (core : Core) (place : Nat) (verbose : Bool)
      (hfail : (l.move core place verbose).result = .error e) :
      Course l 0 true (l.move core place verbose).lane

/-- One course after another. -/
theorem Course.trans {l m k : Lane g} {i j : Nat} {failed : Bool} (h : Course l i false m)
    (h' : Course m j failed k) : Course l (i + j) failed k := by
  -- the induction needs the index `failed` as a variable
  generalize hgo : false = go at h
  induction h with
  | done l => simpa using h'
  | report core rest ih => exact .report core (ih h' hgo)
  | move core place verbose hmoved rest ih =>
    rw [Nat.add_assoc]
    exact .move core place verbose hmoved (ih h' hgo)
  | fail core place verbose hfail => cases hgo

/-- A course takes the packets that wait to the sink, in order and whole. -/
theorem Course.took {l l' : Lane g} {n : Nat} {failed : Bool} (h : Course l n failed l') :
    l.Took l' n failed := by
  induction h with
  | done l => exact .still rfl rfl rfl
  | @report l l' n failed core rest ih =>
    have hreport : l.Took (l.reportText core).2 0 false :=
      .still (l.ring_reportText core) (l.consumed_reportText core) (l.sink_reportText core)
    simpa using hreport.trans ih
  | @move l l' n failed moved core place verbose hmoved rest ih =>
    have hfirst := l.took_move core place verbose
    rw [hmoved] at hfirst
    exact hfirst.trans ih
  | @fail l e core place verbose hfail =>
    have hlast := l.took_move core place verbose
    rw [hfail] at hlast
    exact hlast

/-- A course takes the next packets of the window to the sink. -/
theorem Course.passage {l l' : Lane g} {n : Nat} {failed : Bool} (h : Course l n failed l')
    {sent : List (Packet g)} {taken : Nat} (hring : l.ring.Carries 0 sent taken) :
    l.Passage l' sent taken n failed :=
  h.took.passage hring

end Lane

end TraceRing
