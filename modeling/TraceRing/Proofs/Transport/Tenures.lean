import TraceRing.Proofs.Consumer.Courses

/-!
# Consumers at one lane

A `Tenure` is what one consumer made of a lane: its sink, its count, and the ring as the consumer
left it. Consumers that follow each other at a ring each go on where the one before stopped
(`Tenure.Succeed`), whatever made it stop: what they moved is then one unbroken stream.
-/

namespace TraceRing

variable {g : Geometry}

/-- What a consumer made of a lane, and whether its last write failed there. -/
structure Tenure (g : Geometry) where
  lane : Lane g
  failed : Bool

namespace Tenure

/-- The bytes of the packets that the consumer counts as moved. -/
def moved (r : Tenure g) : Bytes :=
  r.lane.sink.received.take (r.lane.consumed * g.packetSize)

/-- What the sink holds beyond them. -/
def rest (r : Tenure g) : Bytes :=
  r.lane.sink.received.drop (r.lane.consumed * g.packetSize)

/-- The number of packets some consumers moved. -/
def passed (rs : List (Tenure g)) : Nat :=
  (rs.map fun r => r.lane.consumed).sum

/-- What some consumers moved, one after the other. -/
def delivered (rs : List (Tenure g)) : Bytes :=
  rs.flatMap moved

@[simp] theorem passed_nil : passed ([] : List (Tenure g)) = 0 :=
  rfl

@[simp] theorem passed_cons (r : Tenure g) (rs : List (Tenure g)) :
    passed (r :: rs) = r.lane.consumed + passed rs :=
  rfl

@[simp] theorem passed_append (rs qs : List (Tenure g)) :
    passed (rs ++ qs) = passed rs + passed qs := by
  simp [passed]

/-! ## One consumer -/

/-- The consumer moved the packets after the first `taken`. What its sink holds beyond them is
nothing, or after a failed write a proper part of the next packet, which waits in the ring. -/
structure Continues (r : Tenure g) (sent : List (Packet g)) (taken : Nat) : Prop where
  le_length : taken + r.lane.consumed ≤ sent.length
  moved : r.moved = stream ((sent.drop taken).take r.lane.consumed)
  rest : r.failed = false → r.rest = []
  cut : r.failed = true → IsCut r.rest sent (taken + r.lane.consumed)
  waiting : r.failed = true →
    Ring.hasData r.lane.ring.producerIndex r.lane.ring.consumerIndex = true
  intact : r.failed = true →
    sent[taken + r.lane.consumed]? = some (r.lane.ring.getSlot r.lane.ring.consumerIndex)

/-- What was moved stays a part of all that is sent. -/
theorem Continues.append {r : Tenure g} {sent : List (Packet g)} {taken : Nat}
    (h : r.Continues sent taken) (more : List (Packet g)) : r.Continues (sent ++ more) taken where
  le_length := by
    have hle := h.le_length
    rw [List.length_append]
    omega
  moved := by
    rw [h.moved, take_drop_append h.le_length]
  rest := h.rest
  cut hfailed := (h.cut hfailed).append more
  waiting := h.waiting
  intact hfailed := by
    have hcut := h.cut hfailed
    rw [List.getElem?_append_left hcut.1]
    exact h.intact hfailed

/-- The passage of a new lane is a tenure. -/
theorem continues_of_passage {start l : Lane g} {sent : List (Packet g)} {taken : Nat}
    {failed : Bool} (hfresh : start.sink.received = [])
    (h : start.Passage l sent taken l.consumed failed) :
    (⟨l, failed⟩ : Tenure g).Continues sent taken := by
  obtain ⟨bytes, hreceived, hnone, hcut⟩ := h.received
  have hle := h.carries.taken_le
  have hlength : (stream ((sent.drop taken).take l.consumed)).length
      = l.consumed * g.packetSize := by
    rw [length_stream, List.length_take, List.length_drop, Nat.min_eq_left (by omega)]
  rw [hfresh, List.nil_append] at hreceived
  -- the sink holds whole packets first; their number tells where the rest begins
  have hmoved : (⟨l, failed⟩ : Tenure g).moved = stream ((sent.drop taken).take l.consumed) := by
    rw [moved, hreceived, List.take_left' hlength]
  have hrest : (⟨l, failed⟩ : Tenure g).rest = bytes := by
    rw [rest, hreceived, List.drop_left' hlength]
  refine ⟨hle, hmoved, ?_, ?_, ?_, ?_⟩
  · rw [hrest]
    exact hnone
  · rw [hrest]
    exact hcut
  · intro hfailed
    exact h.carries.hasData_iff.mpr (hcut hfailed).1
  · intro hfailed
    have hlt := (hcut hfailed).1
    rw [h.carries.getSlot_consumerIndex hlt]
    exact List.getElem?_eq_getElem hlt

/-! ## One consumer after another -/

/-- Each consumer goes on where the one before it stopped, the first of them after `taken`
packets. -/
def Succeed (sent : List (Packet g)) : Nat → List (Tenure g) → Prop
  | _, [] => True
  | taken, r :: later => r.Continues sent taken ∧ Succeed sent (taken + r.lane.consumed) later

namespace Succeed

variable {sent : List (Packet g)} {taken : Nat} {rs : List (Tenure g)}

theorem append (h : Succeed sent taken rs) (more : List (Packet g)) :
    Succeed (sent ++ more) taken rs := by
  induction rs generalizing taken with
  | nil => trivial
  | cons r later ih => exact ⟨h.1.append more, ih h.2⟩

/-- One more consumer. -/
theorem concat (h : Succeed sent taken rs) {r : Tenure g}
    (hr : r.Continues sent (taken + passed rs)) : Succeed sent taken (rs ++ [r]) := by
  induction rs generalizing taken with
  | nil => exact ⟨by simpa using hr, trivial⟩
  | cons first later ih =>
    refine ⟨h.1, ih h.2 ?_⟩
    rw [Nat.add_assoc, ← passed_cons]
    exact hr

theorem getElem? (h : Succeed sent taken rs) {i : Nat} {r : Tenure g} (hr : rs[i]? = some r) :
    r.Continues sent (taken + passed (rs.take i)) := by
  induction rs generalizing taken i with
  | nil => cases hr
  | cons first later ih =>
    cases i with
    | zero =>
      cases hr
      exact h.1
    | succ i =>
      rw [List.take_succ_cons, passed_cons, ← Nat.add_assoc]
      exact ih h.2 hr

/-- What the consumers moved is one stream of packets without a gap or a repetition. -/
theorem delivered_eq (h : Succeed sent taken rs) (hle : taken ≤ sent.length) :
    taken + passed rs ≤ sent.length ∧
      delivered rs = stream ((sent.drop taken).take (passed rs)) := by
  induction rs generalizing taken with
  | nil => simpa [delivered] using hle
  | cons r later ih =>
    obtain ⟨hfirst, hlater⟩ := h
    obtain ⟨hlength, hrest⟩ := ih hlater hfirst.le_length
    -- the first consumer moved a stretch, and the later ones the stretch behind it
    refine ⟨by simpa [Nat.add_assoc] using hlength, ?_⟩
    have hcons : delivered (r :: later) = r.moved ++ delivered later := rfl
    rw [hcons, hfirst.moved, hrest, passed_cons, List.take_add, List.drop_drop, stream_append]

end Succeed

end Tenure

end TraceRing
