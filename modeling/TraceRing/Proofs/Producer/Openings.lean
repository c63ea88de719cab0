import TraceRing.Proofs.Producer.Calls
import TraceRing.Proofs.Producer.Encoders

/-!
# How packets are opened

A packet is open after a call only if it was open before, if the call looked at the ring and found
a free slot, or if the caller opened it without a look (`Producer.Call.isBlind`). And a call that
faults because the ring is full had an open packet and no free slot before it. Together they tie
the fault to the calls that opened the packet.
-/

namespace TraceRing

variable {g : Geometry} {C E : Type} {bits : Nat} [Countdown C bits]

/-! ## Faults of the parts -/

theorem append_ne_of_head {first whole : String} {c d : Char}
    (hfirst : first.toList.head? = some c) (hwhole : whole.toList.head? = some d) (hne : c ≠ d)
    (x b y : String) : first ++ x ++ b ++ y ≠ whole := by
  rintro rfl
  simp only [String.toList_append, List.head?_append, hfirst, Option.some_or] at hwhole
  exact hne (Option.some.inj hwhole)

/-- The report of a full ring is that of no other fault. -/
theorem Fault.message_eq_iff {fault : Fault} :
    fault.message = "close_packet on a full ring buffer" ↔ fault = .endedOnFullRing := by
  have hclose : "close_packet on a full ring buffer".toList.head? = some 'c' := by simp
  constructor
  · intro h
    cases fault with
    | endedOnFullRing => rfl
    | productOverflow =>
      have hne : "attempt to multiply with overflow" ≠ "close_packet on a full ring buffer" := by
        decide
      exact absurd h hne
    | sumOverflow =>
      have hne : "attempt to add with overflow" ≠ "close_packet on a full ring buffer" := by
        decide
      exact absurd h hne
    -- the other reports depend on their values, but their first letters differ
    | indexOutOfBounds length index =>
      exact absurd h (append_ne_of_head (c := 'i') (by simp) hclose (by decide) _ _ _)
    | rangeStartsBeyond start length =>
      exact absurd h (append_ne_of_head (c := 'r') (by simp) hclose (by decide) _ _ _)
    | rangeEndsBeyond stop length =>
      exact absurd h (append_ne_of_head (c := 'r') (by simp) hclose (by decide) _ _ _)
    | wrongCount parts found cores =>
      exact absurd h (append_ne_of_head (c := 'a') (by simp) hclose (by decide) _ _ _)
  · rintro rfl
    rfl

/-- A fault stays what it is when the answer is read in another way. -/
theorem map_ne_endedOnFullRing {α β : Type} {result : Except Fault α}
    (h : result ≠ .error .endedOnFullRing) (f : α → β) :
    result.map f ≠ .error .endedOnFullRing := by
  cases result with
  | error fault =>
    rintro ⟨⟩
    exact h rfl
  | ok a => simp [Except.map]

theorem Clock.now_ne_endedOnFullRing (k : Clock C) : k.now ≠ .error .endedOnFullRing := by
  simp only [now, stamp]
  split <;> split <;> simp

namespace Producer

theorem now_ne_endedOnFullRing (p : Producer (Clock C) E g) : p.now ≠ .error .endedOnFullRing :=
  Clock.now_ne_endedOnFullRing p.clock

theorem exists_now {p : Producer (Clock C) E g} (h : p.now.isOk = true) : ∃ t, p.now = .ok t := by
  cases hnow : p.now with
  | ok t => exact ⟨t, rfl⟩
  | error fault =>
    rw [hnow] at h
    cases h

theorem look_ne_endedOnFullRing (p : Producer (Clock C) E g) (consumerIndex : UInt32) :
    (p.look consumerIndex).1 ≠ .error .endedOnFullRing := by
  simp only [look]
  split
  · split
    · next fault hnow =>
      rintro ⟨⟩
      exact now_ne_endedOnFullRing _ hnow
    · simp
  · simp

theorem isBlocked_ne_endedOnFullRing (p : Producer (Clock C) E g) (consumerIndex : UInt32) :
    (p.isBlocked consumerIndex).1 ≠ .error .endedOnFullRing := by
  rw [isBlocked_eq]
  split
  · split
    · next fault hnow =>
      rintro ⟨⟩
      exact now_ne_endedOnFullRing p hnow
    · split
      · simp
      · exact look_ne_endedOnFullRing _ consumerIndex
  · exact look_ne_endedOnFullRing p consumerIndex

/-! ## Slots that are found -/

theorem isFull_of_look {p : Producer (Clock C) E g} {consumerIndex : UInt32}
    (h : (p.look consumerIndex).1 = .ok false) :
    Ring.isFull g p.index consumerIndex = false := by
  simp only [look] at h
  split at h
  · split at h <;> cases h
  · next hroom => simpa using hroom

/-- The answer that a slot is free comes from a look. -/
theorem isFull_of_isBlocked {p : Producer (Clock C) E g} {consumerIndex : UInt32}
    (h : (p.isBlocked consumerIndex).1 = .ok false) :
    Ring.isFull g p.index consumerIndex = false := by
  rw [isBlocked_eq] at h
  split at h
  · split at h
    · cases h
    · split at h
      · cases h
      · have hroom := isFull_of_look h
        exact hroom
  · exact isFull_of_look h

/-- A free slot that was found is there. -/
theorem Feeds.room_of_isBlocked {p : Producer (Clock C) E g} {r : Ring g} {base taken : Nat}
    {sent : List (Packet g)} (h : p.Feeds r base sent taken)
    (hfree : (p.isBlocked r.consumerIndex).1 = .ok false) : sent.length < taken + g.slots :=
  h.room_of_isFull (isFull_of_isBlocked hfree)

/-! ## Faults of packets -/

variable [PacketEncoder E g] [LawfulEncoder E g]

theorem startPacket_ne_endedOnFullRing (p : Producer (Clock C) E g) :
    p.startPacket.1 ≠ .error .endedOnFullRing := by
  simp only [startPacket]
  split
  · next fault hnow =>
    rintro ⟨⟩
    exact now_ne_endedOnFullRing p hnow
  · exact LawfulEncoder.startPacket_ne p.encoder _ p.grid p.core p.packet

theorem tryPacket_ne_endedOnFullRing (p : Producer (Clock C) E g) (consumerIndex : UInt32) :
    (p.tryPacket consumerIndex).1 ≠ .error .endedOnFullRing := by
  have hlook := p.isBlocked_ne_endedOnFullRing consumerIndex
  rw [tryPacket_eq]
  generalize p.isBlocked consumerIndex = asked at hlook ⊢
  obtain ⟨_ | _ | _, p'⟩ := asked
  · exact hlook
  · have hstart := p'.startPacket_ne_endedOnFullRing
    simp only [proceed]
    split
    · next heq =>
      rintro ⟨⟩
      exact hstart (by rw [heq])
    · simp
  · simp [proceed]

theorem startSession_ne_endedOnFullRing (p : Producer (Clock C) E g) (consumerIndex : UInt32) :
    (p.startSession consumerIndex).1 ≠ .error .endedOnFullRing := by
  rw [startSession_eq]
  split
  · simp
  · split
    · next heq =>
      rintro ⟨⟩
      exact tryPacket_ne_endedOnFullRing _ consumerIndex (by rw [heq])
    · simp

/-! ## Calls that fault on a full ring -/

/-- Ending a packet faults on a full ring if a packet is open and can be finished, and no slot is
free. -/
theorem endPacket_full_iff (p : Producer (Clock C) E g) (r : Ring g) :
    (p.endPacket r).1 = .error .endedOnFullRing ↔
      p.isOpen = true ∧
      (∃ time, p.now = .ok time ∧ (PacketEncoder.endPacket p.encoder time p.packet).1 = .ok ()) ∧
      ¬ Ring.gap p.index r.consumerIndex < Ring.capacity g := by
  have hending := p.ending r
  generalize p.endPacket r = done at hending ⊢
  constructor
  · intro hfault
    cases hending with
    | idle hclosed => cases hfault
    | timeless hopen hnow =>
      cases hfault
      exact absurd hnow (now_ne_endedOnFullRing p)
    -- the faults of the encoder are others
    | @cramped time fault hopen hnow hend =>
      cases hfault
      exact absurd hend (LawfulEncoder.endPacket_ne p.encoder time p.packet)
    | full hopen hnow hend hfull => exact ⟨hopen, ⟨_, hnow, hend⟩, hfull⟩
    | published hopen hnow hend hroom => cases hfault
  · rintro ⟨hopen, ⟨time, hnow, hend⟩, hfull⟩
    cases hending with
    | idle hclosed =>
      rw [hopen] at hclosed
      cases hclosed
    | timeless _ herror =>
      rw [hnow] at herror
      cases herror
    -- the clock is read once, so the two times are one
    | cramped _ hsame herror =>
      cases hnow.symm.trans hsame
      rw [hend] at herror
      cases herror
    | full => rfl
    | published _ _ _ hroom => exact absurd hroom hfull

omit [LawfulEncoder E g] in
theorem unchanged_of_endPacket_full {p : Producer (Clock C) E g} {r : Ring g}
    (h : (p.endPacket r).1 = .error .endedOnFullRing) :
    (p.endPacket r).2.1.index = p.index ∧ (p.endPacket r).2.2 = r := by
  have hending := p.ending r
  generalize p.endPacket r = done at hending h ⊢
  cases hending with
  | published hopen hnow hend hroom => cases h
  | _ => exact ⟨rfl, rfl⟩

/-- A call that faults on a full ring had an open packet and no free slot before it. -/
theorem full_of_call {p : Producer (Clock C) E g} {r : Ring g} {c : Call E g}
    (h : (p.call r c).1 = .error .endedOnFullRing) :
    p.isOpen = true ∧ ¬ Ring.gap p.index r.consumerIndex < Ring.capacity g := by
  cases c with
  | endPacket =>
    obtain ⟨hopen, -, hfull⟩ := (endPacket_full_iff p r).mp h
    exact ⟨hopen, hfull⟩
  | endSession =>
    have hending := p.sessionEnding r
    simp only [call] at h
    generalize p.endSession r = done at hending h
    cases hending with
    | stuck htracing hlast hend =>
      cases h
      obtain ⟨hopen, -, hfull⟩ := (endPacket_full_iff p r).mp (by rw [hend])
      exact ⟨hopen, hfull⟩
    | _ => cases h
  | startSession => exact absurd h (map_ne_endedOnFullRing (startSession_ne_endedOnFullRing p _) _)
  | now => exact absurd h (map_ne_endedOnFullRing (now_ne_endedOnFullRing p) _)
  | isBlocked => exact absurd h (map_ne_endedOnFullRing (isBlocked_ne_endedOnFullRing p _) _)
  | startPacket => exact absurd h (startPacket_ne_endedOnFullRing p)
  | tryPacket => exact absurd h (map_ne_endedOnFullRing (tryPacket_ne_endedOnFullRing p _) _)
  | _ => cases h

/-! ## Calls after which a packet is open -/

/-- Whether a call opens a packet without a look at the ring. -/
def Call.isBlind (p : Producer (Clock C) E g) : Call E g → Bool
  | .startPacket => true
  | .edit work => !p.isOpen && (p.edit work).isOpen
  | _ => false

omit [LawfulEncoder E g] in
/-- A packet is started only in a free slot. -/
theorem isOpen_of_tryPacket {p : Producer (Clock C) E g} {consumerIndex : UInt32}
    (h : (p.tryPacket consumerIndex).2.isOpen = true) :
    p.isOpen = true ∨ Ring.isFull g p.index consumerIndex = false := by
  obtain ⟨encoder, packet, dropped, htry, hencoder⟩ := p.tryPacket_snd consumerIndex
  by_cases hfree : (p.isBlocked consumerIndex).1 = .ok false
  · exact .inr (isFull_of_isBlocked hfree)
  · -- nothing is opened unless the look found a slot
    rw [htry, hencoder hfree] at h
    exact .inl h

omit [LawfulEncoder E g] in
theorem isOpen_of_startSession {p : Producer (Clock C) E g} {consumerIndex : UInt32}
    (h : (p.startSession consumerIndex).2.isOpen = true) :
    p.isOpen = true ∨ Ring.isFull g p.index consumerIndex = false := by
  cases htracing : p.tracing with
  | true =>
    rw [startSession_eq, if_pos htracing] at h
    exact .inl h
  | false =>
    -- a session starts its first packet on a blank one, by way of `tryPacket`
    rw [startSession_of_idle htracing] at h
    have htry : p.blank.isOpen = true ∨ Ring.isFull g p.blank.index consumerIndex = false :=
      isOpen_of_tryPacket h
    exact htry

/-- A packet that is open after an attempt to end one was not published. -/
theorem isOpen_of_endPacket {p : Producer (Clock C) E g} {r : Ring g}
    (h : (p.endPacket r).2.1.isOpen = true) :
    p.isOpen = true ∧ (p.endPacket r).2.1.index = p.index := by
  have hending := p.ending r
  generalize p.endPacket r = done at hending h ⊢
  cases hending with
  | idle hclosed => exact ⟨h, rfl⟩
  | timeless hopen hnow => exact ⟨h, rfl⟩
  | cramped hopen hnow hend => exact ⟨hopen, rfl⟩
  | full hopen hnow hend hfull => exact ⟨hopen, rfl⟩
  | published hopen hnow hend hroom =>
    -- a published packet is closed
    exact nomatch h.symm.trans (LawfulEncoder.isOpen_endPacket _ _ _ hend)

theorem isOpen_of_endSession {p : Producer (Clock C) E g} {r : Ring g}
    (h : (p.endSession r).2.1.isOpen = true) :
    p.isOpen = true ∧ (p.endSession r).2.1.index = p.index := by
  have hending := p.sessionEnding r
  have hend := p.isOpen_of_endPacket (r := r)
  generalize p.endSession r = done at hending h ⊢
  cases hending with
  | idle htracing => exact ⟨h, rfl⟩
  | quiet htracing hnone => exact ⟨h, rfl⟩
  | stuck htracing hlast heq =>
    rw [heq] at hend
    exact hend h
  | ended htracing hlast heq =>
    rw [heq] at hend
    exact hend h

/-- A packet that is open after a call was not published in it, and has been open before it, or
the call found a free slot, or it did not look. -/
theorem isOpen_of_call {p : Producer (Clock C) E g} {r : Ring g} {c : Call E g}
    (h : (p.call r c).2.1.isOpen = true) :
    (p.isOpen = true ∨ Ring.isFull g p.index r.consumerIndex = false ∨
      c.isBlind p = true) ∧
    (p.call r c).2.1.index = p.index := by
  cases c with
  | startSession =>
    refine ⟨?_, by simp [call]⟩
    exact (isOpen_of_startSession h).imp_right .inl
  | tryPacket =>
    refine ⟨?_, by simp [call]⟩
    exact (isOpen_of_tryPacket h).imp_right .inl
  | endSession =>
    obtain ⟨hopen, hindex⟩ := isOpen_of_endSession h
    exact ⟨.inl hopen, hindex⟩
  | endPacket =>
    obtain ⟨hopen, hindex⟩ := isOpen_of_endPacket h
    exact ⟨.inl hopen, hindex⟩
  | startPacket => exact ⟨.inr (.inr rfl), by simp [call]⟩
  | isBlocked =>
    refine ⟨.inl ?_, by simp [call]⟩
    simpa [call] using h
  | edit work =>
    refine ⟨?_, rfl⟩
    cases hopen : p.isOpen with
    | true => exact .inl rfl
    | false => exact .inr (.inr (by simpa [Call.isBlind, hopen, call] using h))
  | restart => exact ⟨.inl h, rfl⟩
  | now => exact ⟨.inl h, rfl⟩
  | setTimeout timeout => exact ⟨.inl h, rfl⟩
  | writeText message => exact ⟨.inl h, rfl⟩

/-! ## Calls that publish -/

/-- If a packet is published, then all packets can be finished. -/
theorem finishes_of_closing {p : Producer (Clock C) E g} {r : Ring g} {packet : Packet g}
    (h : p.closing r = some packet) : PacketEncoder.Finishes E g := by
  have hending := p.ending r
  unfold closing at h
  generalize p.endPacket r = done at hending h
  cases hending with
  | idle hclosed => simp [hclosed] at h
  | published hopen hnow hend hroom => exact LawfulEncoder.finishes _ _ _ hend
  | _ => cases h

theorem finishes_of_sent {p : Producer (Clock C) E g} {r : Ring g} {c : Call E g}
    (h : p.sent r c ≠ []) : PacketEncoder.Finishes E g := by
  have hclosing : (p.closing r).toList ≠ [] → PacketEncoder.Finishes E g := by
    cases hpacket : p.closing r with
    | none => simp
    | some packet => exact fun _ => finishes_of_closing hpacket
  cases c with
  | endPacket => exact hclosing h
  | endSession =>
    simp only [sent, lastClosing] at h
    split at h
    · exact hclosing h
    · exact absurd rfl h
  | _ => exact absurd rfl h

end Producer

end TraceRing
