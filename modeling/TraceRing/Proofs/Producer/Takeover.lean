import TraceRing.Proofs.Producer.Backoff

/-!
# Producers that take over

A new producer starts at the index 0, whatever the ring of its core holds, and never reads the
shared index. In a ring whose shared index is 0, be it a new one or one that came round, it goes on
where the last producer stopped: what waits in the ring is delivered before what it publishes
(`Link.takesOver`).

It has to be given such a ring. In any other it takes up a place of its own, and may find the ring
full that is empty (`Link.faults_after_takeOver`).
-/

namespace TraceRing.Link

variable {g : Geometry} {C E : Type} {bits : Nat} [Countdown C bits]

/-- The link after a new producer took the place of the last one. -/
def takeOver (k : Link C E g) (grid : Grid) (core : Core) (clock : Clock C) (encoder : E)
    (timeout : UInt64) : Link C E g :=
  { k with producer := Producer.new grid core clock encoder timeout }

/-! ## What the consumer does -/

/-- Whether a step leaves the consumer and its sink in their place. -/
def Step.keepsSink : Step C E g → Bool
  | .attach _ => false
  | _ => true

/-- Whether a packet is moved to the sink in a step. -/
def moves (k : Link C E g) : Step C E g → Bool
  | .move core place verbose => (k.lane.move core place verbose).result.toOption.getD false
  | _ => false

/-- Whether a write to the sink fails in a step. -/
def fails (k : Link C E g) : Step C E g → Bool
  | .move core place verbose => (k.lane.move core place verbose).result.toOption.isNone
  | _ => false

variable [PacketEncoder E g]

/-- The number of packets moved to the sink along a run. -/
def moved (k : Link C E g) (steps : List (Step C E g)) : Nat :=
  (along next (fun k s => [k.moves s]) k steps).count true

/-- Whether no write to the sink fails along a run. -/
def isClean (k : Link C E g) (steps : List (Step C E g)) : Bool :=
  (along next (fun k s => [k.fails s]) k steps).all (!·)

section Run

variable {k : Link C E g} {sent : List (Packet g)} {taken : Nat}

/-- What a step does to the lane. -/
theorem passage_next (h : k.producer.Feeds k.lane.ring 0 sent taken) {s : Step C E g}
    (hs : s.keepsSink = true) :
    k.lane.Passage (k.next s).lane (sent ++ k.sentBy s) taken (k.moves s).toNat (k.fails s) := by
  cases s with
  | call c => exact .still (h.call c).ring rfl rfl
  | clock work =>
    simp only [sentBy, List.append_nil]
    exact .still h.ring rfl rfl
  | move core place verbose =>
    simp only [sentBy, List.append_nil, moves, fails]
    have htook := k.lane.took_move core place verbose
    cases hresult : (k.lane.move core place verbose).result with
    | error e =>
      rw [hresult] at htook
      exact htook.passage h.ring
    | ok moved =>
      rw [hresult] at htook
      exact htook.passage h.ring
  | report core =>
    refine .still ?_ (k.lane.consumed_reportText core) (k.lane.sink_reportText core)
    simpa [sentBy, Link.next] using h.ring
  | attach sink => cases hs

/-- A step keeps the two sides together. -/
theorem feeds_moves (h : k.producer.Feeds k.lane.ring 0 sent taken) {s : Step C E g}
    (hs : s.keepsSink = true) :
    (k.next s).producer.Feeds (k.next s).lane.ring 0 (sent ++ k.sentBy s)
      (taken + (k.moves s).toNat) := by
  obtain ⟨taken', -, hnext⟩ := feeds_next h s
  exact ⟨(passage_next h hs).carries, hnext.index⟩

theorem feeds_moved (h : k.producer.Feeds k.lane.ring 0 sent taken) {steps : List (Step C E g)}
    (hkeeps : ∀ s ∈ steps, s.keepsSink = true) :
    (k.after steps).producer.Feeds (k.after steps).lane.ring 0 (sent ++ k.published steps)
        (taken + k.moved steps) ∧
      (k.isClean steps = true →
        k.lane.Passage (k.after steps).lane (sent ++ k.published steps) taken (k.moved steps)
          false) := by
  induction steps generalizing k sent taken with
  | nil =>
    have hpublished : k.published [] = [] := rfl
    have hmoved : k.moved [] = 0 := rfl
    rw [hpublished, hmoved, List.append_nil, Nat.add_zero]
    exact ⟨h, fun _ => .still h.ring rfl rfl⟩
  | cons s rest ih =>
    obtain ⟨hs, hrest⟩ := List.forall_mem_cons.mp hkeeps
    obtain ⟨hfeeds, hpassage⟩ := ih (feeds_moves h hs) hrest
    have hpublished : k.published (s :: rest) = k.sentBy s ++ (k.next s).published rest := rfl
    have hmoved : k.moved (s :: rest) = (k.moves s).toNat + (k.next s).moved rest := by
      rw [moved, along, List.count_append, List.count_singleton]
      cases k.moves s <;> rfl
    rw [hpublished, hmoved, ← List.append_assoc, ← Nat.add_assoc]
    refine ⟨hfeeds, fun hclean => ?_⟩
    simp only [isClean, along, List.singleton_append, List.all_cons, Bool.and_eq_true,
      Bool.not_eq_true'] at hclean
    have hfirst := passage_next h hs
    rw [hclean.1] at hfirst
    exact hfirst.trans _ (hpassage hclean.2)

end Run

/-! ## Taking over -/

/-- A producer goes on where the ring stands: it finds room for the packets it opens, and what
waits in the ring comes before what it publishes. -/
structure GoesOn (k : Link C E g) (steps : List (Step C E g)) : Prop where
  /-- No call faults on a full ring. -/
  room : ∀ c, (k.after steps).answer c ≠ .error .endedOnFullRing
  /-- Ending a packet faults in no way, if packets can be finished and the clock can be read. -/
  ends : PacketEncoder.Finishes E g → (∃ time, (k.after steps).producer.now = .ok time) →
    (k.after steps).answer .endPacket = .ok ()
  backlog_le : (k.after steps).lane.ring.backlog ≤ g.slots
  /-- What was not moved waits in the ring. -/
  pending : (k.after steps).lane.ring.pending =
    (k.lane.ring.pending ++ k.published steps).drop (k.moved steps)
  received : k.isClean steps = true → (k.after steps).lane.sink.received =
    k.lane.sink.received ++ stream ((k.lane.ring.pending ++ k.published steps).take (k.moved steps))

theorem Ready.endPacket {k : Link C E g} {found : Bool} (hready : k.Ready found)
    (hfinishes : PacketEncoder.Finishes E g) {time : UInt64} (hnow : k.producer.now = .ok time) :
    k.answer .endPacket = .ok () := by
  have hending := k.producer.ending k.lane.ring
  simp only [answer, Producer.call]
  generalize k.producer.endPacket k.lane.ring = done at hending
  cases hending with
  | idle hclosed => rfl
  | published hopen hnow' hend hroom => rfl
  | timeless hopen hnow' =>
    rw [hnow] at hnow'
    cases hnow'
  | cramped hopen hnow' hend =>
    cases hend.symm.trans (hfinishes _ _ _)
  | full hopen hnow' hend hfull => exact absurd (hready (.inl hopen)) hfull

/-- A producer without an open packet can take over a ring of any content, if the shared index is
where it starts. -/
theorem takesOver [LawfulEncoder E g] (k : Link C E g) (grid : Grid) (core : Core)
    (clock : Clock C) {encoder : E} (timeout : UInt64)
    (hclosed : PacketEncoder.isOpen g encoder = false)
    (hgap : k.lane.ring.backlog ≤ g.slots) (hindex : k.lane.ring.producerIndex = 0)
    {steps : List (Step C E g)} (hkeeps : ∀ s ∈ steps, s.keepsSink = true)
    (hdisciplined : isDisciplined false (k.takeOver grid core clock encoder timeout) steps = true) :
    (k.takeOver grid core clock encoder timeout).GoesOn steps := by
  obtain ⟨before, hcarries⟩ := Ring.exists_carries hgap
  have hnew : (k.takeOver grid core clock encoder timeout).producer.index =
      k.lane.ring.producerIndex := hindex.symm
  have hfeeds : (k.takeOver grid core clock encoder timeout).producer.Feeds
      (k.takeOver grid core clock encoder timeout).lane.ring 0 (before ++ k.lane.ring.pending)
      before.length := ⟨hcarries, hnew.trans hcarries.producerIndex⟩
  have hready : (k.takeOver grid core clock encoder timeout).Ready false := by
    rintro (hopen | hfound)
    · exact nomatch hopen.symm.trans hclosed
    · cases hfound
  obtain ⟨found, hlast⟩ := hready.after hfeeds hdisciplined
  obtain ⟨hafter, hpassage⟩ := feeds_moved hfeeds hkeeps
  refine ⟨hlast.answer_ne_endedOnFullRing, ?_, ?_, ?_, fun hclean => ?_⟩
  · rintro hfinishes ⟨time, hnow⟩
    exact hlast.endPacket hfinishes hnow
  · have hlen := hafter.ring.length_le
    rw [hafter.ring.backlog_eq]
    omega
  · rw [hafter.ring.pending_eq, ← List.drop_drop, List.append_assoc, List.drop_left]
    rfl
  · obtain ⟨bytes, hreceived, hnone, -⟩ := (hpassage hclean).received
    rw [hreceived, hnone rfl, List.append_nil, List.append_assoc, List.drop_left]
    rfl

/-- A link of two slots whose indices came round, with one packet waiting. -/
def cameRound : Link (TickedCounter 16) Encoder .pair :=
  { twoSlots with
    lane := { twoSlots.lane with ring := { Ring.empty .pair with consumerIndex := 4294967295 } } }

/-- A packet is published and closed, both are moved, and another is opened. -/
def carryOn : List (Step (TickedCounter 16) Encoder .pair) :=
  [.call .startSession, .call .endPacket, .move ⟨0, 0⟩ 0 false, .move ⟨0, 0⟩ 0 false,
    .call .tryPacket]

theorem takesOver_cameRound :
    let k := cameRound.takeOver .single ⟨0, 0⟩ (TickedClock.new 16) Encoder.new 0
    PacketEncoder.isOpen .pair Encoder.new = false ∧ cameRound.lane.ring.backlog = 1 ∧
    cameRound.lane.ring.backlog ≤ Geometry.pair.slots ∧ cameRound.lane.ring.producerIndex = 0 ∧
    (∀ s ∈ carryOn, s.keepsSink = true) ∧ isDisciplined false k carryOn = true ∧
    k.moved carryOn = 2 ∧ k.GoesOn carryOn ∧ (k.after carryOn).answer .endPacket = .ok () := by
  intro k
  have hclosed : PacketEncoder.isOpen .pair Encoder.new = false := rfl
  have hgap : cameRound.lane.ring.backlog ≤ Geometry.pair.slots := by decide
  have hindex : cameRound.lane.ring.producerIndex = 0 := rfl
  have hkeeps : ∀ s ∈ carryOn, s.keepsSink = true := by simp [carryOn, Step.keepsSink]
  have hdisciplined : isDisciplined false k carryOn = true := by decide +kernel
  have hgoesOn : k.GoesOn carryOn := takesOver cameRound .single ⟨0, 0⟩ (TickedClock.new 16) 0
    hclosed hgap hindex hkeeps hdisciplined
  have hnow : ∃ t, (k.after carryOn).producer.now = .ok t := Producer.exists_now (by decide +kernel)
  exact ⟨hclosed, by decide, hgap, hindex, hkeeps, hdisciplined, by decide +kernel, hgoesOn,
    hgoesOn.ends (Encoder.finishes_iff.mpr (by decide)) hnow⟩

/-! ## Other rings -/

/-- A packet is published and moved, and the session is over. -/
def spent : List (Step (TickedCounter 16) Encoder .pair) :=
  [.call .startSession, .call (.edit fun encoder packet => (encoder.addEvents 1, packet)),
    .call .endSession, .move ⟨0, 0⟩ 0 false]

/-- A new producer at the ring that is empty again. -/
def handedOver : Link (TickedCounter 16) Encoder .pair :=
  (twoSlots.after spent).takeOver .single ⟨0, 0⟩ (TickedClock.new 16) .new 0

/-- The new producer finds room for its first packet, and faults when it ends it, for a full
ring. -/
theorem faults_after_takeOver :
    (twoSlots.after spent).producer.tracing = false ∧ handedOver.lane.ring.producerIndex = 1 ∧
    handedOver.lane.ring.backlog = 0 ∧ isDisciplined false handedOver [.call .startSession] = true ∧
    (handedOver.next (.call .startSession)).producer.isOpen = true ∧
    (handedOver.next (.call .startSession)).answer .endPacket = .error .endedOnFullRing := by
  refine ⟨?_, ?_, ?_, ?_, ?_, ?_⟩
  · decide +kernel
  · decide +kernel
  · decide +kernel
  · decide +kernel
  · decide +kernel
  · rfl

end TraceRing.Link
