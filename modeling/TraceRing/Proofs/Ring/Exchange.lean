import TraceRing.Proofs.Ring.Carries

/-!
# Two parties at one ring

The producer and the consumer of a ring run side by side, and each of their accesses to the ring
is a step of its own. A party decides as soon as it has loaded an index, so that what it decided on
may be out of date when it acts.

The parties need no lock: a producer stores into a slot that no consumer reads and that holds no
packet waiting for one, and the packets read are the packets stored, in order.
-/

namespace TraceRing

/-! ## Parties -/

/-- What the next access of a producer is. -/
inductive ProducerPhase where
  /-- It loads the consumer index. -/
  | looking
  /-- It found a free slot and stores a packet there. -/
  | writing
  /-- It makes the stored packet visible. -/
  | publishing
  deriving DecidableEq

/-- What the next access of a consumer is. -/
inductive ConsumerPhase where
  /-- It loads the producer index. -/
  | seeking
  /-- It loads the consumer index, to compare it with the producer index it has loaded. -/
  | comparing (producerIndex : UInt32)
  /-- It found a packet and reads it. -/
  | reading (index : UInt32)
  /-- It gives the slot of the packet back. -/
  | releasing (index : UInt32)
  deriving DecidableEq

/-- A ring between two parties. -/
structure Exchange (g : Geometry) where
  ring : Ring g
  /-- The producer's own index. -/
  shadow : UInt32
  producer : ProducerPhase
  consumer : ConsumerPhase
  /-- The packets stored so far. -/
  written : List (Packet g)
  /-- The packets read so far. -/
  read : List (Packet g)

/-- The party that makes the next access; a producer brings the packet it would store. -/
inductive Access (g : Geometry) where
  | producer (packet : Packet g)
  | consumer

namespace Exchange

variable {g : Geometry}

/-- Two parties about to start, at a ring with equal indices. -/
def start (r : Ring g) (index : UInt32) : Exchange g where
  ring := { r with consumerIndex := index, producerIndex := index }
  shadow := index
  producer := .looking
  consumer := .seeking
  written := []
  read := []

/-- The next access of the producer. -/
def stepProducer (s : Exchange g) (packet : Packet g) : Exchange g :=
  match s.producer with
  | .looking =>
    if Ring.isFull g s.shadow s.ring.consumerIndex then s else { s with producer := .writing }
  | .writing =>
    { s with
      ring := s.ring.setSlot s.shadow packet
      producer := .publishing
      written := s.written ++ [packet] }
  | .publishing =>
    { s with
      ring := s.ring.publishProducer (s.shadow + 1)
      shadow := s.shadow + 1
      producer := .looking }

/-- The next access of the consumer. -/
def stepConsumer (s : Exchange g) : Exchange g :=
  match s.consumer with
  | .seeking => { s with consumer := .comparing s.ring.producerIndex }
  | .comparing p =>
    if Ring.hasData p s.ring.consumerIndex then
      { s with consumer := .reading s.ring.consumerIndex }
    else { s with consumer := .seeking }
  | .reading c => { s with consumer := .releasing c, read := s.read ++ [s.ring.getSlot c] }
  | .releasing c => { s with ring := s.ring.publishConsumer (c + 1), consumer := .seeking }

/-- Makes an access. -/
def step (s : Exchange g) : Access g → Exchange g
  | .producer packet => s.stepProducer packet
  | .consumer => s.stepConsumer

/-- The parties after some accesses. -/
def after (s : Exchange g) (accesses : List (Access g)) : Exchange g :=
  accesses.foldl step s

/-- The slot that the next access of the producer stores into, if it stores. -/
def target (s : Exchange g) : Option Nat :=
  if s.producer = .writing then some (Ring.slot g s.shadow) else none

/-- The slot that the consumer found a packet in and has not given back. -/
def source (s : Exchange g) : Option Nat :=
  match s.consumer with
  | .reading c | .releasing c => some (Ring.slot g c)
  | _ => none

/-- The number of packets stored and not published. -/
def stored (s : Exchange g) : Nat :=
  if s.producer = .publishing then 1 else 0

/-- The number of packets read and not given back. -/
def held (s : Exchange g) : Nat :=
  match s.consumer with
  | .releasing _ => 1
  | _ => 0

/-! ## Accesses without the other party -/

/-- A consumer that is left alone for four accesses takes the oldest packet. -/
theorem stepConsumer_alone (s : Exchange g) (hseek : s.consumer = .seeking)
    (hdata : Ring.hasData s.ring.producerIndex s.ring.consumerIndex = true) :
    s.after [.consumer, .consumer, .consumer, .consumer] =
      { s with ring := s.ring.pop.2, read := s.read ++ s.ring.pop.1.toList } := by
  obtain ⟨ring, shadow, producer, consumer, written, read⟩ := s
  cases hseek
  simp only at hdata
  simp [after, step, stepConsumer, Ring.pop, hdata]

/-- A producer that is left alone for three accesses publishes a packet at its index. -/
theorem stepProducer_alone (s : Exchange g) (hlook : s.producer = .looking)
    (hroom : Ring.isFull g s.shadow s.ring.consumerIndex = false) (packet : Packet g) :
    s.after [.producer packet, .producer packet, .producer packet] =
      { s with
        ring := (s.ring.setSlot s.shadow packet).publishProducer (s.shadow + 1)
        shadow := s.shadow + 1
        written := s.written ++ [packet] } := by
  obtain ⟨ring, shadow, producer, consumer, written, read⟩ := s
  cases hlook
  simp only at hroom
  simp [after, step, stepProducer, hroom]

/-- An access changes no slot but the one the producer stores into. -/
theorem getSlot_step (s : Exchange g) (access : Access g) {index : UInt32}
    (h : s.target ≠ some (Ring.slot g index)) :
    (s.step access).ring.getSlot index = s.ring.getSlot index := by
  cases access with
  | consumer =>
    simp only [step, stepConsumer]
    split
    · rfl
    · split <;> rfl
    · rfl
    · rfl
  | producer packet =>
    simp only [step, stepProducer]
    split
    · split <;> rfl
    · next hwriting =>
      apply Ring.getSlot_setSlot_of_ne
      simpa [target, hwriting] using h
    · rfl

/-! ## What the phases know -/

/-- What a producer in a phase knows of the window: its view of the consumer may be old, but a free
slot stays free until the producer itself fills it. -/
def ProducerKnows (s : Exchange g) (base : Nat) (sent : List (Packet g)) (taken : Nat) : Prop :=
  match s.producer with
  | .looking => s.written = sent
  | .writing => s.written = sent ∧ sent.length < taken + g.slots
  | .publishing =>
    sent.length < taken + g.slots ∧
      s.written = sent ++ [s.ring.getSlot (UInt32.ofNat (base + sent.length))]

/-- What a consumer in a phase knows of the window: the producer index it loaded lies somewhere
between its own index and the current producer index. -/
def ConsumerKnows (s : Exchange g) (base : Nat) (sent : List (Packet g)) (taken : Nat) : Prop :=
  match s.consumer with
  | .seeking => s.read = sent.take taken
  | .comparing p =>
    s.read = sent.take taken ∧
      ∃ seen, taken ≤ seen ∧ seen ≤ sent.length ∧ p = UInt32.ofNat (base + seen)
  | .reading c =>
    s.read = sent.take taken ∧ taken < sent.length ∧ c = UInt32.ofNat (base + taken)
  | .releasing c =>
    s.read = sent.take (taken + 1) ∧ taken < sent.length ∧ c = UInt32.ofNat (base + taken)

/-- Both parties are right about the ring, which carries the packets published so far. -/
structure Sound (s : Exchange g) (base : Nat) (sent : List (Packet g)) (taken : Nat) : Prop where
  ring : s.ring.Carries base sent taken
  shadow : s.shadow = UInt32.ofNat (base + sent.length)
  producer : s.ProducerKnows base sent taken
  consumer : s.ConsumerKnows base sent taken

theorem sound_start (r : Ring g) (index : UInt32) : (start r index).Sound index.toNat [] 0 where
  ring := Ring.Carries.of_eq index rfl rfl
  shadow := by simp [start]
  producer := rfl
  consumer := rfl

/-! ## Accesses keep the parties right -/

variable {s : Exchange g} {base taken : Nat} {sent : List (Packet g)}

/-- What a consumer knows stays true when a packet is published. -/
theorem ConsumerKnows.append (h : s.ConsumerKnows base sent taken) (hle : taken ≤ sent.length)
    (packet : Packet g) : s.ConsumerKnows base (sent ++ [packet]) taken := by
  unfold ConsumerKnows at h ⊢
  have hlen : (sent ++ [packet]).length = sent.length + 1 := by simp
  split at h
  · rw [List.take_append_of_le_length hle]
    exact h
  · obtain ⟨hread, seen, hlo, hhi, hp⟩ := h
    rw [List.take_append_of_le_length hle]
    exact ⟨hread, seen, hlo, by omega, hp⟩
  · obtain ⟨hread, hlt, hc⟩ := h
    rw [List.take_append_of_le_length hle]
    exact ⟨hread, by omega, hc⟩
  · obtain ⟨hread, hlt, hc⟩ := h
    rw [List.take_append_of_le_length hlt]
    exact ⟨hread, by omega, hc⟩

/-- What a producer knows stays true when a slot is given back. -/
theorem ProducerKnows.succ (h : s.ProducerKnows base sent taken) (index : UInt32) :
    ({ s with ring := s.ring.publishConsumer index, consumer := .seeking } :
      Exchange g).ProducerKnows base sent (taken + 1) := by
  unfold ProducerKnows at h ⊢
  split at h
  · next hphase =>
    simp only [hphase]
    exact h
  · next hphase =>
    simp only [hphase]
    exact ⟨h.1, by omega⟩
  · next hphase =>
    simp only [hphase]
    exact ⟨by omega, h.2⟩

theorem Sound.stepProducer (h : s.Sound base sent taken) (packet : Packet g) :
    ∃ sent, (s.stepProducer packet).Sound base sent taken := by
  have hproducer := h.producer
  unfold ProducerKnows at hproducer
  unfold Exchange.stepProducer
  split
  · next hphase =>
    simp only [hphase] at hproducer
    split
    · exact ⟨sent, h⟩
    · next hfull =>
      -- the consumer can only move on later: the slot found free stays free
      have hroom : sent.length < taken + g.slots := by
        rw [h.shadow, ← h.ring.producerIndex, h.ring.isFull_iff] at hfull
        have hlen := h.ring.length_le
        omega
      exact ⟨sent, h.ring, h.shadow, ⟨hproducer, hroom⟩, h.consumer⟩
  · next hphase =>
    simp only [hphase] at hproducer
    obtain ⟨hwritten, hroom⟩ := hproducer
    refine ⟨sent, ?_, h.shadow, ?_, h.consumer⟩
    -- the slot is behind the window until it is published
    · simpa only [h.shadow] using h.ring.setSlot hroom packet
    · refine ⟨hroom, ?_⟩
      simp [hwritten, h.shadow]
  · next hphase =>
    simp only [hphase] at hproducer
    obtain ⟨hroom, hwritten⟩ := hproducer
    -- all that was stored is now published
    refine ⟨s.written, ?_, ?_, rfl, ?_⟩
    · rw [h.shadow, hwritten]
      exact h.ring.publishProducer hroom rfl
    · rw [h.shadow, hwritten, List.length_append, ← Nat.add_assoc]
      exact (UInt32.ofNat_add (base + sent.length) 1).symm
    · rw [hwritten]
      exact h.consumer.append h.ring.taken_le _

theorem Sound.stepConsumer (h : s.Sound base sent taken) :
    ∃ taken, s.stepConsumer.Sound base sent taken := by
  have hconsumer := h.consumer
  unfold ConsumerKnows at hconsumer
  unfold Exchange.stepConsumer
  split
  · next hphase =>
    simp only [hphase] at hconsumer
    -- the loaded index is the end of the window, which only moves away from now on
    refine ⟨taken, h.ring, h.shadow, h.producer, hconsumer, sent.length, ?_⟩
    exact ⟨h.ring.taken_le, Nat.le_refl _, h.ring.producerIndex⟩
  · next p hphase =>
    simp only [hphase] at hconsumer
    obtain ⟨hread, seen, hlo, hhi, hp⟩ := hconsumer
    split
    · next hdata =>
      -- the index loaded differs from the consumer index, so it lies behind it
      have hne : seen ≠ taken := by
        rintro rfl
        simp [Ring.hasData, hp, h.ring.consumerIndex] at hdata
      refine ⟨taken, h.ring, h.shadow, h.producer, hread, by omega, ?_⟩
      exact h.ring.consumerIndex
    · exact ⟨taken, h.ring, h.shadow, h.producer, hread⟩
  · next c hphase =>
    simp only [hphase] at hconsumer
    obtain ⟨hread, hlt, hc⟩ := hconsumer
    refine ⟨taken, h.ring, h.shadow, h.producer, ?_, hlt, hc⟩
    rw [hread, hc, h.ring.getSlot taken hlt (Nat.le_refl _), List.take_append_getElem hlt]
  · next c hphase =>
    simp only [hphase] at hconsumer
    obtain ⟨hread, hlt, hc⟩ := hconsumer
    refine ⟨taken + 1, ?_, h.shadow, h.producer.succ _, hread⟩
    rw [hc, ← h.ring.consumerIndex]
    exact h.ring.publishConsumer hlt

theorem Sound.after (h : s.Sound base sent taken) (accesses : List (Access g)) :
    ∃ sent taken, (s.after accesses).Sound base sent taken := by
  -- induction on the accesses: each of them moves one end of the window or none
  induction accesses generalizing s sent taken with
  | nil => exact ⟨sent, taken, h⟩
  | cons access rest ih =>
    cases access with
    | producer packet =>
      obtain ⟨sent, hnext⟩ := h.stepProducer packet
      exact ih hnext
    | consumer =>
      obtain ⟨taken, hnext⟩ := h.stepConsumer
      exact ih hnext

/-! ## Exclusion and order -/

/-- The producer stores behind the window, less than a round from its front. -/
theorem Sound.target_ne (h : s.Sound base sent taken) {k : Nat} (hlo : taken ≤ k)
    (hhi : k < sent.length) : s.target ≠ some ((base + k) % g.slots) := by
  have hproducer := h.producer
  unfold ProducerKnows at hproducer
  unfold target
  split
  · next hphase =>
    simp only [hphase] at hproducer
    have hroom := hproducer.2
    simp only [h.shadow, Ring.slot_ofNat, ne_eq, Option.some.injEq]
    exact (Ring.mod_slots_ne (by omega) (by omega)).symm
  · intro hnone
    cases hnone

/-- The consumer holds the front of the window. -/
theorem Sound.source_eq (h : s.Sound base sent taken) {i : Nat} (hi : s.source = some i) :
    taken < sent.length ∧ i = (base + taken) % g.slots := by
  have hconsumer := h.consumer
  unfold ConsumerKnows at hconsumer
  unfold source at hi
  split at hi
  · next c hphase =>
    simp only [hphase] at hconsumer
    obtain ⟨-, hlt, rfl⟩ := hconsumer
    rw [Ring.slot_ofNat] at hi
    exact ⟨hlt, (Option.some.inj hi).symm⟩
  · next c hphase =>
    simp only [hphase] at hconsumer
    obtain ⟨-, hlt, rfl⟩ := hconsumer
    rw [Ring.slot_ofNat] at hi
    exact ⟨hlt, (Option.some.inj hi).symm⟩
  · cases hi

theorem Sound.written_eq (h : s.Sound base sent taken) :
    sent <+: s.written ∧ s.written.length = sent.length + s.stored := by
  have hproducer := h.producer
  unfold ProducerKnows at hproducer
  unfold stored
  cases hphase : s.producer with
  | looking =>
    simp only [hphase] at hproducer
    simp [hproducer]
  | writing =>
    simp only [hphase] at hproducer
    simp [hproducer.1]
  | publishing =>
    simp only [hphase] at hproducer
    simp [hproducer.2]

theorem Sound.read_eq (h : s.Sound base sent taken) :
    s.read <+: sent ∧ s.read.length = taken + s.held := by
  have hconsumer := h.consumer
  have hle := h.ring.taken_le
  unfold ConsumerKnows at hconsumer
  unfold held
  cases hphase : s.consumer with
  | seeking =>
    simp only [hphase] at hconsumer
    rw [hconsumer]
    exact ⟨List.take_prefix _ _, List.length_take_of_le hle⟩
  | comparing p =>
    simp only [hphase] at hconsumer
    rw [hconsumer.1]
    exact ⟨List.take_prefix _ _, List.length_take_of_le hle⟩
  | reading c =>
    simp only [hphase] at hconsumer
    rw [hconsumer.1]
    exact ⟨List.take_prefix _ _, List.length_take_of_le hle⟩
  | releasing c =>
    simp only [hphase] at hconsumer
    rw [hconsumer.1]
    exact ⟨List.take_prefix _ _, List.length_take_of_le hconsumer.2.1⟩

/-- However the accesses of a producer and a consumer that start at equal indices are interleaved,
no more packets wait than there are slots; the producer stores neither into the slot the consumer
holds nor into that of a waiting packet, so that no access changes the packet being read; and the
packets read are the packets stored, from the first on, each once and whole. At any time, a consumer
that is then left alone takes the oldest packet, and a producer that is left alone publishes one. -/
theorem exclusive_in_order (r : Ring g) (index : UInt32) (accesses : List (Access g)) :
    let s := (start r index).after accesses
    s.ring.backlog ≤ g.slots ∧
    (∀ i, s.target = some i → s.source ≠ some i) ∧
    (∀ c access, s.source = some (Ring.slot g c) →
      (s.step access).ring.getSlot c = s.ring.getSlot c) ∧
    (∀ k < s.ring.backlog,
      s.target ≠ some (Ring.slot g (s.ring.consumerIndex + UInt32.ofNat k))) ∧
    s.read <+: s.written ∧
    s.written.length + s.held = s.read.length + s.ring.backlog + s.stored ∧
    (s.consumer = .seeking →
      Ring.hasData s.ring.producerIndex s.ring.consumerIndex = true →
      s.after [.consumer, .consumer, .consumer, .consumer] =
        { s with ring := s.ring.pop.2, read := s.read ++ s.ring.pop.1.toList }) ∧
    (s.producer = .looking → Ring.isFull g s.shadow s.ring.consumerIndex = false →
      ∀ packet, s.after [.producer packet, .producer packet, .producer packet] =
        { s with
          ring := (s.ring.setSlot s.shadow packet).publishProducer (s.shadow + 1)
          shadow := s.shadow + 1
          written := s.written ++ [packet] }) := by
  intro s
  obtain ⟨sent, taken, hsound⟩ := (sound_start r index).after accesses
  have hbacklog : s.ring.backlog = sent.length - taken := hsound.ring.backlog_eq
  have hle := hsound.ring.taken_le
  have hlen := hsound.ring.length_le
  have hwritten : sent <+: s.written ∧ s.written.length = sent.length + s.stored :=
    hsound.written_eq
  have hread : s.read <+: sent ∧ s.read.length = taken + s.held := hsound.read_eq
  -- the consumer holds the front of the window, and the producer stores behind its end
  have hexclusive : ∀ i, s.target = some i → s.source ≠ some i := by
    intro i htarget hsource
    obtain ⟨hlt, rfl⟩ := hsound.source_eq hsource
    exact hsound.target_ne (Nat.le_refl _) hlt htarget
  refine ⟨by omega, hexclusive, ?_, ?_, hread.1.trans hwritten.1, by omega, s.stepConsumer_alone,
    s.stepProducer_alone⟩
  · intro c access hsource
    exact getSlot_step s access fun htarget => hexclusive _ htarget hsource
  · intro k hk
    -- the waiting packets are the window
    have hslot : Ring.slot g (s.ring.consumerIndex + UInt32.ofNat k)
        = (index.toNat + (taken + k)) % g.slots := by
      rw [hsound.ring.consumerIndex, ← UInt32.ofNat_add, Ring.slot_ofNat, Nat.add_assoc]
    rw [hslot]
    exact hsound.target_ne (by omega) (by omega)

end Exchange

end TraceRing
