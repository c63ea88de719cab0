import TraceRing.Proofs.Log.Messages
import TraceRing.Proofs.Transport.Ownership

/-!
# The diagnostic text

A core's text area holds the message that was written last, up to its first NUL byte. What a longer
message left behind in the area is never shown again (`Ring.text_writeText`), and no step but one
that writes a message touches the area (`Transport.text_next`). So what a reader gets after any
history is told by the last message alone (`Transport.readText_after`).
-/

namespace TraceRing

variable {bits : Nat} {g : Geometry}

/-! ## The text of a ring -/

namespace Ring

/-- What is shown of a message: as much as fits the area with a NUL byte behind it, up to the first
NUL byte of its own. -/
def shown (message : Bytes) : Bytes :=
  (textKept message).takeWhile (· != 0)

theorem text_eq (r : Ring g) : r.text = r.textArea.toList.takeWhile (· != 0) :=
  Array.toList_takeWhile

theorem text_congr {r r' : Ring g} (h : r'.textArea = r.textArea) : r'.text = r.text := by
  rw [text_eq, text_eq, h]

@[simp] theorem text_empty (g : Geometry) : (empty g).text = [] := by
  rw [text_eq, empty, Vector.toList_replicate, List.takeWhile_replicate]
  rfl

/-- A message lies at the start of the area, with a NUL byte behind it. -/
theorem toList_writeText (r : Ring g) (message : Bytes) :
    (r.writeText message).textArea.toList =
      textKept message ++ 0 :: r.textArea.toList.drop ((textKept message).length + 1) := by
  have hlt : (textKept message).length < textAreaSize := by
    have hkept : (textKept message).length ≤ textAreaSize - 1 := List.length_take_le ..
    exact Nat.lt_of_le_of_lt hkept (by decide)
  apply List.ext_getElem
  · simp only [Vector.length_toList, List.length_append, List.length_cons, List.length_drop]
    omega
  · intro k hk hk'
    rw [Vector.length_toList] at hk
    simp only [Vector.getElem_toList, writeText, Vector.getElem_ofFn]
    rcases Nat.lt_trichotomy k (textKept message).length with hbefore | hend | hbehind
    · rw [if_neg (Nat.ne_of_lt hbefore), List.getElem_append_left hbefore,
        List.getElem?_eq_getElem hbefore, Option.getD_some]
    · subst hend
      simp
    · rw [if_neg (Nat.ne_of_gt hbehind), List.getElem_append_right (Nat.le_of_lt hbehind),
        List.getElem?_eq_none (Nat.le_of_lt hbehind), Option.getD_none]
      obtain ⟨d, rfl⟩ := Nat.exists_eq_add_of_lt hbehind
      simp [Nat.add_assoc, Nat.add_comm 1 d]

/-- The NUL byte hides whatever the area holds behind it. -/
@[simp] theorem text_writeText (r : Ring g) (message : Bytes) :
    (r.writeText message).text = shown message := by
  rw [text_eq, toList_writeText, List.takeWhile_append]
  split
  · next hwhole =>
    -- the message has no NUL byte of its own, and the one behind it ends the text
    have hall : shown message = textKept message :=
      (List.takeWhile_prefix _).eq_of_length hwhole
    rw [hall, List.takeWhile_cons_of_neg (by simp), List.append_nil]
  · rfl

/-- A reader gets as much of the text as its buffer takes, and the rest of the buffer stays. -/
theorem readText_eq (r : Ring g) (buffer : Bytes) :
    r.readText buffer =
      (min buffer.length r.text.length,
        r.text.take buffer.length ++ buffer.drop (min buffer.length r.text.length)) := by
  simp only [readText, List.length_take]

/-- The message that an operation writes, if it writes one. -/
def Op.message? : Op g → Option Bytes
  | .writeText message => some message
  | _ => none

/-- Whatever is done to the indices and the packets, the text is that of the last message. -/
theorem text_run (r : Ring g) (op : Op g) :
    (r.run op).2.text = (op.message?.map shown).getD r.text := by
  cases op with
  | writeText message => exact r.text_writeText message
  | pop =>
    refine text_congr ?_
    simp only [run, pop]
    split <;> rfl
  | _ => exact text_congr rfl

end Ring

/-! ## The text in a call -/

namespace Producer

variable {K E : Type} [TimeSource K] [PacketEncoder E g]

@[simp] theorem textArea_endPacket (p : Producer K E g) (r : Ring g) :
    (p.endPacket r).2.2.textArea = r.textArea := by
  have hending := p.ending r
  generalize p.endPacket r = done at hending ⊢
  cases hending <;> rfl

@[simp] theorem textArea_endSession (p : Producer K E g) (r : Ring g) :
    (p.endSession r).2.2.textArea = r.textArea :=
  endSession_keeps (motive := fun _ r' => r'.textArea = r.textArea) rfl (p.textArea_endPacket r)
    fun _ _ hkept => hkept

@[simp] theorem textArea_publishEvent (p : Producer K Encoder g) (r : Ring g) :
    (p.publishEvent r).2.2.textArea = r.textArea := by
  simp only [publishEvent]
  split
  · rfl
  · rfl
  · next opened _ =>
    have hend := (opened.addEvents 1).textArea_endPacket r
    split
    · next heq =>
      rw [heq] at hend
      exact hend
    · next heq =>
      rw [heq] at hend
      exact hend

@[simp] theorem textArea_burst (n : Nat) (p : Producer K E g) (r : Ring g) :
    (burst n p r).2.2.textArea = r.textArea := by
  induction n generalizing p r with
  | zero => rfl
  | succ n ih =>
    simp only [burst]
    split
    · rfl
    · split
      · rfl
      · exact ih _ r
    · split
      · rfl
      · next opened _ =>
        have hend := opened.textArea_endPacket r
        split
        · next heq =>
          rw [heq] at hend
          exact hend
        · next heq =>
          rw [heq] at hend
          exact (ih _ _).trans hend

/-- The message that a call writes, if it writes one. -/
def Call.message? : Call E g → Option Bytes
  | .writeText message => some message
  | _ => none

theorem text_call (p : Producer K E g) (r : Ring g) (c : Call E g) :
    (p.call r c).2.2.text = (c.message?.map Ring.shown).getD r.text := by
  cases c with
  | writeText message => exact r.text_writeText message
  | endPacket => exact Ring.text_congr (p.textArea_endPacket r)
  | endSession => exact Ring.text_congr (p.textArea_endSession r)
  | _ => rfl

end Producer

/-! ## The text in a run -/

namespace Transport

/-- The message that an operation of a producer writes, if it writes one. What a core says is cut to
its format buffer, whatever the pieces it is said in. -/
def ProducerOp.message? : ProducerOp → Option Bytes
  | .writeText message => some message
  | .say level pieces => some ((Log.labelled level pieces.flatten).take Log.coreMessageSize)
  | _ => none

theorem ProducerOp.message?_of_call {op : ProducerOp} {c : Producer.Call Encoder g}
    (h : op.call? = some c) : c.message? = op.message? := by
  cases op with
  | say level pieces =>
    cases h
    exact congrArg some (Log.coreMessage_eq level pieces)
  | clock op => cases h
  | publishEvent => cases h
  | burst n => cases h
  | _ =>
    cases h
    rfl

theorem text_runProducer (p : Producer (TickedClock bits) Encoder g) (r : Ring g)
    (op : ProducerOp) :
    (runProducer p r op).2.2.text = (op.message?.map Ring.shown).getD r.text := by
  match hcall : (op.call? : Option (Producer.Call Encoder g)) with
  | some c =>
    rw [runProducer_of_call p r hcall, p.text_call r c, ProducerOp.message?_of_call hcall]
  | none =>
    cases op with
    | clock op => rfl
    | publishEvent => exact Ring.text_congr (p.textArea_publishEvent r)
    | burst n => exact Ring.text_congr (Producer.textArea_burst n p r)
    | _ => cases hcall

/-- The message that a step writes to the ring at a place, if it writes one. -/
def messageBy (t : Transport bits g) (place : Nat) : Step g → Option Bytes
  | .producer i op =>
    (t.stations[i]?).bind fun s => if s.place = place then op.message? else none
  | .ring q op => if q = place then op.message? else none
  | _ => none

/-- The messages written to the ring at a place along a run. -/
def messages (t : Transport bits g) (place : Nat) (steps : List (Step g)) : List Bytes :=
  along next (fun t s => (t.messageBy place s).toList) t steps

theorem text_setRing {t : Transport bits g} {q place : Nat} {l : Lane g} {r r' : Ring g}
    {message : Option Bytes} (hl : t.lanes[q]? = some l) (hr : t.rings[place]? = some r)
    (htext : r'.text = (message.map Ring.shown).getD l.ring.text) :
    ∃ r'', (t.setRing q r').rings[place]? = some r'' ∧
      r''.text = ((if q = place then message else none).map Ring.shown).getD r.text := by
  rw [rings_setRing]
  by_cases hplace : q = place
  · subst hplace
    refine ⟨r', List.getElem?_set_self (List.getElem?_eq_some_iff.mp hr).1, ?_⟩
    rw [getElem?_rings, hl, Option.map_some, Option.some.injEq] at hr
    rw [if_pos rfl, ← hr]
    exact htext
  · rw [List.getElem?_set_ne hplace, if_neg hplace]
    exact ⟨r, hr, rfl⟩

/-- After a step, the ring at a place shows the message of the step if it wrote one there, and what
it showed before if not. -/
theorem text_next (t : Transport bits g) (s : Step g) {place : Nat} {r : Ring g}
    (hr : t.rings[place]? = some r) :
    ∃ r', (t.next s).rings[place]? = some r' ∧
      r'.text = ((t.messageBy place s).map Ring.shown).getD r.text := by
  -- a step at a ring that does not exist is not at this one
  have hother : ∀ q, t.lanes[q]? = none → q ≠ place := by
    rintro q hnone rfl
    rw [getElem?_rings, hnone] at hr
    cases hr
  cases s with
  | producer i op =>
    simp only [next, step, stepProducer, messageBy]
    cases t.stations[i]? with
    | none => exact ⟨r, hr, rfl⟩
    | some s =>
      simp only [Option.bind_some]
      cases hl : t.lanes[s.place]? with
      | none =>
        rw [if_neg (hother s.place hl)]
        exact ⟨r, hr, rfl⟩
      | some l => exact text_setRing hl hr (text_runProducer s.producer l.ring op)
  | edit i work =>
    rw [rings_edit]
    exact ⟨r, hr, rfl⟩
  | ring q op =>
    simp only [next, step, messageBy]
    cases hl : t.lanes[q]? with
    | none =>
      rw [if_neg (hother q hl)]
      exact ⟨r, hr, rfl⟩
    | some l => exact text_setRing hl hr (l.ring.text_run op)
  | setShutdown requested => exact ⟨r, hr, rfl⟩
  | consumer op =>
    rw [rings_consumer, List.getElem?_mapIdx, hr]
    exact ⟨_, rfl, Ring.text_congr rfl⟩

/-- After a run, the ring at a place shows the last message written to it. -/
theorem text_after (t : Transport bits g) (steps : List (Step g)) {place : Nat} {r : Ring g}
    (hr : t.rings[place]? = some r) :
    ∃ r', (t.after steps).rings[place]? = some r' ∧
      r'.text = ((t.messages place steps).getLast?.map Ring.shown).getD r.text := by
  induction steps generalizing t r with
  | nil => exact ⟨r, hr, rfl⟩
  | cons s rest ih =>
    obtain ⟨middle, hmiddle, hfirst⟩ := t.text_next s hr
    obtain ⟨r', hr', hlater⟩ := ih (t.next s) hmiddle
    refine ⟨r', hr', ?_⟩
    have hmessages : t.messages place (s :: rest) =
        (t.messageBy place s).toList ++ (t.next s).messages place rest := rfl
    rw [hlater, hmessages, List.getLast?_append]
    -- only if nothing is written later does the message of this step count
    cases ((t.next s).messages place rest).getLast? with
    | some later => rfl
    | none =>
      rw [hfirst]
      cases t.messageBy place s <;> rfl

section Build

variable {grid : Grid} {rings : Nat} {sinks : List Sink} {producers : List (Core × UInt64)}
  {verbose shutdown : Bool} {t : Transport bits g}

/-- The last message wins. After any run from empty rings a reader gets the shown part of the last
message that was written to the ring, as far as its buffer goes, and the rest of the buffer stays;
what a core says is one message, whatever the pieces it is said in. -/
theorem readText_after (hbuild : build bits g grid rings sinks producers verbose shutdown = .ok t)
    (steps : List (Step g)) {place : Nat} (hplace : place < grid.count) (buffer : Bytes) :
    let text := ((t.messages place steps).getLast?.map Ring.shown).getD []
    ((t.after steps).step (.ring place (.readText buffer))).result =
        .ok (.ring (.text (min buffer.length text.length)
          (text.take buffer.length ++ buffer.drop (min buffer.length text.length)))) ∧
      ∀ (p : Producer (TickedClock bits) Encoder g) (r : Ring g) (level : Log.Level)
        (pieces : List Bytes),
        runProducer p r (.say level pieces) =
          runProducer p r (.writeText
            ((Log.labelled level pieces.flatten).take Log.coreMessageSize)) := by
  intro text
  have hlength : t.lanes.length = grid.count := Consumer.length_of_attach (parts_of_build hbuild).2
  obtain ⟨l, hl⟩ : ∃ l, t.lanes[place]? = some l :=
    ⟨_, List.getElem?_eq_getElem (hlength ▸ hplace)⟩
  obtain ⟨sink, -, rfl⟩ := lane_of_build hbuild hl
  have hr : t.rings[place]? = some (Ring.empty g) := by
    rw [getElem?_rings, hl]
    rfl
  obtain ⟨r', hr', htext⟩ := t.text_after steps hr
  rw [Ring.text_empty] at htext
  obtain ⟨l', hl', rfl⟩ : ∃ l', (t.after steps).lanes[place]? = some l' ∧ l'.ring = r' := by
    simpa [getElem?_rings] using hr'
  constructor
  · simp only [step, hl', Ring.run, Ring.readText_eq, htext]
    rfl
  · intro p r level pieces
    simp only [runProducer, Log.coreMessage_eq]

end Build

/-- A message longer than the text area, and then a shorter one in two pieces, with a NUL byte in
the second. -/
def overwrite : List (Step .pair) :=
  [.producer 0 (.writeText (List.replicate 300 65)), .producer 0 .publishEvent, .consumer .sweep,
    .producer 0 (.say .warn [[98, 111], [111, 0, 116]]), .ring 0 .pop]

theorem readText_after_overwrite :
    build 16 .pair twoSlots.grid 1 [.accepting] [(⟨0, 0⟩, 0)] false false = .ok twoSlots ∧
    0 < twoSlots.grid.count ∧ (twoSlots.messages 0 overwrite).length = 2 ∧
    ((twoSlots.after overwrite).step (.ring 0 (.readText (List.replicate 12 7)))).result =
      .ok (.ring (.text 9 (Bytes.ofText "WARN: boo" ++ [7, 7, 7]))) := by
  have hbuild : build 16 .pair twoSlots.grid 1 [.accepting] [(⟨0, 0⟩, 0)] false false
      = .ok twoSlots := rfl
  have hplace : 0 < twoSlots.grid.count := by decide
  have hlast : ((twoSlots.messages 0 overwrite).getLast?.map Ring.shown).getD [] =
      Bytes.ofText "WARN: boo" := by decide +kernel
  have hread := (readText_after hbuild overwrite hplace (List.replicate 12 7)).1
  simp only [hlast] at hread
  refine ⟨hbuild, hplace, by decide +kernel, hread.trans ?_⟩
  rfl

end Transport

end TraceRing
