import TraceRing.Proofs.Consumer.Sweeps

/-!
# Packets in pieces

A sink takes a packet in as many pieces as it likes and may interrupt the write between them. How
the write ends, and what the sink has of the packet then, depends on two things only: the bytes
that are taken before the first turn that ends a write for good (`Turn.reach`), and what that turn
fails with. So it does not matter how the bytes are cut into pieces, and interruptions can be left
out (`Recut`, `Lane.move_recut`).

An interruption that does not request shutdown leaves no trace at all: without such interruptions a
move does the same (`Lane.move_steady`).
-/

namespace TraceRing

variable {g : Geometry}

namespace Turn

/-! ## What a script has room for -/

/-- What a turn ends a write with, if it ends it before all is taken. -/
def failure? (t : Turn) : Option IoError :=
  match t.reply with
  | .takeAll => none
  | .takeUpTo 0 => some .tookNothing
  | .takeUpTo (_ + 1) => none
  | .fail e => if e.kind = .interrupted then none else some e

/-- The bytes a turn has room for, of at most `size`. -/
def room (size : Nat) (t : Turn) : Nat :=
  match t.reply with
  | .takeAll => size
  | .takeUpTo n => n
  | .fail _ => 0

/-- The bytes some turns have room for, one after the other. -/
def rooms (size : Nat) (turns : List Turn) : Nat :=
  (turns.map (room size)).sum

/-- The bytes a script has room for before its first turn that ends a write. Behind the script
there is room for everything. -/
def reach (size : Nat) : List Turn → Nat
  | [] => size
  | t :: rest => if t.failure? = none then t.room size + reach size rest else 0

theorem room_agree {m size : Nat} (h : m ≤ size) (t : Turn) :
    min m (t.room m) = min m (t.room size) := by
  cases hreply : t.reply <;> simp only [room, hreply]
  omega

/-- The room for a part does not depend on how much comes behind that part. -/
theorem rooms_agree {m size : Nat} (h : m ≤ size) (turns : List Turn) :
    min m (rooms m turns) = min m (rooms size turns) := by
  induction turns with
  | nil => rfl
  | cons t rest ih =>
    have hroom := room_agree h t
    simp only [rooms, List.map_cons, List.sum_cons] at ih ⊢
    omega

theorem reach_agree {m size : Nat} (h : m ≤ size) (script : List Turn) :
    min m (reach m script) = min m (reach size script) := by
  induction script with
  | nil =>
    simp only [reach]
    omega
  | cons t rest ih =>
    have hroom := room_agree h t
    simp only [reach]
    split
    · omega
    · rfl

/-- A piece that is taken is part of the room. -/
theorem reach_cons_piece {t : Turn} {n size : Nat} (hreply : t.reply = .takeUpTo (n + 1))
    (rest : List Turn) : reach size (t :: rest) = n + 1 + reach size rest := by
  simp [reach, failure?, room, hreply]

theorem reach_cons_pause {t : Turn} {e : IoError} {size : Nat} (hreply : t.reply = .fail e)
    (hkind : e.kind = .interrupted) (rest : List Turn) :
    reach size (t :: rest) = reach size rest := by
  simp [reach, failure?, room, hreply, hkind]

/-- There is no room behind a turn that ends a write. -/
theorem reach_cons_failure {t : Turn} {e : IoError} {size : Nat} (h : t.failure? = some e)
    (rest : List Turn) : reach size (t :: rest) = 0 := by
  simp [reach, h]

end Turn

open Turn (failure? reach rooms reach_agree rooms_agree)

/-! ## Writing by the script -/

/-- A sink takes what its script has room for. -/
theorem taken_writeAll (script : List Turn) (offer : Bytes) :
    (writeAll script offer).taken = offer.take (reach offer.length script) := by
  fun_induction writeAll script offer with
  | case1 script => simp
  | case2 offer hne => simp [reach]
  | case3 turn script offer hne hreply =>
    rw [List.take_of_length_le]
    simp [reach, failure?, Turn.room, hreply]
  | case4 turn script offer hne hreply =>
    have hfailure : turn.failure? = some .tookNothing := by simp [failure?, hreply]
    rw [Turn.reach_cons_failure hfailure]
    rfl
  | case5 turn script offer hne n hreply ih =>
    have hagree := reach_agree (Nat.sub_le offer.length (n + 1)) script
    have hrest : (writeAll script (offer.drop (n + 1))).taken =
        (offer.drop (n + 1)).take (reach offer.length script) := by
      rw [ih, List.take_eq_take_iff, List.length_drop]
      omega
    have hsplit : offer.take (n + 1 + reach offer.length script) =
        offer.take (n + 1) ++ (offer.drop (n + 1)).take (reach offer.length script) :=
      List.take_add
    rw [Turn.reach_cons_piece hreply, hsplit, ← hrest]
    rfl
  | case6 turn script offer hne e hreply hkind ih =>
    rw [Turn.reach_cons_pause hreply hkind]
    simpa [Delivery.after] using ih
  | case7 turn script offer hne e hreply hkind =>
    have hfailure : turn.failure? = some e := by simp [failure?, hreply, hkind]
    rw [Turn.reach_cons_failure hfailure]
    rfl

/-- A write fails with the first turn that ends one. -/
theorem error_writeAll {script : List Turn} {offer : Bytes} {e : IoError}
    (h : (writeAll script offer).result = .error e) : script.findSome? failure? = some e := by
  fun_induction writeAll script offer with
  | case1 script => cases h
  | case2 offer hne => cases h
  | case3 turn script offer hne hreply => cases h
  | case4 turn script offer hne hreply =>
    cases h
    simp [failure?, hreply]
  | case5 turn script offer hne n hreply ih =>
    simpa [List.findSome?_cons, failure?, hreply] using ih h
  | case6 turn script offer hne e hreply hkind ih =>
    simpa [List.findSome?_cons, failure?, hreply, hkind] using ih h
  | case7 turn script offer hne e hreply hkind =>
    cases h
    simp [failure?, hreply, hkind]

/-- A write ends well if and only if there is room for all of the offer. -/
theorem result_writeAll (script : List Turn) (offer : Bytes) :
    (writeAll script offer).result = .ok () ↔ offer.length ≤ reach offer.length script := by
  have htaken := taken_writeAll script offer
  rcases writeAll_taken script offer with ⟨hok, hall⟩ | ⟨⟨e, herror⟩, -, hpart⟩
  · refine iff_of_true hok ?_
    rw [hall] at htaken
    have hlength := congrArg List.length htaken
    rw [List.length_take] at hlength
    omega
  · refine iff_of_false (fun hok => nomatch herror.symm.trans hok) fun hle => ?_
    rw [htaken, List.take_of_length_le hle] at hpart
    exact Nat.lt_irrefl _ hpart

/-- A write that is not empty offers everything at first. -/
theorem offers_first {script : List Turn} {offer : Bytes} (hne : offer ≠ []) :
    rooms offer.length (script.take 0) < offer.length ∧
      offer = offer.drop (rooms offer.length (script.take 0)) :=
  ⟨List.length_pos_iff.mpr hne, rfl⟩

/-- The only write offers everything. -/
theorem offers_only {script : List Turn} {offer : Bytes} {k : Nat} {bytes : Bytes}
    (hne : offer ≠ []) (h : [offer][k]? = some bytes) :
    rooms offer.length (script.take k) < offer.length ∧
      bytes = offer.drop (rooms offer.length (script.take k)) := by
  cases k with
  | zero =>
    cases h
    exact offers_first hne
  | succ k => cases h

/-- Each write offers what the turns before had no room for, which is not nothing. -/
theorem offers_writeAll {script : List Turn} {offer : Bytes} {k : Nat} {bytes : Bytes}
    (h : (writeAll script offer).offers[k]? = some bytes) :
    rooms offer.length (script.take k) < offer.length ∧
      bytes = offer.drop (rooms offer.length (script.take k)) := by
  fun_induction writeAll script offer generalizing k with
  | case1 script => cases h
  | case2 offer hne => exact offers_only hne h
  | case3 turn script offer hne hreply => exact offers_only hne h
  | case4 turn script offer hne hreply => exact offers_only hne h
  | case5 turn script offer hne n hreply ih =>
    cases k with
    | zero =>
      cases h
      exact offers_first hne
    | succ k =>
      obtain ⟨hlt, hbytes⟩ := ih h
      have hrooms : rooms offer.length (turn :: script.take k) =
          n + 1 + rooms offer.length (script.take k) := by
        simp [rooms, Turn.room, hreply]
      have hagree := rooms_agree (Nat.sub_le offer.length (n + 1)) (script.take k)
      rw [List.length_drop] at hlt hbytes
      rw [List.drop_drop] at hbytes
      have hsame : rooms (offer.length - (n + 1)) (script.take k) =
          rooms offer.length (script.take k) := by omega
      rw [List.take_succ_cons, hrooms, ← hsame]
      exact ⟨by omega, hbytes⟩
  | case6 turn script offer hne e hreply hkind ih =>
    cases k with
    | zero =>
      cases h
      exact offers_first hne
    | succ k =>
      have hrooms : rooms offer.length (turn :: script.take k) =
          rooms offer.length (script.take k) := by
        simp [rooms, Turn.room, hreply]
      rw [List.take_succ_cons, hrooms]
      exact ih h
  | case7 turn script offer hne e hreply hkind => exact offers_only hne h

/-- Each write uses up one turn of the script. -/
theorem script_writeAll (script : List Turn) (offer : Bytes) :
    (writeAll script offer).script = script.drop (writeAll script offer).offers.length := by
  fun_induction writeAll script offer with
  | case1 script => rfl
  | case2 offer hne => rfl
  | case3 turn script offer hne hreply => rfl
  | case4 turn script offer hne hreply => rfl
  | case5 turn script offer hne n hreply ih => exact ih
  | case6 turn script offer hne e hreply hkind ih => exact ih
  | case7 turn script offer hne e hreply hkind => rfl

/-! ## Other pieces -/

/-- The same bytes in other pieces: interruptions that do not request shutdown are left out, and
pieces that follow each other are taken at once. -/
inductive Recut : List Turn → List Turn → Prop where
  | refl (script : List Turn) : Recut script script
  | trans {script script' script'' : List Turn} (h : Recut script script')
      (h' : Recut script' script'') : Recut script script''
  | keep {script script' : List Turn} (turn : Turn) (h : Recut script script') :
      Recut (turn :: script) (turn :: script')
  | skip {e : IoError} (h : e.kind = .interrupted) (script : List Turn) :
      Recut (⟨.fail e, false⟩ :: script) script
  /-- Which of the pieces request shutdown does not count. -/
  | join (m n : Nat) (first second both : Bool) (script : List Turn) :
      Recut (⟨.takeUpTo (m + 1), first⟩ :: ⟨.takeUpTo (n + 1), second⟩ :: script)
        (⟨.takeUpTo (m + 1 + (n + 1)), both⟩ :: script)

namespace Recut

variable {script script' : List Turn}

theorem reach (h : Recut script script') (size : Nat) :
    Turn.reach size script' = Turn.reach size script := by
  induction h with
  | refl script => rfl
  | trans _ _ ih ih' => rw [ih', ih]
  | keep turn _ ih => simp only [Turn.reach, ih]
  | skip hkind script => exact (Turn.reach_cons_pause rfl hkind script).symm
  | join m n first second both script =>
    rw [Turn.reach_cons_piece (n := m + 1 + n) rfl, Turn.reach_cons_piece (n := m) rfl,
      Turn.reach_cons_piece (n := n) rfl]
    omega

theorem failure (h : Recut script script') :
    script'.findSome? failure? = script.findSome? failure? := by
  induction h with
  | refl script => rfl
  | trans _ _ ih ih' => rw [ih', ih]
  | keep turn _ ih => simp only [List.findSome?_cons, ih]
  | skip hkind script => simp [failure?, hkind]
  | join m n first second both script => rfl

/-- A write ends the same way, with the same bytes taken. -/
theorem writeAll (h : Recut script script') (offer : Bytes) :
    (TraceRing.writeAll script' offer).result = (TraceRing.writeAll script offer).result ∧
      (TraceRing.writeAll script' offer).taken = (TraceRing.writeAll script offer).taken := by
  refine ⟨?_, by rw [taken_writeAll, taken_writeAll, h.reach]⟩
  have hok := result_writeAll script offer
  have hok' := result_writeAll script' offer
  rw [h.reach, ← hok] at hok'
  cases hresult : (TraceRing.writeAll script offer).result with
  | ok u => exact hok'.mpr hresult
  | error e =>
    cases hresult' : (TraceRing.writeAll script' offer).result with
    | ok u => exact nomatch (hok'.mp hresult').symm.trans hresult
    | error e' =>
      have hfirst := error_writeAll hresult
      have hfirst' := error_writeAll hresult'
      rw [h.failure, hfirst] at hfirst'
      rw [Option.some.inj hfirst']

end Recut

/-! ## Pauses -/

/-- Whether a turn is an interruption that does not request shutdown. -/
def Turn.isPause (t : Turn) : Bool :=
  match t.reply with
  | .fail e => e.kind = .interrupted && !t.tripsShutdown
  | _ => false

/-- A script without such interruptions. -/
def withoutPauses (script : List Turn) : List Turn :=
  script.filter fun t => !t.isPause

/-- Nothing in a delivery shows that a write was interrupted, but the number of offers. -/
theorem writeAll_withoutPauses (script : List Turn) (offer : Bytes) :
    let d := writeAll script offer
    let d' := writeAll (withoutPauses script) offer
    d'.result = d.result ∧ d'.taken = d.taken ∧ d'.tripped = d.tripped ∧
      d'.script = withoutPauses d.script := by
  have hkept : ∀ {turn : Turn} {script : List Turn}, turn.isPause = false →
      withoutPauses (turn :: script) = turn :: withoutPauses script :=
    fun hturn => List.filter_cons_of_pos (by simp [hturn])
  fun_induction writeAll script offer with
  | case1 script => simp [writeAll]
  | case2 offer hne => simp [withoutPauses, writeAll]
  | case3 turn script offer hne hreply =>
    rw [hkept (by simp [Turn.isPause, hreply])]
    simp [writeAll, hreply]
  | case4 turn script offer hne hreply =>
    rw [hkept (by simp [Turn.isPause, hreply])]
    simp [writeAll, hreply, Delivery.failed]
  | case5 turn script offer hne n hreply ih =>
    obtain ⟨hresult, htaken, htripped, hscript⟩ := ih
    rw [hkept (by simp [Turn.isPause, hreply])]
    simp [writeAll, hreply, Delivery.after, hresult, htaken, htripped, hscript]
  | case6 turn script offer hne e hreply hkind ih =>
    cases htrips : turn.tripsShutdown with
    | true =>
      obtain ⟨hresult, htaken, -, hscript⟩ := ih
      rw [hkept (by simp [Turn.isPause, hreply, htrips])]
      simp [writeAll, hreply, hkind, htrips, Delivery.after, hresult, htaken, hscript]
    | false =>
      have hskip : withoutPauses (turn :: script) = withoutPauses script :=
        List.filter_cons_of_neg (by simp [Turn.isPause, hreply, hkind, htrips])
      rw [hskip]
      simpa [Delivery.after] using ih
  | case7 turn script offer hne e hreply hkind =>
    rw [hkept (by simp [Turn.isPause, hreply, hkind])]
    simp [writeAll, hreply, hkind, Delivery.failed]

/-- The lane with a sink that makes no such interruptions. -/
def Lane.steady (l : Lane g) : Lane g :=
  { l with sink := { l.sink with script := withoutPauses l.sink.script } }

/-! ## One packet -/

namespace Lane

/-- The lane with another script for its sink. -/
def withScript (l : Lane g) (script : List Turn) : Lane g :=
  { l with sink := { l.sink with script := script } }

/-- The oldest packet. -/
def oldest (l : Lane g) : Bytes :=
  (l.ring.getSlot l.ring.consumerIndex).toList

/-- A move that took the packet to its end gives its slot back and counts it; after one that failed
the ring and the count are as they were. -/
structure Settles (l : Lane g) (core : Core) (m : Move g) : Prop where
  moved : m.result = .ok true → m.lane.ring = l.ring.publishConsumer (l.ring.consumerIndex + 1) ∧
    m.lane.consumed = l.consumed + 1
  failed : m.result ≠ .ok true → m.lane.ring = l.ring ∧ m.lane.consumed = l.consumed ∧
    ∃ e, l.sink.script.findSome? failure? = some e ∧ m.result = .error (.packetNotWritten core e)

variable {l : Lane g}

theorem offer_of_data (hdata : Ring.hasData l.ring.producerIndex l.ring.consumerIndex = true) :
    l.offer = l.oldest := by
  rw [offer, if_pos hdata, oldest]

theorem length_oldest (l : Lane g) : l.oldest.length = g.packetSize :=
  Vector.length_toList

/-- What a move writes is what its delivery offers. -/
theorem writes_move (hdata : Ring.hasData l.ring.producerIndex l.ring.consumerIndex = true)
    (core : Core) (place : Nat) (verbose : Bool) :
    (l.move core place verbose).events.filter Event.isWrite =
      l.delivery.offers.map (Event.write place) := by
  have hoffers : ∀ offers : List Bytes,
      (offers.map (Event.write place)).filter Event.isWrite = offers.map (Event.write place) := by
    intro offers
    refine List.filter_eq_self.mpr fun e he => ?_
    obtain ⟨bytes, -, rfl⟩ := List.mem_map.mp he
    rfl
  have hevents : (l.move core place verbose).events =
      (if verbose then [Event.log (.packetFound core l.ring.producerIndex l.ring.consumerIndex
          (Ring.slot g l.ring.consumerIndex))] else []) ++
        l.delivery.offers.map (Event.write place) := by
    simp only [move, delivery, offer, hdata, if_true]
    split <;> rfl
  rw [hevents, List.filter_append, hoffers]
  cases verbose <;> rfl

theorem received_move (hdata : Ring.hasData l.ring.producerIndex l.ring.consumerIndex = true)
    (core : Core) (place : Nat) (verbose : Bool) :
    (l.move core place verbose).lane.sink.received = l.sink.received ++ l.delivery.taken := by
  cases hresult : l.delivery.result with
  | ok u =>
    obtain ⟨-, hlane⟩ := move_of_ok hdata hresult core place verbose
    have htaken : l.delivery.taken = l.offer := by
      rcases l.taken_delivery with ⟨-, htaken⟩ | ⟨⟨e, herror⟩, -⟩
      · exact htaken
      · exact nomatch hresult.symm.trans herror
    rw [hlane, Sink.received_took, htaken]
  | error e =>
    obtain ⟨-, hlane⟩ := move_of_error hdata hresult core place verbose
    rw [hlane, Sink.received_took]

theorem script_move (hdata : Ring.hasData l.ring.producerIndex l.ring.consumerIndex = true)
    (core : Core) (place : Nat) (verbose : Bool) :
    (l.move core place verbose).lane.sink.script = l.delivery.script := by
  cases hresult : l.delivery.result with
  | ok u => rw [(move_of_ok hdata hresult core place verbose).2]; rfl
  | error e => rw [(move_of_error hdata hresult core place verbose).2]; rfl

theorem result_move (hdata : Ring.hasData l.ring.producerIndex l.ring.consumerIndex = true)
    (core : Core) (place : Nat) (verbose : Bool) :
    (l.move core place verbose).result = .ok true ↔ l.delivery.result = .ok () := by
  cases hresult : l.delivery.result with
  | ok u => exact iff_of_true (move_of_ok hdata hresult core place verbose).1 rfl
  | error e =>
    rw [(move_of_error hdata hresult core place verbose).1]
    exact iff_of_false nofun nofun

theorem settles_move (hdata : Ring.hasData l.ring.producerIndex l.ring.consumerIndex = true)
    (core : Core) (place : Nat) (verbose : Bool) :
    l.Settles core (l.move core place verbose) := by
  cases hresult : l.delivery.result with
  | ok u =>
    obtain ⟨hmoved, hlane⟩ := move_of_ok hdata hresult core place verbose
    refine ⟨fun _ => ?_, fun hfailed => absurd hmoved hfailed⟩
    rw [hlane]
    exact ⟨rfl, rfl⟩
  | error e =>
    obtain ⟨hfailed, hlane⟩ := move_of_error hdata hresult core place verbose
    refine ⟨fun hmoved => (nomatch hfailed.symm.trans hmoved), fun _ => ?_⟩
    rw [hlane]
    exact ⟨rfl, rfl, e, error_writeAll hresult, hfailed⟩

/-- A move does not show whether its write was interrupted. -/
theorem move_steady (l : Lane g) (core : Core) (place : Nat) (verbose : Bool) :
    (l.steady.move core place verbose).result = (l.move core place verbose).result ∧
      (l.steady.move core place verbose).lane = (l.move core place verbose).lane.steady ∧
      (l.steady.move core place verbose).tripped = (l.move core place verbose).tripped := by
  obtain ⟨hresult, htaken, htripped, hscript⟩ :=
    writeAll_withoutPauses l.sink.script (l.ring.getSlot l.ring.consumerIndex).toList
  cases hdata : Ring.hasData l.ring.producerIndex l.ring.consumerIndex with
  | true =>
    simp only [move, steady, hdata, if_true]
    rw [hresult, htaken, htripped, hscript]
    cases (writeAll l.sink.script (l.ring.getSlot l.ring.consumerIndex).toList).result with
    | ok u => exact ⟨rfl, rfl, rfl⟩
    | error e => exact ⟨rfl, rfl, rfl⟩
  | false =>
    have hempty : l.steady.IsEmpty := hdata
    rw [move_of_empty hdata, move_of_empty hempty]
    exact ⟨rfl, rfl, rfl⟩

/-- With another cut of the script a move ends the same way and leaves the same. -/
theorem move_recut (hdata : Ring.hasData l.ring.producerIndex l.ring.consumerIndex = true)
    {script : List Turn} (h : Recut l.sink.script script) (core : Core) (place : Nat)
    (verbose : Bool) :
    let m := l.move core place verbose
    let m' := (l.withScript script).move core place verbose
    m'.result = m.result ∧ m'.lane.ring = m.lane.ring ∧ m'.lane.consumed = m.lane.consumed ∧
      m'.lane.sink.received = m.lane.sink.received := by
  intro m m'
  have hdata' : Ring.hasData (l.withScript script).ring.producerIndex
      (l.withScript script).ring.consumerIndex = true := hdata
  have hsettles : l.Settles core m := settles_move hdata core place verbose
  have hsettles' : (l.withScript script).Settles core m' := settles_move hdata' core place verbose
  have hdelivery : (l.withScript script).delivery.result = l.delivery.result ∧
      (l.withScript script).delivery.taken = l.delivery.taken := h.writeAll l.offer
  have hreceived : m'.lane.sink.received = m.lane.sink.received := by
    rw [received_move hdata', received_move hdata, hdelivery.2]
    rfl
  have hboth : m'.result = .ok true ↔ m.result = .ok true :=
    calc m'.result = .ok true
      _ ↔ (l.withScript script).delivery.result = .ok () := result_move hdata' core place verbose
      _ ↔ l.delivery.result = .ok () := by rw [hdelivery.1]
      _ ↔ m.result = .ok true := (result_move hdata core place verbose).symm
  by_cases hmoved : m.result = .ok true
  · obtain ⟨hring, hconsumed⟩ := hsettles.moved hmoved
    obtain ⟨hring', hconsumed'⟩ := hsettles'.moved (hboth.mpr hmoved)
    exact ⟨(hboth.mpr hmoved).trans hmoved.symm, hring'.trans hring.symm,
      hconsumed'.trans hconsumed.symm, hreceived⟩
  · obtain ⟨hring, hconsumed, e, hfirst, herror⟩ := hsettles.failed hmoved
    obtain ⟨hring', hconsumed', e', hfirst', herror'⟩ :=
      hsettles'.failed fun hmoved' => hmoved (hboth.mp hmoved')
    -- both writes end with the first turn that ends one
    have hsame : e' = e := Option.some.inj (hfirst'.symm.trans (h.failure.trans hfirst))
    exact ⟨herror'.trans (hsame ▸ herror.symm), hring'.trans hring.symm,
      hconsumed'.trans hconsumed.symm, hreceived⟩

/-- How a packet is written. A move succeeds if and only if the sink's script has room for the
packet before its first turn that ends a write. The sink gets as much of the packet as there is
room for; each write uses up one turn and offers what was not taken before it. Neither the cut into
pieces nor interruptions make a difference, and those that do not request shutdown leave no trace in
what comes after. -/
theorem written_however_cut
    (hdata : Ring.hasData l.ring.producerIndex l.ring.consumerIndex = true) (core : Core)
    (place : Nat) (verbose : Bool) :
    let m := l.move core place verbose
    let writes := m.events.filter Event.isWrite
    let room := reach g.packetSize l.sink.script
    (m.result = .ok true ↔ g.packetSize ≤ room) ∧ l.Settles core m ∧
    m.lane.sink.received = l.sink.received ++ l.oldest.take room ∧
    (l.oldest.take room = l.oldest ↔ m.result = .ok true) ∧
    (∀ k e, writes[k]? = some e → rooms g.packetSize (l.sink.script.take k) < g.packetSize ∧
      e = .write place (l.oldest.drop (rooms g.packetSize (l.sink.script.take k)))) ∧
    m.lane.sink.script = l.sink.script.drop writes.length ∧
    (∀ script, Recut l.sink.script script →
      let m' := (l.withScript script).move core place verbose
      m'.result = m.result ∧ m'.lane.ring = m.lane.ring ∧ m'.lane.consumed = m.lane.consumed ∧
        m'.lane.sink.received = m.lane.sink.received) ∧
    let m' := l.steady.move core place verbose
    m'.result = m.result ∧ m'.lane = m.lane.steady ∧ m'.tripped = m.tripped := by
  intro m writes room
  have hlength := l.length_oldest
  have hoffer := offer_of_data hdata
  have hresult : m.result = .ok true ↔ g.packetSize ≤ room := by
    rw [result_move hdata, delivery, result_writeAll, hoffer, hlength]
  have hwrites : writes = l.delivery.offers.map (Event.write place) :=
    writes_move hdata core place verbose
  refine ⟨hresult, settles_move hdata core place verbose, ?_, ?_, fun k e he => ?_, ?_,
    fun script hcut => move_recut hdata hcut core place verbose, l.move_steady core place verbose⟩
  · rw [received_move hdata, delivery, taken_writeAll, hoffer, hlength]
  · rw [hresult, ← hlength]
    refine ⟨fun hall => ?_, List.take_of_length_le⟩
    have htaken := congrArg List.length hall
    rw [List.length_take] at htaken
    omega
  · rw [hwrites, List.getElem?_map] at he
    obtain ⟨bytes, hbytes, rfl⟩ := Option.map_eq_some_iff.mp he
    obtain ⟨hlt, rfl⟩ := offers_writeAll hbytes
    rw [hoffer, hlength] at hlt ⊢
    exact ⟨hlt, rfl⟩
  · rw [hwrites, List.length_map, delivery, ← script_writeAll]
    exact script_move hdata core place verbose

/-- A packet of 32 bytes, taken in three pieces with an interruption before the last one, or in two
pieces with none. -/
theorem written_however_cut_of_three_pieces :
    let waiting : Ring .pair := { Ring.empty .pair with producerIndex := 1 }
    let again : Turn := ⟨.fail (.reported .interrupted "try again"), false⟩
    let l := Lane.new waiting
      ⟨[⟨.takeUpTo 1, false⟩, ⟨.takeUpTo 30, true⟩, again, ⟨.takeUpTo 1, false⟩], none, []⟩
    let l' := l.withScript [⟨.takeUpTo 31, true⟩, ⟨.takeUpTo 1, false⟩]
    Ring.hasData l.ring.producerIndex l.ring.consumerIndex = true ∧
      (l.move ⟨0, 0⟩ 0 false).result = .ok true ∧
      (l'.move ⟨0, 0⟩ 0 false).result = .ok true ∧
      (l.move ⟨0, 0⟩ 0 false).lane.sink.received = l.oldest := by
  intro waiting again l l'
  have hdata : Ring.hasData l.ring.producerIndex l.ring.consumerIndex = true := by decide +kernel
  have hcut : Recut l.sink.script l'.sink.script :=
    .trans (.join 0 29 false true true _) (.keep _ (.skip rfl _))
  obtain ⟨hresult, -, hreceived, hall, -, -, hrecut, -⟩ :=
    written_however_cut hdata ⟨0, 0⟩ 0 false
  have hok := hresult.mpr (by decide +kernel)
  refine ⟨hdata, hok, (hrecut _ hcut).1.trans hok, ?_⟩
  rw [hreceived, hall.mpr hok]
  rfl

end Lane

end TraceRing
