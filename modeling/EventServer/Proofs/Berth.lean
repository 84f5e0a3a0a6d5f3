/-
One connection by itself.

A berth is all that a server keeps of one connection: its stream, what is parked there, what is watched and whether it
is queued. What a server does to the connection, and what its client does, are functions of the berth alone (`apply`,
`recv`, `send`, `shutdown`, `fired`); no other connection occurs in them. `Host.Berths` and `Mooring.Holds` say that a
host and a table have a connection as a berth says, and every operation of the table on it does to it what the function
does to the berth, with the same answer (`Holds.recv`, `Holds.send`, `Holds.shutdown`, `Holds.fire`, `Holds.remove`).
-/
import EventServer.Engine
import EventServer.Proofs.Apart
import EventServer.Proofs.Locality
import EventServer.Proofs.Retained

namespace EventServer

namespace Stream

/-- how many bytes are to be read at an end -/
def due (s : Stream) (side : Side) : Nat :=
  (s.get side).inbox.foldr (fun parcel count => parcel.bytes.length + count) 0

theorem due_takeBytes (count : Nat) (inbox : List Parcel) :
    (takeBytes count inbox).1.length +
        (takeBytes count inbox).2.1.foldr (fun parcel count => parcel.bytes.length + count) 0 =
      inbox.foldr (fun parcel count => parcel.bytes.length + count) 0 := by
  induction inbox generalizing count with
  | nil => simp [takeBytes]
  | cons parcel rest ih =>
    unfold takeBytes
    dsimp only
    split
    · simp
    · split
      · simp only [List.length_take, List.foldr_cons, List.length_drop]
        omega
      · have hrest := ih (count - parcel.bytes.length)
        generalize takeBytes (count - parcel.bytes.length) rest = taken at hrest ⊢
        obtain ⟨bytes, left, consumed⟩ := taken
        simp only [List.length_append, List.foldr_cons] at hrest ⊢
        omega

/-- what is read is no longer to be read -/
theorem due_recv (s : Stream) (side : Side) (count : Nat) :
    (s.recv side count).stream.due side ≤ s.due side ∧
      ∀ bytes, (s.recv side count).value = .ok bytes →
        bytes.length + (s.recv side count).stream.due side ≤ s.due side := by
  unfold recv
  dsimp only
  split
  · next hi =>
    split
    · exact ⟨by simp [due], fun bytes hv => by cases hv⟩
    · refine ⟨Nat.le_refl _, fun bytes hv => ?_⟩
      dsimp only at hv
      split at hv <;> cases hv
      simp
  · have htaken := due_takeBytes count (s.get side).inbox
    have hdue : (s.update side fun e => { e with inbox := (takeBytes count (s.get side).inbox).2.1 }).due side =
        (takeBytes count (s.get side).inbox).2.1.foldr (fun parcel count => parcel.bytes.length + count) 0 := by
      simp [due]
    refine ⟨?_, fun bytes hv => ?_⟩
    · rw [hdue, due]
      omega
    · cases hv
      rw [hdue, due]
      omega

/-- writing at an end leaves what is to be read there -/
theorem due_send (s : Stream) (side : Side) (bytes : Bytes) : (s.send side bytes).stream.due side = s.due side := by
  have hdeliver : (s.deliver side bytes).stream.due side = s.due side := by
    unfold deliver
    dsimp only
    split
    · rfl
    · simp [due]
  unfold send
  cases s.family <;> dsimp only
  · split
    · rfl
    · split
      · rfl
      · exact hdeliver
  · split
    · simp [due]
    · split
      · rfl
      · split
        · rfl
        · split
          · simp [due]
          · exact hdeliver

theorem due_finish (s : Stream) (side : Side) : (s.finish side).stream.due side = s.due side := by
  unfold finish
  split
  · rfl
  · simp [due]

theorem due_le_unread (s : Stream) : s.due .far ≤ s.unread := by
  have hsum : ∀ inbox other : List Parcel, (inbox ++ other).foldr (fun parcel count => parcel.bytes.length + count) 0 =
      inbox.foldr (fun parcel count => parcel.bytes.length + count) 0 +
        other.foldr (fun parcel count => parcel.bytes.length + count) 0 := fun inbox other => by
    induction inbox with
    | nil => simp
    | cons parcel rest ih => simp [ih, Nat.add_assoc]
  rw [unread, hsum, due]
  exact Nat.le_add_left ..

end Stream

theorem Outcome.ofResult_error {α : Type} (code : Errno) :
    (ofResult (.error code) : Outcome α) = .wouldBlock ∨
      ∃ fault, (ofResult (.error code) : Outcome α) = .failed fault := by
  unfold ofResult
  dsimp only
  split
  · exact .inl rfl
  · exact .inr ⟨_, rfl⟩

/-- what a report of these conditions resumes -/
def Conditions.wakes (c : Conditions) : Direction → Bool
  | .read => c.input || (c.error || c.hangup)
  | .write => c.output || (c.error || c.hangup)

/-- what a server keeps of one connection -/
structure Berth where
  stream : Stream
  /-- whether the handle of its task is parked, for reading and for writing -/
  read : Bool := false
  write : Bool := false
  /-- whether room to write is watched -/
  armed : Bool := false
  /-- whether the next wait looks at it -/
  queued : Bool := false

namespace Berth

variable {α : Type}

def interest (b : Berth) : Interest := if b.armed then Connections.writingInterest else Connections.idleInterest

/-- what a wait would see now -/
def shows (b : Berth) : Conditions := Host.visible b.interest (b.stream.conditions .far)

/-- the berth once it was looked at for what holds now -/
def looked (b : Berth) : Berth := { b with queued := b.queued || !b.shows.none }

/-- a connection that was just accepted -/
def fresh (stream : Stream) : Berth := ({ stream } : Berth).looked

/-- whether stirs at the ends of the stream reach the watch -/
def stirred (b : Berth) (stirs : List (Side × Stir)) : Bool :=
  stirs.any fun stirred => stirred.1 == .far && stirred.2.concerns b.interest

/-- an operation at either end of the stream -/
def apply (b : Berth) (operation : Stream → Stirred α) : Berth × α :=
  let after := operation b.stream
  ({ b with stream := after.stream, queued := b.queued || b.stirred after.stirs }, after.value)

def rearmed (b : Berth) (armed : Bool) : Berth := ({ b with armed } : Berth).looked

/-- reads for the task; if that would have to wait its handle is parked -/
def recv (b : Berth) (count : Nat) : Berth × Poll (Except Fault Bytes) :=
  let received := b.apply (·.recv .far count)
  match Outcome.ofResult received.2 with
  | .done bytes => (received.1, .ready (.ok bytes))
  | .failed fault => (received.1, .ready (.error fault))
  | .wouldBlock => ({ received.1 with read := true }, .pending)

/-- writes for the task; if that would have to wait its handle is parked and, if so set, room to write is watched -/
def send (arms : Bool) (b : Berth) (bytes : Bytes) : Berth × Poll (Except Fault Nat) :=
  let sent := b.apply (·.send .far bytes)
  match Outcome.ofResult sent.2 with
  | .done count => (sent.1, .ready (.ok count))
  | .failed fault => (sent.1, .ready (.error fault))
  | .wouldBlock =>
    let parked := { sent.1 with write := true }
    (if arms && !parked.armed then parked.rearmed true else parked, .pending)

def shutdown (b : Berth) : Berth × Except Fault Unit :=
  let finished := b.apply (·.finish .far)
  (finished.1, match finished.2 with
    | .ok () => .ok ()
    | .error code => if code.kind = .notConnected then .ok () else .error (.system code))

/-- the way of a task to its connection, if there were no other -/
def transport (arms : Bool) : Http.Transport Berth where
  recv := recv
  send := send arms
  shutdown := shutdown
  note b _ := b

/-- whether a report of these conditions resumes the task -/
def wakes (b : Berth) (c : Conditions) : Bool := b.read && c.wakes .read || b.write && c.wakes .write

/-- the berth once a report of these conditions is dealt with -/
def fired (b : Berth) (c : Conditions) : Berth :=
  let resumed := { b with read := b.read && !c.wakes .read, write := b.write && !c.wakes .write }
  if c.wakes .write && b.armed then resumed.rearmed false else resumed

/-- how many bytes of the client's are to be read yet -/
def due (b : Berth) : Nat := b.stream.due .far

theorem due_recv (b : Berth) (count : Nat) : Http.brought (b.recv count).2 + (b.recv count).1.due ≤ b.due := by
  obtain ⟨hle, hread⟩ := b.stream.due_recv .far count
  unfold recv
  dsimp only
  cases hv : (b.apply (·.recv .far count)).2 with
  | ok bytes => exact hread bytes hv
  | error code =>
    have hle : 0 + (b.apply (·.recv .far count)).1.due ≤ b.due := by rwa [Nat.zero_add]
    rcases Outcome.ofResult_error code with he | ⟨fault, he⟩
    · rw [he]
      exact hle
    · rw [he]
      exact hle

theorem due_send (arms : Bool) (b : Berth) (bytes : Bytes) : (b.send arms bytes).1.due ≤ b.due := by
  have hsame := Nat.le_of_eq (b.stream.due_send .far bytes)
  unfold send
  dsimp only
  split
  · exact hsame
  · exact hsame
  · dsimp only
    split <;> exact hsame

theorem due_shutdown (b : Berth) : b.shutdown.1.due ≤ b.due := Nat.le_of_eq (b.stream.due_finish .far)

end Berth

/-- where the parts of one connection are -/
structure Mooring where
  stream : Nat
  near : Descriptor
  far : Descriptor
  key : Nat
  peer : Address
  /-- the handle of its task -/
  self : Handle

namespace Host

variable {h h' : Host} {α : Type} {m : Mooring} {b : Berth} {i : Nat} {d : Descriptor}

/-- the host has the stream of a connection, its ends and its watch as a berth says -/
structure Berths (h : Host) (m : Mooring) (b : Berth) : Prop where
  near : h.device? m.near = some (.stream m.stream .near)
  far : h.device? m.far = some (.stream m.stream .far)
  stream : h.streams[m.stream]? = some b.stream
  watch : ∃ word, h.watch? m.far = some ⟨m.far, word, b.interest⟩
  queued : m.far ∈ h.queue ↔ b.queued

theorem holds_eq (h : Host) (d : Descriptor) (interest : Interest) :
    h.holds d interest = !(visible interest (h.conditions d)).none := by
  simp [holds, visible, Conditions.none]

theorem enqueue_enqueue (h : Host) (d : Descriptor) : (h.enqueue d).enqueue d = h.enqueue d := by
  have hm : (h.enqueue d).queue.contains d := by
    obtain ⟨q, hq, -, hm⟩ := h.enqueue_eq d
    rw [hq]
    exact List.contains_iff_mem.2 hm
  exact if_pos hm

/-- one stir at an end of a stream: the far end is queued if it is watched for that, and the near end is not watched -/
theorem stirEnds_one (hs : h.Sound) {w : Watch} (hd : h.device? d = some (.stream i .far)) (hw : h.watch? d = some w)
    (stirred : Side × Stir) :
    h.stirEnds i [stirred] = if stirred.1 == .far && stirred.2.concerns w.interest then h.enqueue d else h := by
  obtain ⟨side, stir⟩ := stirred
  simp only [stirEnds, List.foldl_cons, List.foldl_nil]
  cases side with
  | far => simp [hs.descriptorOf?_eq hd, Host.stir, hw]
  | near =>
    cases he : h.descriptorOf? i .near with
    | none => simp
    | some e =>
      have hnone : h.watch? e = none := by
        have hnear := device?_of_descriptorOf? he
        exact List.find?_eq_none.2 fun w hm => by simpa using not_watched_of_near hs hnear w hm
      simp [Host.stir, hnone]

/-- stirs at the ends of a stream queue its far end, or nothing -/
theorem stirEnds_far (hs : h.Sound) {w : Watch} (hd : h.device? d = some (.stream i .far)) (hw : h.watch? d = some w)
    (stirs : List (Side × Stir)) :
    h.stirEnds i stirs =
      if stirs.any fun stirred => stirred.1 == .far && stirred.2.concerns w.interest then h.enqueue d else h := by
  induction stirs generalizing h with
  | nil => rfl
  | cons stirred rest ih =>
    have hsplit : h.stirEnds i (stirred :: rest) = (h.stirEnds i [stirred]).stirEnds i rest := rfl
    rw [hsplit, stirEnds_one hs hd hw, List.any_cons]
    by_cases hc : (stirred.1 == .far && stirred.2.concerns w.interest) = true
    · obtain ⟨q, hq, hsub, -⟩ := h.enqueue_eq d
      have hrest := ih (h := h.enqueue d) (hq ▸ ⟨hs.ends, hs.known, hs.streams, hs.watches, hs.watched⟩) (hq ▸ hd)
        (hq ▸ hw)
      simp [hc, hrest, enqueue_enqueue]
    · simp only [Bool.not_eq_true] at hc
      simp only [hc, Bool.false_or, Bool.false_eq_true, if_false]
      exact ih hs hd hw

/-- stirs at the ends of a stream that has no far end are felt by nobody -/
theorem stirEnds_near (hs : h.Sound) (hd : ∀ d, h.device? d ≠ some (.stream i .far)) (stirs : List (Side × Stir)) :
    h.stirEnds i stirs = h := by
  induction stirs with
  | nil => rfl
  | cons stirred rest ih =>
    obtain ⟨side, stir⟩ := stirred
    have hfirst : h.stirEnds i [(side, stir)] = h := by
      simp only [stirEnds, List.foldl_cons, List.foldl_nil]
      cases he : h.descriptorOf? i side with
      | none => rfl
      | some e =>
        have hdevice := device?_of_descriptorOf? he
        cases side with
        | far => exact absurd hdevice (hd e)
        | near =>
          have hnone : h.watch? e = none :=
            List.find?_eq_none.2 fun w hm => by simpa using not_watched_of_near hs hdevice w hm
          simp [Host.stir, hnone]
    calc h.stirEnds i ((side, stir) :: rest) = (h.stirEnds i [(side, stir)]).stirEnds i rest := rfl
      _ = h := by rw [hfirst, ih]

theorem Sound.setStream (hs : h.Sound) (i : Nat) {s : Stream} (hsound : s.Sound) :
    ({ h with streams := h.streams.set i s } : Host).Sound := by
  refine ⟨hs.ends, fun e hm => ?_, fun t hm => ?_, hs.watches, hs.watched⟩
  · simpa using hs.known e hm
  · rcases List.mem_or_eq_of_mem_set hm with hm | rfl
    · exact hs.streams t hm
    · exact hsound

/-- an operation on the stream is one on the berth -/
theorem Berths.onStream (hb : h.Berths m b) (hs : h.Sound) (operation : Stream → Stirred α) (otherwise : α)
    (hk : (operation b.stream).stream.Sound) :
    (h.onStream m.stream operation otherwise).1.Berths m (b.apply operation).1 ∧
      (h.onStream m.stream operation otherwise).2 = (b.apply operation).2 := by
  obtain ⟨word, hw⟩ := hb.watch
  have hi := (List.getElem?_eq_some_iff.1 hb.stream).1
  let after : Host := { h with streams := h.streams.set m.stream (operation b.stream).stream }
  have hstirs : after.stirEnds m.stream (operation b.stream).stirs =
      if b.stirred (operation b.stream).stirs then after.enqueue m.far else after :=
    stirEnds_far (hs.setStream m.stream hk) hb.far hw _
  have hqueued := hb.queued
  simp only [Host.onStream, hb.stream]
  rw [hstirs]
  refine ⟨?_, rfl⟩
  by_cases hc : b.stirred (operation b.stream).stirs = true
  · obtain ⟨q, hq, -, hm⟩ := after.enqueue_eq m.far
    rw [if_pos hc, hq]
    exact ⟨hb.near, hb.far, List.getElem?_set_self hi, ⟨word, hw⟩, by simp [Berth.apply, hc, hm]⟩
  · rw [if_neg hc]
    exact ⟨hb.near, hb.far, List.getElem?_set_self hi, ⟨word, hw⟩, by simpa [Berth.apply, hc] using hqueued⟩

/-- looking at the far end is looking at the berth -/
theorem Berths.look (hb : h.Berths m b) : (h.look m.far b.interest).Berths m b.looked := by
  have hqueued := hb.queued
  have hshows : (visible b.interest (h.conditions m.far)) = b.shows := by
    simp [conditions_far hb.far, hb.stream, Berth.shows]
  unfold Host.look
  rw [holds_eq, hshows]
  by_cases hn : b.shows.none = true
  · simpa [hn, Berth.looked] using hb
  · obtain ⟨q, hq, -, hm⟩ := h.enqueue_eq m.far
    simp only [Bool.not_eq_true] at hn
    simp only [hn, Bool.not_false, if_true, hq]
    exact ⟨hb.near, hb.far, hb.stream, hb.watch, by simp [Berth.looked, hn, hm]⟩

/-- a change that the connection does not see -/
theorem Berths.of_eq (hb : h.Berths m b) (hdevices : h'.devices = h.devices) (hstreams : h'.streams = h.streams)
    (hwatches : h'.watches = h.watches) (hqueue : h'.queue = h.queue) : h'.Berths m b := by
  have hd : ∀ d, h'.device? d = h.device? d := fun d => by rw [device?, device?, hdevices]
  refine ⟨hd _ ▸ hb.near, hd _ ▸ hb.far, hstreams ▸ hb.stream, ?_, hqueue ▸ hb.queued⟩
  rw [watch?, hwatches]
  exact hb.watch

/-! ## Calls of the server on the far end -/

theorem Berths.recv (hb : h.Berths m b) (hs : h.Sound) (hu : h.Unhindered) (count : Nat) :
    (Nonblocking.recv h m.far count).1.Berths m (b.apply (·.recv .far count)).1 ∧
      (Nonblocking.recv h m.far count).2 = .ofResult (b.apply (·.recv .far count)).2 := by
  have hb' : ({ h with interruptions := 0 } : Host).Berths m b := hb.of_eq rfl rfl rfl rfl
  have hs' : ({ h with interruptions := 0 } : Host).Sound := ⟨hs.ends, hs.known, hs.streams, hs.watches, hs.watched⟩
  have hsound := (hs.streams _ (List.mem_of_getElem? hb.stream)).recv .far count
  obtain ⟨hafter, hvalue⟩ := hb'.onStream hs' (·.recv .far count) (.error .badDescriptor) hsound
  rw [nonblocking_recv_eq hu.others]
  simp only [receive, hb'.far]
  exact ⟨hafter, congrArg _ hvalue⟩

theorem Berths.send (hb : h.Berths m b) (hs : h.Sound) (hu : h.Unhindered) (bytes : Bytes) :
    (Nonblocking.send h m.far bytes).1.Berths m (b.apply (·.send .far bytes)).1 ∧
      (Nonblocking.send h m.far bytes).2 = .ofResult (b.apply (·.send .far bytes)).2 := by
  have hb' : ({ h with interruptions := 0 } : Host).Berths m b := hb.of_eq rfl rfl rfl rfl
  have hs' : ({ h with interruptions := 0 } : Host).Sound := ⟨hs.ends, hs.known, hs.streams, hs.watches, hs.watched⟩
  have hsound := (hs.streams _ (List.mem_of_getElem? hb.stream)).send .far bytes
  obtain ⟨hafter, hvalue⟩ := hb'.onStream hs' (·.send .far bytes) (.error .badDescriptor) hsound
  rw [nonblocking_send_eq hu.others]
  simp only [transmit, hb'.far]
  exact ⟨hafter, congrArg _ hvalue⟩

theorem Berths.finish (hb : h.Berths m b) (hs : h.Sound) :
    (h.finish m.far).1.Berths m (b.apply (·.finish .far)).1 ∧ (h.finish m.far).2 = (b.apply (·.finish .far)).2 := by
  have hsound := (hs.streams _ (List.mem_of_getElem? hb.stream)).finish .far
  obtain ⟨hafter, hvalue⟩ := hb.onStream hs (·.finish .far) (.error .badDescriptor) hsound
  simp only [Host.finish, hb.far]
  exact ⟨hafter, hvalue⟩

theorem find?_rewatched_self {d : Descriptor} {watches : List Watch} {w : Watch}
    (hw : watches.find? (·.descriptor == d) = some w) (word : UInt64) (interest : Interest) :
    (rewatched watches d word interest).find? (·.descriptor == d) = some ⟨d, word, interest⟩ := by
  induction watches with
  | nil => cases hw
  | cons v rest ih =>
    rw [rewatched, List.map_cons, List.find?_cons, ← rewatched]
    by_cases hd : v.descriptor = d
    · simp [hd]
    · have hne : (v.descriptor == d) = false := by simpa using hd
      rw [List.find?_cons_of_neg (by simp [hd])] at hw
      simp only [hne, Bool.false_eq_true, if_false]
      exact ih hw

/-- what is watched of the far end is changed, and it is looked at -/
theorem Berths.rewatch (hb : h.Berths m b) (hu : h.Unhindered) (word : UInt64) (armed : Bool) :
    (h.rewatch m.far word ({ b with armed } : Berth).interest).1.Berths m (b.rearmed armed) ∧
      (h.rewatch m.far word ({ b with armed } : Berth).interest).2 = .ok () := by
  obtain ⟨old, hw⟩ := hb.watch
  let spent : Host := { h with refusals := h.refusals.changed m.far }
  have hr := hu.rewatch.change? m.far
  have hopen : spent.watchable m.far = .ok () := Ours.watchable ⟨_, hb.far, rfl⟩
  have hwatch : spent.watch? m.far = _ := hw
  let interest := ({ b with armed } : Berth).interest
  have hnew : ({ spent with watches := rewatched h.watches m.far word interest } : Host).watch? m.far =
      some ⟨m.far, word, interest⟩ := find?_rewatched_self hw word interest
  have hberths : ({ spent with watches := rewatched h.watches m.far word interest } : Host).Berths m
      { b with armed } := ⟨hb.near, hb.far, hb.stream, ⟨word, hnew⟩, hb.queued⟩
  have heq : h.rewatch m.far word interest =
      (({ spent with watches := rewatched h.watches m.far word interest } : Host).look m.far interest, .ok ()) := by
    simp only [Host.rewatch, hr]
    rw [show Host.watchable _ m.far = _ from hopen, show Host.watch? _ m.far = _ from hwatch]
    rfl
  rw [heq]
  exact ⟨hberths.look, rfl⟩

end Host

/-! ## Operations of the table -/

namespace Mooring

/-- a slot where the task's handle is parked, or nothing -/
def slot (m : Mooring) (parked : Bool) : ParkingSlot Handle := ⟨if parked then some m.self else none⟩

/-- the connection that the table has -/
def record (m : Mooring) (b : Berth) : Connection Handle where
  descriptor := m.far
  peer := m.peer
  read := m.slot b.read
  write := m.slot b.write
  armed := b.armed

/-- the table and its host have a connection as a berth says -/
structure Holds (m : Mooring) (b : Berth) (c : Connections Handle) : Prop where
  conn : c.get? m.key = some (m.record b)
  host : c.host.Berths m b

variable {m : Mooring} {b : Berth} {c : Connections Handle}

/-- the host of a table that has a connection may change, and the connection with it -/
theorem Holds.put (hc : m.Holds b c) {b' : Berth} {n : Notifier} (hb : n.host.Berths m b') :
    m.Holds b' (({ c with notifier := n } : Connections Handle).put m.key (m.record b')) :=
  ⟨(Connections.get?_put (c := { c with notifier := n }) hc.conn _ _).trans (if_pos rfl), hb⟩

theorem Holds.onHost (hc : m.Holds b c) {b' : Berth} {h : Host} (hb : h.Berths m b')
    (hrecord : m.record b' = m.record b) : m.Holds b' (c.onHost fun _ => h) :=
  ⟨hc.conn.trans (congrArg some hrecord.symm), hb⟩

theorem Holds.rearm (hc : m.Holds b c) (hu : c.host.Unhindered) (hk : Token.base + m.key < UInt64.size)
    (b' : Berth) (hb : c.host.Berths m { b' with armed := b.armed }) (armed : Bool) :
    m.Holds (b'.rearmed armed) (c.rearm m.key (m.record b') armed).state := by
  have hword : (Token.connection m.key).word? = some (UInt64.ofNat (Token.base + m.key)) := by simp [Token.word?, hk]
  obtain ⟨hafter, hok⟩ := hb.rewatch hu (UInt64.ofNat (Token.base + m.key)) armed
  have hinterest : (if armed then Connections.writingInterest else Connections.idleInterest) =
      ({ b' with armed } : Berth).interest := rfl
  unfold Connections.rearm Notifier.reregister
  rw [hword]
  dsimp only
  rw [Host.elapse_eq hu.others, hinterest]
  rw [show (c.notifier.host.rewatch (m.record b').descriptor _ _).2 = _ from hok]
  exact hc.put (n := { c.notifier with host := _ }) hafter

theorem Holds.recv (hc : m.Holds b c) (hs : c.host.Sound) (hu : c.host.Unhindered) (count : Nat) :
    m.Holds (b.recv count).1 (c.recv m.key m.self count).state ∧
      (c.recv m.key m.self count).value = (b.recv count).2 := by
  obtain ⟨hafter, hvalue⟩ := hc.host.recv hs hu count
  unfold Connections.recv Berth.recv
  rw [hc.conn]
  dsimp only
  rw [show (Nonblocking.recv c.notifier.host (m.record b).descriptor count).2 = _ from hvalue]
  cases Outcome.ofResult (b.apply (·.recv .far count)).2 with
  | done bytes => exact ⟨hc.onHost hafter rfl, rfl⟩
  | failed fault => exact ⟨hc.onHost hafter rfl, rfl⟩
  | wouldBlock =>
    refine ⟨?_, rfl⟩
    let parked : Berth := { (b.apply (·.recv .far count)).1 with read := true }
    have hparked : (Nonblocking.recv c.notifier.host m.far count).1.Berths m parked :=
      ⟨hafter.near, hafter.far, hafter.stream, hafter.watch, hafter.queued⟩
    exact hc.put (n := { c.notifier with host := _ }) hparked

theorem Holds.send (hc : m.Holds b c) (hs : c.host.Sound) (hu : c.host.Unhindered)
    (hk : Token.base + m.key < UInt64.size) (bytes : Bytes) :
    m.Holds (b.send c.armWrites bytes).1 (c.send m.key m.self bytes).state ∧
      (c.send m.key m.self bytes).value = (b.send c.armWrites bytes).2 := by
  obtain ⟨hafter, hvalue⟩ := hc.host.send hs hu bytes
  have hsent := (Host.only_send hu hc.host.far bytes).unhindered hu
  unfold Connections.send Berth.send
  rw [hc.conn]
  dsimp only
  rw [show (Nonblocking.send c.notifier.host (m.record b).descriptor bytes).2 = _ from hvalue]
  cases Outcome.ofResult (b.apply (·.send .far bytes)).2 with
  | done bytes => exact ⟨hc.onHost hafter rfl, rfl⟩
  | failed fault => exact ⟨hc.onHost hafter rfl, rfl⟩
  | wouldBlock =>
    refine ⟨?_, rfl⟩
    let parked : Berth := { (b.apply (·.send .far bytes)).1 with write := true }
    have hparked : (Nonblocking.send c.notifier.host m.far bytes).1.Berths m parked :=
      ⟨hafter.near, hafter.far, hafter.stream, hafter.watch, hafter.queued⟩
    dsimp only
    rw [show (m.record b).armed = b.armed from rfl, show (c.onHost _).armWrites = c.armWrites from rfl]
    rw [show ({ (b.apply (·.send .far bytes)).1 with write := true } : Berth).armed = b.armed from rfl]
    by_cases harm : (c.armWrites && !b.armed) = true
    · rw [if_pos harm, if_pos harm]
      exact (hc.onHost hafter rfl).rearm hsent hk parked hparked true
    · rw [if_neg harm, if_neg harm]
      exact hc.put (n := { c.notifier with host := _ }) hparked

theorem Holds.shutdown (hc : m.Holds b c) (hs : c.host.Sound) (hu : c.host.Unhindered) :
    m.Holds b.shutdown.1 (c.shutdown m.key).1 ∧ (c.shutdown m.key).2 = b.shutdown.2 := by
  obtain ⟨hafter, hvalue⟩ := hc.host.finish hs
  unfold Connections.shutdown Berth.shutdown
  rw [hc.conn]
  dsimp only
  rw [show c.notifier.host.elapse = c.host from Host.elapse_eq hu.others,
    show (c.host.finish (m.record b).descriptor).2 = _ from hvalue]
  exact ⟨hc.onHost hafter rfl, rfl⟩

theorem wake_slot (m : Mooring) (parked resumes : Bool) :
    (if resumes then (m.slot parked).wake else (m.slot parked, none)) =
      (m.slot (parked && !resumes), if parked && resumes then some m.self else none) := by
  cases parked <;> cases resumes <;> rfl

/-- a report resumes what it concerns: the task of this connection, and nobody else -/
theorem Holds.fire (hc : m.Holds b c) (hu : c.host.Unhindered) (hk : Token.base + m.key < UInt64.size)
    {r : Readiness} {shown : Conditions} (hr : ∀ direction, r.heeds direction = shown.wakes direction) :
    m.Holds (b.fired shown) (c.fire m.key r).state ∧ (∀ h ∈ (c.fire m.key r).value, h = m.self) ∧
      ((c.fire m.key r).value = [] ↔ b.wakes shown = false) := by
  have hread : (r.readable || r.closed) = shown.wakes .read := hr .read
  have hwrite : (r.writable || r.closed) = shown.wakes .write := hr .write
  let resumed : Berth := { b with read := b.read && !shown.wakes .read, write := b.write && !shown.wakes .write }
  have hresumed : c.host.Berths m resumed :=
    ⟨hc.host.near, hc.host.far, hc.host.stream, hc.host.watch, hc.host.queued⟩
  unfold Connections.fire
  rw [hc.conn]
  simp only [record, hread, hwrite, wake_slot]
  refine ⟨?_, fun h hm => ?_, ?_⟩
  · unfold Berth.fired
    by_cases hd : (shown.wakes .write && b.armed) = true
    · rw [if_pos hd]
      simp only [if_pos hd]
      exact hc.rearm hu hk resumed hresumed false
    · rw [if_neg hd]
      simp only [if_neg hd]
      exact hc.put (n := c.notifier) hresumed
  · rcases List.mem_append.1 hm with hm | hm
    all_goals
      split at hm
      · exact List.mem_singleton.1 hm
      · cases hm
  · unfold Berth.wakes
    cases (b.read && shown.wakes .read) <;> cases (b.write && shown.wakes .write) <;> simp

end Mooring

namespace Host

variable {h : Host} {m : Mooring} {b : Berth}

/-- the far end of a stream is nowhere: no descriptor has it, and it waits at no listener -/
structure Gone (h : Host) (i : Nat) : Prop where
  far : ∀ d, h.device? d ≠ some (.stream i .far)
  waits : ∀ l, ¬ h.Waits i l

/-- a far end that is off the watch is closed: its stream is left to the near end, and nobody feels it -/
theorem close_far_eq (hs : h.Sound) (hd : h.device? d = some (.stream i .far)) {s : Stream}
    (hstream : h.streams[i]? = some s) :
    (h.forget d).close d false =
      { ((h.forget d).forget d).setDevice d none with streams := h.streams.set i (s.close .far false).stream } := by
  let left : Host := (h.forget d).forget d
  let gone : Host := left.setDevice d none
  have hleft : left.Sound := (spares_forget (spares_forget hs d).sound d).sound
  have hgone : gone.Sound :=
    (spares_setDevice hleft (show left.device? d = _ from hd) fun w hm => by simpa using (List.mem_filter.1 hm).2).sound
  have hnone : ∀ e, gone.device? e ≠ some (.stream i .far) := fun e he => by
    rw [show gone.device? e = _ from device?_setDevice (show left.device? d = _ from hd) none e] at he
    split at he
    · cases he
    · next hne => exact hne (hs.once he hd)
  have hd' : (h.forget d).device? d = some (.stream i .far) := hd
  have hstream' : gone.streams[i]? = some s := hstream
  simp only [Host.close, hd', Host.onStream]
  rw [show ((h.forget d).forget d).setDevice d none = gone from rfl, hstream']
  exact stirEnds_near (hgone.setStream i ((hs.streams s (List.mem_of_getElem? hstream)).close .far false)) hnone _

/-- the host once the server has closed a far end that it does not watch any more -/
theorem Berths.close (hb : h.Berths m b) (hs : h.Sound) :
    ((h.forget m.far).close m.far false).Gone m.stream ∧
      ((h.forget m.far).close m.far false).device? m.near = some (.stream m.stream .near) ∧
      ((h.forget m.far).close m.far false).streams[m.stream]? = some (b.stream.close .far false).stream := by
  have hdevice : ∀ d, ((h.forget m.far).close m.far false).device? d = if d = m.far then none else h.device? d :=
    fun d => by
      rw [close_far_eq hs hb.far hb.stream]
      exact device?_setDevice (show ((h.forget m.far).forget m.far).device? m.far = _ from hb.far) none d
  have hne : m.near ≠ m.far := fun he => by
    have hd := hb.near
    rw [he, hb.far] at hd
    cases hd
  refine ⟨⟨fun d he => ?_, ?_⟩, ?_, ?_⟩
  · rw [hdevice] at he
    split at he
    · cases he
    · next hne => exact hne (hs.once he hb.far)
  · rintro l ⟨backlog, hl, hwaits⟩
    rw [hdevice] at hl
    split at hl
    · cases hl
    · exact hs.not_waits hb.far l ⟨backlog, hl, hwaits⟩
  · rw [hdevice, if_neg hne, hb.near]
  · rw [close_far_eq hs hb.far hb.stream]
    exact List.getElem?_set_self (List.getElem?_eq_some_iff.1 hb.stream).1

/-- a far end that was just accepted is watched, and is there for the task to read -/
theorem berths_watch (hu : h.Unhindered) {stream : Stream} (hnear : h.device? m.near = some (.stream m.stream .near))
    (hfar : h.device? m.far = some (.stream m.stream .far)) (hstream : h.streams[m.stream]? = some stream)
    (hw : h.watch? m.far = none) (hq : m.far ∉ h.queue) (word : UInt64) :
    (h.watch m.far word Connections.idleInterest).1.Berths m (.fresh stream) ∧
      (h.watch m.far word Connections.idleInterest).2 = .ok () := by
  let spent : Host := { h with refusals := { h.refusals with watch := h.refusals.watch.tail } }
  have hr := join_head?_of_none hu.watch
  have hopen : spent.watchable m.far = .ok () := Ours.watchable ⟨_, hfar, rfl⟩
  have hwatch : spent.watch? m.far = none := hw
  let watching : Host := { spent with watches := h.watches ++ [⟨m.far, word, Connections.idleInterest⟩] }
  have hnew : watching.watch? m.far = some ⟨m.far, word, Connections.idleInterest⟩ := by
    have hnone : h.watches.find? (·.descriptor == m.far) = none := hw
    simp [watching, watch?, List.find?_append, hnone]
  have hberths : watching.Berths m { stream } := ⟨hnear, hfar, hstream, ⟨word, hnew⟩, by simpa using hq⟩
  have heq : h.watch m.far word Connections.idleInterest = (watching.look m.far Connections.idleInterest, .ok ()) := by
    simp only [Host.watch, hr]
    rw [show Host.watchable _ m.far = _ from hopen, show Host.watch? _ m.far = _ from hwatch]
    rfl
  rw [heq]
  exact ⟨hberths.look, rfl⟩

end Host

namespace Mooring

variable {m : Mooring} {b : Berth} {c : Connections Handle}

/-- a connection that was just accepted is taken in -/
theorem holds_insert (ht : c.slots.Tidy) (hu : c.host.Unhindered) (hkey : c.slots.nextKey = m.key)
    (hk : Token.base + m.key < UInt64.size) {stream : Stream}
    (hnear : c.host.device? m.near = some (.stream m.stream .near))
    (hfar : c.host.device? m.far = some (.stream m.stream .far)) (hstream : c.host.streams[m.stream]? = some stream)
    (hw : c.host.watch? m.far = none) (hq : m.far ∉ c.host.queue) :
    m.Holds (.fresh stream) (c.insert m.far m.peer).state ∧ (c.insert m.far m.peer).value = .ok m.key := by
  have hword : (Token.connection m.key).word? = some (UInt64.ofNat (Token.base + m.key)) := by simp [Token.word?, hk]
  obtain ⟨hafter, hok⟩ := Host.berths_watch hu hnear hfar hstream hw hq (UInt64.ofNat (Token.base + m.key))
  unfold Connections.insert Notifier.register
  dsimp only
  rw [hkey, hword]
  dsimp only
  rw [Host.elapse_eq hu.others]
  rw [show (c.notifier.host.watch m.far _ _).2 = _ from hok]
  refine ⟨⟨?_, hafter⟩, rfl⟩
  exact (Slots.get?_insert ht ..).trans (if_pos hkey.symm)

/-- a connection is taken out and closed, and only the client is left -/
theorem Holds.remove (hc : m.Holds b c) (hs : c.host.Sound) (hu : c.host.Unhindered) :
    (c.remove m.key).state.host.Gone m.stream ∧
      (c.remove m.key).state.host.device? m.near = some (.stream m.stream .near) ∧
      (c.remove m.key).state.host.streams[m.stream]? = some (b.stream.close .far false).stream := by
  obtain ⟨word, hw⟩ := hc.host.watch
  have hforget := (Host.only_forget hc.host.far).unhindered hu
  have hleft : (c.notifier.deregister m.far).1.host = c.host.forget m.far := by
    unfold Notifier.deregister
    rw [show c.notifier.host.elapse = c.host from Host.elapse_eq hu.others, Host.unwatch_eq hs hw]
  have hhost : (c.remove m.key).state.host = (c.host.forget m.far).close m.far false := by
    unfold Connections.remove
    rw [hc.conn]
    simp only [record, Connections.host, Notifier.onHost, hleft, Connection.descriptor_cleared]
    rw [Host.elapse_eq hforget.others]
  rw [hhost]
  exact hc.host.close hs

/-- what the task of a connection says over its transport it says to the berth, with the same answers -/
theorem Holds.talk {α : Type} {fixed : List Watch} {batch : List Readiness} {arms : Bool} (place : Place)
    {budget : Nat} {talk talk' : Http.Talk α} (hsame : Http.Talk.Same budget talk talk') {site : Site Handle}
    (hc : m.Holds b site.connections) (hs : site.connections.Sound fixed batch)
    (hu : site.connections.host.Unhindered) (harms : site.connections.armWrites = arms) (hplace : place.slot = m.key)
    (hd : b.due ≤ budget) :
    m.Holds (talk'.run (Berth.transport arms) b).1
        (talk.run (Engine.transport id m.self place) site).1.connections ∧
      (talk.run (Engine.transport id m.self place) site).2 = (talk'.run (Berth.transport arms) b).2 := by
  let R (s : Site Handle) (b : Berth) : Prop := m.Holds b s.connections ∧ s.connections.Sound fixed batch ∧
    s.connections.host.Unhindered ∧ s.connections.armWrites = arms
  have hserves : ∀ {s b}, R s b → s.connections.Serves m.key m.stream := fun {s b} ⟨hc, _⟩ conn hg => by
    rw [hc.conn] at hg
    cases hg
    exact hc.host.far
  have hall := hsame.run (R := R) (Engine.transport id m.self place) (Berth.transport arms) Berth.due
    (fun {s b} count hr => ?_) (fun {s b} bytes hr => ?_) (fun {s b} hr => ?_) (fun _ hr => ⟨hr, Nat.le_refl _⟩)
    ⟨hc, hs, hu, harms⟩ hd
  · exact ⟨hall.1.1, hall.2⟩
  · have honly := Connections.only_recv hr.2.2.1 (hserves hr) m.self count
    obtain ⟨hc, hs, hu, harms⟩ := hr
    obtain ⟨hholds, hvalue⟩ := hc.recv hs.host hu count
    simp only [Engine.transport, hplace]
    exact ⟨⟨hholds, (Connections.sound_recv hs m.key m.self count).1, honly.host.unhindered hu,
      honly.arms.trans harms⟩, hvalue, b.due_recv count⟩
  · have honly := Connections.only_send hr.2.2.1 (hserves hr) m.self bytes
    obtain ⟨hc, hs, hu, harms⟩ := hr
    obtain ⟨hholds, hvalue⟩ := hc.send hs.host hu (hs.words hc.conn) bytes
    rw [harms] at hholds hvalue
    simp only [Engine.transport, hplace]
    exact ⟨⟨hholds, (Connections.sound_send hs m.key m.self bytes).1, honly.host.unhindered hu,
      honly.arms.trans harms⟩, hvalue, Berth.due_send arms b bytes⟩
  · have honly := Connections.only_shutdown hr.2.2.1 (hserves hr)
    obtain ⟨hc, hs, hu, harms⟩ := hr
    obtain ⟨hholds, hvalue⟩ := hc.shutdown hs.host hu
    simp only [Engine.transport, hplace]
    exact ⟨⟨hholds, (Connections.sound_shutdown hs m.key).1, honly.host.unhindered hu,
      honly.arms.trans harms⟩, hvalue, b.due_shutdown⟩

end Mooring

end EventServer
