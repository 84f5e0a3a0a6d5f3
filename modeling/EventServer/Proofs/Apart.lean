/-
What is done to one stream leaves every other stream apart.

`Host.Apart i h h'` says that nothing of stream `i` changed: not the stream, nor which descriptors are its ends or at
which listener it waits, nor how these are watched and queued. `Host.Only x h h'` is a step that concerns the stream `x`
at most; every other stream that is there is apart, and a host that is `Unhindered` stays so. There is one lemma for
each thing that the host does, of a server (`only_recv`, `only_taken`, `only_watch`, `only_close`) and of others
(`only_act`), and one for each operation on a connection of the table (`Connections.Only`).
-/
import EventServer.Proofs.Turning

namespace EventServer

namespace Host

variable {h h' : Host} {α : Type} {x : Option Nat} {i id : Nat} {d l : Descriptor}

/-- the far end of a stream waits at a listener -/
def Waits (h : Host) (i : Nat) (l : Descriptor) : Prop :=
  ∃ backlog, h.device? l = some (.listener backlog) ∧ ∃ arrival ∈ backlog, arrival.stream = i

/-- a descriptor has the far end of a stream: it is that end, or a listener where it waits -/
def Harbors (h : Host) (i : Nat) (d : Descriptor) : Prop := h.device? d = some (.stream i .far) ∨ h.Waits i d

/-- nobody acts between the server's calls, none of them will be refused, and whatever is queued was opened -/
structure Unhindered (h : Host) : Prop where
  others : h.others = []
  accept : ∀ refusal ∈ h.refusals.accept, refusal = none
  unblock : ∀ refusal ∈ h.refusals.unblock, refusal = none
  watch : ∀ refusal ∈ h.refusals.watch, refusal = none
  rewatch : h.Obliging
  queued : ∀ d ∈ h.queue, d < h.devices.length
  once : h.queue.Nodup

/-- nothing of a stream changed, but that the listener where it waits may be queued anew -/
structure Apart (i : Nat) (h h' : Host) : Prop where
  stream : h'.streams[i]? = h.streams[i]?
  ends : ∀ {d side}, h'.device? d = some (.stream i side) ↔ h.device? d = some (.stream i side)
  waits : ∀ {l}, h'.Waits i l ↔ h.Waits i l
  watch : ∀ {d}, h.Harbors i d → h'.watch? d = h.watch? d
  queued : ∀ {d}, h.Harbors i d → d ∈ h.queue → d ∈ h'.queue
  unqueued : ∀ {d}, h.device? d = some (.stream i .far) → d ∈ h'.queue → d ∈ h.queue

/-- a step concerns one stream at most: all others that are there are apart -/
structure Only (x : Option Nat) (h h' : Host) : Prop where
  unhindered : h.Unhindered → h'.Unhindered
  length : h.devices.length ≤ h'.devices.length
  apart : ∀ {i}, x ≠ some i → i < h.streams.length → Apart i h h'

/-- what was accepted waits nowhere -/
theorem Sound.not_waits (hs : h.Sound) (hd : h.device? d = some (.stream i .far)) (l : Descriptor) :
    ¬ h.Waits i l := by
  rintro ⟨backlog, hl, arrival, hm, rfl⟩
  have he : (arrival.stream, Side.far) ∈ (Device.listener backlog).ends := List.mem_map.2 ⟨arrival, hm, rfl⟩
  rw [hs.holder hd hl (List.mem_singleton_self _) he, hl] at hd
  cases hd

theorem Apart.harbors (ha : Apart i h h') : h'.Harbors i d ↔ h.Harbors i d := or_congr ha.ends ha.waits

theorem Apart.refl (i : Nat) (h : Host) : Apart i h h := ⟨rfl, .rfl, .rfl, fun _ => rfl, fun _ => id, fun _ => id⟩

theorem Apart.trans {a b c : Host} (h : Apart i a b) (h' : Apart i b c) : Apart i a c where
  stream := h'.stream.trans h.stream
  ends := h'.ends.trans h.ends
  waits := h'.waits.trans h.waits
  watch hd := (h'.watch (h.harbors.2 hd)).trans (h.watch hd)
  queued hd := h'.queued (h.harbors.2 hd) ∘ h.queued hd
  unqueued hd := h.unqueued hd ∘ h'.unqueued (h.ends.2 hd)

theorem Apart.known (ha : Apart i h h') (hi : i < h.streams.length) : i < h'.streams.length := by
  have hsome : h'.streams[i]? = some h.streams[i] := ha.stream.trans (List.getElem?_eq_getElem hi)
  exact (List.getElem?_eq_some_iff.1 hsome).1

theorem Only.refl (x : Option Nat) (h : Host) : Only x h h := ⟨id, Nat.le_refl _, fun _ _ => .refl _ h⟩

theorem Only.trans {a b c : Host} (h : Only x a b) (h' : Only x b c) : Only x a c where
  unhindered := h'.unhindered ∘ h.unhindered
  length := Nat.le_trans h.length h'.length
  apart hx hi := (h.apart hx hi).trans (h'.apart hx ((h.apart hx hi).known hi))

/-- what concerns no stream concerns any one at most -/
theorem Only.of_none (ho : Only none h h') (x : Option Nat) : Only x h h' :=
  ⟨ho.unhindered, ho.length, fun _ hi => ho.apart (by simp) hi⟩

/-! ## Steps that leave devices and streams as they are -/

theorem waits_congr (hd : ∀ d, h'.device? d = h.device? d) : h'.Waits i l ↔ h.Waits i l := by
  simp only [Waits, hd]

/-- the host's devices and a stream stay; watches and queue do where the stream is concerned -/
theorem apart_of_devices (hdevices : h'.devices = h.devices) (hstream : h'.streams[i]? = h.streams[i]?)
    (hwatch : ∀ {d}, h.Harbors i d → h'.watch? d = h.watch? d)
    (hqueued : ∀ {d}, h.Harbors i d → d ∈ h.queue → d ∈ h'.queue)
    (hunqueued : ∀ {d}, h.device? d = some (.stream i .far) → d ∈ h'.queue → d ∈ h.queue) : Apart i h h' := by
  have hd : ∀ d, h'.device? d = h.device? d := fun d => by rw [device?, device?, hdevices]
  exact ⟨hstream, fun {d _} => by rw [hd d], waits_congr hd, hwatch, hqueued, hunqueued⟩

/-- nothing of the devices, streams, watches and queue changes -/
theorem only_of_eq (hdevices : h'.devices = h.devices) (hstreams : h'.streams = h.streams)
    (hwatches : h'.watches = h.watches) (hqueue : h'.queue = h.queue)
    (hu : h.Unhindered → h'.others = [] ∧ (∀ refusal ∈ h'.refusals.accept, refusal = none) ∧
      (∀ refusal ∈ h'.refusals.unblock, refusal = none) ∧ (∀ refusal ∈ h'.refusals.watch, refusal = none) ∧
      h'.Obliging) : Only x h h' where
  unhindered hh := by
    obtain ⟨hothers, haccept, hunblock, hwatch, hrewatch⟩ := hu hh
    exact ⟨hothers, haccept, hunblock, hwatch, hrewatch, hqueue ▸ hdevices ▸ hh.queued, hqueue ▸ hh.once⟩
  length := Nat.le_of_eq (congrArg List.length hdevices).symm
  apart _ _ := apart_of_devices hdevices (by rw [hstreams]) (fun _ => by rw [watch?, watch?, hwatches])
    (fun _ => hqueue ▸ id) fun _ => hqueue ▸ id

/-- queueing an open descriptor concerns the stream that it is the far end of -/
theorem only_enqueue {device : Device} (hd : h.device? d = some device)
    (hx : ∀ {i}, device = .stream i .far → x = some i) : Only x h (h.enqueue d) := by
  unfold enqueue
  split
  · exact .refl x h
  · next hq =>
    have hq : d ∉ h.queue := fun hm => hq (List.contains_iff_mem.2 hm)
    refine ⟨fun hu => ⟨hu.others, hu.accept, hu.unblock, hu.watch, hu.rewatch, fun e he => ?_, ?_⟩, Nat.le_refl _,
      fun hi _ => apart_of_devices rfl rfl (fun _ => rfl) (fun _ hm => List.mem_append_left _ hm) fun he hm => ?_⟩
    · rcases List.mem_append.1 he with he | he
      · exact hu.queued e he
      · cases List.mem_singleton.1 he
        have hl := lt_length_of_device? hd
        exact hl
    · exact List.nodup_append.2 ⟨hu.once, by simp, fun a ha b hb => by
        rintro rfl
        exact hq (List.mem_singleton.1 hb ▸ ha)⟩
    · refine (List.mem_append.1 hm).resolve_right fun hm => hi (hx ?_)
      rw [List.mem_singleton.1 hm, hd, Option.some.injEq] at he
      exact he

theorem only_stir {device : Device} (hd : h.device? d = some device)
    (hx : ∀ {i}, device = .stream i .far → x = some i) (stir : Stir) : Only x h (h.stir d stir) := by
  unfold Host.stir
  split
  · split
    · exact only_enqueue hd hx
    · exact .refl x h
  · exact .refl x h

theorem device?_of_descriptorOf? {side : Side} (hd : h.descriptorOf? id side = some d) :
    h.device? d = some (.stream id side) := by
  obtain ⟨hl, he, -⟩ := List.findIdx?_eq_some_iff_getElem.1 hd
  cases hdev : h.devices[d] with
  | none => simp [hdev] at he
  | some device =>
    rw [hdev] at he
    cases device <;> simp [Device.isEnd] at he
    obtain ⟨rfl, rfl⟩ := he
    simp [device?, List.getElem?_eq_getElem hl, hdev]

theorem only_stirEnds (h : Host) (id : Nat) (stirs : List (Side × Stir)) :
    Only (some id) h (h.stirEnds id stirs) := by
  induction stirs generalizing h with
  | nil => exact .refl _ h
  | cons stirred rest ih =>
    refine .trans ?_ (ih _)
    dsimp only
    cases hd : h.descriptorOf? id stirred.1 with
    | none => exact .refl _ h
    | some d => exact only_stir (device?_of_descriptorOf? hd) (fun he => by rw [(Device.stream.inj he).1]) stirred.2

/-- an operation on a stream concerns that stream -/
theorem only_onStream (h : Host) (id : Nat) (operation : Stream → Stirred α) (otherwise : α) :
    Only (some id) h (h.onStream id operation otherwise).1 := by
  unfold onStream
  cases h.streams[id]? with
  | none => exact .refl _ h
  | some s =>
    refine .trans (b := { h with streams := h.streams.set id (operation s).stream }) ?_ (only_stirEnds ..)
    refine ⟨fun hu => ⟨hu.others, hu.accept, hu.unblock, hu.watch, hu.rewatch, hu.queued, hu.once⟩, Nat.le_refl _, fun hi _ =>
      apart_of_devices rfl ?_ (fun _ => rfl) (fun _ hm => hm) fun _ hm => hm⟩
    exact List.getElem?_set_ne fun he => hi (congrArg some he)

/-! ## Calls on streams -/

theorem only_receive {side : Side} (hd : h.device? d = some (.stream id side)) (count : Nat) :
    Only (some id) h (h.receive d count).1 := by
  simp only [receive, hd]
  exact only_onStream ..

theorem only_transmit {side : Side} (hd : h.device? d = some (.stream id side)) (bytes : Bytes) :
    Only (some id) h (h.transmit d bytes).1 := by
  simp only [transmit, hd]
  exact only_onStream ..

theorem only_finish {side : Side} (hd : h.device? d = some (.stream id side)) : Only (some id) h (h.finish d).1 := by
  simp only [finish, hd]
  exact only_onStream ..

/-! ## Opening and closing -/

theorem device?_length (h : Host) : h.device? h.devices.length = none := by simp [device?]

/-- a device is replaced by one that has the same of a stream -/
theorem apart_setDevice {old : Device} (hd : h.device? d = some old) {device : Option Device}
    (hends : ∀ side, device = some (.stream i side) ↔ old = .stream i side)
    (hwaits : (∃ backlog, device = some (.listener backlog) ∧ ∃ arrival ∈ backlog, arrival.stream = i) ↔
      ∃ backlog, old = .listener backlog ∧ ∃ arrival ∈ backlog, arrival.stream = i) :
    Apart i h (h.setDevice d device) := by
  have hdevice := device?_setDevice hd device
  refine ⟨rfl, fun {e side} => ?_, fun {e} => ?_, fun _ => rfl, fun _ hm => hm, fun _ hm => hm⟩
  · rw [hdevice]
    split
    · next he => rw [he, hd, hends, Option.some.injEq]
    · exact .rfl
  · simp only [Waits, hdevice]
    split
    · next he => simpa [he, hd] using hwaits
    · exact .rfl

/-- an end of a stream is opened -/
theorem only_opened (h : Host) (id : Nat) (side : Side) : Only (some id) h (h.opened (.stream id side)).1 := by
  have hdevice := fun d => device?_opened (h := h) (.stream id side) d
  have hlength : (h.opened (.stream id side)).1.devices.length = h.devices.length + 1 := List.length_append ..
  refine ⟨fun hu => ⟨hu.others, hu.accept, hu.unblock, hu.watch, hu.rewatch,
    fun d hd => hlength ▸ Nat.lt_succ_of_lt (hu.queued d hd), hu.once⟩, hlength ▸ Nat.le_succ _, fun {i} hi _ =>
    ⟨rfl, fun {d e} => ?_, fun {l} => ?_, fun _ => rfl, fun _ hm => hm, fun _ hm => hm⟩⟩
  · have hne : id ≠ i := fun he => hi (congrArg some he)
    rw [hdevice]
    split
    · next he => simp [he, device?_length, hne]
    · exact .rfl
  · simp only [Waits, hdevice]
    split
    · next he => simp [he, device?_length]
    · exact .rfl

theorem mem_queue_forget {e : Descriptor} : e ∈ (h.forget d).queue ↔ e ∈ h.queue ∧ e ≠ d := by
  simp [forget, List.mem_filter]

/-- an end of one stream has no other stream's -/
theorem Harbors.ne {e : Descriptor} {side : Side} (hd : h.device? d = some (.stream id side)) (hi : some id ≠ some i)
    (he : h.Harbors i e) : e ≠ d := by
  rintro rfl
  rcases he with he | ⟨backlog, he, -⟩
  · rw [hd] at he
    cases he
    exact hi rfl
  · rw [hd] at he
    cases he

/-- leaving the watch concerns the stream of the descriptor -/
theorem only_forget {side : Side} (hd : h.device? d = some (.stream id side)) : Only (some id) h (h.forget d) := by
  refine ⟨fun hu => ⟨hu.others, hu.accept, hu.unblock, hu.watch, hu.rewatch, fun e he => hu.queued e (mem_queue_forget.1 he).1,
    hu.once.filter _⟩, Nat.le_refl _, fun {i} hi _ => ?_⟩
  have hne := fun {e} => Harbors.ne (e := e) hd hi
  exact apart_of_devices rfl rfl (fun he => watch?_filter_ne (hne he) _)
    (fun he hm => mem_queue_forget.2 ⟨hm, hne he⟩) fun _ hm => (mem_queue_forget.1 hm).1

/-- closing an end concerns its stream -/
theorem only_close {side : Side} (hd : h.device? d = some (.stream id side)) (abrupt : Bool) :
    Only (some id) h (h.close d abrupt) := by
  have hd' : (h.forget d).device? d = some (.stream id side) := hd
  have hgone : Only (some id) (h.forget d) ((h.forget d).setDevice d none) := by
    have hlength : ((h.forget d).setDevice d none).devices.length = (h.forget d).devices.length := List.length_set ..
    refine ⟨fun hu => ⟨hu.others, hu.accept, hu.unblock, hu.watch, hu.rewatch, fun e he => hlength ▸ hu.queued e he, hu.once⟩,
      Nat.le_of_eq hlength.symm, fun {i} hi _ => apart_setDevice hd' (fun e => ?_) (by simp)⟩
    have hne : id ≠ i := fun he => hi (congrArg some he)
    simp [hne]
  simp only [close, hd]
  exact ((only_forget hd).trans hgone).trans (only_onStream ..)

/-! ## Watching -/

theorem join_head?_of_none {refusals : List (Option Errno)} (hr : ∀ refusal ∈ refusals, refusal = none) :
    refusals.head?.join = none := by
  cases refusals with
  | nil => rfl
  | cons refusal rest => simpa using hr refusal (by simp)

/-- the host once a call is made that could have been refused -/
theorem only_spent (h : Host) :
    Only none h { h with refusals := { h.refusals with accept := h.refusals.accept.tail } } ∧
    Only none h { h with refusals := { h.refusals with watch := h.refusals.watch.tail } } ∧
    ∀ d, Only none h { h with refusals := h.refusals.changed d } :=
  ⟨only_of_eq rfl rfl rfl rfl fun hu =>
      ⟨hu.others, fun r hr => hu.accept r (List.mem_of_mem_tail hr), hu.unblock, hu.watch, hu.rewatch⟩,
    only_of_eq rfl rfl rfl rfl fun hu =>
      ⟨hu.others, hu.accept, hu.unblock, fun r hr => hu.watch r (List.mem_of_mem_tail hr), hu.rewatch⟩,
    fun _ => only_of_eq rfl rfl rfl rfl fun hu =>
      ⟨hu.others, hu.accept, hu.unblock, hu.watch, fun r hr => hu.rewatch r (List.mem_of_mem_eraseP hr)⟩⟩

/-- looks at a descriptor for what holds now -/
def look (h : Host) (d : Descriptor) (interest : Interest) : Host :=
  if h.holds d interest then h.enqueue d else h

/-- a change of the watches that is about one end, and a look at it then, concern its stream -/
theorem only_look {side : Side} (hd : h.device? d = some (.stream id side)) {watches : List Watch}
    (hw : ∀ e, e ≠ d → watches.find? (·.descriptor == e) = h.watches.find? (·.descriptor == e)) (interest : Interest) :
    Only (some id) h (({ h with watches } : Host).look d interest) := by
  refine .trans (b := { h with watches }) ?_ ?_
  · exact ⟨fun hu => ⟨hu.others, hu.accept, hu.unblock, hu.watch, hu.rewatch, hu.queued, hu.once⟩, Nat.le_refl _, fun hi _ =>
      apart_of_devices rfl rfl (fun he => hw _ (he.ne hd hi)) (fun _ hm => hm) fun _ hm => hm⟩
  · unfold look
    split
    · have hd' : ({ h with watches } : Host).device? d = some (.stream id side) := hd
      exact only_enqueue hd' fun he => by cases he; rfl
    · exact .refl _ _

theorem only_watch {side : Side} (hd : h.device? d = some (.stream id side)) (word : UInt64) (interest : Interest) :
    Only (some id) h (h.watch d word interest).1 := by
  obtain ⟨-, hspent, -⟩ := only_spent h
  have hspent := hspent.of_none (some id)
  have hd' : ({ h with refusals := { h.refusals with watch := h.refusals.watch.tail } } : Host).device? d =
    some (.stream id side) := hd
  unfold watch
  dsimp only
  split
  · exact hspent
  · exact hspent
  · split
    · exact hspent
    · refine hspent.trans (only_look hd' (fun e he => ?_) interest)
      simp [he.symm]

theorem only_rewatch {side : Side} (hd : h.device? d = some (.stream id side)) (word : UInt64) (interest : Interest) :
    Only (some id) h (h.rewatch d word interest).1 := by
  obtain ⟨-, -, hspent⟩ := only_spent h
  have hspent := (hspent d).of_none (some id)
  have hd' : ({ h with refusals := h.refusals.changed d } : Host).device? d = some (.stream id side) := hd
  unfold rewatch
  dsimp only
  split
  · exact hspent
  · exact hspent
  · split
    · exact hspent
    · exact hspent.trans (only_look hd' (fun e he => find?_rewatched_ne he ..) interest)

theorem only_unwatch {side : Side} (hd : h.device? d = some (.stream id side)) :
    Only (some id) h (h.unwatch d).1 := by
  unfold unwatch
  split
  · exact .refl _ h
  · split
    · exact .refl _ h
    · exact only_forget hd

/-! ## Accepting -/

/-- that no call on a descriptor waits concerns no stream -/
theorem only_unblock (h : Host) (d : Descriptor) : Only none h (h.unblock d).1 := by
  obtain ⟨unblocked, he⟩ := h.unblock_eq d
  exact he ▸ only_of_eq rfl rfl rfl rfl fun hu =>
    ⟨hu.others, hu.accept, fun r hr => hu.unblock r (List.mem_of_mem_tail hr), hu.watch, hu.rewatch⟩

/-- and nothing keeps an open descriptor from it but a refusal -/
theorem Unhindered.unblock_ok (hu : h.Unhindered) {device : Device} (hd : h.device? d = some device) :
    (h.unblock d).2 = .ok () := by
  rw [unblock_value hd, join_head?_of_none hu.unblock]
  rfl

/-- taking the first connection that waits at a listener concerns its stream -/
theorem only_taken {arrival : Arrival} {rest : List Arrival} (hl : h.device? l = some (.listener (arrival :: rest))) :
    Only (some arrival.stream) h
      ((h.setDevice l (some (.listener rest))).opened (.stream arrival.stream .far)).1 := by
  have hlength : (h.setDevice l (some (.listener rest))).devices.length = h.devices.length := List.length_set ..
  have hset : Only (some arrival.stream) h (h.setDevice l (some (.listener rest))) := by
    refine ⟨fun hu => ⟨hu.others, hu.accept, hu.unblock, hu.watch, hu.rewatch, fun e he => hlength ▸ hu.queued e he, hu.once⟩,
      Nat.le_of_eq hlength.symm, fun {i} hi _ => apart_setDevice hl (fun e => by simp) ?_⟩
    have hne : arrival.stream ≠ i := fun he => hi (congrArg some he)
    simp [hne]
  exact hset.trans (only_opened ..)

/-- a call that accepts takes the first connection that waits, or fails and only counts as made -/
theorem accept_cases (h : Host) (l : Descriptor) :
    (∃ arrival rest, h.device? l = some (.listener (arrival :: rest)) ∧
      h.accept l =
        (((({ h with refusals := { h.refusals with accept := h.refusals.accept.tail } } : Host).setDevice l
          (some (.listener rest))).opened (.stream arrival.stream .far)).1, .ok (h.devices.length, arrival.peer))) ∨
      ∃ code, h.accept l =
        ({ h with refusals := { h.refusals with accept := h.refusals.accept.tail } }, .error code) := by
  have hlength : ∀ device, (h.devices.set l device).length = h.devices.length := fun _ => List.length_set ..
  unfold accept
  dsimp only
  split
  · exact .inr ⟨_, rfl⟩
  · exact .inr ⟨_, rfl⟩
  · exact .inr ⟨_, rfl⟩
  · next arrival rest hd _ =>
    exact .inl ⟨arrival, rest, hd, by simp [Host.opened, setDevice, hlength]⟩
  all_goals exact .inr ⟨_, rfl⟩

/-! ## What others do -/

theorem only_readSignal (h : Host) (d : Descriptor) : Only none h (h.readSignal d).1 := by
  unfold readSignal
  split
  · dsimp only
    split
    · exact only_of_eq rfl rfl rfl rfl fun hu => ⟨hu.others, hu.accept, hu.unblock, hu.watch, hu.rewatch⟩
    · exact .refl _ h
  · exact .refl _ h

theorem only_raise (h : Host) (number : Int) : Only none h (h.raise number).1 := by
  unfold raise
  split
  · have hfold : ∀ (sources : List (Option Device × Nat)) (h : Host),
        (∀ entry ∈ sources, ∃ mask, h.device? entry.2 = some (.signalSource mask)) →
          Only none h (sources.foldl (fun h entry => h.stir entry.2 .input) h) := by
      intro sources
      induction sources with
      | nil => exact fun h _ => .refl _ h
      | cons entry rest ih =>
        intro h hsources
        obtain ⟨mask, hd⟩ := hsources entry (by simp)
        have hfirst : Only none h (h.stir entry.2 .input) := only_stir hd (fun he => by cases he) .input
        refine hfirst.trans (ih _ fun other ho => ?_)
        obtain ⟨q, hq, -⟩ := h.stir_eq entry.2 .input
        rw [hq]
        exact hsources other (by simp [ho])
    dsimp only
    refine .trans (b := { h with
      pending := insertSignal number (h.pending.filter fun n => !(calledOff number).contains n) })
      (only_of_eq rfl rfl rfl rfl fun hu => ⟨hu.others, hu.accept, hu.unblock, hu.watch, hu.rewatch⟩)
      (hfold _ _ fun entry he => ?_)
    obtain ⟨hm, htakes⟩ := List.mem_filter.1 he
    obtain ⟨device, index⟩ := entry
    have hdevice := List.mem_zipIdx_iff_getElem?.1 hm
    cases device with
    | none => cases htakes
    | some device =>
      cases device <;> simp [Device.takes] at htakes
      exact ⟨_, by simpa [device?] using congrArg Option.join hdevice⟩
  · exact .refl _ h

/-- a client that calls takes a new stream, and leaves all that were there apart -/
theorem only_connect (h : Host) (l : Descriptor) (self : Address) : Only none h (h.connect l self).1 := by
  unfold connect
  split
  · exact .refl _ h
  split
  next backlog hl =>
    let stream := h.streams.length
    let opened := (({ h with streams := h.streams ++ [{ family := .inet }] } : Host).opened (.stream stream .near)).1
    let waiting := opened.setDevice l (some (.listener (backlog ++ [⟨stream, self⟩])))
    have hl' : opened.device? l = some (.listener backlog) := by
      rw [show opened.device? l = _ from device?_opened .., if_neg (Nat.ne_of_lt (lt_length_of_device? hl))]
      exact hl
    have hlength : waiting.devices.length = opened.devices.length := List.length_set ..
    have hstream : Only none h { h with streams := h.streams ++ [{ family := .inet }] } :=
      ⟨fun hu => ⟨hu.others, hu.accept, hu.unblock, hu.watch, hu.rewatch, hu.queued, hu.once⟩, Nat.le_refl _, fun _ hi =>
        apart_of_devices rfl (List.getElem?_append_left hi) (fun _ => rfl) (fun _ hm => hm) fun _ hm => hm⟩
    have hset : Only (some stream) opened waiting := by
      refine ⟨fun hu => ⟨hu.others, hu.accept, hu.unblock, hu.watch, hu.rewatch, fun e he => hlength ▸ hu.queued e he, hu.once⟩,
        Nat.le_of_eq hlength.symm, fun {i} hi _ => apart_setDevice hl' (fun e => by simp) ?_⟩
      have hne : stream ≠ i := fun he => hi (congrArg some he)
      simp [hne, or_and_right, exists_or]
    have hwaiting : waiting.device? l = some (.listener (backlog ++ [⟨stream, self⟩])) := by
      rw [show waiting.device? l = _ from device?_setDevice hl' .., if_pos rfl]
    have hall : Only (some stream) h (waiting.stir l .input) :=
      (((hstream.of_none _).trans (only_opened ..)).trans hset).trans
        (only_stir hwaiting (fun he => by cases he) .input)
    exact ⟨hall.unhindered, hall.length, fun _ hi => hall.apart (fun he => Nat.ne_of_gt hi (Option.some.inj he)) hi⟩
  · exact .refl _ h

end Host

/-- whose deed it is, if it is a client's that is connected -/
def Deed.client? : Deed → Option Descriptor
  | .send d _ | .recv d _ | .finish d | .close d _ => some d
  | .connect .. | .signal _ | .interrupt => none

namespace Host

variable {h h' : Host} {α : Type} {x : Option Nat} {i id : Nat} {d l : Descriptor}

theorem client?_eq_some : h.client? d = some id ↔ h.device? d = some (.stream id .near) := by
  unfold client?
  split
  · next id' hd => simp [hd]
  · next hd =>
    exact ⟨fun he => (by cases he), fun he => absurd he (hd id)⟩

/-- what is done only for a client that is connected concerns its stream -/
theorem only_client {after : Host} (ho : ∀ id, h.device? d = some (.stream id .near) → Only (some id) h after) :
    Only (h.client? d) h (if (h.client? d).isSome then after else h) := by
  cases hc : h.client? d with
  | none => exact .refl none h
  | some id => exact ho id (client?_eq_some.1 hc)

/-- what a client does concerns its own stream -/
theorem only_act (h : Host) (deed : Deed) : Only (deed.client?.bind h.client?) h (h.act deed) := by
  cases deed with
  | connect l self => exact only_connect h l self
  | signal number => exact only_raise h number
  | interrupt => exact only_of_eq rfl rfl rfl rfl fun hu => ⟨hu.others, hu.accept, hu.unblock, hu.watch, hu.rewatch⟩
  | send d bytes => exact only_client fun _ hd => only_transmit hd bytes
  | recv d count => exact only_client fun _ hd => only_receive hd count
  | finish d => exact only_client fun _ hd => only_finish hd
  | close d abrupt => exact only_client fun _ hd => only_close hd abrupt

/-! ## Calls that never wait -/

theorem elapse_eq (hothers : h.others = []) : h.elapse = h := by
  cases h
  cases hothers
  rfl

/-- once nobody acts meanwhile, a retried call uses up the interruptions and is made -/
theorem retry_eq {call : Host → Host × Except Errno α} (operation : Host → Host × Except Errno α)
    (hcall : ∀ h : Host, h.others = [] → call h = match h.interrupted? with
      | some h => (h, .error .interrupted)
      | none => operation h) {limit : Nat} (hothers : h.others = []) (hlimit : h.interruptions = limit) :
    Nonblocking.retry call limit h = operation { h with interruptions := 0 } := by
  induction limit generalizing h with
  | zero =>
    have he : h = { h with interruptions := 0 } := by rw [← hlimit]
    unfold Nonblocking.retry
    rw [hcall h hothers, interrupted?, if_neg (by omega), ← he]
  | succ limit ih =>
    have hafter : h.interruptions - 1 = limit := by omega
    have hrest := ih (h := { h with interruptions := h.interruptions - 1 }) hothers hafter
    unfold Nonblocking.retry
    rw [hcall h hothers, interrupted?, if_pos (by omega)]
    exact hrest

theorem cuts_eq (hothers : h.others = []) : h.cuts = h.interruptions := by simp [cuts, ahead, hothers]

theorem nonblocking_recv_eq (hothers : h.others = []) (d : Descriptor) (count : Nat) :
    Nonblocking.recv h d count = ((({ h with interruptions := 0 } : Host).receive d count).1,
      .ofResult (({ h with interruptions := 0 } : Host).receive d count).2) := by
  rw [Nonblocking.recv, retry_eq (fun h => h.receive d count) (fun h hothers => ?_) hothers
    (cuts_eq hothers).symm]
  rw [elapse_eq hothers]
  rfl

theorem nonblocking_send_eq (hothers : h.others = []) (d : Descriptor) (bytes : Bytes) :
    Nonblocking.send h d bytes = ((({ h with interruptions := 0 } : Host).transmit d bytes).1,
      .ofResult (({ h with interruptions := 0 } : Host).transmit d bytes).2) := by
  rw [Nonblocking.send, retry_eq (fun h => h.transmit d bytes) (fun h hothers => ?_) hothers
    (cuts_eq hothers).symm]
  rw [elapse_eq hothers]
  rfl

theorem only_interruptions (h : Host) (interruptions : Nat) : Only none h { h with interruptions } :=
  only_of_eq rfl rfl rfl rfl fun hu => ⟨hu.others, hu.accept, hu.unblock, hu.watch, hu.rewatch⟩

theorem only_recv {side : Side} (hu : h.Unhindered) (hd : h.device? d = some (.stream id side)) (count : Nat) :
    Only (some id) h (Nonblocking.recv h d count).1 := by
  rw [nonblocking_recv_eq hu.others]
  exact ((only_interruptions h 0).of_none _).trans (only_receive (h := { h with interruptions := 0 }) hd count)

theorem only_send {side : Side} (hu : h.Unhindered) (hd : h.device? d = some (.stream id side)) (bytes : Bytes) :
    Only (some id) h (Nonblocking.send h d bytes).1 := by
  rw [nonblocking_send_eq hu.others]
  exact ((only_interruptions h 0).of_none _).trans (only_transmit (h := { h with interruptions := 0 }) hd bytes)

theorem device?_onStream (h : Host) (id : Nat) (operation : Stream → Stirred α) (otherwise : α) (e : Descriptor) :
    (h.onStream id operation otherwise).1.device? e = h.device? e := by
  unfold onStream
  cases h.streams[id]? with
  | none => rfl
  | some s =>
    obtain ⟨q, hq, -⟩ := stirEnds_eq { h with streams := h.streams.set id (operation s).stream } id (operation s).stirs
    have hsame := congrArg (Host.device? · e) hq
    exact hsame

theorem device?_transmit (h : Host) (d : Descriptor) (bytes : Bytes) (e : Descriptor) :
    (h.transmit d bytes).1.device? e = h.device? e := by
  unfold transmit
  split
  · rfl
  · exact device?_onStream ..
  all_goals rfl

theorem device?_receive (h : Host) (d : Descriptor) (count : Nat) (e : Descriptor) :
    (h.receive d count).1.device? e = h.device? e := by
  unfold receive
  split
  · rfl
  · exact device?_onStream ..
  all_goals rfl

theorem device?_finish (h : Host) (d e : Descriptor) : (h.finish d).1.device? e = h.device? e := by
  have hstir : (h.stir d .any).device? e = h.device? e := by
    obtain ⟨q, hq, -⟩ := h.stir_eq d .any
    have hsame := congrArg (Host.device? · e) hq
    exact hsame
  unfold finish
  split
  · rfl
  · exact device?_onStream ..
  · exact hstir
  · exact hstir
  all_goals rfl

theorem device?_watch (h : Host) (d : Descriptor) (word : UInt64) (interest : Interest) (e : Descriptor) :
    (h.watch d word interest).1.device? e = h.device? e := by
  unfold watch
  dsimp only
  split
  · rfl
  · rfl
  · split
    · rfl
    · obtain ⟨q, hq, -⟩ := looked_eq { h with
        refusals := { h.refusals with watch := h.refusals.watch.tail }
        watches := h.watches ++ [⟨d, word, interest⟩] } d interest
      have hsame := congrArg (Host.device? · e) hq
      exact hsame

theorem devices_rewatch (h : Host) (d : Descriptor) (word : UInt64) (interest : Interest) :
    (h.rewatch d word interest).1.devices = h.devices := by
  unfold rewatch
  dsimp only
  split
  · rfl
  · rfl
  · split
    · rfl
    · obtain ⟨q, hq, -⟩ := looked_eq { h with
        refusals := h.refusals.changed d
        watches := rewatched h.watches d word interest } d interest
      have hsame := congrArg Host.devices hq
      exact hsame

theorem device?_rewatch (h : Host) (d : Descriptor) (word : UInt64) (interest : Interest) (e : Descriptor) :
    (h.rewatch d word interest).1.device? e = h.device? e := by
  rw [device?, device?, devices_rewatch]

theorem device?_unblock (h : Host) (d e : Descriptor) : (h.unblock d).1.device? e = h.device? e := by
  obtain ⟨unblocked, he⟩ := h.unblock_eq d
  rw [he]
  rfl

theorem device?_unwatch (h : Host) (d e : Descriptor) : (h.unwatch d).1.device? e = h.device? e := by
  unfold unwatch
  split
  · rfl
  · split <;> rfl

end Host

namespace Notifier

variable {n : Notifier} {id : Nat} {d : Descriptor} {side : Side}

/-- a watch that is entered, changed or left concerns one stream, and no descriptor is opened or closed -/
theorem only_register (hu : n.host.Unhindered) (hd : n.host.device? d = some (.stream id side)) (token : Token)
    (interest : Interest) : Host.Only (some id) n.host (n.register d token interest).state.host ∧
      (n.register d token interest).state.host.device? d = some (.stream id side) := by
  unfold register
  cases token.word? with
  | none => exact ⟨.refl _ _, hd⟩
  | some word =>
    have hwatch := Host.only_watch hd word interest
    have hd' := (Host.device?_watch n.host d word interest d).trans hd
    dsimp only
    rw [Host.elapse_eq hu.others]
    split <;> exact ⟨hwatch, hd'⟩

theorem only_reregister (hu : n.host.Unhindered) (hd : n.host.device? d = some (.stream id side)) (token : Token)
    (interest : Interest) : Host.Only (some id) n.host (n.reregister d token interest).state.host := by
  unfold reregister
  cases token.word? with
  | none => exact .refl _ _
  | some word =>
    have hrewatch := Host.only_rewatch hd word interest
    dsimp only
    rw [Host.elapse_eq hu.others]
    split <;> exact hrewatch

theorem only_deregister (hu : n.host.Unhindered) (hd : n.host.device? d = some (.stream id side)) :
    Host.Only (some id) n.host (n.deregister d).1.host ∧
      (n.deregister d).1.host.device? d = some (.stream id side) := by
  have hunwatch := Host.only_unwatch hd
  have hd' := (Host.device?_unwatch n.host d d).trans hd
  unfold deregister
  rw [Host.elapse_eq hu.others]
  dsimp only
  split <;> exact ⟨hunwatch, hd'⟩

end Notifier

/-! ## Operations on one connection -/

namespace Connections

variable {H : Type} {c c' : Connections H} {x : Option Nat} {id key : Nat} {old : Connection H}

/-- an operation concerns the connection of one stream at most -/
structure Only (x : Option Nat) (c c' : Connections H) : Prop where
  host : Host.Only x c.host c'.host
  conns : ∀ {i key conn}, x ≠ some i → i < c.host.streams.length → c.get? key = some conn →
    c.host.device? conn.descriptor = some (.stream i .far) → c'.get? key = some conn
  arms : c'.armWrites = c.armWrites

/-- the connection in a slot, if there is one, has the far end of a stream -/
def Serves (c : Connections H) (key id : Nat) : Prop :=
  ∀ {conn}, c.get? key = some conn → c.host.device? conn.descriptor = some (.stream id .far)

theorem Only.refl (x : Option Nat) (c : Connections H) : Only x c c := ⟨.refl x _, fun _ _ hg _ => hg, rfl⟩

theorem Only.trans {a b c : Connections H} (h : Only x a b) (h' : Only x b c) : Only x a c where
  host := h.host.trans h'.host
  conns hx hi hg hd :=
    have ha := h.host.apart hx hi
    h'.conns hx (ha.known hi) (h.conns hx hi hg hd) (ha.ends.2 hd)
  arms := h'.arms.trans h.arms

theorem only_onHost {h : Host} (ho : Host.Only x c.host h) : Only x c (c.onHost fun _ => h) :=
  ⟨ho, fun _ _ hg _ => hg, rfl⟩

/-- a connection is replaced, and the host changes where it is concerned -/
theorem only_put (hg : c.get? key = some old) (hd : c.host.device? old.descriptor = some (.stream id .far))
    {n : Notifier} (ho : Host.Only (some id) c.host n.host) (conn : Connection H) :
    Only (some id) c (({ c with notifier := n } : Connections H).put key conn) := by
  refine ⟨ho, fun {i k other} hi _ hk hother => ?_, rfl⟩
  have hne : k ≠ key := by
    rintro rfl
    rw [hg] at hk
    cases hk
    rw [hd] at hother
    cases hother
    exact hi rfl
  rw [show (Connections.put _ key conn).get? k = _ from get?_put (c := { c with notifier := n }) hg conn k, if_neg hne]
  exact hk

theorem only_rearm (hu : c.host.Unhindered) (hg : c.get? key = some old)
    (hd : c.host.device? old.descriptor = some (.stream id .far)) (conn : Connection H)
    (hconn : conn.descriptor = old.descriptor) (armed : Bool) :
    Only (some id) c (c.rearm key conn armed).state := by
  have hrewatch := Notifier.only_reregister hu (hconn ▸ hd) (.connection key)
    (if armed then writingInterest else idleInterest)
  unfold rearm
  dsimp only
  split <;> exact only_put hg hd hrewatch _

theorem only_recv (hu : c.host.Unhindered) (hd : c.Serves key id) (handle : H) (count : Nat) :
    Only (some id) c (c.recv key handle count).state := by
  unfold recv
  cases hg : c.get? key with
  | none => exact .refl _ c
  | some conn =>
    have hrecv := Host.only_recv hu (hd hg) count
    dsimp only
    split
    · exact only_onHost hrecv
    · exact only_onHost hrecv
    · exact only_put hg (hd hg) (n := { c.notifier with host := _ }) hrecv _

theorem only_send (hu : c.host.Unhindered) (hd : c.Serves key id) (handle : H) (bytes : Bytes) :
    Only (some id) c (c.send key handle bytes).state := by
  unfold send
  cases hg : c.get? key with
  | none => exact .refl _ c
  | some conn =>
    have hsend := Host.only_send hu (hd hg) bytes
    dsimp only
    split
    · exact only_onHost hsend
    · exact only_onHost hsend
    · dsimp only
      split
      · have hd' : (Nonblocking.send c.notifier.host conn.descriptor bytes).1.device? conn.descriptor =
            some (.stream id .far) := by
          rw [Host.nonblocking_send_eq hu.others]
          exact (Host.device?_transmit ..).trans (hd hg)
        refine (only_onHost hsend).trans ?_
        exact only_rearm (c := c.onHost fun _ => (Nonblocking.send c.notifier.host conn.descriptor bytes).1)
          (hsend.unhindered hu) hg hd' { conn with write := (conn.write.store handle).1 } rfl true
      · exact only_put hg (hd hg) (n := { c.notifier with host := _ }) hsend _

theorem only_shutdown (hu : c.host.Unhindered) (hd : c.Serves key id) : Only (some id) c (c.shutdown key).1 := by
  unfold shutdown
  cases hg : c.get? key with
  | none => exact .refl _ c
  | some conn =>
    refine only_onHost ?_
    rw [show c.notifier.host.elapse = _ from Host.elapse_eq hu.others]
    exact Host.only_finish (hd hg)

theorem only_fire (hu : c.host.Unhindered) (hd : c.Serves key id) (r : Readiness) :
    Only (some id) c (c.fire key r).state := by
  unfold fire
  cases hg : c.get? key with
  | none => exact .refl _ c
  | some conn =>
    dsimp only
    split
    · exact only_rearm hu hg (hd hg) (conn.resumed r) rfl false
    · exact only_put hg (hd hg) (.refl _ _) _

theorem only_remove (hu : c.host.Unhindered) (hd : c.Serves key id) : Only (some id) c (c.remove key).state := by
  unfold remove
  cases hg : c.get? key with
  | none => exact .refl _ c
  | some conn =>
    obtain ⟨hleft, hd'⟩ := Notifier.only_deregister hu (hd hg)
    refine ⟨?_, fun {i k other} hi _ hk hother => ?_, rfl⟩
    · simp only [host, Notifier.onHost]
      rw [Host.elapse_eq (hleft.unhindered hu).others]
      exact hleft.trans (Host.only_close hd' false)
    · have hne : k ≠ key := by
        rintro rfl
        rw [hg] at hk
        cases hk
        rw [hd hg] at hother
        cases hother
        exact hi rfl
      exact (Slots.get?_erase ..).trans ((if_neg hne).trans hk)

theorem only_insert (hu : c.host.Unhindered) (ht : c.slots.Tidy) {d : Descriptor}
    (hd : c.host.device? d = some (.stream id .far)) (peer : Address) :
    Only (some id) c (c.insert d peer).state := by
  obtain ⟨hwatch, hd'⟩ := Notifier.only_register hu hd (.connection c.slots.nextKey) idleInterest
  unfold insert
  dsimp only
  split
  · refine ⟨hwatch, fun {i k other} _ _ hk _ => ?_, rfl⟩
    have hne : k ≠ c.slots.nextKey := by
      rintro rfl
      rw [get?, Slots.get?_nextKey ht] at hk
      cases hk
    exact (Slots.get?_insert ht ..).trans ((if_neg hne).trans hk)
  · refine ⟨?_, fun _ _ hk _ => hk, rfl⟩
    simp only [host, Notifier.onHost]
    rw [Host.elapse_eq (hwatch.unhindered hu).others]
    exact hwatch.trans (Host.only_close hd' false)

/-! ## Runs of a task -/

/-- reading, writing and shutting down open and close nothing -/
theorem device?_recv (hu : c.host.Unhindered) (key : Nat) (handle : H) (count : Nat) (d : Descriptor) :
    (c.recv key handle count).state.host.device? d = c.host.device? d := by
  unfold recv
  cases c.get? key with
  | none => rfl
  | some conn =>
    have hsame := Host.device?_receive { c.host with interruptions := 0 } conn.descriptor count d
    dsimp only
    rw [Host.nonblocking_recv_eq hu.others]
    split <;> exact hsame

theorem device?_rearm (hu : c.host.Unhindered) (key : Nat) (conn : Connection H) (armed : Bool) (d : Descriptor) :
    (c.rearm key conn armed).state.host.device? d = c.host.device? d := by
  have hrewatch : ∀ interest, (c.notifier.reregister conn.descriptor (.connection key) interest).state.host.device? d =
      c.host.device? d := fun interest => by
    unfold Notifier.reregister
    split
    · rfl
    · next word _ =>
      have hsame := Host.device?_rewatch c.host conn.descriptor word interest d
      dsimp only
      rw [Host.elapse_eq hu.others]
      split <;> exact hsame
  unfold rearm
  dsimp only
  split <;> exact hrewatch _

theorem device?_send (hu : c.host.Unhindered) {conn : Connection H} (hg : c.get? key = some conn)
    (hd : c.host.device? conn.descriptor = some (.stream id .far)) (handle : H) (bytes : Bytes) (d : Descriptor) :
    (c.send key handle bytes).state.host.device? d = c.host.device? d := by
  have hsent := (Host.only_send hu hd bytes).unhindered hu
  have hsame : (Nonblocking.send c.host conn.descriptor bytes).1.device? d = c.host.device? d := by
    rw [Host.nonblocking_send_eq hu.others]
    exact Host.device?_transmit { c.host with interruptions := 0 } conn.descriptor bytes d
  unfold send
  rw [hg]
  dsimp only
  split
  · exact hsame
  · exact hsame
  · dsimp only
    split
    · exact (device?_rearm (c := c.onHost fun _ => _) hsent ..).trans hsame
    · exact hsame

theorem device?_shutdown (hu : c.host.Unhindered) (key : Nat) (d : Descriptor) :
    (c.shutdown key).1.host.device? d = c.host.device? d := by
  unfold shutdown
  cases c.get? key with
  | none => rfl
  | some conn =>
    have hsame := Host.device?_finish c.host conn.descriptor d
    dsimp only
    rw [show c.notifier.host.elapse = c.host from Host.elapse_eq hu.others]
    exact hsame

theorem Serves.amends {P : H → Prop} (hs : c.Serves key id) (ha : Amends P key c c')
    (hd : ∀ d, c'.host.device? d = c.host.device? d) : c'.Serves key id := by
  intro conn hg
  rw [hd]
  rcases ha with hslots | ⟨old, conn', hold, hslots, hdescriptor, -⟩
  · exact hs (by rwa [get?, hslots] at hg)
  · rw [get?, hslots, Slots.get?_set hold, if_pos rfl] at hg
    cases hg
    rw [hdescriptor]
    exact hs hold

end Connections

/-- a talk over the transport of a connection concerns its stream -/
theorem only_talk {α : Type} (self : Handle) (place : Place) {i : Nat} (talk : Http.Talk α) {site : Site Handle}
    (hu : site.connections.host.Unhindered) (hd : site.connections.Serves place.slot i) :
    Connections.Only (some i) site.connections (talk.run (Engine.transport id self place) site).1.connections ∧
      (talk.run (Engine.transport id self place) site).1.connections.Serves place.slot i := by
  have hall := Http.Talk.run_keeps (T := Engine.transport id self place)
    (I := fun s => Connections.Only (some i) site.connections s.connections ∧ s.connections.Serves place.slot i)
    (fun {s} count ⟨ho, hd⟩ => ?_) (fun {s} bytes ⟨ho, hd⟩ => ?_) (fun {s} ⟨ho, hd⟩ => ?_) (fun _ h => h) talk
    ⟨.refl _ _, hd⟩
  · exact hall
  · have hu' := ho.host.unhindered hu
    exact ⟨ho.trans (Connections.only_recv hu' hd self count),
      hd.amends (Connections.amends_recv ..) (Connections.device?_recv hu' place.slot self count)⟩
  · have hu' := ho.host.unhindered hu
    refine ⟨ho.trans (Connections.only_send hu' hd self bytes), hd.amends (Connections.amends_send ..) fun d => ?_⟩
    cases hg : s.connections.get? place.slot with
    | none => simp [Connections.send, hg]
    | some conn => exact Connections.device?_send hu' hg (hd hg) self bytes d
  · have hu' := ho.host.unhindered hu
    exact ⟨ho.trans (Connections.only_shutdown hu' hd),
      hd.amends (P := fun _ => False) (.inl (Connections.shutdown_slots ..)) (Connections.device?_shutdown hu' _)⟩

end EventServer
