/-
What a server does between two waits, as its clients see it.

Dealing with a batch of reports and pumping the engine are chains of small things done: a report on a connection resumes
its task, a connection that waits is taken in, a slot is run. Each of them is a passage from one scene to another
(`Scene.Passes`) that keeps what is invariant, and in which the view of every client takes steps of its own, or none.
-/
import EventServer.Proofs.Agreement
import EventServer.Proofs.Seclusion

namespace EventServer

variable {X : Type} {fixed : List Watch} {arms : Bool} {protocol : Http.Protocol X}

namespace Scene

variable {a a' : Scene X} {i : Nat} {near : Descriptor} {v : View X} {I : Scene X → Prop}

/-- what is invariant while a batch is dealt with -/
structure Dispatching (fixed : List Watch) (arms : Bool) (a : Scene X) : Prop where
  settled : a.Settled fixed arms
  lively : a.Lively

theorem reportsOn_cons {r : Readiness} {key : Nat} {batch : List Readiness} (hr : r.token ≠ .connection key) :
    reportsOn key (r :: batch) = reportsOn key batch := by
  simp [reportsOn, hr]

/-! ## Reports on connections -/

/-- what is queued once handles are woken was queued before, or is the slot of such a handle -/
theorem mem_queue_wakes {t : Tasks Nat (ConnectionTask X)} {hs : List Handle} {slot : Nat}
    (hm : slot ∈ (hs.foldl Tasks.wake t).queue) : slot ∈ t.queue ∨ ∃ h ∈ hs, h.slot = slot := by
  induction hs generalizing t with
  | nil => exact .inl hm
  | cons h rest ih =>
    rcases ih hm with hm | ⟨h', hm', he⟩
    · unfold Tasks.wake at hm
      split at hm
      · exact .inl hm
      · rcases List.mem_append.1 hm with hm | hm
        · exact .inl hm
        · exact .inr ⟨h, List.mem_cons_self, (List.mem_singleton.1 hm).symm⟩
    · exact .inr ⟨h', List.mem_cons_of_mem _ hm', he⟩

/-- the scene once the first report is dealt with, which is about the connection in a slot -/
def resumed (a : Scene X) (key : Nat) (r : Readiness) (batch : List Readiness) : Scene X where
  batch
  tasks := (a.connections.fire key r).value.foldl Tasks.wake a.tasks
  connections := (a.connections.fire key r).state

/-- what a report resumes are handles of the task of the connection that it is about -/
theorem of_fire (ho : a.connections.Owns a.tasks.Of) {key : Nat} {r : Readiness} {h : Handle}
    (hm : h ∈ (a.connections.fire key r).value) : a.tasks.Of key h := by
  obtain ⟨conn, hg, hm⟩ := Connections.mem_fire hm
  exact ho key conn hg h hm

theorem dispatching_resumed {key : Nat} {r : Readiness} {batch : List Readiness} (hd : a.Dispatching fixed arms)
    (hbatch : a.batch = r :: batch) (hr : r.token = .connection key) :
    (a.resumed key r batch).Dispatching fixed arms := by
  obtain ⟨past, hturning⟩ := hd.settled.turning
  obtain ⟨id, hserves⟩ := hd.settled.sound.serves key
  have honly := Connections.only_fire hd.settled.unhindered hserves r
  have hamends := a.connections.amends_fire key r
  obtain ⟨hslots, -⟩ := a.tasks.wakes_slots (a.connections.fire key r).value
  rw [hbatch] at hturning
  refine ⟨⟨⟨_, hturning.fire hr⟩, ?_, fun r' hm {k} htoken => ?_, honly.host.unhindered hd.settled.unhindered, ?_,
    honly.arms.trans hd.settled.arms⟩, fun slot hm => ?_⟩
  · rw [show (a.resumed key r batch).tasks.Of = _ from Tasks.of_congr hslots]
    exact hd.settled.owned.amends hamends fun _ => False.elim
  · exact hamends.isSome.trans (hd.settled.reported r' (by simp [hbatch, show r' ∈ batch from hm]) htoken)
  · rw [show (a.resumed key r batch).connections.slots.entries.length = _ from hamends.entries]
    exact Nat.le_trans hd.settled.counted honly.host.length
  · rw [show (a.resumed key r batch).tasks.slots = _ from hslots]
    rcases mem_queue_wakes hm with hm | ⟨h, hwoken, rfl⟩
    · exact hd.lively slot hm
    · obtain ⟨tenant, htenant, -⟩ := of_fire hd.settled.owned hwoken
      simp [htenant]

/-- a report on a connection is felt by its client alone -/
theorem passes_resumed {key : Nat} {r : Readiness} {batch : List Readiness} (hbatch : a.batch = r :: batch)
    (hr : r.token = .connection key) :
    Passes protocol arms (Dispatching fixed arms) a (a.resumed key r batch) := by
  refine .of_inv fun hd => ?_
  obtain ⟨past, hturning⟩ := hd.settled.turning
  obtain ⟨id, hserves⟩ := hd.settled.sound.serves key
  refine ⟨fun _ => (Connections.only_fire hd.settled.unhindered hserves r).host.length,
    fun _ => dispatching_resumed hd hbatch hr, fun _ _ {i near v} hm => ?_⟩
  rcases hm.cases_key hd.settled.sound key with
    ⟨m, b, exchange, told, ready, rfl, rfl, rfl, hhas, rfl⟩ | ⟨id, hid, hserves, hother⟩
  · -- it is the report that the view has, and it has no other
    have htold := hhas.told
    rw [hbatch, reportsOn, List.filter_cons, if_pos (by simp [hr]), ← reportsOn] at htold
    cases told with
    | none => cases htold
    | some shown =>
      simp only [Option.toList_some, List.map_cons, List.map_nil, List.cons.injEq] at htold
      obtain ⟨rfl, hrest⟩ := htold
      obtain ⟨hholds, hself, hnone⟩ := hhas.holds.fire hd.settled.unhindered
        (hd.settled.sound.words hhas.holds.conn) fun direction =>
          show (shown.report m.key).heeds direction = shown.wakes direction by cases direction <;> rfl
      have hworks := hhas.works.wakes _ hself
      have hwakes : (!(a.connections.fire m.key (shown.report m.key)).value.isEmpty) = b.wakes shown := by
        cases hw : b.wakes shown with
        | false => simp [hnone.2 hw]
        | true =>
          have hne := mt hnone.1 (by simp [hw])
          simpa using hne
      rw [hwakes] at hworks
      have hhas' : (a.resumed m.key (shown.report m.key) batch).Has m (b.fired shown) exchange none
          (ready || b.wakes shown) := ⟨hholds, hworks, hrest⟩
      exact ⟨_, .one rfl, hhas'.mirrors⟩
  · refine ⟨v, .refl, hm.of_only hid (Connections.only_fire hd.settled.unhindered hserves r) ?_⟩
    intro m b exchange told ready hv hi hhas
    have hkey := hother hv hi hhas
    refine ⟨hhas.works.wakes_other _ fun h hm => hhas.works.ne_of hturning.law (of_fire hd.settled.owned hm) hkey, ?_⟩
    rw [hbatch]
    exact (reportsOn_cons (by simp [hr, hkey.symm])).symm

/-! ## Changes of the host -/

theorem Settled.onHost (hs : a.Settled fixed arms) {h : Host} {x : Option Nat} (hu : Host.Undisturbed a.host h)
    (ho : Host.Only x a.host h) :
    ({ a with connections := a.connections.onHost fun _ => h } : Scene X).Settled fixed arms := by
  obtain ⟨past, hturning⟩ := hs.turning
  exact ⟨⟨past, hturning.onHost hu⟩, hs.owned, hs.reported, ho.unhindered hs.unhindered,
    Nat.le_trans hs.counted ho.length, hs.arms⟩

/-- a change of the host where no stream is concerned is felt by no client -/
theorem passes_onHost {h : Host} (hu : Host.Undisturbed a.host h) (ho : Host.Only none a.host h) :
    Passes protocol arms (Dispatching fixed arms) a { a with connections := a.connections.onHost fun _ => h } :=
  ⟨fun _ => ho.length, fun hd => ⟨hd.settled.onHost hu ho, hd.lively⟩, fun _ _ {_ _ v} hm =>
    ⟨v, .refl, hm.of_only (by simp) (Connections.only_onHost ho) fun _ _ hhas => ⟨hhas.works, rfl⟩⟩⟩

/-- a report that is about no connection is felt by no client -/
theorem passes_drop {r : Readiness} {batch : List Readiness} (hbatch : a.batch = r :: batch)
    (hr : ∀ key, r.token ≠ .connection key) : Passes protocol arms (Dispatching fixed arms) a { a with batch } := by
  refine ⟨fun _ => Nat.le_refl _, fun hd => ?_, fun _ _ {_ _ v} hm => ⟨v, .refl, ?_⟩⟩
  · obtain ⟨past, hturning⟩ := hd.settled.turning
    rw [hbatch] at hturning
    exact ⟨⟨⟨past, hturning.drop hr⟩, hd.settled.owned,
      fun r' hm => hd.settled.reported r' (hbatch ▸ List.mem_cons_of_mem _ hm), hd.settled.unhindered,
      hd.settled.counted, hd.settled.arms⟩, hd.lively⟩
  · refine hm.of_only (by simp) (.refl none _) fun _ _ hhas => ⟨hhas.works, ?_⟩
    rw [hbatch]
    exact (reportsOn_cons (hr _)).symm

end Scene

namespace Host

variable {h : Host} {l d : Descriptor} {arrival : Arrival} {rest : List Arrival}

/-- the host once the first connection that waits at a listener is accepted -/
def admitted (h : Host) (l : Descriptor) (arrival : Arrival) (rest : List Arrival) : Host :=
  ((({ h with refusals := { h.refusals with accept := h.refusals.accept.tail } } : Host).setDevice l
    (some (.listener rest))).opened (.stream arrival.stream .far)).1

theorem length_admitted (h : Host) (l : Descriptor) (arrival : Arrival) (rest : List Arrival) :
    (h.admitted l arrival rest).devices.length = h.devices.length + 1 := by
  simp [admitted, opened, setDevice]

theorem device?_admitted (hl : h.device? l = some (.listener (arrival :: rest))) (d : Descriptor) :
    (h.admitted l arrival rest).device? d = if d = h.devices.length then some (.stream arrival.stream .far)
      else if d = l then some (.listener rest) else h.device? d := by
  let spent : Host := { h with refusals := { h.refusals with accept := h.refusals.accept.tail } }
  have hl' : spent.device? l = some (.listener (arrival :: rest)) := hl
  have hlength : (spent.setDevice l (some (.listener rest))).devices.length = h.devices.length := List.length_set ..
  have hopened : (h.admitted l arrival rest).device? d = _ :=
    device?_opened (h := spent.setDevice l (some (.listener rest))) (.stream arrival.stream .far) d
  rw [hopened, hlength, device?_setDevice hl']
  rfl

theorem only_admitted (hl : h.device? l = some (.listener (arrival :: rest))) :
    Only (some arrival.stream) h (h.admitted l arrival rest) := by
  obtain ⟨hspent, -, -⟩ := only_spent h
  have hl' : ({ h with refusals := { h.refusals with accept := h.refusals.accept.tail } } : Host).device? l =
    some (.listener (arrival :: rest)) := hl
  exact (hspent.of_none _).trans (only_taken hl')

/-- and once no call on it waits -/
def entered (h : Host) (l : Descriptor) (arrival : Arrival) (rest : List Arrival) : Host :=
  ((h.admitted l arrival rest).unblock h.devices.length).1

/-- neither the streams nor the queue change by that -/
theorem entered_frame (h : Host) (l : Descriptor) (arrival : Arrival) (rest : List Arrival) :
    (h.entered l arrival rest).streams = h.streams ∧ (h.entered l arrival rest).queue = h.queue := by
  obtain ⟨unblocked, he⟩ := (h.admitted l arrival rest).unblock_eq h.devices.length
  rw [entered, he]
  exact ⟨rfl, rfl⟩

theorem length_entered (h : Host) (l : Descriptor) (arrival : Arrival) (rest : List Arrival) :
    (h.entered l arrival rest).devices.length = h.devices.length + 1 := by
  obtain ⟨unblocked, he⟩ := (h.admitted l arrival rest).unblock_eq h.devices.length
  rw [entered, he, ← h.length_admitted l arrival rest]

theorem device?_entered (hl : h.device? l = some (.listener (arrival :: rest))) (d : Descriptor) :
    (h.entered l arrival rest).device? d = if d = h.devices.length then some (.stream arrival.stream .far)
      else if d = l then some (.listener rest) else h.device? d :=
  (device?_unblock ..).trans (device?_admitted hl d)

theorem only_entered (hl : h.device? l = some (.listener (arrival :: rest))) :
    Only (some arrival.stream) h (h.entered l arrival rest) :=
  (only_admitted hl).trans ((only_unblock ..).of_none _)

end Host

/-- a call that accepts takes the first connection that waits, or it concerns nobody -/
theorem Nonblocking.accept_cases {h : Host} (hu : h.Unhindered) (l : Descriptor) :
    (∃ arrival rest, h.device? l = some (.listener (arrival :: rest)) ∧
      accept h l = (h.entered l arrival rest, .done (h.devices.length, arrival.peer))) ∨
      (∀ accepted, (accept h l).2 ≠ .done accepted) ∧ Host.Only none h (accept h l).1 := by
  obtain ⟨hspent, -, -⟩ := Host.only_spent h
  rcases h.accept_cases l with ⟨arrival, rest, hl, he⟩ | ⟨code, he⟩
  · have hadmitted := (Host.only_admitted hl).unhindered hu
    have hok : ((h.admitted l arrival rest).unblock h.devices.length).2 = .ok () :=
      hadmitted.unblock_ok ((Host.device?_admitted hl _).trans (if_pos rfl))
    have he : h.accept l = (h.admitted l arrival rest, .ok (h.devices.length, arrival.peer)) := he
    refine .inl ⟨arrival, rest, hl, ?_⟩
    simp only [accept, Host.elapse_eq hu.others, he, Host.elapse_eq hadmitted.others, hok, Host.entered]
  · unfold accept
    rw [Host.elapse_eq hu.others, he]
    refine .inr ⟨fun accepted ha => ?_, hspent⟩
    rcases Outcome.ofResult_error (α := Descriptor × Address) code with ho | ⟨fault, ho⟩ <;> simp [ho] at ha

/-- whoever is there when a connection is taken in stays there, the new one has nobody parked, and there is one slot
more at most -/
theorem Connections.insert_keeps {H : Type} {c : Connections H} (ht : c.slots.Tidy) (d : Descriptor) (peer : Address) :
    (∀ key, (c.get? key).isSome → ((c.insert d peer).state.get? key).isSome) ∧
      (∀ key conn, (c.insert d peer).state.get? key = some conn → ∀ h ∈ conn.handles,
        ∃ old, c.get? key = some old ∧ h ∈ old.handles) ∧
      (c.insert d peer).state.slots.entries.length ≤ c.slots.entries.length + 1 := by
  rcases c.insert_slots d peer with ⟨fault, -, hslots⟩ | ⟨-, hslots⟩
  · have hget : ∀ key, (c.insert d peer).state.get? key = c.get? key := fun key => by
      rw [get?, hslots, get?]
    refine ⟨fun key hsome => ?_, fun key conn hg h hm => ⟨conn, (hget key).symm.trans hg, hm⟩, ?_⟩
    · rwa [hget]
    · rw [hslots]
      exact Nat.le_succ _
  · have hget : ∀ key, (c.insert d peer).state.get? key =
        if key = c.slots.nextKey then some { descriptor := d, peer } else c.get? key := fun key => by
      rw [get?, hslots]
      exact Slots.get?_insert ht ..
    refine ⟨fun key hsome => ?_, fun key conn hg h hm => ?_, ?_⟩
    · rw [hget]
      split
      · rfl
      · exact hsome
    · rw [hget] at hg
      split at hg
      · cases hg
        cases hm
      · exact ⟨conn, hg, hm⟩
    · rw [hslots]
      have hkey := Nat.succ_le_succ (Slots.nextKey_le ht)
      exact Nat.le_trans (Slots.length_insert_le ..) (Nat.max_le.2 ⟨Nat.le_succ _, hkey⟩)

/-- of a stream that waits to be accepted the view is no other -/
theorem Scene.Mirrors.waiting_of_waits {a : Scene X} {i : Nat} {near l : Descriptor} {v : View X}
    (hm : a.Mirrors i near v) (hs : a.host.Sound) (hw : a.host.Waits i l) : ∃ stream, v = .waiting stream := by
  cases v with
  | waiting stream => exact ⟨stream, rfl⟩
  | served b exchange told ready =>
    obtain ⟨m, rfl, -, hhas⟩ := hm.places
    exact absurd hw (hs.not_waits hhas.holds.host.far l)
  | gone stream =>
    have hgone : a.host.Gone i := hm.places
    exact absurd hw (hgone.waits l)

/-! ## Connections that wait -/

namespace Server

variable {s : Server X} {batch : List Readiness}

/-- what a server has to deal with, and what it has -/
def scene (s : Server X) (batch : List Readiness) : Scene X := ⟨batch, s.engine.tasks, s.connections⟩

/-- a connection that was accepted is taken in and its task is enrolled, or it is refused and no slot changes -/
theorem welcome_cases (s : Server X) (d : Descriptor) (peer : Address) :
    (∃ fault, (s.connections.insert d peer).value = .error fault ∧
        (s.connections.insert d peer).state.slots = s.connections.slots ∧
        (s.welcome d peer).server = { s with connections := (s.connections.insert d peer).state }) ∨
      (s.connections.insert d peer).value = .ok s.connections.slots.nextKey ∧
        (s.connections.insert d peer).state.slots = s.connections.slots.insert { descriptor := d, peer } ∧
        (s.welcome d peer).server =
          { s with
            connections := (s.connections.insert d peer).state
            engine := (s.engine.serve s.connections.slots.nextKey peer).state } := by
  unfold welcome
  rcases s.connections.insert_slots d peer with ⟨fault, hvalue, hslots⟩ | ⟨hvalue, hslots⟩
  · simp [hvalue, hslots]
  · simp [hvalue, hslots]

/-- the scheduler has the tasks that it had and perhaps one more, which is to run -/
theorem welcome_tasks {past : List Moment} (hl : s.engine.tasks.Law past)
    (hlively : ∀ slot ∈ s.engine.tasks.queue, (s.engine.tasks.slots.get? slot).isSome) (d : Descriptor)
    (peer : Address) :
    (∀ key h, s.engine.tasks.Of key h → (s.welcome d peer).server.engine.tasks.Of key h) ∧
      ∀ slot ∈ (s.welcome d peer).server.engine.tasks.queue,
        ((s.welcome d peer).server.engine.tasks.slots.get? slot).isSome := by
  rcases s.welcome_cases d peer with ⟨-, -, -, hs⟩ | ⟨-, -, hs⟩
  · rw [hs]
    exact ⟨fun _ _ => id, hlively⟩
  · rw [hs]
    refine ⟨fun _ _ ho => ho.push hl _ _, fun slot hm => ?_⟩
    have hslot := Slots.get?_insert hl.tidy (⟨s.engine.tasks.nextSerial,
      ⟨⟨s.connections.slots.nextKey, peer⟩, s.engine.protocol.start⟩, some s.connections.slots.nextKey⟩ :
        Tenant Nat (ConnectionTask X)) slot
    refine (congrArg Option.isSome hslot).trans ?_
    split
    · rfl
    · next hne =>
      refine hlively slot ((List.mem_append.1 hm).resolve_right fun hm => hne ?_)
      exact List.mem_singleton.1 hm

open Scene

theorem dispatching_welcome (hd : (s.scene batch).Dispatching fixed arms) {d : Descriptor} {id : Nat}
    (hfar : s.host.device? d = some (.stream id .far)) (hw : s.host.watch? d = none)
    (hroom : s.connections.slots.entries.length < s.host.devices.length) (peer : Address) :
    ((s.welcome d peer).server.scene batch).Dispatching fixed arms := by
  obtain ⟨past, hturning⟩ := hd.settled.turning
  have htidy : s.connections.slots.Tidy := hturning.table.tidy
  have honly : Connections.Only (some id) s.connections (s.connections.insert d peer).state :=
    Connections.only_insert hd.settled.unhindered htidy hfar peer
  have howned : s.connections.Owns s.engine.tasks.Of := hd.settled.owned
  obtain ⟨hof, hlively⟩ := welcome_tasks hturning.law hd.lively d peer
  obtain ⟨hsome, hhandles, hlength⟩ := Connections.insert_keeps htidy d peer
  rw [← welcome_connections] at honly hsome hhandles hlength
  refine ⟨⟨⟨_, Turning.welcome (s := s) hturning hfar hw peer⟩, fun key conn hg h hm => ?_,
    fun r hm {key} htoken => hsome key (hd.settled.reported r hm htoken), honly.host.unhindered hd.settled.unhindered,
    Nat.le_trans hlength (Nat.le_trans hroom honly.host.length), honly.arms.trans hd.settled.arms⟩, hlively⟩
  obtain ⟨old, hold, hm⟩ := hhandles key conn hg h hm
  exact hof key h (howned key old hold h hm)

/-- a client whose connection is taken in is served from then on -/
theorem mirrors_welcome (hd : (s.scene batch).Dispatching fixed arms) (hprotocol : s.engine.protocol = protocol)
    {d near : Descriptor} {i : Nat} {stream : Stream} (hnear : s.host.device? near = some (.stream i .near))
    (hfar : s.host.device? d = some (.stream i .far)) (hstream : s.host.streams[i]? = some stream)
    (hw : s.host.watch? d = none) (hq : d ∉ s.host.queue)
    (hk : Token.base + s.connections.slots.nextKey < UInt64.size) (peer : Address) :
    ((s.welcome d peer).server.scene batch).Mirrors i near (.served (.fresh stream) protocol.start none true) := by
  obtain ⟨past, hturning⟩ := hd.settled.turning
  have htidy : s.connections.slots.Tidy := hturning.table.tidy
  have hlaw : s.engine.tasks.Law past := hturning.law
  let m : Mooring := ⟨i, near, d, s.connections.slots.nextKey, peer,
    ⟨s.engine.tasks.slots.nextKey, s.engine.tasks.nextSerial⟩⟩
  obtain ⟨hholds, hvalue⟩ := Mooring.holds_insert (m := m) htidy hd.settled.unhindered rfl hk hnear hfar hstream hw hq
  have hworks := Mooring.works_push (m := m) hlaw protocol rfl fun hq => by
    have hsome : (s.engine.tasks.slots.get? s.engine.tasks.slots.nextKey).isSome := hd.lively _ hq
    rw [Slots.get?_nextKey hlaw.tidy] at hsome
    cases hsome
  have htold : reportsOn m.key batch = [] := List.filter_eq_nil_iff.2 fun r hr htoken => by
    have hsome : (s.connections.slots.get? m.key).isSome := hd.settled.reported r hr (beq_iff_eq.1 htoken)
    rw [show s.connections.slots.get? m.key = none from Slots.get?_nextKey htidy] at hsome
    cases hsome
  rcases s.welcome_cases d peer with ⟨fault, hfault, -, -⟩ | ⟨-, -, hs⟩
  · have hcontra := hvalue.symm.trans hfault
    cases hcontra
  · have hhas : ((s.welcome d peer).server.scene batch).Has m (.fresh stream) protocol.start none true := by
      rw [hs]
      exact ⟨hholds, hprotocol ▸ hworks, htold⟩
    exact hhas.mirrors

/-- the client whose connection is taken in is served from then on, and no other client feels it -/
theorem passes_welcome (hprotocol : s.engine.protocol = protocol) {l : Descriptor} {arrival : Arrival}
    {rest : List Arrival} (hl : s.host.device? l = some (.listener (arrival :: rest)))
    (haccept : Nonblocking.accept s.host l =
      (s.host.entered l arrival rest, .done (s.host.devices.length, arrival.peer))) :
    Passes protocol arms (Dispatching fixed arms) (s.scene batch)
      (((s.onHost fun _ => s.host.entered l arrival rest).welcome s.host.devices.length arrival.peer).server.scene
        batch) := by
  refine .of_inv fun hd => ?_
  obtain ⟨past, hturning⟩ := hd.settled.turning
  let h := s.host.entered l arrival rest
  let d := s.host.devices.length
  have htidy : s.connections.slots.Tidy := hturning.table.tidy
  have hsound : s.host.Sound := hturning.table.host
  obtain ⟨hu, hnew⟩ := Nonblocking.accept_spec hsound l
  rw [haccept] at hu hnew
  obtain ⟨-, hw⟩ := hnew rfl
  have hentered : Host.Only (some arrival.stream) s.host h := Host.only_entered hl
  have hdevice := Host.device?_entered hl
  have hfar : h.device? d = some (.stream arrival.stream .far) := (hdevice d).trans (if_pos rfl)
  have hroom : s.connections.slots.entries.length < h.devices.length :=
    (Host.length_entered ..).symm ▸ Nat.lt_succ_of_le hd.settled.counted
  have hd' : ((s.onHost fun _ => h).scene batch).Dispatching fixed arms := ⟨hd.settled.onHost hu hentered, hd.lively⟩
  have honly : Connections.Only (some arrival.stream) s.connections
      ((s.onHost fun _ => h).welcome d arrival.peer).server.connections := by
    rw [welcome_connections]
    exact (Connections.only_onHost hentered).trans
      (Connections.only_insert (c := s.connections.onHost fun _ => h) hd'.settled.unhindered htidy hfar arrival.peer)
  refine ⟨fun _ => honly.host.length, fun _ => dispatching_welcome hd' hfar hw hroom arrival.peer,
    fun _ hfits {i near v} hm => ?_⟩
  by_cases hi : arrival.stream = i
  · subst hi
    obtain ⟨stream, rfl⟩ := hm.waiting_of_waits hsound ⟨_, hl, arrival, List.mem_cons_self, rfl⟩
    have hclient : s.host.device? near = some (.stream arrival.stream .near) := hm.client
    have hne : near ≠ l := fun he => by
      rw [he, hl] at hclient
      cases hclient
    have hnear : h.device? near = some (.stream arrival.stream .near) := by
      rw [hdevice, if_neg (Nat.ne_of_lt (Host.lt_length_of_device? hclient)), if_neg hne, hclient]
    have hkey : Token.base + s.connections.slots.nextKey < UInt64.size := by
      have hle : s.connections.slots.nextKey ≤ s.host.devices.length :=
        Nat.le_trans (Slots.nextKey_le htidy) hd.settled.counted
      rw [Nat.add_comm]
      exact Nat.lt_of_le_of_lt (Nat.add_le_add_right (Nat.le_trans hle honly.host.length) _) hfits
    obtain ⟨hstreams, hqueue⟩ := s.host.entered_frame l arrival rest
    have hstream : h.streams[arrival.stream]? = some stream := by
      rw [show h.streams = _ from hstreams]
      exact hm.stream
    exact ⟨_, .one rfl, mirrors_welcome hd' hprotocol hnear hfar hstream hw
      (fun hq => Nat.lt_irrefl _ (hd.settled.unhindered.queued d (hqueue ▸ hq))) hkey arrival.peer⟩
  · refine ⟨v, .refl, hm.of_only (fun he => hi (Option.some.inj he)) honly fun _ _ hhas => ⟨?_, rfl⟩⟩
    rcases (s.onHost fun _ => h).welcome_cases d arrival.peer with ⟨-, -, -, hs⟩ | ⟨-, -, hs⟩
    · rw [hs]
      exact hhas.works
    · rw [hs]
      exact hhas.works.push_other hturning.law _ _

/-! ## Batches -/

/-- what no turn of the loop changes: the protocol, the listener and the signals, and the size of the buffer -/
structure Alike (s s' : Server X) : Prop where
  protocol : s'.engine.protocol = s.engine.protocol
  standing : s'.standing = s.standing
  capacity : s'.events.capacity = s.events.capacity

theorem Alike.refl (s : Server X) : Alike s s := ⟨rfl, rfl, rfl⟩

theorem Alike.trans {s s' s'' : Server X} (h : Alike s s') (h' : Alike s' s'') : Alike s s'' :=
  ⟨h'.protocol.trans h.protocol, h'.standing.trans h.standing, h'.capacity.trans h.capacity⟩

theorem alike_onHost (s : Server X) (change : Host → Host) : Alike s (s.onHost change) := ⟨rfl, rfl, rfl⟩

theorem alike_welcome (s : Server X) (d : Descriptor) (peer : Address) : Alike s (s.welcome d peer).server := by
  rcases s.welcome_cases d peer with ⟨-, -, -, hs⟩ | ⟨-, -, hs⟩
  · rw [hs]
    exact ⟨rfl, rfl, rfl⟩
  · rw [hs]
    exact ⟨rfl, rfl, rfl⟩

theorem alike_acceptUpTo (limit : Nat) (s : Server X) : Alike s (s.acceptUpTo limit).server := by
  induction limit generalizing s with
  | zero => exact .refl s
  | succ limit ih =>
    have haccepted := s.alike_onHost fun _ => (Nonblocking.accept s.host s.listener).1
    unfold acceptUpTo
    dsimp only
    split
    · exact haccepted
    · exact haccepted
    · exact (haccepted.trans (alike_welcome ..)).trans (ih _)

theorem alike_handle (s : Server X) (r : Readiness) : Alike s (s.handle r).1.server := by
  unfold handle
  cases r.token with
  | listener => exact alike_acceptUpTo ..
  | signals =>
    have hread := s.alike_onHost fun _ => (s.signals.read s.host).1
    simp only [readSignal]
    split <;> exact hread
  | connection key =>
    simp only [resume, foldl_wake]
    exact ⟨rfl, rfl, rfl⟩

theorem alike_dispatch (s : Server X) (reports : List Readiness) : Alike s (s.dispatch reports).1.server := by
  induction reports generalizing s with
  | nil => exact .refl s
  | cons r rest ih =>
    have hfirst := s.alike_handle r
    unfold dispatch
    dsimp only
    cases (s.handle r).2 with
    | some signal => exact hfirst
    | none => exact hfirst.trans (ih _)

/-- the connections that wait are taken in one after another -/
theorem passes_acceptUpTo (limit : Nat) (hprotocol : s.engine.protocol = protocol) :
    Passes protocol arms (Dispatching fixed arms) (s.scene batch) ((s.acceptUpTo limit).server.scene batch) := by
  induction limit generalizing s with
  | zero => exact .refl _
  | succ limit ih =>
    refine .of_inv fun hd => ?_
    have hu : s.host.Unhindered := hd.settled.unhindered
    have hsound : s.host.Sound := hd.settled.sound.host
    rcases Nonblocking.accept_cases hu s.listener with ⟨arrival, rest, hl, haccept⟩ | ⟨hnone, honly⟩
    · have hwelcome : Passes protocol arms (Dispatching fixed arms) (s.scene batch) _ :=
        passes_welcome hprotocol hl haccept
      simp only [acceptUpTo, haccept]
      exact hwelcome.trans (ih ((alike_welcome ..).protocol.trans hprotocol))
    · obtain ⟨hundisturbed, -⟩ := Nonblocking.accept_spec hsound s.listener
      have hfailed : Passes protocol arms (Dispatching fixed arms) (s.scene batch)
          ((s.onHost fun _ => (Nonblocking.accept s.host s.listener).1).scene batch) := passes_onHost hundisturbed honly
      unfold acceptUpTo
      dsimp only
      split
      · exact hfailed
      · exact hfailed
      · next he => exact absurd he (hnone _)

theorem passes_handle (s : Server X) (r : Readiness) (hprotocol : s.engine.protocol = protocol) :
    Passes protocol arms (Dispatching fixed arms) (s.scene (r :: batch)) ((s.handle r).1.server.scene batch) := by
  have hdrop : (∀ key, r.token ≠ .connection key) →
      Passes protocol arms (Dispatching fixed arms) (s.scene (r :: batch)) (s.scene batch) := passes_drop rfl
  unfold handle
  cases hr : r.token with
  | listener => exact (hdrop (by simp [hr])).trans (passes_acceptUpTo _ hprotocol)
  | signals =>
    refine (hdrop (by simp [hr])).trans (.of_inv fun hd => ?_)
    have hsound : s.host.Sound := hd.settled.sound.host
    have hread : s.signals.read s.host = ((s.host.readSignal s.signals.descriptor).1,
        (s.host.readSignal s.signals.descriptor).2.map .ofNumber) := by
      rw [SignalSource.read, show s.host.elapse = s.host from Host.elapse_eq hd.settled.unhindered.others]
    have hpasses : Passes protocol arms (Dispatching fixed arms) (s.scene batch)
        ((s.onHost fun _ => (s.host.readSignal s.signals.descriptor).1).scene batch) :=
      passes_onHost (Host.undisturbed_readSignal hsound _) (Host.only_readSignal ..)
    simp only [readSignal, hread]
    split <;> exact hpasses
  | connection key =>
    have hresumed : Passes protocol arms (Dispatching fixed arms) (s.scene (r :: batch))
        ((s.scene (r :: batch)).resumed key r batch) := passes_resumed rfl hr
    simp only [resume, foldl_wake]
    exact hresumed

/-- reports are dealt with one after another, as long as none of them stops the server -/
theorem passes_dispatch (reports : List Readiness) (hprotocol : s.engine.protocol = protocol)
    (hstop : (s.dispatch reports).2 = none) :
    Passes protocol arms (Dispatching fixed arms) (s.scene reports) ((s.dispatch reports).1.server.scene []) := by
  induction reports generalizing s with
  | nil => exact .refl _
  | cons r rest ih =>
    have hfirst : Passes protocol arms (Dispatching fixed arms) (s.scene (r :: rest)) _ :=
      passes_handle s r hprotocol
    unfold dispatch at hstop ⊢
    dsimp only at hstop ⊢
    cases hh : (s.handle r).2 with
    | some signal => simp [hh] at hstop
    | none =>
      simp only [hh] at hstop ⊢
      exact hfirst.trans (ih ((s.alike_handle r).protocol.trans hprotocol) hstop)

end Server

/-! ## Runs of a task -/

theorem Host.Berths.due_le_unread {h : Host} {m : Mooring} {b : Berth} (hb : h.Berths m b) : b.due ≤ h.unread := by
  have hsum : ∀ {streams : List Stream} {s : Stream}, s ∈ streams →
      s.unread ≤ streams.foldr (fun s count => s.unread + count) 0 := fun {streams s} hm => by
    induction streams with
    | nil => cases hm
    | cons t rest ih =>
      rcases List.mem_cons.1 hm with rfl | hm
      · exact Nat.le_add_right ..
      · exact Nat.le_trans (ih hm) (Nat.le_add_left ..)
  exact Nat.le_trans b.stream.due_le_unread
    (Nat.le_trans (hsum (List.mem_of_getElem? hb.stream)) (Nat.le_add_right ..))

/-- a task parks its handle on its own connection -/
theorem owns_talk {α : Type} {O : Nat → Handle → Prop} {self : Handle} (place : Place) (hself : O place.slot self)
    (talk : Http.Talk α) {site : Site Handle} (ho : site.connections.Owns O) :
    (talk.run (Engine.transport id self place) site).1.connections.Owns O ∧
      (talk.run (Engine.transport id self place) site).1.connections.slots.entries.length =
        site.connections.slots.entries.length := by
  have hall := Http.Talk.run_keeps (T := Engine.transport id self place)
    (I := fun s => s.connections.Owns O ∧
      s.connections.slots.entries.length = site.connections.slots.entries.length)
    (fun {s} count ⟨ho, hl⟩ => ?_) (fun {s} bytes ⟨ho, hl⟩ => ?_) (fun {s} ⟨ho, hl⟩ => ?_) (fun _ h => h) talk ⟨ho, rfl⟩
  · exact hall
  · have hamends := s.connections.amends_recv place.slot self count
    exact ⟨ho.amends hamends fun h he => he ▸ hself, hamends.entries.trans hl⟩
  · have hamends := s.connections.amends_send place.slot self bytes
    exact ⟨ho.amends hamends fun h he => he ▸ hself, hamends.entries.trans hl⟩
  · have hamends : Connections.Amends (fun _ => False) place.slot s.connections (s.connections.shutdown place.slot).1 :=
      .inl (Connections.shutdown_slots ..)
    exact ⟨ho.amends hamends fun _ => False.elim, hamends.entries.trans hl⟩

namespace Scene

variable {t : Tasks Nat (ConnectionTask X)} {site : Site Handle} {slot : Nat} {rest : List Nat}
  {tenant : Tenant Nat (ConnectionTask X)}

/-- the scene of a pump: the connection of a task that has just ended is taken out -/
def pumped (t : Tasks Nat (ConnectionTask X)) (site : Site Handle) (completed : Option (Completed Nat TaskFailure)) :
    Scene X where
  batch := []
  tasks := t
  connections := (completed.elim site (Engine.reclaim site)).connections

/-- the scene once the slot at the head of the queue was run -/
def ran (protocol : Http.Protocol X) (t : Tasks Nat (ConnectionTask X)) (site : Site Handle) (slot : Nat)
    (rest : List Nat) : Scene X :=
  let polled := Tasks.runSlot (Engine.runner protocol id) { t with queue := rest } site slot
  pumped polled.tasks polled.env polled.completed

/-- what a slot's tenant makes of the connections before it goes on or leaves -/
def talked (protocol : Http.Protocol X) (site : Site Handle) (slot : Nat) (tenant : Tenant Nat (ConnectionTask X)) :
    Connections Handle :=
  ((protocol.poll site.connections.notifier.host.unread tenant.work.exchange).run
    (Engine.transport id ⟨slot, tenant.serial⟩ tenant.work.place) site).1.connections

/-- a slot was run: nobody lived there, or the tenant has new work, or the tenant has left and its connection too -/
theorem ran_cases (protocol : Http.Protocol X) (site : Site Handle) (rest : List Nat)
    (hplaced : ∀ {tenant}, t.slots.get? slot = some tenant → tenant.userdata = some tenant.work.place.slot) :
    (t.slots.get? slot = none ∧ (ran protocol t site slot rest).tasks.slots = t.slots ∧
        (ran protocol t site slot rest).connections = site.connections) ∨
      ∃ tenant, t.slots.get? slot = some tenant ∧
        ((∃ work, (ran protocol t site slot rest).tasks.slots = t.slots.set slot { tenant with work }) ∧
            (ran protocol t site slot rest).connections = talked protocol site slot tenant ∨
          (ran protocol t site slot rest).tasks.slots = t.slots.erase slot ∧
            (ran protocol t site slot rest).connections =
              ((talked protocol site slot tenant).remove tenant.work.place.slot).state) := by
  obtain ⟨-, hcases⟩ := Tasks.runSlot_cases (Engine.runner protocol id) { t with queue := rest } site slot
  unfold ran pumped
  rcases hcases with ⟨hnone, hslots, hcompleted, henv⟩ | ⟨tenant, htenant, hcases⟩
  · exact .inl ⟨hnone, hslots, by dsimp only; rw [hcompleted, henv]; rfl⟩
  refine .inr ⟨tenant, htenant, hcases.imp ?_ ?_⟩
  · rintro ⟨hcompleted, hslots, henv⟩
    exact ⟨⟨_, hslots⟩, by dsimp only; rw [hcompleted, henv]; rfl⟩
  · rintro ⟨outcome, hcompleted, hslots, henv⟩
    refine ⟨hslots, ?_⟩
    dsimp only
    rw [hcompleted, henv, hplaced htenant]
    rfl

/-- the run of a task concerns the stream of its connection -/
theorem only_ran (hs : Settled fixed arms ⟨[], t, site.connections⟩) (protocol : Http.Protocol X)
    (hserves : ∀ {tenant}, t.slots.get? slot = some tenant → site.connections.Serves tenant.work.place.slot i)
    (rest : List Nat) : Connections.Only (some i) site.connections (ran protocol t site slot rest).connections := by
  obtain ⟨past, hturning⟩ := hs.turning
  rcases ran_cases protocol site rest hturning.placed with ⟨-, -, hc⟩ | ⟨tenant, htenant, hcases⟩
  · rw [hc]
    exact .refl _ _
  obtain ⟨honly, hserves'⟩ := only_talk ⟨slot, tenant.serial⟩ tenant.work.place
    (protocol.poll site.connections.notifier.host.unread tenant.work.exchange) hs.unhindered (hserves htenant)
  rcases hcases with ⟨-, hc⟩ | ⟨-, hc⟩
  · rw [hc]
    exact honly
  · rw [hc]
    exact honly.trans (Connections.only_remove (honly.host.unhindered hs.unhindered) hserves')

/-- a slot that is to be run is about one stream at most -/
theorem Settled.serves (hs : Settled fixed arms a) (slot : Nat) :
    ∃ i, ∀ {tenant}, a.tasks.slots.get? slot = some tenant → a.connections.Serves tenant.work.place.slot i := by
  cases htenant : a.tasks.slots.get? slot with
  | none => exact ⟨0, fun h => by cases h⟩
  | some tenant =>
    obtain ⟨i, hserves⟩ := hs.sound.serves tenant.work.place.slot
    exact ⟨i, fun h => by cases h; exact hserves⟩

/-- whoever is parked after a run is on the connection of its own task -/
theorem owned_ran (hplaced : ∀ {slot tenant}, t.slots.get? slot = some tenant →
      tenant.userdata = some tenant.work.place.slot) (howned : site.connections.Owns t.Of)
    (protocol : Http.Protocol X) (slot : Nat) (rest : List Nat) :
    (ran protocol t site slot rest).connections.Owns (ran protocol t site slot rest).tasks.Of ∧
      (ran protocol t site slot rest).connections.slots.entries.length = site.connections.slots.entries.length := by
  rcases ran_cases protocol site rest hplaced with ⟨-, hslots, hc⟩ | ⟨tenant, htenant, hcases⟩
  · rw [hc, Tasks.of_congr hslots]
    exact ⟨howned, rfl⟩
  have huser : tenant.userdata = some tenant.work.place.slot := hplaced htenant
  obtain ⟨htalked, hlength⟩ := owns_talk tenant.work.place (show t.Of tenant.work.place.slot ⟨slot, tenant.serial⟩ from
    ⟨tenant, htenant, rfl, huser⟩) (protocol.poll site.connections.notifier.host.unread tenant.work.exchange) howned
  rcases hcases with ⟨⟨work, hslots⟩, hc⟩ | ⟨hslots, hc⟩
  · rw [hc]
    refine ⟨fun key conn hg h hm => ?_, hlength⟩
    obtain ⟨old, hold, hserial, hdata⟩ := htalked key conn hg h hm
    have hget := (congrArg (·.get? h.slot) hslots).trans (Slots.get?_set htenant _ _)
    by_cases he : h.slot = slot
    · rw [he, htenant] at hold
      cases hold
      exact ⟨_, hget.trans (if_pos he), hserial, hdata⟩
    · exact ⟨old, hget.trans ((if_neg he).trans hold), hserial, hdata⟩
  · rw [hc, Connections.remove_slots, Slots.length_erase]
    refine ⟨fun key conn hg h hm => ?_, hlength⟩
    rw [Connections.get?, Connections.remove_slots, Slots.get?_erase] at hg
    split at hg
    · cases hg
    · next hkey =>
      obtain ⟨old, hold, hserial, hdata⟩ := htalked key conn hg h hm
      have hget := (congrArg (·.get? h.slot) hslots).trans (Slots.get?_erase ..)
      have hne : h.slot ≠ slot := fun he => by
        rw [he, htenant] at hold
        cases hold
        exact hkey (Option.some.inj (hdata.symm.trans huser))
      exact ⟨old, hget.trans ((if_neg hne).trans hold), hserial, hdata⟩

theorem settled_ran (hs : Settled fixed arms ⟨[], t, site.connections⟩) (protocol : Http.Protocol X)
    (hq : t.queue = slot :: rest) : (ran protocol t site slot rest).Settled fixed arms := by
  obtain ⟨past, hturning⟩ := hs.turning
  obtain ⟨howned, hlength⟩ := owned_ran hturning.placed hs.owned protocol slot rest
  obtain ⟨i, hserves⟩ := hs.serves slot
  have honly := only_ran hs protocol hserves rest
  have hrun := turning_runSlot protocol hturning rfl hq
  have hturning' : ∃ past, Turning fixed False [] (ran protocol t site slot rest).tasks
      (ran protocol t site slot rest).connections [] past := by
    unfold ran pumped
    dsimp only
    cases hc : (Tasks.runSlot (Engine.runner protocol id) { t with queue := rest } site slot).completed with
    | none =>
      rw [hc] at hrun
      exact ⟨_, hrun⟩
    | some done =>
      rw [hc] at hrun
      exact ⟨_, Turning.reclaim done hrun⟩
  exact ⟨hturning', howned, fun r hm => (by cases hm), honly.host.unhindered hs.unhindered,
    Nat.le_trans (Nat.le_of_eq hlength) (Nat.le_trans hs.counted honly.host.length), honly.arms.trans hs.arms⟩

/-- the task of a client's connection is run: its view turns -/
theorem mirrors_ran (hs : Settled fixed arms ⟨[], t, site.connections⟩) (hlocal : protocol.Local) {m : Mooring}
    {b : Berth} {x : X} {told : Option Conditions} {ready : Bool}
    (hhas : (⟨[], t, site.connections⟩ : Scene X).Has m b x told ready) (hq : t.queue = m.self.slot :: rest) :
    told = none ∧ ready = true ∧
      (ran protocol t site m.self.slot rest).Mirrors m.stream m.near (View.turned protocol arms b x) := by
  have htold : told = none := by
    have h : ([] : List Readiness) = told.toList.map (·.report m.key) := hhas.told
    cases told with
    | none => rfl
    | some shown => cases h
  obtain ⟨hready, henv, hcases⟩ := hhas.works.run_own hq protocol site
  have hdue : b.due ≤ site.connections.notifier.host.unread := hhas.holds.host.due_le_unread
  obtain ⟨hholds, hvalue⟩ := hhas.holds.talk ⟨m.key, m.peer⟩ (hlocal x hdue (Nat.le_refl _)) hs.sound
    hs.unhindered hs.arms rfl (Nat.le_refl _)
  refine ⟨htold, hready, ?_⟩
  let after := (protocol.poll site.connections.notifier.host.unread x).run
    (Engine.transport id m.self ⟨m.key, m.peer⟩) site
  unfold View.turned ran pumped
  dsimp only at henv hcases ⊢
  rw [← hvalue]
  rcases hcases with ⟨hwaiting, hcompleted, hworks⟩ | ⟨hended, outcome, hcompleted⟩
  · rw [hcompleted, hwaiting]
    have hhas' : (⟨[], _, _⟩ : Scene X).Has m _ _ none _ := ⟨henv ▸ hholds, hworks, rfl⟩
    exact hhas'.mirrors
  · obtain ⟨past, hturning⟩ := hs.turning
    have hself : t.Of m.key m.self := ⟨_, hhas.works.tenant, rfl, rfl⟩
    obtain ⟨hsound, -, -⟩ := run_transport hself ⟨m.key, m.peer⟩
      (protocol.poll site.connections.notifier.host.unread x) hs.sound hturning.arming
    have hserves : site.connections.Serves m.key m.stream := fun hg => by
      rw [hhas.holds.conn] at hg
      cases hg
      exact hhas.holds.host.far
    obtain ⟨honly, -⟩ := only_talk m.self ⟨m.key, m.peer⟩
      (protocol.poll site.connections.notifier.host.unread x) hs.unhindered hserves
    obtain ⟨hgone, hnear, hstream⟩ := hholds.remove hsound.host (honly.host.unhindered hs.unhindered)
    have hremoved : (Engine.reclaim (Tasks.runSlot (Engine.runner protocol id) { t with queue := rest } site
        m.self.slot).env ⟨m.self.serial, some m.key, outcome⟩).connections =
          (after.1.connections.remove m.key).state := by
      rw [← henv]
      rfl
    rw [hcompleted]
    simp only [Option.elim_some, hremoved]
    cases he : after.2.ended with
    | waiting => exact absurd he hended
    | complete => exact ⟨hnear, hstream, hgone⟩
    | failed failure => exact ⟨hnear, hstream, hgone⟩

/-- a run of a slot is felt by the client alone whose connection it is about -/
theorem passes_ran (hlocal : protocol.Local) (hq : t.queue = slot :: rest) :
    Passes protocol arms (Settled fixed arms) ⟨[], t, site.connections⟩ (ran protocol t site slot rest) := by
  refine .of_inv fun hs => ?_
  obtain ⟨past, hturning⟩ := hs.turning
  obtain ⟨i, hserves⟩ := hs.serves slot
  have hwoken : ∀ {tenant}, t.slots.get? slot = some tenant → ∀ h ∈
      ((Engine.runner protocol id).run ⟨slot, tenant.serial⟩ site tenant.work).woken, h = ⟨slot, tenant.serial⟩ :=
    fun _ h hm => woken_runner protocol _ site _ h hm
  refine ⟨fun _ => (only_ran hs protocol hserves rest).host.length, fun _ => settled_ran hs protocol hq,
    fun _ _ {i near v} hm => ?_⟩
  cases htenant : t.slots.get? slot with
  | none =>
    have honly := only_ran (i := i + 1) hs protocol (fun h => by rw [htenant] at h; cases h) rest
    refine ⟨v, .refl, hm.of_only (by simp) honly fun _ _ hhas =>
      ⟨hhas.works.run_other hturning.law _ _ hq ?_ hwoken, rfl⟩⟩
    rintro rfl
    rw [hhas.works.tenant] at htenant
    cases htenant
  | some tenant =>
    rcases hm.cases_key hs.sound tenant.work.place.slot with
      ⟨m, b, exchange, told, ready, rfl, rfl, rfl, hhas, hkey⟩ | ⟨id, hid, hserves, hother⟩
    · -- two tasks of one connection are one
      have huser : tenant.userdata = some m.key := hkey ▸ hturning.placed htenant
      obtain ⟨own, -, hunique⟩ := hturning.served hhas.holds.conn
      obtain rfl : slot = m.self.slot :=
        (hunique slot ⟨tenant, htenant, huser⟩).trans (hunique _ ⟨_, hhas.works.tenant, rfl⟩).symm
      obtain ⟨rfl, rfl, hmirrors⟩ := mirrors_ran hs hlocal hhas hq
      exact ⟨_, .one rfl, hmirrors⟩
    · have honly := only_ran hs protocol (fun h => by rw [htenant] at h; cases h; exact hserves) rest
      refine ⟨v, .refl, hm.of_only hid honly fun hv hi hhas =>
        ⟨hhas.works.run_other hturning.law _ _ hq ?_ hwoken, rfl⟩⟩
      rintro rfl
      have hsame := htenant.symm.trans hhas.works.tenant
      cases hsame
      exact hother hv hi hhas rfl

/-! ## Pumps -/

/-- a pump runs slots one after another, and takes the connections of tasks that end out -/
theorem passes_pump (hlocal : protocol.Local) {e : Engine X} (hprotocol : e.protocol = protocol) {limit : Nat}
    {report : PumpTally} {p : Pumped X Handle} (hp : e.pumpUpTo id limit site report = some p) :
    Passes protocol arms (Settled fixed arms) ⟨[], e.tasks, site.connections⟩
        ⟨[], p.engine.tasks, p.site.connections⟩ ∧ p.engine.protocol = protocol := by
  induction limit generalizing e site report p with
  | zero => cases hp
  | succ limit ih =>
    unfold Engine.pumpUpTo at hp
    cases hpoll : e.tasks.poll (Engine.runner e.protocol id) limit site with
    | none =>
      rw [hpoll] at hp
      cases hp
    | some polled =>
      rw [hpoll] at hp
      subst hprotocol
      obtain ⟨hpolled, -⟩ := Tasks.poll_keeps
        (P := fun t (env : Site Handle) completed _ => Passes e.protocol arms (Settled fixed arms)
          ⟨[], e.tasks, site.connections⟩ (pumped t env completed))
        (fun h hq => h.trans (passes_ran hlocal hq)) [] (.refl _) hpoll
      dsimp only at hp
      cases hc : polled.completed with
      | none =>
        rw [hc] at hp hpolled
        cases hp
        exact ⟨hpolled, rfl⟩
      | some done =>
        simp only [hc, Option.map_eq_some_iff] at hp
        obtain ⟨q, hq, rfl⟩ := hp
        rw [hc] at hpolled
        obtain ⟨hrest, hsame⟩ := ih (e := { e with tasks := polled.tasks }) rfl hq
        exact ⟨hpolled.trans hrest, hsame⟩

end Scene

namespace Server

open Scene

variable {s : Server X}

/-- the engine is pumped before a wait -/
theorem passes_prepare (hlocal : protocol.Local) (hprotocol : s.engine.protocol = protocol) {limit : Nat}
    {w : Worked X} (hw : s.prepare limit = some w) :
    Passes protocol arms (Settled fixed arms) (s.scene []) (w.server.scene []) ∧ Alike s w.server := by
  simp only [prepare, Option.map_eq_some_iff] at hw
  obtain ⟨pumped, hp, rfl⟩ := hw
  obtain ⟨hpasses, hsame⟩ := passes_pump hlocal hprotocol hp
  exact ⟨hpasses, hsame.trans hprotocol.symm, rfl, rfl⟩

end Server

end EventServer
