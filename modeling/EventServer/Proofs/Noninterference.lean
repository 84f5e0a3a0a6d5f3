/-
Connections do not interfere.

`Client.Experience` are the runs of a server that one client takes part in, with what the client did and what it found
out by that. All others act as they like, and after everything that the client does the server is run until a wait would
not end. `Client.Alone` is what the client would find out if there were nobody else: what it does and what the server
makes of it are steps of its own view, and these are determined. Every experience is one of a client alone
(`Experience.alone`), so two clients that do the same find out the same (`noninterference`).
-/
import EventServer.Proofs.Waiting

namespace EventServer

variable {X : Type} {fixed : List Watch} {arms : Bool} {protocol : Http.Protocol X}

/-! ## Setting up -/

namespace Host

variable {h : Host} {d : Descriptor}

theorem Unhindered.opened (hu : h.Unhindered) (device : Device) : (h.opened device).1.Unhindered := by
  have hlength : (h.opened device).1.devices.length = h.devices.length + 1 := List.length_append ..
  exact ⟨hu.others, hu.accept, hu.unblock, hu.watch, hu.rewatch, fun d hd => hlength ▸ Nat.lt_succ_of_lt (hu.queued d hd), hu.once⟩

/-- a source of signals is opened -/
theorem Unhindered.created (hu : h.Unhindered) (mask : List Int) : (SignalSource.create h mask).1.Unhindered := by
  let blocked := h.blocked ++ (mask.filter fun n => !unstoppable.contains n && !h.blocked.contains n).eraseDups
  have hblocked : ({ h with blocked } : Host).Unhindered :=
    ⟨hu.others, hu.accept, hu.unblock, hu.watch, hu.rewatch, hu.queued, hu.once⟩
  exact hblocked.opened (.signalSource mask)

theorem device?_created (h : Host) (mask : List Int) (d : Descriptor) :
    (SignalSource.create h mask).1.device? d =
      if d = (SignalSource.create h mask).2.descriptor then some (.signalSource mask) else h.device? d := by
  let blocked := h.blocked ++ (mask.filter fun n => !unstoppable.contains n && !h.blocked.contains n).eraseDups
  exact device?_opened (h := { h with blocked }) (.signalSource mask) d

/-- watching what is no stream -/
theorem Unhindered.watching (hu : h.Unhindered) {device : Device} (hd : h.device? d = some device)
    (hstream : ∀ i side, device ≠ .stream i side) (word : UInt64) (interest : Interest) :
    (h.watch d word interest).1.Unhindered := by
  obtain ⟨-, hspent, -⟩ := only_spent h
  have hspent := hspent.unhindered hu
  unfold Host.watch
  dsimp only
  split
  · exact hspent
  · exact hspent
  · split
    · exact hspent
    · have hwatching : ({ h with
          refusals := { h.refusals with watch := h.refusals.watch.tail }
          watches := h.watches ++ [⟨d, word, interest⟩] } : Host).Unhindered :=
        ⟨hspent.others, hspent.accept, hspent.unblock, hspent.watch, hspent.rewatch, hspent.queued, hspent.once⟩
      split
      · have honly := only_enqueue (x := none) (h := { h with
          refusals := { h.refusals with watch := h.refusals.watch.tail }
          watches := h.watches ++ [⟨d, word, interest⟩] }) (d := d) hd fun he => absurd he (hstream _ _)
        exact honly.unhindered hwatching
      · exact hwatching

end Host

/-- registering what is no stream -/
theorem Notifier.unhindered_register {n : Notifier} {d : Descriptor} (hu : n.host.Unhindered) {device : Device}
    (hd : n.host.device? d = some device) (hstream : ∀ i side, device ≠ .stream i side) (token : Token)
    (interest : Interest) : (n.register d token interest).state.host.Unhindered ∧
      ∀ e, (n.register d token interest).state.host.device? e = n.host.device? e := by
  unfold register
  cases token.word? with
  | none => exact ⟨hu, fun _ => rfl⟩
  | some word =>
    have hwatching := hu.watching hd hstream word interest
    have hsame := n.host.device?_watch d word interest
    dsimp only
    rw [Host.elapse_eq hu.others]
    split <;> exact ⟨hwatching, hsame⟩

namespace Server

open Scene

variable {s first : Server X} {host : Host} {settings : Settings}

/-- the parts of a server that was put together -/
theorem assemble_eq {h : Host} {listener : Descriptor}
    (hs : (assemble h settings protocol listener).server = .ok s) :
    let created := SignalSource.create h (ShutdownSignal.all.map (·.number))
    let first := ({ host := created.1 } : Notifier).register listener .listener .reading
    s =
      { engine := .empty protocol
        connections := .empty (first.state.register created.2.descriptor .signals .reading).state settings.armWrites
        listener
        signals := created.2
        events := .ofCapacity settings.maxEvents } := by
  unfold assemble at hs
  dsimp only at hs ⊢
  split at hs
  · cases hs
  · dsimp only at hs
    split at hs
    · cases hs
    · exact (Except.ok.inj hs).symm

/-- nobody hinders a server that was put together in a host where nobody hinders -/
theorem unhindered_assemble {h : Host} (hu : h.Unhindered) {listener : Descriptor}
    (hl : h.device? listener = some (.listener []))
    (hs : (assemble h settings protocol listener).server = .ok s) : s.host.Unhindered := by
  have hcreated := hu.created (ShutdownSignal.all.map (·.number))
  have hdevice := h.device?_created (ShutdownSignal.all.map (·.number))
  have hparts := assemble_eq hs
  dsimp only at hparts
  generalize SignalSource.create h (ShutdownSignal.all.map (·.number)) = created at hcreated hdevice hparts
  obtain ⟨h', signals⟩ := created
  have hlistener : ∃ device, h'.device? listener = some device ∧ ∀ i side, device ≠ .stream i side := by
    have hd := hdevice listener
    split at hd
    · exact ⟨_, hd, fun _ _ he => by cases he⟩
    · exact ⟨_, hd.trans hl, fun _ _ he => by cases he⟩
  obtain ⟨device, hd, hstream⟩ := hlistener
  obtain ⟨hfirst, hsame⟩ := Notifier.unhindered_register (n := { host := h' }) hcreated hd hstream .listener .reading
  have hsource := (hsame signals.descriptor).trans ((hdevice _).trans (if_pos rfl))
  obtain ⟨hsecond, -⟩ := Notifier.unhindered_register hfirst hsource (fun _ _ he => by cases he) .signals .reading
  rw [hparts]
  exact hsecond

/-- a server that was bound has nothing to deal with yet -/
theorem settled_bind (hh : host.Sound) (hw : host.watches = []) (hu : host.Unhindered)
    (hb : (bind host settings protocol).server = .ok first) :
    (first.scene []).Settled first.standing settings.armWrites ∧ first.engine.protocol = protocol ∧
      0 < first.events.capacity := by
  have hupholds := upholds_bind False hh hw False.elim hb
  have hassembled := assembled_of_bind hb
  have hunhindered := unhindered_assemble (hu.opened _) ((Host.device?_opened ..).trans (if_pos rfl)) hassembled
  have hparts := assemble_eq hassembled
  have hslots : first.connections.slots = .empty := by rw [hparts]; rfl
  have hget : ∀ key, first.connections.get? key = none := fun key => by rw [Connections.get?, hslots, Slots.get?_empty]
  refine ⟨⟨⟨[], hupholds.toTurning⟩, fun key conn hg => ?_, fun r hm => ?_, hunhindered, ?_, ?_⟩, ?_, ?_⟩
  · rw [show (first.scene []).connections.get? key = none from hget key] at hg
    cases hg
  · cases hm
  · rw [show (first.scene []).connections.slots = _ from hslots]
    exact Nat.zero_le _
  · rw [hparts]
    rfl
  · rw [hparts]
    rfl
  · rw [hparts]
    exact Nat.lt_of_lt_of_le Nat.zero_lt_one (Nat.le_max_right ..)

end Server

/-! ## What a client does -/

namespace View

variable {α : Type}

/-- an operation of the client at its end of the stream, and what it gives -/
def apply (operation : Stream → Stirred α) : View X → View X × α
  | waiting stream => (waiting (operation stream).stream, (operation stream).value)
  | gone stream => (gone (operation stream).stream, (operation stream).value)
  | served b x told ready => (served (b.apply operation).1 x told ready, (b.apply operation).2)

end View

namespace Scene

variable {a : Scene X} {i : Nat} {near : Descriptor} {v : View X} {α : Type}

/-- an operation on a stream whose far end nobody has is felt by nobody -/
theorem onStream_near {h : Host} (hs : h.Sound) {stream : Stream} (hstream : h.streams[i]? = some stream)
    (hfar : ∀ d, h.device? d ≠ some (.stream i .far)) (operation : Stream → Stirred α) (otherwise : α)
    (hk : (operation stream).stream.Sound) :
    h.onStream i operation otherwise =
      ({ h with streams := h.streams.set i (operation stream).stream }, (operation stream).value) := by
  have hnobody : ∀ d, ({ h with streams := h.streams.set i (operation stream).stream } : Host).device? d ≠
    some (.stream i .far) := hfar
  simp only [Host.onStream, hstream, Host.stirEnds_near (hs.setStream i hk) hnobody]

/-- what the client does at its end it does to its view, with the same result -/
theorem Mirrors.onStream (hm : a.Mirrors i near v) (hs : a.host.Sound) (operation : Stream → Stirred α)
    (otherwise : α) (hk : ∀ s : Stream, s.Sound → (operation s).stream.Sound) :
    ({ a with connections := a.connections.onHost fun _ => (a.host.onStream i operation otherwise).1 } :
        Scene X).Mirrors i near (v.apply operation).1 ∧
      (a.host.onStream i operation otherwise).2 = (v.apply operation).2 := by
  have hi := (List.getElem?_eq_some_iff.1 hm.stream).1
  have hsound := hk _ (hs.streams _ (List.mem_of_getElem? hm.stream))
  cases v with
  | waiting stream =>
    obtain ⟨hfar, l, word, hwaits, hwatch, hqueued⟩ := hm.places
    rw [onStream_near hs hm.stream hfar operation otherwise hsound]
    exact ⟨⟨hm.client, List.getElem?_set_self hi, hfar, l, word, hwaits, hwatch, hqueued⟩, rfl⟩
  | gone stream =>
    have hgone : a.host.Gone i := hm.places
    rw [onStream_near hs hm.stream hgone.far operation otherwise hsound]
    exact ⟨⟨hm.client, List.getElem?_set_self hi, ⟨hgone.far, hgone.waits⟩⟩, rfl⟩
  | served b x told ready =>
    obtain ⟨m, rfl, rfl, hhas⟩ := hm.places
    obtain ⟨hafter, hvalue⟩ := hhas.holds.host.onStream hs operation otherwise hsound
    have hhas' : ({ a with connections := a.connections.onHost fun _ =>
        (a.host.onStream m.stream operation otherwise).1 } : Scene X).Has m (b.apply operation).1 x told ready :=
      ⟨hhas.holds.onHost hafter rfl, hhas.works, hhas.told⟩
    exact ⟨hhas'.mirrors, hvalue⟩

/-- what others do is felt by no client that is connected -/
theorem Mirrors.act (hm : a.Mirrors i near v) (hs : a.host.Sound) {deed : Deed} (hd : deed.client? ≠ some near) :
    ({ a with connections := a.connections.onHost (·.act deed) } : Scene X).Mirrors i near v := by
  refine hm.of_only (fun he => ?_) (Connections.only_onHost (a.host.only_act deed)) fun _ _ hhas => ⟨hhas.works, rfl⟩
  obtain ⟨d, hdeed, hclient⟩ := Option.bind_eq_some_iff.1 he
  exact hd (hdeed.trans (congrArg some (hs.once (Host.client?_eq_some.1 hclient) hm.client)))

/-- a client that is connected waits to be accepted -/
theorem mirrors_connect (hs : a.host.Sound) {l : Descriptor} {word : UInt64}
    (hw : a.host.watch? l = some ⟨l, word, .reading⟩) {self : Address} {h : Host}
    (hc : a.host.connect l self = (h, .ok near)) :
    ({ a with connections := a.connections.onHost fun _ => h } : Scene X).Mirrors a.host.streams.length near
      (.waiting { family := .inet }) := by
  let id := a.host.streams.length
  unfold Host.connect at hc
  split at hc
  · cases hc
  split at hc
  next backlog hl =>
    let opened := (({ a.host with streams := a.host.streams ++ [{ family := .inet }] } : Host).opened
      (.stream id .near)).1
    let waiting := opened.setDevice l (some (.listener (backlog ++ [⟨id, self⟩])))
    have hlt := Host.lt_length_of_device? hl
    have hopened : ∀ d, opened.device? d = if d = a.host.devices.length then some (.stream id .near)
        else a.host.device? d := fun d => Host.device?_opened ..
    have hl' : opened.device? l = some (.listener backlog) := by rw [hopened, if_neg (Nat.ne_of_lt hlt), hl]
    have hwaiting : ∀ d, waiting.device? d = if d = l then some (.listener (backlog ++ [⟨id, self⟩]))
        else if d = a.host.devices.length then some (.stream id .near) else a.host.device? d := fun d => by
      rw [show waiting.device? d = _ from Host.device?_setDevice hl' .., hopened]
    have hwatch : waiting.watch? l = some ⟨l, word, .reading⟩ := hw
    have hqueued : l ∈ (waiting.stir l .input).queue := Host.mem_queue_stir hwatch rfl
    obtain ⟨q, hq, -⟩ := waiting.stir_eq l .input
    have hh : waiting.stir l .input = h := congrArg Prod.fst hc
    have hnear : a.host.devices.length = near := Except.ok.inj (congrArg Prod.snd hc)
    rw [hq] at hqueued
    rw [← hh, hq, ← hnear]
    refine ⟨(hwaiting _).trans ?_, List.getElem?_concat_length, fun d hd => ?_, l, word,
      ⟨_, (hwaiting l).trans (if_pos rfl), ⟨id, self⟩, by simp, rfl⟩, hw, hqueued⟩
    · rw [if_neg (Nat.ne_of_gt hlt), if_pos rfl]
    · have hd := (hwaiting d).symm.trans hd
      split at hd
      · cases hd
      · split at hd
        · cases hd
        · exact Nat.lt_irrefl _ (hs.known_of_device? hd)
  · cases hc

end Scene

/-! ## Runs that a client takes part in -/

namespace Client

/-- what a client does -/
inductive Act where
  | connect
  | send (bytes : Bytes)
  | recv (count : Nat)
  /-- it shuts its end down for writing -/
  | finish
  | close (abrupt : Bool)
  deriving DecidableEq

/-- what a client finds out by what it does -/
inductive Reply where
  | connected
  | sent (result : Except Errno Nat)
  | received (result : Except Errno Bytes)
  | finished (result : Except Errno Unit)
  | closed
  deriving DecidableEq

/-- what a client does in the host of a server, under which descriptor it is connected before and after, and what it
finds out -/
inductive Does (s : Server X) : Option Descriptor → Act → Server X → Option Descriptor → Reply → Prop where
  | connect {d : Descriptor} (self : Address) :
      (s.host.connect s.listener self).2 = .ok d →
        Does s none .connect (s.onHost (·.act (.connect s.listener self))) (some d) .connected
  | send {d : Descriptor} (bytes : Bytes) :
      Does s (some d) (.send bytes) (s.onHost (·.act (.send d bytes))) (some d) (.sent (s.host.transmit d bytes).2)
  | recv {d : Descriptor} (count : Nat) :
      Does s (some d) (.recv count) (s.onHost (·.act (.recv d count))) (some d)
        (.received (s.host.receive d count).2)
  | finish {d : Descriptor} :
      Does s (some d) .finish (s.onHost (·.act (.finish d))) (some d) (.finished (s.host.finish d).2)
  | close {d : Descriptor} (abrupt : Bool) :
      Does s (some d) (.close abrupt) (s.onHost (·.act (.close d abrupt))) none .closed

/-- the runs of a server that a client takes part in: the server, the descriptor under which the client is connected,
and what the client did with what it found out, the last first -/
inductive Experience (protocol : Http.Protocol X) (arms : Bool) :
    Server X → Option Descriptor → List (Act × Reply) → Prop where
  /-- the server is about to wait for the first time, in a host where nobody hinders it -/
  | start {host : Host} {settings : Settings} {first : Server X} {limit : Nat} {ready : Worked X} :
      host.Sound → host.watches = [] → host.Unhindered → settings.armWrites = arms →
      (Server.bind host settings protocol).server = .ok first → first.prepare limit = some ready →
        Experience protocol arms ready.server none []
  /-- others do what they like, but not in the client's place -/
  | others {s : Server X} {me : Option Descriptor} {log : List (Act × Reply)} (deed : Deed) :
      Experience protocol arms s me log → (∀ d, me = some d → deed.client? ≠ some d) →
        Experience protocol arms (s.onHost (·.act deed)) me log
  /-- the server is run until a wait would not end -/
  | ran {s : Server X} {me : Option Descriptor} {log : List (Act × Reply)} (limit : Nat) :
      Experience protocol arms s me log → (s.run limit).halt = some .blocked →
        Experience protocol arms (s.run limit).server me log
  /-- the client does something, and the server is run until a wait would not end -/
  | did {s s' : Server X} {me me' : Option Descriptor} {log : List (Act × Reply)} {act : Act} {reply : Reply}
      (limit : Nat) :
      Experience protocol arms s me log → Does s me act s' me' reply → (s'.run limit).halt = some .blocked →
        Experience protocol arms (s'.run limit).server me' ((act, reply) :: log)

/-- what a client's doing makes of its view, and what it finds out by it; a client that is not connected has none -/
def Act.alone : Act → Option (View X) → Option (Option (View X) × Reply)
  | connect, none => some (some (.waiting { family := .inet }), .connected)
  | send bytes, some v => some (some (v.apply (·.send .near bytes)).1, .sent (v.apply (·.send .near bytes)).2)
  | recv count, some v => some (some (v.apply (·.recv .near count)).1, .received (v.apply (·.recv .near count)).2)
  | finish, some v => some (some (v.apply (·.finish .near)).1, .finished (v.apply (·.finish .near)).2)
  | close _, some _ => some (none, .closed)
  | _, _ => none

/-- what a client would find out if there were nobody else: after everything that it does its view comes to its end -/
inductive Alone (protocol : Http.Protocol X) (arms : Bool) : Option (View X) → List (Act × Reply) → Prop where
  | start : Alone protocol arms none []
  | did {view moved view' : Option (View X)} {log : List (Act × Reply)} {act : Act} {reply : Reply} :
      Alone protocol arms view log → act.alone view = some (moved, reply) →
      moved.Rel (View.Settles protocol arms) view' → Alone protocol arms view' ((act, reply) :: log)

variable {s s' : Server X} {me me' : Option Descriptor} {log log' : List (Act × Reply)} {act : Act} {reply : Reply}
  {view view' : Option (View X)}

/-- what a client alone does decides what it finds out -/
theorem Alone.unique (h : Alone protocol arms view log) (h' : Alone protocol arms view' log')
    (hacts : log.map (·.1) = log'.map (·.1)) : view = view' ∧ log = log' := by
  induction h generalizing view' log' with
  | start =>
    cases h' with
    | start => exact ⟨rfl, rfl⟩
    | did => cases hacts
  | did _ hact hend ih =>
    cases h' with
    | start => cases hacts
    | did hbefore hact' hend' =>
      obtain ⟨rfl, hsame⟩ := List.cons.inj hacts
      obtain ⟨rfl, rfl⟩ := ih hbefore hsame
      rw [hact] at hact'
      cases hact'
      cases hend with
      | none =>
        cases hend'
        exact ⟨rfl, rfl⟩
      | some hend =>
        cases hend' with
        | some hend' => exact ⟨congrArg some (hend.unique hend'), rfl⟩

/-- the client is connected under a descriptor, and its connection is as its view says; or it is not connected -/
def Sees (s : Server X) (me : Option Descriptor) (view : Option (View X)) : Prop :=
  me.Rel (fun d v => ∃ i, (s.scene []).Mirrors i d v) view

/-- the server's listener is watched -/
theorem watched_listener (hp : s.Poised protocol fixed arms) :
    s.host.watch? s.listener = some ⟨s.listener, 0, .reading⟩ := by
  have hmem : ⟨s.listener, 0, .reading⟩ ∈ fixed := hp.own ▸ List.mem_cons_self
  exact hp.settled.sound.host.watch?_eq (hp.settled.sound.watches.mem_iff.2 (List.mem_append_left _ hmem))

/-- a call of the client's is an operation on its view -/
theorem sees_onStream {α : Type} (hp : s.Poised protocol fixed arms) {i : Nat} {d : Descriptor} {v : View X}
    (hm : (s.scene []).Mirrors i d v) {operation : Stream → Stirred α}
    (hk : ∀ s : Stream, s.Sound → (operation s).stream.Sound) (deed : Deed) {result : Host × α} (otherwise : α)
    (hdeed : s.host.act deed = if (s.host.client? d).isSome then result.1 else s.host)
    (hresult : result = s.host.onStream i operation otherwise) :
    Sees (s.onHost (·.act deed)) (some d) (some (v.apply operation).1) ∧ result.2 = (v.apply operation).2 := by
  obtain ⟨hafter, hvalue⟩ := hm.onStream hp.settled.sound.host operation otherwise hk
  have hclient : s.host.client? d = some i := Host.client?_eq_some.2 hm.client
  have hact : s.onHost (·.act deed) = s.onHost fun _ => (s.host.onStream i operation otherwise).1 := by
    have hdone : s.host.act deed = (s.host.onStream i operation otherwise).1 := by
      rw [← hresult, hdeed, hclient]
      rfl
    have hsame : s.connections.notifier.host.act deed = _ := hdone
    simp only [Server.onHost, Connections.onHost, Notifier.onHost, hsame]
  rw [hact, hresult]
  exact ⟨.some ⟨i, hafter⟩, hvalue⟩

/-- what a client does is a deed -/
theorem Does.deed (hd : Does s me act s' me' reply) : ∃ deed, s' = s.onHost (·.act deed) := by
  cases hd <;> exact ⟨_, rfl⟩

/-- what a client finds out is what its view says -/
theorem Does.alone (hd : Does s me act s' me' reply) (hp : s.Poised protocol fixed arms) (hsees : Sees s me view) :
    ∃ moved, act.alone view = some (moved, reply) ∧ Sees s' me' moved := by
  cases hd with
  | @connect d self hc =>
    cases hsees
    have hconnect : s.host.connect s.listener self = (s.host.act (.connect s.listener self), .ok d) := Prod.ext rfl hc
    have hwaits := Scene.mirrors_connect (a := s.scene []) hp.settled.sound.host (watched_listener hp) hconnect
    exact ⟨some (.waiting { family := .inet }), rfl, .some ⟨_, hwaits⟩⟩
  | close =>
    cases hsees
    exact ⟨none, rfl, .none⟩
  | @send d bytes =>
    obtain ⟨i, hm⟩ := hsees
    obtain ⟨hsees, hvalue⟩ := sees_onStream hp hm (fun _ hs => hs.send .near bytes) (.send d bytes)
      (.error .badDescriptor) rfl (by rw [Host.transmit, show s.host.device? d = _ from hm.client])
    exact ⟨_, hvalue ▸ rfl, hsees⟩
  | @recv d count =>
    obtain ⟨i, hm⟩ := hsees
    obtain ⟨hsees, hvalue⟩ := sees_onStream hp hm (fun _ hs => hs.recv .near count) (.recv d count)
      (.error .badDescriptor) rfl (by rw [Host.receive, show s.host.device? d = _ from hm.client])
    exact ⟨_, hvalue ▸ rfl, hsees⟩
  | @finish d =>
    obtain ⟨i, hm⟩ := hsees
    obtain ⟨hsees, hvalue⟩ := sees_onStream hp hm (fun _ hs => hs.finish .near) (.finish d)
      (.error .badDescriptor) rfl (by rw [Host.finish, show s.host.device? d = _ from hm.client])
    exact ⟨_, hvalue ▸ rfl, hsees⟩

/-- a server that is about to wait is so whatever others do -/
theorem poised_act (hp : s.Poised protocol fixed arms) (deed : Deed) :
    (s.onHost (·.act deed)).Poised protocol fixed arms ∧
      s.host.devices.length ≤ (s.onHost (·.act deed)).host.devices.length := by
  have honly := s.host.only_act deed
  have hu : Host.Undisturbed s.host (s.host.act deed) := Host.undisturbed_act hp.settled.sound.host deed
  exact ⟨⟨hp.settled.onHost hu honly, hp.idle, hp.own, hp.follows, hp.roomy⟩, honly.length⟩

/-- a run of the server keeps what a client sees up to steps of its view -/
theorem sees_run (hlocal : protocol.Local) {limit : Nat} (hp : s.Poised protocol fixed arms)
    (hhalt : (s.run limit).halt = some .blocked) (hfits : ((s.run limit).server.scene []).Fits)
    (hsees : Sees s me view) :
    ∃ view', view.Rel (View.Settles protocol arms) view' ∧ Sees (s.run limit).server me view' := by
  cases hsees with
  | none => exact ⟨none, .none, .none⟩
  | some hm =>
    obtain ⟨i, hm⟩ := hm
    obtain ⟨v', hsettles, hm'⟩ := Server.view_settles hlocal hp hhalt hfits hm
    exact ⟨some v', .some hsettles, .some ⟨i, hm'⟩⟩

/-- what a client sees is what it would see if there were nobody else -/
theorem Experience.alone (hlocal : protocol.Local) (he : Experience protocol arms s me log) :
    ∃ fixed, s.Poised protocol fixed arms ∧ ((s.scene []).Fits →
      ∃ view, Alone protocol arms view log ∧ Sees s me view ∧ view.Rel (View.Settles protocol arms) view) := by
  induction he with
  | start hh hw hu harms hb hprepare =>
    obtain ⟨hsettled, hfollows, hroomy⟩ := Server.settled_bind hh hw hu hb
    subst harms
    obtain ⟨-, hpoised⟩ := Server.Poised.prepared hsettled hlocal rfl hfollows hroomy hprepare
    exact ⟨_, hpoised, fun _ => ⟨none, .start, .none, .none⟩⟩
  | @others s me log deed _ hothers ih =>
    obtain ⟨fixed, hp, ih⟩ := ih
    obtain ⟨hp', hlength⟩ := poised_act hp deed
    refine ⟨fixed, hp', fun hfits => ?_⟩
    obtain ⟨view, halone, hsees, hend⟩ := ih (Nat.lt_of_le_of_lt (Nat.add_le_add_right hlength _) hfits)
    refine ⟨view, halone, ?_, hend⟩
    cases hsees with
    | none => exact .none
    | some hm =>
      obtain ⟨i, hm⟩ := hm
      exact .some ⟨i, hm.act hp.settled.sound.host (hothers _ rfl)⟩
  | @ran s me log limit _ hhalt ih =>
    obtain ⟨fixed, hp, ih⟩ := ih
    obtain ⟨hpasses, hp', -⟩ := Server.passes_run hlocal limit hp hhalt
    refine ⟨fixed, hp', fun hfits => ?_⟩
    have hlength := hpasses.length hp.settled
    obtain ⟨view, halone, hsees, hend⟩ := ih (Nat.lt_of_le_of_lt (Nat.add_le_add_right hlength _) hfits)
    obtain ⟨view', hsettles, hsees'⟩ := sees_run hlocal hp hhalt hfits hsees
    -- the view had come to its end
    obtain rfl : view = view' := by
      cases hend with
      | none =>
        cases hsettles
        rfl
      | some hend =>
        cases hsettles with
        | some hsettles => exact congrArg some (hend.unique hsettles)
    exact ⟨view, halone, hsees', hend⟩
  | @did s s' me me' log act reply limit _ hdoes hhalt ih =>
    obtain ⟨fixed, hp, ih⟩ := ih
    obtain ⟨deed, rfl⟩ := hdoes.deed
    obtain ⟨hp', hlength⟩ := poised_act hp deed
    obtain ⟨hpasses, hp'', -⟩ := Server.passes_run hlocal limit hp' hhalt
    refine ⟨fixed, hp'', fun hfits => ?_⟩
    have hlength' := Nat.le_trans hlength (hpasses.length hp'.settled)
    obtain ⟨view, halone, hsees, -⟩ := ih (Nat.lt_of_le_of_lt (Nat.add_le_add_right hlength' _) hfits)
    obtain ⟨moved, hact, hsees'⟩ := hdoes.alone hp hsees
    obtain ⟨view', hsettles, hsees''⟩ := sees_run hlocal hp' hhalt hfits hsees'
    refine ⟨view', halone.did hact hsettles, hsees'', ?_⟩
    cases hsettles with
    | none => exact .none
    | some hsettles => exact .some ⟨.refl, hsettles.2⟩

end Client

/-- the stream of a client that is connected: the bytes on their way to it, and the marks of both ends -/
def Server.streamOf (s : Server X) (me : Option Descriptor) : Option Stream :=
  (me.bind s.host.client?).bind (s.host.streams[·]?)

open Client

/-- **Connections do not interfere.** A client does the same in two runs of a server, and all others do what they like
in each. What an exchange does depends on the answers of its transport alone, no call is refused, and there are words
for all descriptors that were opened. Then the client finds out the same in both runs, byte for byte, and what is on its
way to it is the same too. -/
theorem noninterference (hlocal : protocol.Local) {s s' : Server X} {me me' : Option Descriptor}
    {log log' : List (Act × Reply)} (he : Experience protocol arms s me log)
    (he' : Experience protocol arms s' me' log') (hfits : s.host.devices.length + Token.base < UInt64.size)
    (hfits' : s'.host.devices.length + Token.base < UInt64.size) (hacts : log.map (·.1) = log'.map (·.1)) :
    log = log' ∧ s.streamOf me = s'.streamOf me' := by
  obtain ⟨-, -, halone⟩ := he.alone hlocal
  obtain ⟨-, -, halone'⟩ := he'.alone hlocal
  obtain ⟨view, halone, hsees, -⟩ := halone hfits
  obtain ⟨view', halone', hsees', -⟩ := halone' hfits'
  obtain ⟨rfl, rfl⟩ := halone.unique halone' hacts
  have hstream : ∀ {s : Server X} {me : Option Descriptor}, Sees s me view → s.streamOf me = view.map View.stream :=
    fun {s me} hsees => by
      cases hsees with
      | none => rfl
      | @some d v hm =>
        obtain ⟨i, hm⟩ := hm
        have hclient : s.host.client? d = some i := Host.client?_eq_some.2 hm.client
        have hstream : s.host.streams[i]? = some v.stream := hm.stream
        simp [Server.streamOf, hclient, hstream]
  exact ⟨rfl, (hstream hsees).trans (hstream hsees').symm⟩

/-! ## A client to look at -/

namespace Sample

/-- HTTP on the first day -/
def web : Http.Protocol Http.Exchange := Http.protocol { date := "Thu, 01 Jan 1970 00:00:00 GMT" }

def serving : Server Http.Exchange := (Server.bind {} .default web).server.toOption.get (by decide +kernel)

/-- about to wait, for the first time -/
def awake : Worked Http.Exchange := (serving.prepare 2).get (by decide +kernel)

theorem bind_serving : (Server.bind {} .default web).server = .ok serving := eq_ok_get _

theorem unhindered_empty : Host.Unhindered {} :=
  ⟨rfl, by simp, by simp, by simp, by simp [Host.Obliging], by simp, by simp⟩

theorem experience_awake : Experience web true awake.server none [] :=
  .start sound_empty rfl unhindered_empty rfl bind_serving (Option.some_get _).symm

/-- the server once others have done these things -/
def among (s : Server Http.Exchange) (deeds : List Deed) : Server Http.Exchange :=
  deeds.foldl (fun s deed => s.onHost (·.act deed)) s

theorem experience_among {s : Server Http.Exchange} {me : Option Descriptor} {log : List (Act × Reply)}
    (he : Experience web true s me log) {deeds : List Deed}
    (hothers : ∀ deed ∈ deeds, ∀ d, me = some d → deed.client? ≠ some d) :
    Experience web true (among s deeds) me log := by
  induction deeds generalizing s with
  | nil => exact he
  | cons deed rest ih =>
    exact ih (he.others deed (hothers deed List.mem_cons_self)) fun deed' hm =>
      hothers deed' (List.mem_cons_of_mem _ hm)

def request : Bytes := .ofText "GET / HTTP/1.1\r\n\r\n"

/-- what a client does who calls, asks, reads, shuts its end down, and reads again -/
def deedOf (s : Server Http.Exchange) (d : Descriptor) : Nat → Deed
  | 0 => .connect s.listener ⟨"198.51.100.7:40000"⟩
  | 1 => .send d request
  | 2 => .recv d 100
  | 3 => .finish d
  | _ => .recv d 8

/-- a client among others: what they do before each of its deeds, and then the server is run -/
def visit (others : Nat → List Deed) (d : Descriptor) : Nat → Server Http.Exchange
  | 0 => awake.server
  | count + 1 =>
    let s := among (visit others d count) (others count)
    ((s.onHost (·.act (deedOf s d count))).run 4).server

/-- what the client finds out, the last first -/
def findings (others : Nat → List Deed) (d : Descriptor) : List (Act × Reply) :=
  let s := fun count => among (visit others d count) (others count)
  [(.recv 8, .received ((s 4).host.receive d 8).2), (.finish, .finished ((s 3).host.finish d).2),
    (.recv 100, .received ((s 2).host.receive d 100).2), (.send request, .sent ((s 1).host.transmit d request).2),
    (.connect, .connected)]

theorem acts_findings (others : Nat → List Deed) (d : Descriptor) :
    (findings others d).map (·.1) = [.recv 8, .finish, .recv 100, .send request, .connect] := rfl

/-- each of the client's deeds is dealt with, and the others do not act in its place -/
def Visits (others : Nat → List Deed) (d : Descriptor) : Prop :=
  ((among (visit others d 0) (others 0)).host.connect (among (visit others d 0) (others 0)).listener
      ⟨"198.51.100.7:40000"⟩).2 = .ok d ∧
    ∀ count < 5, (∀ deed ∈ others count, deed.client? ≠ some d) ∧
      (((among (visit others d count) (others count)).onHost
        (·.act (deedOf (among (visit others d count) (others count)) d count))).run 4).halt = some .blocked

instance (others : Nat → List Deed) (d : Descriptor) : Decidable (Visits others d) := by
  unfold Visits
  infer_instance

theorem experience_visit {others : Nat → List Deed} {d : Descriptor} (h : Visits others d) :
    Experience web true (visit others d 5) (some d) (findings others d) := by
  obtain ⟨hconnect, hrest⟩ := h
  have hamong : ∀ {count log}, count < 5 → Experience web true (visit others d count) (some d) log →
      Experience web true (among (visit others d count) (others count)) (some d) log := fun hc he =>
    experience_among he fun deed hm d' hd => Option.some.inj hd ▸ (hrest _ hc).1 deed hm
  have hfirst : Experience web true (among (visit others d 0) (others 0)) none [] :=
    experience_among experience_awake (by simp)
  have hconnected : Experience web true (visit others d 1) (some d) ((findings others d).drop 4) :=
    hfirst.did 4 (.connect _ hconnect) (hrest 0 (by decide)).2
  have hsent : Experience web true (visit others d 2) (some d) ((findings others d).drop 3) :=
    (hamong (by decide) hconnected).did 4 (.send request) (hrest 1 (by decide)).2
  have hread : Experience web true (visit others d 3) (some d) ((findings others d).drop 2) :=
    (hamong (by decide) hsent).did 4 (.recv 100) (hrest 2 (by decide)).2
  have hfinished : Experience web true (visit others d 4) (some d) ((findings others d).drop 1) :=
    (hamong (by decide) hread).did 4 .finish (hrest 3 (by decide)).2
  exact (hamong (by decide) hfinished).did 4 (.recv 8) (hrest 4 (by decide)).2

/-- another client calls first, sends what is no request and resets its connection, and a third never reads its answer -/
def crowd : Nat → List Deed
  | 0 => [.connect 0 ⟨"198.51.100.8:40000"⟩]
  | 1 => [.send 2 (.ofText "?\r\n")]
  | 2 => [.close 2 true, .connect 0 ⟨"198.51.100.9:40000"⟩]
  | 3 => [.send 6 request]
  | _ => []

end Sample

/-- a client that is alone and one that is not get the same answer and the same end -/
theorem noninterference_crowd : Sample.findings (fun _ => []) 2 = Sample.findings Sample.crowd 3 ∧
    (Sample.findings Sample.crowd 3).map (·.2) =
      [.received (.ok []), .finished (.ok ()),
        .received (.ok (.ofText
          "HTTP/1.1 200 OK\r\ncontent-length: 0\r\ndate: Thu, 01 Jan 1970 00:00:00 GMT\r\n\r\n")),
        .sent (.ok 18), .connected] := by
  have halone : Sample.Visits (fun _ => []) 2 := by decide +kernel
  have hcrowd : Sample.Visits Sample.crowd 3 := by decide +kernel
  obtain ⟨hsame, -⟩ := noninterference (Http.local_protocol _) (Sample.experience_visit halone)
    (Sample.experience_visit hcrowd) (by decide +kernel) (by decide +kernel)
    ((Sample.acts_findings ..).trans (Sample.acts_findings ..).symm)
  exact ⟨hsame, by decide +kernel⟩

end EventServer
