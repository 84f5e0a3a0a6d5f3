/-
Quiescence: left to itself, the loop comes to a wait that does not end.

A server stirs by itself in two ways. What its connections may yet stir is `Connections.unrest`; a task that is resumed
runs, and its run may have something stirred again. `Scene.unrest` puts both together: it counts what the connections may
stir and, twice, the runs of slots that can still come before a wait (`Scene.toil`), which the bytes that are held or
inbound bound where the protocol is thrifty. A run pays for what it stirs (`ran_spends`), so a pump ends (`pump_ends`)
and leaves no more unrest than it found (`prepare_pays`); a report that fits its connection pays for the tasks that it
resumes (`resume_pays`, `dispatch_pays`); and a wait that ends has taken something from the queue (`await_pays`).

So every turn of a deserted server brings the unrest down or is its last (`take_pays`), and `loop_quiesces` follows.
-/
import EventServer.Proofs.Idleness
import EventServer.Proofs.Thrift
import EventServer.Proofs.Unrest

namespace EventServer

variable {X : Type} {fixed : List Watch} {oblige : Prop} {batch : List Readiness} {past : List Moment}
  {arises : X → Prop} {protocol : Http.Protocol X}

/-! ## Runs of slots -/

/-- a talk over the transport of a connection concerns that connection, which may not be resumed more often than
before -/
theorem engages_talk {α : Type} (self : Handle) (place : Place) (talk : Http.Talk α) {site : Site Handle}
    (hc : site.connections.Sound fixed batch) (hothers : site.connections.host.others = [])
    {conn : Connection Handle} (hg : site.connections.get? place.slot = some conn) {i : Nat}
    (hd : site.connections.host.device? conn.descriptor = some (.stream i .far)) :
    site.connections.Engages place.slot conn.descriptor i
      (talk.run (Engine.transport id self place) site).1.connections := by
  obtain ⟨stream, hstream⟩ : ∃ stream, site.connections.host.streams[i]? = some stream :=
    ⟨_, List.getElem?_eq_getElem (hc.host.known_of_device? hd)⟩
  -- whatever was called, the connection is there under its descriptor, and a further call concerns it again
  have hstep : ∀ {c c' : Connections Handle}, site.connections.Engages place.slot conn.descriptor i c →
      (∀ conn', c.get? place.slot = some conn' → c.host.device? conn'.descriptor = some (.stream i .far) →
        c.host.others = [] → c.Engages place.slot conn'.descriptor i c') →
      site.connections.Engages place.slot conn.descriptor i c' := fun {c c'} he hcall => by
    obtain ⟨conn', -, hg', hd', -⟩ := he.own hg rfl hstream
    have hdevice := (he.host.device? conn.descriptor).trans hd
    exact he.trans (hd' ▸ hcall conn' hg' (hd' ▸ hdevice) (he.host.others.trans hothers))
  exact (Http.Talk.run_keeps (T := Engine.transport id self place)
    (I := fun s => s.connections.Sound fixed batch ∧
      site.connections.Engages place.slot conn.descriptor i s.connections)
    (fun count ⟨hc, he⟩ => ⟨(Connections.sound_recv hc place.slot self count).1,
      hstep he fun _ hg hd ho => Connections.engages_recv hc ho hg hd self count⟩)
    (fun bytes ⟨hc, he⟩ => ⟨(Connections.sound_send hc place.slot self bytes).1,
      hstep he fun _ hg hd ho => Connections.engages_send hc ho hg hd self bytes⟩)
    (fun ⟨hc, he⟩ => ⟨(Connections.sound_shutdown hc place.slot).1,
      hstep he fun _ hg hd ho => Connections.engages_shutdown hc ho hg hd⟩)
    (fun _ h => h) talk ⟨hc, .refl ..⟩).2

namespace Tasks

variable {U F E ε : Type} {t : Tasks U F}

theorem length_wakes (t : Tasks U F) (hs : List Handle) :
    (hs.foldl wake t).queue.length ≤ t.queue.length + hs.length := by
  induction hs generalizing t with
  | nil => exact Nat.le_refl _
  | cons h rest ih =>
    have hfirst : (t.wake h).queue.length ≤ t.queue.length + 1 := by
      unfold wake
      split <;> simp
    have hrest := ih (t := t.wake h)
    simp only [List.foldl_cons, List.length_cons]
    omega

/-- a poll comes to an end if every run of a slot brings something down that is within the limit -/
theorem poll_ends {P : Tasks U F → E → Option (Completed U ε) → List Happening → Prop} {r : Runner E F ε}
    (toil : Tasks U F → E → Option (Completed U ε) → Nat)
    (hstep : ∀ {t env course slot rest}, P t env none course → t.queue = slot :: rest →
      let after := runSlot r { t with queue := rest } env slot
      P after.tasks after.env after.completed (course ++ after.course) ∧
        toil after.tasks after.env after.completed < toil t env none)
    {limit : Nat} {env : E} {course : List Happening} (h : P t env none course) (hlimit : toil t env none ≤ limit) :
    ∃ p, poll r limit t env = some p := by
  induction limit generalizing t env course with
  | zero =>
    unfold poll
    cases hq : t.queue with
    | nil => exact ⟨_, rfl⟩
    | cons slot rest =>
      have hless := (hstep h hq).2
      omega
  | succ limit ih =>
    unfold poll
    cases hq : t.queue with
    | nil => exact ⟨_, rfl⟩
    | cons slot rest =>
      obtain ⟨hafter, hless⟩ := hstep h hq
      dsimp only at hafter hless ⊢
      cases hc : (runSlot r { t with queue := rest } env slot).completed with
      | some done => exact ⟨_, rfl⟩
      | none =>
        rw [hc] at hafter hless
        obtain ⟨p, hp⟩ := ih hafter (by omega)
        exact ⟨_, by rw [hp]; rfl⟩

end Tasks

namespace Scene

variable {t : Tasks Nat (ConnectionTask X)} {slot : Nat} {tenant : Tenant Nat (ConnectionTask X)} {site : Site Handle}
  {rest : List Nat}

/-- how many slots may yet be run before a wait: those that are queued, and one for each byte that is held or can come
and for each task that may end -/
def toil (protocol : Http.Protocol X) (a : Scene X) : Nat :=
  a.tasks.queue.length + a.tasks.slots.total (fun tenant => protocol.held tenant.work.exchange + 1) + a.host.inbound

/-- how much the server may yet stir by itself: a run of a slot costs two -/
def unrest (protocol : Http.Protocol X) (a : Scene X) : Nat := a.connections.unrest + 2 * a.toil protocol

/-- a scene passes into another while nobody else acts: so many slots fewer may yet be run, and no more is stirred -/
structure Spends (protocol : Http.Protocol X) (count : Nat) (a a' : Scene X) : Prop where
  toil : a'.toil protocol + count ≤ a.toil protocol
  unrest : a'.unrest protocol ≤ a.unrest protocol
  abides : a.host.Abides a'.host

theorem Spends.refl (a : Scene X) : Spends protocol 0 a a := ⟨Nat.le_refl _, Nat.le_refl _, .refl _⟩

theorem Spends.trans {a a' a'' : Scene X} {count count' : Nat} (h : Spends protocol count a a')
    (h' : Spends protocol count' a' a'') : Spends protocol (count + count') a a'' where
  toil := by
    have hfirst := h.toil
    have hthen := h'.toil
    omega
  unrest := Nat.le_trans h'.unrest h.unrest
  abides := h.abides.trans h'.abides

theorem Spends.mono {a a' : Scene X} {count count' : Nat} (h : Spends protocol count a a') (hle : count' ≤ count) :
    Spends protocol count' a a' := ⟨Nat.le_trans (Nat.add_le_add_left hle _) h.toil, h.unrest, h.abides⟩

/-- what a run of a slot leaves queued -/
theorem length_queue_ran (htenant : t.slots.get? slot = some tenant) (protocol : Http.Protocol X) (site : Site Handle)
    (rest : List Nat) : (ran protocol t site slot rest).tasks.queue.length ≤
      rest.length + (answered protocol site slot tenant).roused.toNat := by
  have htenant' : ({ t with queue := rest } : Tasks Nat (ConnectionTask X)).slots.get? slot = some tenant := htenant
  have hwakes := Tasks.length_wakes { t with queue := rest, marked := t.marked.filter (· != tenant.serial) }
    (if (answered protocol site slot tenant).roused then [⟨slot, tenant.serial⟩] else [])
  have hlength : (if (answered protocol site slot tenant).roused then [(⟨slot, tenant.serial⟩ : Handle)]
      else []).length = (answered protocol site slot tenant).roused.toNat := by
    cases (answered protocol site slot tenant).roused <;> rfl
  rw [hlength] at hwakes
  unfold ran pumped Tasks.runSlot
  rw [htenant']
  dsimp only
  split <;> exact hwakes

/-- what a talk of a slot's tenant leaves to come, and what it costs -/
theorem talked_spends (hp : protocol.Thrifty arises) (hturning : Turning fixed oblige [] t site.connections [] past)
    (ht : Tended arises t site.connections) (hothers : site.connections.host.others = [])
    (htenant : t.slots.get? slot = some tenant) :
    ∃ left, (talked protocol site slot tenant).host.inbound ≤ left ∧ left ≤ site.connections.host.inbound ∧
      ((answered protocol site slot tenant).ended = .waiting →
        protocol.held (answered protocol site slot tenant).exchange + left +
            (answered protocol site slot tenant).roused.toNat ≤
          protocol.held tenant.work.exchange + site.connections.host.inbound) ∧
      (talked protocol site slot tenant).Sound fixed [] ∧
      (talked protocol site slot tenant).unrest ≤ site.connections.unrest + 2 ∧
      site.connections.host.Abides (talked protocol site slot tenant).host ∧
      ∃ conn, (talked protocol site slot tenant).get? tenant.work.place.slot = some conn := by
  obtain ⟨conn, hg⟩ := hturning.live htenant
  obtain ⟨i, hd⟩ := hturning.table.far hg
  have hengages := engages_talk ⟨slot, tenant.serial⟩ tenant.work.place
    (protocol.poll site.connections.notifier.host.unread tenant.work.exchange) hturning.table hothers hg hd
  have hensures := (hp.thrift (ht.arises htenant) (Host.inbound_le_unread site.connections.host)).mono
    (R := fun left _ polled => left ≤ site.connections.host.inbound ∧ (polled.ended = .waiting →
      protocol.held polled.exchange + left + polled.roused.toNat ≤
        protocol.held tenant.work.exchange + site.connections.host.inbound))
    fun left hleft _ _ _ hq => ⟨hleft, hq⟩
  obtain ⟨left, -, ⟨hleft, hspent⟩, -, hinbound⟩ := parks_talk hensures ⟨slot, tenant.serial⟩ tenant.work.place
    hturning.table (Nat.le_refl _)
  obtain ⟨hsound, -, -⟩ := run_transport (hturning.law.names htenant) tenant.work.place
    (protocol.poll site.connections.notifier.host.unread tenant.work.exchange) hturning.table hturning.arming
  obtain ⟨stream, hstream⟩ : ∃ stream, site.connections.host.streams[i]? = some stream :=
    ⟨_, List.getElem?_eq_getElem (hturning.table.host.known_of_device? hd)⟩
  obtain ⟨conn', -, hg', -⟩ := hengages.own hg rfl hstream
  exact ⟨left, hinbound, hleft, hspent, hsound, hengages.unrest hturning.table hg hd, hengages.host.abides, conn', hg'⟩

/-- a run of a slot pays for what it stirs -/
theorem ran_spends (hp : protocol.Thrifty arises) (hturning : Turning fixed oblige [] t site.connections [] past)
    (ht : Tended arises t site.connections) (hothers : site.connections.host.others = [])
    (hq : t.queue = slot :: rest) : Spends protocol 1 (pumped t site none) (ran protocol t site slot rest) := by
  have hlength : t.queue.length = rest.length + 1 := by simp [hq]
  -- it is enough to know of the parts
  have hparts : (ran protocol t site slot rest).tasks.queue.length +
        (ran protocol t site slot rest).tasks.slots.total (fun tenant => protocol.held tenant.work.exchange + 1) +
        (ran protocol t site slot rest).connections.host.inbound ≤
      rest.length + t.slots.total (fun tenant => protocol.held tenant.work.exchange + 1) +
        site.connections.host.inbound →
      (ran protocol t site slot rest).connections.unrest ≤ site.connections.unrest + 2 →
      site.connections.host.Abides (ran protocol t site slot rest).connections.host →
      Spends protocol 1 (pumped t site none) (ran protocol t site slot rest) := fun hless hcost habides => by
    have htoil : (ran protocol t site slot rest).toil protocol + 1 ≤ (pumped t site none).toil protocol := by
      unfold toil Scene.host
      simp only [show (pumped t site none).connections = site.connections from rfl,
        show (pumped t site none).tasks = t from rfl]
      omega
    refine ⟨htoil, ?_, habides⟩
    unfold unrest
    simp only [show (pumped t site none).connections = site.connections from rfl]
    omega
  cases htenant : t.slots.get? slot with
  | none =>
    have hsame : (ran protocol t site slot rest).tasks = { t with queue := rest } ∧
        (ran protocol t site slot rest).connections = site.connections := by
      unfold ran pumped Tasks.runSlot
      rw [show ({ t with queue := rest } : Tasks Nat (ConnectionTask X)).slots.get? slot = none from htenant]
      exact ⟨rfl, rfl⟩
    refine hparts ?_ ?_ ?_
    all_goals rw [hsame.2]
    · rw [hsame.1]
    · exact Nat.le_add_right ..
    · exact .refl _
  | some tenant =>
    obtain ⟨left, hinbound, hleft, hspent, hsound, hcost, habides, conn, hg⟩ :=
      talked_spends hp hturning ht hothers htenant
    have hqueue := length_queue_ran htenant protocol site rest
    obtain ⟨-, ⟨hwaiting, hslots, hc⟩ | ⟨hslots, hc⟩⟩ :=
      ran_tenant htenant (hturning.placed htenant) protocol site rest
    · have htotal := Slots.total_set (fun tenant => protocol.held tenant.work.exchange + 1) htenant
        { tenant with work := { tenant.work with exchange := (answered protocol site slot tenant).exchange } }
      rw [← hslots] at htotal
      dsimp only at htotal
      have hless := hspent hwaiting
      refine hparts ?_ ?_ ?_
      all_goals rw [hc]
      · omega
      · exact hcost
      · exact habides
    · have htotal := Slots.total_erase (fun tenant => protocol.held tenant.work.exchange + 1) htenant
      rw [← hslots] at htotal
      have hroused := (answered protocol site slot tenant).roused.toNat_le
      obtain ⟨hremoved, hgone, hleaves⟩ := Connections.unrest_remove hsound (habides.others.trans hothers) hg
      refine hparts ?_ ?_ ?_
      all_goals rw [hc]
      · omega
      · exact Nat.le_trans hremoved hcost
      · exact habides.trans hleaves

end Scene

/-- a pump comes to an end within as many slots as there may be, which pay for what it stirs -/
theorem pump_ends (hp : protocol.Thrifty arises) {e : Engine X} (hprotocol : e.protocol = protocol) (site : Site Handle)
    (hturning : Turning fixed oblige [] e.tasks site.connections [] past) (ht : Tended arises e.tasks site.connections)
    (hothers : site.connections.host.others = []) {limit : Nat}
    (hlimit : (Scene.pumped e.tasks site none).toil protocol < limit) (report : PumpTally) :
    ∃ p, e.pumpUpTo id limit site report = some p ∧
      Scene.Spends protocol 0 (Scene.pumped e.tasks site none) (Scene.pumped p.engine.tasks p.site none) := by
  induction limit generalizing e site report past with
  | zero => cases hlimit
  | succ limit ih =>
    subst hprotocol
    -- a poll that ends with a task has brought down what bounds the polls to come
    let P (t : Tasks Nat (ConnectionTask X)) (env : Site Handle) (completed : Option (Completed Nat TaskFailure))
        (course : List Happening) : Prop :=
      Turning fixed oblige [] t env.connections (completed.toList.map (·.userdata)) (past ++ course.map .task) ∧
        Tended arises t (Scene.pumped t env completed).connections ∧
        Scene.Spends e.protocol completed.isSome.toNat (Scene.pumped e.tasks site none) (Scene.pumped t env completed)
    have hstep : ∀ {t env course slot rest}, P t env none course → t.queue = slot :: rest →
        let after := Tasks.runSlot (Engine.runner e.protocol id) { t with queue := rest } env slot
        P after.tasks after.env after.completed (course ++ after.course) ∧
          (Scene.pumped after.tasks after.env after.completed).toil e.protocol <
            (Scene.pumped t env none).toil e.protocol := by
      intro t env course slot rest ⟨hturning, ht, hspends⟩ hq
      have hturning : Turning fixed oblige [] t env.connections [] (past ++ course.map .task) := hturning
      have hrun := turning_runSlot e.protocol hturning rfl hq
      have hran := Scene.ran_spends hp hturning ht (hspends.abides.others.trans hothers) hq
      have hended := Bool.toNat_le
        (Tasks.runSlot (Engine.runner e.protocol id) { t with queue := rest } env slot).completed.isSome
      exact ⟨⟨by simpa using hrun, ht.ran hp.toAttentive hturning slot rest, (hspends.trans hran).mono (by simpa)⟩,
        hran.toil⟩
    have hstart : P e.tasks site none [] := ⟨by simpa using hturning, ht, .refl _⟩
    obtain ⟨polled, hpoll⟩ := Tasks.poll_ends
      (fun t env completed => (Scene.pumped t env completed).toil e.protocol) hstep hstart (Nat.le_of_lt_succ hlimit)
    obtain ⟨⟨hturned, htended, hspends⟩, -⟩ := Tasks.poll_keeps (fun h hq => (hstep h hq).1) [] hstart hpoll
    unfold Engine.pumpUpTo
    rw [hpoll]
    dsimp only
    cases hc : polled.completed with
    | none =>
      rw [hc] at hspends
      exact ⟨_, rfl, hspends⟩
    | some done =>
      rw [hc] at hturned htended hspends
      obtain ⟨p, hpump, hrest⟩ := ih (e := { e with tasks := polled.tasks }) rfl _ (Turning.reclaim done hturned)
        htended (hspends.abides.others.trans hothers) (Nat.lt_of_lt_of_le hspends.toil (Nat.le_of_lt_succ hlimit))
        (Engine.count report done)
      dsimp only
      rw [hpump]
      exact ⟨_, rfl, (hspends.trans hrest).mono (Nat.zero_le _)⟩

/-! ## Waits -/

namespace Host

variable {h : Host}

/-- a wait that ends has taken something from the queue, or was interrupted, if all that it reports is watched for
edges -/
theorem wait_drains {capacity : Nat}
    (hedge : ∀ report ∈ (h.harvest capacity h.queue).reports, report.1.interest.edge) :
    ∃ queue interruptions, (h.wait capacity).1 = { h with queue, interruptions } ∧
      ((h.wait capacity).2 = .blocks ∨ interruptions + queue.length < h.interruptions + h.queue.length) := by
  obtain ⟨hlength, hagain⟩ := h.harvest_drains capacity h.queue
  unfold wait interrupted?
  dsimp only
  rw [hagain hedge, List.append_nil]
  cases hreports : (h.harvest capacity h.queue).reports with
  | nil =>
    by_cases hspare : h.interruptions > 0
    · rw [List.isEmpty_nil, if_pos rfl, if_pos hspare]
      exact ⟨_, _, rfl, .inr (by omega)⟩
    · rw [List.isEmpty_nil, if_pos rfl, if_neg hspare]
      exact ⟨_, _, rfl, .inl rfl⟩
  | cons report rest =>
    rw [hreports, List.length_cons] at hlength
    rw [if_neg (by simp)]
    exact ⟨_, _, rfl, .inr (by omega)⟩

end Host

namespace Connections

variable {H : Type} {c c' : Connections H} {key : Nat} {conn : Connection H}

/-- a report is about a connection, and what it says holds there -/
def Fits (c : Connections H) (r : Readiness) : Prop :=
  ∃ key, r.token = .connection key ∧ ∀ conn, c.get? key = some conn → ∀ direction, r.heeds direction →
    (c.host.conditions conn.descriptor).wakes direction

theorem heeds_ofReport_eq (word : UInt64) (shown : Conditions) (direction : Direction) :
    (Readiness.ofReport word shown).heeds direction = shown.wakes direction := by
  cases direction <;> rfl

theorem wakes_of_visible {interest : Interest} {shown : Conditions} (direction : Direction)
    (hw : (Host.visible interest shown).wakes direction) : shown.wakes direction := by
  have hwithin : (Host.visible interest shown).Within shown :=
    ⟨fun h => (Bool.and_eq_true_iff.1 h).2, fun h => (Bool.and_eq_true_iff.1 h).2, id, id⟩
  exact hwithin.wakes direction hw

/-- where the fixed watches have nothing to show, what a wait reports are connections, which are watched for edges -/
theorem found_fits (hc : c.Sound fixed batch)
    (hquiet : ∀ w ∈ fixed, (Host.visible w.interest (c.host.conditions w.descriptor)).none) {capacity : Nat}
    {queue : List Descriptor} {report : Watch × Conditions} (hm : report ∈ (c.host.harvest capacity queue).reports) :
    report.1.interest.edge ∧ c.Fits (.ofReport report.1.word report.2) := by
  obtain ⟨hw, hshown⟩ := Host.mem_harvest hm
  have hsome := Host.shown_of_harvest hm
  have hfixed : report.1 ∉ fixed := fun hin => by
    rw [hshown, hquiet _ hin] at hsome
    cases hsome
  obtain ⟨⟨key, conn⟩, hentry, hwatch⟩ :=
    List.mem_map.1 ((List.mem_append.1 (hc.watches.mem_iff.1 hw)).resolve_left hfixed)
  have hg := mem_toList.1 hentry
  have hwatch : conn.watch key = report.1 := hwatch
  refine ⟨?_, key, ?_, fun conn' hg' direction hheeds => ?_⟩
  · rw [← hwatch]
    unfold Connection.watch Connection.interest
    dsimp only
    split <;> rfl
  · rw [← hwatch]
    exact hc.ofWord hg
  · rw [hg] at hg'
    cases hg'
    rw [heeds_ofReport_eq, hshown, ← hwatch] at hheeds
    exact wakes_of_visible direction hheeds

/-- what is done to one connection without its stream leaves what a report says -/
theorem Fits.of_same {r : Readiness} (hf : c.Fits r) (hdevices : ∀ d, c'.host.device? d = c.host.device? d)
    (hstreams : c'.host.streams = c.host.streams) (hpending : c'.host.pending = c.host.pending)
    (hconns : ∀ {key conn'}, c'.get? key = some conn' →
      ∃ conn, c.get? key = some conn ∧ conn.descriptor = conn'.descriptor) : c'.Fits r := by
  obtain ⟨key, htoken, hfits⟩ := hf
  refine ⟨key, htoken, fun conn' hg' direction hheeds => ?_⟩
  obtain ⟨conn, hg, hd⟩ := hconns hg'
  have hsame : c'.host.conditions conn'.descriptor = c.host.conditions conn.descriptor := by
    unfold Host.conditions
    rw [hdevices, hstreams, hpending, hd]
  rw [hsame]
  exact hfits conn hg direction hheeds

end Connections

/-! ## Turns of a server that nobody acts on -/

namespace Server

variable {s : Server X}

/-- nobody else acts, no connection waits at the listener, and no signal that the server reads is pending -/
structure Deserted (s : Server X) : Prop where
  others : s.host.others = []
  listener : s.host.device? s.listener = some (.listener [])
  signals : ∃ mask, s.host.device? s.signals.descriptor = some (.signalSource mask) ∧ ∀ n ∈ s.host.pending, n ∉ mask

/-- how much a server may yet stir by itself -/
def unrest (s : Server X) : Nat := (s.scene []).unrest s.engine.protocol

theorem Deserted.of_abides (hd : s.Deserted) {s' : Server X} (ha : s.host.Abides s'.host)
    (hstanding : s'.standing = s.standing) : s'.Deserted := by
  simp only [standing, List.cons.injEq, Watch.mk.injEq, and_true] at hstanding
  obtain ⟨hlistener, hsignals⟩ := hstanding
  obtain ⟨mask, hmask, hpending⟩ := hd.signals
  refine ⟨ha.others.trans hd.others, ?_, mask, ?_, ha.pending ▸ hpending⟩
  · rw [hlistener]
    exact ha.devices hd.listener nofun
  · rw [hsignals]
    exact ha.devices hmask nofun

/-- neither the listener nor the signals have anything to show -/
theorem Deserted.quiet (hd : s.Deserted) :
    ∀ w ∈ s.standing, (Host.visible w.interest (s.host.conditions w.descriptor)).none := by
  obtain ⟨mask, hmask, hpending⟩ := hd.signals
  intro w hw
  simp only [standing, List.mem_cons, List.not_mem_nil, or_false] at hw
  rcases hw with rfl | rfl
  · simp [Host.conditions, hd.listener, Host.visible, Conditions.none]
  · simpa [Host.conditions, hmask, Host.visible, Conditions.none, Interest.reading] using hpending

/-- a report that fits a connection pays for the tasks that it resumes -/
theorem resume_pays {r : Readiness} {key : Nat} (hs : s.Upholds fixed oblige (r :: batch) past)
    (hothers : s.host.others = []) (hr : r.token = .connection key) (hf : s.connections.Fits r) :
    (s.resume key r).server.unrest ≤ s.unrest ∧ s.host.Abides (s.resume key r).server.host ∧
      ∀ r', s.connections.Fits r' → (s.resume key r).server.connections.Fits r' := by
  obtain ⟨key', htoken, hfits⟩ := hf
  cases hr.symm.trans htoken
  unfold resume unrest
  simp only [foldl_wake]
  cases hg : s.connections.get? key with
  | none =>
    have hsame : s.connections.fire key r =
        { state := s.connections, value := [], notes := [.staleReadiness key] } := by
      unfold Connections.fire
      rw [hg]
    rw [hsame]
    exact ⟨Nat.le_refl _, .refl _, fun _ h => h⟩
  | some conn =>
    obtain ⟨hnudges, hstreams, hpaid⟩ := Connections.unrest_fire hs.table hothers hg (hfits conn hg)
    have hwakes := s.engine.tasks.length_wakes (s.connections.fire key r).value
    obtain ⟨hslots, -⟩ := s.engine.tasks.wakes_slots (s.connections.fire key r).value
    have hinbound : (s.connections.fire key r).state.host.inbound = s.connections.host.inbound := by
      unfold Host.inbound Host.due Host.ahead
      rw [hstreams, hnudges.others]
    refine ⟨?_, hnudges.abides, fun r' hf' => hf'.of_same hnudges.device? hstreams hnudges.pending ?_⟩
    · simp only [scene, Scene.unrest, Scene.toil, Scene.host, hslots, hinbound]
      omega
    · intro k conn' hg'
      rcases s.connections.amends_fire key r with hsame | ⟨old, new, hold, hset, hdescriptor, -⟩
      · exact ⟨conn', by rwa [Connections.get?, hsame] at hg', rfl⟩
      · rw [Connections.get?, hset, Slots.get?_set hold] at hg'
        split at hg'
        · next hk =>
          cases hg'
          exact ⟨old, hk ▸ hold, hdescriptor.symm⟩
        · exact ⟨conn', hg', rfl⟩

/-- so do reports one after another -/
theorem dispatch_pays (reports : List Readiness) (hs : s.Upholds fixed oblige (reports ++ batch) past)
    (hothers : s.host.others = []) (hf : ∀ r ∈ reports, s.connections.Fits r) :
    (s.dispatch reports).2 = none ∧ (s.dispatch reports).1.server.unrest ≤ s.unrest ∧
      s.host.Abides (s.dispatch reports).1.server.host := by
  induction reports generalizing s past with
  | nil => exact ⟨rfl, Nat.le_refl _, .refl _⟩
  | cons r rest ih =>
    have hfirst := hf r (List.mem_cons_self ..)
    obtain ⟨key, hr, -⟩ := id hfirst
    obtain ⟨hpaid, habides, hkeeps⟩ := resume_pays hs hothers hr hfirst
    have hhandle : s.handle r = (s.resume key r, none) := by
      unfold handle
      rw [hr]
    have hupholds := (upholds_handle hs).1
    rw [hhandle] at hupholds
    obtain ⟨hstop, hrest, habides'⟩ := ih hupholds (habides.others.trans hothers)
      fun r' hm => hkeeps r' (hf r' (List.mem_cons_of_mem _ hm))
    unfold dispatch
    rw [hhandle]
    exact ⟨hstop, Nat.le_trans hrest hpaid, habides.trans habides'⟩

/-- a wait that ends has brought down what may yet be stirred -/
theorem await_pays (hs : s.Upholds fixed oblige [] past) (hd : s.Deserted) :
    s.host.Abides s.await.state.host ∧ (s.await.value = none ∨ ∃ events, s.await.value = some events ∧
      s.await.state.unrest < s.unrest ∧ ∀ r ∈ events.toList, s.await.state.connections.Fits r) := by
  have helapse : s.connections.notifier.host.elapse = s.host := Host.elapse_eq hd.others
  have hfound : ∀ report ∈ (s.host.harvest s.events.capacity s.host.queue).reports, report.1.interest.edge ∧
      s.connections.Fits (.ofReport report.1.word report.2) := fun report hm =>
    Connections.found_fits hs.table (hs.own ▸ hd.quiet) hm
  obtain ⟨queue, interruptions, hwait, hdrains⟩ := Host.wait_drains fun report hm => (hfound report hm).1
  have hstate : s.await.state.connections = s.connections.onHost fun h => { h with queue, interruptions } := by
    have hwaited : (s.connections.notifier.wait s.events).state =
        { s.connections.notifier with host := { s.host with queue, interruptions } } := by
      unfold Notifier.wait
      rw [helapse, ← hwait]
      dsimp only
      split <;> rfl
    show ({ s.connections with notifier := (s.connections.notifier.wait s.events).state } : Connections Handle) = _
    rw [hwaited]
    rfl
  refine ⟨?_, ?_⟩
  · unfold Server.host
    rw [hstate]
    exact ⟨rfl, rfl, rfl, fun he _ => he⟩
  cases hvalue : s.await.value with
  | none => exact .inl rfl
  | some events =>
    refine .inr ⟨events, rfl, ?_, fun r hm => ?_⟩
    · have hless := hdrains.resolve_left fun hblocks => by
        unfold await Notifier.wait at hvalue
        simp only [helapse, hblocks] at hvalue
        cases hvalue
      have hbefore : s.unrest = s.host.interruptions + s.host.queue.length +
          s.connections.slots.total (·.unrest s.host) + 2 * (s.scene []).toil s.engine.protocol := rfl
      have hafter : s.await.state.unrest = interruptions + queue.length +
          s.connections.slots.total (·.unrest s.host) + 2 * (s.scene []).toil s.engine.protocol := by
        unfold unrest scene
        rw [hstate]
        rfl
      omega
    · have htold := s.connections.notifier.wait_told s.events
      rw [show (s.connections.notifier.wait s.events).value = some events from hvalue] at htold
      have htold : events.toList = Notifier.told (s.connections.notifier.found s.events.capacity).reports := htold
      rw [htold, Notifier.found, helapse] at hm
      obtain ⟨report, hreport, rfl⟩ := List.mem_map.1 hm
      rw [hstate]
      exact (hfound report hreport).2.of_same (fun _ => rfl) rfl rfl fun hg => ⟨_, hg, rfl⟩

/-- a deserted server waits without end, or its turn has brought down what may yet be stirred -/
theorem take_pays (hs : s.Upholds fixed oblige [] past) (hq : s.engine.tasks.queue = []) (hd : s.Deserted) :
    s.host.Abides s.take.server.host ∧
      (s.take.halt = some .blocked ∨ s.take.halt = none ∧ s.take.server.unrest < s.unrest) := by
  have hawaited := upholds_await hs hq
  obtain ⟨habides, hnone | ⟨events, hsome, hless, hfits⟩⟩ := await_pays hs hd
  · unfold take
    simp only [hnone]
    exact ⟨habides, .inl trivial⟩
  · rw [hsome] at hawaited
    have hawaited' : s.await.state.Upholds fixed oblige (events.toList ++ []) (past ++ [.wait]) := by
      simpa using hawaited
    obtain ⟨hstop, hpaid, hdispatched⟩ := dispatch_pays events.toList hawaited' (habides.others.trans hd.others) hfits
    unfold take
    simp only [hsome, hstop, Option.map_none, true_and]
    exact ⟨habides.trans hdispatched, .inr (Nat.lt_of_le_of_lt hpaid hless)⟩

/-- before a wait, the tasks come to rest within the server's patience -/
theorem prepare_pays (hp : protocol.Thrifty arises) (hs : s.Upholds fixed oblige [] past) (ht : s.Tends protocol arises)
    (hd : s.Deserted) :
    ∃ w, s.prepare s.patience = some w ∧ w.server.unrest ≤ s.unrest ∧ s.host.Abides w.server.host := by
  have hinbound : s.connections.host.inbound ≤ s.connections.notifier.host.unread := Host.inbound_le_unread _
  have hlimit : (Scene.pumped s.engine.tasks { connections := s.connections } none).toil protocol < s.patience := by
    unfold Scene.toil patience Engine.patience
    rw [Slots.total_succ, ht.follows]
    simp only [Scene.pumped, Option.elim_none, Scene.host, Engine.inFlight, Tasks.size]
    omega
  obtain ⟨p, hpump, hspends⟩ := pump_ends hp ht.follows { connections := s.connections } hs.toTurning ht.tended
    hd.others hlimit {}
  obtain ⟨-, hfollows⟩ := tended_pump hp.toAttentive ht.follows hs.toTurning
    ht.tended hpump
  unfold prepare Engine.pump
  rw [hpump]
  refine ⟨_, rfl, ?_, hspends.abides⟩
  unfold unrest
  rw [ht.follows, hfollows]
  exact hspends.unrest

end Server

namespace Reached

variable {first s : Server X}

/-- a deserted server comes to a wait that does not end within as many turns as it may yet stir, and is deserted then -/
theorem run_blocks (hp : protocol.Thrifty arises) (hu : first.Upholds fixed oblige [] [])
    (hf : first.Tends protocol arises) (hr : Reached first .wait s past) (hd : s.Deserted) {limit : Nat}
    (hlimit : s.unrest < limit) :
    (s.run limit).halt = some .blocked ∧ s.host.Abides (s.run limit).server.host ∧ (s.run limit).server.Deserted := by
  induction limit generalizing s past with
  | zero => cases hlimit
  | succ limit ih =>
    obtain ⟨hs, hq⟩ := hr.upholds hu
    unfold Server.run
    obtain ⟨habides, hblocked | ⟨hgoes, hless⟩⟩ := Server.take_pays hs (hq rfl) hd
    · have hrests := ((hr.blocked hblocked).upholds hu).1
      simp only [hblocked]
      exact ⟨trivial, habides, hd.of_abides habides (hrests.own.trans hs.own.symm)⟩
    · have htook := hr.took hgoes
      have hs' := (htook.upholds hu).1
      have hd' := hd.of_abides habides (hs'.own.trans hs.own.symm)
      obtain ⟨w, hw, hpaid, habides'⟩ := Server.prepare_pays hp hs' (htook.tends hp.toAttentive hu hf) hd'
      have hready := ((htook.pumped hw).upholds hu).1
      obtain ⟨hhalt, hrest, hdeserted⟩ :=
        ih (htook.pumped hw) (hd'.of_abides habides' (hready.own.trans hs'.own.symm)) (by omega)
      simp only [hgoes, hw]
      exact ⟨hhalt, habides.trans (habides'.trans hrest), hdeserted⟩

end Reached

/-! ## The loop -/

/-- the loop comes to rest by itself: after some turns a wait does not end, and before the first of them, where a server
is not about to wait, the tasks come to rest too -/
def Server.Quiesces (s : Server X) : Phase → Prop
  | .wait => ∃ turns ≤ s.unrest + 1, (s.run turns).halt = some .blocked
  | .head => ∃ w, s.prepare s.patience = some w ∧ ∃ turns ≤ s.unrest + 1, (w.server.run turns).halt = some .blocked

/-- **The loop quiesces.** A server is reached in any way, over a protocol whose polls park unless they have used up a
byte, and nobody else acts any more: no connection waits at the listener and no signal is pending. Then after finitely
many turns a wait does not end, whatever is unread, hung up, parked or watched; every pump before it ends too. -/
theorem loop_quiesces {host : Host} {settings : Settings} {first s : Server X} {phase : Phase}
    (hp : protocol.Thrifty arises) (hh : host.Sound) (hw : host.watches = [])
    (hb : (Server.bind host settings protocol).server = .ok first) (hr : Reached first phase s past)
    (hd : s.Deserted) : s.Quiesces phase := by
  have hu := Server.upholds_bind False hh hw False.elim hb
  have hf : first.Tends protocol arises := Server.tends_bind hb
  cases phase with
  | wait => exact ⟨_, Nat.le_refl _, (hr.run_blocks hp hu hf hd (Nat.lt_succ_self _)).1⟩
  | head =>
    have hs := (hr.upholds hu).1
    obtain ⟨w, hw, hpaid, habides⟩ := Server.prepare_pays hp hs (hr.tends hp.toAttentive hu hf) hd
    have hready := ((hr.pumped hw).upholds hu).1
    have hd' := hd.of_abides habides (hready.own.trans hs.own.symm)
    exact ⟨w, hw, _, Nat.le_refl _, ((hr.pumped hw).run_blocks hp hu hf hd' (Nat.lt_succ_of_le hpaid)).1⟩

namespace Sample

/-- one of the two clients has asked and is gone before it is answered -/
def forsaken : Server Http.Exchange := asking.onHost (·.act (.close 2 true))

theorem reached_forsaken : ∃ past, Reached serving .wait forsaken past :=
  ⟨_, (((((((Reached.start.pumped (Option.some_get _).symm).others _).others _).took (by decide +kernel)).pumped
    (Option.some_get _).symm).others _).others _)⟩

theorem deserted_forsaken : forsaken.Deserted where
  others := by decide +kernel
  listener := by decide +kernel
  signals := ⟨ShutdownSignal.all.map (·.number), by decide +kernel, by decide +kernel⟩

example : (forsaken.run 1).halt = none := by decide +kernel

end Sample

/-- what the client asked is unread, and it is gone; yet the loop comes to rest -/
theorem loop_quiesces_forsaken : Sample.forsaken.Deserted ∧
    ∃ turns ≤ Sample.forsaken.unrest + 1, (Sample.forsaken.run turns).halt = some .blocked := by
  obtain ⟨past, hr⟩ := Sample.reached_forsaken
  exact ⟨Sample.deserted_forsaken, loop_quiesces (Http.thrifty_protocol _) Sample.sound_empty rfl Sample.bind_serving hr
    Sample.deserted_forsaken⟩

end EventServer
