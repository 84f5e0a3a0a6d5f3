/-
Answers do not depend on how the bytes arrive.

`answers_ignore_cuts` puts the account of a dialogue (`Client.Dialogue.inOrder`) together with what follows when its
client leaves. The account settles what the client has heard where the server waits and there is nothing to read: an
answer to each of its requests, in order. It settles too that the task has nothing left to do then
(`Client.Dialogue.answered`). That the client gets to that point at all, once nobody else acts, is
`Client.Dialogue.hearsOut`. All this is so for every protocol that answers requests as their bytes come; it is so for
HTTP, and it needs room to write to be watched (`answers_stop_unwatched`).

What follows when the client closes its end is worked out turn by turn. Its connection is the only one to be looked at
(`Server.take_alone`), so its task is the only one that is resumed (`Server.Bereft.take`) and run (`Engine.pump_alone`);
it finds the end of the bytes and ends, and its connection is taken out (`Server.Bereft.prepare`). After that there is
nothing to look at (`Server.take_calm`), and the server waits again (`Server.Bereft.parts`).
-/
import EventServer.Proofs.Answering
import EventServer.Proofs.Farewell
import EventServer.Proofs.Hearing

namespace EventServer

open Http

/-! ## A wait with one descriptor to look at, or none -/

namespace Notifier

variable {d : Descriptor} {w : Watch}

/-- a wait that has one descriptor to look at reports it, and has none to look at again -/
theorem wait_alone (n : Notifier) (events : Events) (hothers : n.host.others = []) (hq : n.host.queue = [d])
    (hw : n.host.watch? d = some w) (hedge : w.interest.edge = true) (hread : w.interest.read = true)
    (hinput : (n.host.conditions d).input = true) (hroomy : 0 < events.capacity) :
    ∃ c : Conditions, c.input = true ∧
      n.wait events =
        { state := { n with host := { n.host with queue := [] } }, value := some (events.fill [(w.word, c)]) } := by
  obtain ⟨capacity, hcapacity⟩ : ∃ capacity, events.capacity = capacity + 1 := ⟨events.capacity - 1, by omega⟩
  let shown := Host.visible w.interest (n.host.conditions d)
  have hshown : shown.input = true := by simp [shown, Host.visible, hread, hinput]
  have hharvest : n.host.harvest events.capacity [d] = { reports := [(w, shown)] } := by
    rw [hcapacity]
    unfold Host.harvest
    rw [hw]
    dsimp only
    rw [if_neg (by simp [Conditions.none, show (Host.visible w.interest _).input = true from hshown]),
      show n.host.harvest capacity [] = {} by unfold Host.harvest; rfl, if_pos hedge]
  refine ⟨shown, hshown, ?_⟩
  unfold wait Host.wait
  rw [Host.elapse_eq hothers, hq, hharvest]
  rfl

/-- a wait that has nothing to look at and is not interrupted does not end -/
theorem wait_calm (n : Notifier) (events : Events) (hothers : n.host.others = []) (hq : n.host.queue = [])
    (hcalm : n.host.interruptions = 0) : (n.wait events).value = none ∧ (n.wait events).state = n := by
  have hharvest : n.host.harvest events.capacity [] = {} := by
    unfold Host.harvest
    rfl
  have hsame : ({ n.host with queue := [] } : Host) = n.host := by rw [← hq]
  have hnone : n.host.interrupted? = none := if_neg (by omega)
  unfold wait Host.wait
  rw [Host.elapse_eq hothers, hq, hharvest]
  dsimp only
  rw [List.append_nil, hsame, hnone]
  exact ⟨rfl, rfl⟩

end Notifier

namespace Server

variable {X : Type} {s : Server X} {key : Nat} {w : Watch} {d : Descriptor}

/-- the server after a wait that reported one connection -/
def saw (s : Server X) (report : UInt64 × Conditions) : Server X :=
  { s.onHost (fun h => { h with queue := [] }) with events := s.events.fill [report] }

theorem take_alone (hothers : s.host.others = []) (hq : s.host.queue = [d]) (hw : s.host.watch? d = some w)
    (hedge : w.interest.edge = true) (hread : w.interest.read = true) (hinput : (s.host.conditions d).input = true)
    (hroomy : 0 < s.events.capacity) (htoken : Token.ofWord w.word = .connection key) :
    ∃ (report : UInt64 × Conditions) (r : Readiness), r.readable = true ∧ s.take =
      { server := ((s.saw report).resume key r).server
        journal := .plain (.pollReported 1) :: ((s.saw report).resume key r).journal
        course := ((s.saw report).resume key r).course } := by
  obtain ⟨c, hinput, hwait⟩ :=
    s.connections.notifier.wait_alone s.events hothers hq hw hedge hread hinput hroomy
  let report : UInt64 × Conditions := (w.word, c)
  let r := Readiness.ofReport w.word c
  have hawait : s.await = { state := s.saw report, value := some (s.events.fill [report]) } := by
    unfold await
    rw [hwait]
    rfl
  have hlist : (s.events.fill [report]).toList = [r] := by
    rw [Events.toList, Events.written_fill, List.take_of_length_le hroomy]
    rfl
  have hdispatch : (s.saw report).dispatch (s.events.fill [report]).toList =
      (((s.saw report).resume key r), none) := by
    rw [hlist]
    unfold dispatch handle
    rw [show r.token = .connection key from htoken]
    simp [dispatch]
  refine ⟨report, r, hinput, ?_⟩
  unfold take
  rw [hawait]
  dsimp only
  rw [hdispatch, ← Events.length_toList, hlist]
  rfl

theorem take_calm (hothers : s.host.others = []) (hq : s.host.queue = []) (hcalm : s.host.interruptions = 0) :
    s.take = { server := s, halt := some .blocked } := by
  obtain ⟨hvalue, hstate⟩ := s.connections.notifier.wait_calm s.events hothers hq hcalm
  have hawait : s.await.state = s := by
    unfold await
    dsimp only
    rw [hvalue, hstate]
    rfl
  unfold take
  dsimp only
  rw [show s.await.value = none from hvalue, hawait]

end Server

/-! ## A pump with one task -/

namespace Engine

variable {X : Type} {h : Handle} {tenant : Tenant Nat (ConnectionTask X)}

/-- the only task to run ends as it should, and its connection is taken out -/
theorem pump_alone (e : Engine X) (site : Site Handle) (hq : e.tasks.queue = [h.slot])
    (ht : e.tasks.slots.get? h.slot = some tenant) (hserial : tenant.serial = h.serial)
    {after : Site Handle × Http.Polled X}
    (hrun : (e.protocol.poll site.connections.notifier.host.unread tenant.work.exchange).run
      (transport id h tenant.work.place) site = after)
    (hended : after.2.ended = .complete) (hroused : after.2.roused = false) (limit : Nat) :
    ∃ p, e.pump id (limit + 2) site = some p ∧ p.engine.tasks.slots = e.tasks.slots.erase h.slot ∧
      p.site = reclaim (after.1.record none [.completed h.slot]) ⟨h.serial, tenant.userdata, .ok ()⟩ ∧
      p.course = [.ran h, .ended h] := by
  obtain ⟨slot, serial⟩ := h
  subst hserial
  let left : Tasks Nat (ConnectionTask X) :=
    { slots := e.tasks.slots.erase slot
      queue := []
      marked := e.tasks.marked.filter (· != tenant.serial)
      nextSerial := e.tasks.nextSerial }
  have hprogress : (runner e.protocol id).run ⟨slot, tenant.serial⟩ site tenant.work =
      { env := after.1, work := { tenant.work with exchange := after.2.exchange }, outcome := some (.ok ()) } := by
    unfold runner
    dsimp only
    rw [hrun, hended, hroused]
    rfl
  let polled : Tasks.Polled Nat (ConnectionTask X) (Site Handle) TaskFailure :=
    { tasks := left
      env := after.1.record none [.completed slot]
      completed := some ⟨tenant.serial, tenant.userdata, .ok ()⟩
      course := [.ran ⟨slot, tenant.serial⟩, .ended ⟨slot, tenant.serial⟩] }
  have hslot : Tasks.runSlot (runner e.protocol id) { e.tasks with queue := [] } site slot = polled := by
    unfold Tasks.runSlot
    rw [show ({ e.tasks with queue := [] } : Tasks Nat (ConnectionTask X)).slots.get? slot = _ from ht]
    dsimp only
    rw [hprogress]
    rfl
  have hpoll : e.tasks.poll (runner e.protocol id) (limit + 1) site = some polled := by
    unfold Tasks.poll
    rw [hq]
    dsimp only
    rw [hslot]
  have hidle : ∀ site' : Site Handle, left.poll (runner e.protocol id) limit site' =
      some { tasks := left, env := site' } := by
    intro site'
    cases limit <;> rfl
  unfold pump pumpUpTo
  rw [hpoll]
  dsimp only [polled]
  unfold pumpUpTo
  dsimp only
  rw [hidle]
  exact ⟨_, rfl, rfl, rfl, rfl⟩

end Engine

/-! ## The turn after a client has left -/

theorem Mooring.eq_self_of_record (m : Mooring) {b : Berth} {h : Handle} (hm : h ∈ (m.record b).handles) :
    h = m.self := by
  have hparked : b.read = true ∧ m.self = h ∨ b.write = true ∧ m.self = h := by
    simpa [Connection.handles, record, slot] using hm
  rcases hparked with ⟨-, rfl⟩ | ⟨-, rfl⟩ <;> rfl

/-- the client of a connection has left it while its task had nothing left to do, and no other task is to run -/
structure Server.Bereft {X : Type} (s : Server X) (m : Mooring) (conn : Connection Handle) (x : X) (ready : Bool) :
    Prop where
  forsaken : s.connections.Forsaken m.key conn m.stream
  descriptor : conn.descriptor = m.far
  works : m.Works x ready s.engine.tasks
  alone : ∀ slot ∈ s.engine.tasks.queue, slot = m.self.slot
  departs : ∀ n, (s.engine.protocol.poll n x).Departs fun polled => polled.ended = .complete ∧ polled.roused = false

/-- what happened between two states of a server if no task failed or ended in between -/
structure Server.Meanwhile {X : Type} (s s' : Server X) (journal : Journal) (course : List Happening) : Prop where
  sane : .plain .taskFailed ∉ journal
  endless : ∀ h, .ended h ∉ course
  ledger : s'.connections.notifier.deregistrations = s.connections.notifier.deregistrations

namespace Server

variable {X : Type} {protocol : Http.Protocol X} {fixed : List Watch} {batch : List Readiness} {s : Server X}
  {m : Mooring} {b : Berth} {x : X} {conn : Connection Handle} {r : Readiness}

theorem Bereft.queue (hs : s.Bereft m conn x true) : s.engine.tasks.queue = [m.self.slot] := by
  have hcount := hs.works.queued
  rw [List.eq_replicate_of_mem hs.alone, List.count_replicate_self] at hcount
  rw [List.eq_replicate_of_mem hs.alone, hcount]
  rfl

/-- the report that the client has left resumes the task -/
theorem Bereft.resume (hs : s.Bereft m (m.record b) x false) (hread : b.read = true) (hr : r.readable = true) :
    ∃ conn, (s.resume m.key r).server.Bereft m conn x true ∧
      s.Meanwhile (s.resume m.key r).server (s.resume m.key r).journal (s.resume m.key r).course := by
  let fired := s.connections.fire m.key r
  obtain ⟨conn, hafter, hdescriptor, hledger, hnotes⟩ := hs.forsaken.fire r
  -- what is parked is the handle of the task
  have hself : ∀ h ∈ fired.value, h = m.self := by
    intro h hm
    obtain ⟨conn, hrecord, hm⟩ := Connections.mem_fire hm
    cases hs.forsaken.record.symm.trans hrecord
    exact m.eq_self_of_record hm
  have hsome : fired.value ≠ [] := by
    rcases s.connections.fire_cases m.key r with ⟨hnone, -⟩ | ⟨conn, -, hrecord, hvalue, -⟩
    · cases hs.forsaken.record.symm.trans hnone
    · cases hs.forsaken.record.symm.trans hrecord
      rw [show fired.value = _ from hvalue]
      simp [Readiness.heeds, hr, Mooring.record, Mooring.slot, hread]
  have hwakes := hs.works.wakes fired.value hself
  rw [Bool.false_or, show (!fired.value.isEmpty) = true by simpa using hsome] at hwakes
  have hserver : (s.resume m.key r).server =
      { s with
        connections := fired.state
        engine := { s.engine with tasks := fired.value.foldl Tasks.wake s.engine.tasks } } := by
    simp only [Server.resume, foldl_wake]
    rfl
  refine ⟨conn, ?_, ⟨fun hm => ?_, fun h hm => ?_, ?_⟩⟩
  · rw [hserver]
    refine ⟨hafter, hdescriptor, hwakes, fun slot hm => ?_, hs.departs⟩
    rcases Scene.mem_queue_wakes hm with hold | ⟨h, hwoken, rfl⟩
    · exact hs.alone slot hold
    · rw [hself h hwoken]
  · obtain ⟨note, hm, hnote⟩ := List.mem_map.1 hm
    cases hnote
    exact hnotes hm
  · obtain ⟨woken, -, hwoken⟩ := List.mem_map.1 hm
    cases hwoken
  · rw [hserver]
    exact hledger

/-- in the turn after its client has left, the task is resumed -/
theorem Bereft.take (hp : s.Poised protocol fixed true) (hs : s.Bereft m (m.record b) x false)
    (hq : s.host.queue = [m.far]) (hread : b.read = true) :
    s.take.halt = none ∧ ∃ conn, s.take.server.Bereft m conn x true ∧
      s.Meanwhile s.take.server s.take.journal s.take.course := by
  have hsound := hp.settled.sound
  have hf := hs.forsaken
  have hinput : (s.host.conditions m.far).input = true := by
    obtain ⟨stream, hstream, ha⟩ := hf.stream
    have hconditions : s.host.conditions m.far = _ := Host.conditions_far hf.far
    rw [hconditions, show s.host.streams[m.stream]? = some stream from hstream]
    exact ha.input
  have hwatched : ((m.record b).watch m.key).interest.edge = true ∧
      ((m.record b).watch m.key).interest.read = true := by
    unfold Connection.watch Connection.interest
    dsimp only
    split <;> exact ⟨rfl, rfl⟩
  obtain ⟨report, r, hreadable, htake⟩ := take_alone hf.others hq (hsound.watch?_eq hf.record) hwatched.1 hwatched.2
    hinput hp.roomy (hsound.ofWord hf.record)
  have hsaw : (s.saw report).Bereft m (m.record b) x false :=
    ⟨⟨hf.record, hf.far, hf.stream, hf.others, hf.calm, nofun⟩, hs.descriptor, hs.works, hs.alone, hs.departs⟩
  obtain ⟨conn, hbereft, hmeanwhile⟩ := hsaw.resume hread hreadable
  rw [htake]
  refine ⟨rfl, conn, hbereft, ⟨fun hm => ?_, hmeanwhile.endless, hmeanwhile.ledger⟩⟩
  rcases List.mem_cons.1 hm with hreported | hm
  · cases hreported
  · exact hmeanwhile.sane hm

/-- and when the server prepares for the next wait, the task runs for the last time, and its connection is taken out -/
theorem Bereft.prepare (hs : s.Bereft m conn x true) (hc : s.connections.Sound fixed batch) :
    ∃ ready, s.prepare s.patience = some ready ∧ ready.course = [.ran m.self, .ended m.self] ∧
      .plain .connectionComplete ∈ ready.journal ∧ (∀ entry ∈ ready.journal, entry.note ≠ .taskFailed) ∧
      ready.server.engine.tasks.slots.get? m.self.slot = none ∧
      ∃ c : Connections Handle, c.Forsaken m.key conn m.stream ∧ c.Sound fixed batch ∧
        c.notifier.deregistrations = s.connections.notifier.deregistrations ∧
        ready.server.connections = (c.remove m.key).state := by
  let site : Site Handle := { connections := s.connections }
  have hforsaken : site.Forsaken fixed batch m.key conn m.stream s.connections.notifier.deregistrations :=
    ⟨hs.forsaken, hc, rfl, fun _ hm => absurd hm List.not_mem_nil⟩
  obtain ⟨hgone, hended, hroused⟩ := hforsaken.departs m.self ⟨m.key, m.peer⟩ (hs.departs s.host.unread)
  generalize hrun : (s.engine.protocol.poll s.host.unread x).run (Engine.transport id m.self ⟨m.key, m.peer⟩) site =
    after at hended hroused hgone
  obtain ⟨p, hpump, hslots, hleft, hcourse⟩ := s.engine.pump_alone site hs.queue hs.works.tenant rfl hrun hended
    hroused (s.patience - 2)
  obtain ⟨hquiet, -⟩ := hgone.connection.remove hgone.sound
  have hpatience : s.patience = s.patience - 2 + 2 := (Nat.sub_add_cancel (Nat.le_add_left ..)).symm
  have hremoved : p.site.connections = (after.1.connections.remove m.key).state := by
    rw [hleft]
    rfl
  have hjournal : p.site.journal =
      after.1.journal ++ [.plain (.completed m.self.slot), .plain .connectionComplete] := by
    rw [hleft]
    have hquiet : (after.1.connections.remove m.key).notes = [] := hquiet
    simp [Engine.reclaim, Engine.reportOf, Site.after, Site.record, hquiet, Entry.plain]
  refine ⟨{ server := { s with engine := p.engine, connections := p.site.connections }
            journal := p.site.journal ++ [.plain .tasksProcessed]
            course := p.course }, ?_, hcourse, ?_, ?_, ?_, _, hgone.connection, hgone.sound, hgone.counted, hremoved⟩
  · unfold Server.prepare
    rw [hpatience, hpump]
    rfl
  · simp [hjournal]
  · intro entry hm
    simp only [hjournal, List.append_assoc, List.mem_append, List.mem_cons, List.not_mem_nil, or_false] at hm
    rcases hm with hm | (rfl | rfl) | rfl
    · exact hgone.sane entry hm
    all_goals exact Note.noConfusion
  · rw [show ({ s with engine := p.engine, connections := p.site.connections } : Server X).engine.tasks.slots =
      _ from hslots, Slots.get?_erase, if_pos rfl]

end Server

/-! ## A client takes its leave -/

/-- a client is served: its connection is in the table and watched, and its task is in flight -/
structure Server.Attends {X : Type} (s : Server X) (client : Descriptor) (key : Nat) (conn : Connection Handle)
    (h : Handle) : Prop where
  ends : ∃ i, s.host.device? client = some (.stream i .near) ∧
    s.host.device? conn.descriptor = some (.stream i .far)
  record : s.connections.get? key = some conn
  watched : (s.host.watch? conn.descriptor).isSome
  task : s.engine.tasks.Of key h

/-- a run after which the server waits again, and in which one task ended, without a failure, and its connection was
taken out of the table, off the watch, and closed -/
structure Ran.Parts {X : Type} (r : Ran X) (s : Server X) (key : Nat) (conn : Connection Handle) (h : Handle) :
    Prop where
  halt : r.halt = some .blocked
  ended : ∀ h', .ended h' ∈ r.course ↔ h' = h
  complete : .plain .connectionComplete ∈ r.journal
  sane : .plain .taskFailed ∉ r.journal
  task : ¬ r.server.engine.tasks.Of key h
  record : r.server.connections.get? key = none
  watched : r.server.host.watch? conn.descriptor = none
  closed : r.server.host.device? conn.descriptor = none
  counted : r.server.connections.notifier.deregistrations = s.connections.notifier.deregistrations + 1

namespace Server

variable {X : Type} {protocol : Http.Protocol X} {fixed : List Watch} {s : Server X} {m : Mooring} {b : Berth} {x : X}

/-- a task that waits for more, and whose client has left, ends in the next turn -/
theorem Bereft.parts (hp : s.Poised protocol fixed true) (hs : s.Bereft m (m.record b) x false)
    (hq : s.host.queue = [m.far]) (hread : b.read = true) : (s.run 2).Parts s m.key (m.record b) m.self := by
  obtain ⟨hhalt, conn, hbereft, hmeanwhile⟩ := hs.take hp hq hread
  obtain ⟨hpasses, halike⟩ := passes_take hp hhalt
  obtain ⟨ready, hprepare, hcourse, hcomplete, hsane, htask, c, hgone, hsound, hledger, hremoved⟩ :=
    hbereft.prepare (hpasses.keeps hp.settled).sound
  obtain ⟨-, hrecord, hcounted, hwatch, hdevice, hothers, hcalm, hqueue⟩ := hgone.remove hsound
  rw [← hremoved] at hrecord hcounted hwatch hdevice hothers hcalm hqueue
  rw [hbereft.descriptor] at hwatch hdevice
  have hlast : ready.server.take = { server := ready.server, halt := some .blocked } :=
    take_calm hothers hqueue hcalm
  have hrun : s.run 2 =
      { server := ready.server
        journal := s.take.journal ++ ready.journal ++ []
        course := s.take.course ++ ready.course ++ []
        halt := some .blocked } := by
    unfold run
    dsimp only
    rw [hhalt]
    dsimp only
    rw [hprepare]
    unfold run
    dsimp only
    rw [hlast]
  rw [hrun]
  simp only [List.append_nil]
  refine ⟨rfl, fun h' => ?_, ?_, fun hm => ?_, fun hof => ?_, hrecord, hwatch, hdevice, ?_⟩
  · simp only [List.mem_append, hmeanwhile.endless, false_or, hcourse]
    simp
  · exact List.mem_append_right _ hcomplete
  · rcases List.mem_append.1 hm with hm | hm
    · exact hmeanwhile.sane hm
    · exact hsane _ hm rfl
  · obtain ⟨tenant, ht, -⟩ := hof
    cases htask.symm.trans ht
  · rw [hcounted, hledger, hmeanwhile.ledger]

end Server

/-! ## The answers, and the end -/

/-- a wait that does not end leaves no interruption behind -/
theorem Host.wait_blocks {h : Host} {capacity : Nat} (hw : (h.wait capacity).2 = .blocks) :
    (h.wait capacity).1.interruptions = 0 := by
  unfold wait at hw ⊢
  dsimp only at hw ⊢
  by_cases hnone : (h.harvest capacity h.queue).reports.isEmpty
  · rw [if_pos hnone] at hw ⊢
    by_cases hcuts : h.interruptions > 0
    · simp only [interrupted?, hcuts, if_true] at hw
      cases hw
    · simp only [interrupted?, hcuts, if_false]
      exact Nat.eq_zero_of_not_pos hcuts
  · rw [if_neg hnone] at hw
    cases hw

theorem Server.take_blocked {X : Type} {s : Server X} (hhalt : s.take.halt = some .blocked) :
    s.take.server.host.interruptions = 0 := by
  cases hv : s.await.value with
  | some events => cases hstop : (s.await.state.dispatch events.toList).2 <;> simp [take, hv, hstop] at hhalt
  | none =>
    have htake : s.take.server = s.await.state := by simp [take, hv]
    have hhost : s.await.state.host = (s.host.elapse.wait s.events.capacity).1 := by
      unfold await host Notifier.wait
      dsimp only
      split <;> rfl
    rw [htake, hhost]
    refine Host.wait_blocks ?_
    unfold await Notifier.wait at hv
    dsimp only at hv
    split at hv
    · next hblocks => exact hblocks
    · cases hv
    · cases hv

/-- a client of so many requests was answered: it has heard so many successes and nothing else, and its connection is in
the table with its task in flight. If it closes its end, the task ends in the next turn, and not by a failure; its
connection is taken out of the table, off the watch and closed, and the server waits again -/
structure Server.Answered {X : Type} (o : Options) (total : Nat) (client : Descriptor) (heard : Bytes) (s : Server X) :
    Prop where
  heard : heard = successes o total
  served : ∃ key conn h, s.Attends client key conn h ∧
    ((s.onHost (·.act (.close client false))).run 2).Parts s key conn h

section Answers

variable {X : Type} {protocol : Http.Protocol X} {o : Options} {stands : Bytes → Bytes → X → Prop} {host : Host}
  {settings : Settings} {gets : List Get} {s : Server X} {client : Descriptor} {heard : Bytes}

/-- where a wait does not end, all is written and there is nothing to read, the client was answered -/
theorem Client.Dialogue.answered (ha : protocol.Answers o stands) (hlocal : protocol.Local) (hh : host.Sound)
    (hw : host.watches = []) (hu : host.Unhindered) (harms : settings.armWrites = true)
    (hd : Client.Dialogue protocol host settings (gets.flatMap Get.bytes) s (some client) [] heard)
    {count : Nat} (hrest : s.take.halt = some .blocked)
    (hread : (s.take.server.host.receive client count).2 = .error .again)
    (hfits : s.take.server.host.devices.length + Token.base < UInt64.size) :
    s.take.server.Answered o gets.length client heard := by
  have hcalm := Server.take_blocked hrest
  obtain ⟨_, hposed, -⟩ := hd.inOrder ha hlocal hh hw hu harms
  obtain ⟨-, -, -, hqueue⟩ := Server.passes_blocked hposed hrest
  obtain ⟨fixed, hp, hserved⟩ := (hd.blocked hrest).inOrder ha hlocal hh hw hu harms
  obtain ⟨view, hsees, hv⟩ := hserved hfits
  cases hsees with
  | @some _ v hm =>
  obtain ⟨i, hm⟩ := hm
  have hv : v.Serves protocol stands (successes o gets.length) [] heard := hv
  -- the client has read all that there is
  have hdrained : v.stream.toRead .near = [] := by
    rcases hv.flows.recv .near count with ⟨hnone, -⟩ | ⟨bytes, hvalue, -⟩
    · exact hnone
    · rw [hm.receive, hvalue] at hread
      cases hread
  obtain ⟨hheard, b, x, rfl, -, hflows, hstands, hparked, hfar⟩ :=
    hv.at_rest (hm.at_rest rfl hp.idle hqueue) hdrained
  obtain ⟨m, rfl, rfl, hhas⟩ := hm.places
  have hberths := hhas.holds.host
  obtain ⟨hforsaken, hstirred⟩ := Connections.forsaken_close hp.settled.sound hhas.holds.conn hberths.far hberths.near
    hberths.stream (hflows.abandoned hdrained hfar) hp.settled.unhindered.others hcalm hqueue
  have hbereft : (s.take.server.onHost (·.act (.close m.near false))).Bereft m (m.record b) x false :=
    { forsaken := hforsaken
      descriptor := rfl
      works := hhas.works
      alone := fun slot hm => by
        rw [show (s.take.server.onHost (·.act (.close m.near false))).engine.tasks.queue = [] from hp.idle] at hm
        cases hm
      departs := fun n => by
        rw [show (s.take.server.onHost (·.act (.close m.near false))).engine.protocol = protocol from hp.follows]
        exact ha.close n hstands }
  refine ⟨hheard, m.key, m.record b, m.self, ?_, ?_⟩
  · obtain ⟨word, hwatch⟩ := hberths.watch
    exact
      { ends := ⟨m.stream, hberths.near, hberths.far⟩
        record := hhas.holds.conn
        watched := Option.isSome_of_eq_some hwatch
        task := ⟨_, hhas.works.tenant, rfl, rfl⟩ }
  · have hparts := hbereft.parts (Client.poised_act hp _).1 hstirred hparked
    exact { hparts with counted := hparts.counted }

end Answers

namespace Sample

/-- asks for the root of some host, with blanks before the host's name -/
def atHost : Get where
  target := .ofText "/"
  parsed := (Target.parse (.ofText "/")).toOption.get (by decide +kernel)
  fields := [⟨.ofText "host", .ofText " a"⟩]
  parses := eq_ok_get _
  visible := by decide +kernel
  text := by decide +kernel
  few := by decide +kernel
  plain := by
    intro f hf
    cases List.mem_singleton.1 hf
    exact ⟨by decide +kernel, by decide +kernel, by decide +kernel, by decide +kernel⟩
  short := by decide +kernel

def withQuery : Get where
  target := .ofText "/a?b=c"
  parsed := (Target.parse (.ofText "/a?b=c")).toOption.get (by decide +kernel)
  fields := []
  parses := eq_ok_get _
  visible := by decide +kernel
  text := by decide +kernel
  few := by decide +kernel
  plain := nofun
  short := by decide +kernel

def asked : Bytes := [atHost, withQuery].flatMap Get.bytes

/-- a client writes pieces of these lengths, and the server is run after each of them until it waits -/
def pieces : List Nat → Server Exchange → Bytes → Server Exchange × Bytes
  | [], s, unsent => (s, unsent)
  | count :: counts, s, unsent =>
    pieces counts ((s.onHost (·.act (.send 2 (unsent.take count)))).run 4).server (unsent.drop count)

/-- every piece is accepted in full, and the server comes to wait after it -/
def Flowing : List Nat → Server Exchange → Bytes → Prop
  | [], _, _ => True
  | count :: counts, s, unsent =>
    (s.host.transmit 2 (unsent.take count)).2 = .ok count ∧
      ((s.onHost (·.act (.send 2 (unsent.take count)))).run 4).halt = some .blocked ∧
      Flowing counts ((s.onHost (·.act (.send 2 (unsent.take count)))).run 4).server (unsent.drop count)

instance : ∀ (counts : List Nat) (s : Server Exchange) (unsent : Bytes), Decidable (Flowing counts s unsent)
  | [], _, _ => .isTrue trivial
  | _ :: counts, _, _ =>
    have := instDecidableFlowing counts
    inferInstanceAs (Decidable (_ ∧ _ ∧ _))

theorem dialogue_pieces (counts : List Nat) {s : Server Exchange} {unsent heard : Bytes}
    (hd : Client.Dialogue web {} .default asked s (some 2) unsent heard) (hflows : Flowing counts s unsent) :
    Client.Dialogue web {} .default asked (pieces counts s unsent).1 (some 2) (pieces counts s unsent).2 heard := by
  induction counts generalizing s unsent with
  | nil => exact hd
  | cons count counts ih =>
    obtain ⟨hsent, hhalt, hflows⟩ := hflows
    have hwrote := hd.wrote count (.send (unsent.take count))
    rw [hsent] at hwrote
    exact ih (hwrote.ran hhalt) hflows

/-- a client has connected -/
def met : Server Exchange :=
  awake.server.onHost (·.act (.connect awake.server.listener ⟨"198.51.100.7:40000"⟩))

/-- it has written its two requests: one cut ends within an empty line, and the next piece holds parts of both -/
def written : Server Exchange := (pieces [3, 23, 10, 14] met asked).1

/-- and it has read what it was sent -/
def read : Server Exchange := (written.run 1).server.onHost (·.act (.recv 2 1000))

theorem dialogue_met : Client.Dialogue web {} .default asked met (some 2) asked [] := by
  have hstart : Client.Dialogue web {} .default asked awake.server none asked [] :=
    .start bind_serving (Option.some_get _).symm
  exact hstart.connected (.connect ⟨"198.51.100.7:40000"⟩ (by decide +kernel))

theorem dialogue_written : Client.Dialogue web {} .default asked written (some 2) [] [] := by
  have hall : (pieces [3, 23, 10, 14] met asked).2 = [] := by decide +kernel
  have hd := dialogue_pieces [3, 23, 10, 14] dialogue_met (by decide +kernel)
  rw [hall] at hd
  exact hd

theorem deserted_written : written.Deserted where
  others := by decide +kernel
  listener := by decide +kernel
  signals := ⟨ShutdownSignal.all.map (·.number), by decide +kernel, by decide +kernel⟩

end Sample

namespace Sample

/-- a server that was set up, about to wait for the first time -/
def ready? (host : Host) (settings : Settings) : Option (Server Exchange) :=
  match (Server.bind host settings web).server with
  | .ok first => (first.prepare 2).map (·.server)
  | .error _ => none

/-- a client connects to it -/
def greeted (s : Server Exchange) : Server Exchange := s.onHost (·.act (.connect s.listener ⟨"198.51.100.7:40000"⟩))

/-- and writes all that it has to ask at once -/
def outspoken (s : Server Exchange) (asked : Bytes) : Server Exchange :=
  (greeted s).onHost (·.act (.send 2 (asked.take asked.length)))

theorem dialogue_outspoken {host : Host} {settings : Settings} {s : Server Exchange} {asked : Bytes}
    (hs : ready? host settings = some s) (hjoined : (s.host.connect s.listener ⟨"198.51.100.7:40000"⟩).2 = .ok 2)
    (hsent : ((greeted s).host.transmit 2 (asked.take asked.length)).2 = .ok asked.length) :
    Client.Dialogue web host settings asked (outspoken s asked) (some 2) [] [] := by
  unfold ready? at hs
  split at hs
  · next first hbind =>
    obtain ⟨ready, hprepare, rfl⟩ := Option.map_eq_some_iff.1 hs
    have hstart : Client.Dialogue web host settings asked ready.server none asked [] := .start hbind hprepare
    have hwrote := (hstart.connected (.connect _ hjoined)).wrote asked.length (.send _)
    rw [show ((ready.server.onHost _).host.transmit 2 _).2 = _ from hsent] at hwrote
    rwa [show asked.drop ((.ok asked.length : Except Errno Nat).toOption.getD 0) = [] from List.drop_length] at hwrote
  · cases hs

/-- asks for the root and says nothing else -/
def atRoot : Get where
  target := .ofText "/"
  parsed := (Target.parse (.ofText "/")).toOption.get (by decide +kernel)
  fields := []
  parses := eq_ok_get _
  visible := by decide +kernel
  text := by decide +kernel
  few := by decide +kernel
  plain := nofun
  short := by decide +kernel

/-- more requests than answers that a stream has room for -/
def pipelined : List Get := List.replicate 279 atRoot

/-- room to write is not watched -/
def unwatching : Settings := { Settings.default with armWrites := false }

/-- a client has written all its requests, and read nothing -/
def flooded : Server Exchange :=
  outspoken ((ready? {} unwatching).get (by decide +kernel)) (pipelined.flatMap Get.bytes)

/-- it has read what it was sent while there was room -/
def eased : Server Exchange := (flooded.run 20).server.onHost (·.act (.recv 2 30000))

/-- of the descriptors that are to be watched the third is refused, which is the first client's -/
def unwilling : Host := { refusals := { watch := [none, none, some .tooManyOpen] } }

/-- a client has written its request, and was not accepted yet -/
def spurned : Server Exchange := outspoken ((ready? unwilling .default).get (by decide +kernel)) atRoot.bytes

end Sample

end EventServer
