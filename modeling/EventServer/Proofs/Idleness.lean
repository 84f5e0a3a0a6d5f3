/-
Idle connections: each of them can be resumed, and only by reports on itself.

What is parked on a connection belongs to the task of that connection (`Connections.Owns`), so a report resumes nobody
else. The other way round is the harder half: a task that is not to run has its handle parked on its own connection
(`Attended`). A report takes handles out and queues their tasks; a poll that ends waiting had a read or a write wait,
which parked the handle, or queues the task again. That is what the protocol must keep to (`Http.Protocol.Attentive`);
the server tells each poll how many bytes can come, and no more do (`parks_talk`).

`Tended` puts both together with what is known of the exchanges. Every small thing that a server does keeps it
(`Tended.fire`, `Tended.welcome`, `Tended.ran`), so it holds of every state that is reached (`Reached.tends`). At a wait
no task is to run, which leaves the handles: `no_connection_stranded`.
-/
import EventServer.Proofs.Attention
import EventServer.Proofs.Endurance
import EventServer.Proofs.Inbound
import EventServer.Proofs.Noninterference
import EventServer.Proofs.Parking

namespace EventServer

variable {X : Type}

namespace Connections

variable {H : Type} {c c' : Connections H} {P : H → Prop} {key other : Nat} {handle : H}

/-- a handle is parked on the connection in a slot -/
def Parks (c : Connections H) (key : Nat) (handle : H) : Prop :=
  ∃ conn, c.get? key = some conn ∧ handle ∈ conn.handles

theorem Parks.of_slots (hp : c.Parks key handle) (hs : c'.slots = c.slots) : c'.Parks key handle := by
  obtain ⟨conn, hg, hm⟩ := hp
  exact ⟨conn, by rwa [get?, hs], hm⟩

theorem parks_of_set {old conn : Connection H} (hg : c.get? key = some old) (hs : c'.slots = c.slots.set key conn)
    (hm : handle ∈ conn.handles) : c'.Parks key handle := by
  refine ⟨conn, ?_, hm⟩
  rw [get?, hs, Slots.get?_set hg, if_pos rfl]

/-- an operation on one connection leaves what is parked on the others -/
theorem Parks.amends (hp : c.Parks other handle) (ha : Amends P key c c') (hne : other ≠ key) :
    c'.Parks other handle := by
  rcases ha with hs | ⟨old, conn, hold, hs, -⟩
  · exact hp.of_slots hs
  · obtain ⟨x, hg, hm⟩ := hp
    refine ⟨x, ?_, hm⟩
    rw [get?, hs, Slots.get?_set hold, if_neg hne]
    exact hg

theorem Parks.remove (hp : c.Parks other handle) (hne : other ≠ key) : (c.remove key).state.Parks other handle := by
  obtain ⟨conn, hg, hm⟩ := hp
  refine ⟨conn, ?_, hm⟩
  rw [get?, remove_slots, Slots.get?_erase, if_neg hne]
  exact hg

/-- a read that would have to wait parks its handle, and one that was parked stays so -/
theorem parks_recv (count : Nat) (h : c.Parks key handle ∨ (c.recv key handle count).value = .pending) :
    (c.recv key handle count).state.Parks key handle := by
  rcases c.recv_cases key handle count with ⟨hready, hs⟩ | ⟨conn, hg, -, hs⟩
  · exact (h.resolve_right hready).of_slots hs
  · refine parks_of_set hg hs (List.mem_append_left _ ?_)
    simp

/-- so does a write -/
theorem parks_send (bytes : Bytes) (h : c.Parks key handle ∨ (c.send key handle bytes).value = .pending) :
    (c.send key handle bytes).state.Parks key handle := by
  rcases c.send_cases key handle bytes with ⟨hready, hs⟩ | ⟨conn, armed, hg, -, hs, -⟩
  · exact (h.resolve_right hready).of_slots hs
  · refine parks_of_set hg hs (List.mem_append_right _ ?_)
    simp

/-- what was parked on a connection that a report is about is resumed by it or stays there -/
theorem Parks.fire (hp : c.Parks key handle) (r : Readiness) :
    handle ∈ (c.fire key r).value ∨ (c.fire key r).state.Parks key handle := by
  obtain ⟨conn, hg, hm⟩ := hp
  rcases c.fire_cases key r with ⟨hnone, -⟩ | ⟨conn', armed, hg', hvalue, hs, -⟩
  · rw [hg] at hnone
    cases hnone
  · rw [hg] at hg'
    cases hg'
    rw [hvalue]
    rcases List.mem_append.1 hm with hread | hwrite
    · cases hheeds : r.heeds .read with
      | true => exact .inl (List.mem_append_left _ hread)
      | false =>
        have hskip : (r.readable || r.closed) = false := hheeds
        exact .inr (parks_of_set hg hs (List.mem_append_left _ (by simpa [Connection.resumed, hskip] using hread)))
    · cases hheeds : r.heeds .write with
      | true => exact .inl (List.mem_append_right _ hwrite)
      | false =>
        have hskip : (r.writable || r.closed) = false := hheeds
        exact .inr (parks_of_set hg hs (List.mem_append_right _ (by simpa [Connection.resumed, hskip] using hwrite)))

end Connections

/-! ## Talks -/

/-- a talk over the transport of a connection comes to what is ensured of it, and no more bytes are there then than can
come still; if a call had to wait in it, the handle of its task is parked on the connection -/
theorem parks_talk {α : Type} {fixed : List Watch} {batch : List Readiness} {talk : Http.Talk α} {budget : Nat}
    {Q : Nat → Bool → α → Prop} (h : talk.Ensures budget false Q) (self : Handle) (place : Place) {site : Site Handle}
    (hc : site.connections.Sound fixed batch) (hbudget : site.connections.host.inbound ≤ budget) :
    ∃ left stalled, Q left stalled (talk.run (Engine.transport id self place) site).2 ∧
      (stalled → (talk.run (Engine.transport id self place) site).1.connections.Parks place.slot self) ∧
      (talk.run (Engine.transport id self place) site).1.connections.host.inbound ≤ left := by
  have hrun := h.run (Engine.transport id self place) (J := fun stalled s =>
      s.connections.Sound fixed batch ∧ (stalled → s.connections.Parks place.slot self))
    (fun s => s.connections.host.inbound) (fun {stalled s} count ⟨hc, hp⟩ => ?_) (fun {stalled s} bytes ⟨hc, hp⟩ => ?_)
    (fun {stalled s} ⟨hc, hp⟩ => ?_) (fun _ hj => ⟨hj, Nat.le_refl _⟩) ⟨hc, fun hs => by cases hs⟩ hbudget
  · obtain ⟨left, stalled, hq, ⟨-, hp⟩, hleft⟩ := hrun
    exact ⟨left, stalled, hq, hp, hleft⟩
  · refine ⟨⟨(Connections.sound_recv hc place.slot self count).1, fun hs => Connections.parks_recv count ?_⟩,
      Connections.inbound_recv hc place.slot self count⟩
    rcases Bool.or_eq_true_iff.1 hs with hs | hs
    · exact .inl (hp hs)
    · exact .inr (Http.waits_iff.1 hs)
  · refine ⟨⟨(Connections.sound_send hc place.slot self bytes).1, fun hs => Connections.parks_send bytes ?_⟩,
      Connections.inbound_send hc place.slot self bytes⟩
    rcases Bool.or_eq_true_iff.1 hs with hs | hs
    · exact .inl (hp hs)
    · exact .inr (Http.waits_iff.1 hs)
  · exact ⟨⟨(Connections.sound_shutdown hc place.slot).1, fun hs =>
      (hp hs).of_slots (Connections.shutdown_slots ..)⟩, s.connections.inbound_shutdown place.slot⟩

/-- a talk leaves what is parked on other connections -/
theorem parks_talk_other {α : Type} (talk : Http.Talk α) (self : Handle) {place : Place} {other : Nat} {handle : Handle}
    (hne : other ≠ place.slot) {site : Site Handle} (hp : site.connections.Parks other handle) :
    (talk.run (Engine.transport id self place) site).1.connections.Parks other handle :=
  Http.Talk.run_keeps (T := Engine.transport id self place) (I := fun s => s.connections.Parks other handle)
    (fun _ hp => hp.amends (Connections.amends_recv ..) hne)
    (fun _ hp => hp.amends (Connections.amends_send ..) hne)
    (fun hp => hp.of_slots (Connections.shutdown_slots ..)) (fun _ hp => hp) talk hp

/-! ## Marks -/

namespace Tasks

variable {U F E ε : Type} {t : Tasks U F}

theorem mem_marked_wakes (t : Tasks U F) (hs : List Handle) (serial : Nat) :
    serial ∈ (hs.foldl wake t).marked ↔ (∃ h ∈ hs, serial = h.serial) ∨ serial ∈ t.marked := by
  induction hs generalizing t with
  | nil => simp
  | cons h rest ih =>
    rw [List.foldl_cons, ih, mem_marked_wake]
    simp [or_assoc, or_left_comm]

/-- a run takes the mark of the task that runs away, and sets those of whoever it wakes -/
theorem mem_marked_runSlot (r : Runner E F ε) (env : E) {slot : Nat} {tenant : Tenant U F}
    (ht : t.slots.get? slot = some tenant) (serial : Nat) :
    serial ∈ (runSlot r t env slot).tasks.marked ↔
      (∃ h ∈ (r.run ⟨slot, tenant.serial⟩ env tenant.work).woken, serial = h.serial) ∨
        serial ∈ t.marked ∧ serial ≠ tenant.serial := by
  have hwakes := mem_marked_wakes { t with marked := t.marked.filter (· != tenant.serial) }
    (r.run ⟨slot, tenant.serial⟩ env tenant.work).woken serial
  simp only [List.mem_filter, bne_iff_ne] at hwakes
  unfold runSlot
  rw [ht]
  dsimp only
  split <;> exact hwakes

end Tasks

/-! ## Tasks that are tended -/

variable {fixed : List Watch} {oblige : Prop} {batch : List Readiness} {past : List Moment} {arises : X → Prop}
  {t t' : Tasks Nat (ConnectionTask X)} {c c' : Connections Handle} {slot : Nat}
  {tenant : Tenant Nat (ConnectionTask X)}

/-- a task is to run, or its handle is parked on its own connection -/
def Attended (t : Tasks Nat (ConnectionTask X)) (c : Connections Handle) (slot : Nat)
    (tenant : Tenant Nat (ConnectionTask X)) : Prop :=
  tenant.serial ∈ t.marked ∨ c.Parks tenant.work.place.slot ⟨slot, tenant.serial⟩

/-- what is parked belongs to the task of the connection it is parked on, the exchanges of the tasks in flight are such
as come about, and each of the tasks is attended -/
structure Tended (arises : X → Prop) (t : Tasks Nat (ConnectionTask X)) (c : Connections Handle) : Prop where
  owned : c.Owns t.Of
  arises : ∀ {slot tenant}, t.slots.get? slot = some tenant → arises tenant.work.exchange
  attended : ∀ {slot tenant}, t.slots.get? slot = some tenant → Attended t c slot tenant

theorem Attended.mono (ha : Attended t c slot tenant) (hm : tenant.serial ∈ t.marked → tenant.serial ∈ t'.marked)
    (hp : c.Parks tenant.work.place.slot ⟨slot, tenant.serial⟩ →
      c'.Parks tenant.work.place.slot ⟨slot, tenant.serial⟩) : Attended t' c' slot tenant :=
  Or.imp hm hp ha

namespace Tended

theorem onHost (ht : Tended arises t c) (change : Host → Host) : Tended arises t (c.onHost change) :=
  ⟨ht.owned, ht.arises, ht.attended⟩

/-- a handle that a report takes out has its task queued -/
theorem fire (ht : Tended arises t c) (key : Nat) (r : Readiness) :
    Tended arises ((c.fire key r).value.foldl Tasks.wake t) (c.fire key r).state := by
  obtain ⟨hslots, -⟩ := t.wakes_slots (c.fire key r).value
  have hamends := c.amends_fire key r
  refine ⟨?_, fun htenant => ht.arises (hslots ▸ htenant), fun {slot tenant} htenant => ?_⟩
  · rw [Tasks.of_congr hslots]
    exact ht.owned.amends hamends fun _ => False.elim
  · rw [hslots] at htenant
    have hstays : tenant.serial ∈ t.marked → tenant.serial ∈ ((c.fire key r).value.foldl Tasks.wake t).marked :=
      fun hm => (t.mem_marked_wakes _ _).2 (.inr hm)
    rcases ht.attended htenant with hm | hp
    · exact .inl (hstays hm)
    · by_cases hkey : tenant.work.place.slot = key
      · subst hkey
        rcases hp.fire r with hm | hp
        · exact .inl ((t.mem_marked_wakes _ _).2 (.inl ⟨_, hm, rfl⟩))
        · exact .inr hp
      · exact .inr (hp.amends hamends hkey)

/-- a new task is to run, and nothing is parked on its connection -/
theorem welcome {s : Server X} (ht : Tended arises s.engine.tasks s.connections) (hl : s.engine.tasks.Law past)
    (hc : s.connections.slots.Tidy) (hstart : arises s.engine.protocol.start) (d : Descriptor) (peer : Address) :
    Tended arises (s.welcome d peer).server.engine.tasks (s.welcome d peer).server.connections := by
  obtain ⟨-, hhandles, -⟩ := Connections.insert_keeps hc d peer
  rcases s.welcome_cases d peer with ⟨fault, -, hslots, hs⟩ | ⟨-, hslots, hs⟩
  · rw [hs]
    refine ⟨fun key conn hg h hm => ?_, ht.arises, fun htenant => ?_⟩
    · obtain ⟨old, hold, hm⟩ := hhandles key conn hg h hm
      exact ht.owned key old hold h hm
    · exact (ht.attended htenant).mono id fun hp => hp.of_slots hslots
  · rw [hs]
    have hget : ∀ slot, (s.engine.serve s.connections.slots.nextKey peer).state.tasks.slots.get? slot =
        if slot = s.engine.tasks.slots.nextKey then some ⟨s.engine.tasks.nextSerial,
          ⟨⟨s.connections.slots.nextKey, peer⟩, s.engine.protocol.start⟩, some s.connections.slots.nextKey⟩
        else s.engine.tasks.slots.get? slot := Slots.get?_insert hl.tidy _
    refine ⟨fun key conn hg h hm => ?_, fun {slot tenant} htenant => ?_, fun {slot tenant} htenant => ?_⟩
    · obtain ⟨old, hold, hm⟩ := hhandles key conn hg h hm
      exact (ht.owned key old hold h hm).push hl _ _
    · rw [hget] at htenant
      split at htenant
      · cases htenant
        exact hstart
      · exact ht.arises htenant
    · rw [hget] at htenant
      split at htenant
      · cases htenant
        exact .inl (List.mem_cons_self ..)
      · refine (ht.attended htenant).mono (List.mem_cons_of_mem _) fun ⟨conn, hg, hm⟩ => ⟨conn, ?_, hm⟩
        have hne : tenant.work.place.slot ≠ s.connections.slots.nextKey := fun he => by
          rw [he, Connections.get?, Slots.get?_nextKey hc] at hg
          cases hg
        rw [Connections.get?, hslots, Slots.get?_insert hc, if_neg hne]
        exact hg

end Tended

/-! ## Runs of a task -/

variable {protocol : Http.Protocol X} {site : Site Handle} {rest : List Nat}

/-- two tasks in flight are of two connections -/
theorem Turning.place_ne (hturning : Turning fixed oblige batch t c [] past)
    (htenant : t.slots.get? slot = some tenant) {other : Nat} {tenant' : Tenant Nat (ConnectionTask X)}
    (htenant' : t.slots.get? other = some tenant') (hne : other ≠ slot) :
    tenant'.work.place.slot ≠ tenant.work.place.slot := by
  intro he
  obtain ⟨conn, hg⟩ := hturning.live htenant
  obtain ⟨own, -, hunique⟩ := hturning.served hg
  have hslot := hunique slot ⟨tenant, htenant, hturning.placed htenant⟩
  have hother := hunique other ⟨tenant', htenant', he ▸ hturning.placed htenant'⟩
  exact hne (hother.trans hslot.symm)

namespace Scene

/-- what a poll of a slot's tenant comes to -/
def answered (protocol : Http.Protocol X) (site : Site Handle) (slot : Nat) (tenant : Tenant Nat (ConnectionTask X)) :
    Http.Polled X :=
  ((protocol.poll site.connections.notifier.host.unread tenant.work.exchange).run
    (Engine.transport id ⟨slot, tenant.serial⟩ tenant.work.place) site).2

/-- a slot with a tenant was run: the tenant waits with its exchange as the poll left it, or it has left and its
connection too. Its mark is gone, unless it is to be resumed -/
theorem ran_tenant (htenant : t.slots.get? slot = some tenant)
    (hplaced : tenant.userdata = some tenant.work.place.slot) (protocol : Http.Protocol X) (site : Site Handle)
    (rest : List Nat) :
    (∀ serial, serial ∈ (ran protocol t site slot rest).tasks.marked ↔
      ((answered protocol site slot tenant).roused ∧ serial = tenant.serial) ∨
        serial ∈ t.marked ∧ serial ≠ tenant.serial) ∧
    ((answered protocol site slot tenant).ended = .waiting ∧
        (ran protocol t site slot rest).tasks.slots = t.slots.set slot
          { tenant with work := { tenant.work with exchange := (answered protocol site slot tenant).exchange } } ∧
        (ran protocol t site slot rest).connections = talked protocol site slot tenant ∨
      (ran protocol t site slot rest).tasks.slots = t.slots.erase slot ∧
        (ran protocol t site slot rest).connections =
          ((talked protocol site slot tenant).remove tenant.work.place.slot).state) := by
  have htenant' : ({ t with queue := rest } : Tasks Nat (ConnectionTask X)).slots.get? slot = some tenant := htenant
  refine ⟨fun serial => ?_, ?_⟩
  · have hmarked := Tasks.mem_marked_runSlot (Engine.runner protocol id) site htenant' serial
    refine hmarked.trans (or_congr ?_ Iff.rfl)
    show (∃ h ∈ if (answered protocol site slot tenant).roused then [(⟨slot, tenant.serial⟩ : Handle)] else [],
      serial = h.serial) ↔ _
    cases (answered protocol site slot tenant).roused <;> simp
  · have hended := Mooring.runner_none protocol ⟨slot, tenant.serial⟩ site tenant.work
    obtain ⟨hslots, -⟩ := Tasks.wakes_slots
      { t with queue := rest, marked := t.marked.filter (· != tenant.serial) }
      ((Engine.runner protocol id).run ⟨slot, tenant.serial⟩ site tenant.work).woken
    unfold ran pumped Tasks.runSlot
    rw [htenant']
    dsimp only
    cases ho : ((Engine.runner protocol id).run ⟨slot, tenant.serial⟩ site tenant.work).outcome with
    | none =>
      refine .inl ⟨hended.1 ho, ?_, rfl⟩
      dsimp only
      rw [hslots]
      rfl
    | some outcome =>
      refine .inr ⟨?_, ?_⟩
      · dsimp only
        rw [hslots]
      · simp only [Option.elim_some, Engine.reclaim, hplaced]
        rfl

end Scene

/-- a run of a slot leaves the others as they were -/
theorem Tended.ran_other (hturning : Turning fixed oblige [] t site.connections [] past)
    (ht : Tended arises t site.connections) (htenant : t.slots.get? slot = some tenant) {other : Nat}
    {tenant' : Tenant Nat (ConnectionTask X)} (htenant' : t.slots.get? other = some tenant') (hne : other ≠ slot)
    (protocol : Http.Protocol X) (rest : List Nat) :
    Attended (Scene.ran protocol t site slot rest).tasks (Scene.ran protocol t site slot rest).connections other
      tenant' := by
  obtain ⟨hmarked, hcases⟩ := Scene.ran_tenant htenant (hturning.placed htenant) protocol site rest
  have hserial : tenant'.serial ≠ tenant.serial := fun he => hne (hturning.law.distinct htenant' htenant he)
  refine (ht.attended htenant').mono (fun hm => (hmarked _).2 (.inr ⟨hm, hserial⟩)) fun hparked => ?_
  have hplace := hturning.place_ne htenant htenant' hne
  have htalked := parks_talk_other (protocol.poll site.connections.notifier.host.unread tenant.work.exchange)
    ⟨slot, tenant.serial⟩ hplace hparked
  rcases hcases with ⟨-, -, hc⟩ | ⟨-, hc⟩
  · rw [hc]
    exact htalked
  · rw [hc]
    exact htalked.remove hplace

/-- a slot is run: its tenant waits with a read or a write that had to wait, or it is to be resumed, or it has left;
the others are as they were -/
theorem Tended.ran (hp : protocol.Attentive arises) (hturning : Turning fixed oblige [] t site.connections [] past)
    (ht : Tended arises t site.connections) (slot : Nat) (rest : List Nat) :
    Tended arises (Scene.ran protocol t site slot rest).tasks (Scene.ran protocol t site slot rest).connections := by
  obtain ⟨howned, -⟩ := Scene.owned_ran hturning.placed ht.owned protocol slot rest
  cases htenant : t.slots.get? slot with
  | none =>
    have hsame : (Scene.ran protocol t site slot rest).tasks = { t with queue := rest } ∧
        (Scene.ran protocol t site slot rest).connections = site.connections := by
      unfold Scene.ran Scene.pumped Tasks.runSlot
      rw [show ({ t with queue := rest } : Tasks Nat (ConnectionTask X)).slots.get? slot = none from htenant]
      exact ⟨rfl, rfl⟩
    rw [hsame.1, hsame.2]
    exact ⟨ht.owned, ht.arises, ht.attended⟩
  | some tenant =>
    obtain ⟨left, stalled, hensures, hparks, -⟩ := parks_talk (hp.waits _ (ht.arises htenant)) ⟨slot, tenant.serial⟩
      tenant.work.place hturning.table (Host.inbound_le_unread _)
    obtain ⟨hmarked, hcases⟩ := Scene.ran_tenant htenant (hturning.placed htenant) protocol site rest
    have hall : ∀ {other tenant'}, (Scene.ran protocol t site slot rest).tasks.slots.get? other = some tenant' →
        arises tenant'.work.exchange ∧ Attended (Scene.ran protocol t site slot rest).tasks
          (Scene.ran protocol t site slot rest).connections other tenant' := by
      intro other tenant' htenant'
      rcases hcases with ⟨hwaiting, hslots, hc⟩ | ⟨hslots, -⟩
      · rw [hslots, Slots.get?_set htenant] at htenant'
        split at htenant'
        · next he =>
          cases htenant'
          subst he
          obtain ⟨harises, hstalled | hroused⟩ := hensures hwaiting
          · exact ⟨harises, .inr (hc ▸ hparks hstalled)⟩
          · exact ⟨harises, .inl ((hmarked _).2 (.inl ⟨hroused, rfl⟩))⟩
        · next hne => exact ⟨ht.arises htenant', ht.ran_other hturning htenant htenant' hne protocol rest⟩
      · rw [hslots, Slots.get?_erase] at htenant'
        split at htenant'
        · cases htenant'
        · next hne => exact ⟨ht.arises htenant', ht.ran_other hturning htenant htenant' hne protocol rest⟩
    exact ⟨howned, fun h => (hall h).1, fun h => (hall h).2⟩

/-- what a run of a slot keeps a pump does: it runs slots one after another, and takes the connections of tasks that end
out -/
theorem pump_keeps {I : Tasks Nat (ConnectionTask X) → Connections Handle → Prop}
    (hran : ∀ {t : Tasks Nat (ConnectionTask X)} {site : Site Handle} {past : List Moment} (slot : Nat)
      (rest : List Nat), Turning fixed oblige [] t site.connections [] past → I t site.connections →
        I (Scene.ran protocol t site slot rest).tasks (Scene.ran protocol t site slot rest).connections)
    {e : Engine X} (hprotocol : e.protocol = protocol)
    (hturning : Turning fixed oblige [] e.tasks site.connections [] past) (hi : I e.tasks site.connections)
    {limit : Nat} {report : PumpTally} {p : Pumped X Handle} (hpump : e.pumpUpTo id limit site report = some p) :
    I p.engine.tasks p.site.connections ∧ p.engine.protocol = protocol := by
  induction limit generalizing e site report past p with
  | zero => cases hpump
  | succ limit ih =>
    unfold Engine.pumpUpTo at hpump
    cases hpoll : e.tasks.poll (Engine.runner e.protocol id) limit site with
    | none =>
      rw [hpoll] at hpump
      cases hpump
    | some polled =>
      rw [hpoll] at hpump
      subst hprotocol
      obtain ⟨⟨hturned, hkept⟩, -⟩ := Tasks.poll_keeps
        (P := fun t (env : Site Handle) (completed : Option (Completed Nat TaskFailure)) course =>
          Turning fixed oblige [] t env.connections (completed.toList.map (·.userdata)) (past ++ course.map .task) ∧
            I t (Scene.pumped t env completed).connections)
        (fun {t site course slot rest} hboth hq => by
          obtain ⟨hturning, hi⟩ := hboth
          have hrun := turning_runSlot e.protocol hturning rfl hq
          exact ⟨by simpa using hrun, hran slot rest hturning hi⟩) [] ⟨by simpa using hturning, hi⟩ hpoll
      rw [List.nil_append] at hturned
      dsimp only at hpump
      cases hc : polled.completed with
      | none =>
        rw [hc] at hpump hkept
        cases hpump
        exact ⟨hkept, rfl⟩
      | some done =>
        simp only [hc, Option.map_eq_some_iff] at hpump
        obtain ⟨q, hq, rfl⟩ := hpump
        rw [hc] at hturned hkept
        have hrest := ih (e := { e with tasks := polled.tasks }) rfl (Turning.reclaim done hturned) hkept hq
        exact hrest

theorem tended_pump (hp : protocol.Attentive arises) {e : Engine X} (hprotocol : e.protocol = protocol)
    (hturning : Turning fixed oblige [] e.tasks site.connections [] past) (ht : Tended arises e.tasks site.connections)
    {limit : Nat} {report : PumpTally} {p : Pumped X Handle} (hpump : e.pumpUpTo id limit site report = some p) :
    Tended arises p.engine.tasks p.site.connections ∧ p.engine.protocol = protocol :=
  pump_keeps (fun slot rest hturning ht => ht.ran hp hturning slot rest) hprotocol hturning ht hpump

/-! ## Turns of the loop -/

namespace Server

variable {s : Server X}

/-- a server that follows the protocol and tends its tasks -/
structure Tends (protocol : Http.Protocol X) (arises : X → Prop) (s : Server X) : Prop where
  follows : s.engine.protocol = protocol
  tended : Tended arises s.engine.tasks s.connections

theorem Tends.onHost (ht : s.Tends protocol arises) (change : Host → Host) : (s.onHost change).Tends protocol arises :=
  ⟨ht.follows, ht.tended.onHost change⟩

theorem tends_acceptUpTo (hp : protocol.Attentive arises) (limit : Nat) (hs : s.Upholds fixed oblige batch past)
    (ht : s.Tends protocol arises) : (s.acceptUpTo limit).server.Tends protocol arises := by
  induction limit generalizing s past with
  | zero => exact ht
  | succ limit ih =>
    obtain ⟨hu, hnew⟩ := Nonblocking.accept_spec (h := s.host) hs.table.host s.listener
    have hafter := hs.onHost hu
    have haccepted := ht.onHost fun _ => (Nonblocking.accept s.host s.listener).1
    unfold acceptUpTo
    dsimp only
    cases hr : (Nonblocking.accept s.host s.listener).2 with
    | wouldBlock => exact haccepted
    | failed fault => exact haccepted
    | done accepted =>
      obtain ⟨d, peer⟩ := accepted
      obtain ⟨⟨id, hd⟩, hw⟩ := hnew hr
      have hwelcome := hafter.toTurning.welcome (s := s.onHost fun _ => (Nonblocking.accept s.host s.listener).1) hd hw
        peer
      exact ih ⟨hwelcome, (welcome_standing ..).trans hafter.own⟩
        ⟨(alike_welcome ..).protocol.trans haccepted.follows,
          haccepted.tended.welcome hafter.law hafter.table.tidy (haccepted.follows ▸ hp.start) d peer⟩

theorem tends_handle (hp : protocol.Attentive arises) {r : Readiness} (hs : s.Upholds fixed oblige (r :: batch) past)
    (ht : s.Tends protocol arises) : (s.handle r).1.server.Tends protocol arises := by
  unfold handle
  cases hr : r.token with
  | listener => exact tends_acceptUpTo hp _ ⟨hs.toTurning.drop fun key => by simp [hr], hs.own⟩ ht
  | signals =>
    simp only [readSignal]
    split <;> exact ht.onHost _
  | connection key =>
    simp only [resume, foldl_wake]
    exact ⟨ht.follows, ht.tended.fire key r⟩

theorem tends_dispatch (hp : protocol.Attentive arises) (reports : List Readiness)
    (hs : s.Upholds fixed oblige (reports ++ batch) past) (ht : s.Tends protocol arises)
    (hstop : (s.dispatch reports).2 = none) : (s.dispatch reports).1.server.Tends protocol arises := by
  induction reports generalizing s past with
  | nil => exact ht
  | cons r rest ih =>
    obtain ⟨hfirst, -⟩ := upholds_handle hs
    unfold dispatch at hstop ⊢
    dsimp only at hstop ⊢
    cases hh : (s.handle r).2 with
    | some signal => simp [hh] at hstop
    | none =>
      simp only [hh] at hstop ⊢
      exact ih hfirst (tends_handle hp hs ht) hstop

theorem tends_prepare (hp : protocol.Attentive arises) (hs : s.Upholds fixed oblige [] past)
    (ht : s.Tends protocol arises) {limit : Nat} {w : Worked X} (hw : s.prepare limit = some w) :
    w.server.Tends protocol arises := by
  simp only [prepare, Option.map_eq_some_iff] at hw
  obtain ⟨pumped, hpump, rfl⟩ := hw
  obtain ⟨htended, hfollows⟩ := tended_pump hp ht.follows hs.toTurning ht.tended hpump
  exact ⟨hfollows, htended⟩

/-- a wait is no matter of the tasks -/
theorem Tends.await (ht : s.Tends protocol arises) : s.await.state.Tends protocol arises :=
  ⟨ht.follows, ht.tended.owned, ht.tended.arises, ht.tended.attended⟩

/-- a server that was put together has no task and no connection -/
theorem tends_bind {h : Host} {settings : Settings} (hb : (bind h settings protocol).server = .ok s) :
    s.Tends protocol arises := by
  obtain ⟨hengine, notifier, armWrites, hconnections⟩ := empty_of_bind hb
  refine ⟨by rw [hengine]; rfl, fun key conn hg => ?_, fun htenant => ?_, fun htenant => ?_⟩
  · rw [hconnections] at hg
    cases hg
  · rw [hengine] at htenant
    cases htenant
  · rw [hengine] at htenant
    cases htenant

end Server

namespace Reached

variable {first s : Server X} {phase : Phase}

/-- the tasks are tended in every state that is reached -/
theorem tends (hp : protocol.Attentive arises) (hu : first.Upholds fixed oblige [] [])
    (hf : first.Tends protocol arises) (hr : Reached first phase s past) : s.Tends protocol arises := by
  induction hr with
  | start => exact hf
  | others deed _ ih => exact ih.onHost _
  | pumped hr hw ih => exact Server.tends_prepare hp (hr.upholds hu).1 ih hw
  | @took s past hr hhalt ih =>
    obtain ⟨hs, hq⟩ := hr.upholds hu
    have hawait := Server.upholds_await hs (hq rfl)
    have htends := ih.await
    unfold Server.take at hhalt ⊢
    cases hv : s.await.value with
    | none => simp [hv] at hhalt
    | some events =>
      simp only [hv, Option.map_eq_none_iff] at hhalt ⊢
      rw [hv] at hawait
      have hbatch : s.await.state.Upholds fixed oblige (events.toList ++ []) (past ++ [.wait]) := by simpa using hawait
      exact Server.tends_dispatch hp events.toList hbatch htends hhalt
  | @blocked s past _ hhalt ih =>
    have htends := ih.await
    unfold Server.take at hhalt ⊢
    cases hv : s.await.value with
    | none =>
      simp only [hv]
      exact htends
    | some events => simp [hv] at hhalt

end Reached

/-- every connection can be resumed, and by reports on itself only -/
structure Server.Idle (s : Server X) : Prop where
  /-- what is parked on a connection is of the task in flight whose user data is the slot of the connection -/
  own : ∀ {key conn}, s.connections.get? key = some conn → ∀ h ∈ conn.handles, s.engine.tasks.Of key h
  /-- a report on a connection resumes no other task -/
  fired : ∀ key r, ∀ h ∈ (s.connections.fire key r).value, s.engine.tasks.Of key h
  /-- a task in flight is parked on the connection that it acts on -/
  parked : ∀ {slot tenant}, s.engine.tasks.slots.get? slot = some tenant →
    ∃ key conn, tenant.userdata = some key ∧ s.connections.get? key = some conn ∧
      ⟨slot, tenant.serial⟩ ∈ conn.handles

/-- **No connection is stranded.** A server is about to wait whose protocol lets a poll end waiting only if in that poll a
read or a write had to wait, or if it resumes the task itself. Then what is parked on a connection is of its own task,
so a report on the connection resumes nobody else; and every task in flight has a handle parked on its own connection. -/
theorem no_connection_stranded {host : Host} {settings : Settings} {first s : Server X}
    (hp : protocol.Attentive arises) (hh : host.Sound) (hw : host.watches = [])
    (hb : (Server.bind host settings protocol).server = .ok first) (hr : Reached first .wait s past) : s.Idle := by
  have hu := Server.upholds_bind False hh hw False.elim hb
  obtain ⟨hs, hq⟩ := hr.upholds hu
  have htended := (hr.tends hp hu (Server.tends_bind hb)).tended
  refine ⟨fun hg => htended.owned _ _ hg, fun key r h => Scene.of_fire (a := s.scene []) htended.owned,
    fun {slot tenant} htenant => ?_⟩
  obtain ⟨conn, hg, hm⟩ := (htended.attended htenant).resolve_left (hs.law.not_marked (hq rfl) htenant)
  exact ⟨_, conn, hs.placed htenant, hg, hm⟩

namespace Sample

/-- two clients have called -/
def joined : Server Http.Exchange :=
  (awake.server.onHost (·.act (.connect 0 ⟨"198.51.100.7:40000"⟩))).onHost
    (·.act (.connect 0 ⟨"198.51.100.8:40000"⟩))

/-- their connections were accepted, and their tasks wait for a request -/
def gathered : Worked Http.Exchange := (joined.take.server.prepare joined.take.server.patience).get (by decide +kernel)

/-- one of them has asked -/
def asking : Server Http.Exchange := gathered.server.onHost (·.act (.send 2 request))

/-- it was answered, and the server is about to wait -/
def replied : Worked Http.Exchange := (asking.take.server.prepare asking.take.server.patience).get (by decide +kernel)

theorem reached_replied : ∃ past, Reached serving .wait replied.server past :=
  ⟨_, ((((((Reached.start.pumped (Option.some_get _).symm).others _).others _).took (by decide +kernel)).pumped
    (Option.some_get _).symm).others _).took (by decide +kernel) |>.pumped (Option.some_get _).symm⟩

end Sample

/-- HTTP is attentive: whoever was answered and whoever never asked are parked, each on its own connection -/
theorem no_connection_stranded_replied : Sample.replied.server.Idle ∧ ∀ slot < 2, ∃ conn,
    Sample.replied.server.connections.get? slot = some conn ∧ ⟨slot, slot⟩ ∈ conn.handles := by
  obtain ⟨past, hr⟩ := Sample.reached_replied
  have hidle := no_connection_stranded (Http.attentive_protocol _) Sample.sound_empty rfl Sample.bind_serving hr
  refine ⟨hidle, fun slot hslot => ?_⟩
  have hthere : ∀ slot < 2, (Sample.replied.server.engine.tasks.slots.get? slot).any
      fun tenant => tenant.serial == slot && tenant.userdata == some slot := by decide +kernel
  obtain ⟨tenant, htenant, hsame⟩ := (Option.any_eq_true _ _).1 (hthere slot hslot)
  obtain ⟨hserial, huser⟩ := Bool.and_eq_true_iff.1 hsame
  obtain ⟨key, conn, hkey, hg, hm⟩ := hidle.parked htenant
  have hserial : tenant.serial = slot := beq_iff_eq.1 hserial
  have huser : tenant.userdata = some slot := beq_iff_eq.1 huser
  cases hkey.symm.trans huser
  exact ⟨conn, hg, hserial ▸ hm⟩

end EventServer
