/-
Agreement: the parts of a server never fall out of step.

`no_work_left` is about the states in which the server is about to wait: no slot is to run, and every task in flight was
run since it was last asked to, with no wait in between. `parts_agree` is about every state, at the head of the loop and
at a wait: the tasks in flight, the live connections, what is watched and the ledger say the same.
-/
import EventServer.Proofs.Loop
import Mathlib.Data.List.Nodup

namespace EventServer

variable {X : Type} {host : Host} {settings : Settings} {protocol : Http.Protocol X} {first s : Server X}
  {phase : Phase} {past : List Moment}

/-- **No work is left at a wait.** The server is about to wait. Then no slot is to run. A task in flight was pushed, and
each time that it was asked to run, by the push or by a handle of its own, it was run before the next wait. -/
theorem no_work_left (hh : host.Sound) (hw : host.watches = [])
    (hb : (Server.bind host settings protocol).server = .ok first) (hr : Reached first .wait s past) :
    s.engine.tasks.queue = [] ∧ ∀ {slot tenant}, s.engine.tasks.slots.get? slot = some tenant →
      .task (.pushed ⟨slot, tenant.serial⟩) ∈ past ∧
      ∀ earlier asked later, past = earlier ++ asked :: later → asked.asks tenant.serial →
        RunBeforeWait ⟨slot, tenant.serial⟩ later := by
  obtain ⟨hs, hq⟩ := hr.upholds (Server.upholds_bind False hh hw False.elim hb)
  have hq := hq rfl
  refine ⟨hq, fun {slot tenant} ht => ⟨hs.law.pushed ht, fun earlier asked later he hasks => ?_⟩⟩
  have hmark := hs.law.not_marked hq ht
  exact (hs.law.answered ht earlier asked later he hasks).resolve_right fun hm => hmark hm.1

/-- a client that was accepted was served before the next wait -/
theorem no_work_left_answered : Sample.answered.engine.tasks.queue = [] ∧
    RunBeforeWait ⟨0, 0⟩ (Sample.parked.course.map .task) := by
  obtain ⟨hq, htasks⟩ := no_work_left Sample.sound_empty rfl Sample.bind_first Sample.reached_answered
  have hthere : (Sample.answered.engine.tasks.slots.get? 0).any fun tenant => tenant.serial == 0 := by decide +kernel
  obtain ⟨tenant, ht, hserial⟩ := Option.any_eq_true _ _ |>.1 hthere
  have hserial : tenant.serial = 0 := beq_iff_eq.1 hserial
  have hpushed : Sample.called.take.course = [.pushed ⟨0, 0⟩] := by decide +kernel
  refine ⟨hq, hserial ▸ (htasks ht).2 [.wait] (.task (.pushed ⟨0, 0⟩)) _ ?_ hserial.symm⟩
  rw [hpushed]
  rfl

namespace Turning

variable {fixed : List Watch} {oblige : Prop} {batch : List Readiness} {t : Tasks Nat (ConnectionTask X)}
  {c : Connections Handle}

/-- a task in flight is of a connection that is there -/
theorem live (ht : Turning fixed oblige batch t c [] past) {slot : Nat} {tenant : Tenant Nat (ConnectionTask X)}
    (htenant : t.slots.get? slot = some tenant) : ∃ conn, c.get? tenant.work.place.slot = some conn := by
  have hpaired := ht.paired
  rw [List.append_nil] at hpaired
  have hdata : some tenant.work.place.slot ∈ c.keys.map some :=
    hpaired.mem_iff.1 (List.mem_map.2 ⟨(slot, tenant), Slots.mem_toList.2 htenant, ht.placed htenant⟩)
  obtain ⟨key, hkey, he⟩ := List.mem_map.1 hdata
  obtain ⟨⟨k, conn⟩, hm, rfl⟩ := List.mem_map.1 hkey
  exact ⟨conn, Option.some.inj he ▸ Connections.mem_toList.1 hm⟩

/-- a connection is of one task in flight: user data are paired with keys, and no key comes twice -/
theorem served (ht : Turning fixed oblige batch t c [] past) {key : Nat} {conn : Connection Handle}
    (hg : c.get? key = some conn) :
    ∃! slot, ∃ tenant, t.slots.get? slot = some tenant ∧ tenant.userdata = some key := by
  have hpaired := ht.paired
  rw [List.append_nil] at hpaired
  have hkey : some key ∈ t.slots.toList.map (·.2.userdata) :=
    hpaired.mem_iff.2 (List.mem_map_of_mem (List.mem_map.2 ⟨(key, conn), Connections.mem_toList.2 hg, rfl⟩))
  have hnodup : (t.slots.toList.map (·.2.userdata)).Nodup :=
    hpaired.nodup_iff.2 (c.slots.nodup_keys.map fun _ _ => Option.some.inj)
  obtain ⟨⟨slot, tenant⟩, hm, hdata⟩ := List.mem_map.1 hkey
  refine ⟨slot, ⟨tenant, Slots.mem_toList.1 hm, hdata⟩, fun slot' ⟨tenant', ht', hdata'⟩ => ?_⟩
  have hsame := List.inj_on_of_nodup_map hnodup (Slots.mem_toList.2 ht') hm (hdata'.trans hdata.symm)
  exact congrArg Prod.fst hsame

end Turning

namespace Server

/-- the tasks in flight, the live connections, what is watched and the ledger say the same -/
structure Agrees (s : Server X) : Prop where
  /-- the user data of a task is the slot that it acts on, and a connection is there -/
  live : ∀ {slot tenant}, s.engine.tasks.slots.get? slot = some tenant →
    tenant.userdata = some tenant.work.place.slot ∧ ∃ conn, s.connections.get? tenant.work.place.slot = some conn
  /-- a connection is served by one task -/
  served : ∀ {key conn}, s.connections.get? key = some conn →
    ∃! slot, ∃ tenant, s.engine.tasks.slots.get? slot = some tenant ∧ tenant.userdata = some key
  /-- what is watched is the listener, the source of signals and each connection once, and nothing else -/
  watched : s.host.watches.Perm (s.standing ++ s.connections.slots.toList.map fun entry => entry.2.watch entry.1)
  /-- a connection is watched under the word of its slot, and is the far end of a stream -/
  words : ∀ {key conn}, s.connections.get? key = some conn →
    (conn.watch key).word.toNat = 2 + key ∧ ∃ id, s.host.device? conn.descriptor = some (.stream id .far)
  ledger : s.connections.notifier.registrations =
    s.connections.notifier.deregistrations + (2 + s.connections.slots.size)

end Server

/-- **The parts of a server agree** at the head of the loop and at every wait, whatever led there. -/
theorem parts_agree (hh : host.Sound) (hw : host.watches = [])
    (hb : (Server.bind host settings protocol).server = .ok first) (hr : Reached first phase s past) : s.Agrees := by
  obtain ⟨hs, -⟩ := hr.upholds (Server.upholds_bind False hh hw False.elim hb)
  have hown := hs.own
  refine ⟨fun ht => ⟨hs.placed ht, hs.live ht⟩, fun hg => hs.served hg, hown ▸ hs.table.watches,
    fun hg => ⟨hs.table.word_toNat hg, hs.table.far hg⟩, ?_⟩
  have hledger := hs.table.ledger
  rw [← hown] at hledger
  rw [hledger, Nat.add_assoc]
  rfl

/-- one client is served and another waits to be accepted -/
theorem parts_agree_answered : Sample.answered.Agrees :=
  parts_agree Sample.sound_empty rfl Sample.bind_first Sample.reached_answered

end EventServer
