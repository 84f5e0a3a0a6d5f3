/-
Delivery: whatever a task waits for reaches it, and nothing else does.

`no_readiness_lost` is about the states in which the server is about to wait. If a read is parked on a connection that
has something to be read by now, the notifier still has a report that resumes it; and so for a parked write once there
is room. `no_readiness_misdirected` is about the reports of a wait: each that is about a slot finds the very connection
there that brought it about, whatever was accepted while those before it were dealt with.
-/
import EventServer.Proofs.Loop

namespace EventServer

variable {X : Type} {host : Host} {settings : Settings} {protocol : Http.Protocol X} {first s : Server X}
  {past : List Moment}

/-- **No readiness is lost.** The server is about to wait. A read that is parked on a connection although it would not
have to wait any more will be resumed by a report that the notifier has yet to deliver. A write that is parked although
there is room, or trouble, will be so too; for that the host must not refuse to watch for room, and the server must be
set to ask it. -/
theorem no_readiness_lost (hh : host.Sound) (hw : host.watches = [])
    (hb : (Server.bind host settings protocol).server = .ok first) (hr : Reached first .wait s past) {key : Nat}
    {conn : Connection Handle} (hg : s.connections.get? key = some conn) :
    (conn.read.isParked → ∀ count, Outcome.ofResult (s.host.receive conn.descriptor count).2 ≠ .wouldBlock →
      ∃ r ∈ Notifier.told s.host.undelivered, r.token = .connection key ∧ (r.readable ∨ r.closed)) ∧
    (settings.armWrites → host.Obliging → conn.write.isParked →
      (s.host.conditions conn.descriptor).output ∨ (s.host.conditions conn.descriptor).error →
      ∃ r ∈ Notifier.told s.host.undelivered, r.token = .connection key ∧ (r.writable ∨ r.closed)) := by
  obtain ⟨hs, -⟩ := hr.upholds (Server.upholds_bind (settings.armWrites ∧ host.Obliging) hh hw id hb)
  obtain ⟨id, hd⟩ := hs.table.far hg
  refine ⟨fun hp count hn => ?_, fun hset hobl hp hc => ?_⟩
  · have hcalls : (s.host.conditions conn.descriptor).calls .read := by
      cases hc : (s.host.conditions conn.descriptor).calls .read with
      | true => rfl
      | false => exact absurd (Host.receive_of_quiet hs.table.host hd hc count) hn
    obtain ⟨r, hm, htoken, hheeds⟩ := Connections.undelivered_of_told hs.table hg .read hp
      conn.covers_read hcalls
    exact ⟨r, hm, htoken, by simpa [Readiness.heeds] using hheeds⟩
  · have harmed := (hs.arming ⟨hset, hobl⟩).armed hg hp
    have hcovers : conn.interest.covers .write := by simp [Connection.interest, harmed]; rfl
    have hcalls : (s.host.conditions conn.descriptor).calls .write := by simpa [Conditions.calls] using hc
    obtain ⟨r, hm, htoken, hheeds⟩ := Connections.undelivered_of_told hs.table hg .write hp hcovers hcalls
    exact ⟨r, hm, htoken, by simpa [Readiness.heeds] using hheeds⟩

/-- a client that sends and reads while both a read and a write are parked -/
theorem no_readiness_lost_answered :
    (∃ r ∈ Notifier.told Sample.answered.host.undelivered, r.token = .connection 0 ∧ (r.readable ∨ r.closed)) ∧
      ∃ r ∈ Notifier.told Sample.answered.host.undelivered, r.token = .connection 0 ∧ (r.writable ∨ r.closed) := by
  have hlooks : (Sample.answered.connections.get? 0).any fun conn => conn.read.isParked && conn.write.isParked &&
      (Sample.answered.host.receive conn.descriptor 1).2.toOption == some [104] &&
      (Sample.answered.host.conditions conn.descriptor).output := by decide +kernel
  obtain ⟨conn, hg, hlooks⟩ := Option.any_eq_true _ _ |>.1 hlooks
  simp only [Bool.and_eq_true, beq_iff_eq] at hlooks
  obtain ⟨⟨⟨hread, hwrite⟩, hreceive⟩, hroom⟩ := hlooks
  have hdelivered := no_readiness_lost Sample.sound_empty rfl Sample.bind_first Sample.reached_answered hg
  refine ⟨hdelivered.1 hread 1 fun hwait => ?_, hdelivered.2 rfl (by simp [Host.Obliging]) hwrite (.inl hroom)⟩
  cases hr : (Sample.answered.host.receive conn.descriptor 1).2 with
  | error code =>
    rw [hr] at hreceive
    cases hreceive
  | ok bytes =>
    rw [hr] at hwait
    cases hwait

namespace Server

/-- what the wait that is to come will find, each report with the watch that it is about -/
def produced (s : Server X) : List (Watch × Conditions) := (s.connections.notifier.found s.events.capacity).reports

/-- the server waits and deals with the first of the reports -/
def upTo (s : Server X) (before : List (Watch × Conditions)) : Worked X × Option ShutdownSignal :=
  s.await.state.dispatch (Notifier.told before)

end Server

/-- **No readiness is misdirected.** A report of the wait is about a slot, and those before it do not stop the server.
Then its turn comes in the state that they leave, and the connection that was in the slot when the server waited is
there still: the one whose descriptor brought the report about, at the same end of the same stream. -/
theorem no_readiness_misdirected (hh : host.Sound) (hw : host.watches = [])
    (hb : (Server.bind host settings protocol).server = .ok first) (hr : Reached first .wait s past)
    {before after : List (Watch × Conditions)} {w : Watch} {conditions : Conditions} {key : Nat}
    (hreport : s.produced = before ++ (w, conditions) :: after) (hkey : Token.ofWord w.word = .connection key)
    (hgoes : (s.upTo before).2 = none) :
    (∃ events, s.await.value = some events ∧ (s.await.state.dispatch events.toList).1.server =
      ((s.upTo before).1.server.dispatch (Readiness.ofReport w.word conditions :: Notifier.told after)).1.server) ∧
    ∃ conn conn' id, s.connections.get? key = some conn ∧ conn.descriptor = w.descriptor ∧
      s.host.device? w.descriptor = some (.stream id .far) ∧
      (s.upTo before).1.server.connections.get? key = some conn' ∧ conn'.descriptor = w.descriptor ∧
      conn'.peer = conn.peer ∧ (s.upTo before).1.server.host.device? w.descriptor = some (.stream id .far) := by
  obtain ⟨hs, hq⟩ := hr.upholds (Server.upholds_bind False hh hw False.elim hb)
  have hawait := Server.upholds_await hs (hq rfl)
  obtain ⟨events, hv, htold⟩ := ((s.connections.notifier.wait_spec s.events).2.resolve_left fun hnone => by
    rw [Server.produced, hnone.2] at hreport
    simp at hreport)
  rw [show (s.connections.notifier.found s.events.capacity).reports = s.produced from rfl, hreport, Notifier.told,
    List.map_append, List.map_cons] at htold
  rw [show s.await.value = some events from hv, Option.map_some, Option.getD_some, htold] at hawait
  obtain ⟨-, hstays⟩ := Server.upholds_dispatch (Notifier.told before) hawait hgoes
  refine ⟨⟨events, hv, ?_⟩, ?_⟩
  · rw [htold]
    exact (Server.dispatch_append _ _ _ hgoes).1
  have hwatched : w ∈ s.host.watches := by
    have hm : (w, conditions) ∈ s.produced := hreport ▸ by simp
    exact (Host.undisturbed_elapse hs.table.host).watches ▸ (Host.mem_harvest hm).1
  have hstanding : w ∉ first.standing := fun hm => by
    rcases List.mem_cons.1 hm with rfl | hm
    · cases hkey
    · cases List.mem_singleton.1 hm
      cases hkey
  obtain ⟨conn, hg, rfl⟩ := hs.table.of_word hwatched hkey hstanding
  obtain ⟨id, hfar⟩ := hs.table.far hg
  have hmoved := (Connections.stays_wait hs.table s.events).trans hstays
  obtain ⟨conn', hg', hdescriptor, hpeer⟩ := hmoved.conns hg
  exact ⟨conn, conn', id, hg, rfl, hfar, hg', hdescriptor, hpeer, hmoved.ends hg hfar⟩

/-- a client is accepted before a report on a slot is dealt with -/
theorem no_readiness_misdirected_answered :
    ∃ conn conn' id, Sample.answered.connections.get? 0 = some conn ∧ conn.descriptor = 3 ∧
      Sample.answered.host.device? 3 = some (.stream id .far) ∧
      (Sample.answered.upTo (Sample.answered.produced.take 1)).1.server.connections.get? 0 = some conn' ∧
      conn'.descriptor = 3 ∧ conn'.peer = conn.peer ∧
      (Sample.answered.upTo (Sample.answered.produced.take 1)).1.server.host.device? 3 = some (.stream id .far) := by
  have hreport : Sample.answered.produced = Sample.answered.produced.take 1 ++
      (⟨3, 2, Connections.writingInterest⟩, ⟨true, true, false, false⟩) :: [] := by decide +kernel
  have hgoes : (Sample.answered.upTo (Sample.answered.produced.take 1)).2 = none := by decide +kernel
  exact (no_readiness_misdirected Sample.sound_empty rfl Sample.bind_first Sample.reached_answered hreport rfl hgoes).2

end EventServer
