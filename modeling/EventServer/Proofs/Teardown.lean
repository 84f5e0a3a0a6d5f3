/-
Teardown: what is left in the ledger when a server that was stopped by a signal has let go of everything.

A connection whose task ends is taken off the watch before it is closed, and that is counted. A server that lets go of
everything closes the connections that are in flight, and closing ends a watch without a word to the ledger
(`Host.closings_spec`). So the watch is empty at the end (`Server.watches_release`), and the ledger is short by the
connections that were in flight (`Server.release_ledger`): it balances in the runs that end with none in flight and in
no others.

`StoppedBy.upholds` carries the invariant over the turn that the signal cuts short. `stopped_ledger` is the result, and
`not_balanced_dismissed` a run that ends with a connection that was registered and never deregistered.
-/
import EventServer.Proofs.Endurance
import EventServer.Proofs.Idleness

namespace EventServer

/-! ## Closing one descriptor after another -/

namespace Host

variable {h : Host}

theorem Sound.guarded (hs : h.Sound) : h.Guarded := by
  refine ⟨hs.watches, fun w hw => ?_⟩
  obtain ⟨device, hd, hours⟩ := hs.watched w hw
  rw [Stands, kind?, hd, Option.map_some, Option.any_some, Device.stands_kind]
  cases device with
  | stream id side => cases side <;> first | rfl | cases hours
  | file => cases hours
  | counter | idleSocket | listener _ | signalSource _ => rfl

/-- closes one descriptor after another; others act in between -/
def closings (h : Host) (descriptors : List Descriptor) : Host := descriptors.foldl (fun h d => h.elapse.close d false) h

/-- the watches of what is closed end, and all others stay -/
theorem closings_spec (hg : h.Guarded) (descriptors : List Descriptor) :
    (h.closings descriptors).Guarded ∧
      (h.closings descriptors).watches = h.watches.filter fun w => !descriptors.contains w.descriptor := by
  induction descriptors generalizing h with
  | nil => exact ⟨hg, (List.filter_eq_self.2 fun _ _ => rfl).symm⟩
  | cons d rest ih =>
    have hsteady := steady_elapse hg
    obtain ⟨hguarded, hwatches⟩ := ih (guarded_close (hsteady.guarded hg) d false)
    refine ⟨hguarded, hwatches.trans ?_⟩
    rw [(h.elapse.close_spec d false).1, hsteady.watches, List.filter_filter]
    refine List.filter_congr fun w _ => ?_
    by_cases hd : w.descriptor = d <;> simp [hd]

end Host

namespace Server

variable {X : Type} {fixed : List Watch} {oblige : Prop} {batch : List Readiness} {past : List Moment}
  {m s after : Server X} {signal : ShutdownSignal}

/-- the turn that a signal cuts short keeps the invariant; the reports behind the signal are not dealt with -/
theorem StoppedBy.upholds (hs : m.Upholds fixed oblige [] past) (hq : m.engine.tasks.queue = [])
    (hstop : m.StoppedBy signal after) : ∃ batch later, after.Upholds fixed oblige batch later := by
  obtain ⟨events, before, r, later, hvalue, hevents, -, hgoes, hread⟩ := hstop
  have hawait := upholds_await hs hq
  rw [hvalue, Option.map_some, Option.getD_some, hevents] at hawait
  have hdispatch := (upholds_dispatch before hawait hgoes).1
  have helapse := Host.undisturbed_elapse hdispatch.table.host
  have hu := helapse.trans (Host.undisturbed_readSignal helapse.sound
    (m.await.state.dispatch before).1.server.signals.descriptor)
  exact ⟨_, _, hread.after ▸ hdispatch.onHost hu⟩

/-- a server that has let go of everything is watching nothing -/
theorem watches_release (hs : s.Upholds fixed oblige batch past) : s.release.server.host.watches = [] := by
  have hclosed := (Host.closings_spec hs.table.host.guarded
    ((s.connections.slots.toList.map fun entry => entry.2.descriptor) ++ [s.listener, s.signals.descriptor])).2
  refine hclosed.trans (List.filter_eq_nil_iff.2 fun w hw => ?_)
  have hwatched := hs.table.watches.mem_iff.1 hw
  rw [← hs.own] at hwatched
  have hclosing : w.descriptor ∈
      (s.connections.slots.toList.map fun entry => entry.2.descriptor) ++ [s.listener, s.signals.descriptor] := by
    rcases List.mem_append.1 hwatched with hm | hm
    · refine List.mem_append_right _ ?_
      simpa [standing] using List.mem_map_of_mem (f := Watch.descriptor) hm
    · obtain ⟨entry, hentry, rfl⟩ := List.mem_map.1 hm
      exact List.mem_append_left _ (List.mem_map.2 ⟨entry, hentry, rfl⟩)
  rw [List.contains_iff_mem.2 hclosing]
  exact Bool.false_ne_true

/-- what a server lets go of is not counted as deregistered -/
theorem release_ledger (hs : s.Upholds fixed oblige batch past) :
    s.release.server.connections.notifier.registrations =
        s.release.server.connections.notifier.deregistrations + 2 + s.connections.slots.size ∧
      s.connections.slots.size = s.engine.inFlight := by
  have hledger := hs.table.ledger
  rw [← hs.own] at hledger
  have hpaired := hs.paired.length_eq
  simp only [List.append_nil, List.length_map, Connections.keys] at hpaired
  exact ⟨hledger, hpaired.symm⟩

end Server

/-- **Teardown leaves the ledger short by what was in flight.** In every run that a shutdown signal ends, with any
clients and any interleaving, the server that has let go of everything has no task and no connection left and watches
nothing. But the connections that were in flight lost their watch by being closed, with no deregistration: registrations
exceed deregistrations by the listener, the source of signals and one for each of those connections. So connections are
deregistered as often as registered in the runs that end with no connection in flight, and in no others. -/
theorem stopped_ledger {X : Type} {host : Host} {settings : Settings} {protocol : Http.Protocol X} {first s : Server X}
    {past : List Moment} {limit : Nat} {signal : ShutdownSignal} (hh : host.Sound) (hw : host.watches = [])
    (hb : (Server.bind host settings protocol).server = .ok first) (hr : Reached first .wait s past)
    (hstop : (s.run limit).halt = some (.stopped signal)) :
    let stopped := (s.run limit).server
    let ended := stopped.release.server
    let ledger := ended.connections.notifier
    ended.engine.inFlight = 0 ∧ ended.connections.slots.size = 0 ∧ ended.host.watches = [] ∧
      ledger.registrations = ledger.deregistrations + 2 + stopped.engine.inFlight ∧
      (ledger.registrations = ledger.deregistrations + 2 ↔ stopped.connections.slots.size = 0) := by
  obtain ⟨m, later, hm, hstopped⟩ := hr.stopped hstop
  obtain ⟨hup, hq⟩ := hm.upholds (Server.upholds_bind False hh hw False.elim hb)
  obtain ⟨batch, past, hup⟩ := hstopped.upholds hup (hq rfl)
  obtain ⟨hledger, hpaired⟩ := Server.release_ledger hup
  exact ⟨rfl, rfl, Server.watches_release hup, by omega, by omega⟩

namespace Sample

/-- two clients are served, none of them is done, and the server is told to end -/
def dismissed : Server Http.Exchange := replied.server.onHost (·.act (.signal 15))

theorem reached_dismissed : ∃ past, Reached serving .wait dismissed past :=
  reached_replied.imp fun _ hr => hr.others _

end Sample

theorem stopped_ledger_dismissed :
    let stopped := (Sample.dismissed.run 1).server
    let ledger := stopped.release.server.connections.notifier
    (Sample.dismissed.run 1).halt = some (.stopped .terminate) ∧ stopped.engine.inFlight = 2 ∧
      stopped.release.server.host.watches = [] ∧ ledger.registrations = ledger.deregistrations + 2 + 2 := by
  obtain ⟨past, hr⟩ := Sample.reached_dismissed
  have hstop : (Sample.dismissed.run 1).halt = some (.stopped .terminate) := by decide +kernel
  have hflight : (Sample.dismissed.run 1).server.engine.inFlight = 2 := by decide +kernel
  obtain ⟨-, -, hwatches, hledger, -⟩ := stopped_ledger Sample.sound_empty rfl Sample.bind_serving hr hstop
  exact ⟨hstop, hflight, hwatches, hflight ▸ hledger⟩

/-- connections are not deregistered as often as they were registered in every run that a signal ends -/
theorem not_balanced_dismissed :
    ¬ ∀ (s : Server Http.Exchange) (past : List Moment) (limit : Nat) (signal : ShutdownSignal),
      Reached Sample.serving .wait s past → (s.run limit).halt = some (.stopped signal) →
        (s.run limit).server.release.server.connections.notifier.registrations =
          (s.run limit).server.release.server.connections.notifier.deregistrations + 2 := by
  intro hbalanced
  obtain ⟨past, hr⟩ := Sample.reached_dismissed
  have hledger := hbalanced Sample.dismissed past 1 .terminate hr (by decide +kernel)
  have hregistered : (Sample.dismissed.run 1).server.release.server.connections.notifier.registrations = 4 := by
    decide +kernel
  have hnone : (Sample.dismissed.run 1).server.release.server.connections.notifier.deregistrations = 0 := by
    decide +kernel
  omega

end EventServer
