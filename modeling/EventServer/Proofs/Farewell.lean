/-
What becomes of a connection at rest once its client has closed its end.

`Stream.Abandoned` is a stream whose near end was closed and in which nothing is left to read: its far end finds the end
of the bytes, and can still be shut down. That is what a client leaves behind that closes its end when both ends have
read all there was (`Stream.Flows.abandoned`).

`Connections.Forsaken` is a table with one such connection, in a host where nothing else is going on. A client that
closes its end while the server waits leaves this behind (`Connections.forsaken_close`). It lasts through what the
server does with the connection, one lemma for a call, until the connection is taken out; then it is off the watch,
closed, and counted (`Forsaken.remove`). So what holds of every talk whose client has left holds of one that runs over
such a connection (`Site.Forsaken.departs`).
-/
import EventServer.Proofs.Conversing
import EventServer.Proofs.Unrest

namespace EventServer

open Http

/-! ## A stream whose client has left -/

/-- the near end was closed, and nothing is left to read at the far end, nor anything wrong with it -/
structure Stream.Abandoned (s : Stream) : Prop where
  closed : s.near.closed = true
  drained : s.far.inbox = []
  quiet : s.far.trouble = none
  whole : s.far.broken = false

namespace Stream

variable {s : Stream}

theorem Flows.abandoned (hf : s.Flows) (hnear : s.toRead .near = []) (hfar : s.toRead .far = []) :
    (s.close .near false).stream.Abandoned := by
  have hunread : s.near.inbox = [] := hf.toRead_eq_nil.1 hnear
  have hend := hf.ends .far
  unfold close
  simp only [get, hunread, List.isEmpty_nil, Bool.not_true, Bool.false_and, Bool.or_false, Bool.false_eq_true, if_false]
  exact ⟨rfl, hf.toRead_eq_nil.1 hfar, hend.trouble, hend.broken⟩

theorem Abandoned.recv (ha : s.Abandoned) (count : Nat) : s.recv .far count = { stream := s, value := .ok [] } := by
  unfold Stream.recv
  simp [get, atEnd, Side.other, ha.drained, ha.quiet, ha.closed]

/-- the far end can still be shut down, and nothing is left to read there then either -/
theorem Abandoned.finish (ha : s.Abandoned) :
    (s.finish .far).value = .ok () ∧ (s.finish .far).stream.Abandoned := by
  unfold Stream.finish
  simp only [get, ha.whole, Bool.and_false, Bool.false_eq_true, if_false]
  exact ⟨trivial, ha.closed, ha.drained, ha.quiet, ha.whole⟩

theorem Abandoned.input (ha : s.Abandoned) : (s.conditions .far).input = true := by
  simp [conditions, readable, atEnd, get, Side.other, ha.closed]

end Stream

/-! ## A connection whose client has left -/

namespace Connections

variable {H : Type} {fixed : List Watch} {batch : List Readiness} {c c' : Connections H} {key i : Nat}
  {conn conn' : Connection H} {handle : H}

/-- the client of a connection has left it, and nothing else is going on in the host -/
structure Forsaken (c : Connections H) (key : Nat) (conn : Connection H) (i : Nat) : Prop where
  record : c.get? key = some conn
  far : c.host.device? conn.descriptor = some (.stream i .far)
  stream : ∃ s, c.host.streams[i]? = some s ∧ s.Abandoned
  others : c.host.others = []
  calm : c.host.interruptions = 0
  alone : ∀ d ∈ c.host.queue, d = conn.descriptor

theorem Forsaken.nudged (hf : c.Forsaken key conn i) (hrecord : c'.get? key = some conn')
    (hdescriptor : conn'.descriptor = conn.descriptor) (hnudges : Host.Nudges conn.descriptor c.host c'.host)
    (hstream : ∃ s, c'.host.streams[i]? = some s ∧ s.Abandoned) : c'.Forsaken key conn' i := by
  refine ⟨hrecord, ?_, hstream, hnudges.others.trans hf.others, ?_, fun d hd => ?_⟩
  · rw [hdescriptor, hnudges.device?]
    exact hf.far
  · exact Nat.le_zero.1 (hf.calm ▸ hnudges.interruptions)
  · rw [hdescriptor]
    rcases hnudges.queue with hq | ⟨-, hq⟩
    · exact hf.alone d (hq ▸ hd)
    · rw [hq] at hd
      rcases List.mem_append.1 hd with hd | hd
      · exact hf.alone d hd
      · exact List.mem_singleton.1 hd

/-- what is read is the end of the bytes -/
theorem Forsaken.recv (hf : c.Forsaken key conn i) (hc : c.Sound fixed batch) (handle : H) (count : Nat) :
    ∃ h, c.recv key handle count = { state := c.onHost fun _ => h, value := .ready (.ok []) } ∧
      (c.onHost fun _ => h).Forsaken key conn i := by
  obtain ⟨s, hs, ha⟩ := hf.stream
  obtain ⟨hnudges, hstreams, hvalue⟩ := Host.nudges_recv hc.host hf.others hf.far (hc.watch?_eq hf.record) hs count
  rw [ha.recv] at hvalue hstreams
  refine ⟨(Nonblocking.recv c.host conn.descriptor count).1, ?_, hf.nudged hf.record rfl hnudges ⟨s, ?_, ha⟩⟩
  · unfold Connections.recv
    rw [hf.record]
    dsimp only
    rw [show (Nonblocking.recv c.notifier.host conn.descriptor count).2 = _ from hvalue]
    rfl
  · show (Nonblocking.recv c.host conn.descriptor count).1.streams[i]? = _
    rw [hstreams, List.getElem?_set_self (List.getElem?_eq_some_iff.1 hs).1]

theorem Forsaken.shutdown (hf : c.Forsaken key conn i) (hc : c.Sound fixed batch) :
    ∃ h, c.shutdown key = (c.onHost fun _ => h, .ok ()) ∧ (c.onHost fun _ => h).Forsaken key conn i := by
  obtain ⟨s, hs, ha⟩ := hf.stream
  obtain ⟨hvalue, hafter⟩ := ha.finish
  obtain ⟨hnudges, hstreams, hresult⟩ := Host.nudges_onStream hc.host hf.far (hc.watch?_eq hf.record) hs
    (·.finish .far) (.error .badDescriptor) ((hc.host.streams s (List.mem_of_getElem? hs)).finish .far)
  have hfinish : c.notifier.host.elapse.finish conn.descriptor =
      c.host.onStream i (·.finish .far) (.error .badDescriptor) := by
    rw [Host.elapse_eq hf.others]
    unfold Host.finish
    rw [show c.notifier.host.device? conn.descriptor = _ from hf.far]
  refine ⟨(c.host.onStream i (·.finish .far) (.error .badDescriptor)).1, ?_,
    hf.nudged hf.record rfl hnudges ⟨_, ?_, hafter⟩⟩
  · unfold Connections.shutdown
    rw [hf.record]
    dsimp only
    rw [hfinish, hresult, hvalue]
  · show (c.host.onStream i (·.finish .far) (.error .badDescriptor)).1.streams[i]? = _
    rw [hstreams, List.getElem?_set_self (List.getElem?_eq_some_iff.1 hs).1]

theorem ledger_rearm (c : Connections H) (key : Nat) (conn : Connection H) (armed : Bool) :
    (c.rearm key conn armed).state.notifier.deregistrations = c.notifier.deregistrations ∧
      .taskFailed ∉ (c.rearm key conn armed).notes := by
  unfold rearm Notifier.reregister
  cases (Token.connection key).word? with
  | none =>
    refine ⟨rfl, ?_⟩
    cases armed <;> simp
  | some word =>
    dsimp only
    cases (c.notifier.host.elapse.rewatch conn.descriptor word (if armed then writingInterest else idleInterest)).2 with
    | ok done => exact ⟨rfl, by simp⟩
    | error code =>
      refine ⟨rfl, ?_⟩
      cases armed <;> simp

/-- a report of the end resumes whoever is parked for more -/
theorem Forsaken.fire (hf : c.Forsaken key conn i) (r : Readiness) :
    ∃ after, (c.fire key r).state.Forsaken key after i ∧ after.descriptor = conn.descriptor ∧
      (c.fire key r).state.notifier.deregistrations = c.notifier.deregistrations ∧
      .taskFailed ∉ (c.fire key r).notes := by
  have hget := get?_put hf.record (conn.resumed r) key
  rw [if_pos rfl] at hget
  have hnotes : .taskFailed ∉ (c.fire key r).notes := by
    unfold Connections.fire
    rw [hf.record]
    dsimp only
    have hunheeded : ∀ {p : Prop} [Decidable p],
        .taskFailed ∉ if p then [Note.unheededTrouble conn.peer] else [] := by
      intro p _
      split <;> simp
    intro hm
    refine (List.mem_append.1 hm).elim (fun hm => ?_) hunheeded
    split at hm
    · exact (ledger_rearm ..).2 hm
    · cases hm
  rw [fire_state hf.record]
  split
  · obtain ⟨marked, hslots, hnudges, hstreams, -⟩ := rearm_engages key hf.others (conn.resumed r) false
    refine ⟨{ conn.resumed r with armed := marked }, hf.nudged ?_ rfl hnudges (hstreams ▸ hf.stream), rfl,
      (ledger_rearm ..).1, hnotes⟩
    rw [get?, hslots]
    exact (Slots.get?_set hf.record ..).trans (if_pos rfl)
  · exact ⟨conn.resumed r, hf.nudged hget rfl (.refl _ _) hf.stream, rfl, rfl, hnotes⟩

/-- a connection that is taken out is off the watch and closed, and nothing is left to look at -/
theorem Forsaken.remove (hf : c.Forsaken key conn i) (hc : c.Sound fixed batch) :
    (c.remove key).notes = [] ∧ (c.remove key).state.get? key = none ∧
      (c.remove key).state.notifier.deregistrations = c.notifier.deregistrations + 1 ∧
      (c.remove key).state.host.watch? conn.descriptor = none ∧
      (c.remove key).state.host.device? conn.descriptor = none ∧ (c.remove key).state.host.others = [] ∧
      (c.remove key).state.host.interruptions = 0 ∧ (c.remove key).state.host.queue = [] := by
  obtain ⟨s, hs, -⟩ := hf.stream
  have hleft : c.notifier.deregister conn.descriptor =
      ({ c.notifier with
        host := c.host.forget conn.descriptor, deregistrations := c.notifier.deregistrations + 1 }, .ok ()) := by
    unfold Notifier.deregister
    rw [show c.notifier.host.elapse = c.host from Host.elapse_eq hf.others,
      Host.unwatch_eq hc.host (hc.watch?_eq hf.record)]
  refine ⟨?_, ?_, ?_, ?_⟩
  · unfold Connections.remove
    rw [hf.record]
    dsimp only
    rw [hleft]
  · rw [get?, remove_slots, Slots.get?_erase, if_pos rfl]
  · unfold Connections.remove
    rw [hf.record]
    dsimp only
    rw [hleft]
    rfl
  · rw [remove_host hc hf.others hf.record hf.far hs]
    refine ⟨?_, ?_, hf.others, hf.calm, ?_⟩
    · refine List.find?_eq_none.2 fun w hw => ?_
      simpa using (List.mem_filter.1 hw).2
    · exact (Host.device?_setDevice (h := (c.host.forget conn.descriptor).forget conn.descriptor) hf.far none _).trans
        (if_pos rfl)
    · refine List.filter_eq_nil_iff.2 fun d hd => ?_
      simpa using hf.alone d (List.mem_of_mem_filter hd)

end Connections

/-! ## A client that closes its end -/

namespace Host

variable {h : Host} {d far : Descriptor} {i : Nat} {w : Watch} {s : Stream}

/-- a client that closes its end has its connection looked at in the next wait -/
theorem close_near_eq (hs : h.Sound) (hd : h.device? d = some (.stream i .near))
    (hfar : h.device? far = some (.stream i .far)) (hw : h.watch? far = some w) (hstream : h.streams[i]? = some s) :
    h.close d false = { (((h.forget d).setDevice d none).enqueue far) with
      streams := h.streams.set i (s.close .near false).stream } := by
  have hne : far ≠ d := by
    rintro rfl
    rw [hd] at hfar
    cases hfar
  let gone := (h.forget d).setDevice d none
  have hforget := spares_forget hs d
  have hgone := hforget.trans (spares_setDevice hforget.sound (x := d) hd fun w hw => by
    simpa using (List.mem_filter.1 hw).2)
  have hdevice : gone.device? far = some (.stream i .far) :=
    ((device?_setDevice (h := h.forget d) hd none far).trans (if_neg hne)).trans hfar
  have hwatch : gone.watch? far = some w := (watch?_filter_ne hne _).trans hw
  have hsound : ({ gone with streams := gone.streams.set i (s.close .near false).stream } : Host).Sound :=
    hgone.sound.setStream i ((hs.streams s (List.mem_of_getElem? hstream)).close .near false)
  unfold close
  rw [hd]
  dsimp only
  unfold onStream
  rw [show gone.streams[i]? = some s from hstream]
  dsimp only
  rw [show (s.close .near false).stirs = [(.far, .any)] from rfl, stirEnds_one hsound hdevice hwatch,
    if_pos (show (Side.far == Side.far && Stir.any.concerns w.interest) = true from rfl)]
  unfold enqueue
  split <;> rfl

end Host

namespace Connections

variable {H : Type} {fixed : List Watch} {batch : List Readiness} {c : Connections H} {key i : Nat}
  {conn : Connection H} {d : Descriptor} {s : Stream}

/-- a client that leaves a connection at rest, with nothing left to read at either end -/
theorem forsaken_close (hc : c.Sound fixed batch) (hrecord : c.get? key = some conn)
    (hfar : c.host.device? conn.descriptor = some (.stream i .far))
    (hnear : c.host.device? d = some (.stream i .near)) (hstream : c.host.streams[i]? = some s)
    (hleft : (s.close .near false).stream.Abandoned) (hothers : c.host.others = [])
    (hcalm : c.host.interruptions = 0) (hq : c.host.queue = []) :
    (c.onHost (·.act (.close d false))).Forsaken key conn i ∧
      (c.onHost (·.act (.close d false))).host.queue = [conn.descriptor] := by
  have hact : c.host.act (.close d false) = c.host.close d false :=
    if_pos (by rw [Host.client?_eq_some.2 hnear]; rfl)
  have hne : conn.descriptor ≠ d := by
    rintro rfl
    rw [hnear] at hfar
    cases hfar
  have hclose := Host.close_near_eq hc.host hnear hfar (hc.watch?_eq hrecord) hstream
  have hqueue : (((c.host.forget d).setDevice d none).enqueue conn.descriptor).queue = [conn.descriptor] := by
    have hnone : ((c.host.forget d).setDevice d none).queue = [] := by
      show c.host.queue.filter _ = []
      rw [hq, List.filter_nil]
    unfold Host.enqueue
    rw [hnone]
    rfl
  have hhost : (c.onHost (·.act (.close d false))).host =
      { (((c.host.forget d).setDevice d none).enqueue conn.descriptor) with
        streams := c.host.streams.set i (s.close .near false).stream } := hact.trans hclose
  obtain ⟨hnudged, -⟩ := And.intro (((c.host.forget d).setDevice d none).nudges_enqueue conn.descriptor) trivial
  have hdevice : (((c.host.forget d).setDevice d none).enqueue conn.descriptor).device? conn.descriptor =
      some (.stream i .far) := by
    rw [hnudged.device?]
    exact ((Host.device?_setDevice (h := c.host.forget d) hnear none conn.descriptor).trans (if_neg hne)).trans hfar
  refine ⟨⟨hrecord, ?_, ⟨_, ?_, hleft⟩, ?_, ?_, ?_⟩, ?_⟩
  · rw [hhost]
    exact hdevice
  · rw [hhost]
    exact List.getElem?_set_self (List.getElem?_eq_some_iff.1 hstream).1
  · rw [hhost]
    exact hnudged.others.trans hothers
  · rw [hhost]
    exact Nat.le_zero.1 (hcalm ▸ hnudged.interruptions)
  · rw [hhost]
    intro e he
    exact List.mem_singleton.1 (hqueue ▸ he)
  · rw [hhost]
    exact hqueue

end Connections

/-! ## The last run of a task -/

/-- a site with a forsaken connection, after so many deregistrations, where no failure of a task was reported -/
structure Site.Forsaken (site : Site Handle) (fixed : List Watch) (batch : List Readiness) (slot : Nat)
    (conn : Connection Handle) (i count : Nat) : Prop where
  connection : site.connections.Forsaken slot conn i
  sound : site.connections.Sound fixed batch
  counted : site.connections.notifier.deregistrations = count
  sane : ∀ entry ∈ site.journal, entry.note ≠ .taskFailed

section Forsaken

variable {α : Type} {fixed : List Watch} {batch : List Readiness} {conn : Connection Handle} {i count : Nat}
  {site : Site Handle} (self : Handle) (place : Place) (hs : site.Forsaken fixed batch place.slot conn i count)

include hs

theorem Site.Forsaken.recv (room : Nat) :
    ((Engine.transport id self place).recv site room).1.Forsaken fixed batch place.slot conn i count ∧
      ((Engine.transport id self place).recv site room).2 = .ready (.ok []) := by
  obtain ⟨h, hrecv, hf⟩ := hs.connection.recv hs.sound self room
  have hsound := (Connections.sound_recv hs.sound place.slot self room).1
  have hcall : (Engine.transport id self place).recv site room =
      (site.after place (site.connections.recv place.slot self room),
        (site.connections.recv place.slot self room).value) := rfl
  rw [hrecv] at hsound hcall
  rw [hcall]
  refine ⟨⟨hf, hsound, hs.counted, ?_⟩, rfl⟩
  simpa [Site.after, Site.record] using hs.sane

theorem Site.Forsaken.shutdown :
    ((Engine.transport id self place).shutdown site).1.Forsaken fixed batch place.slot conn i count ∧
      ((Engine.transport id self place).shutdown site).2 = .ok () := by
  obtain ⟨h, hdown, hf⟩ := hs.connection.shutdown hs.sound
  have hsound := (Connections.sound_shutdown hs.sound place.slot).1
  have hcall : (Engine.transport id self place).shutdown site =
      ({ site with connections := (site.connections.shutdown place.slot).1 },
        (site.connections.shutdown place.slot).2) := rfl
  rw [hdown] at hsound hcall
  rw [hcall]
  exact ⟨⟨hf, hsound, hs.counted, hs.sane⟩, rfl⟩

theorem Site.Forsaken.note {fact : Note} (hfact : fact ≠ .taskFailed) :
    ((Engine.transport id self place).note site fact).Forsaken fixed batch place.slot conn i count := by
  refine ⟨hs.connection, hs.sound, hs.counted, fun entry hm => ?_⟩
  rcases List.mem_append.1 hm with hm | hm
  · exact hs.sane entry hm
  · cases List.mem_singleton.1 hm
    exact hfact

/-- a talk whose client has left, over its connection -/
theorem Site.Forsaken.departs {talk : Talk α} {P : α → Prop} (h : talk.Departs P) :
    (talk.run (Engine.transport id self place) site).1.Forsaken fixed batch place.slot conn i count ∧
      P (talk.run (Engine.transport id self place) site).2 :=
  h.run (J := fun site => site.Forsaken fixed batch place.slot conn i count) (Engine.transport id self place)
    (fun room hs => hs.recv self place room) (fun hs => hs.shutdown self place)
    (fun hfact hs => hs.note self place hfact) hs

end Forsaken

end EventServer
