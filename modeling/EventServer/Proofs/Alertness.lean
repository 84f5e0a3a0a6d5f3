/-
Alertness: who waits at the listener of a server is not forgotten, whatever else there is to do.

The listener is watched for as long as somebody waits at it and not for edges, so a report of it puts it back into the
queue. Hence it is queued whenever somebody waits (`Server.Alert`): from the server that `bind` puts together on
(`alert_bind`), through waits (`Alert.awaited`), drains (`alert_acceptAll`) and all else that a server does
(`Undrained`), so that every server that is reached is alert (`alert_reached`). A wait comes to the listener, or its
buffer is full of what was queued before; then the listener is nearer the front of the queue by as many places
(`Host.harvest_level`).

With what a drain comes to (`FullDrain`) that gives the main result, `accept_drains`.
-/
import EventServer.Proofs.Accepting
import EventServer.Proofs.Waiting

namespace EventServer

/-! ## What a wait does about a watch that is not for edges -/

namespace Host

variable {h : Host} {d : Descriptor} {w : Watch}

/-- a queued descriptor with something to be seen is reported and looked at again, or so many others were reported that
were queued before it, and it is that much nearer the front -/
theorem harvest_level (hw : h.watch? d = some w) (hlevel : w.interest.edge = false)
    (hseen : (visible w.interest (h.conditions d)).none = false) (capacity : Nat) {queue : List Descriptor}
    (hd : d ∈ queue) :
    let found := h.harvest capacity queue
    (w, visible w.interest (h.conditions d)) ∈ found.reports ∧ d ∈ found.again ∨
      d ∈ found.left ∧ found.reports.length = capacity ∧ found.left.idxOf d + capacity ≤ queue.idxOf d := by
  induction queue generalizing capacity with
  | nil => cases hd
  | cons x rest ih =>
    cases capacity with
    | zero => exact .inr ⟨hd, rfl, Nat.le_refl _⟩
    | succ capacity =>
      by_cases he : x = d
      · subst he
        unfold harvest
        simp [hw, hseen, hlevel]
      · have hd : d ∈ rest := (List.mem_cons.1 hd).resolve_left (Ne.symm he)
        have hnext : (x :: rest).idxOf d = rest.idxOf d + 1 := List.idxOf_cons_ne _ he
        -- nothing is to be seen of the first in the queue, so no room is taken up
        have hskip := (ih (capacity + 1) hd).imp_right fun hfull =>
          And.intro hfull.1 (And.intro hfull.2.1 ((Nat.le_succ_of_le hfull.2.2).trans_eq hnext.symm))
        unfold harvest
        cases hv : h.watch? x with
        | none => exact hskip
        | some v =>
          dsimp only
          split
          · exact hskip
          · rcases ih capacity hd with ⟨hreport, hagain⟩ | ⟨hleft, hlength, hindex⟩
            · refine .inl ⟨List.mem_cons_of_mem _ hreport, ?_⟩
              dsimp only
              split
              · exact hagain
              · exact List.mem_cons_of_mem _ hagain
            · refine .inr ⟨hleft, congrArg (· + 1) hlength, ?_⟩
              rw [hnext]
              exact Nat.succ_le_succ hindex

end Host

/-! ## Alert servers -/

namespace Server

variable {X : Type} {s s' : Server X} {extra : Nat} {came taken waiting left : List Arrival} {fixed : List Watch}
  {oblige : Prop} {batch : List Readiness} {past : List Moment}

/-- the listener is watched for callers, not for edges, and queued if somebody waits at it; and a wait has room for a
report -/
structure Alert (s : Server X) : Prop where
  listens : ∃ waiting, s.host.device? s.listener = some (.listener waiting)
  watch : s.host.watch? s.listener = some ⟨s.listener, 0, .reading⟩
  level : ∀ {waiting}, s.host.device? s.listener = some (.listener waiting) → waiting ≠ [] → s.listener ∈ s.host.queue
  room : 0 < s.events.capacity

theorem standing_listener (hs : s'.standing = s.standing) : s'.listener = s.listener := by
  injection hs with hfirst
  injection hfirst

/-- callers that come and that are taken leave a server alert -/
theorem Alert.admits (ha : s.Alert) (hlistener : s'.listener = s.listener)
    (hcapacity : s'.events.capacity = s.events.capacity)
    (hadmits : Host.Admits s.listener extra came taken s.host s'.host) : s'.Alert := by
  obtain ⟨waiting, hl⟩ := ha.listens
  obtain ⟨left, hleft, hwaiting⟩ := hadmits.backlog hl
  rw [← hlistener] at hleft
  refine ⟨⟨left, hleft⟩, ?_, fun {left'} hleft' hne => ?_, hcapacity ▸ ha.room⟩
  · rw [hlistener]
    exact hadmits.watch.trans ha.watch
  · rw [hleft] at hleft'
    cases hleft'
    rw [hlistener]
    by_cases hempty : waiting = []
    · refine hadmits.told (fun hnone => hne ?_) ha.watch rfl
      rw [hempty, hnone] at hwaiting
      exact (List.append_eq_nil_iff.1 hwaiting.symm).2
    · exact hadmits.queued (ha.level hl hempty)

/-- the host that a wait finds, and in which the listener was hailed -/
theorem Alert.elapsed (ha : s.Alert) : (s.onHost Host.elapse).Alert := by
  obtain ⟨waiting, hl⟩ := ha.listens
  obtain ⟨came, hh⟩ := Host.hailed_elapse hl
  exact ha.admits rfl rfl (hh.admits hl)

theorem await_queue (s : Server X) : s.await.state.host.queue =
    (s.connections.notifier.found s.events.capacity).left ++
      (s.connections.notifier.found s.events.capacity).again := by
  obtain ⟨⟨interruptions, hstate⟩, -⟩ := s.connections.notifier.wait_spec s.events
  exact congrArg (·.host.queue) hstate

/-- what a wait finds of a listener at which somebody waits -/
theorem Alert.found (ha : s.Alert) (hl : s.host.elapse.device? s.listener = some (.listener waiting))
    (hne : waiting ≠ []) :
    let found := s.connections.notifier.found s.events.capacity
    (∃ c, (⟨s.listener, 0, .reading⟩, c) ∈ found.reports ∧ c.input = true) ∧ s.listener ∈ found.again ∨
      s.listener ∈ found.left ∧ found.reports.length = s.events.capacity ∧
        found.left.idxOf s.listener + s.events.capacity ≤ s.host.elapse.queue.idxOf s.listener := by
  have hinput : (Host.visible .reading (s.host.elapse.conditions s.listener)).input = true := by
    cases waiting with
    | nil => exact absurd rfl hne
    | cons arrival rest => simp [Host.visible, Host.conditions, hl, Interest.reading]
  have hseen : (Host.visible .reading (s.host.elapse.conditions s.listener)).none = false := by
    simp [Conditions.none, hinput]
  have hqueued : s.listener ∈ s.host.elapse.queue := ha.elapsed.level hl hne
  exact (Host.harvest_level ha.elapsed.watch rfl hseen s.events.capacity hqueued).imp_left
    fun hseen => ⟨⟨_, hseen.1, hinput⟩, hseen.2⟩

/-- who waits at an alert server when a wait begins is reported by that wait; or the wait is full of what was queued
before the listener, which stays queued, nearer the front by as many places -/
theorem Alert.reported (ha : s.Alert) (hl : s.host.device? s.listener = some (.listener waiting)) (hne : waiting ≠ []) :
    ∃ events, s.await.value = some events ∧
      ((∃ r ∈ events.toList, r.token = .listener ∧ r.readable) ∨
        events.size = s.events.capacity ∧ s.listener ∈ s.await.state.host.queue ∧
          s.await.state.host.queue.idxOf s.listener + s.events.capacity ≤ s.host.elapse.queue.idxOf s.listener) := by
  obtain ⟨came, hh⟩ := Host.hailed_elapse hl
  have hfound := ha.found (hh.backlog hl) (by simp [hne])
  obtain ⟨-, ⟨-, hnone⟩ | ⟨events, hvalue, hevents⟩⟩ := s.connections.notifier.wait_spec s.events
  · -- a wait that does not end has found nothing
    rcases hfound with ⟨⟨c, hreport, -⟩, -⟩ | ⟨-, hlength, -⟩
    · rw [hnone] at hreport
      cases hreport
    · rw [hnone] at hlength
      exact absurd hlength (Nat.ne_of_lt ha.room)
  · refine ⟨events, hvalue, ?_⟩
    rcases hfound with ⟨⟨c, hreport, hinput⟩, -⟩ | ⟨hleft, hlength, hindex⟩
    · refine .inl ⟨Readiness.ofReport 0 c, ?_, rfl, hinput⟩
      rw [hevents]
      exact List.mem_map_of_mem hreport
    · have hsize : events.size = s.events.capacity := by
        rw [← Events.length_toList, hevents, Notifier.told, List.length_map, hlength]
      refine .inr ⟨hsize, ?_, ?_⟩
      · rw [await_queue]
        exact List.mem_append_left _ hleft
      · rw [await_queue, List.idxOf_append_of_mem hleft]
        exact hindex

/-- a wait leaves a server alert: what it reports of the listener it will look at again -/
theorem Alert.awaited (ha : s.Alert) : s.await.state.Alert := by
  obtain ⟨⟨interruptions, hstate⟩, -⟩ := s.connections.notifier.wait_spec s.events
  have hhost := congrArg Notifier.host hstate
  have hdevice : s.await.state.host.device? s.listener = s.host.elapse.device? s.listener :=
    (congrArg (fun h : Host => h.device? s.listener) hhost).trans rfl
  have hwatch : s.await.state.host.watch? s.listener = s.host.elapse.watch? s.listener :=
    (congrArg (fun h : Host => h.watch? s.listener) hhost).trans rfl
  obtain ⟨waiting, hl⟩ := ha.elapsed.listens
  refine ⟨⟨waiting, hdevice.trans hl⟩, hwatch.trans ha.elapsed.watch, fun {waiting} hl hne => ?_, ?_⟩
  · rw [await_queue]
    rcases ha.found (hdevice.symm.trans hl) hne with ⟨-, hagain⟩ | ⟨hleft, -⟩
    · exact List.mem_append_right _ hagain
    · exact List.mem_append_left _ hleft
  · rw [(alike_await s).capacity]
    exact ha.room

/-! ## Whatever else a server does -/

/-- nobody was taken from the listener, which is as it was but for callers who came -/
structure Undrained (s s' : Server X) : Prop where
  hails : ∃ extra came, Host.Hails s.listener extra came s.host s'.host
  clear : s'.connections.Clear s.listener
  listener : s'.listener = s.listener
  capacity : s'.events.capacity = s.events.capacity

theorem Undrained.trans {s'' : Server X} (hu : Undrained s s') (hu' : Undrained s' s'') : Undrained s s'' where
  hails := by
    obtain ⟨extra, came, hh⟩ := hu.hails
    obtain ⟨extra', came', hh'⟩ := hu'.hails
    rw [hu.listener] at hh'
    exact ⟨_, _, hh.trans hh'⟩
  clear := hu.listener ▸ hu'.clear
  listener := hu'.listener.trans hu.listener
  capacity := hu'.capacity.trans hu.capacity

theorem Alert.undrained (ha : s.Alert) (hu : Undrained s s') : s'.Alert := by
  obtain ⟨extra, came, hh⟩ := hu.hails
  obtain ⟨waiting, hl⟩ := ha.listens
  exact ha.admits hu.listener hu.capacity (hh.admits hl)

variable (hc : s.connections.Clear s.listener)
include hc

theorem undrained_refl : Undrained s s := ⟨⟨_, _, .refl _ _⟩, hc, rfl, rfl⟩

theorem undrained_act (deed : Deed) : Undrained s (s.onHost (·.act deed)) := by
  obtain ⟨waiting, hl⟩ := hc.listens
  obtain ⟨came, hh⟩ := Host.hails_act hl deed
  exact ⟨⟨_, came, hh⟩, ⟨⟨_, hh.backlog hl⟩, hc.apart⟩, rfl, rfl⟩

theorem undrained_handle {r : Readiness} (hr : r.token ≠ .listener) : Undrained s (s.handle r).1.server := by
  obtain ⟨⟨came, hh⟩, hclear⟩ := clear_handle hc hr
  exact ⟨⟨_, came, hh⟩, hclear, standing_listener (s.alike_handle r).standing, (s.alike_handle r).capacity⟩

theorem undrained_prepare {limit : Nat} {w : Worked X} (hw : s.prepare limit = some w) : Undrained s w.server := by
  obtain ⟨⟨came, hh⟩, hclear⟩ := clear_prepare hc hw
  simp only [prepare, Option.map_eq_some_iff] at hw
  obtain ⟨pumped, -, rfl⟩ := hw
  exact ⟨⟨_, came, hh⟩, hclear, rfl, rfl⟩

omit hc

/-- what a server does beside waiting and taking callers in, and whatever others do -/
inductive Proceeds (s : Server X) : Server X → Prop where
  | refl : Proceeds s s
  | others {s' : Server X} (deed : Deed) : Proceeds s s' → Proceeds s (s'.onHost (·.act deed))
  | handled {s' : Server X} {r : Readiness} :
      Proceeds s s' → r.token ≠ .listener → Proceeds s (s'.handle r).1.server
  | pumped {s' : Server X} {limit : Nat} {w : Worked X} :
      Proceeds s s' → s'.prepare limit = some w → Proceeds s w.server

theorem Proceeds.undrained (hc : s.connections.Clear s.listener) (hp : Proceeds s s') : Undrained s s' := by
  induction hp with
  | refl => exact undrained_refl hc
  | others deed _ ih => exact ih.trans (undrained_act (ih.listener ▸ ih.clear) deed)
  | handled _ hr ih => exact ih.trans (undrained_handle (ih.listener ▸ ih.clear) hr)
  | pumped _ hw ih => exact ih.trans (undrained_prepare (ih.listener ▸ ih.clear) hw)

/-! ## Drains -/

/-- callers wait at a server, and the next wait reports the listener; or it is full of what was queued before the
listener, which stays queued, nearer the front by as many places -/
structure Recalls (left : List Arrival) (s : Server X) : Prop where
  pending : ∃ more, s.host.device? s.listener = some (.listener (left ++ more))
  reported : ∃ events, s.await.value = some events ∧
    ((∃ r ∈ events.toList, r.token = .listener ∧ r.readable) ∨
      events.size = s.events.capacity ∧ s.listener ∈ s.await.state.host.queue ∧
        s.await.state.host.queue.idxOf s.listener + s.events.capacity ≤ s.host.elapse.queue.idxOf s.listener)

theorem Alert.recalls (ha : s.Alert) (hc : s.connections.Clear s.listener)
    (hl : s.host.device? s.listener = some (.listener left)) (hne : left ≠ []) (hp : Proceeds s s') :
    Recalls left s' := by
  have hu := hp.undrained hc
  obtain ⟨extra, came, hh⟩ := hu.hails
  have hl' : s'.host.device? s'.listener = some (.listener (left ++ came)) := hu.listener ▸ hh.backlog hl
  exact ⟨⟨came, hl'⟩, (ha.undrained hu).reported hl' (by simp [hne])⟩

theorem alert_acceptAll (hc : s.connections.Sound fixed batch) (ht : s.engine.tasks.slots.Tidy) (ha : s.Alert) :
    s.acceptAll.server.Alert := by
  obtain ⟨waiting, hl⟩ := ha.listens
  obtain ⟨⟨came, taken, ending, hd⟩, -⟩ := fullDrain_acceptUpTo hc ht hl (Nat.lt_succ_self _)
  exact ha.admits hd.listener (alike_acceptUpTo _ s).capacity hd.admits

/-! ## The servers that are reached -/

theorem alert_handle (hs : s.Upholds fixed oblige batch past) (ha : s.Alert) (r : Readiness) :
    (s.handle r).1.server.Alert := by
  by_cases hr : r.token = .listener
  · unfold handle
    rw [hr]
    exact alert_acceptAll hs.table hs.law.tidy ha
  · obtain ⟨waiting, hl⟩ := ha.listens
    exact ha.undrained (undrained_handle (hs.table.clear hl) hr)

theorem alert_dispatch (reports : List Readiness) (hs : s.Upholds fixed oblige (reports ++ batch) past)
    (ha : s.Alert) (hstop : (s.dispatch reports).2 = none) : (s.dispatch reports).1.server.Alert := by
  induction reports generalizing s past with
  | nil => exact ha
  | cons r rest ih =>
    obtain ⟨hfirst, -⟩ := upholds_handle hs
    have ha' := alert_handle hs ha r
    unfold dispatch at hstop ⊢
    dsimp only at hstop ⊢
    cases hh : (s.handle r).2 with
    | some signal => simp [hh] at hstop
    | none =>
      simp only [hh] at hstop ⊢
      exact ih hfirst ha' hstop

/-- a listener once it is watched, with whoever waits there by then -/
theorem watch_listener {h : Host} {l : Descriptor} (hl : h.device? l = some (.listener waiting))
    (hw : h.watch? l = none) (hok : (h.watch l 0 .reading).2 = .ok ()) :
    (h.watch l 0 .reading).1.device? l = some (.listener waiting) ∧
      (h.watch l 0 .reading).1.watch? l = some ⟨l, 0, .reading⟩ ∧
      (waiting ≠ [] → l ∈ (h.watch l 0 .reading).1.queue) := by
  have hw' : h.refusalSpent.watch? l = none := hw
  have hl' : h.refusalSpent.watchable l = .ok () := by
    have hspent : h.refusalSpent.device? l = some (.listener waiting) := hl
    rw [Host.watchable, hspent]
  let watching : Host := { h.refusalSpent with watches := h.watches ++ [⟨l, 0, .reading⟩] }
  obtain ⟨q, hq, -, hqueued⟩ := watching.looked_eq l .reading
  have hstate : (h.watch l 0 .reading).1 = { watching with queue := q } := by
    cases hr : h.refusals.watch.head?.join with
    | some code =>
      simp only [Host.watch, hr] at hok
      cases hok
    | none =>
      unfold Host.watch
      rw [show ({ h with refusals := { h.refusals with watch := h.refusals.watch.tail } } : Host) = h.refusalSpent
        from rfl]
      simp only [hr, hl', hw']
      exact hq
  rw [hstate]
  refine ⟨hl, ?_, fun hne => hqueued ?_⟩
  · have hfirst : h.watches.find? (·.descriptor == l) = none := hw
    simp [Host.watch?, watching, hfirst]
  · have hwatching : watching.device? l = some (.listener waiting) := hl
    cases waiting with
    | nil => exact absurd rfl hne
    | cons arrival rest => simp [Host.holds, Host.conditions, hwatching, Interest.reading]

/-- a listener that is registered is watched, with whoever waits there by then -/
theorem register_listener {n : Notifier} {l : Descriptor} (hl : n.host.device? l = some (.listener waiting))
    (hw : n.host.watch? l = none) (hok : (n.register l .listener .reading).value = .ok ()) :
    ∃ waiting, (n.register l .listener .reading).state.host.device? l = some (.listener waiting) ∧
      (n.register l .listener .reading).state.host.watch? l = some ⟨l, 0, .reading⟩ ∧
      (waiting ≠ [] → l ∈ (n.register l .listener .reading).state.host.queue) := by
  obtain ⟨came, hh⟩ := Host.hailed_elapse hl
  have hword : Token.word? .listener = some 0 := rfl
  have hok' : (n.host.elapse.watch l 0 .reading).2 = .ok () := by
    unfold Notifier.register at hok
    simp only [hword] at hok
    cases hr : (n.host.elapse.watch l 0 .reading).2 with
    | ok value => rfl
    | error code => simp [hr] at hok
  have hstate : (n.register l .listener .reading).state.host = (n.host.elapse.watch l 0 .reading).1 := by
    simp [Notifier.register, hword, hok']
  rw [hstate]
  exact ⟨_, watch_listener (hh.backlog hl) (hh.watch.trans hw) hok'⟩

/-- a server that was put together is alert -/
theorem alert_assemble {h : Host} (hh : h.Sound) (hw : h.watches = []) {l : Descriptor}
    (hl : h.device? l = some (.listener [])) {settings : Settings} {protocol : Http.Protocol X}
    (hs : (assemble h settings protocol l).server = .ok s) : s.Alert := by
  obtain ⟨hu, -, hfree⟩ := create_spec hh (ShutdownSignal.all.map (·.number))
  have hne : l ≠ (SignalSource.create h (ShutdownSignal.all.map (·.number))).2.descriptor := fun he => by
    rw [← he, hl] at hfree
    cases hfree
  have hl₀ : (SignalSource.create h (ShutdownSignal.all.map (·.number))).1.device? l = some (.listener []) := by
    refine (Host.device?_opened ..).trans ((if_neg fun he => ?_).trans hl)
    exact Nat.ne_of_lt (Host.lt_length_of_device? hl) he
  rcases hcreate : SignalSource.create h (ShutdownSignal.all.map (·.number)) with ⟨h₀, signals⟩
  rw [hcreate] at hu hne hl₀
  dsimp only at hu hne hl₀
  simp only [assemble, hcreate] at hs
  let n : Notifier := { host := h₀ }
  have hw₀ : n.host.watch? l = none := by simp [n, Host.watch?, hu.watches, hw]
  cases hfirst : (n.register l .listener .reading).value with
  | error fault =>
    rw [hfirst] at hs
    cases hs
  | ok value =>
    obtain ⟨waiting, hl₁, hw₁, hqueued⟩ := register_listener (n := n) hl₀ hw₀ hfirst
    obtain ⟨came, hh₂⟩ := Notifier.hailed_register hl₁ hne .signals .reading
    rw [hfirst] at hs
    dsimp only at hs
    split at hs
    · cases hs
    · cases hs
      refine ⟨⟨_, hh₂.backlog hl₁⟩, hh₂.watch.trans hw₁, fun {waiting'} hl₂ hne' => ?_, ?_⟩
      · have hsame := (hh₂.backlog hl₁).symm.trans hl₂
        cases hsame
        by_cases hempty : waiting = []
        · exact hh₂.told (by simpa [hempty] using hne') hw₁ rfl
        · exact hh₂.queued (hqueued hempty)
      · exact Nat.lt_of_lt_of_le Nat.zero_lt_one (Nat.le_max_right ..)

/-- a server that was bound is alert -/
theorem alert_bind {h : Host} (hh : h.Sound) (hw : h.watches = []) {settings : Settings} {protocol : Http.Protocol X}
    (hs : (bind h settings protocol).server = .ok s) : s.Alert := by
  have hu := undisturbed_opened hh (.listener []) rfl
  exact alert_assemble hu.sound (hu.watches.trans hw) ((Host.device?_opened ..).trans (if_pos rfl))
    (assembled_of_bind hs)

/-- every server that is reached from an alert one is alert -/
theorem alert_reached {first : Server X} {phase : Phase} (hf : first.Upholds fixed oblige [] []) (ha : first.Alert)
    (hr : Reached first phase s past) : s.Alert := by
  induction hr with
  | start => exact ha
  | others deed hr ih =>
    obtain ⟨waiting, hl⟩ := ih.listens
    exact ih.undrained (undrained_act ((hr.upholds hf).1.table.clear hl) deed)
  | pumped hr hw ih =>
    obtain ⟨waiting, hl⟩ := ih.listens
    exact ih.undrained (undrained_prepare ((hr.upholds hf).1.table.clear hl) hw)
  | @took s past hr hhalt ih =>
    obtain ⟨hs, hq⟩ := hr.upholds hf
    have hawait := upholds_await hs (hq rfl)
    have halert := ih.awaited
    unfold take at hhalt ⊢
    cases hv : s.await.value with
    | none => simp [hv] at hhalt
    | some events =>
      simp only [hv, Option.map_eq_none_iff] at hhalt ⊢
      rw [hv] at hawait
      have hbatch : s.await.state.Upholds fixed oblige (events.toList ++ []) (past ++ [.wait]) := by simpa using hawait
      exact alert_dispatch events.toList hbatch halert hhalt
  | @blocked s past _ hhalt ih =>
    cases hv : s.await.value with
    | none =>
      have htake : s.take.server = s.await.state := by simp [take, hv]
      rw [htake]
      exact ih.awaited
    | some events => cases hstop : (s.await.state.dispatch events.toList).2 <;> simp [take, hv, hstop] at hhalt

/-! ## Main result -/

/-- **A drain loses and doubles nobody.** Who waits at the listener is taken, in order, until a call is refused or finds
nobody, or until one who was taken is lost, since calls on that connection might wait. Each of the others has one record
and one task of its own, or could not be watched and is closed, and so is the one that was lost (`FullDrain`); the bound
on the number of calls never ends a drain. Who is left still waits, and the next wait reports the listener, however the
server gets to it, unless it is full of what was queued before (`Recalls`). -/
theorem accept_drains (hc : s.connections.Sound fixed batch) (ht : s.engine.tasks.slots.Tidy) (ha : s.Alert) :
    (∀ limit, s.host.callers s.listener < limit → s.acceptUpTo limit = s.acceptAll) ∧
      ∃ came taken ending, FullDrain came taken ending s s.acceptAll.server ∧
        ∀ {left}, s.acceptAll.server.host.device? s.listener = some (.listener left) → left ≠ [] →
          ∀ {s'}, Proceeds s.acceptAll.server s' → Recalls left s' := by
  obtain ⟨waiting, hl⟩ := ha.listens
  have henough := Nat.lt_succ_self (s.host.callers s.listener)
  obtain ⟨⟨came, taken, ending, hd⟩, hc'⟩ := fullDrain_acceptUpTo hc ht hl henough
  refine ⟨fun limit hlimit => acceptUpTo_eq hc ht hl hlimit henough, came, taken, ending, hd,
    fun {left} hleft hne {s'} hp => ?_⟩
  have ha' : s.acceptAll.server.Alert :=
    ha.admits hd.listener (alike_acceptUpTo _ s).capacity hd.admits
  rw [← hd.listener] at hleft
  exact ha'.recalls (hc'.clear hleft) hleft hne hp

end Server

/-! ## Servers to look at -/

namespace Sample

/-- the second connection to come will not be watched, and the third call to accept will be refused -/
def scarce : Host := { refusals := { accept := [none, none, some ⟨24⟩], watch := [none, none, none, some ⟨28⟩] } }

def sparing : Server Unit := (Server.bind scarce .default protocol).server.toOption.get (by decide +kernel)

def expectant : Worked Unit := (sparing.prepare 2).get rfl

/-- three clients have called -/
def sought : Server Unit :=
  ((expectant.server.onHost (·.act (.connect 0 ⟨"198.51.100.7:40000"⟩))).onHost
    (·.act (.connect 0 ⟨"198.51.100.8:40000"⟩))).onHost (·.act (.connect 0 ⟨"198.51.100.9:40000"⟩))

theorem sound_scarce : scarce.Sound :=
  ⟨by simp [scarce, Host.ends], by simp [scarce, Host.ends], by simp [scarce], by simp [scarce], by simp [scarce]⟩

theorem reached_sought : Reached sparing .wait sought (expectant.course.map .task) :=
  (((Reached.start.pumped (Option.some_get _).symm).others _).others _).others _

/-- a wait of this server takes one report, and its third call to accept will be refused -/
def narrow : Server Unit :=
  (Server.bind { refusals := { accept := [none, none, some ⟨24⟩] } } { Settings.default with maxEvents := 1 }
    protocol).server.toOption.get (by decide +kernel)

/-- one client's connection was accepted -/
def occupied : Worked Unit :=
  ((((narrow.prepare 2).get rfl).server.onHost (·.act (.connect 0 ⟨"198.51.100.7:40000"⟩))).take.server.prepare 3).get
    (by decide +kernel)

/-- another client has called, then the first one has sent a byte; the wait reports the listener -/
def hurried : Server Unit :=
  ((occupied.server.onHost (·.act (.connect 0 ⟨"198.51.100.8:40000"⟩))).onHost (·.act (.send 2 [104]))).await.state

/-- the first connection to come cannot be kept from making calls wait -/
def grudging : Worked Unit :=
  ((Server.bind { refusals := { unblock := [some ⟨1⟩] } } .default protocol).server.toOption.get
    (by decide +kernel)).prepare 2 |>.get (by decide +kernel)

/-- two clients have called -/
def besought : Server Unit :=
  (grudging.server.onHost (·.act (.connect 0 ⟨"198.51.100.7:40000"⟩))).onHost
    (·.act (.connect 0 ⟨"198.51.100.8:40000"⟩))

end Sample

namespace Server

/-- of three who wait the first is served, the second is closed, and the third still waits and is reported -/
theorem accept_drains_sought :
    Sample.sought.await.state.acceptUpTo 9 = Sample.sought.await.state.acceptAll ∧
      Sample.sought.await.state.acceptAll.server.connections.slots.size = 1 ∧
      Sample.sought.await.state.acceptAll.server.engine.inFlight = 1 ∧
      Recalls [⟨2, ⟨"198.51.100.9:40000"⟩⟩] Sample.sought.await.state.acceptAll.server := by
  have hb : (Server.bind Sample.scarce .default Sample.protocol).server = .ok Sample.sparing := Sample.eq_ok_get _
  have hf := upholds_bind False Sample.sound_scarce rfl False.elim hb
  obtain ⟨hs, hq⟩ := Sample.reached_sought.upholds hf
  have hs' := upholds_await hs (hq rfl)
  have ha := (alert_reached hf (alert_bind Sample.sound_scarce rfl hb) Sample.reached_sought).awaited
  obtain ⟨hends, -, -, -, -, hrecalls⟩ := accept_drains hs'.table hs'.law.tidy ha
  exact ⟨hends 9 (by decide +kernel), by decide +kernel, by decide +kernel,
    hrecalls (by decide +kernel) (by simp) .refl⟩

/-- who still waits is not reported by the next wait if that is full of what was queued before the listener; and one who
was taken has no record and no task although no call that watches was refused, if calls on that connection might wait:
the drain ends there, and another still waits -/
theorem listener_waits_its_turn :
    (Sample.hurried.acceptAll.server.prepare 1).map (fun w => (w.server.host.device? 0,
        w.server.await.value.map fun events => events.toList.map (·.token))) =
      some (some (.listener [⟨1, ⟨"198.51.100.8:40000"⟩⟩]), some [.connection 0]) ∧
    Sample.besought.host.refusals.watch = [] ∧
    Sample.besought.acceptAll.server.host.device? 0 = some (.listener [⟨1, ⟨"198.51.100.8:40000"⟩⟩]) ∧
    Sample.besought.acceptAll.server.connections.slots.size = 0 ∧
    Sample.besought.acceptAll.server.engine.inFlight = 0 := by
  decide +kernel

end Server

end EventServer
