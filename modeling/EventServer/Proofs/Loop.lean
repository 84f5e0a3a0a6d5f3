/-
The loop. `Server.Upholds` is the invariant of a server between two steps: the engine and the table turn together, and
what is watched beside the connections is the listener and the signals. Every step of the loop keeps it
(`upholds_prepare`, `upholds_await`, `upholds_dispatch`), from the server that `bind` puts together on (`upholds_bind`).
The host that it is bound in is sound, and its watch was just made: nothing is watched yet.

`Reached` are the states that a server gets into, with their histories: at the head of the loop, and about to wait.
Others act whenever they like; a pump may take as long as it needs. `Reached.upholds` is the invariant for all of them,
and `Reached.run` says that runs of the loop lead nowhere else.
-/
import EventServer.Proofs.Turning
import EventServer.Server

namespace EventServer

variable {X : Type} {fixed : List Watch} {oblige : Prop} {batch : List Readiness}
  {t : Tasks Nat (ConnectionTask X)} {c : Connections Handle} {past : List Moment}

/-! ## Steps of the engine and the table -/

/-- what leaves the watches alone keeps the invariant -/
theorem Turning.onHost (ht : Turning fixed oblige batch t c [] past) {h : Host} (hu : Host.Undisturbed c.host h) :
    Turning fixed oblige batch t (c.onHost fun _ => h) [] past :=
  ⟨ht.table.onHost hu, fun ho => (ht.arming ho).onHost hu, ht.handles, ht.law, ht.paired, ht.placed⟩

/-- a report that is about no connection may leave the batch -/
theorem Turning.drop {r : Readiness} (ht : Turning fixed oblige (r :: batch) t c [] past)
    (hr : ∀ key, r.token ≠ .connection key) : Turning fixed oblige batch t c [] past := by
  refine ⟨⟨ht.table.tidy, ht.table.host, ht.table.far, ht.table.words, ht.table.watches, ht.table.ledger,
    fun {key conn} hg direction hp hi hcalls => ?_⟩, ht.arming, ht.handles, ht.law, ht.paired, ht.placed⟩
  refine (ht.table.told hg direction hp hi hcalls).imp_right fun ⟨r', hm, htoken, hheeds⟩ => ⟨r', ?_, htoken, hheeds⟩
  refine (List.mem_cons.1 hm).resolve_left fun he => ?_
  subst he
  exact hr key htoken

/-- what is parked on the connection that a report is about is resumed -/
theorem Turning.fire {r : Readiness} {key : Nat} (ht : Turning fixed oblige (r :: batch) t c [] past)
    (hr : r.token = .connection key) :
    Turning fixed oblige batch ((c.fire key r).value.foldl Tasks.wake t) (c.fire key r).state []
      (past ++ (c.fire key r).value.map fun h => .task (.woken h)) := by
  obtain ⟨htable, harming⟩ := Connections.sound_fire ht.table hr
  obtain ⟨htouched, hvalue⟩ := c.touched_fire (P := t.Names) key r
  obtain ⟨hslots, hserial⟩ := Tasks.wakes_slots t (c.fire key r).value
  refine ht.of_lasts (fun htenant => ⟨_, hslots ▸ htenant, rfl, rfl, rfl⟩) hserial
    (ht.law.wakes _ (hvalue ht.handles)) htable (fun ho => harming (ht.arming ho)) (htouched.handles ht.handles) ?_
  rw [hslots, htouched.keys]
  exact ht.paired

/-- a connection that was accepted is taken in and served, or refused and closed -/
theorem Turning.welcome {s : Server X} (ht : Turning fixed oblige batch s.engine.tasks s.connections [] past)
    {d : Descriptor} {id : Nat} (hd : s.host.device? d = some (.stream id .far)) (hw : s.host.watch? d = none)
    (peer : Address) :
    Turning fixed oblige batch (s.welcome d peer).server.engine.tasks (s.welcome d peer).server.connections []
      (past ++ (s.welcome d peer).course.map .task) := by
  obtain ⟨htable, harming⟩ := Connections.sound_insert ht.table hd hw peer
  have hhandles := Connections.handles_insert ht.handles ht.table.tidy d peer
  rcases s.connections.insert_slots d peer with ⟨fault, hvalue, hslots⟩ | ⟨hvalue, hslots⟩
  · simp only [Server.welcome, hvalue, List.map_nil, List.append_nil]
    refine ⟨htable, fun ho => harming (ht.arming ho), hhandles, ht.law, ?_, ht.placed⟩
    rw [Connections.keys, hslots]
    exact ht.paired
  · simp only [Server.welcome, hvalue]
    have hget := Slots.get?_insert ht.law.tidy (⟨s.engine.tasks.nextSerial,
      ⟨⟨s.connections.slots.nextKey, peer⟩, s.engine.protocol.start⟩, some s.connections.slots.nextKey⟩ :
        Tenant Nat (ConnectionTask X))
    obtain ⟨pre, post, hlist, hlist'⟩ := Slots.toList_insert ht.law.tidy (⟨s.engine.tasks.nextSerial,
      ⟨⟨s.connections.slots.nextKey, peer⟩, s.engine.protocol.start⟩, some s.connections.slots.nextKey⟩ :
        Tenant Nat (ConnectionTask X))
    obtain ⟨pre', post', hkeys, hkeys'⟩ := Slots.toList_insert ht.table.tidy
      ({ descriptor := d, peer } : Connection Handle)
    refine ⟨htable, fun ho => harming (ht.arming ho), fun k x hx handle hm => ?_, ht.law.push _ _, ?_,
      fun {slot tenant} htenant => ?_⟩
    · exact (hhandles k x hx handle hm).push ht.law _ _
    · have hpaired := ht.paired
      rw [hlist, Connections.keys, hkeys] at hpaired
      simp only [Engine.serve, Tasks.push, Connections.keys, hslots, hlist', hkeys', List.map_append, List.map_cons,
        List.append_nil] at hpaired ⊢
      exact List.perm_middle.trans ((hpaired.cons _).trans List.perm_middle.symm)
    · simp only [Engine.serve, Tasks.push, hget] at htenant
      split at htenant
      · cases htenant
        rfl
      · exact ht.placed htenant

namespace Server

/-! ## Steps of the server -/

/-- the watches on the listener and the signals -/
def standing (s : Server X) : List Watch := [⟨s.listener, 0, .reading⟩, ⟨s.signals.descriptor, 1, .reading⟩]

/-- the invariant of a server after a history, while a batch of reports is being dealt with -/
structure Upholds (fixed : List Watch) (oblige : Prop) (batch : List Readiness) (s : Server X) (past : List Moment) :
    Prop extends Turning fixed oblige batch s.engine.tasks s.connections [] past where
  own : s.standing = fixed

variable {s : Server X}

theorem Upholds.onHost (hs : s.Upholds fixed oblige batch past) {h : Host} (hu : Host.Undisturbed s.host h) :
    (s.onHost fun _ => h).Upholds fixed oblige batch past :=
  ⟨hs.toTurning.onHost hu, hs.own⟩

/-- others may do what they like -/
theorem Upholds.act (hs : s.Upholds fixed oblige batch past) (deed : Deed) :
    (s.onHost (·.act deed)).Upholds fixed oblige batch past :=
  hs.onHost (Host.undisturbed_act hs.table.host deed)

theorem welcome_standing (s : Server X) (d : Descriptor) (peer : Address) :
    (s.welcome d peer).server.standing = s.standing := by
  unfold welcome
  dsimp only
  split <;> rfl

theorem welcome_connections (s : Server X) (d : Descriptor) (peer : Address) :
    (s.welcome d peer).server.connections = (s.connections.insert d peer).state := by
  unfold welcome
  dsimp only
  split <;> rfl

/-- accepting takes in whoever waits, and moves nobody -/
theorem upholds_acceptUpTo (limit : Nat) (hs : s.Upholds fixed oblige batch past) :
    (s.acceptUpTo limit).server.Upholds fixed oblige batch (past ++ (s.acceptUpTo limit).course.map .task) ∧
      s.connections.Stays (s.acceptUpTo limit).server.connections := by
  induction limit generalizing s past with
  | zero => exact ⟨by simpa [acceptUpTo] using hs, .refl _⟩
  | succ limit ih =>
    obtain ⟨hu, hnew⟩ := Nonblocking.accept_spec (h := s.host) hs.table.host s.listener
    have hafter := hs.onHost hu
    have hstays : s.connections.Stays (s.onHost fun _ => (Nonblocking.accept s.host s.listener).1).connections :=
      Connections.stays_onHost hu
    unfold acceptUpTo
    dsimp only
    cases hr : (Nonblocking.accept s.host s.listener).2 with
    | wouldBlock => exact ⟨by simpa using hafter, hstays⟩
    | failed fault => exact ⟨by simpa using hafter, hstays⟩
    | done accepted =>
      obtain ⟨d, peer⟩ := accepted
      obtain ⟨⟨id, hd⟩, hw⟩ := hnew hr
      have hwelcome := hafter.toTurning.welcome (s := s.onHost fun _ => (Nonblocking.accept s.host s.listener).1) hd hw
        peer
      have hinserted := Connections.stays_insert hafter.table hd hw peer
      obtain ⟨hrest, hmoved⟩ := ih (s := ((s.onHost fun _ => (Nonblocking.accept s.host s.listener).1).welcome d
        peer).server) ⟨hwelcome, (welcome_standing ..).trans hafter.own⟩
      refine ⟨by simpa using hrest, (hstays.trans ?_).trans hmoved⟩
      rw [welcome_connections]
      exact hinserted

/-- to wake handles in the engine is to wake them in its scheduler -/
theorem foldl_wake (e : Engine X) (handles : List Handle) :
    handles.foldl Engine.wake e = { e with tasks := handles.foldl Tasks.wake e.tasks } := by
  induction handles generalizing e with
  | nil => rfl
  | cons h rest ih => exact ih _

/-- one report is dealt with, and moves nobody -/
theorem upholds_handle {r : Readiness} (hs : s.Upholds fixed oblige (r :: batch) past) :
    (s.handle r).1.server.Upholds fixed oblige batch (past ++ (s.handle r).1.course.map .task) ∧
      s.connections.Stays (s.handle r).1.server.connections := by
  unfold handle
  cases hr : r.token with
  | listener =>
    have hdrop : s.Upholds fixed oblige batch past := ⟨hs.toTurning.drop fun key => by simp [hr], hs.own⟩
    exact upholds_acceptUpTo _ hdrop
  | signals =>
    have hdrop : s.Upholds fixed oblige batch past := ⟨hs.toTurning.drop fun key => by simp [hr], hs.own⟩
    have helapse : Host.Undisturbed s.host s.host.elapse := Host.undisturbed_elapse hs.table.host
    have hu : Host.Undisturbed s.host (s.signals.read s.host).1 :=
      helapse.trans (Host.undisturbed_readSignal helapse.sound s.signals.descriptor)
    have hafter := hdrop.onHost hu
    have hstays := Connections.stays_onHost (c := s.connections) hu
    simp only [readSignal]
    split <;> exact ⟨by simpa using hafter, hstays⟩
  | connection key =>
    have hfire := hs.toTurning.fire hr
    refine ⟨⟨?_, hs.own⟩, Connections.stays_fire hs.table key r⟩
    simp only [resume, foldl_wake, List.map_map]
    exact hfire

/-- reports are dealt with one after another, as long as none of them stops the server -/
theorem upholds_dispatch (reports : List Readiness) (hs : s.Upholds fixed oblige (reports ++ batch) past)
    (hstop : (s.dispatch reports).2 = none) :
    (s.dispatch reports).1.server.Upholds fixed oblige batch (past ++ (s.dispatch reports).1.course.map .task) ∧
      s.connections.Stays (s.dispatch reports).1.server.connections := by
  induction reports generalizing s past with
  | nil => exact ⟨by simpa [dispatch] using hs, .refl _⟩
  | cons r rest ih =>
    obtain ⟨hfirst, hmoved⟩ := upholds_handle hs
    unfold dispatch at hstop ⊢
    dsimp only at hstop ⊢
    cases hh : (s.handle r).2 with
    | some signal => simp [hh] at hstop
    | none =>
      simp only [hh] at hstop ⊢
      obtain ⟨hrest, hmoved'⟩ := ih hfirst hstop
      exact ⟨by simpa using hrest, hmoved.trans hmoved'⟩

/-- dealing with a batch comes by the server that its first reports leave, if they do not stop it -/
theorem dispatch_append (s : Server X) (before after : List Readiness) (hstop : (s.dispatch before).2 = none) :
    (s.dispatch (before ++ after)).1.server = ((s.dispatch before).1.server.dispatch after).1.server ∧
      (s.dispatch (before ++ after)).2 = ((s.dispatch before).1.server.dispatch after).2 := by
  induction before generalizing s with
  | nil => exact ⟨rfl, rfl⟩
  | cons r rest ih =>
    simp only [List.cons_append, dispatch] at hstop ⊢
    cases hh : (s.handle r).2 with
    | some signal => simp [hh] at hstop
    | none =>
      simp only [hh] at hstop ⊢
      exact ih _ hstop

/-- the engine is pumped, and leaves no slot to run -/
theorem upholds_prepare (hs : s.Upholds fixed oblige [] past) {limit : Nat} {w : Worked X}
    (hw : s.prepare limit = some w) :
    w.server.Upholds fixed oblige [] (past ++ w.course.map .task) ∧ w.server.engine.tasks.queue = [] := by
  simp only [prepare, Option.map_eq_some_iff] at hw
  obtain ⟨pumped, hp, rfl⟩ := hw
  obtain ⟨hturning, hqueue⟩ := turning_pump { connections := s.connections } hs.toTurning hp
  exact ⟨⟨hturning, hs.own⟩, hqueue⟩

/-- a wait may come when no slot is to run; what it brings is the batch to deal with -/
theorem upholds_await (hs : s.Upholds fixed oblige [] past) (hq : s.engine.tasks.queue = []) :
    s.await.state.Upholds fixed oblige ((s.await.value.map Events.toList).getD []) (past ++ [.wait]) := by
  obtain ⟨htable, harming⟩ := Connections.sound_wait hs.table s.events
  exact ⟨⟨htable, fun ho => harming (hs.arming ho), hs.handles, hs.law.wait hq, hs.paired, hs.placed⟩, hs.own⟩

/-! ## Setting up -/

/-- opening something that is no end disturbs nothing -/
theorem undisturbed_opened {h : Host} (hs : h.Sound) (device : Device) (hd : device.ends = []) :
    Host.Undisturbed h (h.opened device).1 := by
  have hends : (h.opened device).1.ends = h.ends := by rw [Host.ends_opened, hd, List.append_nil]
  exact Host.undisturbed_of_keeps hs (Host.keeps_opened device) (hends ▸ hs.ends) (hends ▸ hs.known) []
    (List.append_nil _).symm (by simp) rfl rfl fun _ hq => hq

theorem listen_cases (h : Host) (endpoint : Endpoint) : (∃ code, h.listen endpoint = (h, .error code)) ∨
    ∃ bound, h.listen endpoint = ((h.opened (.listener [])).1, .ok ((h.opened (.listener [])).2, bound)) := by
  unfold Host.listen
  dsimp only
  split
  · exact .inl ⟨_, rfl⟩
  · exact .inr ⟨_, rfl⟩

/-- a listener is opened at the first endpoint that can be bound, or none is -/
theorem listenAt_cases (h : Host) (endpoints : List Endpoint) : (listenAt h endpoints).2.1 = none ∨
    ∃ bound, (listenAt h endpoints).2.1 = some ((h.opened (.listener [])).2, bound) ∧
      (listenAt h endpoints).1 = (h.opened (.listener [])).1 := by
  induction endpoints with
  | nil => exact .inl rfl
  | cons endpoint rest ih =>
    unfold listenAt
    rcases listen_cases h endpoint with ⟨code, he⟩ | ⟨bound, he⟩
    · rw [he]
      exact ih
    · rw [he]
      exact .inr ⟨bound, rfl, rfl⟩

/-- a server that was bound is one that was put together where the listener had just been opened -/
theorem assembled_of_bind {h : Host} {settings : Settings} {protocol : Http.Protocol X}
    (hb : (bind h settings protocol).server = .ok s) :
    (assemble (h.opened (.listener [])).1 settings protocol (h.opened (.listener [])).2).server = .ok s := by
  unfold bind at hb
  split at hb
  · cases hb
  · next endpoints _ =>
    split at hb
    · cases hb
    · next hlisten =>
      rcases listenAt_cases h endpoints with hnone | ⟨bound, hbound, hhost⟩
      · rw [hlisten] at hnone
        cases hnone
      · rw [hlisten] at hbound hhost
        cases hbound
        cases hhost
        exact hb

/-- a source of signals has a descriptor that nobody had, and disturbs nothing -/
theorem create_spec {h : Host} (hh : h.Sound) (mask : List Int) :
    Host.Undisturbed h (SignalSource.create h mask).1 ∧
      (SignalSource.create h mask).1.Ours (SignalSource.create h mask).2.descriptor ∧
      h.device? (SignalSource.create h mask).2.descriptor = none := by
  let blocked := h.blocked ++ (mask.filter fun n => !Host.unstoppable.contains n && !h.blocked.contains n).eraseDups
  have hblocked : Host.Undisturbed h { h with blocked } :=
    Host.undisturbed_of_eq hh rfl rfl rfl rfl fun _ hq => hq
  refine ⟨hblocked.trans (undisturbed_opened hblocked.sound (.signalSource mask) rfl),
    ⟨.signalSource mask, ?_, rfl⟩, ?_⟩
  · exact (Host.device?_opened ..).trans (if_pos rfl)
  · simp [SignalSource.create, Host.openSource, Host.opened, Host.device?]

/-- a server that was put together upholds the invariant, and nothing has happened yet -/
theorem upholds_assemble {h : Host} (hh : h.Sound) (hw : h.watches = []) {listener : Descriptor}
    (hl : h.device? listener = some (.listener [])) {settings : Settings}
    (ho : oblige → settings.armWrites ∧ h.Obliging) {protocol : Http.Protocol X} {s : Server X}
    (hs : (assemble h settings protocol listener).server = .ok s) : s.Upholds s.standing oblige [] [] := by
  obtain ⟨hu, hsource, hfree⟩ := create_spec hh (ShutdownSignal.all.map (·.number))
  rcases hcreate : SignalSource.create h (ShutdownSignal.all.map (·.number)) with ⟨h₀, signals⟩
  rw [hcreate] at hu hsource hfree
  dsimp only at hu hsource hfree
  simp only [assemble, hcreate] at hs
  have hne : listener ≠ signals.descriptor := fun he => by
    rw [← he, hl] at hfree
    cases hfree
  have hnone : h₀.watches = [] := hu.watches.trans hw
  rcases Connections.register_cases (n := { host := h₀ }) hu.sound (hu.ours (by simp) ⟨_, hl, rfl⟩)
    (by simp [Host.watch?, hnone]) .listener .reading with
    ⟨fault, h₁, -, hvalue, -⟩ | ⟨word, h₁, hword, hsp, hwatches, -, hvalue, hstate⟩
  · rw [hvalue] at hs
    cases hs
  rw [hvalue] at hs
  simp only [hstate] at hs
  cases hword
  rcases Connections.register_cases (n := { host := h₁, registrations := 1 }) hsp.sound
    (hsp.ours (by simpa using hne) hsource) (by simp [Host.watch?, hwatches, hnone, hne]) .signals .reading with
    ⟨fault, h₂, -, hvalue', -⟩ | ⟨word, h₂, hword, hsp', hwatches', -, hvalue', hstate'⟩
  · rw [hvalue'] at hs
    cases hs
  rw [hvalue', hstate'] at hs
  cases hword
  cases hs
  refine ⟨⟨⟨Slots.tidy_empty, hsp'.sound, fun hg => ?_, fun hg => ?_, ?_, rfl, fun hg => ?_⟩, fun hobl => ⟨(ho hobl).1,
    hsp'.obliging (hsp.obliging (hu.obliging (ho hobl).2)), fun hg => ?_⟩, fun _ _ hg => ?_, Tasks.law_empty, ?_,
    fun ht => ?_⟩, rfl⟩
  · cases hg
  · cases hg
  · simp only [Connections.host, Connections.empty, hwatches', hwatches, hnone]
    exact .refl _
  · cases hg
  · cases hg
  · cases hg
  · exact .refl _
  · cases ht

/-- a server that was bound upholds the invariant -/
theorem upholds_bind (oblige : Prop) {h : Host} (hh : h.Sound) (hw : h.watches = []) {settings : Settings}
    (ho : oblige → settings.armWrites ∧ h.Obliging) {protocol : Http.Protocol X} {s : Server X}
    (hs : (bind h settings protocol).server = .ok s) : s.Upholds s.standing oblige [] [] := by
  have hu := undisturbed_opened hh (.listener []) rfl
  exact upholds_assemble hu.sound (hu.watches.trans hw) ((Host.device?_opened ..).trans (if_pos rfl))
    (fun hobl => ⟨(ho hobl).1, hu.obliging (ho hobl).2⟩) (assembled_of_bind hs)

end Server

/-! ## The states of a server -/

/-- where a server stands between two steps: at the head of the loop, or about to wait -/
inductive Phase where
  | head | wait
  deriving DecidableEq, Repr

/-- the states that a server gets into from a first one, each with its history. Others act at any time; a wait that does
not end goes on once they have -/
inductive Reached (first : Server X) : Phase → Server X → List Moment → Prop where
  | start : Reached first .head first []
  | others {phase : Phase} {s : Server X} {past : List Moment} (deed : Deed) :
      Reached first phase s past → Reached first phase (s.onHost (·.act deed)) past
  | pumped {s : Server X} {past : List Moment} {limit : Nat} {w : Worked X} :
      Reached first .head s past → s.prepare limit = some w →
        Reached first .wait w.server (past ++ w.course.map .task)
  | took {s : Server X} {past : List Moment} :
      Reached first .wait s past → s.take.halt = none →
        Reached first .head s.take.server (past ++ .wait :: s.take.course.map .task)
  | blocked {s : Server X} {past : List Moment} :
      Reached first .wait s past → s.take.halt = some .blocked → Reached first .wait s.take.server (past ++ [.wait])

namespace Reached

variable {first s : Server X} {phase : Phase}

/-- the invariant holds in every state that is reached, and no slot is to run at a wait -/
theorem upholds (hf : first.Upholds fixed oblige [] []) (hr : Reached first phase s past) :
    s.Upholds fixed oblige [] past ∧ (phase = .wait → s.engine.tasks.queue = []) := by
  induction hr with
  | start => exact ⟨hf, fun h => by cases h⟩
  | others deed _ ih => exact ⟨ih.1.act deed, ih.2⟩
  | pumped _ hw ih =>
    obtain ⟨hup, hq⟩ := Server.upholds_prepare ih.1 hw
    exact ⟨hup, fun _ => hq⟩
  | @took s past _ hhalt ih =>
    have hawait := Server.upholds_await ih.1 (ih.2 rfl)
    unfold Server.take at hhalt ⊢
    cases hv : s.await.value with
    | none => simp [hv] at hhalt
    | some events =>
      simp only [hv, Option.map_eq_none_iff] at hhalt ⊢
      rw [hv] at hawait
      have hbatch : s.await.state.Upholds fixed oblige (events.toList ++ []) (past ++ [.wait]) := by simpa using hawait
      have hdispatch := Server.upholds_dispatch events.toList hbatch hhalt
      exact ⟨by simpa using hdispatch.1, fun h => by cases h⟩
  | @blocked s past _ hhalt ih =>
    have hawait := Server.upholds_await ih.1 (ih.2 rfl)
    unfold Server.take at hhalt ⊢
    cases hv : s.await.value with
    | none =>
      rw [hv] at hawait
      simp only [hv]
      exact ⟨hawait, fun _ => ih.2 rfl⟩
    | some events => simp [hv] at hhalt

/-- a run of the loop leads to such a state, unless a signal stops the server -/
theorem run (hr : Reached first .wait s past) (limit : Nat)
    (hstop : ∀ signal, (s.run limit).halt ≠ some (.stopped signal)) :
    ∃ phase later, Reached first phase (s.run limit).server (past ++ later) := by
  induction limit generalizing s past with
  | zero => exact ⟨.wait, [], by simpa [Server.run] using hr⟩
  | succ limit ih =>
    unfold Server.run at hstop ⊢
    dsimp only at hstop ⊢
    cases hhalt : s.take.halt with
    | some halt =>
      simp only [hhalt] at hstop ⊢
      cases halt with
      | blocked => exact ⟨.wait, _, hr.blocked hhalt⟩
      | stopped signal => exact absurd rfl (hstop signal)
      | busy =>
        unfold Server.take at hhalt
        cases hv : s.await.value <;> simp [hv] at hhalt
    | none =>
      simp only [hhalt] at hstop ⊢
      have htook := hr.took hhalt
      cases hw : s.take.server.prepare s.take.server.patience with
      | none => exact ⟨.head, _, htook⟩
      | some ready =>
        simp only [hw] at hstop ⊢
        obtain ⟨phase, later, hrest⟩ := ih (htook.pumped hw) hstop
        exact ⟨phase, _, by simpa using hrest⟩

end Reached

/-! ## A server to look at -/

namespace Sample

/-- writes piece by piece, so many at most, until a write would have to wait -/
def filling : Nat → Http.Talk (Http.Polled Unit)
  | 0 => .done ⟨(), false, .complete⟩
  | count + 1 => .send (List.replicate 2000 0) fun
    | .pending => .done ⟨(), false, .waiting⟩
    | .ready _ => filling count

/-- an exchange that waits for a byte, and writes as much as it can meanwhile -/
def protocol : Http.Protocol Unit where
  start := ()
  poll _ _ := .recv 1 fun
    | .pending => filling 60
    | .ready _ => .done ⟨(), false, .complete⟩
  held _ := 0

/-- the server on a host with nothing on it -/
def first : Server Unit :=
  (Server.bind {} .default protocol).server.toOption.get (by decide +kernel)

/-- about to wait, for the first time -/
def ready : Worked Unit := (first.prepare 2).get rfl

/-- a client has called -/
def called : Server Unit := ready.server.onHost (·.act (.connect 0 ⟨"198.51.100.7:40000"⟩))

/-- the client's connection was accepted, and its task waits both for a byte and for room -/
def parked : Worked Unit := (called.take.server.prepare 3).get (by decide +kernel)

/-- another client has called, and then the first one has sent a byte and read most of what came -/
def answered : Server Unit :=
  ((parked.server.onHost (·.act (.connect 0 ⟨"198.51.100.8:40000"⟩))).onHost (·.act (.send 2 [104]))).onHost
    (·.act (.recv 2 90000))

theorem eq_ok_get {ε α : Type} {result : Except ε α} (h : result.toOption.isSome) :
    result = .ok (result.toOption.get h) := by
  cases result with
  | error failure => cases h
  | ok value => rfl

theorem bind_first : (Server.bind {} .default protocol).server = .ok first := eq_ok_get _

theorem sound_empty : Host.Sound {} := ⟨by simp [Host.ends], by simp [Host.ends], by simp, by simp, by simp⟩

theorem reached_ready : Reached first .wait ready.server (ready.course.map .task) :=
  Reached.start.pumped (Option.some_get _).symm

theorem reached_parked : Reached first .wait parked.server
    (ready.course.map .task ++ .wait :: called.take.course.map .task ++ parked.course.map .task) :=
  ((reached_ready.others _).took (by decide +kernel)).pumped (Option.some_get _).symm

theorem reached_answered : Reached first .wait answered
    (ready.course.map .task ++ .wait :: called.take.course.map .task ++ parked.course.map .task) :=
  ((reached_parked.others _).others _).others _

end Sample

end EventServer
