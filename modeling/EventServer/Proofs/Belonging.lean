/-
Whom a report resumes, whatever the protocol: what is parked on a connection is of the connection's own task.

A server that deals with reports is `Mustered`: besides what it upholds anyway, every handle is parked where it belongs,
and a slot is queued once at most, for a tenant whose mark stands. A report keeps that (`Mustered.handle`): the handles
that it takes out are of tenants, so what is queued again for one of them is not queued yet. Between two waits the queue
may be anything, since tasks wake each other in a pump; but a pump ends with an empty queue, and parks nothing where it
does not belong (`Mustered.of_prepare`). So a server is mustered whenever it is `AtHand` (`AtHand.mustered`).
-/
import EventServer.Proofs.Idleness

namespace EventServer

variable {X : Type} {fixed : List Watch} {oblige : Prop} {batch : List Readiness} {past : List Moment}

/-! ## Slots that are queued once -/

namespace Tasks

variable {U F : Type} {t : Tasks U F}

/-- every slot is queued once at most, and for a tenant whose mark stands -/
structure Lined (t : Tasks U F) : Prop where
  once : t.queue.Nodup
  marked : ∀ slot ∈ t.queue, ∃ tenant, t.slots.get? slot = some tenant ∧ tenant.serial ∈ t.marked

theorem lined_of_nil (hq : t.queue = []) : t.Lined := by
  refine ⟨hq ▸ .nil, fun slot hm => ?_⟩
  rw [hq] at hm
  cases hm

/-- the handle of a tenant queues its slot only if it is not queued -/
theorem Lined.wake (hl : t.Lined) {h : Handle} {tenant : Tenant U F} (ht : t.slots.get? h.slot = some tenant)
    (hserial : tenant.serial = h.serial) : (t.wake h).Lined := by
  unfold Tasks.wake
  split
  · exact hl
  · next hmark =>
    have hmark : h.serial ∉ t.marked := by simpa using hmark
    refine ⟨List.nodup_append.2 ⟨hl.once, by simp, ?_⟩, fun slot hm => ?_⟩
    · rintro slot hm _ hm' rfl
      cases List.mem_singleton.1 hm'
      obtain ⟨tenant', ht', hm⟩ := hl.marked _ hm
      rw [ht] at ht'
      cases ht'
      exact hmark (hserial ▸ hm)
    · rcases List.mem_append.1 hm with hm | hm
      · obtain ⟨tenant', ht', hm⟩ := hl.marked slot hm
        exact ⟨tenant', ht', List.mem_cons_of_mem _ hm⟩
      · cases List.mem_singleton.1 hm
        exact ⟨tenant, ht, hserial ▸ List.mem_cons_self⟩

theorem Lined.wakes (hl : t.Lined) (hs : List Handle)
    (ht : ∀ h ∈ hs, ∃ tenant, t.slots.get? h.slot = some tenant ∧ tenant.serial = h.serial) :
    (hs.foldl Tasks.wake t).Lined := by
  induction hs generalizing t with
  | nil => exact hl
  | cons h rest ih =>
    obtain ⟨tenant, hg, hserial⟩ := ht h List.mem_cons_self
    refine ih (hl.wake hg hserial) fun h' hm => ?_
    rw [(t.wake_slots h).1]
    exact ht h' (List.mem_cons_of_mem _ hm)

theorem Lined.push (hl : t.Lined) (htidy : t.slots.Tidy) (work : F) (userdata : Option U) :
    (t.push work userdata).state.Lined := by
  have hget := Slots.get?_insert htidy (⟨t.nextSerial, work, userdata⟩ : Tenant U F)
  have hlive : ∀ slot ∈ t.queue, slot ≠ t.slots.nextKey := fun slot hm he => by
    obtain ⟨tenant, ht, -⟩ := hl.marked slot hm
    rw [he, Slots.get?_nextKey htidy] at ht
    cases ht
  refine ⟨List.nodup_append.2 ⟨hl.once, by simp, fun slot hm other hm' he => ?_⟩, fun slot hm => ?_⟩
  · exact hlive slot hm (he.trans (List.mem_singleton.1 hm'))
  · rcases List.mem_append.1 hm with hm | hm
    · obtain ⟨tenant, ht, hmark⟩ := hl.marked slot hm
      exact ⟨tenant, (hget slot).trans ((if_neg (hlive slot hm)).trans ht), List.mem_cons_of_mem _ hmark⟩
    · cases List.mem_singleton.1 hm
      exact ⟨_, (hget _).trans (if_pos rfl), List.mem_cons_self⟩

end Tasks

/-! ## Reports are dealt with -/

/-- there may be more to deal with -/
theorem Turning.more {t : Tasks Nat (ConnectionTask X)} {c : Connections Handle}
    (ht : Turning fixed oblige batch t c [] past) (r : Readiness) : Turning fixed oblige (r :: batch) t c [] past := by
  refine ⟨⟨ht.table.tidy, ht.table.host, ht.table.far, ht.table.words, ht.table.watches, ht.table.ledger,
    fun {key conn} hg direction hp hi hcalls => ?_⟩, ht.arming, ht.handles, ht.law, ht.paired, ht.placed⟩
  exact (ht.table.told hg direction hp hi hcalls).imp_right fun ⟨r', hm, htold⟩ =>
    ⟨r', List.mem_cons_of_mem _ hm, htold⟩

namespace Server

variable {s : Server X}

/-- a server that deals with reports: every handle is parked where it belongs, and no slot is queued twice -/
structure Mustered (fixed : List Watch) (s : Server X) : Prop where
  upholds : ∃ batch past, s.Upholds fixed False batch past
  owned : s.connections.Owns s.engine.tasks.Of
  lined : s.engine.tasks.Lined

namespace Mustered

theorem table (hp : s.Mustered fixed) : ∃ batch, s.connections.Sound fixed batch := by
  obtain ⟨batch, past, hu⟩ := hp.upholds
  exact ⟨batch, hu.table⟩

theorem law (hp : s.Mustered fixed) : ∃ past, s.engine.tasks.Law past := by
  obtain ⟨batch, past, hu⟩ := hp.upholds
  exact ⟨past, hu.law⟩

theorem sound (hp : s.Mustered fixed) : s.host.Sound := by
  obtain ⟨batch, hc⟩ := hp.table
  exact hc.host

theorem onHost (hp : s.Mustered fixed) {h : Host} (hu : Host.Undisturbed s.host h) :
    (s.onHost fun _ => h).Mustered fixed := by
  obtain ⟨batch, past, hup⟩ := hp.upholds
  exact ⟨⟨batch, past, hup.onHost hu⟩, hp.owned, hp.lined⟩

/-- whoever a report resumes is a tenant -/
theorem resume (hp : s.Mustered fixed) (key : Nat) (r : Readiness) : (s.resume key r).server.Mustered fixed := by
  obtain ⟨batch, past, hu⟩ := hp.upholds
  let told : Readiness := { r with token := .connection key }
  have hmore : s.Upholds fixed False (told :: batch) past := ⟨hu.toTurning.more told, hu.own⟩
  have hup : (s.resume key r).server.Upholds fixed False batch _ := (upholds_handle hmore).1
  have hslots := (s.engine.tasks.wakes_slots (s.connections.fire key r).value).1
  refine ⟨⟨batch, _, hup⟩, ?_, ?_⟩
  · simp only [Server.resume, foldl_wake]
    rw [Tasks.of_congr hslots]
    exact hp.owned.amends (s.connections.amends_fire key r) fun _ => False.elim
  · simp only [Server.resume, foldl_wake]
    refine hp.lined.wakes _ fun h hm => ?_
    obtain ⟨tenant, ht, hserial, -⟩ := Scene.of_fire (a := s.scene []) hp.owned hm
    exact ⟨tenant, ht, hserial⟩

theorem welcome (hp : s.Mustered fixed) {d : Descriptor} {id : Nat} (hd : s.host.device? d = some (.stream id .far))
    (hw : s.host.watch? d = none) (peer : Address) : (s.welcome d peer).server.Mustered fixed := by
  obtain ⟨batch, past, hu⟩ := hp.upholds
  have hlively : ∀ slot ∈ s.engine.tasks.queue, (s.engine.tasks.slots.get? slot).isSome := fun slot hm => by
    obtain ⟨tenant, ht, -⟩ := hp.lined.marked slot hm
    exact Option.isSome_iff_exists.2 ⟨tenant, ht⟩
  obtain ⟨hof, -⟩ := welcome_tasks hu.law hlively d peer
  obtain ⟨-, hhandles, -⟩ := Connections.insert_keeps hu.table.tidy d peer
  rw [← welcome_connections] at hhandles
  have hown := (s.welcome_standing d peer).trans hu.own
  refine ⟨⟨batch, _, hu.toTurning.welcome hd hw peer, hown⟩, fun key conn hg h hm => ?_, ?_⟩
  · obtain ⟨old, hold, hm⟩ := hhandles key conn hg h hm
    exact hof key h (hp.owned key old hold h hm)
  · rcases s.welcome_cases d peer with ⟨fault, -, -, hs⟩ | ⟨-, -, hs⟩
    · rw [hs]
      exact hp.lined
    · rw [hs]
      exact hp.lined.push hu.law.tidy _ _

/-- accepting a connection, as the server does it -/
theorem accepted (hp : s.Mustered fixed) :
    (s.onHost fun _ => (Nonblocking.accept s.host s.listener).1).Mustered fixed :=
  hp.onHost (Nonblocking.accept_spec hp.sound s.listener).1

theorem acceptUpTo (hp : s.Mustered fixed) (limit : Nat) : (s.acceptUpTo limit).server.Mustered fixed := by
  induction limit generalizing s with
  | zero => exact hp
  | succ limit ih =>
    obtain ⟨-, hnew⟩ := Nonblocking.accept_spec (h := s.host) hp.sound s.listener
    unfold Server.acceptUpTo
    dsimp only
    cases hr : (Nonblocking.accept s.host s.listener).2 with
    | wouldBlock => exact hp.accepted
    | failed fault => exact hp.accepted
    | done accepted =>
      obtain ⟨d, peer⟩ := accepted
      obtain ⟨⟨id, hd⟩, hw⟩ := hnew hr
      exact ih (hp.accepted.welcome hd hw peer)

/-- **A report is dealt with** -/
theorem handle (hp : s.Mustered fixed) (r : Readiness) : (s.handle r).1.server.Mustered fixed := by
  unfold Server.handle
  cases hr : r.token with
  | listener => exact hp.acceptUpTo _
  | signals =>
    have helapse : Host.Undisturbed s.host s.host.elapse := Host.undisturbed_elapse hp.sound
    have hread := hp.onHost (helapse.trans (Host.undisturbed_readSignal helapse.sound s.signals.descriptor))
    simp only [readSignal]
    split <;> exact hread
  | connection key => exact hp.resume key r

theorem dispatch (hp : s.Mustered fixed) (reports : List Readiness) : (s.dispatch reports).1.server.Mustered fixed := by
  induction reports generalizing s with
  | nil => exact hp
  | cons r rest ih =>
    unfold Server.dispatch
    dsimp only
    cases (s.handle r).2 with
    | some signal => exact hp.handle r
    | none => exact ih (hp.handle r)

/-- whatever was queued when a pump came, nothing is once it has ended -/
theorem of_prepare (hu : s.Upholds fixed False [] past) (howned : s.connections.Owns s.engine.tasks.Of) {limit : Nat}
    {w : Worked X} (hw : s.prepare limit = some w) : w.server.Mustered fixed := by
  obtain ⟨hup, hq⟩ := upholds_prepare hu hw
  refine ⟨⟨[], _, hup⟩, ?_, Tasks.lined_of_nil hq⟩
  simp only [prepare, Option.map_eq_some_iff] at hw
  obtain ⟨pumped, hpump, rfl⟩ := hw
  obtain ⟨howned, -⟩ := pump_keeps (I := fun t c => c.Owns t.Of) (fun slot rest hturning howned =>
    (Scene.owned_ran hturning.placed howned s.engine.protocol slot rest).1) rfl hu.toTurning howned hpump
  exact howned

theorem await (hu : s.Upholds fixed False [] past) (hq : s.engine.tasks.queue = []) (hp : s.Mustered fixed) :
    s.await.state.Mustered fixed :=
  ⟨⟨_, _, upholds_await hu hq⟩, hp.owned, hp.lined⟩

end Mustered

/-- a server that was bound has nobody parked and nothing queued -/
theorem mustered_bind {host : Host} (hh : host.Sound) (hw : host.watches = []) {settings : Settings}
    {protocol : Http.Protocol X} (hb : (bind host settings protocol).server = .ok s) : s.Mustered s.standing := by
  obtain ⟨hengine, notifier, armWrites, hconnections⟩ := empty_of_bind hb
  refine ⟨⟨[], [], upholds_bind False hh hw False.elim hb⟩, fun key conn hg => ?_, Tasks.lined_of_nil ?_⟩
  · rw [hconnections] at hg
    cases hg
  · rw [hengine]
    rfl

end Server

/-! ## The states in which a report may come -/

/-- the states that a server gets into from a first one: those between its steps, and those between two reports of a
batch -/
inductive AtHand (first : Server X) : Server X → Prop where
  | reached {phase : Phase} {s : Server X} {past : List Moment} : Reached first phase s past → AtHand first s
  | waited {s : Server X} {past : List Moment} : Reached first .wait s past → AtHand first s.await.state
  | handled {s : Server X} (r : Readiness) : AtHand first s → (s.handle r).2 = none → AtHand first (s.handle r).1.server

variable {first s : Server X} {phase : Phase}

theorem Reached.mustered (hu : first.Upholds fixed False [] []) (hf : first.Mustered fixed)
    (hr : Reached first phase s past) : s.Mustered fixed := by
  induction hr with
  | start => exact hf
  | others deed _ ih => exact ih.onHost (Host.undisturbed_act ih.sound deed)
  | pumped hr hw ih => exact .of_prepare (hr.upholds hu).1 ih.owned hw
  | @took s past hr hhalt ih =>
    obtain ⟨hs, hq⟩ := hr.upholds hu
    have hawait := ih.await hs (hq rfl)
    unfold Server.take at hhalt ⊢
    cases hv : s.await.value with
    | none => simp [hv] at hhalt
    | some events =>
      simp only [hv]
      exact hawait.dispatch events.toList
  | @blocked s past hr hhalt ih =>
    obtain ⟨hs, hq⟩ := hr.upholds hu
    have hawait := ih.await hs (hq rfl)
    unfold Server.take at hhalt ⊢
    cases hv : s.await.value with
    | none =>
      simp only [hv]
      exact hawait
    | some events => simp [hv] at hhalt

theorem AtHand.mustered (hu : first.Upholds fixed False [] []) (hf : first.Mustered fixed) (ha : AtHand first s) :
    s.Mustered fixed := by
  induction ha with
  | reached hr => exact hr.mustered hu hf
  | waited hr =>
    obtain ⟨hs, hq⟩ := hr.upholds hu
    exact (hr.mustered hu hf).await hs (hq rfl)
  | handled r _ _ ih => exact ih.handle r

end EventServer
