/-
What a client can know of a server.

A view is where the connection of one client stands: it waits, it is served, or the server is done with it. Views have
their own steps (`View.next`), in which nothing of other connections occurs, and the steps are determined: a view comes
to one end at most (`View.Settles.unique`).
-/
import EventServer.Proofs.Berth
import EventServer.Proofs.Loop
import Mathlib.Logic.Relation

namespace EventServer

variable {X : Type}

/-! ## Views -/

/-- where the connection of a client stands -/
inductive View (X : Type) where
  /-- it waits to be accepted -/
  | waiting (stream : Stream)
  /-- it is served: what the server keeps of it, its exchange, what is reported of it and not yet dealt with, and whether
  its task is to run -/
  | served (berth : Berth) (exchange : X) (told : Option Conditions) (ready : Bool)
  /-- the server is done with it -/
  | gone (stream : Stream)

namespace View

def stream : View X → Stream
  | waiting stream | gone stream => stream
  | served berth _ _ _ => berth.stream

/-- a run of the task, which may be its last one -/
def turned (protocol : Http.Protocol X) (arms : Bool) (b : Berth) (x : X) : View X :=
  let after := (protocol.poll b.due x).run (Berth.transport arms) b
  match after.2.ended with
  | .waiting => served after.1 after.2.exchange none after.2.roused
  | .complete | .failed _ => gone (after.1.stream.close .far false).stream

/-- what happens to the connection next, if it is left to the server -/
def next (protocol : Http.Protocol X) (arms : Bool) : View X → Option (View X)
  | waiting stream => some (served (.fresh stream) protocol.start none true)
  | served b x (some shown) ready => some (served (b.fired shown) x none (ready || b.wakes shown))
  | served b x none true => some (turned protocol arms b x)
  | served b x none false =>
    if b.queued then
      some (served { b with queued := false } x (if b.shows.none then none else some b.shows) false)
    else none
  | gone _ => none

/-- one view leads to another by steps of its own -/
def Leads (protocol : Http.Protocol X) (arms : Bool) : View X → View X → Prop :=
  Relation.ReflTransGen fun v v' => v.next protocol arms = some v'

variable {protocol : Http.Protocol X} {arms : Bool} {v v' v'' : View X}

theorem Leads.one (h : v.next protocol arms = some v') : Leads protocol arms v v' := .single h

theorem Leads.trans (h : Leads protocol arms v v') (h' : Leads protocol arms v' v'') : Leads protocol arms v v'' :=
  Relation.ReflTransGen.trans h h'

theorem eq_of_leads (h : Leads protocol arms v v') (hv : v.next protocol arms = none) : v' = v := by
  rcases Relation.ReflTransGen.cases_head h with he | ⟨w, hw, -⟩
  · exact he.symm
  · rw [hv] at hw
    cases hw

/-- one view comes to another, which is left as it is -/
def Settles (protocol : Http.Protocol X) (arms : Bool) (v v' : View X) : Prop :=
  v.Leads protocol arms v' ∧ v'.next protocol arms = none

/-- a view comes to one end at most -/
theorem Settles.unique (h : v.Settles protocol arms v') (h' : v.Settles protocol arms v'') : v' = v'' := by
  have hunique : Relator.RightUnique fun v v' : View X => v.next protocol arms = some v' := fun _ _ _ hb hc =>
    Option.some.inj (hb.symm.trans hc)
  rcases Relation.ReflTransGen.total_of_right_unique hunique h.1 h'.1 with hl | hl
  · exact (eq_of_leads hl h.2).symm
  · exact eq_of_leads hl h'.2

end View

/-! ## Tasks -/

namespace Mooring

variable {m : Mooring} {x : X} {ready : Bool} {t t' : Tasks Nat (ConnectionTask X)}

/-- the tasks have the task of a connection with its exchange, and it is queued once or not at all -/
structure Works (m : Mooring) (x : X) (ready : Bool) (t : Tasks Nat (ConnectionTask X)) : Prop where
  tenant : t.slots.get? m.self.slot = some ⟨m.self.serial, ⟨⟨m.key, m.peer⟩, x⟩, some m.key⟩
  queued : t.queue.count m.self.slot = if ready then 1 else 0
  marked : m.self.serial ∈ t.marked ↔ ready

theorem mem_marked_wake_other {h : Handle} (hserial : h.serial ≠ m.self.serial) :
    m.self.serial ∈ (t.wake h).marked ↔ m.self.serial ∈ t.marked := by
  rw [Tasks.mem_marked_wake]
  exact ⟨fun hm => hm.resolve_left fun he => hserial he.symm, .inr⟩

/-- the handle of another task is woken -/
theorem Works.wake_other (hw : m.Works x ready t) {h : Handle} (hslot : h.slot ≠ m.self.slot)
    (hserial : h.serial ≠ m.self.serial) : m.Works x ready (t.wake h) := by
  refine ⟨(t.wake_slots h).1 ▸ hw.tenant, ?_, (mem_marked_wake_other hserial).trans hw.marked⟩
  rw [← hw.queued]
  unfold Tasks.wake
  split
  · rfl
  · simp [List.count_append, hslot]

theorem Works.wakes_other (hw : m.Works x ready t) (hs : List Handle)
    (hother : ∀ h ∈ hs, h.slot ≠ m.self.slot ∧ h.serial ≠ m.self.serial) :
    m.Works x ready (hs.foldl Tasks.wake t) := by
  induction hs generalizing t with
  | nil => exact hw
  | cons h rest ih =>
    obtain ⟨hslot, hserial⟩ := hother h List.mem_cons_self
    exact ih (hw.wake_other hslot hserial) fun h' hm => hother h' (List.mem_cons_of_mem _ hm)

/-- its own handle is woken -/
theorem Works.wake (hw : m.Works x ready t) : m.Works x true (t.wake m.self) := by
  refine ⟨(t.wake_slots m.self).1 ▸ hw.tenant, ?_, by simp [Tasks.mem_marked_wake]⟩
  have hqueued := hw.queued
  unfold Tasks.wake
  by_cases hm : m.self.serial ∈ t.marked
  · rw [if_pos (List.contains_iff_mem.2 hm)]
    simpa [hw.marked.1 hm] using hqueued
  · rw [if_neg (fun hc => hm (List.contains_iff_mem.1 hc))]
    have hready : ready = false := by simpa using fun hr => hm (hw.marked.2 hr)
    simp [List.count_append, hqueued, hready]

theorem Works.wakes (hw : m.Works x ready t) (hs : List Handle) (hself : ∀ h ∈ hs, h = m.self) :
    m.Works x (ready || !hs.isEmpty) (hs.foldl Tasks.wake t) := by
  induction hs generalizing ready t with
  | nil => simpa using hw
  | cons h rest ih =>
    obtain rfl := hself h List.mem_cons_self
    simpa using ih hw.wake fun h' hm => hself h' (List.mem_cons_of_mem _ hm)

/-- another task is enrolled -/
theorem Works.push_other {past : List Moment} (hw : m.Works x ready t) (hl : t.Law past) (work : ConnectionTask X)
    (userdata : Option Nat) : m.Works x ready (t.push work userdata).state := by
  have hslot : m.self.slot ≠ t.slots.nextKey := fun he => by
    have htenant := hw.tenant
    rw [he, Slots.get?_nextKey hl.tidy] at htenant
    cases htenant
  refine ⟨?_, ?_, ?_⟩
  · rw [← hw.tenant]
    exact (Slots.get?_insert hl.tidy ..).trans (if_neg hslot)
  · rw [← hw.queued]
    simp [Tasks.push, List.count_append, hslot.symm]
  · rw [← hw.marked]
    have hne : m.self.serial ≠ t.nextSerial := Nat.ne_of_lt (hl.fresh hw.tenant)
    simp [Tasks.push, hne]

/-- its own task is enrolled in a slot that nobody has queued -/
theorem works_push {past : List Moment} (hl : t.Law past) (protocol : Http.Protocol X)
    (hself : m.self = ⟨t.slots.nextKey, t.nextSerial⟩) (hq : t.slots.nextKey ∉ t.queue) :
    m.Works protocol.start true
      (t.push { place := ⟨m.key, m.peer⟩, exchange := protocol.start } (some m.key)).state := by
  refine ⟨?_, ?_, ?_⟩
  · rw [hself]
    exact (Slots.get?_insert hl.tidy ..).trans (if_pos rfl)
  · simp [hself, Tasks.push, List.count_append, List.count_eq_zero_of_not_mem hq]
  · simp [hself, Tasks.push]

/-- another slot is run: whatever its tenant wakes is of its own -/
theorem Works.run_other {E ε : Type} {past : List Moment} (hw : m.Works x ready t) (hl : t.Law past)
    (r : Runner E (ConnectionTask X) ε) (env : E) {slot : Nat} {rest : List Nat} (hq : t.queue = slot :: rest)
    (hslot : slot ≠ m.self.slot)
    (hwoken : ∀ {tenant}, t.slots.get? slot = some tenant →
      ∀ h ∈ (r.run ⟨slot, tenant.serial⟩ env tenant.work).woken, h = ⟨slot, tenant.serial⟩) :
    m.Works x ready (Tasks.runSlot r { t with queue := rest } env slot).tasks := by
  have hrest : rest.count m.self.slot = t.queue.count m.self.slot := by
    rw [hq, List.count_cons_of_ne hslot]
  unfold Tasks.runSlot
  cases ht : t.slots.get? slot with
  | none => simpa [ht] using ⟨hw.tenant, hrest.trans hw.queued, hw.marked⟩
  | some tenant =>
    have hserial : tenant.serial ≠ m.self.serial := fun he => hslot (hl.distinct ht hw.tenant he)
    let cleared : Tasks Nat (ConnectionTask X) :=
      { t with queue := rest, marked := t.marked.filter (· != tenant.serial) }
    have hcleared : m.Works x ready cleared :=
      ⟨hw.tenant, hrest.trans hw.queued, by simp [cleared, hw.marked, hserial.symm]⟩
    have hafter := hcleared.wakes_other (r.run ⟨slot, tenant.serial⟩ env tenant.work).woken fun h hm => by
      rw [hwoken ht h hm]
      exact ⟨hslot, hserial⟩
    have hslots := (cleared.wakes_slots (r.run ⟨slot, tenant.serial⟩ env tenant.work).woken).1
    have ht' : cleared.slots.get? slot = some tenant := ht
    dsimp only
    split
    · refine ⟨?_, hafter.queued, hafter.marked⟩
      rw [← hafter.tenant]
      exact (Slots.get?_set (hslots ▸ ht') ..).trans (if_neg (Ne.symm hslot))
    · refine ⟨?_, hafter.queued, hafter.marked⟩
      rw [← hafter.tenant]
      exact (Slots.get?_erase ..).trans (if_neg (Ne.symm hslot))

theorem runner_none (protocol : Http.Protocol X) (self : Handle) (site : Site Handle) (work : ConnectionTask X) :
    ((Engine.runner protocol id).run self site work).outcome = none ↔
      ((protocol.poll site.connections.notifier.host.unread work.exchange).run
        (Engine.transport id self work.place) site).2.ended = .waiting := by
  simp only [Engine.runner]
  split <;> simp_all

/-- its own slot is run: the task goes on with its new exchange, or it has ended -/
theorem Works.run_own (hw : m.Works x ready t) {rest : List Nat} (hq : t.queue = m.self.slot :: rest)
    (protocol : Http.Protocol X) (site : Site Handle) :
    let after := (protocol.poll site.connections.notifier.host.unread x).run
      (Engine.transport id m.self ⟨m.key, m.peer⟩) site
    let ran := Tasks.runSlot (Engine.runner protocol id) { t with queue := rest } site m.self.slot
    ready = true ∧ ran.env.connections = after.1.connections ∧
      (after.2.ended = .waiting ∧ ran.completed = none ∧ m.Works after.2.exchange after.2.roused ran.tasks ∨
        after.2.ended ≠ .waiting ∧ ∃ outcome, ran.completed = some ⟨m.self.serial, some m.key, outcome⟩) := by
  have hready : ready = true := by
    have hcount := hw.queued
    rw [hq, List.count_cons_self] at hcount
    cases ready with
    | true => rfl
    | false => simp at hcount
  have hrest : rest.count m.self.slot = 0 := by
    have hcount := hw.queued
    rw [hq, List.count_cons_self, hready] at hcount
    simpa using hcount
  dsimp only
  refine ⟨hready, ?_⟩
  let progress := (Engine.runner protocol id).run m.self site ⟨⟨m.key, m.peer⟩, x⟩
  let cleared : Tasks Nat (ConnectionTask X) :=
    { t with queue := rest, marked := t.marked.filter (· != m.self.serial) }
  have hcleared : m.Works x false cleared := ⟨hw.tenant, by simpa using hrest, by simp [cleared]⟩
  have hself : ∀ h ∈ progress.woken, h = m.self := woken_runner protocol m.self site _
  have hwoken := hcleared.wakes progress.woken hself
  have hroused : (false || !progress.woken.isEmpty) = ((protocol.poll site.connections.notifier.host.unread x).run
      (Engine.transport id m.self ⟨m.key, m.peer⟩) site).2.roused := by
    simp only [progress, Engine.runner]
    split <;> simp_all
  rw [hroused] at hwoken
  have hended := runner_none protocol m.self site ⟨⟨m.key, m.peer⟩, x⟩
  have htenant : ({ t with queue := rest } : Tasks Nat (ConnectionTask X)).slots.get? m.self.slot = _ := hw.tenant
  unfold Tasks.runSlot
  rw [htenant]
  dsimp only
  cases ho : ((Engine.runner protocol id).run ⟨m.self.slot, m.self.serial⟩ site ⟨⟨m.key, m.peer⟩, x⟩).outcome with
  | none =>
    refine ⟨rfl, .inl ⟨hended.1 ho, rfl, ?_, hwoken.queued, hwoken.marked⟩⟩
    exact (Slots.get?_set hwoken.tenant ..).trans (if_pos rfl)
  | some outcome =>
    refine ⟨rfl, .inr ⟨fun he => ?_, outcome, rfl⟩⟩
    exact absurd ((hended.2 he).symm.trans ho) (by simp)

end Mooring

/-- a handle is that of the task of the connection in a slot -/
def Tasks.Of (t : Tasks Nat (ConnectionTask X)) (key : Nat) (h : Handle) : Prop :=
  ∃ tenant, t.slots.get? h.slot = some tenant ∧ tenant.serial = h.serial ∧ tenant.userdata = some key

theorem Tasks.of_congr {t t' : Tasks Nat (ConnectionTask X)} (hs : t'.slots = t.slots) : t'.Of = t.Of := by
  unfold Tasks.Of
  rw [hs]

theorem Tasks.Of.push {t : Tasks Nat (ConnectionTask X)} {past : List Moment} (hl : t.Law past) {key : Nat}
    {h : Handle} (ho : t.Of key h) (work : ConnectionTask X) (userdata : Option Nat) :
    (t.push work userdata).state.Of key h := by
  obtain ⟨tenant, htenant, hserial, huser⟩ := ho
  have hne : h.slot ≠ t.slots.nextKey := fun he => by
    rw [he, Slots.get?_nextKey hl.tidy] at htenant
    cases htenant
  exact ⟨tenant, (Slots.get?_insert hl.tidy ..).trans ((if_neg hne).trans htenant), hserial, huser⟩

/-- the handle of another connection's task is of another slot, and has another serial -/
theorem Mooring.Works.ne_of {m : Mooring} {x : X} {ready : Bool} {t : Tasks Nat (ConnectionTask X)}
    {past : List Moment} (hw : m.Works x ready t) (hl : t.Law past) {key : Nat} {h : Handle} (ho : t.Of key h)
    (hkey : m.key ≠ key) : h.slot ≠ m.self.slot ∧ h.serial ≠ m.self.serial := by
  obtain ⟨tenant, htenant, hserial, huser⟩ := ho
  have hslot : h.slot ≠ m.self.slot := fun he => by
    rw [he, hw.tenant] at htenant
    cases htenant
    exact hkey (Option.some.inj huser)
  exact ⟨hslot, fun he => hslot (hl.distinct htenant hw.tenant (hserial.trans he))⟩

namespace Connections

variable {H : Type} {c c' : Connections H} {O : Nat → H → Prop} {P : H → Prop} {key : Nat}

/-- every parked handle belongs where it is parked -/
def Owns (O : Nat → H → Prop) (c : Connections H) : Prop :=
  ∀ key conn, c.get? key = some conn → ∀ h ∈ conn.handles, O key h

theorem Owns.amends (ho : c.Owns O) (ha : Amends P key c c') (hp : ∀ h, P h → O key h) : c'.Owns O := by
  intro k conn hg h hm
  rcases ha with hs | ⟨old, conn', hold, hs, -, -, hh⟩
  · exact ho k conn (by rwa [get?, hs] at hg) h hm
  · rw [get?, hs, Slots.get?_set hold] at hg
    split at hg
    · next he =>
      cases hg
      rw [he]
      exact (hh h hm).elim (ho key old hold h) (hp h)
    · exact ho k conn hg h hm

theorem Amends.isSome (ha : Amends P key c c') {k : Nat} : (c'.get? k).isSome = (c.get? k).isSome := by
  rcases ha with hs | ⟨old, conn, hold, hs, -⟩
  · rw [get?, hs, get?]
  · rw [get?, hs, Slots.get?_set hold]
    split
    · next he => simp [he, hold]
    · rfl

theorem Amends.entries (ha : Amends P key c c') : c'.slots.entries.length = c.slots.entries.length := by
  rcases ha with hs | ⟨old, conn, -, hs, -⟩
  · rw [hs]
  · rw [hs, Slots.set]
    split <;> simp

theorem Sound.serves {fixed : List Watch} {batch : List Readiness} (hs : c.Sound fixed batch) (key : Nat) :
    ∃ id, c.Serves key id := by
  cases hg : c.get? key with
  | none => exact ⟨0, fun h => by rw [hg] at h; cases h⟩
  | some conn =>
    obtain ⟨id, hd⟩ := hs.far hg
    exact ⟨id, fun h => by rw [hg] at h; cases h; exact hd⟩

end Connections

/-! ## Scenes -/

/-- what a report of these conditions on a connection says -/
def Conditions.report (shown : Conditions) (key : Nat) : Readiness :=
  ⟨.connection key, shown.input, shown.output, shown.error || shown.hangup⟩

/-- the reports that are about the connection in a slot -/
def reportsOn (key : Nat) (batch : List Readiness) : List Readiness :=
  batch.filter fun r => r.token == .connection key

/-- what a server has to deal with yet, and what it has -/
structure Scene (X : Type) where
  batch : List Readiness
  tasks : Tasks Nat (ConnectionTask X)
  connections : Connections Handle

namespace Scene

variable {a a' a'' : Scene X} {fixed : List Watch} {arms : Bool} {protocol : Http.Protocol X} {i : Nat}
  {near : Descriptor} {v : View X}

abbrev host (a : Scene X) : Host := a.connections.host

/-- a connection is served as the mooring and the berth say -/
structure Has (a : Scene X) (m : Mooring) (b : Berth) (x : X) (told : Option Conditions) (ready : Bool) : Prop where
  holds : m.Holds b a.connections
  works : m.Works x ready a.tasks
  told : reportsOn m.key a.batch = told.toList.map (·.report m.key)

/-- where a client's connection is, as its view says -/
def Places (a : Scene X) (i : Nat) (near : Descriptor) : View X → Prop
  | .waiting _ => (∀ d, a.host.device? d ≠ some (.stream i .far)) ∧
      ∃ l word, a.host.Waits i l ∧ a.host.watch? l = some ⟨l, word, .reading⟩ ∧ l ∈ a.host.queue
  | .served b x told ready => ∃ m : Mooring, m.stream = i ∧ m.near = near ∧ a.Has m b x told ready
  | .gone _ => a.host.Gone i

/-- a client is connected with a stream, and its connection is as the view says -/
structure Mirrors (a : Scene X) (i : Nat) (near : Descriptor) (v : View X) : Prop where
  client : a.host.device? near = some (.stream i .near)
  stream : a.host.streams[i]? = some v.stream
  places : a.Places i near v

/-- the parts turn together, every handle is parked on the connection of its own task, every report is about a connection
that is there, and nobody else acts -/
structure Settled (fixed : List Watch) (arms : Bool) (a : Scene X) : Prop where
  turning : ∃ past, Turning fixed False a.batch a.tasks a.connections [] past
  owned : a.connections.Owns a.tasks.Of
  reported : ∀ r ∈ a.batch, ∀ {key}, r.token = .connection key → (a.connections.get? key).isSome
  unhindered : a.host.Unhindered
  counted : a.connections.slots.entries.length ≤ a.host.devices.length
  arms : a.connections.armWrites = arms

/-- every queued slot has a tenant -/
def Lively (a : Scene X) : Prop := ∀ slot ∈ a.tasks.queue, (a.tasks.slots.get? slot).isSome

/-- there is a word for every connection that there could be -/
def Fits (a : Scene X) : Prop := a.host.devices.length + Token.base < UInt64.size

/-- one scene passes into another: what is invariant stays so, and every client's view takes steps of its own -/
structure Passes (protocol : Http.Protocol X) (arms : Bool) (I : Scene X → Prop) (a a' : Scene X) : Prop where
  length : I a → a.host.devices.length ≤ a'.host.devices.length
  keeps : I a → I a'
  follows : I a → a'.Fits → ∀ {i near v}, a.Mirrors i near v → ∃ v', v.Leads protocol arms v' ∧ a'.Mirrors i near v'

variable {I : Scene X → Prop}

theorem Passes.refl (a : Scene X) : Passes protocol arms I a a :=
  ⟨fun _ => Nat.le_refl _, id, fun _ _ {_ _ v} hm => ⟨v, .refl, hm⟩⟩

theorem Passes.of_inv (h : I a → Passes protocol arms I a a') : Passes protocol arms I a a' :=
  ⟨fun hi => (h hi).length hi, fun hi => (h hi).keeps hi, fun hi => (h hi).follows hi⟩

theorem Passes.trans (h : Passes protocol arms I a a') (h' : Passes protocol arms I a' a'') :
    Passes protocol arms I a a'' := by
  refine ⟨fun hi => Nat.le_trans (h.length hi) (h'.length (h.keeps hi)), h'.keeps ∘ h.keeps,
    fun hi hf {i near v} hm => ?_⟩
  have hf' : a'.Fits := Nat.lt_of_le_of_lt (Nat.add_le_add_right (h'.length (h.keeps hi)) _) hf
  obtain ⟨v', hl, hm'⟩ := h.follows hi hf' hm
  obtain ⟨v'', hl', hm''⟩ := h'.follows (h.keeps hi) hf hm'
  exact ⟨v'', hl.trans hl', hm''⟩

theorem Settled.sound (hs : a.Settled fixed arms) : a.connections.Sound fixed a.batch := by
  obtain ⟨past, hturning⟩ := hs.turning
  exact hturning.table

theorem Has.mirrors {m : Mooring} {b : Berth} {x : X} {told : Option Conditions} {ready : Bool}
    (h : a.Has m b x told ready) : a.Mirrors m.stream m.near (.served b x told ready) :=
  ⟨h.holds.host.near, h.holds.host.stream, m, rfl, rfl, h⟩

/-- a connection that an operation does not concern is held as before -/
theorem holds_of_only {m : Mooring} {b : Berth} {c c' : Connections Handle} {x : Option Nat} (hc : m.Holds b c)
    (ho : Connections.Only x c c') (hx : x ≠ some m.stream) : m.Holds b c' := by
  have hi := (List.getElem?_eq_some_iff.1 hc.host.stream).1
  have ha := ho.host.apart hx hi
  have hharbors : c.host.Harbors m.stream m.far := .inl hc.host.far
  refine ⟨ho.conns hx hi hc.conn hc.host.far, ha.ends.2 hc.host.near, ha.ends.2 hc.host.far,
    ha.stream.trans hc.host.stream, ?_, ?_⟩
  · rw [ha.watch hharbors]
    exact hc.host.watch
  · rw [← hc.host.queued]
    exact ⟨ha.unqueued hc.host.far, ha.queued hharbors⟩

/-- an operation that does not concern the client's stream leaves its view as it is, if its task and the reports on it
stay -/
theorem Mirrors.of_only (hm : a.Mirrors i near v) {x : Option Nat} (hx : x ≠ some i)
    (ho : Connections.Only x a.connections a'.connections)
    (hserved : ∀ {m b exchange told ready}, v = .served b exchange told ready → m.stream = i →
      a.Has m b exchange told ready →
        m.Works exchange ready a'.tasks ∧ reportsOn m.key a'.batch = reportsOn m.key a.batch) :
    a'.Mirrors i near v := by
  have hi := (List.getElem?_eq_some_iff.1 hm.stream).1
  have ha := ho.host.apart hx hi
  refine ⟨ha.ends.2 hm.client, ha.stream.trans hm.stream, ?_⟩
  cases v with
  | waiting stream =>
    obtain ⟨hfar, l, word, hwaits, hwatch, hqueued⟩ := hm.places
    exact ⟨fun d hd => hfar d (ha.ends.1 hd), l, word, ha.waits.2 hwaits, (ha.watch (.inr hwaits)).trans hwatch,
      ha.queued (.inr hwaits) hqueued⟩
  | served b exchange told ready =>
    obtain ⟨m, rfl, hnear, hhas⟩ := hm.places
    obtain ⟨hworks, hreports⟩ := hserved rfl rfl hhas
    exact ⟨m, rfl, hnear, holds_of_only hhas.holds ho hx, hworks, hreports.trans hhas.told⟩
  | gone stream =>
    have hgone : a.host.Gone i := hm.places
    exact ⟨fun d hd => hgone.far d (ha.ends.1 hd), fun l hw => hgone.waits l (ha.waits.1 hw)⟩

/-- the connection in a slot is the client's own, or it has another stream -/
theorem Mirrors.cases_key (hm : a.Mirrors i near v) {batch : List Readiness} (hs : a.connections.Sound fixed batch)
    (key : Nat) :
    (∃ m b exchange told ready, v = .served b exchange told ready ∧ m.stream = i ∧ m.near = near ∧
      a.Has m b exchange told ready ∧ m.key = key) ∨
    ∃ id, some id ≠ some i ∧ a.connections.Serves key id ∧ ∀ {m b exchange told ready},
      v = .served b exchange told ready → m.stream = i → a.Has m b exchange told ready → m.key ≠ key := by
  by_cases hours : ∃ conn, a.connections.get? key = some conn ∧
      a.host.device? conn.descriptor = some (.stream i .far)
  · obtain ⟨conn, hg, hd⟩ := hours
    left
    cases v with
    | waiting stream => exact absurd hd (hm.places.1 _)
    | served b exchange told ready =>
      obtain ⟨m, rfl, hnear, hhas⟩ := hm.places
      refine ⟨m, b, exchange, told, ready, rfl, rfl, hnear, hhas, ?_⟩
      exact hs.slot_unique hhas.holds.conn hg (hs.host.once hhas.holds.host.far hd)
    | gone stream =>
      have hgone : a.host.Gone i := hm.places
      exact absurd hd (hgone.far _)
  · right
    have hother : ∀ {m b exchange told ready}, v = .served b exchange told ready → m.stream = i →
        a.Has m b exchange told ready → m.key ≠ key := by
      rintro m b exchange told ready - rfl hhas rfl
      exact hours ⟨_, hhas.holds.conn, hhas.holds.host.far⟩
    cases hg : a.connections.get? key with
    | none => exact ⟨i + 1, by simp, (fun h => by rw [hg] at h; cases h), hother⟩
    | some conn =>
      obtain ⟨id, hd⟩ := hs.far hg
      refine ⟨id, fun he => hours ⟨conn, hg, Option.some.inj he ▸ hd⟩, fun {other} h => ?_, hother⟩
      rw [hg] at h
      cases h
      exact hd

end Scene

end EventServer
