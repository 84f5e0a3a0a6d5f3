/-
The engine and the table together. `Turning` is the invariant of both between two steps of the loop: the table is sound,
the tasks keep their law, every parked handle names a task, and the tasks in flight are paired with the connections, the
user data of a task being the slot of its connection.

A run of a task acts on the table through its transport only, whatever protocol it follows (`run_keeps`); so a run of a
slot keeps the invariant up to the connection of a task that ends (`turning_runSlot`), taking that connection out makes
it whole again (`Turning.reclaim`), and a pump keeps it and leaves no slot to run (`turning_pump`).
-/
import EventServer.Engine
import EventServer.Proofs.Retained
import EventServer.Proofs.Schedule

namespace EventServer

/-- a talk keeps what every operation of the transport keeps -/
theorem Http.Talk.run_keeps {σ α : Type} {T : Http.Transport σ} {I : σ → Prop}
    (hrecv : ∀ {s} count, I s → I (T.recv s count).1) (hsend : ∀ {s} bytes, I s → I (T.send s bytes).1)
    (hshutdown : ∀ {s}, I s → I (T.shutdown s).1) (hnote : ∀ {s} note, I s → I (T.note s note)) (talk : Http.Talk α)
    {s : σ} (h : I s) : I (talk.run T s).1 := by
  induction talk generalizing s with
  | done value => exact h
  | recv count next ih => exact ih _ (hrecv count h)
  | send bytes next ih => exact ih _ (hsend bytes h)
  | shutdown next ih => exact ih _ (hshutdown h)
  | note note next ih => exact ih (hnote note h)

variable {X : Type}

/-- the invariant of the engine and the table: `left` is the user data of tasks that ended while their connections are
still there, and `oblige` whatever makes sure that no change of a watch is refused -/
structure Turning (fixed : List Watch) (oblige : Prop) (batch : List Readiness) (t : Tasks Nat (ConnectionTask X))
    (c : Connections Handle) (left : List (Option Nat)) (past : List Moment) : Prop where
  table : c.Sound fixed batch
  arming : oblige → c.Arming
  handles : c.Handles t.Names
  law : t.Law past
  paired : (t.slots.toList.map (·.2.userdata) ++ left).Perm (c.keys.map some)
  placed : ∀ {slot tenant}, t.slots.get? slot = some tenant → tenant.userdata = some tenant.work.place.slot

variable {fixed : List Watch} {oblige : Prop} {batch : List Readiness} {t t' : Tasks Nat (ConnectionTask X)}
  {c c' : Connections Handle} {left : List (Option Nat)} {past : List Moment}

/-! ## Runs of a task -/

/-- what a task does over its transport keeps the table sound, and parks no handle but its own -/
theorem run_transport {α : Type} {P : Handle → Prop} {self : Handle} (hself : P self) (place : Place)
    (talk : Http.Talk α) {site : Site Handle} (hc : site.connections.Sound fixed batch)
    (ha : oblige → site.connections.Arming) :
    (talk.run (Engine.transport id self place) site).1.connections.Sound fixed batch ∧
      (oblige → (talk.run (Engine.transport id self place) site).1.connections.Arming) ∧
      site.connections.Touched P (talk.run (Engine.transport id self place) site).1.connections := by
  refine Http.Talk.run_keeps (I := fun s : Site Handle => s.connections.Sound fixed batch ∧
    (oblige → s.connections.Arming) ∧ site.connections.Touched P s.connections) ?_ ?_ ?_ ?_ talk
    ⟨hc, ha, Connections.touched_of_slots rfl⟩
  · intro s count ⟨hc, ha, ht⟩
    obtain ⟨hc', ha'⟩ := Connections.sound_recv hc place.slot self count
    exact ⟨hc', fun ho => ha' (ha ho), ht.trans (Connections.touched_recv _ _ hself count)⟩
  · intro s bytes ⟨hc, ha, ht⟩
    obtain ⟨hc', ha'⟩ := Connections.sound_send hc place.slot self bytes
    exact ⟨hc', fun ho => ha' (ha ho), ht.trans (Connections.touched_send _ _ hself bytes)⟩
  · intro s ⟨hc, ha, ht⟩
    obtain ⟨hc', ha'⟩ := Connections.sound_shutdown hc place.slot
    exact ⟨hc', fun ho => ha' (ha ho), ht.trans (Connections.touched_shutdown _ _)⟩
  · exact fun _ h => h

/-- tasks among which the same ones or fewer are in flight have the same handles -/
theorem names_mono {h : Handle} (hn : t.Names h) (hserial : t'.nextSerial = t.nextSerial)
    (hs : ∀ {slot tenant}, t'.slots.get? slot = some tenant →
      ∃ old, t.slots.get? slot = some old ∧ old.serial = tenant.serial) : t'.Names h := by
  refine ⟨hserial ▸ hn.serial, fun ht he => ?_⟩
  obtain ⟨old, hold, hsame⟩ := hs ht
  exact hn.slot hold (hsame.trans he)

/-- a task in flight is one that was so before, with new work at most -/
def Lasts (t t' : Tasks Nat (ConnectionTask X)) : Prop :=
  ∀ {slot tenant}, t'.slots.get? slot = some tenant → ∃ old, t.slots.get? slot = some old ∧
    old.serial = tenant.serial ∧ old.userdata = tenant.userdata ∧ old.work.place = tenant.work.place

/-- the invariant for tasks that last, if it holds of everything else -/
theorem Turning.of_lasts (ht : Turning fixed oblige batch t c [] past) (hs : Lasts t t')
    (hserial : t'.nextSerial = t.nextSerial) {past' : List Moment} (hlaw : t'.Law past')
    {batch' : List Readiness} (htable : c'.Sound fixed batch') (harming : oblige → c'.Arming)
    (hhandles : c'.Handles t.Names)
    (hpaired : (t'.slots.toList.map (·.2.userdata) ++ left).Perm (c'.keys.map some)) :
    Turning fixed oblige batch' t' c' left past' := by
  refine ⟨htable, harming, fun _ _ hg handle hm => ?_, hlaw, hpaired, fun htenant => ?_⟩
  · refine names_mono (hhandles _ _ hg handle hm) hserial fun htenant => ?_
    obtain ⟨old, hold, hsame, -⟩ := hs htenant
    exact ⟨old, hold, hsame⟩
  · obtain ⟨old, hold, -, huser, hplace⟩ := hs htenant
    rw [← huser, ← hplace]
    exact ht.placed hold

/-- the handles that a run wakes are of the task that runs -/
theorem woken_runner (protocol : Http.Protocol X) (self : Handle) (site : Site Handle) (work : ConnectionTask X) :
    ∀ h ∈ ((Engine.runner protocol id).run self site work).woken, h = self := fun h hm => by
  simp only [Engine.runner] at hm
  split at hm
  · exact List.mem_singleton.1 hm
  · cases hm

/-- a run of the slot at the head of the queue, up to the connection of a task that ends in it -/
theorem turning_runSlot (protocol : Http.Protocol X) (ht : Turning fixed oblige [] t c [] past) {site : Site Handle}
    (hsite : site.connections = c) {slot : Nat} {rest : List Nat} (hq : t.queue = slot :: rest) :
    Turning fixed oblige []
      (Tasks.runSlot (Engine.runner protocol id) { t with queue := rest } site slot).tasks
      (Tasks.runSlot (Engine.runner protocol id) { t with queue := rest } site slot).env.connections
      ((Tasks.runSlot (Engine.runner protocol id) { t with queue := rest } site slot).completed.toList.map (·.userdata))
      (past ++
        (Tasks.runSlot (Engine.runner protocol id) { t with queue := rest } site slot).course.map .task) := by
  subst hsite
  have hlaw := ht.law.runSlot hq (Engine.runner protocol id) site fun {tenant} htenant h hm =>
    woken_runner protocol _ site tenant.work h hm ▸ ht.law.names htenant
  obtain ⟨hserial, hcases⟩ := Tasks.runSlot_cases (Engine.runner protocol id) { t with queue := rest } site slot
  rcases hcases with ⟨-, hslots, hcompleted, henv⟩ | ⟨tenant, htenant, hcases⟩
  · -- nobody lived there
    rw [hcompleted, henv]
    refine ht.of_lasts (fun {slot' tenant'} ht' => ?_) hserial hlaw ht.table ht.arming ht.handles ?_
    · exact ⟨tenant', hslots ▸ ht', rfl, rfl, rfl⟩
    · rw [hslots]
      exact ht.paired
  obtain ⟨htable, harming, htouched⟩ := run_transport (ht.law.names htenant) tenant.work.place
    (protocol.poll site.connections.notifier.host.unread tenant.work.exchange) ht.table ht.arming
  have hrun : ((Engine.runner protocol id).run ⟨slot, tenant.serial⟩ site tenant.work).env =
      ((protocol.poll site.connections.notifier.host.unread tenant.work.exchange).run
        (Engine.transport id ⟨slot, tenant.serial⟩ tenant.work.place) site).1 := rfl
  have hhandles := htouched.handles ht.handles
  obtain ⟨pre, post, hlist, herase, hset⟩ := Slots.toList_focus htenant
  have hpaired := ht.paired
  rw [show t.slots.toList = _ from hlist, ← htouched.keys] at hpaired
  rcases hcases with ⟨hcompleted, hslots, henv⟩ | ⟨outcome, hcompleted, hslots, henv⟩
  · -- the task is where it was, with new work
    rw [hcompleted, henv, hrun]
    refine ht.of_lasts (fun {slot' tenant'} ht' => ?_) hserial hlaw htable harming hhandles ?_
    · rw [hslots, Slots.get?_set htenant] at ht'
      split at ht'
      · next he =>
        cases ht'
        exact ⟨tenant, he ▸ htenant, rfl, rfl, rfl⟩
      · exact ⟨tenant', ht', rfl, rfl, rfl⟩
    · rw [hslots, hset]
      simpa using hpaired
  · -- the task has left
    rw [hcompleted, henv]
    refine ht.of_lasts (fun {slot' tenant'} ht' => ?_) hserial hlaw htable harming hhandles ?_
    · rw [hslots, Slots.get?_erase] at ht'
      split at ht'
      · cases ht'
      · exact ⟨tenant', ht', rfl, rfl, rfl⟩
    · rw [hslots, herase]
      refine List.Perm.trans ?_ hpaired
      simp only [List.map_append, List.map_cons, List.append_assoc, List.append_nil, Option.toList_some, List.map_nil]
      exact (List.perm_append_singleton ..).append_left _

/-! ## Pumps -/

/-- the connection of the task that ended is taken out -/
theorem Turning.reclaim {site : Site Handle} (done : Completed Nat TaskFailure)
    (ht : Turning fixed oblige [] t site.connections [done.userdata] past) :
    Turning fixed oblige [] t (Engine.reclaim site done).connections [] past := by
  have hmem : done.userdata ∈ site.connections.keys.map some := ht.paired.mem_iff.1 (by simp)
  obtain ⟨key, hkey, huser⟩ := List.mem_map.1 hmem
  obtain ⟨⟨key, conn⟩, hentry, rfl⟩ := List.mem_map.1 hkey
  have hg := Connections.mem_toList.1 hentry
  have hstate : (Engine.reclaim site done).connections = (site.connections.remove key).state := by
    simp only [Engine.reclaim, ← huser]
    rfl
  have hslots := Connections.remove_slots site.connections key
  obtain ⟨htable, harming⟩ := Connections.sound_remove ht.table key
  obtain ⟨pre, post, hlist, herase, -⟩ := Slots.toList_focus hg
  rw [hstate]
  refine ⟨htable, fun ho => harming (ht.arming ho), fun k x hx => ?_, ht.law, ?_, ht.placed⟩
  · rw [Connections.get?, hslots, Slots.get?_erase] at hx
    split at hx
    · cases hx
    · exact ht.handles k x hx
  · have hpaired := ht.paired
    simp only [Connections.keys, hslots, hlist, herase, ← huser, List.map_append, List.map_cons, List.append_nil]
      at hpaired ⊢
    exact ((List.perm_append_singleton ..).symm.trans (hpaired.trans List.perm_middle)).cons_inv

/-- a pump keeps the invariant, and leaves no slot to run -/
theorem turning_pump {e : Engine X} (site : Site Handle) (ht : Turning fixed oblige [] e.tasks site.connections [] past)
    {limit : Nat} {report : PumpTally} {p : Pumped X Handle} (hp : e.pumpUpTo id limit site report = some p) :
    Turning fixed oblige [] p.engine.tasks p.site.connections [] (past ++ p.course.map .task) ∧
      p.engine.tasks.queue = [] := by
  induction limit generalizing e site report past p with
  | zero => cases hp
  | succ limit ih =>
    unfold Engine.pumpUpTo at hp
    cases hpoll : e.tasks.poll (Engine.runner e.protocol id) limit site with
    | none =>
      rw [hpoll] at hp
      cases hp
    | some polled =>
      rw [hpoll] at hp
      obtain ⟨hpolled, hqueue⟩ := Tasks.poll_keeps
        (P := fun t (site : Site Handle) (completed : Option (Completed Nat TaskFailure)) course =>
          Turning fixed oblige [] t site.connections (completed.toList.map (·.userdata)) (past ++ course.map .task))
        (fun {t site course slot rest} ht hq => by
          have hrun := turning_runSlot e.protocol ht rfl hq
          simpa using hrun) [] (by simpa using ht) hpoll
      rw [List.nil_append] at hpolled
      dsimp only at hp
      cases hc : polled.completed with
      | none =>
        rw [hc] at hp hpolled
        cases hp
        exact ⟨hpolled, hqueue hc⟩
      | some done =>
        simp only [hc, Option.map_eq_some_iff] at hp
        obtain ⟨q, hq, rfl⟩ := hp
        rw [hc] at hpolled
        have hreclaimed := Turning.reclaim done hpolled
        have hrest := ih _ hreclaimed hq
        simpa using hrest

end EventServer
