/-
Servers that differ only in the order in which descriptors and slots are queued (`Server.Twin`), and what a report and
an accepted connection do to a server when nobody else acts.

A report on a live connection changes the record in its slot, what the connection is watched for, and which tasks are
queued (`resume_eq`); one on a slot that was never parked on changes nothing (`resume_idle`). Taking a connection in
changes the next free slot, the watches, and enrolls a task (`welcome_eq`). Each of the parts goes through from a server
to its twin, so the steps do too (`Twin.resume`, `Twin.acceptUpTo`, `Twin.handle`), and so does a batch
(`Twin.dispatch`).
-/
import EventServer.Proofs.Belonging
import EventServer.Proofs.Twins

namespace EventServer

/-! ## Slots -/

namespace Slots

variable {α : Type} {s : Slots α} {key key' : Nat} {old old' value value' : α}

theorem set_eq (h : s.get? key = some old) (value : α) :
    s.set key value = { s with entries := s.entries.set key (some value) } := by
  simp [set, h]

theorem set_self (h : s.get? key = some value) : s.set key value = s := by
  have hentry : s.entries[key]? = some (some value) := by
    simpa [get?, Option.join_eq_some_iff] using h
  rw [set_eq h, ← (List.getElem?_eq_some_iff.1 hentry).2, List.set_getElem_self]

theorem set_set (h : s.get? key = some old) : (s.set key value).set key value' = s.set key value' := by
  have hset : (s.set key value).get? key = some value := (get?_set h ..).trans (if_pos rfl)
  rw [set_eq hset, set_eq h, set_eq h, List.set_set]

theorem set_comm (h : s.get? key = some old) (h' : s.get? key' = some old') (hne : key ≠ key') :
    (s.set key value).set key' value' = (s.set key' value').set key value := by
  have hset : (s.set key value).get? key' = some old' := (get?_set h ..).trans ((if_neg hne.symm).trans h')
  have hset' : (s.set key' value').get? key = some old := (get?_set h' ..).trans ((if_neg hne).trans h)
  rw [set_eq hset, set_eq hset', set_eq h, set_eq h', List.set_comm _ _ hne]

theorem nextKey_set (h : s.get? key = some old) : (s.set key value).nextKey = s.nextKey := by
  simp [set_eq h, nextKey]

theorem insert_set (ht : s.Tidy) (h : s.get? key = some old) :
    (s.set key value).insert value' = (s.insert value').set key value := by
  have hne : key ≠ s.nextKey := fun he => by
    rw [he, get?_nextKey ht] at h
    cases h
  have hinsert : (s.insert value').get? key = some old := (get?_insert ht ..).trans ((if_neg hne).trans h)
  rw [set_eq hinsert, set_eq h]
  cases hf : s.free with
  | nil => simp [insert, hf, List.set_append_left _ _ (lt_length_of_get? h)]
  | cons k rest =>
    have hk : k ≠ key := fun he => hne (by simp [nextKey, hf, he])
    simp [insert, hf, List.set_comm _ _ hk]

end Slots

/-! ## Tasks in another order -/

namespace Tasks

variable {U F : Type} {t t' t'' : Tasks U F} {h h' : Handle} {handles handles' : List Handle}

/-- the same tasks, queued and marked in another order at most -/
structure Twin (t t' : Tasks U F) : Prop where
  slots : t'.slots = t.slots
  nextSerial : t'.nextSerial = t.nextSerial
  queue : t'.queue.Perm t.queue
  marked : t'.marked.Perm t.marked

theorem Twin.refl (t : Tasks U F) : Twin t t := ⟨rfl, rfl, .refl _, .refl _⟩

theorem Twin.symm (ha : Twin t t') : Twin t' t :=
  ⟨ha.slots.symm, ha.nextSerial.symm, ha.queue.symm, ha.marked.symm⟩

theorem Twin.trans (ha : Twin t t') (ha' : Twin t' t'') : Twin t t'' :=
  ⟨ha'.slots.trans ha.slots, ha'.nextSerial.trans ha.nextSerial, ha'.queue.trans ha.queue, ha'.marked.trans ha.marked⟩

theorem wake_of_marked (hm : h.serial ∈ t.marked) : t.wake h = t := by
  simp [Tasks.wake, hm]

theorem wake_of_unmarked (hm : h.serial ∉ t.marked) :
    t.wake h = { t with queue := t.queue ++ [h.slot], marked := h.serial :: t.marked } := by
  simp [Tasks.wake, hm]

theorem Twin.wake (ha : Twin t t') (h : Handle) : Twin (t.wake h) (t'.wake h) := by
  by_cases hm : h.serial ∈ t.marked
  · rw [wake_of_marked hm, wake_of_marked (ha.marked.mem_iff.2 hm)]
    exact ha
  · rw [wake_of_unmarked hm, wake_of_unmarked fun hm' => hm (ha.marked.mem_iff.1 hm')]
    exact ⟨ha.slots, ha.nextSerial, ha.queue.append_right _, ha.marked.cons _⟩

theorem Twin.wakes (ha : Twin t t') (handles : List Handle) :
    Twin (handles.foldl Tasks.wake t) (handles.foldl Tasks.wake t') := by
  induction handles generalizing t t' with
  | nil => exact ha
  | cons h rest ih => exact ih (ha.wake h)

/-- two wakes may change places; of one task only the first queues anything -/
theorem twin_wake_wake (t : Tasks U F) (hone : h.serial = h'.serial → h.slot = h'.slot) :
    Twin ((t.wake h).wake h') ((t.wake h').wake h) := by
  by_cases hm : h.serial ∈ t.marked
  · rw [wake_of_marked hm, wake_of_marked ((t.mem_marked_wake h').2 (.inr hm))]
    exact .refl _
  by_cases hm' : h'.serial ∈ t.marked
  · rw [wake_of_marked hm', wake_of_marked ((t.mem_marked_wake h).2 (.inr hm'))]
    exact .refl _
  by_cases he : h.serial = h'.serial
  · rw [wake_of_marked (h := h') ((t.mem_marked_wake h).2 (.inl he.symm)),
      wake_of_marked (h := h) ((t.mem_marked_wake h').2 (.inl he)), wake_of_unmarked hm, wake_of_unmarked hm', he,
      hone he]
    exact .refl _
  · have hfirst : h'.serial ∉ (t.wake h).marked := fun hw =>
      ((t.mem_marked_wake h).1 hw).elim (fun heq => he heq.symm) hm'
    have hsecond : h.serial ∉ (t.wake h').marked := fun hw => ((t.mem_marked_wake h').1 hw).elim he hm
    rw [wake_of_unmarked hfirst, wake_of_unmarked hsecond, wake_of_unmarked hm, wake_of_unmarked hm']
    refine ⟨rfl, rfl, ?_, .swap ..⟩
    simpa using (List.Perm.swap h.slot h'.slot []).append_left t.queue

/-- so may any wakes -/
theorem twin_wakes_perm (hp : handles.Perm handles')
    (hone : ∀ h ∈ handles, ∀ h' ∈ handles, h.serial = h'.serial → h.slot = h'.slot) (t : Tasks U F) :
    Twin (handles.foldl Tasks.wake t) (handles'.foldl Tasks.wake t) := by
  induction hp generalizing t with
  | nil => exact .refl t
  | cons h _ ih =>
    exact ih (fun a ha b hb => hone a (List.mem_cons_of_mem _ ha) b (List.mem_cons_of_mem _ hb)) (t.wake h)
  | swap h h' rest =>
    have hone := hone h' List.mem_cons_self h (List.mem_cons_of_mem _ List.mem_cons_self)
    exact (twin_wake_wake t hone).wakes rest
  | trans hp _ ih ih' =>
    exact (ih hone t).trans (ih' (fun a ha b hb => hone a (hp.mem_iff.2 ha) b (hp.mem_iff.2 hb)) t)

theorem Twin.push (ha : Twin t t') (work : F) (userdata : Option U) :
    Twin (t.push work userdata).state (t'.push work userdata).state ∧
      (t'.push work userdata).value = (t.push work userdata).value := by
  simp only [Tasks.push, ha.slots, ha.nextSerial, and_true]
  exact ⟨rfl, rfl, ha.queue.append_right _, ha.marked.cons _⟩

/-- enrolling a task and waking others may change places -/
theorem twin_push_wakes (handles : List Handle) (hold : ∀ h ∈ handles, h.serial ≠ t.nextSerial) (work : F)
    (userdata : Option U) :
    Twin (handles.foldl Tasks.wake (t.push work userdata).state)
        ((handles.foldl Tasks.wake t).push work userdata).state ∧
      ((handles.foldl Tasks.wake t).push work userdata).value = (t.push work userdata).value := by
  induction handles generalizing t with
  | nil => exact ⟨.refl _, rfl⟩
  | cons h rest ih =>
    have hne := hold h List.mem_cons_self
    obtain ⟨hslots, hserial⟩ := t.wake_slots h
    obtain ⟨hrest, hvalue⟩ := ih (t := t.wake h) fun h' hm => hserial ▸ hold h' (List.mem_cons_of_mem _ hm)
    have hsame : ((t.wake h).push work userdata).value = (t.push work userdata).value := by
      simp only [Tasks.push, hslots, hserial]
    refine ⟨.trans (Twin.wakes ?_ rest) hrest, hvalue.trans hsame⟩
    by_cases hm : h.serial ∈ t.marked
    · rw [wake_of_marked hm, wake_of_marked (List.mem_cons_of_mem _ hm)]
      exact .refl _
    · have hm' : h.serial ∉ (t.push work userdata).state.marked := fun hw => (List.mem_cons.1 hw).elim hne hm
      rw [wake_of_unmarked hm, wake_of_unmarked hm']
      refine ⟨rfl, rfl, ?_, .swap ..⟩
      simpa [Tasks.push] using (List.Perm.swap t.slots.nextKey h.slot []).append_left t.queue

end Tasks

/-! ## Reports on one connection -/

namespace Connection

variable {H : Type}

/-- the handles that a report resumes -/
def roused (conn : Connection H) (r : Readiness) : List H :=
  (if r.heeds .read then conn.read.handle.toList else []) ++ if r.heeds .write then conn.write.handle.toList else []

/-- whether a report has it asked that room to write be watched no more -/
def disarms (conn : Connection H) (r : Readiness) : Bool := r.heeds .write && conn.armed

/-- the connection after a report; whether room to write is watched no more then is granted or not -/
def heard (conn : Connection H) (r : Readiness) (granted : Bool) : Connection H :=
  { conn.resumed r with armed := conn.armed && !(r.heeds .write && granted) }

theorem kept_eq (slot : ParkingSlot H) (resumes : Bool) :
    (if resumes then slot.wake else (slot, none)).1.handle = if resumes then none else slot.handle := by
  cases resumes <;> rfl

/-- two reports resume the same between them in either order -/
theorem roused_heard (conn : Connection H) (r r' : Readiness) (granted : Bool) :
    (conn.roused r ++ (conn.heard r granted).roused r').Perm
      (conn.roused r' ++ (conn.heard r' granted).roused r) := by
  have hread : ∀ q : Readiness, (conn.heard q granted).read.handle.toList =
      if q.heeds .read then [] else conn.read.handle.toList := fun q => by
    rw [show (conn.heard q granted).read.handle = _ from kept_eq conn.read (q.heeds .read)]
    split <;> rfl
  have hwrite : ∀ q : Readiness, (conn.heard q granted).write.handle.toList =
      if q.heeds .write then [] else conn.write.handle.toList := fun q => by
    rw [show (conn.heard q granted).write.handle = _ from kept_eq conn.write (q.heeds .write)]
    split <;> rfl
  simp only [roused, hread, hwrite]
  cases r.heeds .read <;> cases r.heeds .write <;> cases r'.heeds .read <;> cases r'.heeds .write <;>
    simp [List.perm_append_comm]

theorem mem_handles_of_roused {conn : Connection H} {r : Readiness} {h : H} (hm : h ∈ conn.roused r) :
    h ∈ conn.handles := by
  rcases List.mem_append.1 hm with hm | hm
  · split at hm
    · exact List.mem_append_left _ hm
    · cases hm
  · split at hm
    · exact List.mem_append_right _ hm
    · cases hm

theorem mem_handles_of_heard {conn : Connection H} {r : Readiness} {granted : Bool} {h : H}
    (hm : h ∈ (conn.heard r granted).handles) : h ∈ conn.handles := by
  have hread : (conn.heard r granted).read.handle = _ := kept_eq conn.read (r.heeds .read)
  have hwrite : (conn.heard r granted).write.handle = _ := kept_eq conn.write (r.heeds .write)
  rw [handles, hread, hwrite] at hm
  rcases List.mem_append.1 hm with hm | hm
  · split at hm
    · cases hm
    · exact List.mem_append_left _ hm
  · split at hm
    · cases hm
    · exact List.mem_append_right _ hm

/-- nobody is parked, and room to write is not watched -/
structure Vacant (conn : Connection H) : Prop where
  read : conn.read.handle = none
  write : conn.write.handle = none
  armed : conn.armed = false

theorem Vacant.resumed {conn : Connection H} (hv : conn.Vacant) (r : Readiness) : conn.resumed r = conn := by
  obtain ⟨descriptor, peer, ⟨read⟩, ⟨write⟩, armed⟩ := conn
  obtain ⟨rfl, rfl, rfl⟩ := hv
  simp only [Connection.resumed, Connection.mk.injEq, true_and, and_true]
  exact ⟨by split <;> rfl, by split <;> rfl⟩

end Connection

namespace Host

variable {H : Type} {h h' : Host} {key : Nat} {conn : Connection H}

/-- whether the next change of what a descriptor is watched for will be granted, if it is watched -/
def grants (h : Host) (d : Descriptor) : Bool := (h.refusals.change? d).isNone

/-- the host after a report on the connection in a slot -/
def heed (h : Host) (key : Nat) (conn : Connection H) (r : Readiness) : Host :=
  if conn.disarms r then
    (h.rewatch conn.descriptor (UInt64.ofNat (Token.base + key)) Connections.idleInterest).1
  else h

end Host

namespace Connections

variable {H : Type} {c : Connections H} {key : Nat} {conn : Connection H}

/-- what a report does to a live connection when nobody else acts -/
theorem fire_eq (hothers : c.host.others = []) (hg : c.get? key = some conn) (hk : Token.base + key < UInt64.size)
    (hd : c.host.watchable conn.descriptor = .ok ()) (hw : (c.host.watch? conn.descriptor).isSome) (r : Readiness) :
    (c.fire key r).state =
        (c.put key (conn.heard r (c.host.grants conn.descriptor))).onHost (fun _ => c.host.heed key conn r) ∧
      (c.fire key r).value = conn.roused r := by
  have hvalue : (c.fire key r).value = conn.roused r := by
    unfold fire
    simp only [hg, woken_eq]
    rfl
  refine ⟨?_, hvalue⟩
  have hword : (Token.connection key).word? = some (UInt64.ofNat (Token.base + key)) := if_pos hk
  unfold fire
  simp only [hg]
  cases harm : conn.disarms r with
  | false =>
    have harm' : ((r.writable || r.closed) && conn.armed) = false := harm
    have hsame : conn.heard r (c.host.grants conn.descriptor) = conn.resumed r := by
      simp only [Connection.heard, Connection.resumed, Connection.mk.injEq, true_and]
      cases harmed : conn.armed with
      | false => rfl
      | true =>
        rw [harmed, Bool.and_true] at harm'
        simp [Readiness.heeds, harm']
    rw [if_neg (show ¬ ((r.writable || r.closed) && conn.armed) = true by simp [harm']), hsame, Host.heed,
      if_neg (show ¬ conn.disarms r = true by simp [harm])]
    rfl
  | true =>
    have harm' : ((r.writable || r.closed) && conn.armed) = true := harm
    obtain ⟨hheeds, harmed⟩ := Bool.and_eq_true_iff.1 harm'
    have helapse : c.notifier.host.elapse = c.host := Host.elapse_eq hothers
    rw [if_pos harm', Host.heed, if_pos harm]
    simp only [rearm, Notifier.reregister, hword, helapse, Bool.false_eq_true, if_false]
    rcases Host.rewatch_eq hd hw (UInt64.ofNat (Token.base + key)) idleInterest with ⟨code, hc, he⟩ | ⟨hc, he⟩
    · have hgrants : c.host.grants conn.descriptor = false := by simp [Host.grants, hc]
      have hsame : conn.heard r (c.host.grants conn.descriptor) = conn.resumed r := by
        simp [Connection.heard, Connection.resumed, hgrants]
      simp only [he, hsame]
      rfl
    · have hgrants : c.host.grants conn.descriptor = true := by simp [Host.grants, hc]
      have hsame : conn.heard r (c.host.grants conn.descriptor) = { conn.resumed r with armed := false } := by
        simp [Connection.heard, Readiness.heeds, hheeds, hgrants]
      simp only [he, hsame]
      rfl

/-- nothing comes of a report on a slot where nobody is parked and nothing more than bytes is watched for -/
theorem fire_vacant (hv : ∀ conn, c.get? key = some conn → conn.Vacant) (r : Readiness) :
    (c.fire key r).state = c ∧ (c.fire key r).value = [] := by
  unfold fire
  cases hg : c.get? key with
  | none => exact ⟨rfl, rfl⟩
  | some conn =>
    have hvacant := hv conn hg
    have harm : ((r.writable || r.closed) && conn.armed) = false := by rw [hvacant.armed, Bool.and_false]
    simp only [woken_eq, hvacant.read, hvacant.write, harm, Bool.false_eq_true, if_false, Option.toList_none,
      ite_self, List.append_nil, and_true]
    have hsame : c.slots.set key (conn.resumed r) = c.slots := by
      rw [hvacant.resumed r]
      exact Slots.set_self hg
    exact congrArg (fun slots => ({ c with slots } : Connections H)) hsame

/-- what taking a connection in does when nobody else acts -/
theorem insert_eq (hothers : c.host.others = []) (d : Descriptor) (peer : Address) :
    (∃ fault, (c.host.enlist c.slots.nextKey d).2 = .error fault ∧ (c.insert d peer).value = .error fault ∧
        (c.insert d peer).state = c.onHost fun _ => (c.host.enlist c.slots.nextKey d).1) ∨
      (c.host.enlist c.slots.nextKey d).2 = .ok () ∧ (c.insert d peer).value = .ok c.slots.nextKey ∧
        (c.insert d peer).state =
          { c with
            slots := c.slots.insert { descriptor := d, peer }
            notifier :=
              { c.notifier with
                host := (c.host.enlist c.slots.nextKey d).1
                registrations := c.notifier.registrations + 1 } } := by
  have helapse : c.notifier.host.elapse = c.host := Host.elapse_eq hothers
  cases hk : (Token.connection c.slots.nextKey).word? with
  | none =>
    simp only [insert, Host.enlist, Notifier.register, hk, Notifier.onHost, Connections.onHost, helapse]
    exact .inl ⟨_, rfl, rfl, trivial⟩
  | some word =>
    have hclosing := (c.host.unmet_watch d word idleInterest).others.trans hothers
    cases hr : (c.host.watch d word idleInterest).2 with
    | ok _ =>
      simp only [insert, Host.enlist, Notifier.register, hk, helapse, hr]
      exact .inr ⟨trivial, trivial, trivial⟩
    | error code =>
      simp only [insert, Host.enlist, Notifier.register, hk, helapse, hr, Notifier.onHost, Connections.onHost,
        Host.elapse_eq hclosing]
      exact .inl ⟨_, rfl, rfl, trivial⟩

end Connections

/-! ## Servers in another order -/

theorem Nonblocking.accept_eq {h : Host} (hothers : h.others = []) (l : Descriptor) : accept h l = h.acquire l := by
  have hothers' := (h.unmet_accept l).others.trans hothers
  simp only [accept, Host.acquire, Host.confirm, Host.elapse_eq hothers]
  cases (h.accept l).2 with
  | error code => rfl
  | ok taken =>
    have hothers'' := ((h.accept l).1.unmet_unblock taken.1).others.trans hothers'
    dsimp only
    rw [Host.elapse_eq hothers', Host.elapse_eq hothers'']
    cases ((h.accept l).1.unblock taken.1).2 with
    | error code => rfl
    | ok _ => rfl

namespace Server

variable {X : Type} {s s' s'' : Server X} {fixed : List Watch} {key : Nat} {conn : Connection Handle} {r : Readiness}

/-- the server with other records, another host and other tasks -/
def rebuilt (s : Server X) (slots : Slots (Connection Handle)) (host : Host)
    (tasks : Tasks Nat (ConnectionTask X)) : Server X :=
  { s with
    connections := { s.connections with slots, notifier := { s.connections.notifier with host } }
    engine := { s.engine with tasks } }

/-- the server with another host and other tasks -/
def refitted (s : Server X) (host : Host) (tasks : Tasks Nat (ConnectionTask X)) : Server X :=
  s.rebuilt s.connections.slots host tasks

/-- two servers that differ at most in the order of what is queued -/
def Twin (s s' : Server X) : Prop :=
  ∃ host tasks, s' = s.refitted host tasks ∧ Host.Twin s.host host ∧ s.engine.tasks.Twin tasks

theorem Twin.refl (s : Server X) : s.Twin s := ⟨s.host, s.engine.tasks, rfl, .refl _, .refl _⟩

theorem Twin.symm (ha : s.Twin s') : s'.Twin s := by
  obtain ⟨host, tasks, rfl, hhost, htasks⟩ := ha
  exact ⟨s.host, s.engine.tasks, rfl, hhost.symm, htasks.symm⟩

theorem Twin.trans (ha : s.Twin s') (ha' : s'.Twin s'') : s.Twin s'' := by
  obtain ⟨host, tasks, rfl, hhost, htasks⟩ := ha
  obtain ⟨host', tasks', rfl, hhost', htasks'⟩ := ha'
  exact ⟨host', tasks', rfl, hhost.trans hhost', htasks.trans htasks'⟩

theorem Twin.onHost (ha : s.Twin s') {h h' : Host} (ht : Host.Twin h h') :
    (s.onHost fun _ => h).Twin (s'.onHost fun _ => h') := by
  obtain ⟨host, tasks, rfl, -, htasks⟩ := ha
  exact ⟨h', tasks, rfl, ht, htasks⟩

/-- a connection is live, has a word, is the far end of a stream and is watched -/
structure Stands (s : Server X) (key : Nat) (conn : Connection Handle) : Prop where
  live : s.connections.get? key = some conn
  word : Token.base + key < UInt64.size
  far : ∃ i, s.host.device? conn.descriptor = some (.stream i .far)
  watched : (s.host.watch? conn.descriptor).isSome

theorem Mustered.stands (hm : s.Mustered fixed) (hg : s.connections.get? key = some conn) : s.Stands key conn := by
  obtain ⟨batch, hc⟩ := hm.table
  exact ⟨hg, hc.words hg, hc.far hg, Option.isSome_iff_exists.2 ⟨_, hc.watch?_eq hg⟩⟩

theorem Stands.watchable (hs : s.Stands key conn) : s.host.watchable conn.descriptor = .ok () := by
  obtain ⟨i, hd⟩ := hs.far
  rw [Host.watchable, hd]

/-- what a report on a live connection does when nobody else acts -/
theorem resume_eq (hothers : s.host.others = []) (hs : s.Stands key conn) (r : Readiness) :
    (s.resume key r).server =
        s.rebuilt (s.connections.slots.set key (conn.heard r (s.host.grants conn.descriptor)))
          (s.host.heed key conn r) ((conn.roused r).foldl Tasks.wake s.engine.tasks) ∧
      (s.resume key r).course = (conn.roused r).map .woken := by
  obtain ⟨hstate, hvalue⟩ := Connections.fire_eq (c := s.connections) hothers hs.live hs.word hs.watchable hs.watched r
  simp only [resume, hstate, hvalue, foldl_wake]
  exact ⟨rfl, trivial⟩

/-- nobody is parked in a slot that has no connection -/
theorem vacant_of_none (hg : s.connections.get? key = none) :
    ∀ conn, s.connections.get? key = some conn → conn.Vacant := fun conn hc => by
  rw [hg] at hc
  cases hc

/-- a report on a slot where nobody is parked does nothing -/
theorem resume_vacant (hv : ∀ conn, s.connections.get? key = some conn → conn.Vacant) (r : Readiness) :
    (s.resume key r).server = s ∧ (s.resume key r).course = [] := by
  obtain ⟨hstate, hvalue⟩ := Connections.fire_vacant hv r
  simp only [resume, hstate, hvalue]
  exact ⟨rfl, rfl⟩

/-- what taking a connection in does when nobody else acts -/
theorem welcome_eq (hothers : s.host.others = []) (d : Descriptor) (peer : Address) :
    (∃ fault, (s.host.enlist s.connections.slots.nextKey d).2 = .error fault ∧
        (s.welcome d peer).server = s.onHost (fun _ => (s.host.enlist s.connections.slots.nextKey d).1) ∧
        (s.welcome d peer).course = []) ∨
      (s.host.enlist s.connections.slots.nextKey d).2 = .ok () ∧
        (s.welcome d peer).server =
          { s with
            connections :=
              { s.connections with
                slots := s.connections.slots.insert { descriptor := d, peer }
                notifier :=
                  { s.connections.notifier with
                    host := (s.host.enlist s.connections.slots.nextKey d).1
                    registrations := s.connections.notifier.registrations + 1 } }
            engine := (s.engine.serve s.connections.slots.nextKey peer).state } ∧
        (s.welcome d peer).course = [.pushed (s.engine.serve s.connections.slots.nextKey peer).value] := by
  rcases Connections.insert_eq (c := s.connections) hothers d peer with
    ⟨fault, henlist, hvalue, hstate⟩ | ⟨henlist, hvalue, hstate⟩
  · refine .inl ⟨fault, henlist, ?_⟩
    simp only [welcome, hvalue, hstate]
    exact ⟨rfl, trivial⟩
  · refine .inr ⟨henlist, ?_⟩
    simp only [welcome, hvalue, hstate]
    exact ⟨rfl, trivial⟩

/-! ## Nobody acts -/

theorem others_resume (hm : s.Mustered fixed) (hothers : s.host.others = []) (key : Nat) (r : Readiness) :
    (s.resume key r).server.host.others = s.host.others := by
  cases hg : s.connections.get? key with
  | none => rw [(resume_vacant (vacant_of_none hg) r).1]
  | some conn =>
    have hhost : (s.resume key r).server.host = s.host.heed key conn r :=
      congrArg host (resume_eq hothers (hm.stands hg) r).1
    rw [hhost, Host.heed]
    split
    · exact (s.host.met_rewatch ..).1
    · rfl

theorem welcome_host (hothers : s.host.others = []) (d : Descriptor) (peer : Address) :
    (s.welcome d peer).server.host = (s.host.enlist s.connections.slots.nextKey d).1 := by
  rcases welcome_eq hothers d peer with ⟨-, -, hs, -⟩ | ⟨-, hs, -⟩
  · rw [hs]
    rfl
  · rw [hs]
    rfl

/-- taking a connection in meets nothing of what changes of a watch will meet -/
theorem unmet_welcome (hothers : s.host.others = []) {d : Descriptor} {i : Nat}
    (hd : s.host.device? d = some (.stream i .far)) (peer : Address) :
    Host.Unmet s.host (s.welcome d peer).server.host := by
  rw [welcome_host hothers]
  exact Host.unmet_enlist hd _

/-- what comes of accepting once: nothing more, or a connection to take in -/
theorem acceptUpTo_cases (hm : s.Mustered fixed) (hothers : s.host.others = []) (limit : Nat) :
    let s' := s.onHost fun _ => (s.host.acquire s.listener).1
    s'.Mustered fixed ∧ Host.Unmet s.host s'.host ∧
      ((∀ accepted, (s.host.acquire s.listener).2 ≠ .done accepted) ∧ (s.acceptUpTo (limit + 1)).server = s' ∧
          (s.acceptUpTo (limit + 1)).course = [] ∨
        ∃ d peer i, (s.host.acquire s.listener).2 = .done (d, peer) ∧ s'.host.device? d = some (.stream i .far) ∧
          s'.host.watch? d = none ∧ (s'.welcome d peer).server.Mustered fixed ∧
          (s.acceptUpTo (limit + 1)).server = ((s'.welcome d peer).server.acceptUpTo limit).server ∧
          (s.acceptUpTo (limit + 1)).course =
            (s'.welcome d peer).course ++ ((s'.welcome d peer).server.acceptUpTo limit).course) := by
  have haccept := Nonblocking.accept_eq hothers s.listener
  obtain ⟨-, hnew⟩ := Nonblocking.accept_spec hm.sound s.listener
  have hmustered := hm.accepted
  rw [haccept] at hnew hmustered
  refine ⟨hmustered, s.host.unmet_acquire s.listener, ?_⟩
  cases hr : (s.host.acquire s.listener).2 with
  | wouldBlock =>
    refine .inl ⟨by simp, ?_⟩
    simp only [acceptUpTo, haccept, hr]
    exact ⟨trivial, trivial⟩
  | failed fault =>
    refine .inl ⟨by simp, ?_⟩
    simp only [acceptUpTo, haccept, hr]
    exact ⟨trivial, trivial⟩
  | done accepted =>
    obtain ⟨d, peer⟩ := accepted
    obtain ⟨⟨i, hd⟩, hw⟩ := hnew hr
    refine .inr ⟨d, peer, i, rfl, hd, hw, hmustered.welcome hd hw peer, ?_⟩
    simp only [acceptUpTo, haccept, hr]
    exact ⟨trivial, trivial⟩

/-- accepting meets nothing of what changes of a watch will meet -/
theorem unmet_acceptUpTo (hm : s.Mustered fixed) (hothers : s.host.others = []) (limit : Nat) :
    Host.Unmet s.host (s.acceptUpTo limit).server.host := by
  induction limit generalizing s with
  | zero => exact ⟨rfl, rfl⟩
  | succ limit ih =>
    obtain ⟨hm', hu, ⟨-, hs, -⟩ | ⟨d, peer, i, -, hd, -, hwelcomed, hs, -⟩⟩ := acceptUpTo_cases hm hothers limit
    · rw [hs]
      exact hu
    · have hothers' := hu.others.trans hothers
      have hwelcome := unmet_welcome hothers' hd peer
      rw [hs]
      exact (hu.trans hwelcome).trans (ih hwelcomed (hwelcome.others.trans hothers'))

theorem goes_handle (hm : s.Mustered fixed) (hothers : s.host.others = []) (hr : r.token ≠ .signals) :
    (s.handle r).1.server.host.others = s.host.others ∧ (s.handle r).2 = none := by
  unfold handle
  cases ht : r.token with
  | listener => exact ⟨(unmet_acceptUpTo hm hothers (s.host.callers s.listener + 1)).others, rfl⟩
  | signals => exact absurd ht hr
  | connection key => exact ⟨others_resume hm hothers key r, rfl⟩

/-- a batch is dealt with report by report -/
theorem dispatch_cons (hm : s.Mustered fixed) (hothers : s.host.others = []) (hr : r.token ≠ .signals)
    (rest : List Readiness) :
    (s.dispatch (r :: rest)).1.server = ((s.handle r).1.server.dispatch rest).1.server ∧
      (s.dispatch (r :: rest)).1.course = (s.handle r).1.course ++ ((s.handle r).1.server.dispatch rest).1.course ∧
      (s.dispatch (r :: rest)).2 = ((s.handle r).1.server.dispatch rest).2 := by
  have hgoes := (goes_handle hm hothers hr).2
  rw [dispatch]
  dsimp only
  rw [hgoes]
  exact ⟨rfl, rfl, rfl⟩

/-! ## Steps of twins -/

/-- a report does the same to twins -/
theorem Twin.resume (ha : s.Twin s') (hm : s.Mustered fixed) (hm' : s'.Mustered fixed) (hothers : s.host.others = [])
    (key : Nat) (r : Readiness) :
    (s.resume key r).server.Twin (s'.resume key r).server ∧ (s'.resume key r).course = (s.resume key r).course := by
  obtain ⟨host, tasks, rfl, hhost, htasks⟩ := ha
  cases hg : s.connections.get? key with
  | none =>
    obtain ⟨hs, hc⟩ := resume_vacant (vacant_of_none hg) r
    obtain ⟨hs', hc'⟩ := resume_vacant (s := s.refitted host tasks) (vacant_of_none hg) r
    rw [hs, hs', hc, hc']
    exact ⟨⟨host, tasks, rfl, hhost, htasks⟩, rfl⟩
  | some conn =>
    have hstands := hm.stands hg
    obtain ⟨hs, hc⟩ := resume_eq hothers hstands r
    obtain ⟨hs', hc'⟩ := resume_eq (s := s.refitted host tasks) (hhost.others.trans hothers) (hm'.stands hg) r
    have hgrants : (s.refitted host tasks).host.grants conn.descriptor = s.host.grants conn.descriptor :=
      hhost.part (Host.grants · conn.descriptor) fun _ _ => rfl
    have hheed : Host.Twin (s.host.heed key conn r) (host.heed key conn r) := by
      unfold Host.heed
      split
      · exact ((Host.blind_rewatch hstands.watchable hstands.watched _ _).twin hhost).1
      · exact hhost
    refine ⟨?_, hc'.trans hc.symm⟩
    rw [hs, hs', hgrants]
    exact ⟨_, _, rfl, hheed, htasks.wakes _⟩

/-- so does taking a connection in -/
theorem Twin.welcome (ha : s.Twin s') (hothers : s.host.others = []) {d : Descriptor} {i : Nat}
    (hd : s.host.device? d = some (.stream i .far)) (peer : Address) :
    (s.welcome d peer).server.Twin (s'.welcome d peer).server ∧
      (s'.welcome d peer).course = (s.welcome d peer).course := by
  obtain ⟨host, tasks, rfl, hhost, htasks⟩ := ha
  obtain ⟨gone, -, hblind⟩ := Host.blind_enlist hd s.connections.slots.nextKey
  obtain ⟨henlist, hvalue⟩ := hblind.twin hhost
  have hothers' : (s.refitted host tasks).host.others = [] := hhost.others.trans hothers
  rcases welcome_eq hothers d peer with ⟨fault, hr, hs, hc⟩ | ⟨hr, hs, hc⟩
  · rcases welcome_eq hothers' d peer with ⟨-, -, hs', hc'⟩ | ⟨hr', -⟩
    · rw [hs, hs', hc, hc']
      exact ⟨⟨_, tasks, rfl, henlist, htasks⟩, rfl⟩
    · have hcontra := (hvalue.trans hr).symm.trans hr'
      cases hcontra
  · rcases welcome_eq hothers' d peer with ⟨fault, hr', -⟩ | ⟨-, hs', hc'⟩
    · have hcontra := (hvalue.trans hr).symm.trans hr'
      cases hcontra
    · obtain ⟨hpush, hvalue⟩ := htasks.push (⟨⟨s.connections.slots.nextKey, peer⟩, s.engine.protocol.start⟩ :
        ConnectionTask X) (some s.connections.slots.nextKey)
      rw [hs, hs', hc, hc']
      exact ⟨⟨_, _, rfl, henlist, hpush⟩, congrArg (fun h => [Happening.pushed h]) hvalue⟩

/-- so does accepting -/
theorem Twin.acceptUpTo (ha : s.Twin s') (hm : s.Mustered fixed) (hm' : s'.Mustered fixed)
    (hothers : s.host.others = []) (limit : Nat) :
    (s.acceptUpTo limit).server.Twin (s'.acceptUpTo limit).server ∧
      (s'.acceptUpTo limit).course = (s.acceptUpTo limit).course := by
  induction limit generalizing s s' with
  | zero => exact ⟨ha, rfl⟩
  | succ limit ih =>
    have hhost : Host.Twin s.host s'.host := by
      obtain ⟨host, tasks, rfl, hhost, -⟩ := ha
      exact hhost
    have hlistener : s'.listener = s.listener := by
      obtain ⟨host, tasks, rfl, -, -⟩ := ha
      rfl
    have hothers' : s'.host.others = [] := hhost.others.trans hothers
    obtain ⟨haccept, hvalue⟩ := hhost.acquire s.listener
    rw [← hlistener] at haccept hvalue
    have htwin := ha.onHost haccept
    rw [hlistener] at haccept hvalue htwin
    obtain ⟨hm₁, hu, hcases⟩ := acceptUpTo_cases hm hothers limit
    obtain ⟨hm₁', hu', hcases'⟩ := acceptUpTo_cases hm' hothers' limit
    rw [hlistener] at hcases' hm₁' hu'
    rcases hcases with ⟨hnone, hs, hc⟩ | ⟨d, peer, i, hr, hd, -, hwelcomed, hs, hc⟩
    · rcases hcases' with ⟨-, hs', hc'⟩ | ⟨d', peer', i', hr', -⟩
      · rw [hs, hs', hc, hc']
        exact ⟨htwin, rfl⟩
      · exact absurd (hvalue.symm.trans hr') (hnone _)
    · rcases hcases' with ⟨hnone, -⟩ | ⟨d', peer', i', hr', -, -, hwelcomed', hs', hc'⟩
      · exact absurd (hvalue.trans hr) (hnone _)
      · have hsame := (hvalue.trans hr).symm.trans hr'
        cases hsame
        have hothers₁ := hu.others.trans hothers
        obtain ⟨hwelcome, hcourse⟩ := htwin.welcome hothers₁ hd peer
        have hothers₂ := (unmet_welcome hothers₁ hd peer).others.trans hothers₁
        obtain ⟨hrest, hcourses⟩ := ih hwelcome hwelcomed hwelcomed' hothers₂
        rw [hs, hs', hc, hc', hcourse, hcourses]
        exact ⟨hrest, rfl⟩

theorem Twin.handle (ha : s.Twin s') (hm : s.Mustered fixed) (hm' : s'.Mustered fixed)
    (hothers : s.host.others = []) (hr : r.token ≠ .signals) :
    (s.handle r).1.server.Twin (s'.handle r).1.server ∧ (s'.handle r).1.course = (s.handle r).1.course := by
  unfold Server.handle
  cases ht : r.token with
  | listener =>
    have hcallers : s'.host.callers s'.listener = s.host.callers s.listener := by
      obtain ⟨host, tasks, rfl, hhost, -⟩ := ha
      exact hhost.part (fun h => h.callers s.listener) fun _ _ => rfl
    simp only [acceptAll, hcallers]
    exact ha.acceptUpTo hm hm' hothers _
  | signals => exact absurd ht hr
  | connection key => exact ha.resume hm hm' hothers key r

/-- a batch does the same to twins -/
theorem Twin.dispatch (ha : s.Twin s') (hm : s.Mustered fixed) (hm' : s'.Mustered fixed)
    (hothers : s.host.others = []) {batch : List Readiness} (hcalm : ∀ r ∈ batch, r.token ≠ .signals) :
    (s.dispatch batch).1.server.Twin (s'.dispatch batch).1.server ∧
      (s'.dispatch batch).1.course = (s.dispatch batch).1.course := by
  induction batch generalizing s s' with
  | nil => exact ⟨ha, rfl⟩
  | cons r rest ih =>
    have hr := hcalm r List.mem_cons_self
    have hothers' : s'.host.others = [] := by
      obtain ⟨host, tasks, rfl, hhost, -⟩ := ha
      exact hhost.others.trans hothers
    obtain ⟨hhandle, hcourse⟩ := ha.handle hm hm' hothers hr
    have hothers₁ := (goes_handle hm hothers hr).1.trans hothers
    obtain ⟨hrest, hcourses⟩ := ih hhandle (hm.handle r) (hm'.handle r) hothers₁ fun r' hmem =>
      hcalm r' (List.mem_cons_of_mem _ hmem)
    obtain ⟨hs, hc, -⟩ := dispatch_cons hm hothers hr rest
    obtain ⟨hs', hc', -⟩ := dispatch_cons hm' hothers' hr rest
    rw [hs, hs', hc, hc', hcourse, hcourses]
    exact ⟨hrest, rfl⟩

end Server

end EventServer
