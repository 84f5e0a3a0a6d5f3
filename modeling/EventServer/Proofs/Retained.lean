/-
What an operation on one connection leaves of the table: every slot keeps its connection, and a handle that is parked
afterwards was parked before or is the one that the operation was given (`Touched`). Only taking in and taking out
change which slots are in use.
-/
import EventServer.Proofs.Operations

namespace EventServer

variable {H : Type}

/-- the handles that are parked on a connection -/
def Connection.handles (conn : Connection H) : List H := conn.read.handle.toList ++ conn.write.handle.toList

namespace Connections

/-- the slots in use, in order -/
def keys (c : Connections H) : List Nat := c.slots.toList.map (·.1)

/-- all parked handles are of a kind -/
def Handles (P : H → Prop) (c : Connections H) : Prop :=
  ∀ key conn, c.get? key = some conn → ∀ handle ∈ conn.handles, P handle

/-- no connection changed but one maybe, and that one only in its marks and in what is parked there -/
structure Touched (P : H → Prop) (c c' : Connections H) : Prop where
  keys : c'.keys = c.keys
  conns : ∀ {key conn}, c.get? key = some conn → ∃ conn', c'.get? key = some conn' ∧
    conn'.descriptor = conn.descriptor ∧ conn'.peer = conn.peer
  handles : c.Handles P → c'.Handles P

variable {P : H → Prop} {c c' c'' : Connections H} {key : Nat} {conn old : Connection H}

theorem Touched.trans (h : c.Touched P c') (h' : c'.Touched P c'') : c.Touched P c'' where
  keys := h'.keys.trans h.keys
  conns hg := by
    obtain ⟨conn', hg', hd', hp'⟩ := h.conns hg
    obtain ⟨conn'', hg'', hd'', hp''⟩ := h'.conns hg'
    exact ⟨conn'', hg'', hd''.trans hd', hp''.trans hp'⟩
  handles := h'.handles ∘ h.handles

theorem touched_of_slots (hs : c'.slots = c.slots) : c.Touched P c' where
  keys := by simp [Connections.keys, hs]
  conns hg := ⟨_, by simpa [get?, hs] using hg, rfl, rfl⟩
  handles hh _ _ hg := hh _ _ (by simpa [get?, hs] using hg)

/-- a connection is replaced by one of the same descriptor and peer -/
theorem touched_of_set (conn : Connection H) (hg : c.get? key = some old) (hs : c'.slots = c.slots.set key conn)
    (hd : conn.descriptor = old.descriptor) (hp : conn.peer = old.peer)
    (hh : ∀ handle ∈ conn.handles, handle ∈ old.handles ∨ P handle) : c.Touched P c' := by
  have hget : ∀ k, c'.get? k = if k = key then some conn else c.get? k := fun k => by
    rw [get?, hs]
    exact Slots.get?_set hg conn k
  obtain ⟨pre, post, hlist, hset⟩ := put_focus hg
  refine ⟨?_, fun {k x} hx => ?_, fun hold k x hx => ?_⟩
  · rw [Connections.keys, Connections.keys, hs, show (c.slots.set key conn).toList = _ from hset conn, hlist]
    simp
  · by_cases he : k = key
    · subst he
      rw [hg] at hx
      cases hx
      exact ⟨conn, by rw [hget, if_pos rfl], hd, hp⟩
    · exact ⟨x, by rw [hget, if_neg he, hx], rfl, rfl⟩
  · rw [hget] at hx
    split at hx
    · cases hx
      exact fun handle hm => (hh handle hm).elim (hold _ _ hg handle) id
    · exact hold _ _ hx

/-- whether room to write is watched is all that changing the watch may change -/
theorem rearm_slots (c : Connections H) (key : Nat) (conn : Connection H) (armed : Bool) :
    ∃ marked, (c.rearm key conn armed).state.slots = c.slots.set key { conn with armed := marked } := by
  unfold rearm
  dsimp only
  split
  · exact ⟨armed, rfl⟩
  · exact ⟨conn.armed, rfl⟩

/-- what an operation on one connection makes of the slots: they are as they were, or the connection is replaced by one
of the same descriptor and peer, where nothing is parked but what was so before or is of a kind -/
def Amends (P : H → Prop) (key : Nat) (c c' : Connections H) : Prop :=
  c'.slots = c.slots ∨ ∃ old conn, c.get? key = some old ∧ c'.slots = c.slots.set key conn ∧
    conn.descriptor = old.descriptor ∧ conn.peer = old.peer ∧
    ∀ handle ∈ conn.handles, handle ∈ old.handles ∨ P handle

theorem Amends.slots (ha : Amends P key c c') :
    c'.slots = c.slots ∨ ∃ conn, c'.slots = c.slots.set key conn :=
  ha.imp_right fun ⟨_, conn, _, hs, _⟩ => ⟨conn, hs⟩

theorem Amends.touched (ha : Amends P key c c') {Q : H → Prop} (hq : ∀ handle, P handle → Q handle) :
    c.Touched Q c' := by
  rcases ha with hs | ⟨old, conn, hg, hs, hd, hp, hh⟩
  · exact touched_of_slots hs
  · exact touched_of_set conn hg hs hd hp fun handle hm => (hh handle hm).imp_right (hq handle)

theorem amends_recv (c : Connections H) (key : Nat) (handle : H) (count : Nat) :
    Amends (· = handle) key c (c.recv key handle count).state := by
  unfold recv
  cases hg : c.get? key with
  | none => exact .inl rfl
  | some conn =>
    dsimp only
    split
    · exact .inl rfl
    · exact .inl rfl
    · refine .inr ⟨conn, _, hg, rfl, rfl, rfl, fun x hm => ?_⟩
      rcases List.mem_append.1 hm with hm | hm
      · exact .inr (by simpa [ParkingSlot.store] using hm)
      · exact .inl (List.mem_append_right _ hm)

theorem amends_send (c : Connections H) (key : Nat) (handle : H) (bytes : Bytes) :
    Amends (· = handle) key c (c.send key handle bytes).state := by
  unfold send
  cases hg : c.get? key with
  | none => exact .inl rfl
  | some conn =>
    dsimp only
    split
    · exact .inl rfl
    · exact .inl rfl
    · have hstored : ∀ x ∈ conn.read.handle.toList ++ (conn.write.store handle).1.handle.toList,
          x ∈ conn.handles ∨ x = handle := fun x hm => by
        rcases List.mem_append.1 hm with hm | hm
        · exact .inl (List.mem_append_left _ hm)
        · exact .inr (by simpa [ParkingSlot.store] using hm)
      dsimp only
      split
      · let sent := Nonblocking.send c.notifier.host conn.descriptor bytes
        let parked : Connection H := { conn with write := (conn.write.store handle).1 }
        obtain ⟨marked, hs⟩ := rearm_slots (c.onHost fun _ => sent.1) key parked true
        exact .inr ⟨conn, _, hg, hs, rfl, rfl, hstored⟩
      · exact .inr ⟨conn, _, hg, rfl, rfl, rfl, hstored⟩

theorem touched_recv (c : Connections H) (key : Nat) {handle : H} (hh : P handle) (count : Nat) :
    c.Touched P (c.recv key handle count).state :=
  (c.amends_recv key handle count).touched fun _ he => he ▸ hh

theorem touched_send (c : Connections H) (key : Nat) {handle : H} (hh : P handle) (bytes : Bytes) :
    c.Touched P (c.send key handle bytes).state :=
  (c.amends_send key handle bytes).touched fun _ he => he ▸ hh

theorem shutdown_slots (c : Connections H) (key : Nat) : (c.shutdown key).1.slots = c.slots := by
  unfold shutdown
  split <;> rfl

theorem touched_shutdown (c : Connections H) (key : Nat) : c.Touched P (c.shutdown key).1 :=
  touched_of_slots (c.shutdown_slots key)

theorem mem_wake {slot : ParkingSlot H} {resumes : Bool} {handle : H} :
    (handle ∈ (if resumes then slot.wake else (slot, none)).1.handle.toList → handle ∈ slot.handle.toList) ∧
      (handle ∈ (if resumes then slot.wake else (slot, none)).2.toList → handle ∈ slot.handle.toList) := by
  cases resumes <;> simp [ParkingSlot.wake, ParkingSlot.empty]

theorem amends_fire (c : Connections H) (key : Nat) (r : Readiness) :
    Amends (fun _ => False) key c (c.fire key r).state := by
  unfold fire
  cases hg : c.get? key with
  | none => exact .inl rfl
  | some conn =>
    have hstay : ∀ x ∈ (conn.resumed r).handles, x ∈ conn.handles ∨ False := fun x hm => by
      rcases List.mem_append.1 hm with hm | hm
      · exact .inl (List.mem_append_left _ (mem_wake.1 hm))
      · exact .inl (List.mem_append_right _ (mem_wake.1 hm))
    dsimp only
    split
    · obtain ⟨marked, hs⟩ := rearm_slots c key (conn.resumed r) false
      exact .inr ⟨conn, _, hg, hs, rfl, rfl, hstay⟩
    · exact .inr ⟨conn, conn.resumed r, hg, rfl, rfl, rfl, hstay⟩

/-- what a report resumes was parked on the connection that it is about -/
theorem mem_fire {c : Connections H} {key : Nat} {r : Readiness} {handle : H} (hm : handle ∈ (c.fire key r).value) :
    ∃ conn, c.get? key = some conn ∧ handle ∈ conn.handles := by
  unfold fire at hm
  cases hg : c.get? key with
  | none =>
    rw [hg] at hm
    cases hm
  | some conn =>
    rw [hg] at hm
    refine ⟨conn, rfl, ?_⟩
    rcases List.mem_append.1 hm with hm | hm
    · exact List.mem_append_left _ (mem_wake.2 hm)
    · exact List.mem_append_right _ (mem_wake.2 hm)

/-- what a report resumes was parked, and stays parked nowhere else -/
theorem touched_fire (c : Connections H) (key : Nat) (r : Readiness) :
    c.Touched P (c.fire key r).state ∧ (c.Handles P → ∀ handle ∈ (c.fire key r).value, P handle) := by
  refine ⟨(c.amends_fire key r).touched fun _ => False.elim, fun hh handle hm => ?_⟩
  obtain ⟨conn, hg, hm⟩ := mem_fire hm
  exact hh key conn hg handle hm

/-- taking a connection out leaves the others as they are -/
theorem remove_slots (c : Connections H) (key : Nat) : (c.remove key).state.slots = c.slots.erase key := by
  unfold remove Slots.erase
  cases hg : c.get? key with
  | none => simp [show c.slots.get? key = none from hg]
  | some conn => rfl

/-- taking a connection in parks nothing -/
theorem handles_insert (hh : c.Handles P) (ht : c.slots.Tidy) (d : Descriptor) (peer : Address) :
    (c.insert d peer).state.Handles P := by
  rcases insert_slots c d peer with ⟨-, -, hs⟩ | ⟨-, hs⟩
  · intro k x hx
    exact hh k x (by simpa [get?, hs] using hx)
  · intro k x hx handle hm
    rw [get?, hs, Slots.get?_insert ht] at hx
    split at hx
    · cases hx
      cases hm
    · exact hh k x hx handle hm

/-! ## Staying -/

/-- every connection is in its slot still, on the same descriptor, and that is the same end of the same stream -/
structure Stays (c c' : Connections H) : Prop where
  conns : ∀ {key conn}, c.get? key = some conn → ∃ conn', c'.get? key = some conn' ∧
    conn'.descriptor = conn.descriptor ∧ conn'.peer = conn.peer
  ends : ∀ {key conn id}, c.get? key = some conn → c.host.device? conn.descriptor = some (.stream id .far) →
    c'.host.device? conn.descriptor = some (.stream id .far)

theorem Stays.refl (c : Connections H) : c.Stays c := ⟨fun hg => ⟨_, hg, rfl, rfl⟩, fun _ hd => hd⟩

theorem Stays.trans (h : c.Stays c') (h' : c'.Stays c'') : c.Stays c'' where
  conns hg := by
    obtain ⟨conn', hg', hd', hp'⟩ := h.conns hg
    obtain ⟨conn'', hg'', hd'', hp''⟩ := h'.conns hg'
    exact ⟨conn'', hg'', hd''.trans hd', hp''.trans hp'⟩
  ends hg hd := by
    obtain ⟨conn', hg', hd', -⟩ := h.conns hg
    exact hd' ▸ h'.ends hg' (hd' ▸ h.ends hg hd)

theorem stays_onHost {h : Host} (hu : Host.Undisturbed c.host h) : c.Stays (c.onHost fun _ => h) :=
  ⟨fun hg => ⟨_, hg, rfl, rfl⟩, fun _ hd => (hu.calm (by simp) hd).device.trans hd⟩

theorem stays_fire {fixed : List Watch} {batch : List Readiness} (hc : c.Sound fixed batch) (key : Nat)
    (r : Readiness) : c.Stays (c.fire key r).state := by
  refine ⟨fun hg => (c.touched_fire (P := fun _ => True) key r).1.conns hg, fun {k x id} hx hd => ?_⟩
  unfold fire
  cases hg : c.get? key with
  | none => exact hd
  | some conn =>
    dsimp only
    split
    · have hw := hc.watch?_eq hg
      exact rearm_far (conn.resumed r) hc.host hw (hc.words hg) false hd
    · exact hd

theorem stays_insert {fixed : List Watch} {batch : List Readiness} (hc : c.Sound fixed batch) {d : Descriptor}
    {id : Nat} (hd : c.host.device? d = some (.stream id .far)) (hw : c.host.watch? d = none) (peer : Address) :
    c.Stays (c.insert d peer).state := by
  rcases insert_cases hc.host hd hw peer with ⟨-, h, hsp, -, -, hstate⟩ | ⟨h, -, hsp, -, -, -, hstate⟩
  · rw [hstate]
    exact ⟨fun hg => ⟨_, hg, rfl, rfl⟩, fun hg hd => (hc.calm hw hsp hg).device.trans hd⟩
  · rw [hstate]
    refine ⟨fun {k x} hx => ⟨x, ?_, rfl, rfl⟩, fun hg hd => (hc.calm hw hsp hg).device.trans hd⟩
    have hne : k ≠ c.slots.nextKey := fun he => by
      rw [he, get?, Slots.get?_nextKey hc.tidy] at hx
      cases hx
    rw [get?, Slots.get?_insert hc.tidy, if_neg hne]
    exact hx

theorem stays_wait {fixed : List Watch} {batch : List Readiness} (hc : c.Sound fixed batch) (events : Events) :
    c.Stays { c with notifier := (c.notifier.wait events).state } := by
  obtain ⟨⟨interruptions, hstate⟩, -⟩ := c.notifier.wait_spec events
  rw [hstate]
  exact ⟨fun hg => ⟨_, hg, rfl, rfl⟩,
    fun _ hd => ((Host.undisturbed_elapse hc.host).calm (by simp) hd).device.trans hd⟩

end Connections

end EventServer
