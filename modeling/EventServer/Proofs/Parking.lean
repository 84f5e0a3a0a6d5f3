/-
What is parked, and what is watched with it. A call parks its handle exactly if it would have to wait (`recv_cases`,
`send_cases`), and a report takes out what is parked in the directions that it resumes (`fire_cases`); these three say
all that the operations do to the slots.

Room to write is watched exactly while a write is parked, as long as the kernel refuses no change of a watch
(`armed_iff_parked`). The two facts change in different places: a write that would have to wait parks its handle and
then has the watch changed, a report takes the handle out and then has the watch changed back, and a write that goes
through changes neither, so that an older handle may be parked still. A refused change leaves the mark as it was and
says so in the journal (`rearm_cases_notes`); the host is free to do anything else.
-/
import EventServer.Proofs.Registration

namespace EventServer

/-- whether a note is that a change of a watch was refused -/
def Note.isRefusal : Note → Bool
  | armFailed .. | disarmFailed .. => true
  | _ => false

namespace Connections

variable {H : Type} {c : Connections H} {key : Nat} {conn old : Connection H}

/-! ## What the operations do to the slots -/

/-- the mark is set, or the kernel refuses the change and the journal says so -/
theorem rearm_cases_notes (c : Connections H) (key : Nat) (conn : Connection H) (armed : Bool) :
    (∃ fault, (c.notifier.reregister conn.descriptor (.connection key)
          (if armed then writingInterest else idleInterest)).value = .error fault) ∧
        (c.rearm key conn armed).state.slots = c.slots.set key conn ∧
        (∃ note ∈ (c.rearm key conn armed).notes, note.isRefusal = true) ∨
      (c.notifier.reregister conn.descriptor (.connection key)
          (if armed then writingInterest else idleInterest)).value = .ok () ∧
        (c.rearm key conn armed).state.slots = c.slots.set key { conn with armed } := by
  cases hvalue : (c.notifier.reregister conn.descriptor (.connection key)
      (if armed then writingInterest else idleInterest)).value with
  | ok done =>
    simp only [rearm, hvalue]
    exact .inr ⟨trivial, rfl⟩
  | error fault =>
    simp only [rearm, hvalue]
    refine .inl ⟨⟨fault, rfl⟩, rfl, _, List.mem_append_right _ (List.mem_singleton_self _), ?_⟩
    cases armed <;> rfl

/-- a read leaves the slots as they are, or it would have to wait and parks its handle -/
theorem recv_cases (c : Connections H) (key : Nat) (handle : H) (count : Nat) :
    (c.recv key handle count).value ≠ .pending ∧ (c.recv key handle count).state.slots = c.slots ∨
      ∃ conn, c.get? key = some conn ∧ (c.recv key handle count).value = .pending ∧
        (c.recv key handle count).state.slots = c.slots.set key { conn with read := ⟨some handle⟩ } := by
  unfold recv
  cases hg : c.get? key with
  | none => exact .inl ⟨by simp, rfl⟩
  | some conn =>
    dsimp only
    split
    · exact .inl ⟨by simp, rfl⟩
    · exact .inl ⟨by simp, rfl⟩
    · exact .inr ⟨conn, rfl, rfl, rfl⟩

/-- a write leaves the slots as they are, or it would have to wait and parks its handle; then the connection is marked
if it is to be and was not, unless that is refused -/
theorem send_cases (c : Connections H) (key : Nat) (handle : H) (bytes : Bytes) :
    (c.send key handle bytes).value ≠ .pending ∧ (c.send key handle bytes).state.slots = c.slots ∨
      ∃ conn armed, c.get? key = some conn ∧ (c.send key handle bytes).value = .pending ∧
        (c.send key handle bytes).state.slots = c.slots.set key { conn with write := ⟨some handle⟩, armed } ∧
        (armed = (c.armWrites || conn.armed) ∨
          armed = conn.armed ∧ ∃ note ∈ (c.send key handle bytes).notes, note.isRefusal = true) := by
  unfold send
  cases hg : c.get? key with
  | none => exact .inl ⟨by simp, rfl⟩
  | some conn =>
    dsimp only
    split
    · exact .inl ⟨by simp, rfl⟩
    · exact .inl ⟨by simp, rfl⟩
    · right
      dsimp only
      split
      · next harm =>
        let sent := Nonblocking.send c.notifier.host conn.descriptor bytes
        let parked : Connection H := { conn with write := (conn.write.store handle).1 }
        have hset : c.armWrites = true := (Bool.and_eq_true_iff.1 harm).1
        rcases rearm_cases_notes (c.onHost fun _ => sent.1) key parked true with
          ⟨-, hslots, note, hm, hrefusal⟩ | ⟨-, hslots⟩
        · exact ⟨conn, conn.armed, rfl, rfl, hslots, .inr ⟨rfl, note, List.mem_append_right _ hm, hrefusal⟩⟩
        · exact ⟨conn, true, rfl, rfl, hslots, .inl (by rw [hset, Bool.true_or])⟩
      · next harm =>
        refine ⟨conn, conn.armed, rfl, rfl, rfl, .inl ?_⟩
        cases hset : c.armWrites with
        | false => rfl
        | true => simpa [onHost, hset] using harm

theorem woken_eq (slot : ParkingSlot H) (resumes : Bool) :
    (if resumes then slot.wake else (slot, none)).2.toList = if resumes then slot.handle.toList else [] := by
  cases resumes <;> rfl

/-- a report is about no connection, or it takes out what it resumes; then the mark goes if the writing direction is
among that, unless the kernel refuses -/
theorem fire_cases (c : Connections H) (key : Nat) (r : Readiness) :
    c.get? key = none ∧ (c.fire key r).value = [] ∧ (c.fire key r).state = c ∨
      ∃ conn armed, c.get? key = some conn ∧
        (c.fire key r).value = (if r.heeds .read then conn.read.handle.toList else []) ++
          (if r.heeds .write then conn.write.handle.toList else []) ∧
        (c.fire key r).state.slots = c.slots.set key { conn.resumed r with armed } ∧
        (armed = (conn.armed && !r.heeds .write) ∨
          armed = conn.armed ∧ ∃ note ∈ (c.fire key r).notes, note.isRefusal = true) := by
  unfold fire
  cases hg : c.get? key with
  | none => exact .inl ⟨rfl, rfl, rfl⟩
  | some conn =>
    right
    by_cases hheeds : ((r.writable || r.closed) && conn.armed) = true
    · simp only [if_pos hheeds]
      have hwrite : r.heeds .write = true := (Bool.and_eq_true_iff.1 hheeds).1
      rcases rearm_cases_notes c key (conn.resumed r) false with ⟨-, hslots, note, hm, hrefusal⟩ | ⟨-, hslots⟩
      · refine ⟨conn, conn.armed, rfl, ?_, hslots, .inr ⟨rfl, note, List.mem_append_left _ hm, hrefusal⟩⟩
        rw [woken_eq, woken_eq]
        rfl
      · refine ⟨conn, false, rfl, ?_, hslots, .inl ?_⟩
        · rw [woken_eq, woken_eq]
          rfl
        · rw [hwrite, Bool.not_true, Bool.and_false]
    · simp only [if_neg hheeds]
      refine ⟨conn, conn.armed, rfl, ?_, rfl, .inl ?_⟩
      · rw [woken_eq, woken_eq]
        rfl
      · cases harmed : conn.armed with
        | false => rfl
        | true => simpa [Readiness.heeds, harmed] using hheeds

/-! ## What every request keeps -/

/-- what a request reports -/
def notes (c : Connections H) : Request H → List Note
  | .insert d peer => (c.insert d peer).notes
  | .remove key => (c.remove key).notes
  | .fire key r => (c.fire key r).notes
  | .recv key handle count => (c.recv key handle count).notes
  | .send key handle bytes => (c.send key handle bytes).notes
  | .shutdown _ | .onHost _ => []

/-- a request that reports no refusal of a change of a watch -/
def Unrefused (c : Connections H) (request : Request H) : Prop := ∀ note ∈ c.notes request, note.isRefusal = false

instance (c : Connections H) (request : Request H) : Decidable (c.Unrefused request) :=
  inferInstanceAs (Decidable (∀ note ∈ c.notes request, note.isRefusal = false))

theorem Unrefused.not_refused {request : Request H} (hu : c.Unrefused request) :
    ¬ ∃ note ∈ c.notes request, note.isRefusal = true := by
  rintro ⟨note, hm, hrefusal⟩
  rw [hu note hm] at hrefusal
  cases hrefusal

/-- every live connection is marked exactly if the table is set to watch parked writes and one is parked there -/
structure Poised (c : Connections H) : Prop where
  tidy : c.slots.Tidy
  marks : ∀ {key conn}, c.get? key = some conn → conn.armed = (c.armWrites && conn.write.isParked)

theorem Poised.of_slots {c' : Connections H} (hc : c.Poised) (hs : c'.slots = c.slots)
    (ha : c'.armWrites = c.armWrites) : c'.Poised := by
  refine ⟨hs ▸ hc.tidy, fun {k x} hx => ?_⟩
  rw [get?, hs] at hx
  exact ha ▸ hc.marks hx

theorem Poised.of_set {c' : Connections H} (hc : c.Poised) (hg : c.get? key = some old)
    (hs : c'.slots = c.slots.set key conn) (ha : c'.armWrites = c.armWrites)
    (hp : conn.armed = (c.armWrites && conn.write.isParked)) : c'.Poised := by
  refine ⟨hs ▸ hc.tidy.set key conn, fun {k x} hx => ?_⟩
  rw [get?, hs, Slots.get?_set hg] at hx
  rw [ha]
  split at hx
  · cases hx
    exact hp
  · exact hc.marks hx

theorem Poised.insert (hc : c.Poised) (d : Descriptor) (peer : Address) : (c.insert d peer).state.Poised := by
  have ha : (c.insert d peer).state.armWrites = c.armWrites := c.after_armWrites (.insert d peer)
  rcases c.insert_slots d peer with ⟨-, -, hs⟩ | ⟨-, hs⟩
  · exact hc.of_slots hs ha
  · refine ⟨hs ▸ hc.tidy.insert _, fun {k x} hx => ?_⟩
    rw [get?, hs, Slots.get?_insert hc.tidy] at hx
    rw [ha]
    split at hx
    · -- a new connection is not marked, and nothing is parked there
      cases hx
      exact (Bool.and_false _).symm
    · exact hc.marks hx

theorem Poised.remove (hc : c.Poised) (key : Nat) : (c.remove key).state.Poised := by
  have ha : (c.remove key).state.armWrites = c.armWrites := c.after_armWrites (.remove key)
  have hs := c.remove_slots key
  refine ⟨hs ▸ hc.tidy.erase key, fun {k x} hx => ?_⟩
  rw [get?, hs, Slots.get?_erase] at hx
  rw [ha]
  split at hx
  · cases hx
  · exact hc.marks hx

/-- reading leaves the parked write and the mark alone -/
theorem Poised.recv (hc : c.Poised) (key : Nat) (handle : H) (count : Nat) :
    (c.recv key handle count).state.Poised := by
  have ha : (c.recv key handle count).state.armWrites = c.armWrites := c.after_armWrites (.recv key handle count)
  rcases c.recv_cases key handle count with ⟨-, hs⟩ | ⟨conn, hg, -, hs⟩
  · exact hc.of_slots hs ha
  · have hbefore := hc.marks hg
    exact hc.of_set hg hs ha hbefore

/-- a write that has to wait is parked; the mark was there, or comes now, or the table is not set to -/
theorem Poised.send (hc : c.Poised) (key : Nat) (handle : H) (bytes : Bytes)
    (hu : c.Unrefused (.send key handle bytes)) : (c.send key handle bytes).state.Poised := by
  have ha : (c.send key handle bytes).state.armWrites = c.armWrites := c.after_armWrites (.send key handle bytes)
  rcases c.send_cases key handle bytes with ⟨-, hs⟩ | ⟨conn, armed, hg, -, hs, hmark | ⟨-, hrefused⟩⟩
  · exact hc.of_slots hs ha
  · refine hc.of_set hg hs ha ?_
    have hbefore := hc.marks hg
    calc armed = (c.armWrites || conn.armed) := hmark
      _ = (c.armWrites || c.armWrites && conn.write.isParked) := by rw [hbefore]
      _ = c.armWrites := by cases c.armWrites <;> simp
      _ = (c.armWrites && true) := (Bool.and_true _).symm
  · exact absurd hrefused hu.not_refused

/-- a report that takes a parked write out takes the mark with it, and no other report touches either -/
theorem Poised.fire (hc : c.Poised) (key : Nat) (r : Readiness) (hu : c.Unrefused (.fire key r)) :
    (c.fire key r).state.Poised := by
  have ha : (c.fire key r).state.armWrites = c.armWrites := c.after_armWrites (.fire key r)
  rcases c.fire_cases key r with ⟨-, -, hs⟩ | ⟨conn, armed, hg, -, hs, hmark | ⟨-, hrefused⟩⟩
  · rw [hs]
    exact hc
  · refine hc.of_set hg hs ha ?_
    have hbefore := hc.marks hg
    show armed = (c.armWrites && (conn.resumed r).write.isParked)
    rw [hmark]
    cases hwrite : r.writable || r.closed with
    | false => simpa [Connection.resumed, Readiness.heeds, hwrite] using hbefore
    | true =>
      simp [Connection.resumed, Readiness.heeds, hwrite, ParkingSlot.wake, ParkingSlot.empty, ParkingSlot.isParked]
  · exact absurd hrefused hu.not_refused

/-- every request keeps every connection poised, unless it meets a refusal -/
theorem Poised.after {request : Request H} (hc : c.Poised) (hu : c.Unrefused request) : (c.after request).Poised := by
  cases request with
  | insert d peer => exact hc.insert d peer
  | remove key => exact hc.remove key
  | fire key r => exact hc.fire key r hu
  | recv key handle count => exact hc.recv key handle count
  | send key handle bytes => exact hc.send key handle bytes hu
  | shutdown key => exact hc.of_slots (c.shutdown_slots key) (c.after_armWrites (.shutdown key))
  | onHost change => exact hc.of_slots rfl rfl

theorem poised_empty (notifier : Notifier) (armWrites : Bool) : (empty notifier armWrites : Connections H).Poised :=
  ⟨Slots.tidy_empty, fun {_ _} hg => by cases hg⟩

/-- **Armed exactly while parked.** Any requests were made of a table that was just made, on any host, and none of them
met the refusal of a change of a watch. Then a live connection is marked to be watched for room to write exactly if the
table is set to watch for it and a write is parked there. -/
theorem armed_iff_parked (notifier : Notifier) (armWrites : Bool) {requests : List (Request H)}
    (hu : Throughout Unrefused (empty notifier armWrites) requests) {key : Nat} {conn : Connection H}
    (hg : (requests.foldl after (empty notifier armWrites)).get? key = some conn) :
    conn.armed = true ↔ armWrites = true ∧ conn.write.isParked = true := by
  have hmark := (hu.keeps Poised.after (poised_empty notifier armWrites)).marks hg
  rw [foldl_after_armWrites] at hmark
  rw [hmark]
  exact Bool.and_eq_true_iff

end Connections

namespace Sample

/-- the far end has room to write again -/
def relieved (h : Host) : Host := { h with streams := [{ family := .unix }] }

/-- a write is parked, another one goes through and a report for the other direction comes while it is, and then a
second one has to wait -/
def overtaken : List (Connections.Request Nat) :=
  [.onHost jammed, .insert 1 ⟨"c0"⟩, .send 0 7 [1], .onHost relieved, .send 0 8 [2],
    .fire 0 ⟨.connection 0, true, false, false⟩, .onHost jammed, .send 0 9 [3]]

end Sample

namespace Connections

/-- the write that went through left the older handle parked and watched; the mark is there after all of it -/
theorem armed_iff_parked_overtaken :
    ∃ conn, (Sample.overtaken.foldl after (empty { host := {} } true)).get? 0 = some conn ∧
      conn.armed = true ∧ conn.write.handle = some 9 := by
  have hthere : ((Sample.overtaken.foldl after (empty { host := {} } true)).get? 0).any
      fun conn => conn.write.handle == some 9 := by decide +kernel
  obtain ⟨conn, hg, hparked⟩ := (Option.any_eq_true _ _).1 hthere
  have hhandle : conn.write.handle = some 9 := beq_iff_eq.1 hparked
  have hunrefused : Throughout Unrefused (empty { host := {} } true) Sample.overtaken := by decide +kernel
  have hiff := armed_iff_parked { host := {} } true hunrefused hg
  refine ⟨conn, hg, hiff.2 ⟨rfl, ?_⟩, hhandle⟩
  rw [ParkingSlot.isParked, hhandle]
  rfl

end Connections

end EventServer
