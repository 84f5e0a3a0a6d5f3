/-
Connections over the network both ends of which are open.

What is read at one end is what was written at the other, in order and with nothing left out. A read at such an end
finds nothing, or it takes the first of the bytes that are to be read there (`Stream.Flows.recv`); a write finds no
room, or the first of its bytes are put behind those that the other end has to read yet (`Stream.Flows.send`). Nothing
else is ever shown of such an end than what can be read and whether there is room (`Stream.Flows.conditions`).

`Berth.recv_flows` and `Berth.send_flows` say what this means for a task: it gets its share of the bytes, or it is
parked where there is nothing to read, or no room.
-/
import EventServer.Proofs.Berth
import EventServer.Proofs.Inbound
import EventServer.Proofs.Stream

namespace EventServer

/-- an end that was neither shut down nor closed, and on which nothing has gone wrong -/
structure StreamEnd.Open (e : StreamEnd) : Prop where
  finished : e.finished = false
  closed : e.closed = false
  broken : e.broken = false
  trouble : e.trouble = none
  filled : ∀ parcel ∈ e.inbox, parcel.bytes ≠ []

namespace Stream

variable {s : Stream} {side : Side} {count : Nat} {bytes : Bytes}

/-- the bytes that are to be read at an end, oldest first -/
def toRead (s : Stream) (side : Side) : Bytes := (s.get side).inbox.flatMap (·.bytes)

/-- a connection over the network both ends of which are open -/
structure Flows (s : Stream) : Prop where
  family : s.family = .inet
  ends : ∀ side, (s.get side).Open

theorem flows_fresh : ({ family := .inet } : Stream).Flows :=
  ⟨rfl, fun side => by cases side <;> exact ⟨rfl, rfl, rfl, rfl, nofun⟩⟩

theorem Flows.update (hf : s.Flows) (side : Side) {inbox : List Parcel} (hi : ∀ parcel ∈ inbox, parcel.bytes ≠ []) :
    (s.update side fun e => { e with inbox }).Flows := by
  refine ⟨(family_update ..).trans hf.family, fun e => ?_⟩
  rcases eq_or_eq_other e side with rfl | rfl
  · rw [get_update]
    exact ⟨(hf.ends e).finished, (hf.ends e).closed, (hf.ends e).broken, (hf.ends e).trouble, hi⟩
  · rw [get_update_other]
    exact hf.ends side.other

@[simp] theorem toRead_update (s : Stream) (side : Side) (inbox : List Parcel) :
    (s.update side fun e => { e with inbox }).toRead side = inbox.flatMap (·.bytes) := by
  rw [toRead, get_update]

@[simp] theorem toRead_other_update (s : Stream) (side : Side) (inbox : List Parcel) :
    (s.update side.other fun e => { e with inbox }).toRead side = s.toRead side := by
  rw [toRead, get_other_update, toRead]

theorem Flows.toRead_eq_nil (hf : s.Flows) : s.toRead side = [] ↔ (s.get side).inbox = [] := by
  refine ⟨fun hnone => ?_, fun hnone => by rw [toRead, hnone, List.flatMap_nil]⟩
  cases hi : (s.get side).inbox with
  | nil => rfl
  | cons parcel rest =>
    rw [toRead, hi, List.flatMap_cons, List.append_eq_nil_iff] at hnone
    exact absurd hnone.1 ((hf.ends side).filled parcel (hi ▸ List.mem_cons_self))

/-! ## Reading -/

/-- what is taken from an inbox are its first bytes -/
theorem takeBytes_append (count : Nat) (inbox : List Parcel) :
    (takeBytes count inbox).1 ++ (takeBytes count inbox).2.1.flatMap (·.bytes) = inbox.flatMap (·.bytes) := by
  induction inbox generalizing count with
  | nil => rfl
  | cons parcel rest ih =>
    unfold takeBytes
    dsimp only
    split
    · rfl
    · split
      · simp only [List.flatMap_cons, ← List.append_assoc, List.take_append_drop]
      · have hrest := ih (count - parcel.bytes.length)
        generalize takeBytes (count - parcel.bytes.length) rest = taken at hrest ⊢
        obtain ⟨bytes, left, consumed⟩ := taken
        simp only [List.flatMap_cons, List.append_assoc] at hrest ⊢
        rw [hrest]

theorem filled_takeBytes (count : Nat) {inbox : List Parcel} (hi : ∀ parcel ∈ inbox, parcel.bytes ≠ []) :
    ∀ parcel ∈ (takeBytes count inbox).2.1, parcel.bytes ≠ [] := by
  induction inbox generalizing count with
  | nil => exact hi
  | cons parcel rest ih =>
    unfold takeBytes
    dsimp only
    split
    · exact hi
    · split
      · next hless =>
        intro p hp
        rcases List.mem_cons.1 hp with rfl | hp
        · exact fun hnone => absurd (List.drop_eq_nil_iff.1 hnone) (Nat.not_le_of_lt hless)
        · exact hi p (List.mem_cons_of_mem _ hp)
      · exact ih _ fun p hp => hi p (List.mem_cons_of_mem _ hp)

/-- who asks for bytes gets some, if there are any -/
theorem takeBytes_ne_nil {inbox : List Parcel} (hi : ∀ parcel ∈ inbox, parcel.bytes ≠ []) (hsome : inbox ≠ [])
    (hcount : 0 < count) : (takeBytes count inbox).1 ≠ [] := by
  cases inbox with
  | nil => exact absurd rfl hsome
  | cons parcel rest =>
    have hparcel := hi parcel List.mem_cons_self
    unfold takeBytes
    dsimp only
    rw [if_neg (Nat.ne_of_gt hcount)]
    split
    · intro hnone
      rcases List.take_eq_nil_iff.1 hnone with hzero | hnone
      · omega
      · exact hparcel hnone
    · exact fun hnone => hparcel (List.append_eq_nil_iff.1 hnone).1

/-- what a read comes to: there is nothing yet, or it takes the first bytes and leaves all else -/
theorem Flows.recv (hf : s.Flows) (side : Side) (count : Nat) :
    s.toRead side = [] ∧ s.recv side count = { stream := s, value := .error .again } ∨
      ∃ bytes, (s.recv side count).value = .ok bytes ∧ (0 < count → bytes ≠ []) ∧
        s.toRead side = bytes ++ (s.recv side count).stream.toRead side ∧
        (s.recv side count).stream.Flows ∧
        (s.recv side count).stream.get side.other = s.get side.other ∧
        ∀ e stir, (e, stir) ∈ (s.recv side count).stirs → e = side.other := by
  have hopen := hf.ends side
  by_cases hnone : (s.get side).inbox = []
  · refine .inl ⟨hf.toRead_eq_nil.2 hnone, ?_⟩
    have hpeer := hf.ends side.other
    have hend : s.atEnd side = false := by simp [atEnd, hpeer.closed, hpeer.finished, hopen.broken]
    unfold Stream.recv
    simp [hnone, hopen.trouble, hend]
  · refine .inr ⟨(takeBytes count (s.get side).inbox).1, ?_⟩
    unfold Stream.recv
    simp only [List.isEmpty_iff, hnone, if_false, true_and]
    refine ⟨takeBytes_ne_nil hopen.filled hnone, ?_, hf.update side (filled_takeBytes count hopen.filled), ?_, ?_⟩
    · rw [toRead_update, toRead, takeBytes_append]
    · rw [get_update_other]
    · intro e stir hm
      split at hm
      · cases List.mem_singleton.1 hm
        rfl
      · cases hm

/-! ## Writing -/

/-- what is accepted of a write are its first bytes -/
theorem flatMap_parcelsOf (limit load : Nat) (bytes : Bytes) :
    (parcelsOf limit load bytes).flatMap (·.bytes) =
      bytes.take ((parcelsOf limit load bytes).foldr (fun parcel count => parcel.bytes.length + count) 0) := by
  induction limit generalizing load bytes with
  | zero => rfl
  | succ limit ih =>
    unfold parcelsOf
    split
    · rfl
    · simp only [List.flatMap_cons, List.foldr_cons, ih, List.length_take]
      by_cases hmore : Parcel.limit ≤ bytes.length
      · rw [Nat.min_eq_left hmore, List.take_add]
      · have hdrop : bytes.drop Parcel.limit = [] := List.drop_eq_nil_iff.2 (Nat.le_of_not_le hmore)
        rw [hdrop, List.take_nil, List.append_nil, Nat.min_eq_right (Nat.le_of_not_le hmore),
          List.take_of_length_le (Nat.le_of_not_le hmore), List.take_of_length_le (Nat.le_add_right ..)]

theorem filled_parcelsOf (limit load : Nat) (bytes : Bytes) :
    ∀ parcel ∈ parcelsOf limit load bytes, parcel.bytes ≠ [] := by
  induction limit generalizing load bytes with
  | zero => exact List.forall_mem_nil _
  | succ limit ih =>
    unfold parcelsOf
    split
    · exact List.forall_mem_nil _
    · next hsome =>
      simp only [Bool.or_eq_true, List.isEmpty_iff, not_or] at hsome
      intro parcel hp
      rcases List.mem_cons.1 hp with rfl | hp
      · exact fun hnone => (List.take_eq_nil_iff.1 hnone).elim (by decide) hsome.1
      · exact ih _ _ parcel hp

/-- what a write comes to: there is no room, or its first bytes are put behind what the other end has to read yet -/
theorem Flows.send (hf : s.Flows) (side : Side) (hb : bytes ≠ []) :
    s.writable side = false ∧ s.send side bytes = { stream := s, value := .error .again } ∨
      ∃ count, 0 < count ∧ count ≤ bytes.length ∧ (s.send side bytes).value = .ok count ∧
        (s.send side bytes).stream.Flows ∧
        (s.send side bytes).stream.toRead side.other = s.toRead side.other ++ bytes.take count ∧
        (s.send side bytes).stream.toRead side = s.toRead side ∧
        (s.send side bytes).stirs = [(side.other, .input)] := by
  have hopen := hf.ends side
  have hpeer := hf.ends side.other
  have hsend : s.send side bytes = s.deliver side bytes := by
    unfold Stream.send
    simp [hf.family, hopen.trouble, hopen.finished, hopen.broken, hb, hpeer.closed]
  rw [hsend]
  let parcels := parcelsOf (bytes.length / Parcel.limit + 1) (s.load side) bytes
  by_cases hnone : parcels.isEmpty
  · have hdeliver : s.deliver side bytes = { stream := s, value := .error .again } := by
      unfold deliver
      exact if_pos hnone
    obtain ⟨-, hfull⟩ := deliver_refused hb (congrArg Stirred.value hdeliver)
    refine .inl ⟨?_, hdeliver⟩
    rw [← Bool.not_eq_true, writable_iff]
    omega
  · have hdeliver : s.deliver side bytes =
        { stream := s.update side.other fun e => { e with inbox := e.inbox ++ parcels }
          value := .ok (parcels.foldr (fun parcel count => parcel.bytes.length + count) 0)
          stirs := [(side.other, .input)] } := by
      unfold deliver
      exact if_neg hnone
    have hupdate : (s.update side.other fun e => { e with inbox := e.inbox ++ parcels }) =
        s.update side.other fun e => { e with inbox := (s.get side.other).inbox ++ parcels } := by
      cases side <;> rfl
    have hparcels := flatMap_parcelsOf (bytes.length / Parcel.limit + 1) (s.load side) bytes
    rw [hdeliver, hupdate]
    refine .inr ⟨_, ?_, length_parcelsOf .., rfl, hf.update _ ?_, ?_, toRead_other_update .., rfl⟩
    · refine Nat.pos_of_ne_zero fun hzero => ?_
      have hnothing : parcels.flatMap (·.bytes) = [] := by rw [hparcels, hzero, List.take_zero]
      cases hp : parcels with
      | nil => exact hnone (by rw [hp]; rfl)
      | cons parcel rest =>
        rw [hp, List.flatMap_cons, List.append_eq_nil_iff] at hnothing
        exact filled_parcelsOf _ _ _ parcel (hp ▸ List.mem_cons_self) hnothing.1
    · intro parcel hp
      rcases List.mem_append.1 hp with hp | hp
      · exact hpeer.filled parcel hp
      · exact filled_parcelsOf _ _ _ parcel hp
    · rw [toRead_update, List.flatMap_append, hparcels, toRead]

/-- nothing holds on an end but what can be read and what can be written -/
theorem Flows.conditions (hf : s.Flows) (side : Side) :
    s.conditions side = { input := !(s.toRead side).isEmpty, output := s.writable side } := by
  have hopen := hf.ends side
  have hpeer := hf.ends side.other
  have hinput : s.readable side = !(s.toRead side).isEmpty := by
    have hsame : (s.get side).inbox.isEmpty = (s.toRead side).isEmpty := by
      rw [Bool.eq_iff_iff, List.isEmpty_iff, List.isEmpty_iff, hf.toRead_eq_nil]
    simp [readable, atEnd, hpeer.closed, hpeer.finished, hopen.broken, hsame]
  simp [Stream.conditions, hinput, hopen.trouble, hungUp, hf.family, hopen.finished, hopen.broken]

/-- who has read everything leaves room to write -/
theorem Flows.writable (hf : s.Flows) (hnone : s.toRead side.other = []) : s.writable side := by
  rw [writable_iff, load, hf.toRead_eq_nil.1 hnone]
  decide

end Stream

namespace Berth

variable {b : Berth} {count : Nat} {bytes : Bytes}

/-- an operation that stirs nothing at the far end leaves the watch alone -/
theorem apply_of_near {α : Type} (b : Berth) {operation : Stream → Stirred α}
    (hstirs : ∀ e stir, (e, stir) ∈ (operation b.stream).stirs → e = .near) :
    b.apply operation = ({ b with stream := (operation b.stream).stream }, (operation b.stream).value) := by
  have hstirred : b.stirred (operation b.stream).stirs = false := by
    unfold stirred
    rw [List.any_eq_false]
    intro stirred hm
    rw [hstirs stirred.1 stirred.2 hm]
    simp
  unfold apply
  simp only [hstirred, Bool.or_false]

/-- the task reads: it is parked, or it gets the first bytes; what is on its way to the client is left alone -/
theorem recv_flows (hf : b.stream.Flows) (hcount : 0 < count) :
    b.stream.toRead .far = [] ∧ b.recv count = ({ b with read := true }, .pending) ∨
      ∃ bytes s, bytes ≠ [] ∧ bytes.length ≤ count ∧ b.recv count = ({ b with stream := s }, .ready (.ok bytes)) ∧
        s.Flows ∧ b.stream.toRead .far = bytes ++ s.toRead .far ∧ s.get .near = b.stream.get .near := by
  rcases hf.recv .far count with ⟨hnone, hvalue⟩ | ⟨bytes, hvalue, hsome, hsplit, hflows, hnear, hstirs⟩
  · refine .inl ⟨hnone, ?_⟩
    unfold Berth.recv
    rw [b.apply_of_near (by rw [hvalue]; exact nofun), hvalue]
    rfl
  · refine .inr ⟨bytes, _, hsome hcount, Stream.length_of_recv hvalue, ?_, hflows, hsplit, hnear⟩
    unfold Berth.recv
    rw [b.apply_of_near hstirs, hvalue]
    rfl

/-- the task writes: it is parked and room to write is watched, or its first bytes are accepted -/
theorem send_flows (hf : b.stream.Flows) (hb : bytes ≠ []) :
    b.stream.writable .far = false ∧ (∃ b', b.send true bytes = (b', .pending) ∧ b'.stream = b.stream ∧
        b'.read = b.read ∧ b'.write = true ∧ b'.armed = true) ∨
      ∃ count s, count < bytes.length ∧ b.send true bytes = ({ b with stream := s }, .ready (.ok (count + 1))) ∧
        s.Flows ∧ s.toRead .near = b.stream.toRead .near ++ bytes.take (count + 1) ∧
        s.toRead .far = b.stream.toRead .far := by
  rcases hf.send .far hb with ⟨hfull, hvalue⟩ | ⟨count, hpos, hle, hvalue, hflows, hnear, hfar, hstirs⟩
  · have hwaits : (Outcome.ofResult (.error .again) : Outcome Nat) = .wouldBlock := rfl
    refine .inl ⟨hfull, ?_⟩
    unfold Berth.send
    rw [b.apply_of_near (by rw [hvalue]; exact nofun), hvalue]
    cases ha : b.armed with
    | true => exact ⟨{ b with write := true }, by simp [hwaits, ha], rfl, rfl, rfl, ha⟩
    | false => exact ⟨_, rfl, rfl, rfl, rfl, rfl⟩
  · obtain ⟨count, rfl⟩ := Nat.exists_eq_add_one_of_ne_zero (Nat.ne_of_gt hpos)
    refine .inr ⟨count, _, hle, ?_, hflows, hnear, hfar⟩
    unfold Berth.send
    rw [b.apply_of_near fun e stir hm => by
      rw [hstirs] at hm
      cases List.mem_singleton.1 hm
      rfl, hvalue]
    rfl

end Berth

end EventServer
