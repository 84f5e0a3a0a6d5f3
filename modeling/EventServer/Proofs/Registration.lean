/-
What is watched of the connections, whatever the kernel answers. The operations come in any order, on live keys and on
released ones, with any reports; between them the host changes as it likes, so every result of every call is among the
cases. The environment keeps to `Allowed`: a connection is taken in once and on a descriptor that no client can close,
and nobody else enters, changes or ends a watch or closes what is watched.

`Enrolled` is the invariant: the watch is what it was at first and one entry for each live connection, under the word of
its slot and for what the connection is marked to be watched for, and the ledger counts these. Every request keeps it
(`Enrolled.after`), the mark and the mask changing in one step (`Enrolled.rearm`); so `registrations_agree` holds of
every sequence of requests.
-/
import EventServer.Proofs.Endurance
import EventServer.Proofs.Steady

namespace EventServer

namespace Connections

variable {H : Type} {fixed : List Watch} {c : Connections H} {key : Nat} {conn old : Connection H} {d : Descriptor}

/-! ## The table and its watch -/

/-- the watch is what was fixed and one entry for each live connection, and the ledger counts the connections; without
the setting, no connection is marked to be watched for room to write -/
structure Enrolled (fixed : List Watch) (c : Connections H) : Prop where
  tidy : c.slots.Tidy
  guarded : c.host.Guarded
  words : ∀ {key conn}, c.get? key = some conn → Token.base + key < UInt64.size
  watches : c.host.watches.Perm (fixed ++ c.slots.toList.map fun entry => entry.2.watch entry.1)
  ledger : c.notifier.registrations = c.notifier.deregistrations + c.slots.size
  unarmed : c.armWrites = false → ∀ {key conn}, c.get? key = some conn → conn.armed = false

/-- the environment of a table: it takes a connection in once and on a descriptor that is open and no client's, and
whatever else it does changes no watch and closes nothing that is watched -/
def Allowed (c : Connections H) : Request H → Prop
  | .insert d _ => c.host.watch? d = none ∧ (c.host.kind? d).any (!·.isClients) = true
  | .onHost change => (change c.host).watches = c.host.watches ∧
      ∀ w ∈ c.host.watches, (change c.host).Stands w.descriptor
  | _ => True

/-- every request is as it has to be at the table that it comes to -/
def Throughout (P : Connections H → Request H → Prop) : Connections H → List (Request H) → Prop
  | _, [] => True
  | c, request :: rest => P c request ∧ Throughout P (c.after request) rest

instance (c : Connections H) : (request : Request H) → Decidable (c.Allowed request)
  | .insert _ _ => inferInstanceAs (Decidable (_ ∧ _))
  | .onHost _ => inferInstanceAs (Decidable (_ ∧ _))
  | .remove _ | .fire .. | .recv .. | .send .. | .shutdown _ => isTrue trivial

instance decidableThroughout {P : Connections H → Request H → Prop} [∀ c request, Decidable (P c request)] :
    (c : Connections H) → (requests : List (Request H)) → Decidable (Throughout P c requests)
  | _, [] => isTrue trivial
  | c, request :: rest =>
    have := decidableThroughout (P := P) (c.after request) rest
    inferInstanceAs (Decidable (_ ∧ _))

/-- what every request keeps that is as it has to be, all of them keep -/
theorem Throughout.keeps {P : Connections H → Request H → Prop} {I : Connections H → Prop}
    (hstep : ∀ {c request}, I c → P c request → I (c.after request)) {requests : List (Request H)}
    (ht : Throughout P c requests) (hi : I c) : I (requests.foldl after c) := by
  induction requests generalizing c with
  | nil => exact hi
  | cons request rest ih =>
    obtain ⟨hfirst, hrest⟩ := ht
    exact ih hrest (hstep hi hfirst)

theorem Enrolled.mem_watches (hc : c.Enrolled fixed) (hg : c.get? key = some conn) :
    conn.watch key ∈ c.host.watches :=
  hc.watches.mem_iff.2 (List.mem_append_right _ (List.mem_map.2 ⟨(key, conn), mem_toList.2 hg, rfl⟩))

theorem Enrolled.word? (hc : c.Enrolled fixed) (hg : c.get? key = some conn) :
    (Token.connection key).word? = some (conn.watch key).word := by
  simp [Token.word?, hc.words hg, Connection.watch]

/-- a host with the same watches, guarded as well -/
theorem Enrolled.onHost (hc : c.Enrolled fixed) {h : Host} (hwatches : h.watches = c.host.watches) (hg : h.Guarded) :
    (c.onHost fun _ => h).Enrolled fixed :=
  ⟨hc.tidy, hg, hc.words, hwatches ▸ hc.watches, hc.ledger, hc.unarmed⟩

theorem Enrolled.steady (hc : c.Enrolled fixed) {h : Host} (hs : Host.Steady c.host h) :
    (c.onHost fun _ => h).Enrolled fixed :=
  hc.onHost hs.watches (hs.guarded hc.guarded)

/-- a connection is replaced by one on the same descriptor; its watch follows its mark -/
theorem Enrolled.put (hc : c.Enrolled fixed) (hg : c.get? key = some old) {n : Notifier}
    (hguarded : n.host.Guarded)
    (hwatches : ∀ {rest}, c.host.watches.Perm (old.watch key :: rest) → n.host.watches.Perm (conn.watch key :: rest))
    (hregistrations : n.registrations = c.notifier.registrations)
    (hderegistrations : n.deregistrations = c.notifier.deregistrations)
    (hunarmed : c.armWrites = false → conn.armed = false) :
    (({ c with notifier := n } : Connections H).put key conn).Enrolled fixed := by
  have hget := get?_put (c := { c with notifier := n }) hg conn
  obtain ⟨pre, post, hlist, hset⟩ := put_focus (c := { c with notifier := n }) hg
  dsimp only at hlist
  refine ⟨hc.tidy.set key conn, hguarded, fun {k x} hx => ?_, ?_, ?_, fun harm {k x} hx => ?_⟩
  · rw [hget] at hx
    split at hx
    · next hk => exact hk ▸ hc.words hg
    · exact hc.words hx
  · have hbefore := hc.watches
    rw [hlist, List.map_append, List.map_cons, ← List.append_assoc] at hbefore
    rw [hset, List.map_append, List.map_cons, ← List.append_assoc]
    exact (hwatches (hbefore.trans List.perm_middle)).trans List.perm_middle.symm
  · have hledger := hc.ledger
    simp only [Slots.size, hlist, List.length_append, List.length_cons] at hledger
    simpa [Slots.size, hset, hregistrations, hderegistrations] using hledger
  · rw [hget] at hx
    split at hx
    · cases hx
      exact hunarmed harm
    · exact hc.unarmed harm hx

/-- what is parked on a connection may change -/
theorem Enrolled.set (hc : c.Enrolled fixed) (hg : c.get? key = some old) (hd : conn.descriptor = old.descriptor)
    (ha : conn.armed = old.armed) : (c.put key conn).Enrolled fixed := by
  have hsame : conn.watch key = old.watch key := by simp [Connection.watch, Connection.interest, hd, ha]
  exact hc.put (n := c.notifier) hg hc.guarded (fun hp => hsame ▸ hp) rfl rfl fun harm =>
    ha.trans (hc.unarmed harm hg)

/-- the mark and the mask change together, or neither does -/
theorem Enrolled.rearm (hc : c.Enrolled fixed) (hg : c.get? key = some old) (hd : conn.descriptor = old.descriptor)
    (ha : conn.armed = old.armed) {armed : Bool} (hset : c.armWrites = false → armed = false) :
    (c.rearm key conn armed).state.Enrolled fixed := by
  have hsame : conn.watch key = old.watch key := by simp [Connection.watch, Connection.interest, hd, ha]
  rcases Notifier.reregister_spec hc.guarded conn.descriptor (.connection key)
      (if armed then writingInterest else idleInterest) with
    ⟨fault, h, hs, hvalue, hstate⟩ | ⟨word, h, hword, hguarded, hwatches, hvalue, hstate⟩
  · simp only [Connections.rearm, hvalue, hstate]
    exact hc.put hg (hs.guarded hc.guarded) (fun hp => by rw [hsame, hs.watches]; exact hp) rfl rfl fun harm =>
      ha.trans (hc.unarmed harm hg)
  · simp only [Connections.rearm, hvalue, hstate]
    refine hc.put hg hguarded (fun {rest} hp => ?_) rfl rfl hset
    rw [hc.word? hg, Option.some.injEq] at hword
    rw [hwatches, ← hword, hd]
    exact perm_rewatched hp hc.guarded.once (old.watch key).word ({ conn with armed } : Connection H).interest

/-! ## The operations -/

theorem Enrolled.recv (hc : c.Enrolled fixed) (key : Nat) (handle : H) (count : Nat) :
    (c.recv key handle count).state.Enrolled fixed := by
  unfold Connections.recv
  cases hg : c.get? key with
  | none => exact hc
  | some conn =>
    have hafter := hc.steady (Host.steady_recv hc.guarded conn.descriptor count)
    dsimp only
    split
    · exact hafter
    · exact hafter
    · exact hafter.set hg rfl rfl

theorem Enrolled.send (hc : c.Enrolled fixed) (key : Nat) (handle : H) (bytes : Bytes) :
    (c.send key handle bytes).state.Enrolled fixed := by
  unfold Connections.send
  cases hg : c.get? key with
  | none => exact hc
  | some conn =>
    have hafter := hc.steady (Host.steady_send hc.guarded conn.descriptor bytes)
    dsimp only
    split
    · exact hafter
    · exact hafter
    · dsimp only
      split
      · next harm =>
        refine hafter.rearm hg (by rfl) (by rfl) fun hoff => ?_
        rw [hoff] at harm
        cases harm
      · exact hafter.set hg rfl rfl

theorem Enrolled.shutdown (hc : c.Enrolled fixed) (key : Nat) : (c.shutdown key).1.Enrolled fixed := by
  unfold Connections.shutdown
  cases hg : c.get? key with
  | none => exact hc
  | some conn => exact hc.steady ((Host.steady_elapse hc.guarded).trans (Host.steady_finish ..))

theorem Enrolled.fire (hc : c.Enrolled fixed) (key : Nat) (r : Readiness) : (c.fire key r).state.Enrolled fixed := by
  unfold Connections.fire
  cases hg : c.get? key with
  | none => exact hc
  | some conn =>
    dsimp only
    split
    · exact hc.rearm hg (by rfl) (by rfl) fun _ => rfl
    · exact hc.set hg (by rfl) (by rfl)

/-- a connection is taken in and watched, or refused and closed -/
theorem Enrolled.insert (hc : c.Enrolled fixed) (hw : c.host.watch? d = none)
    (hd : (c.host.kind? d).any (!·.isClients) = true) (peer : Address) :
    (c.insert d peer).state.Enrolled fixed := by
  unfold Connections.insert
  dsimp only
  rcases Notifier.register_spec hc.guarded hw hd (.connection c.slots.nextKey) idleInterest with
    ⟨fault, h, hs, hvalue, hstate⟩ | ⟨word, h, hword, hguarded, hwatches, hvalue, hstate⟩
  · rw [hvalue, hstate]
    have hs' := hs.trans (Host.steady_elapse (hs.guarded hc.guarded))
    have hnone : h.elapse.watch? d = none := by
      rw [Host.watch?, hs'.watches]
      exact hw
    refine hc.onHost (h := h.elapse.close d false) ?_ (Host.guarded_close (hs'.guarded hc.guarded) d false)
    rw [(Host.close_spec ..).1, Host.filter_watches_of_none hnone, hs'.watches]
  · rw [hvalue, hstate]
    have hget := Slots.get?_insert hc.tidy ({ descriptor := d, peer } : Connection H)
    obtain ⟨pre, post, hlist, hlist'⟩ := Slots.toList_insert hc.tidy ({ descriptor := d, peer } : Connection H)
    obtain ⟨hk, rfl⟩ : Token.base + c.slots.nextKey < UInt64.size ∧
        word = UInt64.ofNat (Token.base + c.slots.nextKey) := by
      simp only [Token.word?] at hword
      split at hword
      · next hk => exact ⟨hk, (Option.some.inj hword).symm⟩
      · cases hword
    refine ⟨hc.tidy.insert _, hguarded, fun {k x} hx => ?_, ?_, ?_, fun harm {k x} hx => ?_⟩
    · rw [get?, hget] at hx
      split at hx
      · next he => exact he ▸ hk
      · exact hc.words hx
    · have hperm := hc.watches
      rw [hlist, List.map_append, ← List.append_assoc] at hperm
      rw [hlist', List.map_append, List.map_cons, ← List.append_assoc]
      exact (hwatches ▸ (List.perm_append_singleton ..).trans (hperm.cons _)).trans List.perm_middle.symm
    · have hledger := hc.ledger
      rw [Slots.size_insert hc.tidy]
      dsimp only
      omega
    · rw [get?, hget] at hx
      split at hx
      · cases hx
        rfl
      · exact hc.unarmed harm hx

/-- a connection is taken out with its watch, and the kernel does not refuse that -/
theorem Enrolled.remove (hc : c.Enrolled fixed) (key : Nat) :
    (c.remove key).state.Enrolled fixed ∧ (c.remove key).notes = [] := by
  unfold Connections.remove
  cases hg : c.get? key with
  | none => exact ⟨hc, rfl⟩
  | some conn =>
    obtain ⟨h, hguarded, hwatches, hleft⟩ := Notifier.deregister_spec hc.guarded (hc.mem_watches hg)
    have hs := Host.steady_elapse hguarded
    have hgone : (h.elapse.close conn.descriptor false).watches =
        c.host.watches.filter (·.descriptor != conn.descriptor) := by
      rw [(Host.close_spec ..).1, hs.watches, hwatches]
      simp [Connection.watch]
    obtain ⟨pre, post, hlist, herase, -⟩ := Slots.toList_focus hg
    have hget := Slots.get?_erase c.slots key
    dsimp only
    rw [show c.notifier.deregister conn.descriptor = _ from hleft]
    refine ⟨⟨hc.tidy.erase key, Host.guarded_close (hs.guarded hguarded) .., fun {k x} hx => ?_, ?_, ?_,
      fun harm {k x} hx => ?_⟩, rfl⟩
    · rw [get?, hget] at hx
      split at hx
      · cases hx
      · exact hc.words hx
    · have hperm := hc.watches
      rw [hlist, List.map_append, List.map_cons, ← List.append_assoc] at hperm
      rw [herase, List.map_append, ← List.append_assoc]
      refine (List.Perm.of_eq hgone).trans ?_
      exact perm_filter_ne (hperm.trans List.perm_middle) hc.guarded.once
    · have hledger := hc.ledger
      rw [Slots.size_erase hg] at hledger
      dsimp only [Notifier.onHost]
      omega
    · rw [get?, hget] at hx
      split at hx
      · cases hx
      · exact hc.unarmed harm hx

/-- every request keeps the watch right -/
theorem Enrolled.after {request : Request H} (hc : c.Enrolled fixed) (ha : c.Allowed request) :
    (c.after request).Enrolled fixed := by
  cases request with
  | insert d peer => exact hc.insert ha.1 ha.2 peer
  | remove key => exact (hc.remove key).1
  | fire key r => exact hc.fire key r
  | recv key handle count => exact hc.recv key handle count
  | send key handle bytes => exact hc.send key handle bytes
  | shutdown key => exact hc.shutdown key
  | onHost change =>
    obtain ⟨hwatches, hstands⟩ := ha
    exact hc.onHost hwatches (hc.guarded.of_sublist (by rw [hwatches]) fun w hw _ => hstands w (hwatches ▸ hw))

theorem enrolled_empty {host : Host} (hh : host.Guarded) (armWrites : Bool) :
    (empty { host } armWrites : Connections H).Enrolled host.watches where
  tidy := Slots.tidy_empty
  guarded := hh
  words hg := by cases hg
  watches := by simp [empty, Slots.empty, Slots.toList]
  ledger := rfl
  unarmed _ {_ _} hg := by cases hg

theorem rearm_armWrites (c : Connections H) (key : Nat) (conn : Connection H) (armed : Bool) :
    (c.rearm key conn armed).state.armWrites = c.armWrites := by
  unfold rearm
  dsimp only
  split <;> rfl

/-- no request changes what the table is set to -/
theorem after_armWrites (c : Connections H) (request : Request H) : (c.after request).armWrites = c.armWrites := by
  cases request with
  | insert d peer =>
    simp only [Connections.after, Connections.insert]
    split <;> rfl
  | remove key =>
    simp only [Connections.after, Connections.remove]
    split <;> rfl
  | fire key r =>
    simp only [Connections.after, Connections.fire]
    split
    · rfl
    · dsimp only
      split
      · exact rearm_armWrites ..
      · rfl
  | recv key handle count =>
    simp only [Connections.after, Connections.recv]
    split
    · rfl
    · split <;> rfl
  | send key handle bytes =>
    simp only [Connections.after, Connections.send]
    split
    · rfl
    · split
      · rfl
      · rfl
      · dsimp only
        split
        · exact rearm_armWrites ..
        · rfl
  | shutdown key =>
    simp only [Connections.after, Connections.shutdown]
    split <;> rfl
  | onHost change => rfl

theorem foldl_after_armWrites (c : Connections H) (requests : List (Request H)) :
    (requests.foldl after c).armWrites = c.armWrites := by
  induction requests generalizing c with
  | nil => rfl
  | cons request rest ih => exact (ih _).trans (c.after_armWrites request)

/-! ## What is watched -/

theorem mask_interest (conn : Connection H) :
    conn.interest.mask = 0x80000000 + 24 + 1 + if conn.armed then 4 else 0 := by
  unfold Connection.interest
  cases conn.armed
  · simp [idleInterest, Interest.mask, Interest.edgeTriggered, Interest.reading]
  · simp [writingInterest, Interest.mask, Interest.edgeTriggered, Interest.readingAndWriting]

/-- the table's view of what is watched is right -/
structure Agrees (fixed : List Watch) (c : Connections H) : Prop where
  /-- beside the fixed watches there is one for each live connection, and no other -/
  watched : c.host.watches.Perm (fixed ++ c.slots.toList.map fun entry => entry.2.watch entry.1)
  once : (c.host.watches.map (·.descriptor)).Nodup
  /-- a connection is watched under the second word after its slot, for input and trouble as they arise, and for room
  to write exactly if it is marked so -/
  entry : ∀ {key conn}, c.get? key = some conn → (conn.watch key).word.toNat = 2 + key ∧
    (conn.watch key).interest.mask = 0x80000000 + 24 + 1 + if conn.armed then 4 else 0
  ledger : c.notifier.registrations = c.notifier.deregistrations + c.slots.size
  /-- the kernel lets a connection leave the watch, whichever it is -/
  leaving : ∀ key, (c.remove key).notes = []
  /-- without the setting, nothing but the fixed watches is for room to write -/
  unarmed : c.armWrites = false → ∀ w ∈ c.host.watches, w ∈ fixed ∨ w.interest.write = false

theorem Enrolled.agrees (hc : c.Enrolled fixed) : c.Agrees fixed where
  watched := hc.watches
  once := hc.guarded.once
  entry {key conn} hg := ⟨UInt64.toNat_ofNat_of_lt' (hc.words hg), mask_interest conn⟩
  ledger := hc.ledger
  leaving key := (hc.remove key).2
  unarmed harm w hw := by
    refine (List.mem_append.1 (hc.watches.mem_iff.1 hw)).imp_right fun hm => ?_
    obtain ⟨⟨key, conn⟩, hentry, rfl⟩ := List.mem_map.1 hm
    rw [Connection.watch, Connection.interest, hc.unarmed harm (mem_toList.1 hentry)]
    rfl

/-- **The table's view of what is watched is always right.** A table was just made over a host in which other
descriptors may be watched already, and any requests were made of it, in any order and on any keys; between them the
host changed as it liked, refusals of changes to come included, but for the watches and what they are on. Then beside
those first watches exactly the live connections are watched, each under the word and for the mask that its record says;
the ledger counts them; and without the setting no connection is ever watched for room to write. -/
theorem registrations_agree {host : Host} (hh : host.Guarded) (armWrites : Bool) {requests : List (Request H)}
    (ha : Throughout Allowed (empty { host } armWrites) requests) :
    (requests.foldl after (empty { host } armWrites)).Agrees host.watches ∧
      (requests.foldl after (empty { host } armWrites)).armWrites = armWrites :=
  ⟨(ha.keeps Enrolled.after (enrolled_empty hh armWrites)).agrees, foldl_after_armWrites ..⟩

end Connections

/-! ## A table to look at -/

namespace Sample

/-- a pair of which the far end has no room to write -/
def jammed (h : Host) : Host :=
  { h with
    streams := [{ family := .unix, near := { inbox := [⟨[0], sendAllowance⟩] } }]
    devices := [some (.stream 0 .near), some (.stream 0 .far)] }

/-- the next change of what the far end is watched for will be refused -/
def refusing (h : Host) : Host := { h with refusals := { h.refusals with rewatch := [(1, some ⟨12⟩)] } }

/-- the far end is taken in and a write is parked, which is watched; the kernel refuses to end that when it is resumed,
and a report for a slot that was never used comes after it -/
def strained : List (Connections.Request Nat) :=
  [.onHost jammed, .insert 1 ⟨"c0"⟩, .send 0 7 [1], .onHost refusing, .fire 0 ⟨.connection 0, false, true, false⟩,
    .fire 5 ⟨.connection 5, true, false, false⟩]

end Sample

namespace Connections

/-- a refusal leaves the mark and the mask both set, with nothing parked; the view is right all the same -/
theorem registrations_agree_strained :
    (Sample.strained.foldl after (empty { host := {} } true)).Agrees [] ∧
      ((Sample.strained.foldl after (empty { host := {} } true)).get? 0).any
        (fun conn => conn.armed && !conn.write.isParked) := by
  have hguarded : Host.Guarded {} := ⟨.nil, by simp⟩
  exact ⟨(registrations_agree hguarded true (by decide +kernel)).1, by decide +kernel⟩

end Connections

end EventServer
