/-
The table of connections: its invariant, and what changes of one connection and of its watch do to it.

`Connections.Sound fixed batch` says that the watch is exactly the `fixed` watches and one for each live connection,
under the word of its slot and for what the connection is marked to be watched for; that the ledger counts these; and
that no readiness is lost (`Told`): if a handle is parked in a direction that is watched, and there is something to do
in that direction, then the connection's descriptor is queued, or a report that resumes the handle is in the `batch`
that is being dealt with. `Arming` goes with it: if no change of a watch is ever refused, every parked write is watched.

`Sound.onHost` is about changes of the host that leave the watches alone, `Sound.set` about the replacement of a
connection and `Sound.rearm` about a change of what it is watched for.
-/
import EventServer.Connections.Basic
import EventServer.Proofs.Watching
import EventServer.Proofs.WouldBlock

namespace EventServer

/-- whether a direction is among the watched conditions -/
def Interest.covers (i : Interest) : Direction → Bool
  | .read => i.read
  | .write => i.write

/-- whether a report resumes what is parked in a direction -/
def Readiness.heeds (r : Readiness) : Direction → Bool
  | .read => r.readable || r.closed
  | .write => r.writable || r.closed

/-- what is visible under an interest is to be done in a direction only if it is watched for and there, or trouble -/
theorem Conditions.calls_visible {interest : Interest} {c : Conditions} {direction : Direction}
    (hi : interest.covers direction) : (Host.visible interest c).calls direction = c.calls direction := by
  cases direction <;> simp_all [Host.visible, calls, Interest.covers]

theorem Conditions.Within.calls {a b : Conditions} (h : a.Within b) {direction : Direction}
    (hc : a.calls direction) : b.calls direction := by
  cases direction <;> simp only [Conditions.calls, Bool.or_eq_true] at hc ⊢
  · exact hc.imp h.input h.error
  · exact hc.imp h.output h.error

variable {H : Type}

namespace Connection

/-- whether a handle is parked in a direction -/
def parked (conn : Connection H) : Direction → Bool
  | .read => conn.read.isParked
  | .write => conn.write.isParked

/-- what the connection is marked to be watched for -/
def interest (conn : Connection H) : Interest :=
  if conn.armed then Connections.writingInterest else Connections.idleInterest

/-- the watch of a connection in a slot -/
def watch (key : Nat) (conn : Connection H) : Watch :=
  ⟨conn.descriptor, UInt64.ofNat (Token.base + key), conn.interest⟩

/-- nothing is lost of a connection: what there is to do in a direction in which a handle is parked and which is watched
will be reported, or is so in the batch -/
def Told (batch : List Readiness) (h : Host) (key : Nat) (conn : Connection H) : Prop :=
  ∀ direction, conn.parked direction → conn.interest.covers direction →
    (h.conditions conn.descriptor).calls direction →
    conn.descriptor ∈ h.queue ∨ ∃ r ∈ batch, r.token = .connection key ∧ r.heeds direction

/-- a connection with what a report resumes taken out -/
def resumed (conn : Connection H) (r : Readiness) : Connection H :=
  { conn with
    read := (if r.readable || r.closed then conn.read.wake else (conn.read, none)).1
    write := (if r.writable || r.closed then conn.write.wake else (conn.write, none)).1 }

theorem covers_read (conn : Connection H) : conn.interest.covers .read := by
  unfold interest
  split <;> rfl

/-- what a calm descriptor shows anew it is queued for -/
theorem Told.calm {batch : List Readiness} {h h' : Host} {key : Nat} {conn : Connection H}
    (ht : conn.Told batch h key) (hw : h.watch? conn.descriptor = some (conn.watch key))
    (hc : Host.Calm conn.descriptor h h') : conn.Told batch h' key := by
  intro direction hp hi hcalls
  by_cases hq : conn.descriptor ∈ h'.queue
  · exact .inl hq
  · have hrises := hc.rises hq hw
    have hbefore : (h.conditions conn.descriptor).calls direction := by
      have hvisible := hrises.calls ((Conditions.calls_visible hi).trans hcalls)
      exact (Conditions.calls_visible hi).symm.trans hvisible
    exact (ht direction hp hi hbefore).imp_left hc.queued

end Connection

namespace Connections

/-- the host that the table's notifier watches -/
abbrev host (c : Connections H) : Host := c.notifier.host

/-- the invariant of the table -/
structure Sound (fixed : List Watch) (batch : List Readiness) (c : Connections H) : Prop where
  tidy : c.slots.Tidy
  host : c.host.Sound
  far : ∀ {key conn}, c.get? key = some conn → ∃ id, c.host.device? conn.descriptor = some (.stream id .far)
  words : ∀ {key conn}, c.get? key = some conn → Token.base + key < UInt64.size
  watches : c.host.watches.Perm (fixed ++ c.slots.toList.map fun entry => entry.2.watch entry.1)
  ledger : c.notifier.registrations = c.notifier.deregistrations + fixed.length + c.slots.size
  told : ∀ {key conn}, c.get? key = some conn → conn.Told batch c.host key

/-- writes are watched while they are parked, and no change of a watch to come is refused -/
structure Arming (c : Connections H) : Prop where
  set : c.armWrites
  obliging : c.host.Obliging
  armed : ∀ {key conn}, c.get? key = some conn → conn.parked .write → conn.armed

variable {fixed : List Watch} {batch : List Readiness} {c : Connections H} {key : Nat} {conn old : Connection H}

/-! ## What the invariant says of one connection -/

theorem mem_toList : (key, conn) ∈ c.slots.toList ↔ c.get? key = some conn := Slots.mem_toList

theorem Sound.mem_watches (hc : c.Sound fixed batch) (hg : c.get? key = some conn) :
    conn.watch key ∈ c.host.watches :=
  hc.watches.mem_iff.2 (List.mem_append_right _ (List.mem_map.2 ⟨(key, conn), mem_toList.2 hg, rfl⟩))

theorem Sound.watch?_eq (hc : c.Sound fixed batch) (hg : c.get? key = some conn) :
    c.host.watch? conn.descriptor = some (conn.watch key) :=
  hc.host.watch?_eq (hc.mem_watches hg)

theorem Sound.word_toNat (hc : c.Sound fixed batch) (hg : c.get? key = some conn) :
    (conn.watch key).word.toNat = Token.base + key :=
  UInt64.toNat_ofNat_of_lt' (hc.words hg)

/-- no two slots hold the same descriptor -/
theorem Sound.slot_unique (hc : c.Sound fixed batch) {key' : Nat} {conn' : Connection H} (hg : c.get? key = some conn)
    (hg' : c.get? key' = some conn') (hd : conn.descriptor = conn'.descriptor) : key = key' := by
  have hw := hc.watch?_eq hg
  rw [hd, hc.watch?_eq hg', Option.some.injEq] at hw
  have hword := congrArg (·.word.toNat) hw
  simp only [hc.word_toNat hg, hc.word_toNat hg'] at hword
  omega

/-! ## Changes of the host alone -/

/-- what leaves the watches alone keeps the invariant -/
theorem Sound.onHost (hc : c.Sound fixed batch) {h : Host} (hu : Host.Undisturbed c.host h) :
    (c.onHost fun _ => h).Sound fixed batch where
  tidy := hc.tidy
  host := hu.sound
  far hg := by
    obtain ⟨id, hd⟩ := hc.far hg
    exact ⟨id, (hu.calm (by simp) hd).device.trans hd⟩
  words := hc.words
  watches := hu.watches ▸ hc.watches
  ledger := hc.ledger
  told hg := by
    obtain ⟨id, hd⟩ := hc.far hg
    exact (hc.told hg).calm (hc.watch?_eq hg) (hu.calm (by simp) hd)

theorem Arming.onHost (ha : c.Arming) {h : Host} (hu : Host.Undisturbed c.host h) : (c.onHost fun _ => h).Arming :=
  ⟨ha.set, hu.obliging ha.obliging, ha.armed⟩

/-! ## Changes of one connection -/

@[simp] theorem onHost_get? (change : Host → Host) : (c.onHost change).get? key = c.get? key := rfl

@[simp] theorem onHost_host (change : Host → Host) : (c.onHost change).host = change c.host := rfl

@[simp] theorem onHost_slots (change : Host → Host) : (c.onHost change).slots = c.slots := rfl

@[simp] theorem onHost_registrations (change : Host → Host) :
    (c.onHost change).notifier.registrations = c.notifier.registrations := rfl

@[simp] theorem onHost_deregistrations (change : Host → Host) :
    (c.onHost change).notifier.deregistrations = c.notifier.deregistrations := rfl

@[simp] theorem put_notifier : (c.put key conn).notifier = c.notifier := rfl

@[simp] theorem put_host : (c.put key conn).host = c.host := rfl

/-- the list of the live connections around one of them, and what it is once that one is replaced -/
theorem put_focus (hg : c.get? key = some old) : ∃ pre post, c.slots.toList = pre ++ (key, old) :: post ∧
    ∀ conn, (c.put key conn).slots.toList = pre ++ (key, conn) :: post := by
  obtain ⟨pre, post, hlist, -, hset⟩ := Slots.toList_focus hg
  exact ⟨pre, post, hlist, hset⟩

theorem get?_put (hg : c.get? key = some old) (conn : Connection H) (key' : Nat) :
    (c.put key conn).get? key' =
      if key' = key then some conn else c.get? key' := Slots.get?_set hg conn key'

/-- a connection is replaced by one that is watched in the same way and of which nothing is lost; a report may leave the
batch if it is about this connection -/
theorem Sound.set (conn : Connection H) (hc : c.Sound fixed batch) (hg : c.get? key = some old)
    (hd : conn.descriptor = old.descriptor) (ha : conn.armed = old.armed) {batch' : List Readiness}
    (ht : conn.Told batch' c.host key)
    (hb : ∀ r ∈ batch, r ∈ batch' ∨ r.token = .connection key) :
    (c.put key conn).Sound fixed batch' := by
  have hget := get?_put hg conn
  obtain ⟨pre, post, hlist, hset⟩ := put_focus hg
  refine ⟨hc.tidy.set key conn, hc.host, fun {k x} hx => ?_, fun {k x} hx => ?_, ?_, ?_, fun {k x} hx => ?_⟩
  · rw [hget] at hx
    split at hx
    · cases hx
      exact hd ▸ hc.far hg
    · exact hc.far hx
  · rw [hget] at hx
    split at hx
    · next he => exact he ▸ hc.words hg
    · exact hc.words hx
  · have hw : conn.watch key = old.watch key := by simp [Connection.watch, Connection.interest, hd, ha]
    have hperm := hc.watches
    rw [hlist] at hperm
    rw [hset]
    simpa [hw] using hperm
  · have hledger := hc.ledger
    simp only [Slots.size, hlist, List.length_append, List.length_cons] at hledger
    simpa [Slots.size, hset] using hledger
  · rw [hget] at hx
    split at hx
    · next he =>
      cases hx
      exact he ▸ ht
    · next hne =>
      intro direction hp hi hcalls
      rcases hc.told hx direction hp hi hcalls with hq | ⟨r, hr, htoken, hheeds⟩
      · exact .inl hq
      · refine .inr ⟨r, (hb r hr).resolve_right fun hkey => hne ?_, htoken, hheeds⟩
        rw [htoken, Token.connection.injEq] at hkey
        exact hkey

theorem Arming.set_conn (conn : Connection H) (ha : c.Arming) (hg : c.get? key = some old)
    (hp : conn.parked .write → conn.armed) : (c.put key conn).Arming := by
  refine ⟨ha.set, ha.obliging, fun {k x} hx hpark => ?_⟩
  rw [get?_put hg] at hx
  split at hx
  · cases hx
    exact hp hpark
  · exact ha.armed hx hpark

/-! ## Changing what is watched -/

theorem perm_rewatched {watches rest : List Watch} {w : Watch} (hp : watches.Perm (w :: rest))
    (hn : (watches.map (·.descriptor)).Nodup) (word : UInt64) (interest : Interest) :
    (Host.rewatched watches w.descriptor word interest).Perm (⟨w.descriptor, word, interest⟩ :: rest) := by
  have hn' := ((hp.map (·.descriptor)).nodup_iff.1 hn)
  rw [List.map_cons, List.nodup_cons] at hn'
  refine (hp.map _).trans ?_
  have hrest : rest.map (fun v => if v.descriptor == w.descriptor then ⟨w.descriptor, word, interest⟩ else v) =
      rest.map id := by
    refine List.map_congr_left fun v hv => ?_
    have hne : v.descriptor ≠ w.descriptor := fun he => hn'.1 (he ▸ List.mem_map_of_mem hv)
    simp [hne]
  rw [List.map_cons, hrest, List.map_id]
  simp

/-- what the interest of a direction covers and calls for holds -/
theorem holds_of_calls {h : Host} {d : Descriptor} {interest : Interest} {direction : Direction}
    (hi : interest.covers direction) (hc : (h.conditions d).calls direction) : h.holds d interest := by
  cases direction <;> simp only [Interest.covers, Conditions.calls, Bool.or_eq_true] at hi hc <;>
    rcases hc with hc | hc <;> simp [Host.holds, hi, hc]

/-- a connection that is to be watched for other conditions is put into its slot and is so, or the host refuses and only
the slot is set -/
theorem rearm_cases (hs : c.host.Sound) (hw : c.host.watch? conn.descriptor = some (conn.watch key))
    (hk : Token.base + key < UInt64.size) (armed : Bool) :
    (∃ h, Host.Undisturbed c.host h ∧ ¬ c.host.Obliging ∧
        (c.rearm key conn armed).state =
          (c.put key conn).onHost fun _ => h) ∨
      ∃ h h' q, Host.Undisturbed c.host h ∧ Host.Spares (some conn.descriptor) h h' ∧
        h.queue ⊆ q ∧ (h.holds conn.descriptor ({ conn with armed } : Connection H).interest → conn.descriptor ∈ q) ∧
        h' = { h with
          refusals := h.refusals.changed conn.descriptor
          watches := Host.rewatched h.watches conn.descriptor (conn.watch key).word
            ({ conn with armed } : Connection H).interest
          queue := q } ∧
        (c.rearm key conn armed).state =
          (c.put key { conn with armed }).onHost fun _ => h' := by
  have hu := Host.undisturbed_elapse hs
  have hw' : c.host.elapse.watch? conn.descriptor = some (conn.watch key) := by
    rw [← hw, Host.watch?, Host.watch?, hu.watches]
  have hword : (Token.connection key).word? = some (conn.watch key).word := by simp [Token.word?, hk, Connection.watch]
  rcases Host.rewatch_cases hu.sound hw' (conn.watch key).word ({ conn with armed } : Connection H).interest with
    ⟨code, hr, hobl, hu'⟩ | ⟨hr, hsp, q, hsub, hq, he⟩
  · left
    refine ⟨_, hu.trans hu', fun ho => hobl (hu.obliging ho), ?_⟩
    simp only [rearm, Notifier.reregister, hword, Connection.interest] at hr ⊢
    rw [hr]
    rfl
  · right
    refine ⟨_, _, q, hu, hsp, hsub, hq, he, ?_⟩
    simp only [rearm, Notifier.reregister, hword, Connection.interest] at hr ⊢
    rw [hr]
    rfl

/-- another connection keeps its place, and its descriptor is another -/
theorem Sound.put_other (hset : (c.put key conn).Sound fixed batch) (hg : c.get? key = some old) {k : Nat}
    {x : Connection H} (hne : k ≠ key) (hx : c.get? k = some x) :
    (c.put key conn).get? k = some x ∧ some conn.descriptor ≠ some x.descriptor := by
  have hconn : (c.put key conn).get? key = some conn := by rw [get?_put hg, if_pos rfl]
  have hx' : (c.put key conn).get? k = some x := by rw [get?_put hg, if_neg hne, hx]
  exact ⟨hx', fun hd => hne (hset.slot_unique hx' hconn (Option.some.inj hd).symm)⟩

/-- a connection that was put into its slot rightly may be watched for other conditions -/
theorem Sound.rearm (ht : c.slots.Tidy) (hg : c.get? key = some old)
    (hset : (c.put key conn).Sound fixed batch) (armed : Bool) :
    (c.rearm key conn armed).state.Sound fixed batch := by
  have hconn : (c.put key conn).get? key = some conn := by
    rw [get?_put hg, if_pos rfl]
  rcases rearm_cases (c := c) hset.host (hset.watch?_eq hconn) (hset.words hconn) armed with
    ⟨h, hu, -, he⟩ | ⟨h, h', q, hu, hsp, hsub, hq, hh', he⟩
  · exact he ▸ hset.onHost hu
  rw [he]
  have hafter := hset.onHost hu
  have hget := get?_put hg ({ conn with armed } : Connection H)
  have hdevice : ∀ d, h'.device? d = h.device? d := fun d => by rw [hh']; rfl
  obtain ⟨pre, post, -, hlist⟩ := put_focus hg
  refine ⟨ht.set key _, hsp.sound, fun {k x} hx => ?_, fun {k x} hx => ?_, ?_, ?_, fun {k x} hx => ?_⟩
  · rw [onHost_get?, hget] at hx
    simp only [onHost_host, hdevice]
    split at hx
    · cases hx
      have hfar := hafter.far hconn
      exact hfar
    · next hne => exact hafter.far (hset.put_other hg hne hx).1
  · rw [onHost_get?, hget] at hx
    split at hx
    · next hk => exact hk ▸ hafter.words hconn
    · next hne => exact hafter.words (hset.put_other hg hne hx).1
  · have hbefore := hafter.watches
    rw [onHost_slots, hlist, List.map_append, List.map_cons, ← List.append_assoc] at hbefore
    have hw := perm_rewatched (hbefore.trans List.perm_middle) hafter.host.watches (conn.watch key).word
      ({ conn with armed } : Connection H).interest
    rw [onHost_slots, hlist, List.map_append, List.map_cons, ← List.append_assoc, onHost_host, hh']
    exact hw.trans List.perm_middle.symm
  · have hledger := hafter.ledger
    simpa [Slots.size, hlist] using hledger
  · rw [onHost_get?, hget] at hx
    split at hx
    · next hk =>
      cases hx
      rw [hk]
      intro direction hp hi hcalls
      have hsame : (h'.conditions conn.descriptor) = h.conditions conn.descriptor := by
        rw [hh']
        rfl
      rw [onHost_host, hsame] at hcalls
      have hqueue : h'.queue = q := by rw [hh']
      cases direction with
      | write => exact .inl (hqueue ▸ hq (holds_of_calls hi hcalls))
      | read =>
        refine (hafter.told hconn .read hp conn.covers_read hcalls).imp_left fun hd => ?_
        exact hqueue ▸ hsub hd
    · next hne =>
      obtain ⟨hx', hd⟩ := hset.put_other hg hne hx
      obtain ⟨id, hfar⟩ := hafter.far hx'
      exact (hafter.told hx').calm (hafter.watch?_eq hx') (hsp.calm hd hfar)

/-- changing what is watched leaves every far end what it is -/
theorem rearm_far (conn : Connection H) (hs : c.host.Sound) (hw : c.host.watch? conn.descriptor = some (conn.watch key))
    (hk : Token.base + key < UInt64.size) (armed : Bool) {d : Descriptor} {id : Nat}
    (hd : c.host.device? d = some (.stream id .far)) :
    (c.rearm key conn armed).state.host.device? d = some (.stream id .far) := by
  rcases rearm_cases hs hw hk armed with ⟨h, hu, -, he⟩ | ⟨h, h', q, hu, -, -, -, hh', he⟩
  · rw [he]
    exact (hu.calm (by simp) hd).device.trans hd
  · rw [he, onHost_host, hh']
    exact (hu.calm (by simp) hd).device.trans hd

theorem Arming.rearm (ha : c.Arming) (hg : c.get? key = some old) (hc : (c.put key conn).Sound fixed batch)
    {armed : Bool} (hp : conn.parked .write → armed) : (c.rearm key conn armed).state.Arming := by
  have hconn : (c.put key conn).get? key = some conn := by rw [get?_put hg, if_pos rfl]
  rcases rearm_cases (c := c) hc.host (hc.watch?_eq hconn) (hc.words hconn) armed with
    ⟨h, -, hobl, -⟩ | ⟨h, h', q, hu, hsp, -, -, -, he⟩
  · exact absurd ha.obliging hobl
  · rw [he]
    refine ⟨ha.set, hsp.obliging (hu.obliging ha.obliging), fun {k x} hx hpark => ?_⟩
    rw [onHost_get?, get?_put hg] at hx
    split at hx
    · cases hx
      exact hp hpark
    · exact ha.armed hx hpark

end Connections

end EventServer
