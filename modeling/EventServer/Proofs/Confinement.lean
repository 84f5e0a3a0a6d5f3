/-
Operations stay within their slot.

Taking a connection out, a report for it, reading, writing and shutting it down are each about one slot. If nothing is
live there, nothing at all happens (`Request.spurned`), also if a task still has a transport to it. If a connection is,
then what happens is on its descriptor and its stream (`Within`, `within_after`), and the rest of the host is as others
alone have made it; so every other connection keeps its record, its watch, its descriptor, and its stream but for what
others do (`Confined`), and what is woken was parked in that slot.

For that the descriptors of the table have to be apart. `Lodged` is the invariant: no two connections are ends of one
stream, and none is a listener. Every request keeps it (`Lodged.after`) if the environment is `Orderly`, which asks of
an insertion that the descriptor is not the other's, and of a change of the host that it does not change what the live
connections are. A talk of a task is some operations on its slot, and confined like each of them (`Within.talk`).
-/
import EventServer.Proofs.Bystanders
import EventServer.Proofs.Refusal
import EventServer.Proofs.Registration
import EventServer.Proofs.Turning

namespace EventServer

variable {H : Type} {v : Aside} {fixed : List Watch}

/-! ## The notifier -/

namespace Notifier

open Host

variable {n : Notifier}

theorem beside_register (hv : SetAside v n.host) (token : Token) (interest : Interest) :
    Beside v n.host (n.register v.descriptor token interest).state.host := by
  unfold register
  cases token.word? with
  | none => exact .refl hv
  | some word =>
    have hturn := beside_elapse hv
    have hwatch := hturn.trans (beside_watch hturn.setAside word interest)
    dsimp only
    split <;> exact hwatch

theorem beside_reregister (hv : SetAside v n.host) (token : Token) (interest : Interest) :
    Beside v n.host (n.reregister v.descriptor token interest).state.host := by
  unfold reregister
  cases token.word? with
  | none => exact .refl hv
  | some word =>
    have hturn := beside_elapse hv
    have hwatch := hturn.trans (beside_rewatch hturn.setAside word interest)
    dsimp only
    split <;> exact hwatch

theorem beside_deregister (hv : SetAside v n.host) : Beside v n.host (n.deregister v.descriptor).1.host := by
  have hturn := beside_elapse hv
  have hunwatch := hturn.trans (beside_unwatch hturn.setAside)
  unfold deregister
  dsimp only
  split <;> exact hunwatch

end Notifier

namespace Connections

variable {c c' c'' : Connections H} {key k : Nat} {conn old : Connection H} {request : Request H} {d : Descriptor}

/-! ## One slot -/

/-- the slot that a request is about, unless it takes something in or is about the host -/
def Request.key? : Request H → Option Nat
  | .remove key | .fire key _ | .recv key _ _ | .send key _ _ | .shutdown key => some key
  | .insert .. | .onHost _ => none

/-- a step of the table that concerns one slot, and of the host only what is left aside -/
structure Within (v : Aside) (key : Nat) (c c' : Connections H) : Prop where
  entries : ∀ {k}, k ≠ key → c'.get? k = c.get? k
  own : ∀ {conn'}, c'.get? key = some conn' → ∃ conn, c.get? key = some conn ∧ conn'.descriptor = conn.descriptor
  host : Host.Beside v c.host c'.host

theorem Within.refl (hv : Host.SetAside v c.host) (key : Nat) : Within v key c c :=
  ⟨fun _ => rfl, fun hg => ⟨_, hg, rfl⟩, .refl hv⟩

theorem Within.trans (h : Within v key c c') (h' : Within v key c' c'') : Within v key c c'' where
  entries hk := (h'.entries hk).trans (h.entries hk)
  own hg := by
    obtain ⟨conn', hg', hd'⟩ := h'.own hg
    obtain ⟨conn, hg, hd⟩ := h.own hg'
    exact ⟨conn, hg, hd'.trans hd⟩
  host := h.host.trans h'.host

theorem within_notifier {n : Notifier} (hb : Host.Beside v c.host n.host) (key : Nat) :
    Within v key c { c with notifier := n } := ⟨fun _ => rfl, fun hg => ⟨_, hg, rfl⟩, hb⟩

theorem within_onHost {h : Host} (hb : Host.Beside v c.host h) (key : Nat) : Within v key c (c.onHost fun _ => h) :=
  within_notifier hb key

theorem within_put (hv : Host.SetAside v c.host) (hg : c.get? key = some old)
    (hd : conn.descriptor = old.descriptor) : Within v key c (c.put key conn) where
  entries hk := by rw [get?_put hg, if_neg hk]
  own hg' := by
    rw [get?_put hg, if_pos rfl] at hg'
    cases hg'
    exact ⟨old, hg, hd⟩
  host := .refl hv

theorem within_rearm (hv : Host.SetAside v c.host) (hg : c.get? key = some old)
    (hd : conn.descriptor = old.descriptor) (hown : old.descriptor = v.descriptor) (armed : Bool) :
    Within v key c (c.rearm key conn armed).state := by
  have hcall := Notifier.beside_reregister hv (.connection key) (if armed then writingInterest else idleInterest)
  have hstep := within_notifier hcall key
  rw [← hown, ← hd] at hstep
  unfold Connections.rearm
  dsimp only
  split <;> exact hstep.trans (within_put hstep.host.setAside hg hd)

/-- a request about the slot of a live connection is about that slot and that descriptor -/
theorem within_after (hv : Host.SetAside v c.host) (hg : c.get? key = some conn)
    (hown : conn.descriptor = v.descriptor) (hk : request.key? = some key) : Within v key c (c.after request) := by
  cases request with
  | insert | onHost => cases hk
  | remove k =>
    cases hk
    have hleft := Notifier.beside_deregister hv
    have hclosed := hleft.trans (Host.beside_close hleft.setAside)
    rw [← hown] at hclosed
    simp only [Connections.after, Connections.remove, hg]
    have hget := Slots.get?_erase c.slots key
    refine ⟨fun hk => ?_, fun hg' => ?_, hclosed⟩
    · exact (hget _).trans (if_neg hk)
    · rw [get?, hget, if_pos rfl] at hg'
      cases hg'
  | fire k r =>
    cases hk
    simp only [Connections.after, Connections.fire, hg]
    split
    · exact within_rearm hv hg (by rfl) hown false
    · exact within_put hv hg (by rfl)
  | recv k handle count =>
    cases hk
    have hstep := within_onHost (Host.beside_recv hv count) key
    rw [← hown] at hstep
    simp only [Connections.after, Connections.recv, hg]
    split
    · exact hstep
    · exact hstep
    · exact hstep.trans (within_put hstep.host.setAside hg rfl)
  | send k handle bytes =>
    cases hk
    have hstep := within_onHost (Host.beside_send hv bytes) key
    rw [← hown] at hstep
    simp only [Connections.after, Connections.send, hg]
    split
    · exact hstep
    · exact hstep
    · dsimp only
      split
      · exact hstep.trans (within_rearm hstep.host.setAside hg (by rfl) hown true)
      · exact hstep.trans (within_put hstep.host.setAside hg rfl)
  | shutdown k =>
    cases hk
    have hstep := within_onHost (Host.beside_finish hv) key
    rw [← hown] at hstep
    simp only [Connections.after, Connections.shutdown, hg]
    exact hstep

/-! ## Slots that are not in use -/

/-- what a request about a slot that is not in use is answered with -/
def Request.spurned : Request H → Answer H × List Note
  | .remove _ => (.removed false, [])
  | .fire key _ => (.woken [], [.staleReadiness key])
  | .recv key _ _ => (.received (.ready (.error (released key))), [])
  | .send key _ _ => (.sent (.ready (.error (released key))), [])
  | .shutdown key => (.ended (.error (released key)), [])
  | .insert .. | .onHost _ => (.changed, [])

/-- nothing happens in a slot that is not in use, nor anywhere else -/
theorem after_of_dead (hg : c.get? key = none) (hk : request.key? = some key) :
    c.after request = c ∧ c.answer request = request.spurned := by
  cases request with
  | insert | onHost => cases hk
  | remove k =>
    cases hk
    simp [Connections.after, Connections.answer, Connections.remove, hg, Request.spurned]
  | fire k r =>
    cases hk
    simp [Connections.after, Connections.answer, Connections.fire, hg, Request.spurned]
  | recv k handle count =>
    cases hk
    simp [Connections.after, Connections.answer, Connections.recv, hg, Request.spurned]
  | send k handle bytes =>
    cases hk
    simp [Connections.after, Connections.answer, Connections.send, hg, Request.spurned]
  | shutdown k =>
    cases hk
    simp [Connections.after, Connections.answer, Connections.shutdown, hg, Request.spurned]

/-! ## Connections apart from each other -/

/-- the table's view of what is watched is right, and no two connections are ends of one stream -/
structure Lodged (fixed : List Watch) (c : Connections H) : Prop extends c.Enrolled fixed where
  offered : ∀ {key conn}, c.get? key = some conn → c.host.Offered conn.descriptor
  apart : ∀ {k k' conn conn' i}, c.get? k = some conn → c.get? k' = some conn' → k' ≠ k →
    c.host.streamOf? conn.descriptor = some i → c.host.streamOf? conn'.descriptor ≠ some i

/-- the environment of a table whose connections are to be apart: what is taken in is known to the host, no listener and
no end of a stream that a connection is on, and no change of the host alters what the connections are -/
def Orderly (c : Connections H) : Request H → Prop
  | .insert d peer => c.Allowed (.insert d peer) ∧ c.host.Offered d ∧
      ∀ entry ∈ c.slots.toList, ∀ i ∈ c.host.streamOf? d, c.host.streamOf? entry.2.descriptor ≠ some i
  | .onHost change => c.Allowed (.onHost change) ∧
      (∀ entry ∈ c.slots.toList,
        (change c.host).device? entry.2.descriptor = c.host.device? entry.2.descriptor) ∧
      c.host.devices.length ≤ (change c.host).devices.length ∧ c.host.streams.length ≤ (change c.host).streams.length
  | .remove _ | .fire .. | .recv .. | .send .. | .shutdown _ => True

theorem Orderly.allowed (ho : c.Orderly request) : c.Allowed request := by
  cases request with
  | insert | onHost => exact ho.1
  | remove | fire | recv | send | shutdown => trivial

theorem Enrolled.stands (hc : c.Enrolled fixed) (hg : c.get? key = some conn) : c.host.Stands conn.descriptor :=
  hc.guarded.stands _ (hc.mem_watches hg)

/-- no two connections are on one descriptor -/
theorem Enrolled.descriptor_ne (hc : c.Enrolled fixed) (hg : c.get? key = some conn) (hg' : c.get? k = some old)
    (hk : k ≠ key) : old.descriptor ≠ conn.descriptor := by
  intro hd
  have hsame := List.inj_on_of_nodup_map hc.guarded.once (hc.mem_watches hg') (hc.mem_watches hg) hd
  have hwords := congrArg (fun w : Watch => w.word.toNat) hsame
  simp only [Connection.watch, UInt64.toNat_ofNat_of_lt' (hc.words hg), UInt64.toNat_ofNat_of_lt' (hc.words hg')]
    at hwords
  omega

/-- a descriptor that is another one, and not on the same stream, is elsewhere -/
theorem not_mem_aside {e : Descriptor} (hne : e ≠ d)
    (hstream : ∀ {i}, c.host.streamOf? d = some i → c.host.streamOf? e ≠ some i) : e ∉ (c.host.aside d).ends := by
  intro hm
  rcases List.mem_cons.1 hm with he | hm
  · exact hne he
  · obtain ⟨-, hsame⟩ := List.mem_filter.1 hm
    rw [Bool.and_eq_true, beq_iff_eq] at hsame
    obtain ⟨i, hi⟩ := Option.isSome_iff_exists.1 hsame.1
    exact hstream hi (hsame.2.trans hi)

theorem Lodged.elsewhere (hc : c.Lodged fixed) (hg : c.get? key = some conn) (hg' : c.get? k = some old)
    (hk : k ≠ key) : old.descriptor ∉ (c.host.aside conn.descriptor).ends :=
  not_mem_aside (hc.descriptor_ne hg hg' hk) fun hi => hc.apart hg hg' hk hi

/-- something happened to one slot and one descriptor, with all connections elsewhere -/
theorem Lodged.beside (hc : c.Lodged fixed) (henrolled : c'.Enrolled fixed) (ho : c.host.Offered d)
    (helse : ∀ {k conn}, k ≠ key → c.get? k = some conn → conn.descriptor ∉ (c.host.aside d).ends)
    (hhost : Host.Beside (c.host.aside d) c.host c'.host) (hentries : ∀ {k}, k ≠ key → c'.get? k = c.get? k)
    (hown : ∀ {conn}, c'.get? key = some conn → conn.descriptor = d) : c'.Lodged fixed := by
  obtain ⟨turns, hspared⟩ := hhost.spares hc.guarded
  have hother : ∀ {k conn}, k ≠ key → c'.get? k = some conn → c.get? k = some conn ∧
      Host.Spared turns c.host c'.host conn.descriptor ∧ c'.host.Offered conn.descriptor := fun {k conn} hk hg => by
    have hg := hentries hk ▸ hg
    exact ⟨hg, hspared (hc.stands hg) (hc.offered hg) (helse hk hg)⟩
  -- a connection that was there is on the stream it was on, and the one of the slot is on no other than the descriptor
  have hstream : ∀ {conn i}, c'.get? key = some conn → c'.host.streamOf? conn.descriptor = some i →
      c.host.streamOf? d = some i := fun {conn i} hg hi => by
    obtain ⟨side, hd⟩ := Host.streamOf?_eq_some.1 hi
    exact hhost.setAside.own (hown hg ▸ hd)
  have hkept : ∀ {e i}, Host.Spared turns c.host c'.host e → c'.host.streamOf? e = some i →
      c.host.streamOf? e = some i := fun {e i} hsp hi => by
    obtain ⟨side, hd⟩ := Host.streamOf?_eq_some.1 hi
    exact Host.streamOf?_eq_some.2 ⟨side, hsp.device ▸ hd⟩
  have hclash : ∀ {k conn i}, k ≠ key → c.get? k = some conn → c.host.streamOf? d = some i →
      c.host.streamOf? conn.descriptor ≠ some i := fun {k conn i} hk hg hi hi' => by
    obtain ⟨side, hd⟩ := Host.streamOf?_eq_some.1 hi'
    exact helse hk hg (ho.setAside.ends hd hi)
  refine ⟨henrolled, fun {k conn} hg => ?_, fun {k k' conn conn' i} hg hg' hk hi hi' => ?_⟩
  · by_cases he : k = key
    · exact hown (he ▸ hg) ▸ Host.Offered.of_setAside hhost.setAside
    · exact (hother he hg).2.2
  · by_cases he : k = key
    · subst he
      obtain ⟨hg', hsp', -⟩ := hother hk hg'
      exact hclash hk hg' (hstream hg hi) (hkept hsp' hi')
    · obtain ⟨hg, hsp, -⟩ := hother he hg
      by_cases he' : k' = key
      · subst he'
        exact hclash he hg (hstream hg' hi') (hkept hsp hi)
      · obtain ⟨hg', hsp', -⟩ := hother he' hg'
        exact hc.apart hg hg' hk (hkept hsp hi) (hkept hsp' hi')

theorem Lodged.within (hc : c.Lodged fixed) (hg : c.get? key = some conn)
    (hw : Within (c.host.aside conn.descriptor) key c c') (henrolled : c'.Enrolled fixed) : c'.Lodged fixed := by
  refine hc.beside henrolled (hc.offered hg) (fun hk hg' => hc.elsewhere hg hg' hk) hw.host hw.entries fun hg' => ?_
  obtain ⟨conn', hsame, hd⟩ := hw.own hg'
  rw [hg] at hsame
  cases hsame
  exact hd

theorem Lodged.insert (hc : c.Lodged fixed) {peer : Address} (ho : c.Orderly (.insert d peer))
    (henrolled : (c.insert d peer).state.Enrolled fixed) : (c.insert d peer).state.Lodged fixed := by
  obtain ⟨⟨hfresh, -⟩, hoffered, hapart⟩ := ho
  have hv := hoffered.setAside
  have hregister := Notifier.beside_register hv (.connection c.slots.nextKey) idleInterest
  have hdead : c.get? c.slots.nextKey = none := Slots.get?_nextKey hc.tidy
  have helse : ∀ {k conn}, k ≠ c.slots.nextKey → c.get? k = some conn →
      conn.descriptor ∉ (c.host.aside d).ends := fun _ hg => by
    refine not_mem_aside (fun hd => ?_) fun hi => hapart _ (mem_toList.2 hg) _ hi
    exact Host.not_mem_watches hfresh _ (hc.mem_watches hg) hd
  refine hc.beside henrolled hoffered helse ?_ (fun {k} hk => ?_) fun {conn} hg => ?_
  · unfold Connections.insert
    dsimp only
    split
    · exact hregister
    · exact hregister.trans (Host.beside_close hregister.setAside)
  · unfold Connections.insert
    dsimp only
    split
    · exact (Slots.get?_insert hc.tidy _ k).trans (if_neg hk)
    · rfl
  · unfold Connections.insert at hg
    dsimp only at hg
    split at hg
    · rw [get?, Slots.get?_insert hc.tidy, if_pos rfl] at hg
      cases hg
      rfl
    · exact absurd (hdead.symm.trans hg) (by simp)

/-- what a connection is on is known as long as the host keeps its devices and streams -/
theorem Lodged.onHost (hc : c.Lodged fixed) {change : Host → Host} (ho : c.Orderly (.onHost change))
    (henrolled : (c.onHost change).Enrolled fixed) : (c.onHost change).Lodged fixed := by
  obtain ⟨-, hdevices, hgiven, hknown⟩ := ho
  have hdevice : ∀ {key conn}, c.get? key = some conn →
      (change c.host).device? conn.descriptor = c.host.device? conn.descriptor :=
    fun hg => hdevices _ (mem_toList.2 hg)
  have hstream : ∀ {key conn}, c.get? key = some conn →
      (change c.host).streamOf? conn.descriptor = c.host.streamOf? conn.descriptor :=
    fun hg => by rw [Host.streamOf?, Host.streamOf?, hdevice hg]
  refine ⟨henrolled, fun {key conn} hg => ?_, fun {k k' conn conn' i} hg hg' hk hi hi' => ?_⟩
  · obtain ⟨hlt, hid, hsilent⟩ := hc.offered hg
    exact ⟨Nat.lt_of_lt_of_le hlt hgiven, fun i hi => Nat.lt_of_lt_of_le (hid i (hstream hg ▸ hi)) hknown,
      (congrArg _ (hdevice hg)).trans hsilent⟩
  · exact hc.apart hg hg' hk (hstream hg ▸ hi) (hstream hg' ▸ hi')

theorem Lodged.after (hc : c.Lodged fixed) (ho : c.Orderly request) : (c.after request).Lodged fixed := by
  have henrolled := hc.toEnrolled.after ho.allowed
  have hslot : request.key?.isSome → (c.after request).Lodged fixed := fun hk => by
    obtain ⟨key, hk⟩ := Option.isSome_iff_exists.1 hk
    cases hg : c.get? key with
    | none => rwa [(after_of_dead hg hk).1]
    | some conn => exact hc.within hg (within_after (hc.offered hg).setAside hg rfl hk) henrolled
  cases request with
  | insert d peer => exact hc.insert ho henrolled
  | onHost change => exact hc.onHost ho henrolled
  | remove | fire | recv | send | shutdown => exact hslot rfl

theorem lodged_empty {host : Host} (hh : host.Guarded) (armWrites : Bool) :
    (empty { host } armWrites : Connections H).Lodged host.watches where
  toEnrolled := enrolled_empty hh armWrites
  offered {_ _} hg := by cases hg
  apart {_ _ _ _ _} hg := by cases hg

/-! ## Confinement -/

/-- a step leaves every slot but one as it is, with what the connections there are on -/
structure Confined (key : Nat) (c c' : Connections H) : Prop where
  entries : ∀ {k}, k ≠ key → c'.get? k = c.get? k
  /-- the devices and the watches of other connections stay, and so do their streams but for what others do -/
  sockets : ∃ turns, ∀ {k conn}, k ≠ key → c.get? k = some conn →
    Host.Spared turns c.host c'.host conn.descriptor

theorem Confined.refl (key : Nat) (c : Connections H) : c.Confined key c :=
  ⟨fun _ => rfl, 0, fun _ _ => ⟨rfl, rfl, fun _ _ => rfl⟩⟩

theorem Lodged.confined (hc : c.Lodged fixed) (hg : c.get? key = some conn)
    (hw : Within (c.host.aside conn.descriptor) key c c') : c.Confined key c' := by
  obtain ⟨turns, hspared⟩ := hw.host.spares hc.guarded
  exact ⟨hw.entries, turns, fun hk hg' => (hspared (hc.stands hg') (hc.offered hg') (hc.elsewhere hg hg' hk)).1⟩

/-- one operation after others on the same slot -/
theorem Within.next (hw : Within v key c c') (hg : c.get? key = some conn) (hown : conn.descriptor = v.descriptor)
    (hk : request.key? = some key) : Within v key c (c'.after request) := by
  cases hg' : c'.get? key with
  | none => rwa [(after_of_dead hg' hk).1]
  | some conn' =>
    obtain ⟨conn', hsame, hd⟩ := hw.own hg'
    rw [hg] at hsame
    cases hsame
    exact hw.trans (within_after hw.host.setAside hg' (hd.trans hown) hk)

/-- whatever a task does through its transport is about its slot -/
theorem Within.talk {α : Type} (wrap : Handle → H) (self : Handle) {place : Place} {site : Site H}
    (hw : Within v place.slot c site.connections) (hg : c.get? place.slot = some conn)
    (hown : conn.descriptor = v.descriptor) (talk : Http.Talk α) :
    Within v place.slot c (talk.run (Engine.transport wrap self place) site).1.connections := by
  refine Http.Talk.run_keeps (I := fun s : Site H => Within v place.slot c s.connections) (fun count hw => ?_)
    (fun bytes hw => ?_) (fun hw => ?_) (fun _ hw => hw) talk hw
  · exact hw.next hg hown (show Request.key? (.recv place.slot (wrap self) count) = some place.slot from rfl)
  · exact hw.next hg hown (show Request.key? (.send place.slot (wrap self) bytes) = some place.slot from rfl)
  · exact hw.next hg hown (show Request.key? (.shutdown place.slot) = some place.slot from rfl)

/-- the handles that are parked in a slot -/
def parkedIn (c : Connections H) (key : Nat) : List H := ((c.get? key).map Connection.handles).getD []

/-- what is woken was parked in the slot that the request is about -/
theorem woken_sublist (c : Connections H) (hk : request.key? = some key) :
    (c.woken request).Sublist (c.parkedIn key) := by
  cases request with
  | insert | onHost => cases hk
  | remove | recv | send | shutdown => exact List.nil_sublist _
  | fire k r =>
    cases hk
    simp only [Connections.woken, Connections.fire, parkedIn]
    cases hg : c.get? key with
    | none => exact List.nil_sublist _
    | some conn =>
      refine List.Sublist.append ?_ ?_
      · split
        · exact .refl _
        · exact List.nil_sublist _
      · split
        · exact .refl _
        · exact List.nil_sublist _

/-- nothing is in a slot: whatever is asked there changes nothing at all and is refused, and so is all that a task does
that has a transport to it still -/
structure Inert (key : Nat) (c : Connections H) : Prop where
  request : ∀ {request : Request H}, request.key? = some key →
    c.after request = c ∧ c.answer request = request.spurned
  notConnected : (released key).kind = .notConnected
  transport : ∀ (wrap : Handle → H) (self : Handle) {place : Place} {site : Site H}, place.slot = key →
    site.connections = c → (∀ count, (Engine.transport wrap self place).recv site count =
        (site, .ready (.error (released key)))) ∧
      (∀ bytes, (Engine.transport wrap self place).send site bytes = (site, .ready (.error (released key)))) ∧
      (Engine.transport wrap self place).shutdown site = (site, .error (released key))
  talk : ∀ {α : Type} (wrap : Handle → H) (self : Handle) {place : Place} {site : Site H} (talk : Http.Talk α),
    place.slot = key → site.connections = c →
      (talk.run (Engine.transport wrap self place) site).1.connections = c

theorem inert_of_dead (hg : c.get? key = none) : c.Inert key where
  request hk := after_of_dead hg hk
  notConnected := rfl
  transport wrap self {place site} hplace hsite := by
    subst hplace hsite
    refine ⟨fun count => ?_, fun bytes => ?_, ?_⟩
    · simp [Engine.transport, Connections.recv, hg, Site.after, Site.record]
    · simp [Engine.transport, Connections.send, hg, Site.after, Site.record]
    · simp [Engine.transport, Connections.shutdown, hg]
  talk {_} wrap self {place site} talk hplace hsite := by
    subst hplace
    have hstill : ∀ {s : Site H} (request : Request H), request.key? = some place.slot → s.connections = c →
        s.connections.after request = c :=
      fun request hk hs => (after_of_dead (hs ▸ hg) hk).1.trans hs
    refine Http.Talk.run_keeps (I := fun s : Site H => s.connections = c) (fun count hs => ?_)
      (fun bytes hs => ?_) (fun hs => ?_) (fun _ hs => hs) talk hsite
    · exact hstill (.recv place.slot (wrap self) count) rfl hs
    · exact hstill (.send place.slot (wrap self) bytes) rfl hs
    · exact hstill (.shutdown place.slot) rfl hs

/-- what is asked of a slot stays within it -/
structure StaysWithin (key : Nat) (c : Connections H) : Prop where
  confined : ∀ {request : Request H}, request.key? = some key → c.Confined key (c.after request)
  woken : ∀ {request : Request H}, request.key? = some key → (c.woken request).Sublist (c.parkedIn key)
  talk : ∀ {α : Type} (wrap : Handle → H) (self : Handle) {place : Place} {site : Site H} (talk : Http.Talk α),
    place.slot = key → site.connections = c →
      c.Confined key (talk.run (Engine.transport wrap self place) site).1.connections
  inert : c.get? key = none → c.Inert key

theorem Lodged.staysWithin (hc : c.Lodged fixed) (key : Nat) : c.StaysWithin key where
  confined {request} hk := by
    cases hg : c.get? key with
    | none => exact (after_of_dead hg hk).1.symm ▸ .refl key c
    | some conn => exact hc.confined hg (within_after (hc.offered hg).setAside hg rfl hk)
  woken hk := c.woken_sublist hk
  talk {_} wrap self {place site} talk hplace hsite := by
    subst hplace
    cases hg : c.get? place.slot with
    | none => exact ((inert_of_dead hg).talk wrap self talk rfl hsite).symm ▸ .refl _ c
    | some conn =>
      have hv := (hc.offered hg).setAside
      have hfirst : Within (c.host.aside conn.descriptor) place.slot c site.connections :=
        hsite.symm ▸ Within.refl hv place.slot
      exact hc.confined hg (hfirst.talk wrap self hg rfl talk)
  inert := inert_of_dead

/-- **Operations stay within their slot.** A table was just made, and any requests were made of it, on live slots and on
others and whatever the kernel answered, while others did what they liked. Then taking out, reporting, reading, writing
and shutting down in one slot leave all other connections alone: their records with what is parked on them and marked,
their watches and what they are on; no handle is woken that was not parked in the slot; and if nothing is live there,
nothing changes at all and the answer says so, to a transport that a task still has to it as well. -/
theorem operations_stay_within {host : Host} (hh : host.Guarded) (armWrites : Bool) {requests : List (Request H)}
    (ho : Throughout Orderly (empty { host } armWrites) requests) (key : Nat) :
    (requests.foldl after (empty { host } armWrites)).StaysWithin key :=
  (ho.keeps Lodged.after (lodged_empty hh armWrites)).staysWithin key

end Connections

/-! ## Slots to look at -/

namespace Sample

/-- three streams; the client of the second one writes before the third call, and closes before the eighth -/
def streets (h : Host) : Host :=
  { h with
    streams := List.replicate 3 { family := .inet }
    devices := (List.range 3).flatMap fun id => [some (.stream id .near), some (.stream id .far)]
    others := [[], [], [.send 2 [1, 2]], [], [], [], [], [.close 2 false]] }

/-- two far ends are taken in and read from; the first goes, and the third takes its slot -/
def movingIn : List (Connections.Request Nat) :=
  [.onHost streets, .insert 1 ⟨"c0"⟩, .insert 3 ⟨"c1"⟩, .recv 0 7 16, .recv 1 8 1, .recv 1 8 16, .recv 1 8 16,
    .remove 0, .insert 5 ⟨"c2"⟩, .recv 0 9 16]

end Sample

namespace Connections

instance (h : Host) (d : Descriptor) : Decidable (h.Offered d) :=
  decidable_of_iff (d < h.devices.length ∧ (∀ id ∈ h.streamOf? d, id < h.streams.length) ∧
      (h.device? d).all (fun device => match device with | .listener _ => false | _ => true) = true)
    ⟨fun ⟨given, known, silent⟩ => ⟨given, known, silent⟩, fun ⟨given, known, silent⟩ => ⟨given, known, silent⟩⟩

instance (c : Connections H) : (request : Request H) → Decidable (c.Orderly request)
  | .insert _ _ => inferInstanceAs (Decidable (_ ∧ _ ∧ _))
  | .onHost _ => inferInstanceAs (Decidable (_ ∧ _ ∧ _ ∧ _))
  | .remove _ | .fire .. | .recv .. | .send .. | .shutdown _ => isTrue trivial

/-- two slots are live, with a task parked in each, and a third was never used -/
theorem operations_stay_within_moved :
    (Sample.movingIn.foldl after (empty { host := {} } true)).StaysWithin 0 ∧
      (Sample.movingIn.foldl after (empty { host := {} } true)).StaysWithin 2 ∧
      (Sample.movingIn.foldl after (empty { host := {} } true)).parkedIn 0 = [9] ∧
      (Sample.movingIn.foldl after (empty { host := {} } true)).parkedIn 1 = [8] ∧
      ((Sample.movingIn.foldl after (empty { host := {} } true)).get? 2).isNone := by
  have hguarded : Host.Guarded {} := ⟨.nil, by simp⟩
  have ho : Throughout Orderly (empty { host := {} } true) Sample.movingIn := by decide +kernel
  exact ⟨operations_stay_within hguarded true ho 0, operations_stay_within hguarded true ho 2, by decide +kernel⟩

end Connections

end EventServer
