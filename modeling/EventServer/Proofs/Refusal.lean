/-
Refused insertions. Taking a connection in fails if the kernel does not watch its descriptor: it is watched already,
cannot be watched, or is bad. The slot was only looked at by then, so nothing of the table has changed, and the
descriptor is closed (`insert_refused`).

What would have been without the attempt is `idle`: others do what they do, and the table does nothing. After a refusal
the table is that one with the descriptor closed, so whatever comes then is as if it had been closed without an attempt.
Closing it is felt by nobody but its peer: two tables whose hosts `Agree` but for the descriptor and its stream answer
every request elsewhere alike (`Agree.after`), and so every sequence of them (`Agree.answers`).
-/
import EventServer.Proofs.Elsewhere

namespace EventServer

variable {H : Type} {v : Aside} {d e : Descriptor} {key : Nat}

/-- two states that are related, with the same value and the same notes -/
structure Noted.Same {σ α : Type} (R : σ → σ → Prop) (r r' : Noted σ α) : Prop where
  state : R r.state r'.state
  value : r'.value = r.value
  notes : r'.notes = r.notes

/-! ## The notifier -/

/-- two notifiers with the same ledger, whose hosts agree -/
structure Notifier.Agree (v : Aside) (n n' : Notifier) : Prop where
  host : Host.Agree v n.host n'.host
  registrations : n'.registrations = n.registrations
  deregistrations : n'.deregistrations = n.deregistrations

namespace Notifier.Agree

variable {n n' : Notifier}

theorem register (ha : Agree v n n') (he : e ∉ v.ends) (token : Token) (interest : Interest) :
    Noted.Same (Agree v) (n.register e token interest) (n'.register e token interest) := by
  unfold Notifier.register
  cases token.word? with
  | none => exact ⟨ha, rfl, rfl⟩
  | some word =>
    have hcall := ha.host.elapse.watch he word interest
    dsimp only
    rw [hcall.value]
    split
    · exact ⟨⟨hcall.agree, congrArg (· + 1) ha.registrations, ha.deregistrations⟩, rfl, rfl⟩
    · exact ⟨⟨hcall.agree, ha.registrations, ha.deregistrations⟩, rfl, rfl⟩

theorem reregister (ha : Agree v n n') (he : e ∉ v.ends) (token : Token) (interest : Interest) :
    Noted.Same (Agree v) (n.reregister e token interest) (n'.reregister e token interest) := by
  unfold Notifier.reregister
  cases token.word? with
  | none => exact ⟨ha, rfl, rfl⟩
  | some word =>
    have hcall := ha.host.elapse.rewatch he word interest
    dsimp only
    rw [hcall.value]
    split <;> exact ⟨⟨hcall.agree, ha.registrations, ha.deregistrations⟩, rfl, rfl⟩

theorem deregister (ha : Agree v n n') (he : e ∉ v.ends) :
    Agree v (n.deregister e).1 (n'.deregister e).1 ∧ (n'.deregister e).2 = (n.deregister e).2 := by
  have hcall := ha.host.elapse.unwatch he
  unfold Notifier.deregister
  dsimp only
  rw [hcall.value]
  split
  · exact ⟨⟨hcall.agree, ha.registrations, congrArg (· + 1) ha.deregistrations⟩, rfl⟩
  · exact ⟨⟨hcall.agree, ha.registrations, ha.deregistrations⟩, rfl⟩

theorem onHost (ha : Agree v n n') {change : Host → Host}
    (hchange : ∀ {h h'}, Host.Agree v h h' → Host.Agree v (change h) (change h')) :
    Agree v (n.onHost change) (n'.onHost change) :=
  ⟨hchange ha.host, ha.registrations, ha.deregistrations⟩

theorem close (ha : Agree v n n') (he : e ∉ v.ends) :
    Agree v (n.onHost (·.elapse.close e false)) (n'.onHost (·.elapse.close e false)) :=
  ⟨ha.host.elapse.close (Aside.ne he) false, ha.registrations, ha.deregistrations⟩

end Notifier.Agree

namespace Connections

variable {c c' : Connections H} {conn : Connection H}

/-! ## Requests and their answers -/

/-- what a request gives -/
inductive Answer (H : Type) where
  | inserted (result : Except WatchFault Nat)
  | removed (found : Bool)
  | woken (handles : List H)
  | received (result : Poll (Except Fault Bytes))
  | sent (result : Poll (Except Fault Nat))
  | ended (result : Except Fault Unit)
  | changed

/-- what a request gives and notes -/
def answer (c : Connections H) : Request H → Answer H × List Note
  | .insert d peer => (.inserted (c.insert d peer).value, (c.insert d peer).notes)
  | .remove key => (.removed (c.remove key).value, (c.remove key).notes)
  | .fire key r => (.woken (c.fire key r).value, (c.fire key r).notes)
  | .recv key handle count => (.received (c.recv key handle count).value, (c.recv key handle count).notes)
  | .send key handle bytes => (.sent (c.send key handle bytes).value, (c.send key handle bytes).notes)
  | .shutdown key => (.ended (c.shutdown key).2, [])
  | .onHost _ => (.changed, [])

/-- what requests give one after another -/
def answers (c : Connections H) (requests : List (Request H)) : List (Answer H × List Note) :=
  along (fun c request => [c.answer request]) c requests

/-- whether the connection in a slot has nothing to do with what is left aside -/
def KeyElsewhere (v : Aside) (c : Connections H) (key : Nat) : Prop :=
  (c.get? key).all (fun conn => decide (conn.descriptor ∉ v.ends)) = true

/-- a request that has nothing to do with what is left aside; a change of the host has to keep hosts in agreement -/
def Elsewhere (v : Aside) (c : Connections H) : Request H → Prop
  | .insert d _ => d ∉ v.ends
  | .remove key | .fire key _ | .recv key _ _ | .send key _ _ | .shutdown key => c.KeyElsewhere v key
  | .onHost change => ∀ {h h'}, Host.Agree v h h' → Host.Agree v (change h) (change h')

/-- two tables that are the same but for their hosts, and these agree -/
structure Agree (v : Aside) (c c' : Connections H) : Prop where
  slots : c'.slots = c.slots
  armWrites : c'.armWrites = c.armWrites
  notifier : Notifier.Agree v c.notifier c'.notifier

theorem KeyElsewhere.descriptor (hk : c.KeyElsewhere v key) (hg : c.get? key = some conn) :
    conn.descriptor ∉ v.ends := by
  rw [KeyElsewhere, hg] at hk
  simpa using hk

namespace Agree

theorem get?_eq (ha : Agree v c c') (key : Nat) : c'.get? key = c.get? key := by rw [get?, get?, ha.slots]

theorem put (ha : Agree v c c') (key : Nat) (conn : Connection H) : Agree v (c.put key conn) (c'.put key conn) :=
  ⟨congrArg (·.set key conn) ha.slots, ha.armWrites, ha.notifier⟩

theorem notify (ha : Agree v c c') {n n' : Notifier} (hn : Notifier.Agree v n n') :
    Agree v { c with notifier := n } { c' with notifier := n' } := ⟨ha.slots, ha.armWrites, hn⟩

theorem onHost (ha : Agree v c c') {h h' : Host} (hh : Host.Agree v h h') :
    Agree v (c.onHost fun _ => h) (c'.onHost fun _ => h') :=
  ha.notify ⟨hh, ha.notifier.registrations, ha.notifier.deregistrations⟩

theorem insert (ha : Agree v c c') (he : e ∉ v.ends) (peer : Address) :
    Noted.Same (Agree v) (c.insert e peer) (c'.insert e peer) := by
  have hcall := ha.notifier.register he (.connection c.slots.nextKey) idleInterest
  unfold Connections.insert
  rw [ha.slots]
  dsimp only
  rw [hcall.value]
  split
  · exact ⟨⟨rfl, ha.armWrites, hcall.state⟩, rfl, hcall.notes⟩
  · exact ⟨⟨rfl, ha.armWrites, hcall.state.close he⟩, rfl, hcall.notes⟩

theorem remove (ha : Agree v c c') (hk : c.KeyElsewhere v key) :
    Noted.Same (Agree v) (c.remove key) (c'.remove key) := by
  unfold Connections.remove
  rw [ha.get?_eq]
  cases hg : c.get? key with
  | none => exact ⟨ha, rfl, rfl⟩
  | some conn =>
    have he := hk.descriptor hg
    obtain ⟨hleft, hvalue⟩ := ha.notifier.deregister he
    dsimp only
    rw [hvalue]
    exact ⟨⟨congrArg (·.erase key) ha.slots, ha.armWrites, hleft.close he⟩, rfl, rfl⟩

theorem rearm (ha : Agree v c c') (key : Nat) (conn : Connection H) (he : conn.descriptor ∉ v.ends) (armed : Bool) :
    Noted.Same (Agree v) (c.rearm key conn armed) (c'.rearm key conn armed) := by
  have hcall := ha.notifier.reregister he (.connection key) (if armed then writingInterest else idleInterest)
  unfold Connections.rearm
  dsimp only
  rw [hcall.value]
  split
  · exact ⟨(ha.notify hcall.state).put key _, rfl, hcall.notes⟩
  · exact ⟨(ha.notify hcall.state).put key _, rfl, by rw [hcall.notes]⟩

theorem fire (ha : Agree v c c') (hk : c.KeyElsewhere v key) (r : Readiness) :
    Noted.Same (Agree v) (c.fire key r) (c'.fire key r) := by
  unfold Connections.fire
  rw [ha.get?_eq]
  cases hg : c.get? key with
  | none => exact ⟨ha, rfl, rfl⟩
  | some conn =>
    have he := hk.descriptor hg
    dsimp only
    split
    · have hcall := ha.rearm key (conn.resumed r) he false
      exact ⟨hcall.state, rfl, congrArg (· ++ _) hcall.notes⟩
    · exact ⟨ha.put key _, rfl, rfl⟩

theorem recv (ha : Agree v c c') (hk : c.KeyElsewhere v key) (handle : H) (count : Nat) :
    Noted.Same (Agree v) (c.recv key handle count) (c'.recv key handle count) := by
  unfold Connections.recv
  rw [ha.get?_eq]
  cases hg : c.get? key with
  | none => exact ⟨ha, rfl, rfl⟩
  | some conn =>
    have hcall := ha.notifier.host.recv (hk.descriptor hg) count
    dsimp only
    rw [hcall.value]
    split
    · exact ⟨ha.onHost hcall.agree, rfl, rfl⟩
    · exact ⟨ha.onHost hcall.agree, rfl, rfl⟩
    · exact ⟨(ha.onHost hcall.agree).put key _, rfl, rfl⟩

theorem send (ha : Agree v c c') (hk : c.KeyElsewhere v key) (handle : H) (bytes : Bytes) :
    Noted.Same (Agree v) (c.send key handle bytes) (c'.send key handle bytes) := by
  unfold Connections.send
  rw [ha.get?_eq]
  cases hg : c.get? key with
  | none => exact ⟨ha, rfl, rfl⟩
  | some conn =>
    have he := hk.descriptor hg
    have hcall := ha.notifier.host.send he bytes
    have hafter := ha.onHost hcall.agree
    dsimp only
    rw [hcall.value]
    split
    · exact ⟨hafter, rfl, rfl⟩
    · exact ⟨hafter, rfl, rfl⟩
    · rw [hafter.armWrites]
      split
      · have harm := hafter.rearm key { conn with write := (conn.write.store handle).1 } he true
        exact ⟨harm.state, rfl, congrArg (_ ++ ·) harm.notes⟩
      · exact ⟨hafter.put key _, rfl, rfl⟩

theorem shutdown (ha : Agree v c c') (hk : c.KeyElsewhere v key) :
    Agree v (c.shutdown key).1 (c'.shutdown key).1 ∧ (c'.shutdown key).2 = (c.shutdown key).2 := by
  unfold Connections.shutdown
  rw [ha.get?_eq]
  cases hg : c.get? key with
  | none => exact ⟨ha, rfl⟩
  | some conn =>
    have hcall := ha.notifier.host.elapse.finish (hk.descriptor hg)
    dsimp only
    rw [hcall.value]
    exact ⟨ha.onHost hcall.agree, rfl⟩

/-- a request elsewhere keeps two tables in agreement, and they answer it alike -/
theorem after (ha : Agree v c c') {request : Request H} (hr : c.Elsewhere v request) :
    Agree v (c.after request) (c'.after request) ∧ c'.answer request = c.answer request := by
  cases request with
  | insert d peer =>
    have hcall := ha.insert hr peer
    exact ⟨hcall.state, by rw [answer, answer, hcall.value, hcall.notes]⟩
  | remove key =>
    have hcall := ha.remove hr
    exact ⟨hcall.state, by rw [answer, answer, hcall.value, hcall.notes]⟩
  | fire key r =>
    have hcall := ha.fire hr r
    exact ⟨hcall.state, by rw [answer, answer, hcall.value, hcall.notes]⟩
  | recv key handle count =>
    have hcall := ha.recv hr handle count
    exact ⟨hcall.state, by rw [answer, answer, hcall.value, hcall.notes]⟩
  | send key handle bytes =>
    have hcall := ha.send hr handle bytes
    exact ⟨hcall.state, by rw [answer, answer, hcall.value, hcall.notes]⟩
  | shutdown key =>
    obtain ⟨hstate, hvalue⟩ := ha.shutdown hr
    exact ⟨hstate, by rw [answer, answer, hvalue]⟩
  | onHost change => exact ⟨ha.notify (ha.notifier.onHost hr), rfl⟩

theorem answers (ha : Agree v c c') {requests : List (Request H)} (hr : Throughout (Elsewhere v) c requests) :
    c'.answers requests = c.answers requests := by
  induction requests generalizing c c' with
  | nil => rfl
  | cons request rest ih =>
    obtain ⟨hfirst, hrest⟩ := hr
    obtain ⟨hafter, hanswer⟩ := ha.after hfirst
    have hlater := ih hafter hrest
    unfold Connections.answers at hlater ⊢
    rw [along, along, hanswer, hlater]

end Agree

end Connections

/-! ## Refusals -/

namespace Host

variable {h : Host} {word : UInt64} {interest : Interest} {code : Errno}

/-- the host once its next refusal to watch is used up -/
def refusalSpent (h : Host) : Host := { h with refusals := { h.refusals with watch := h.refusals.watch.tail } }

/-- a host in which a watch is refused: others do what they do before that call and before the next -/
def refused (h : Host) : Host := h.elapse.refusalSpent.elapse

/-- why a watch may be refused: the kernel has no room for it, or the descriptor is bad, cannot be watched or is watched
already -/
inductive Refuses (h : Host) (d : Descriptor) : Errno → Prop where
  | exhausted {code : Errno} : h.refusals.watch.head?.join = some code → Refuses h d code
  | bad : h.device? d = none → Refuses h d .badDescriptor
  | unwatchable : h.device? d = some .file → Refuses h d .notPermitted
  | watched : (h.watch? d).isSome → Refuses h d .alreadyExists

theorem refuses_of_watchable (hw : h.watchable d = .error code) : h.Refuses d code := by
  unfold watchable at hw
  split at hw
  · next hd =>
    cases hw
    exact .bad hd
  · next hd =>
    cases hw
    exact .unwatchable hd
  · cases hw

theorem refuses_of_watch (hw : (h.watch d word interest).2 = .error code) : h.Refuses d code := by
  unfold watch at hw
  dsimp only at hw
  split at hw
  · next hrefusal =>
    cases hw
    exact .exhausted hrefusal
  · next hwatchable =>
    cases hw
    exact refuses_of_watchable hwatchable
  · split at hw
    · next w hwatched =>
      cases hw
      exact .watched (Option.isSome_of_mem hwatched)
    · cases hw

/-- a watch that is refused uses the refusal up, and changes nothing else -/
theorem watch_of_error (hw : (h.watch d word interest).2 = .error code) :
    (h.watch d word interest).1 = h.refusalSpent := by
  unfold watch at hw ⊢
  dsimp only at hw ⊢
  split
  · rfl
  · rfl
  · split
    · rfl
    · simp_all

theorem device?_close (h : Host) (d : Descriptor) (abrupt : Bool) : (h.close d abrupt).device? d = none := by
  have hgone : ((h.forget d).setDevice d none).device? d = none := (h.device?_gone d d).trans (if_pos rfl)
  unfold close
  dsimp only
  split
  · exact (device?_onStream ..).trans hgone
  · next backlog _ =>
    have hreset : ∀ (backlog : List Arrival) {g : Host}, g.device? d = none →
        (backlog.foldl (fun h arrival => (h.onStream arrival.stream (·.close .far true) ()).1) g).device? d = none := by
      intro backlog
      induction backlog with
      | nil => exact id
      | cons arrival rest ih => exact fun hg => ih ((device?_onStream ..).trans hg)
    exact hreset backlog hgone
  · exact hgone

/-- the stream behind a descriptor that is closed -/
theorem stream_close {i : Nat} {side : Side} {s : Stream} (hd : h.device? d = some (.stream i side))
    (hs : h.streams[i]? = some s) (abrupt : Bool) :
    (h.close d abrupt).streams[i]? = some (s.close side abrupt).stream := by
  have hi := (List.getElem?_eq_some_iff.1 hs).1
  have hs' : ((h.forget d).setDevice d none).streams[i]? = some s := hs
  unfold close
  simp only [hd, onStream, hs']
  obtain ⟨q, hq, -⟩ := stirEnds_eq { (h.forget d).setDevice d none with
    streams := ((h.forget d).setDevice d none).streams.set i (s.close side abrupt).stream } i
    (s.close side abrupt).stirs
  rw [hq]
  exact List.getElem?_set_self hi

end Host

namespace Connections

variable {c : Connections H} {peer : Address} {code : Errno}

/-- a refused connection: what others do meanwhile, the refusal, and the descriptor closed -/
theorem insert_refused (hf : (c.insert d peer).value = .error (.refused code)) :
    c.host.elapse.Refuses d code ∧ (c.insert d peer).state = (c.onHost Host.refused).onHost (·.close d false) := by
  obtain ⟨hvalue, hstate⟩ : (c.notifier.register d (.connection c.slots.nextKey) idleInterest).value =
      .error (.refused code) ∧ (c.insert d peer).state = { c with
        notifier := (c.notifier.register d (.connection c.slots.nextKey) idleInterest).state.onHost
          (·.elapse.close d false) } := by
    unfold Connections.insert at hf ⊢
    dsimp only at hf ⊢
    split at hf
    · cases hf
    · next fault hfault =>
      cases hf
      simp only [hfault, and_self]
  rw [hstate]
  unfold Notifier.register at hvalue ⊢
  split at hvalue
  · cases hvalue
  · next word hword =>
    dsimp only at hvalue
    split at hvalue
    · cases hvalue
    · next code' hwatch =>
      cases hvalue
      refine ⟨Host.refuses_of_watch hwatch, ?_⟩
      simp only [hwatch, Host.watch_of_error hwatch]
      rfl

/-- what a refused insertion leaves: the table and the ledger are as they were, the kernel watches nothing new and the
descriptor no more, and it is closed; and whatever comes then, the table is the one that has only closed it -/
structure Undone (c c' : Connections H) (d : Descriptor) : Prop where
  slots : c'.slots = c.slots
  armWrites : c'.armWrites = c.armWrites
  registrations : c'.notifier.registrations = c.notifier.registrations
  deregistrations : c'.notifier.deregistrations = c.notifier.deregistrations
  watches : c.host.Guarded → c'.host.watches = c.host.watches.filter (·.descriptor != d)
  closed : c'.host.device? d = none
  hungUp : ∀ {i side s}, c.host.refused.device? d = some (.stream i side) → c.host.refused.streams[i]? = some s →
    c'.host.streams[i]? = some (s.close side false).stream
  dropped : c' = (c.onHost Host.refused).onHost (·.close d false)
  /-- requests that have nothing to do with the stream are answered as if nothing had been attempted or closed -/
  later : c.host.refused.Offered d → ∀ requests : List (Request H),
    Throughout (Elsewhere (c.host.refused.aside d)) (c.onHost Host.refused) requests →
      c'.answers requests = (c.onHost Host.refused).answers requests

/-- **A failed insertion is undone.** Whyever a descriptor could not be watched, all that an attempt to take it in leaves
is that the descriptor is closed, which also ends a watch that it had: whatever is asked of the table afterwards is
answered as if that had been all, and what has nothing to do with the stream as if there had been nothing. -/
theorem insert_undone (hf : (c.insert d peer).value = .error (.refused code)) :
    c.host.elapse.Refuses d code ∧ Undone c (c.insert d peer).state d := by
  obtain ⟨hcause, hstate⟩ := insert_refused hf
  rw [hstate]
  refine ⟨hcause, rfl, rfl, rfl, rfl, fun hg => ?_, Host.device?_close .., fun hd hs => Host.stream_close hd hs false,
    rfl, fun ho requests hr => ?_⟩
  · have hsteady : Host.Steady c.host c.host.refused := by
      have hfirst := Host.steady_elapse hg
      have hspent : Host.Steady c.host c.host.elapse.refusalSpent := hfirst.trans (Host.steady_of_devices rfl rfl)
      exact hspent.trans (Host.steady_elapse (hspent.guarded hg))
    rw [← hsteady.watches]
    exact (Host.close_spec ..).1
  · have hagree : Agree (c.host.refused.aside d) (c.onHost Host.refused)
        ((c.onHost Host.refused).onHost (·.close d false)) :=
      ⟨rfl, rfl, Host.agree_close ho.setAside false, rfl, rfl⟩
    exact hagree.answers hr

end Connections

/-! ## A table to look at -/

namespace Sample

/-- three pairs -/
def offers (h : Host) : Host :=
  { h with
    streams := List.replicate 3 { family := .unix }
    devices := (List.range 3).flatMap fun id => [some (.stream id .near), some (.stream id .far)] }

/-- the first far end is taken in, and the kernel will have no room to watch another one -/
def taking : Connections Nat :=
  ((Connections.empty { host := offers { refusals := { watch := [none, some ⟨28⟩] } } } true).insert 1 ⟨"c0"⟩).state

/-- the slot in use is emptied and used again; then comes the one that was not used -/
def goingOn : List (Connections.Request Nat) :=
  [.recv 0 7 16, .remove 0, .insert 5 ⟨"c2"⟩, .insert 4 ⟨"c3"⟩, .send 1 8 [1, 2]]

/-- a table whose notifier watches a far end that is not in it -/
def watching : Connections Nat :=
  .empty (({ host := offers {} } : Notifier).register 3 (.connection 4) .reading).state true

end Sample

namespace Connections

instance : Decidable (KeyElsewhere v c key) := inferInstanceAs (Decidable (_ = true))

/-- after the second far end was refused the slots that follow are as if it had never been there -/
theorem insert_undone_full :
    (Sample.taking.insert 3 ⟨"c1"⟩).value = .error (.refused ⟨28⟩) ∧
      Undone Sample.taking (Sample.taking.insert 3 ⟨"c1"⟩).state 3 ∧
      (Sample.taking.insert 3 ⟨"c1"⟩).state.answers Sample.goingOn =
        (Sample.taking.onHost Host.refused).answers Sample.goingOn := by
  have hf : (Sample.taking.insert 3 ⟨"c1"⟩).value = .error (.refused ⟨28⟩) := by decide +kernel
  have hu := (insert_undone hf).2
  have hoffered : Sample.taking.host.refused.Offered 3 := ⟨by decide +kernel, by decide +kernel, by decide +kernel⟩
  have hlater : Throughout (Elsewhere (Sample.taking.host.refused.aside 3)) (Sample.taking.onHost Host.refused)
      Sample.goingOn := by
    refine ⟨?_, ?_, ?_, ?_, ?_, trivial⟩
    · show KeyElsewhere _ _ 0
      decide +kernel
    · show KeyElsewhere _ _ 0
      decide +kernel
    · show 5 ∉ _
      decide +kernel
    · show 4 ∉ _
      decide +kernel
    · show KeyElsewhere _ _ 1
      decide +kernel
  exact ⟨hf, hu, hu.later hoffered _ hlater⟩

/-- the epoll set is not as before if the descriptor was watched: closing it ends that watch -/
theorem insert_ends_watch : (Sample.watching.insert 3 ⟨"c1"⟩).value = .error (.refused .alreadyExists) ∧
    (Sample.watching.insert 3 ⟨"c1"⟩).state.host.watches ≠ Sample.watching.host.watches := by
  decide +kernel

end Connections

end EventServer
