/-
Endurance: nothing but a shutdown signal stops the loop, whatever clients do, whichever calls are refused and however
often a wait is cut short.

A run that returns has just read one of the three signals (`StoppedBy`, `Reached.stopped`); every other run stays among
the reached states. What could make the program give up in the middle of a run is known: the token of a slot that is too
large for a word, a slot that is taken although it is in use, and more bytes than the reader has room for. `Fails` says
when a request to the table would meet one of them. `Connections.Leads` are the tables that any requests lead to, in any
order and on any host; they are all `Roomy` (`Leads.roomy`), so none of their requests fails (`Roomy.not_fails`), and a
run makes nothing but such requests (`leads_run`).
-/
import EventServer.Proofs.Loop

namespace EventServer

/-! ## Slots that are all accounted for -/

namespace Slots

variable {α : Type} {s : Slots α}

/-- every slot is either in use or free -/
def Whole (s : Slots α) : Prop := s.entries.length = s.size + s.free.length

theorem whole_empty : (empty : Slots α).Whole := rfl

theorem Whole.insert (hw : s.Whole) (ht : s.Tidy) (value : α) : (s.insert value).Whole := by
  have hsize := size_insert ht value
  unfold Whole at hw ⊢
  unfold Slots.insert at hsize ⊢
  cases hf : s.free with
  | nil => simp_all
  | cons key rest =>
    simp only [hf, List.length_cons, List.length_set] at hw hsize ⊢
    omega

theorem Whole.set (hw : s.Whole) (key : Nat) (value : α) : (s.set key value).Whole := by
  cases hg : s.get? key with
  | none => simpa [Slots.set, hg] using hw
  | some old =>
    obtain ⟨pre, post, hs, -, hset⟩ := toList_focus hg
    have hsize : (s.set key value).size = s.size := by simp [size, hs, hset]
    unfold Whole at hw ⊢
    rw [hsize]
    simpa [Slots.set, hg] using hw

theorem Whole.erase (hw : s.Whole) (key : Nat) : (s.erase key).Whole := by
  cases hg : s.get? key with
  | none => simpa [Slots.erase, hg] using hw
  | some old =>
    have hsize := size_erase hg
    unfold Whole at hw ⊢
    unfold Slots.erase at hsize ⊢
    simp only [hg, List.length_cons, List.length_set] at hsize ⊢
    omega

/-- a slot beyond all others is only opened when every slot is in use -/
theorem Whole.nextKey_cases (hw : s.Whole) (ht : s.Tidy) :
    s.nextKey < s.entries.length ∨ s.nextKey = s.entries.length ∧ s.entries.length = s.size := by
  cases hf : s.free with
  | nil => exact .inr ⟨by simp [nextKey, hf], by simpa [Whole, hf] using hw⟩
  | cons key rest => exact .inl (by simpa [nextKey, hf] using ht.lt_length (by simp [hf] : key ∈ s.free))

end Slots

/-! ## Room for what is read -/

theorem Host.length_of_receive {h : Host} {d : Descriptor} {count : Nat} {bytes : Bytes}
    (hr : (h.receive d count).2 = .ok bytes) : bytes.length ≤ count := by
  unfold receive at hr
  split at hr
  · cases hr
  · unfold onStream at hr
    split at hr
    · exact Stream.length_of_recv hr
    · cases hr
  all_goals cases hr

theorem Nonblocking.length_of_recv {h : Host} {d : Descriptor} {count : Nat} {bytes : Bytes}
    (hr : (recv h d count).2 = .done bytes) : bytes.length ≤ count := by
  obtain ⟨last, -, hlast⟩ := retry_spec (P := fun _ => True) (fun h => h.elapse.recv d count) (fun _ _ => trivial)
    h.cuts (s := h) trivial
  rw [recv, hlast] at hr
  dsimp only at hr
  rcases last.elapse.recv_cases d count with he | ⟨n, he⟩
  · rw [he] at hr
    cases hv : (last.elapse.receive d count).2 with
    | ok read =>
      rw [hv] at hr
      cases hr
      exact Host.length_of_receive hv
    | error code =>
      rw [hv] at hr
      unfold Outcome.ofResult at hr
      dsimp only at hr
      split at hr <;> cases hr
  · rw [he] at hr
    cases hr

/-! ## Requests to the table -/

namespace Connections

variable {H : Type} {c c' : Connections H}

/-- what may be asked of a table, the last being that its host changes by itself -/
inductive Request (H : Type) where
  | insert (d : Descriptor) (peer : Address)
  | remove (key : Nat)
  | fire (key : Nat) (r : Readiness)
  | recv (key : Nat) (handle : H) (count : Nat)
  | send (key : Nat) (handle : H) (bytes : Bytes)
  | shutdown (key : Nat)
  | onHost (change : Host → Host)

def after (c : Connections H) : Request H → Connections H
  | .insert d peer => (c.insert d peer).state
  | .remove key => (c.remove key).state
  | .fire key r => (c.fire key r).state
  | .recv key handle count => (c.recv key handle count).state
  | .send key handle bytes => (c.send key handle bytes).state
  | .shutdown key => (c.shutdown key).1
  | .onHost change => c.onHost change

/-- when a request would make the program give up: a connection is to be watched whose slot has no word, the slot for a
new connection is in use, or more bytes come than there is room for -/
def Fails (c : Connections H) : Request H → Prop
  | .insert .. => (Token.connection c.slots.nextKey).word? = none ∨ (c.get? c.slots.nextKey).isSome
  | .fire key _ => (c.get? key).isSome ∧ (Token.connection key).word? = none
  | .send key .. => (c.get? key).isSome ∧ (Token.connection key).word? = none
  | .recv key handle count => ∃ bytes, (c.recv key handle count).value = .ready (.ok bytes) ∧ count < bytes.length
  | _ => False

/-- a table that requests lead to -/
inductive Leads (c : Connections H) : Connections H → Prop where
  | refl : Leads c c
  | after {c' : Connections H} (request : Request H) : Leads c c' → Leads c (c'.after request)

theorem Leads.trans {c'' : Connections H} (h : c.Leads c') (h' : c'.Leads c'') : c.Leads c'' := by
  induction h' with
  | refl => exact h
  | after request _ ih => exact ih.after request

/-- every slot that was ever in use has a word, and none is lost -/
structure Roomy (c : Connections H) : Prop where
  tidy : c.slots.Tidy
  whole : c.slots.Whole
  worded : c.slots.entries.length + Token.base ≤ UInt64.size

theorem roomy_empty (notifier : Notifier) (armWrites : Bool) : (empty notifier armWrites : Connections H).Roomy :=
  ⟨Slots.tidy_empty, Slots.whole_empty, by simp [empty, Slots.empty, Token.base, UInt64.size]⟩

theorem Roomy.of_slots (hc : c.Roomy) (hs : c'.slots = c.slots) : c'.Roomy :=
  ⟨hs ▸ hc.tidy, hs ▸ hc.whole, hs ▸ hc.worded⟩

theorem Roomy.of_set (hc : c.Roomy) {key : Nat} {conn : Connection H} (hs : c'.slots = c.slots.set key conn) :
    c'.Roomy := by
  refine ⟨hs ▸ hc.tidy.set key conn, hs ▸ hc.whole.set key conn, ?_⟩
  rw [hs]
  unfold Slots.set
  split <;> simpa using hc.worded

theorem word?_eq_none {key : Nat} : (Token.connection key).word? = none ↔ UInt64.size ≤ key + Token.base := by
  rw [Token.word?]
  split <;> simp <;> omega

/-- a connection is only taken in under a slot that has a word -/
theorem word_of_insert {d : Descriptor} {peer : Address} {key : Nat} (h : (c.insert d peer).value = .ok key) :
    c.slots.nextKey + Token.base < UInt64.size := by
  refine Nat.lt_of_not_le fun hle => ?_
  rw [insert, Notifier.register, word?_eq_none.2 hle] at h
  cases h

/-- the slots after a request: as they were, or one of them was set, emptied, or filled under a slot that has a word -/
theorem after_slots (c : Connections H) (request : Request H) :
    ((c.after request).slots = c.slots ∨ ∃ key conn, (c.after request).slots = c.slots.set key conn) ∨
      (∃ key, (c.after request).slots = c.slots.erase key) ∨
      ∃ conn, (c.after request).slots = c.slots.insert conn ∧ c.slots.nextKey + Token.base < UInt64.size := by
  cases request with
  | insert d peer =>
    rcases c.insert_slots d peer with ⟨fault, -, hs⟩ | ⟨hvalue, hs⟩
    · exact .inl (.inl hs)
    · exact .inr (.inr ⟨_, hs, word_of_insert hvalue⟩)
  | remove key => exact .inr (.inl ⟨key, c.remove_slots key⟩)
  | fire key r => exact .inl ((c.amends_fire key r).slots.imp_right fun ⟨conn, hs⟩ => ⟨key, conn, hs⟩)
  | recv key handle count =>
    exact .inl ((c.amends_recv key handle count).slots.imp_right fun ⟨conn, hs⟩ => ⟨key, conn, hs⟩)
  | send key handle bytes =>
    exact .inl ((c.amends_send key handle bytes).slots.imp_right fun ⟨conn, hs⟩ => ⟨key, conn, hs⟩)
  | shutdown key => exact .inl (.inl (c.shutdown_slots key))
  | onHost change => exact .inl (.inl rfl)

theorem Roomy.after (hc : c.Roomy) (request : Request H) : (c.after request).Roomy := by
  rcases c.after_slots request with (hs | ⟨key, conn, hs⟩) | ⟨key, hs⟩ | ⟨conn, hs, hword⟩
  · exact hc.of_slots hs
  · exact hc.of_set hs
  · refine ⟨hs ▸ hc.tidy.erase key, hs ▸ hc.whole.erase key, ?_⟩
    rw [hs]
    unfold Slots.erase
    split <;> simpa using hc.worded
  · refine ⟨hs ▸ hc.tidy.insert conn, hs ▸ hc.whole.insert hc.tidy conn, ?_⟩
    have hlength := c.slots.length_insert_le conn
    have hworded := hc.worded
    rw [hs]
    omega

theorem Leads.roomy (hl : c.Leads c') (hc : c.Roomy) : c'.Roomy := by
  induction hl with
  | refl => exact hc
  | after request _ ih => exact ih.after request

theorem Roomy.word_of_get? (hc : c.Roomy) {key : Nat} {conn : Connection H} (hg : c.get? key = some conn) :
    (Token.connection key).word? ≠ none := fun hnone => by
  have hlength := Slots.lt_length_of_get? hg
  have hworded := hc.worded
  have hlarge := word?_eq_none.1 hnone
  omega

theorem length_of_recv {key : Nat} {handle : H} {count : Nat} {bytes : Bytes}
    (h : (c.recv key handle count).value = .ready (.ok bytes)) : bytes.length ≤ count := by
  unfold recv at h
  split at h
  · cases h
  · next conn _ =>
    dsimp only at h
    cases hr : (Nonblocking.recv c.notifier.host conn.descriptor count).2 with
    | done read =>
      rw [hr] at h
      cases h
      exact Nonblocking.length_of_recv hr
    | wouldBlock =>
      rw [hr] at h
      cases h
    | failed fault =>
      rw [hr] at h
      cases h

/-- no request fails, unless as many connections are live as there are words -/
theorem Roomy.not_fails (hc : c.Roomy) (hlive : c.slots.size + Token.base < UInt64.size) (request : Request H) :
    ¬ c.Fails request := by
  have hword : ∀ key, ¬ ((c.get? key).isSome ∧ (Token.connection key).word? = none) := by
    rintro key ⟨hsome, hnone⟩
    obtain ⟨conn, hg⟩ := Option.isSome_iff_exists.1 hsome
    exact hc.word_of_get? hg hnone
  cases request with
  | insert d peer =>
    rintro (hnone | hsome)
    · have hlarge := word?_eq_none.1 hnone
      have hworded := hc.worded
      rcases hc.whole.nextKey_cases hc.tidy with hlt | ⟨he, hall⟩ <;> omega
    · rw [get?, Slots.get?_nextKey hc.tidy] at hsome
      cases hsome
  | fire key r => exact hword key
  | send key handle bytes => exact hword key
  | recv key handle count =>
    rintro ⟨bytes, hr, hlt⟩
    exact Nat.not_lt_of_le (length_of_recv hr) hlt
  | remove key => exact id
  | shutdown key => exact id
  | onHost change => exact id

end Connections

/-! ## Runs of the loop -/

variable {X : Type} {past : List Moment}

section Pump

variable {P : Connections Handle → Prop}
  (hrecv : ∀ {c} key handle count, P c → P (c.recv key handle count).state)
  (hsend : ∀ {c} key handle bytes, P c → P (c.send key handle bytes).state)
  (hshutdown : ∀ {c} key, P c → P (c.shutdown key).1) (hremove : ∀ {c} key, P c → P (c.remove key).state)

include hrecv hsend hshutdown

/-- what every call keeps, a run of a task keeps -/
theorem runSlot_keeps (protocol : Http.Protocol X) (t : Tasks Nat (ConnectionTask X)) {site : Site Handle} (slot : Nat)
    (hi : P site.connections) : P (Tasks.runSlot (Engine.runner protocol id) t site slot).env.connections := by
  have htalk : ∀ {α : Type} (self : Handle) (place : Place) (talk : Http.Talk α),
      P (talk.run (Engine.transport id self place) site).1.connections := fun self place talk =>
    Http.Talk.run_keeps (I := fun after : Site Handle => P after.connections)
      (fun count h => hrecv place.slot self count h) (fun bytes h => hsend place.slot self bytes h)
      (fun h => hshutdown place.slot h) (fun _ h => h) talk hi
  obtain ⟨-, ⟨-, -, -, henv⟩ | ⟨tenant, -, ⟨-, -, henv⟩ | ⟨outcome, -, -, henv⟩⟩⟩ :=
    Tasks.runSlot_cases (Engine.runner protocol id) t site slot
  · rw [henv]
    exact hi
  · rw [henv]
    exact htalk ..
  · rw [henv]
    exact htalk ..

include hremove

/-- what every call keeps, and every removal, a pump keeps -/
theorem pumpUpTo_keeps {limit : Nat} {e : Engine X} {site : Site Handle} {report : PumpTally} {p : Pumped X Handle}
    (hi : P site.connections) (hp : e.pumpUpTo id limit site report = some p) : P p.site.connections := by
  induction limit generalizing e site report p with
  | zero => cases hp
  | succ limit ih =>
    unfold Engine.pumpUpTo at hp
    cases hpoll : e.tasks.poll (Engine.runner e.protocol id) limit site with
    | none =>
      rw [hpoll] at hp
      cases hp
    | some polled =>
      rw [hpoll] at hp
      have hpolled := (Tasks.poll_keeps (P := fun _ (after : Site Handle) _ _ => P after.connections)
        (fun h _ => runSlot_keeps hrecv hsend hshutdown _ _ _ h) [] hi hpoll).1
      dsimp only at hp
      cases hc : polled.completed with
      | none =>
        rw [hc] at hp
        cases hp
        exact hpolled
      | some done =>
        simp only [hc, Option.map_eq_some_iff] at hp
        obtain ⟨q, hq, rfl⟩ := hp
        have hreclaimed : P (Engine.reclaim polled.env done).connections := by
          unfold Engine.reclaim
          dsimp only
          split
          · exact hpolled
          · next key _ => exact hremove key hpolled
        exact ih (p := q) hreclaimed hq

end Pump

/-- what a pump does are requests -/
theorem leads_pumpUpTo {limit : Nat} {e : Engine X} {site : Site Handle} {report : PumpTally} {p : Pumped X Handle}
    (hp : e.pumpUpTo id limit site report = some p) : site.connections.Leads p.site.connections :=
  pumpUpTo_keeps (P := site.connections.Leads) (fun key handle count h => h.after (.recv key handle count))
    (fun key handle bytes h => h.after (.send key handle bytes)) (fun key h => h.after (.shutdown key))
    (fun key h => h.after (.remove key)) .refl hp

namespace Server

variable {s : Server X}

theorem leads_prepare {limit : Nat} {w : Worked X} (hw : s.prepare limit = some w) :
    s.connections.Leads w.server.connections := by
  simp only [prepare, Option.map_eq_some_iff] at hw
  obtain ⟨pumped, hp, rfl⟩ := hw
  exact leads_pumpUpTo hp

theorem leads_acceptUpTo (limit : Nat) (s : Server X) :
    s.connections.Leads (s.acceptUpTo limit).server.connections := by
  induction limit generalizing s with
  | zero => exact .refl
  | succ limit ih =>
    have hhost : s.connections.Leads (s.onHost fun _ => (Nonblocking.accept s.host s.listener).1).connections :=
      Connections.Leads.refl.after (.onHost fun _ => (Nonblocking.accept s.host s.listener).1)
    unfold acceptUpTo
    dsimp only
    split
    · exact hhost
    · exact hhost
    · next d peer _ =>
      refine (hhost.trans ?_).trans (ih _)
      rw [welcome_connections]
      exact Connections.Leads.refl.after (.insert d peer)

theorem leads_handle (s : Server X) (r : Readiness) : s.connections.Leads (s.handle r).1.server.connections := by
  unfold handle
  cases r.token with
  | listener => exact leads_acceptUpTo _ s
  | signals =>
    have hhost : s.connections.Leads (s.onHost fun _ => (s.signals.read s.host).1).connections :=
      Connections.Leads.refl.after (.onHost fun _ => (s.signals.read s.host).1)
    simp only [readSignal]
    split <;> exact hhost
  | connection key => exact Connections.Leads.refl.after (.fire key r)

theorem leads_dispatch (reports : List Readiness) (s : Server X) :
    s.connections.Leads (s.dispatch reports).1.server.connections := by
  induction reports generalizing s with
  | nil => exact .refl
  | cons r rest ih =>
    have hfirst := leads_handle s r
    unfold dispatch
    dsimp only
    split
    · exact hfirst
    · exact hfirst.trans (ih _)

theorem leads_take (s : Server X) : s.connections.Leads s.take.server.connections := by
  have hwait : s.connections.Leads s.await.state.connections := by
    obtain ⟨⟨interruptions, hstate⟩, -⟩ := s.connections.notifier.wait_spec s.events
    have hafter := Connections.Leads.refl.after (c := s.connections)
      (.onHost fun _ => (s.connections.notifier.wait s.events).state.host)
    have he : s.await.state.connections =
        s.connections.after (.onHost fun _ => (s.connections.notifier.wait s.events).state.host) := by
      simp only [await, Connections.after, Connections.onHost, Notifier.onHost]
      rw [hstate]
    rw [he]
    exact hafter
  unfold take
  dsimp only
  split
  · exact hwait
  · exact hwait.trans (leads_dispatch _ _)

/-- a run makes nothing but requests to the table -/
theorem leads_run (limit : Nat) (s : Server X) : s.connections.Leads (s.run limit).server.connections := by
  induction limit generalizing s with
  | zero => exact .refl
  | succ limit ih =>
    have htake := leads_take s
    unfold run
    dsimp only
    split
    · exact htake
    · split
      · exact htake
      · next ready hw => exact (htake.trans (leads_prepare hw)).trans (ih _)

end Server

theorem Reached.leads {first s : Server X} {phase : Phase} (hr : Reached first phase s past) :
    first.connections.Leads s.connections := by
  induction hr with
  | start => exact .refl
  | others deed _ ih => exact ih.after (.onHost (·.act deed))
  | pumped _ hw ih => exact ih.trans (Server.leads_prepare hw)
  | took _ _ ih => exact ih.trans (Server.leads_take _)
  | blocked _ _ ih => exact ih.trans (Server.leads_take _)

namespace Server

variable {s : Server X} {signal : ShutdownSignal}

/-! ## What stops a run -/

/-- the number stands for a shutdown signal only if it is that signal's -/
theorem ofNumber_eq_shutdown {number : Int} (h : SignalEffect.ofNumber number = .shutdown signal) :
    number = signal.number := by
  unfold SignalEffect.ofNumber at h
  split at h
  · next found hfound =>
    cases h
    exact (by simpa using List.find?_some hfound : signal.number = number).symm
  · cases h

/-- reading from the source of signals gave this one, and that is the last thing that happened -/
structure Reads (m : Server X) (signal : ShutdownSignal) (after : Server X) : Prop where
  read : (m.host.elapse.readSignal m.signals.descriptor).2 = some signal.number
  after : after = m.onHost fun _ => (m.host.elapse.readSignal m.signals.descriptor).1

/-- the reports of a wait were dealt with up to one that the source of signals is ready, and the read that came of it
gave this signal -/
def StoppedBy (m : Server X) (signal : ShutdownSignal) (after : Server X) : Prop :=
  ∃ events before r later, m.await.value = some events ∧ events.toList = before ++ r :: later ∧ r.token = .signals ∧
    (m.await.state.dispatch before).2 = none ∧ (m.await.state.dispatch before).1.server.Reads signal after

theorem handle_stop {r : Readiness} (h : (s.handle r).2 = some signal) :
    r.token = .signals ∧ s.Reads signal (s.handle r).1.server := by
  unfold handle at h ⊢
  cases hr : r.token with
  | listener => simp [hr] at h
  | connection key => simp [hr] at h
  | signals =>
    refine ⟨rfl, ?_⟩
    simp only [hr, readSignal] at h ⊢
    cases hread : (s.signals.read s.host).2 with
    | none => simp [hread] at h
    | some effect =>
      cases effect with
      | ignore number => simp [hread] at h
      | shutdown caught =>
        simp only [hread, Option.some.injEq] at h ⊢
        subst h
        refine ⟨?_, rfl⟩
        obtain ⟨number, hnumber, heffect⟩ := Option.map_eq_some_iff.1 (show Option.map SignalEffect.ofNumber
          (s.host.elapse.readSignal s.signals.descriptor).2 = _ from hread)
        rw [hnumber, ofNumber_eq_shutdown heffect]

theorem dispatch_stop {reports : List Readiness} (h : (s.dispatch reports).2 = some signal) :
    ∃ before r later, reports = before ++ r :: later ∧ r.token = .signals ∧ (s.dispatch before).2 = none ∧
      (s.dispatch before).1.server.Reads signal (s.dispatch reports).1.server := by
  induction reports generalizing s with
  | nil => cases h
  | cons r rest ih =>
    unfold dispatch at h
    dsimp only at h
    cases hh : (s.handle r).2 with
    | some caught =>
      simp only [hh, Option.some.injEq] at h
      subst h
      obtain ⟨htoken, hreads⟩ := handle_stop hh
      refine ⟨[], r, rest, rfl, htoken, rfl, ?_⟩
      simpa [dispatch, hh] using hreads
    | none =>
      simp only [hh] at h
      obtain ⟨before, r', later, rfl, htoken, hgoes, hreads⟩ := ih h
      refine ⟨r :: before, r', later, rfl, htoken, ?_, ?_⟩
      · simpa [dispatch, hh] using hgoes
      · simpa [dispatch, hh] using hreads

theorem take_stop (h : s.take.halt = some (.stopped signal)) : s.StoppedBy signal s.take.server := by
  unfold take at h ⊢
  dsimp only at h ⊢
  cases hv : s.await.value with
  | none => simp [hv] at h
  | some events =>
    simp only [hv, Option.map_eq_some_iff, Halt.stopped.injEq, exists_eq_right] at h ⊢
    obtain ⟨before, r, later, hevents, htoken, hgoes, hreads⟩ := dispatch_stop h
    exact ⟨events, before, r, later, hv, hevents, htoken, hgoes, hreads⟩

/-- a wait that is cut short brings no reports, and the loop goes on -/
theorem take_of_interrupted (h : (s.host.elapse.wait s.events.capacity).2 = .interrupted) :
    s.take.halt = none ∧ s.take.server = s.await.state ∧ s.take.course = [] := by
  have hv : s.await.value = some (s.events.fill []) := by
    simp only [await, Notifier.wait]
    rw [show s.connections.notifier.host = s.host from rfl, h]
  unfold take
  simp [hv, Events.toList, dispatch]

/-- a server that was bound has no task and no connection -/
theorem empty_of_bind {h : Host} {settings : Settings} {protocol : Http.Protocol X}
    (hs : (bind h settings protocol).server = .ok s) :
    s.engine = .empty protocol ∧ ∃ notifier armWrites, s.connections = .empty notifier armWrites := by
  unfold bind at hs
  split at hs
  · cases hs
  · split at hs
    · cases hs
    · simp only [assemble] at hs
      split at hs
      · cases hs
      · dsimp only at hs
        split at hs
        · cases hs
        · cases hs
          exact ⟨rfl, _, _, rfl⟩

end Server

/-- a run that a signal stopped came by a wait after which that signal was read -/
theorem Reached.stopped {first s : Server X} (hr : Reached first .wait s past) {limit : Nat} {signal : ShutdownSignal}
    (hstop : (s.run limit).halt = some (.stopped signal)) :
    ∃ m later, Reached first .wait m later ∧ m.StoppedBy signal (s.run limit).server := by
  induction limit generalizing s past with
  | zero => cases hstop
  | succ limit ih =>
    unfold Server.run at hstop ⊢
    dsimp only at hstop ⊢
    cases hhalt : s.take.halt with
    | some halt =>
      simp only [hhalt] at hstop ⊢
      cases hstop
      exact ⟨s, past, hr, Server.take_stop hhalt⟩
    | none =>
      simp only [hhalt] at hstop ⊢
      cases hw : s.take.server.prepare s.take.server.patience with
      | none => simp [hw] at hstop
      | some ready =>
        simp only [hw] at hstop ⊢
        exact ih ((hr.took hhalt).pumped hw) hstop

/-- **Only signals stop the server.** Whatever clients did and whatever calls were refused on the way to a wait, and
however they go on: a run from there returns right after a read from the source of signals that gave one of the
shutdown signals, and it returns that signal; any other run is at the head of the loop or at a wait still. A wait that
is cut short brings no reports and the loop goes on. And nothing makes the program give up: a run makes only requests to
the table, none of which fails in any table that requests lead to, a wait never reports more than its buffer holds, and
a task that ends is in its slot until then. -/
theorem only_signals_stop {host : Host} {settings : Settings} {protocol : Http.Protocol X} {first s : Server X}
    (hb : (Server.bind host settings protocol).server = .ok first) (hr : Reached first .wait s past) (limit : Nat) :
    (∀ signal, (s.run limit).halt = some (.stopped signal) →
      ∃ m later, Reached first .wait m later ∧ m.StoppedBy signal (s.run limit).server) ∧
    ((∀ signal, (s.run limit).halt ≠ some (.stopped signal)) →
      ∃ phase later, Reached first phase (s.run limit).server (past ++ later)) ∧
    ((s.host.elapse.wait s.events.capacity).2 = .interrupted →
      s.take.halt = none ∧ s.take.server = s.await.state ∧ s.take.course = []) ∧
    s.connections.Leads (s.run limit).server.connections ∧
    (∀ c, s.connections.Leads c → c.slots.size + Token.base < UInt64.size → ∀ request, ¬ c.Fails request) ∧
    (∀ (h : Host) capacity reports, (h.wait capacity).2 = .reports reports → reports.length ≤ capacity) ∧
    ∀ (t : Tasks Nat (ConnectionTask X)) site slot done,
      (t.runSlot (Engine.runner protocol id) site slot).completed = some done → (t.slots.get? slot).isSome := by
  refine ⟨fun signal => hr.stopped, hr.run limit, Server.take_of_interrupted, Server.leads_run limit s,
    fun c hleads hlive request => ?_, fun h capacity reports hw => ?_, fun t site slot done hdone => ?_⟩
  · obtain ⟨-, notifier, armWrites, hempty⟩ := Server.empty_of_bind hb
    have hfirst : first.connections.Roomy := hempty ▸ Connections.roomy_empty notifier armWrites
    exact ((hr.leads.trans hleads).roomy hfirst).not_fails hlive request
  · have hlength := h.length_harvest capacity h.queue
    unfold Host.wait at hw
    dsimp only at hw
    split at hw
    · split at hw <;> cases hw
    · cases hw
      simpa using hlength
  · obtain ⟨-, ⟨-, -, hnone, -⟩ | ⟨tenant, ht, -⟩⟩ := Tasks.runSlot_cases (Engine.runner protocol id) t site slot
    · rw [hnone] at hdone
      cases hdone
    · simp [ht]

namespace Sample

/-- a host on which the first accept and the first watch of a connection are refused, and where later a wait is cut
short and the server is told to end -/
def troubled : Host where
  refusals := { accept := [some ⟨24⟩], watch := [none, none, some ⟨28⟩] }
  others := List.replicate 10 [] ++ [[.interrupt], [.signal 15]]

def brave : Server Unit := (Server.bind troubled .default protocol).server.toOption.get (by decide +kernel)

theorem bind_brave : (Server.bind troubled .default protocol).server = .ok brave := eq_ok_get _

/-- about to wait for the first time, with a client that has called -/
def besieged : Server Unit :=
  ((brave.prepare 2).get (by decide +kernel)).server.onHost (·.act (.connect 0 ⟨"198.51.100.7:40000"⟩))

theorem reached_besieged : ∃ past, Reached brave .wait besieged past :=
  ⟨_, .others _ (.pumped .start (Option.some_get _).symm)⟩

end Sample

theorem only_signals_stop_besieged :
    (Sample.besieged.run 4).halt = some (.stopped .terminate) ∧
      (∃ m later, Reached Sample.brave .wait m later ∧ m.StoppedBy .terminate (Sample.besieged.run 4).server) ∧
      (Sample.besieged.run 3).halt = none ∧
        ∃ phase later, Reached Sample.brave phase (Sample.besieged.run 3).server later := by
  obtain ⟨past, hr⟩ := Sample.reached_besieged
  have hstopped : (Sample.besieged.run 4).halt = some (.stopped .terminate) := by decide +kernel
  have hgoes : (Sample.besieged.run 3).halt = none := by decide +kernel
  obtain ⟨phase, later, hrest⟩ := (only_signals_stop Sample.bind_brave hr 3).2.1 (by simp [hgoes])
  exact ⟨hstopped, (only_signals_stop Sample.bind_brave hr 4).1 _ hstopped, hgoes, phase, _, hrest⟩

end EventServer
