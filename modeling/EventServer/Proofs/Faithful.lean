/-
A connection is a faithful byte stream.

`Recorded` is a table with the account of one of its connections (`Traffic`). Others act between the calls of the task
and, as the host has it, before each of the raw calls of which a call is made: those that a signal cuts short, the last
one, and the one that has room watched. So a call is recorded by making it once more on a host that puts down what
others do (`Overheard`), and what the table does is not changed by that (`run_connections`, `Overheard.retry_host`).

However often a raw call is cut short, a read or a write is the last of them, after what others did until then
(`Tallies.recv_last`, `Tallies.send_last`); those before it gave nothing and took nothing. So a table tallies with its
account after every move (`Tallies.step`), and `faithful_stream` says what that means for the bytes.
-/
import EventServer.Proofs.Traffic

namespace EventServer

/-- what an answer grants, if it does -/
def Poll.granted {ε α : Type} (answer : Poll (Except ε α)) : Option α := answer.toOption.bind Except.toOption

/-! ## Hosts with an account -/

/-- a host, with the account of one of its connections -/
structure Overheard where
  host : Host
  traffic : Traffic

namespace Overheard

variable {o : Overheard} {d : Descriptor} {i : Nat} {t t' : Traffic} {α : Type}

def act (i : Nat) (o : Overheard) (deed : Deed) : Overheard := ⟨o.host.act deed, o.traffic.overhear i o.host deed⟩

/-- others do what they do before the next call -/
def elapse (i : Nat) (o : Overheard) : Overheard :=
  (o.host.others.headD []).foldl (act i) { o with host := { o.host with others := o.host.others.tail } }

/-- a call, once others have done what they do before it -/
def call (i : Nat) (operation : Host → Host × α) (o : Overheard) : Overheard × α :=
  ({ o.elapse i with host := (operation (o.elapse i).host).1 }, (operation (o.elapse i).host).2)

/-- a watch is to be changed: others do what they do before that, if the slot has a word -/
def asked (i key : Nat) (o : Overheard) : Overheard :=
  if (Token.connection key).word?.isSome then o.elapse i else o

theorem host_elapse (i : Nat) (o : Overheard) : (o.elapse i).host = o.host.elapse := by
  have hacts : ∀ (deeds : List Deed) (o : Overheard), (deeds.foldl (act i) o).host = deeds.foldl Host.act o.host :=
    fun deeds => by
      induction deeds with
      | nil => exact fun _ => rfl
      | cons deed rest ih => exact fun o => ih (o.act i deed)
  exact hacts _ _

/-- to put down what others do changes nothing of a retried call -/
theorem retry_host (i : Nat) (operation : Host → Host × Except Errno α) (limit : Nat) (o : Overheard) :
    (Nonblocking.retry (call i operation) limit o).1.host =
        (Nonblocking.retry (fun h => operation h.elapse) limit o.host).1 ∧
      (Nonblocking.retry (call i operation) limit o).2 =
        (Nonblocking.retry (fun h => operation h.elapse) limit o.host).2 := by
  have hcall : ∀ o, (call i operation o).1.host = (operation o.host.elapse).1 ∧
      (call i operation o).2 = (operation o.host.elapse).2 := fun o => by
    simp only [call, host_elapse]
    exact ⟨trivial, trivial⟩
  induction limit generalizing o with
  | zero => exact hcall o
  | succ limit ih =>
    obtain ⟨hhost, hvalue⟩ := hcall o
    unfold Nonblocking.retry
    dsimp only
    rw [hvalue]
    split
    · rw [← hhost]
      exact ih _
    · exact ⟨hhost, rfl⟩

/-- the host tallies, and nothing was given or taken since an account -/
structure Since (d : Descriptor) (i : Nat) (t : Traffic) (o : Overheard) : Prop where
  tallies : o.host.Tallies d i o.traffic
  onward : t.Onward o.traffic

theorem Since.act (ho : o.Since d i t) (deed : Deed) : (o.act i deed).Since d i t :=
  ⟨ho.tallies.act deed, ho.onward.trans (o.traffic.onward_overhear ..)⟩

theorem Since.elapse (ho : o.Since d i t) : (o.elapse i).Since d i t := by
  have hacts : ∀ (deeds : List Deed) {o : Overheard}, o.Since d i t → (deeds.foldl (Overheard.act i) o).Since d i t :=
    fun deeds => by
      induction deeds with
      | nil => exact fun ho => ho
      | cons deed rest ih => exact fun ho => ih (ho.act deed)
  exact hacts _ ⟨ho.tallies.of_same rfl rfl, ho.onward⟩

/-- a retried call on the server's end is its last try, after what others did; those that were cut short gave and took
nothing -/
theorem Since.retry {operation : Host → Host × Except Errno α} (note : Traffic → Option α → Traffic)
    (hop : ∀ {h t}, h.Tallies d i t → (operation h).1.Tallies d i (note t (operation h).2.toOption))
    (hnone : ∀ t, note t none = t) (ho : o.Since d i t) (limit : Nat) :
    ∃ last : Overheard, last.Since d i t ∧ Nonblocking.retry (call i operation) limit o =
      ({ last with host := (operation last.host).1 }, (operation last.host).2) := by
  have hcut : ∀ o, Since d i t o → Nonblocking.cutShort (call i operation o).2 → Since d i t (call i operation o).1 :=
    fun o ho hcut => by
      have hafter := hop ho.elapse.tallies
      unfold call at hcut ⊢
      dsimp only at hcut ⊢
      cases hr : (operation (o.elapse i).host).2 with
      | ok value =>
        rw [hr] at hcut
        cases hcut
      | error code =>
        rw [hr, Except.toOption, hnone] at hafter
        exact ⟨hafter, ho.elapse.onward⟩
  obtain ⟨o', ho', he⟩ := Nonblocking.retry_last (call i operation) hcut limit ho
  exact ⟨o'.elapse i, ho'.elapse, he⟩

end Overheard

/-! ## Tables with an account -/

/-- a table, with the account of one of its connections -/
structure Recorded (H : Type) where
  connections : Connections H
  traffic : Traffic

/-- what happens around a connection: others do something, or its task polls it -/
inductive Move (H : Type) where
  | others (deed : Deed)
  | recv (handle : H) (count : Nat)
  | send (handle : H) (bytes : Bytes)

/-- the table after a move -/
def Move.apply {H : Type} (key : Nat) (c : Connections H) : Move H → Connections H
  | others deed => c.onHost (·.act deed)
  | recv handle count => (c.recv key handle count).state
  | send handle bytes => (c.send key handle bytes).state

namespace Recorded

variable {H : Type} {r r' : Recorded H} {key i : Nat} {d : Descriptor} {handle : H}

def overheard (r : Recorded H) : Overheard := ⟨r.connections.host, r.traffic⟩

/-- the host once a raw call is made until it is not cut short, with what others did meanwhile -/
def during {α : Type} (i : Nat) (operation : Host → Host × Except Errno α) (r : Recorded H) : Overheard :=
  (Nonblocking.retry (Overheard.call i operation) r.connections.host.cuts r.overheard).1

def recv (i key : Nat) (r : Recorded H) (handle : H) (count : Nat) : Recorded H where
  connections := (r.connections.recv key handle count).state
  traffic :=
    match r.connections.get? key with
    | none => r.traffic
    | some conn =>
      (r.during i (·.recv conn.descriptor count)).traffic.gives (r.connections.recv key handle count).value.granted

/-- a write that has to wait may have it asked that room be watched, before which others act again -/
def send (i key : Nat) (r : Recorded H) (handle : H) (bytes : Bytes) : Recorded H where
  connections := (r.connections.send key handle bytes).state
  traffic :=
    match r.connections.get? key with
    | none => r.traffic
    | some conn =>
      let written := r.during i (·.send conn.descriptor bytes)
      match (r.connections.send key handle bytes).value with
      | .ready answer => written.traffic.takes bytes answer.toOption
      | .pending =>
        if r.connections.armWrites && !conn.armed then (written.asked i key).traffic else written.traffic

def step (i key : Nat) (r : Recorded H) : Move H → Recorded H
  | .others deed => ⟨r.connections.onHost (·.act deed), r.traffic.overhear i r.connections.host deed⟩
  | .recv handle count => r.recv i key handle count
  | .send handle bytes => r.send i key handle bytes

def run (i key : Nat) (r : Recorded H) (moves : List (Move H)) : Recorded H := moves.foldl (step i key) r

/-- the bytes that are still to be read at an end of a stream -/
def unread (r : Recorded H) (i : Nat) (side : Side) : Bytes :=
  ((r.connections.host.streams[i]?).map (·.toRead side)).getD []

/-- the connection was reset: its client reset it, left bytes unread when it closed, or was sent more after that -/
def reset (r : Recorded H) (i : Nat) : Bool :=
  r.traffic.severed || (r.connections.host.streams[i]?).any (·.far.broken)

/-- the client has shut its end down, or has closed it -/
def ended (r : Recorded H) (i : Nat) : Bool :=
  (r.connections.host.streams[i]?).any fun s => s.near.finished || s.near.closed

/-- a table whose account starts with what is on its way -/
def start (i : Nat) (c : Connections H) : Recorded H :=
  let fresh : Recorded H := ⟨c, {}⟩
  ⟨c, { sent := fresh.unread i .far, taken := fresh.unread i .near }⟩

/-- **The projection is exact**: the table does what it does without an account -/
theorem run_connections (i key : Nat) (r : Recorded H) (moves : List (Move H)) :
    (r.run i key moves).connections = moves.foldl (Move.apply key) r.connections := by
  induction moves generalizing r with
  | nil => rfl
  | cons move rest ih =>
    refine (ih (r.step i key move)).trans ?_
    cases move <;> rfl

/-- the connection is in its slot, and its stream tallies with the account -/
structure Tallies (key : Nat) (d : Descriptor) (i : Nat) (r : Recorded H) : Prop where
  conn : ∃ conn, r.connections.get? key = some conn ∧ conn.descriptor = d
  host : r.connections.host.Tallies d i r.traffic

theorem Tallies.since (hr : r.Tallies key d i) : r.overheard.Since d i r.traffic := ⟨hr.host, .refl _⟩

/-- changing a watch leaves the bytes alone, whatever others do before -/
theorem rearm_since {c : Connections H} {o : Overheard} {t : Traffic} (hc : c.host = o.host) (ho : o.Since d i t)
    (key : Nat) (conn : Connection H) (armed : Bool) :
    (c.rearm key conn armed).state.host.Tallies d i (o.asked i key).traffic ∧ t.Onward (o.asked i key).traffic := by
  have hrewatch : ∀ interest,
      (c.notifier.reregister conn.descriptor (.connection key) interest).state.host.Tallies d i
        (o.asked i key).traffic ∧ t.Onward (o.asked i key).traffic := fun interest => by
    unfold Notifier.reregister Overheard.asked
    cases (Token.connection key).word? with
    | none =>
      have hbefore : c.host.Tallies d i o.traffic := hc ▸ ho.tallies
      simp only [Option.isSome_none, Bool.false_eq_true, if_false]
      exact ⟨hbefore, ho.onward⟩
    | some word =>
      have hafter := ho.elapse.tallies.rewatch conn.descriptor word interest
      rw [o.host_elapse i, ← hc] at hafter
      simp only [Option.isSome_some, if_true]
      refine ⟨?_, ho.elapse.onward⟩
      split <;> exact hafter
  unfold Connections.rearm
  dsimp only
  split <;> exact hrewatch _

/-- a read is one raw call, after what others did until then -/
theorem Tallies.recv_last (hr : r.Tallies key d i) (handle : H) (count : Nat) :
    ∃ last : Overheard, last.Since d i r.traffic ∧
      (r.recv i key handle count).connections.host = (last.host.recv d count).1 ∧
      (r.connections.recv key handle count).value.granted = (last.host.recv d count).2.toOption ∧
      (r.recv i key handle count).traffic = last.traffic.gives (last.host.recv d count).2.toOption := by
  obtain ⟨conn, hg, rfl⟩ := hr.conn
  obtain ⟨last, hlast, he⟩ := hr.since.retry Traffic.gives (fun ht => ht.recv count) Traffic.gives_none
    r.connections.host.cuts
  obtain ⟨hhost, hvalue⟩ := Overheard.retry_host i (·.recv conn.descriptor count) r.connections.host.cuts r.overheard
  rw [he] at hhost hvalue
  have hraw : Nonblocking.recv r.connections.notifier.host conn.descriptor count =
      ((last.host.recv conn.descriptor count).1, .ofResult (last.host.recv conn.descriptor count).2) :=
    Prod.ext hhost.symm (congrArg Outcome.ofResult hvalue.symm)
  have hduring : (r.during i (·.recv conn.descriptor count)).traffic = last.traffic :=
    congrArg (fun made => made.1.traffic) he
  have hanswer : (r.connections.recv key handle count).state.host = (last.host.recv conn.descriptor count).1 ∧
      (r.connections.recv key handle count).value.granted = (last.host.recv conn.descriptor count).2.toOption := by
    unfold Connections.recv
    simp only [hg, hraw]
    cases hr : (last.host.recv conn.descriptor count).2 with
    | ok bytes => exact ⟨rfl, rfl⟩
    | error code =>
      rcases Outcome.ofResult_error (α := Bytes) code with ho | ⟨fault, ho⟩
      · rw [ho]
        exact ⟨rfl, rfl⟩
      · rw [ho]
        exact ⟨rfl, rfl⟩
  refine ⟨last, hlast, hanswer.1, hanswer.2, ?_⟩
  simp only [recv, hg, hduring, hanswer.2]

/-- so is a write; if it has to wait, others may act once more before room is watched -/
theorem Tallies.send_last (hr : r.Tallies key d i) (handle : H) (bytes : Bytes) :
    ∃ last : Overheard, last.Since d i r.traffic ∧
      (r.connections.send key handle bytes).value.granted = (last.host.send d bytes).2.toOption ∧
      (r.send i key handle bytes).connections.host.Tallies d i (r.send i key handle bytes).traffic ∧
      ∃ t, r.traffic.Onward t ∧
        (r.send i key handle bytes).traffic = t.takes bytes (r.connections.send key handle bytes).value.granted := by
  obtain ⟨conn, hg, rfl⟩ := hr.conn
  obtain ⟨last, hlast, he⟩ := hr.since.retry (fun t => t.takes bytes) (fun ht => ht.send bytes)
    (fun t => t.takes_none bytes) r.connections.host.cuts
  obtain ⟨hhost, hvalue⟩ := Overheard.retry_host i (·.send conn.descriptor bytes) r.connections.host.cuts r.overheard
  have hduring : r.during i (·.send conn.descriptor bytes) =
      { last with host := (last.host.send conn.descriptor bytes).1 } := congrArg Prod.fst he
  rw [he] at hhost hvalue
  have hraw : Nonblocking.send r.connections.notifier.host conn.descriptor bytes =
      ((last.host.send conn.descriptor bytes).1, .ofResult (last.host.send conn.descriptor bytes).2) :=
    Prod.ext hhost.symm (congrArg Outcome.ofResult hvalue.symm)
  have hafter := hlast.tallies.send bytes
  refine ⟨last, hlast, ?_⟩
  unfold send Connections.send
  simp only [hg, hraw, hduring]
  cases hr : (last.host.send conn.descriptor bytes).2 with
  | ok count =>
    rw [hr] at hafter
    exact ⟨rfl, hafter, last.traffic, hlast.onward, rfl⟩
  | error code =>
    rw [hr, Except.toOption, Traffic.takes_none] at hafter
    rcases Outcome.ofResult_error (α := Nat) code with ho | ⟨fault, ho⟩
    · -- it has to wait, and what is asked of the host then leaves the bytes alone
      have hwritten : Overheard.Since conn.descriptor i r.traffic
          { last with host := (last.host.send conn.descriptor bytes).1 } := ⟨hafter, hlast.onward⟩
      have harms : (r.connections.onHost fun _ => (last.host.send conn.descriptor bytes).1).armWrites =
        r.connections.armWrites := rfl
      rw [ho]
      refine ⟨rfl, ?_⟩
      dsimp only [Poll.granted, Poll.toOption, Option.bind_none]
      rw [harms]
      cases r.connections.armWrites && !conn.armed with
      | false =>
        simp only [Bool.false_eq_true, if_false]
        exact ⟨hafter, last.traffic, hlast.onward, (Traffic.takes_none ..).symm⟩
      | true =>
        simp only [if_true]
        obtain ⟨htallies, honward⟩ := rearm_since (c := r.connections.onHost fun _ =>
          (last.host.send conn.descriptor bytes).1) rfl hwritten key
            { conn with write := (conn.write.store handle).1 } true
        exact ⟨htallies, _, honward, (Traffic.takes_none ..).symm⟩
    · rw [ho]
      refine ⟨rfl, ?_, last.traffic, hlast.onward, rfl⟩
      simpa [Poll.granted, Poll.toOption, Except.toOption] using hafter

theorem Tallies.recv (hr : r.Tallies key d i) (handle : H) (count : Nat) :
    (r.recv i key handle count).Tallies key d i := by
  obtain ⟨conn, hg, hd⟩ := hr.conn
  obtain ⟨conn', hg', hd', -⟩ := ((r.connections.amends_recv key handle count).touched (Q := fun _ => True)
    fun _ _ => trivial).conns hg
  obtain ⟨last, hlast, hhost, -, htraffic⟩ := hr.recv_last handle count
  refine ⟨⟨conn', hg', hd'.trans hd⟩, ?_⟩
  rw [hhost, htraffic]
  exact hlast.tallies.recv count

theorem Tallies.send (hr : r.Tallies key d i) (handle : H) (bytes : Bytes) :
    (r.send i key handle bytes).Tallies key d i := by
  obtain ⟨conn, hg, hd⟩ := hr.conn
  obtain ⟨conn', hg', hd', -⟩ := ((r.connections.amends_send key handle bytes).touched (Q := fun _ => True)
    fun _ _ => trivial).conns hg
  obtain ⟨-, -, -, htallies, -⟩ := hr.send_last handle bytes
  exact ⟨⟨conn', hg', hd'.trans hd⟩, htallies⟩

/-- **A table tallies with its account after every move** -/
theorem Tallies.step (hr : r.Tallies key d i) (move : Move H) : (r.step i key move).Tallies key d i := by
  cases move with
  | others deed => exact ⟨hr.conn, hr.host.act deed⟩
  | recv handle count => exact hr.recv handle count
  | send handle bytes => exact hr.send handle bytes

theorem Tallies.run (hr : r.Tallies key d i) (moves : List (Move H)) : (r.run i key moves).Tallies key d i := by
  induction moves generalizing r with
  | nil => exact hr
  | cons move rest ih => exact ih (hr.step move)

theorem tallies_start {c : Connections H} {conn : Connection H} {s : Stream} (hg : c.get? key = some conn)
    (hd : c.host.device? conn.descriptor = some (.stream i .far)) (hs : c.host.streams[i]? = some s)
    (hserves : s.Serviceable) : (start i c).Tallies key conn.descriptor i := by
  refine ⟨⟨conn, hg, rfl⟩, hd, s, hs, ?_⟩
  simp only [start, unread, hs, Option.map_some, Option.getD_some]
  exact hserves.tallies

/-! ## What the bytes come to -/

/-- nothing went over a connection but what its client sent and read -/
structure Idle (i : Nat) (r r' : Recorded H) : Prop where
  given : r'.traffic.given = r.traffic.given
  taken : r'.traffic.taken = r.traffic.taken
  unread : ∃ more, r'.traffic.sent = r.traffic.sent ++ more ∧ r'.unread i .far = r.unread i .far ++ more
  unheard : r.reset i = false → r'.reset i = false →
    ∃ more, r'.traffic.heard = r.traffic.heard ++ more ∧ r.unread i .near = more ++ r'.unread i .near

/-- what a connection does with the bytes that it is given, and what the next call on it would do -/
structure Faithful (i key : Nat) (r : Recorded H) : Prop where
  /-- the reads were given the first of the bytes that the client sent, and the others are still to be read -/
  read : r.traffic.sent = r.traffic.given ++ r.unread i .far
  /-- what the client has read, and can still read, are the first of the bytes that the writes had accepted -/
  heard : r.traffic.heard ++ r.unread i .near <+: r.traffic.taken
  /-- they are all of them, unless the connection was reset -/
  whole : r.reset i = false → r.traffic.taken = r.traffic.heard ++ r.unread i .near
  fills : ∀ {handle count bytes}, (r.connections.recv key handle count).value = .ready (.ok bytes) →
    bytes.length ≤ count
  ends : ∀ {handle count}, 0 < count → (r.connections.recv key handle count).value = .ready (.ok []) →
    (r.recv i key handle count).traffic.given = (r.recv i key handle count).traffic.sent ∧
      (r.recv i key handle count).ended i = true
  accepts : ∀ {handle bytes count}, (r.connections.send key handle bytes).value = .ready (.ok count) →
    count ≤ bytes.length
  idle_recv : ∀ {handle count}, (r.connections.recv key handle count).value.granted = none →
    r.Idle i (r.recv i key handle count)
  idle_send : ∀ {handle bytes}, (r.connections.send key handle bytes).value.granted = none →
    r.Idle i (r.send i key handle bytes)

theorem Tallies.read (hr : r.Tallies key d i) : r.traffic.sent = r.traffic.given ++ r.unread i .far := by
  obtain ⟨s, hs, ht⟩ := hr.host.stream
  simp only [unread, hs, Option.map_some, Option.getD_some]
  exact ht.read

theorem Tallies.heard (hr : r.Tallies key d i) : r.traffic.heard ++ r.unread i .near <+: r.traffic.taken := by
  obtain ⟨s, hs, ht⟩ := hr.host.stream
  simp only [unread, hs, Option.map_some, Option.getD_some]
  exact ht.heard

theorem Tallies.whole (hr : r.Tallies key d i) (hreset : r.reset i = false) :
    r.traffic.taken = r.traffic.heard ++ r.unread i .near := by
  obtain ⟨s, hs, ht⟩ := hr.host.stream
  simp only [reset, hs, Option.any_some, Bool.or_eq_false_iff] at hreset
  simp only [unread, hs, Option.map_some, Option.getD_some]
  exact ht.whole hreset.1 hreset.2

theorem Tallies.idle (hr : r.Tallies key d i) (hr' : r'.Tallies key d i) (ho : r.traffic.Onward r'.traffic) :
    r.Idle i r' := by
  refine ⟨ho.given, ho.taken, ?_, fun hreset hreset' => ?_⟩
  · obtain ⟨more, hmore⟩ := ho.sent
    have hboth : r.traffic.given ++ r'.unread i .far = r.traffic.given ++ (r.unread i .far ++ more) :=
      calc r.traffic.given ++ r'.unread i .far = r'.traffic.sent := by rw [hr'.read, ho.given]
        _ = r.traffic.given ++ (r.unread i .far ++ more) := by rw [← hmore, hr.read, List.append_assoc]
    exact ⟨more, hmore.symm, List.append_cancel_left hboth⟩
  · obtain ⟨more, hmore⟩ := ho.heard
    have hboth : r.traffic.heard ++ r.unread i .near = r.traffic.heard ++ (more ++ r'.unread i .near) :=
      calc r.traffic.heard ++ r.unread i .near = r'.traffic.taken := by rw [← hr.whole hreset, ho.taken]
        _ = r.traffic.heard ++ (more ++ r'.unread i .near) := by
          rw [hr'.whole hreset', ← hmore, List.append_assoc]
    exact ⟨more, hmore.symm, List.append_cancel_left hboth⟩

theorem granted_eq_some {ε α : Type} {answer : Poll (Except ε α)} {value : α} (ha : answer = .ready (.ok value)) :
    answer.granted = some value := by
  rw [ha]
  rfl

theorem toOption_eq_some {α : Type} {result : Except Errno α} {value : α} (hr : result.toOption = some value) :
    result = .ok value := by
  cases result with
  | ok _ => exact congrArg Except.ok (Option.some.inj hr)
  | error _ => cases hr

theorem Tallies.faithful (hr : r.Tallies key d i) : r.Faithful i key where
  read := hr.read
  heard := hr.heard
  whole := hr.whole
  fills {handle count bytes} ha := by
    obtain ⟨last, hlast, -, hanswer, -⟩ := hr.recv_last handle count
    exact (hlast.tallies.recv_ok (toOption_eq_some (hanswer.symm.trans (granted_eq_some ha)))).1
  ends {handle count} hcount ha := by
    obtain ⟨last, hlast, hhost, hanswer, -⟩ := hr.recv_last handle count
    obtain ⟨s, hs, hnothing, hended⟩ :=
      (hlast.tallies.recv_ok (toOption_eq_some (hanswer.symm.trans (granted_eq_some ha)))).2 hcount rfl
    rw [← hhost] at hs
    have hread := (hr.recv handle count).read
    simp only [unread, hs, Option.map_some, Option.getD_some, hnothing, List.append_nil] at hread
    simp only [ended, hs, Option.any_some]
    exact ⟨hread.symm, hended⟩
  accepts {handle bytes count} ha := by
    obtain ⟨last, hlast, hanswer, -⟩ := hr.send_last handle bytes
    exact hlast.tallies.send_le (toOption_eq_some (hanswer.symm.trans (granted_eq_some ha)))
  idle_recv {handle count} ha := by
    obtain ⟨last, hlast, -, hanswer, htraffic⟩ := hr.recv_last handle count
    refine hr.idle (hr.recv handle count) ?_
    rw [htraffic, ← hanswer, ha, Traffic.gives_none]
    exact hlast.onward
  idle_send {handle bytes} ha := by
    obtain ⟨-, -, -, -, t, honward, htraffic⟩ := hr.send_last handle bytes
    refine hr.idle (hr.send handle bytes) ?_
    rw [htraffic, ha, Traffic.takes_none]
    exact honward

end Recorded

/-- **A connection is a faithful byte stream.** A connection in a table has come about in any way. Then others do
anything, and its task reads and writes, in any order and with any calls cut short; and at any time the reads were given
the first of what its client sent, in order, and the rest is still to be read; what the client has read, and can still
read, are the first of what the writes had accepted, and all of it unless the connection was reset. A read that has room
is given nothing only once all was given and the client has shut its end down or closed it. A call that has to wait or
fails neither takes nor gives a byte. -/
theorem faithful_stream {H : Type} {c : Connections H} {key i : Nat} {conn : Connection H} {s : Stream}
    (hg : c.get? key = some conn) (hd : c.host.device? conn.descriptor = some (.stream i .far))
    (hs : c.host.streams[i]? = some s) (harises : s.Arises) (moves : List (Move H)) :
    ((Recorded.start i c).run i key moves).Faithful i key :=
  ((Recorded.tallies_start hg hd hs harises.serviceable).run moves).faithful

namespace Sample

/-- a client that has called at a listener, and has sent three bytes -/
def calling : Host :=
  ((({} : Host).opened (.listener [])).1.act (.connect 0 ⟨"198.51.100.7:40000"⟩)).act (.send 1 [1, 2, 3])

/-- its connection was taken in; a signal and another byte will come in the calls that are made next -/
def chat : Connections Nat :=
  (((Connections.empty ⟨(calling.accept 0).1, 0, 0⟩ true).insert 2 ⟨"198.51.100.7:40000"⟩).state).onHost fun h =>
    { h with others := [[], [.interrupt], [.send 1 [4]]] }

/-- the task reads, is cut short, reads on to the end, and answers while the client reads -/
def moves : List (Move Nat) :=
  [.recv 7 2, .recv 7 9, .send 7 [9, 8, 7], .others (.recv 1 2), .recv 7 9, .others (.finish 1), .recv 7 9, .send 7 [6]]

end Sample

/-- all four bytes were given, and of the four that were accepted the client has two to read -/
theorem faithful_stream_chat :
    ((Recorded.start 0 Sample.chat).run 0 0 Sample.moves).Faithful 0 0 ∧
      ((Recorded.start 0 Sample.chat).run 0 0 Sample.moves).traffic.given = [1, 2, 3, 4] ∧
      ((Recorded.start 0 Sample.chat).run 0 0 Sample.moves).traffic.heard = [9, 8] ∧
      ((Recorded.start 0 Sample.chat).run 0 0 Sample.moves).traffic.taken = [9, 8, 7, 6] :=
  ⟨faithful_stream (show Sample.chat.get? 0 = some { descriptor := 2, peer := ⟨"198.51.100.7:40000"⟩ } from rfl) rfl rfl
      ((Stream.Arises.fresh .inet).send .near [1, 2, 3]) Sample.moves,
    by decide +kernel, by decide +kernel, by decide +kernel⟩

end EventServer
