/-
What a server asks of its protocol so that its clients are answered, in terms of the calls of one poll.

A talk with a client that stays is answered in either of two ways at each call: a read waits, or it gets some of the
bytes that are to come, and a write waits, or some of its bytes are accepted. `Talk.Converses` is what holds at the end
of a talk however it is answered; it keeps an account of what is to come and of what is owed (`Footing`).
`Talk.Departs` is what holds at the end of a talk whose client has left, where a read finds the end of the bytes. Both
go along `bind`.

`Protocol.Answers` are the protocols that read requests as their bytes come and keep the connection: wherever the bytes
are cut, a poll writes what is owed and nothing else, and waits for bytes only if it owes nothing for what has come.
No stream, table or wait occurs in it. `Converses.across` carries a talk out at a berth, where the account is kept by
the bytes on their way.
-/
import EventServer.Proofs.Asking
import EventServer.Proofs.Flow

namespace EventServer

theorem Bytes.length_ofText (text : String) : (ofText text).length = text.utf8ByteSize := rfl

namespace Http

variable {α β X : Type} {o : Options}

/-! ## What is answered -/

/-- the answer to a request -/
def success (o : Options) : Bytes :=
  Bytes.ofText ("HTTP/1.1 200 OK\r\ncontent-length: 0\r\ndate: " ++ o.date ++ "\r\n\r\n")

theorem success_ne_nil (o : Options) : success o ≠ [] := by
  intro hnone
  have hlength := congrArg List.length hnone
  have hend : "\r\n\r\n".utf8ByteSize = 4 := by decide
  rw [success, Bytes.length_ofText, String.utf8ByteSize_append, hend, List.length_nil] at hlength
  omega

/-- so many of them, one behind the other -/
def successes (o : Options) (count : Nat) : Bytes := (List.replicate count (success o)).flatten

theorem successes_succ (o : Options) (count : Nat) : successes o (count + 1) = success o ++ successes o count := by
  rw [successes, List.replicate_succ, List.flatten_cons, successes]

theorem renderAnswer_get (o : Options) :
    renderAnswer .http11 200 true (some Get.method) o.date = success o := by
  have hlength : isLengthless (some Get.method) 200 = false := by decide +kernel
  have hfront : Version.http11.text ++ " " ++ toString 200 ++ " " ++ statusText 200 ++ lineEnd ++
      ((connectionWord .http11 true).map fun word => "connection: " ++ word ++ lineEnd).getD "" ++
      (if isLengthless (some Get.method) 200 then "" else "content-length: 0" ++ lineEnd) ++ "date: " =
        "HTTP/1.1 200 OK\r\ncontent-length: 0\r\ndate: " := by
    rw [hlength]
    decide +kernel
  have hend : "\r\n\r\n" = lineEnd ++ lineEnd := by decide +kernel
  unfold renderAnswer
  rw [hfront, success, hend, ← String.append_assoc]

/-- what the service says to a request, as bytes -/
def Get.answer (o : Options) (g : Get) : Bytes :=
  ((ServiceCall.holding g.head.request).run.value.map fun answer =>
    renderAnswer g.head.version answer.status g.head.framing.persist (some g.head.request.method) o.date).getD []

/-- the service says the same to all requests -/
theorem Get.answers_eq (o : Options) (gets : List Get) : gets.flatMap (Get.answer o) = successes o gets.length := by
  induction gets with
  | nil => rfl
  | cons g rest ih =>
    rw [List.flatMap_cons, ih, List.length_cons, successes_succ]
    exact congrArg (· ++ _) (renderAnswer_get o)

/-! ## Talks with a client -/

/-- where a talk stands with its client: the bytes that are still to come, those that are still owed, and whether the
last read and the last write had to wait -/
structure Footing where
  coming : Bytes
  owed : Bytes
  starved : Bool := false
  stuffed : Bool := false

namespace Talk

variable {talk : Talk α} {f : Footing} {Q R : Footing → α → Prop} {P : α → Prop}

/-- what holds at the end of a talk with a client that stays, however its calls are answered. The talk asks for a byte
at least when it reads, writes nothing but what is owed next, and does not end the connection -/
def Converses : Talk α → Footing → (Footing → α → Prop) → Prop
  | done value, f, Q => Q f value
  | recv count next, f, Q => 0 < count ∧ (next .pending).Converses { f with starved := true } Q ∧
      ∀ bytes rest, bytes ≠ [] → bytes.length ≤ count → f.coming = bytes ++ rest →
        (next (.ready (.ok bytes))).Converses { f with coming := rest, starved := false } Q
  | send bytes next, f, Q => bytes ≠ [] ∧ bytes <+: f.owed ∧
      (next .pending).Converses { f with stuffed := true } Q ∧
      ∀ count, 0 < count → count ≤ bytes.length →
        (next (.ready (.ok count))).Converses { f with owed := f.owed.drop count, stuffed := false } Q
  | shutdown _, _, _ => False
  | note _ next, f, Q => next.Converses f Q

namespace Converses

theorem bind {f' : α → Talk β} {R : Footing → β → Prop} (h : talk.Converses f Q)
    (hf : ∀ after value, Q after value → (f' value).Converses after R) : (talk >>= f').Converses f R := by
  induction talk generalizing f with
  | done value => exact hf _ _ h
  | recv count next ih =>
    obtain ⟨hcount, hwaits, hcomes⟩ := h
    exact ⟨hcount, ih _ hwaits, fun bytes rest hsome hfits hsplit => ih _ (hcomes bytes rest hsome hfits hsplit)⟩
  | send bytes next ih =>
    obtain ⟨hsome, howed, hwaits, hgoes⟩ := h
    exact ⟨hsome, howed, ih _ hwaits, fun count hpos hfits => ih _ (hgoes count hpos hfits)⟩
  | shutdown next => exact h.elim
  | note fact next ih => exact ih h

theorem mono (h : talk.Converses f Q) (hq : ∀ after value, Q after value → R after value) : talk.Converses f R := by
  have hbound : (talk >>= done).Converses f R := h.bind hq
  rwa [bind_done] at hbound

theorem reports (facts : List Note) (h : talk.Converses f Q) : (Talk.reports facts talk).Converses f Q := by
  induction facts with
  | nil => exact h
  | cons fact rest ih => exact ih

end Converses

/-- what holds at the end of a talk whose client has left. The talk has nothing to write and reports no failure -/
def Departs : Talk α → (α → Prop) → Prop
  | done value, P => P value
  | recv _ next, P => (next (.ready (.ok []))).Departs P
  | send _ _, _ => False
  | shutdown next, P => (next (.ok ())).Departs P
  | note fact next, P => fact ≠ .taskFailed ∧ next.Departs P

theorem Departs.bind {next : α → Talk β} {P' : β → Prop} (h : talk.Departs P)
    (hf : ∀ value, P value → (next value).Departs P') : (talk >>= next).Departs P' := by
  induction talk with
  | done value => exact hf _ h
  | recv count next ih => exact ih _ h
  | send bytes next => exact h.elim
  | shutdown next ih => exact ih _ h
  | note fact next ih => exact ⟨h.1, ih h.2⟩

/-- what holds of every talk whose client has left holds of its run over a transport, and the site is as every call
leaves it -/
theorem Departs.run {σ : Type} (T : Transport σ) {J : σ → Prop}
    (hrecv : ∀ {site} count, J site → J (T.recv site count).1 ∧ (T.recv site count).2 = .ready (.ok []))
    (hshutdown : ∀ {site}, J site → J (T.shutdown site).1 ∧ (T.shutdown site).2 = .ok ())
    (hnote : ∀ {site fact}, fact ≠ .taskFailed → J site → J (T.note site fact)) (h : talk.Departs P) {site : σ}
    (hj : J site) : J (talk.run T site).1 ∧ P (talk.run T site).2 := by
  induction talk generalizing site with
  | done value => exact ⟨hj, h⟩
  | recv count next ih =>
    obtain ⟨hj', hanswer⟩ := hrecv count hj
    rw [Talk.run, hanswer]
    exact ih _ h hj'
  | send bytes next => exact h.elim
  | shutdown next ih =>
    obtain ⟨hj', hanswer⟩ := hshutdown hj
    rw [Talk.run, hanswer]
    exact ih _ h hj'
  | note fact next ih => exact ih h.2 (hnote h.1 hj)

end Talk

/-- a protocol that answers requests as their bytes come and keeps the connection for as long as its client does. Where
an exchange stands is what will come to it and what it owes for that, together with what it owes already -/
structure Protocol.Answers (p : Protocol X) (o : Options) (stands : Bytes → Bytes → X → Prop) : Prop where
  /-- a new exchange owes what the service says to each request that will come -/
  start : ∀ gets : List Get, stands (gets.flatMap Get.bytes) (gets.flatMap (Get.answer o)) p.start
  /-- after a poll the exchange stands where the talk does. It goes on without its client, or a write had to wait, or a
  read had to, and nothing is owed once nothing more will come -/
  poll : ∀ {coming owed x} (n : Nat), stands coming owed x → (p.poll n x).Converses { coming, owed } fun f polled =>
    polled.ended = .waiting ∧ stands f.coming f.owed polled.exchange ∧
      (polled.roused = true ∨ f.starved = true ∧ (f.coming = [] → f.owed = []) ∨ f.stuffed = true)
  /-- an exchange that has answered everything ends with its client -/
  close : ∀ {x} (n : Nat), stands [] [] x →
    (p.poll n x).Departs fun polled => polled.ended = .complete ∧ polled.roused = false

end Http

open Http

variable {α : Type} {b : Berth} {answers unsent heard : Bytes} {f : Footing} {talk : Talk α} {Q : Footing → α → Prop}

/-! ## Talks at a berth -/

/-- a berth stands with its client as a talk does: what the client has not written yet comes last, and what it has
heard, what is on its way to it and what it is owed are all the answers -/
structure Berth.Bears (b : Berth) (answers unsent heard : Bytes) (f : Footing) : Prop where
  flows : b.stream.Flows
  coming : b.stream.toRead .far ++ unsent = f.coming
  told : heard ++ b.stream.toRead .near ++ f.owed = answers
  starved : f.starved = true → b.stream.toRead .far = [] ∧ b.read = true
  stuffed : f.stuffed = true → b.stream.writable .far = false ∧ b.write = true ∧ b.armed = true

namespace Berth.Bears

/-- a read at the berth waits, or gets some of the bytes that are to come -/
theorem recv (hb : b.Bears answers unsent heard f) {count : Nat} (hcount : 0 < count) :
    (∃ b', (Berth.transport true).recv b count = (b', .pending) ∧
        b'.Bears answers unsent heard { f with starved := true }) ∨
      ∃ bytes rest b', bytes ≠ [] ∧ bytes.length ≤ count ∧ f.coming = bytes ++ rest ∧
        (Berth.transport true).recv b count = (b', .ready (.ok bytes)) ∧
        b'.Bears answers unsent heard { f with coming := rest, starved := false } := by
  rcases Berth.recv_flows hb.flows hcount with
    ⟨hnone, hrecv⟩ | ⟨bytes, s, hsome, hfits, hrecv, hflows, hsplit, hnear⟩
  · exact .inl ⟨_, hrecv, { hb with starved := fun _ => ⟨hnone, rfl⟩ }⟩
  · have hcoming : f.coming = bytes ++ (s.toRead .far ++ unsent) := by
      rw [← hb.coming, hsplit, List.append_assoc]
    have hread : s.toRead .near = b.stream.toRead .near := congrArg (·.inbox.flatMap (·.bytes)) hnear
    have hroom : s.writable .far = b.stream.writable .far := by
      unfold Stream.writable Stream.load
      rw [show s.get Side.far.other = _ from hnear]
      rfl
    refine .inr ⟨bytes, _, _, hsome, hfits, hcoming, hrecv, hflows, rfl, ?_, Bool.noConfusion, fun hs => ?_⟩
    · rw [hread]
      exact hb.told
    · obtain ⟨hfull, hparked⟩ := hb.stuffed hs
      exact ⟨hroom.trans hfull, hparked⟩

/-- a write at the berth waits, and then for room, or some of its bytes are accepted -/
theorem send (hb : b.Bears answers unsent heard f) {bytes : Bytes} (hsome : bytes ≠ []) (howed : bytes <+: f.owed) :
    (∃ b', (Berth.transport true).send b bytes = (b', .pending) ∧
        b'.Bears answers unsent heard { f with stuffed := true }) ∨
      ∃ count b', 0 < count ∧ count ≤ bytes.length ∧
        (Berth.transport true).send b bytes = (b', .ready (.ok count)) ∧
        b'.Bears answers unsent heard { f with owed := f.owed.drop count, stuffed := false } := by
  rcases Berth.send_flows hb.flows hsome with
    ⟨hfull, b', hsend, hstream, hread, hwrite, harmed⟩ | ⟨count, s, hcount, hsend, hflows, hnear, hfar⟩
  · refine .inl ⟨b', hsend, hstream ▸ hb.flows, hstream ▸ hb.coming, hstream ▸ hb.told, fun hs => ?_, fun _ => ?_⟩
    · rw [hstream, hread]
      exact hb.starved hs
    · exact ⟨hstream ▸ hfull, hwrite, harmed⟩
  · refine .inr ⟨count + 1, _, Nat.succ_pos _, hcount, hsend, hflows, ?_, ?_, fun hs => ?_, Bool.noConfusion⟩
    · rw [hfar]
      exact hb.coming
    · -- what was accepted are the first of the bytes that are owed
      obtain ⟨rest, hrest⟩ := howed
      have htaken : bytes.take (count + 1) = f.owed.take (count + 1) := by
        rw [← hrest, List.take_append_of_le_length hcount]
      rw [hnear, htaken, ← hb.told]
      simp only [List.append_assoc, List.take_append_drop]
    · rw [hfar]
      exact hb.starved hs

end Berth.Bears

/-- a talk with a client that stays, at a berth where room to write is watched while a write is parked -/
theorem Http.Talk.Converses.across (h : talk.Converses f Q) (hb : b.Bears answers unsent heard f) :
    ∃ after, Q after (talk.run (Berth.transport true) b).2 ∧
      (talk.run (Berth.transport true) b).1.Bears answers unsent heard after := by
  induction talk generalizing f b with
  | done value => exact ⟨f, h, hb⟩
  | recv count next ih =>
    obtain ⟨hcount, hwaits, hcomes⟩ := h
    rw [Talk.run]
    rcases hb.recv hcount with ⟨b', hrecv, hb'⟩ | ⟨bytes, rest, b', hsome, hfits, hcoming, hrecv, hb'⟩
    · rw [hrecv]
      exact ih _ hwaits hb'
    · rw [hrecv]
      exact ih _ (hcomes bytes rest hsome hfits hcoming) hb'
  | send bytes next ih =>
    obtain ⟨hsome, howed, hwaits, hgoes⟩ := h
    rw [Talk.run]
    rcases hb.send hsome howed with ⟨b', hsend, hb'⟩ | ⟨count, b', hpos, hfits, hsend, hb'⟩
    · rw [hsend]
      exact ih _ hwaits hb'
    · rw [hsend]
      exact ih _ (hgoes count hpos hfits) hb'
  | shutdown next => exact h.elim
  | note fact next ih => exact ih h hb

end EventServer
