/-
How an exchange answers requests whose bytes come in any pieces.

`Exchange.Serves` is the account that is kept. The bytes that were read and those that are still to come are the
requests to come; what waits to be written and an answer to each request in hand or to come are what is owed.

Each phase of a round keeps the account however its calls are answered, with one lemma for a phase, and
`converses_rounds` for the rounds of a poll. So a poll leaves the exchange between two rounds and resumes its task, or
the exchange waits: for more of the next request (`WaitsForMore`), or for room to write an answer on (`WaitsForRoom`).
An exchange with nothing left to do takes the end of the bytes for the end of its work, and shuts its own end down
(`departs_poll`). This is what HTTP is asked for (`answers_protocol`), and it does not depend on where the bytes were
cut.
-/
import EventServer.Proofs.Conversing

namespace EventServer.Http

variable {e : Exchange} {todo : List Get} {tail coming owed : Bytes} {o : Options}

/-! ## Taking bytes in -/

namespace Inflow

variable {f : Inflow}

/-- what was read, and what is to come behind it, are the requests to come -/
structure Awaits (f : Inflow) (todo : List Get) (tail : Bytes) : Prop where
  amount : 0 < f.pace.amount
  coming : f.buffer ++ tail = todo.flatMap Get.bytes
  /-- only a part of the next request was looked at -/
  scanned : ∀ count, f.scanned = some count → ∀ g ∈ todo.head?, count < g.bytes.length

/-- the next request is not there in full -/
def Lacks (f : Inflow) (todo : List Get) : Prop := ∀ g ∈ todo.head?, f.buffer.length < g.bytes.length

theorem lacks_of_empty (hnone : f.buffer = []) (todo : List Get) : f.Lacks todo := by
  intro g _
  rw [hnone]
  exact g.length_pos

theorem Awaits.of_same {f' : Inflow} (ha : f.Awaits todo tail) (hb : f'.buffer = f.buffer) (hp : f'.pace = f.pace)
    (hs : f'.scanned = f.scanned) : f'.Awaits todo tail :=
  ⟨hp ▸ ha.amount, hb ▸ ha.coming, hs ▸ ha.scanned⟩

/-- nothing is left to be asked -/
theorem Awaits.nil (ha : f.Awaits [] tail) : f.buffer = [] ∧ tail = [] :=
  List.append_eq_nil_iff.1 ha.coming

/-- what looking for the next head comes to: it is there in full, or not, and then there is room to read on -/
theorem Awaits.look (ha : f.Awaits todo tail) :
    f.Lacks todo ∧ f.buffer.length < Pace.greatest ∧
        (if Exchange.mayHoldHead f then Head.scan f.buffer else .more) = .more ∨
      ∃ g rest left, todo = g :: rest ∧ f.buffer = g.bytes ++ left ∧
        (if Exchange.mayHoldHead f then Head.scan f.buffer else .more) = .head g.head left := by
  cases todo with
  | nil =>
    have hnone := ha.nil.1
    refine .inl ⟨lacks_of_empty hnone [], ?_, ?_⟩
    · rw [hnone]
      decide
    · rw [hnone, show Head.scan [] = .more from rfl, ite_self]
  | cons g rest =>
    have hcoming := ha.coming
    rw [List.flatMap_cons] at hcoming
    by_cases hshort : f.buffer.length < g.bytes.length
    · have hpart := List.prefix_of_prefix_length_le ⟨tail, hcoming⟩ (List.prefix_append ..) (Nat.le_of_lt hshort)
      refine .inl ⟨?_, Nat.lt_of_lt_of_le hshort g.short, ?_⟩
      · intro g' hg'
        cases hg'
        exact hshort
      · rw [g.scan_part hpart hshort, ite_self]
    · obtain ⟨left, hleft⟩ :=
        List.prefix_of_prefix_length_le (List.prefix_append ..) ⟨tail, hcoming⟩ (Nat.le_of_not_lt hshort)
      refine .inr ⟨g, rest, left, rfl, hleft.symm, ?_⟩
      have hlooks : Exchange.mayHoldHead f := by
        unfold Exchange.mayHoldHead
        rw [← hleft]
        cases hs : f.scanned with
        | none =>
          obtain ⟨bytes, hbytes⟩ := g.bytes_cons
          simp [hbytes]
        | some count => exact g.hasEmptyLine (ha.scanned count hs g rfl) left
      rw [if_pos hlooks, ← hleft, g.scan_whole]

/-- the next request is used up -/
theorem Awaits.taken {g : Get} (ha : f.Awaits (g :: todo) tail) {left : Bytes} (hb : f.buffer = g.bytes ++ left)
    {f' : Inflow} (hleft : f'.buffer = left) (hpace : f'.pace = f.pace) (hscanned : f'.scanned = none) :
    f'.Awaits todo tail := by
  refine ⟨hpace ▸ ha.amount, ?_, fun count hc => ?_⟩
  · have hcoming := ha.coming
    rw [hb, List.flatMap_cons, List.append_assoc] at hcoming
    rw [hleft]
    exact List.append_cancel_left hcoming
  · rw [hscanned] at hc
    cases hc

theorem withRoom_le (m : Memory) (count amount : Nat) : count + amount ≤ (m.withRoom count amount).room := by
  unfold Memory.withRoom
  dsimp only
  split
  · assumption
  · split
    · exact Nat.le_refl _
    · split
      · next hfits => exact (Bool.and_eq_true_iff.1 hfits).1 |> of_decide_eq_true
      · show count + amount ≤ max (2 * (m.used + m.room)) (m.used + count + amount) - m.used
        omega

theorem amount_after {p : Pace} (hp : 0 < p.amount) (count : Nat) : 0 < (p.after count).amount := by
  unfold Pace.after
  split
  · show 0 < min (2 * p.amount) Pace.greatest
    rw [show Pace.greatest = 417792 from rfl]
    omega
  · dsimp only
    split
    · exact hp
    · split
      · show 0 < max _ Pace.least
        rw [show Pace.least = 8192 from rfl]
        omega
      · exact hp

/-- one read: it has to wait, or some bytes come -/
theorem converses_pull {f : Footing} {inflow : Inflow} (ha : inflow.Awaits todo f.coming) :
    inflow.pull.Converses f fun after pulled => after.owed = f.owed ∧ pulled.1.Awaits todo after.coming ∧
      (pulled.2 = .pending ∧ after.starved = true ∧ pulled.1.blocked = true ∧ pulled.1.buffer = inflow.buffer ∨
        ∃ count, pulled.2 = .ready (.ok (count + 1)) ∧ pulled.1.blocked = false ∧
          pulled.1.buffer.length = inflow.buffer.length + (count + 1)) := by
  have hamount := ha.amount
  have hroom : inflow.buffer.length + inflow.pace.amount ≤
      (inflow.memory.withRoom inflow.buffer.length inflow.pace.amount).room := withRoom_le ..
  have hasks : 0 < (inflow.memory.withRoom inflow.buffer.length inflow.pace.amount).room - inflow.buffer.length := by
    omega
  refine ⟨hasks, ⟨rfl, ha.of_same rfl rfl rfl, .inl ⟨rfl, rfl, rfl, rfl⟩⟩, fun bytes rest hsome _ hsplit => ?_⟩
  obtain ⟨count, hcount⟩ := Nat.exists_eq_add_one_of_ne_zero (mt List.length_eq_zero_iff.1 hsome)
  refine ⟨rfl, ⟨amount_after hamount _, ?_, ha.scanned⟩, .inr ⟨count, by rw [← hcount], rfl, ?_⟩⟩
  · rw [← ha.coming, hsplit, List.append_assoc]
  · rw [List.length_append, hcount]

end Inflow

/-! ## Answering -/

namespace Exchange

variable {f : Footing}

/-- the request that is in hand, if one is, was not answered yet, and neither were those to come; what is written of the
answers already and what is to be said to those requests are owed -/
structure Serves (o : Options) (coming owed : Bytes) (todo : List Get) (e : Exchange) : Prop where
  persist : e.persist = true
  upgrades : e.upgrades = false
  version : e.version = .http11
  inlet : e.inlet = none
  failure : e.failure = none
  awaits : e.inflow.Awaits todo coming
  told : e.outbox ++ successes o (e.call.toList.length + todo.length) = owed

/-- the next request is read -/
structure Listening (e : Exchange) : Prop where
  reading : e.reading = .head
  writing : e.writing = .idle
  call : e.call = none
  outbox : e.outbox = []

/-- a request was read and the service has not seen it -/
structure Called (e : Exchange) : Prop where
  reading : e.reading = .done
  writing : e.writing = .idle
  call : ∃ request, e.call = some ⟨request, false⟩ ∧ request.method = Get.method
  outbox : e.outbox = []

/-- the last request was answered, and the answer is not written in full -/
structure Answered (e : Exchange) : Prop where
  reading : e.reading = .done
  writing : e.writing = .answered
  call : e.call = none
  outbox : e.outbox ≠ []

/-- the last read had to wait, if the exchange thinks so, and nothing is left of what came before -/
def Heeds (f : Footing) (inflow : Inflow) : Prop :=
  inflow.blocked = true → inflow.buffer = [] ∧ f.starved = true

/-- the exchange waits until more of the next request comes -/
structure WaitsForMore (todo : List Get) (f : Footing) (e : Exchange) : Prop where
  listening : e.Listening
  lacks : e.inflow.Lacks todo
  starved : f.starved = true

/-- the exchange waits until there is room to write on -/
structure WaitsForRoom (f : Footing) (e : Exchange) : Prop where
  answered : e.Answered
  empty : e.inflow.blocked = true → e.inflow.buffer = []
  stuffed : f.stuffed = true

/-- where the exchange stands between two rounds -/
inductive Stands (todo : List Get) (e : Exchange) : Prop where
  | listening (h : e.Listening) (hstale : e.inflow.blocked = true → e.inflow.Lacks todo)
  | answered (h : e.Answered) (hstale : e.inflow.blocked = true → e.inflow.buffer = [])

theorem Serves.moved (hs : e.Serves o coming owed todo) {coming' owed' : Bytes} {inflow : Inflow}
    (ha : inflow.Awaits todo coming') (howed : owed' = owed) :
    ({ e with inflow } : Exchange).Serves o coming' owed' todo :=
  { hs with awaits := ha, told := howed ▸ hs.told }

/-- a read of the exchange, as `Inflow.converses_pull` has it -/
theorem converses_pull (ha : e.inflow.Awaits todo f.coming) :
    e.pull.Converses f fun after pulled => ∃ inflow, pulled.1 = { e with inflow } ∧ after.owed = f.owed ∧
      inflow.Awaits todo after.coming ∧
      (pulled.2 = .pending ∧ after.starved = true ∧ inflow.blocked = true ∧ inflow.buffer = e.inflow.buffer ∨
        ∃ count, pulled.2 = .ready (.ok (count + 1)) ∧ inflow.blocked = false ∧
          inflow.buffer.length = e.inflow.buffer.length + (count + 1)) :=
  (Inflow.converses_pull ha).bind fun _ pulled hpulled => ⟨pulled.1, rfl, hpulled⟩

/-- the next head is read as far as bytes are there: it is not there in full and a read had to wait, or it is found -/
theorem converses_readHead {limit : Nat} (ha : e.inflow.Awaits todo f.coming)
    (hstale : e.inflow.blocked = true → e.inflow.Lacks todo)
    (hlimit : Pace.greatest < e.inflow.buffer.length + limit) (hpos : 0 < limit) :
    (readHead limit e).Converses f fun after read => ∃ inflow, read.1 = { e with inflow } ∧ after.owed = f.owed ∧
      (read.2 = .waiting ∧ inflow.Awaits todo after.coming ∧ inflow.Lacks todo ∧ inflow.blocked = true ∧
          after.starved = true ∨
        ∃ g rest, todo = g :: rest ∧ read.2 = .head g.head ∧ inflow.Awaits rest after.coming ∧
          inflow.blocked = false) := by
  induction limit generalizing e f with
  | zero => cases hpos
  | succ limit ih =>
    unfold readHead
    dsimp only
    rcases ha.look with ⟨hlacks, hroom, hlook⟩ | ⟨g, rest, left, rfl, hbuffer, hlook⟩
    · rw [hlook]
      dsimp only
      rw [if_neg (Nat.not_le_of_lt hroom)]
      -- the bytes that are there were looked at
      let looked : Inflow :=
        { e.inflow with scanned := if e.inflow.buffer.isEmpty then none else some e.inflow.buffer.length }
      have hlooked : looked.Awaits todo f.coming := by
        refine ⟨ha.amount, ha.coming, ?_⟩
        intro count hcount g hg
        have hcount : (if e.inflow.buffer.isEmpty then none else some e.inflow.buffer.length) = some count := hcount
        split at hcount
        · cases hcount
        · cases hcount
          exact hlacks g hg
      refine (converses_pull (e := { e with inflow := looked }) hlooked).bind ?_
      rintro after ⟨e', result⟩ ⟨inflow, hsame, howed, ha', hended⟩
      dsimp only at hsame hended ⊢
      subst hsame
      rcases hended with ⟨rfl, hstarved, hblocked, hbuffer⟩ | ⟨count, rfl, hblocked, hlength⟩
      · refine ⟨inflow, rfl, howed, .inl ⟨rfl, ha', ?_, hblocked, hstarved⟩⟩
        intro g hg
        rw [hbuffer]
        exact hlacks g hg
      · have hlength : inflow.buffer.length = e.inflow.buffer.length + (count + 1) := hlength
        have hfresh : inflow.blocked = true → inflow.Lacks todo := by
          rw [hblocked]
          exact fun hb => by cases hb
        have hroom' : Pace.greatest < inflow.buffer.length + limit := by omega
        refine (ih (e := { e with inflow }) ha' hfresh hroom' (by omega)).mono ?_
        rintro after' read ⟨inflow', hread, howed', hended⟩
        exact ⟨inflow', hread, howed'.trans howed, hended⟩
    · rw [hlook]
      refine ⟨_, rfl, rfl, .inr ⟨g, rest, rfl, rfl, ha.taken hbuffer rfl rfl rfl, ?_⟩⟩
      -- whoever found a head had not been told to wait
      cases hb : e.inflow.blocked with
      | false => exact hb
      | true =>
        have hshort := hstale hb g rfl
        rw [hbuffer, List.length_append] at hshort
        omega

/-- behind a request the exchange looks for more bytes, unless it has some -/
theorem converses_lookForEnd (ha : e.inflow.Awaits todo f.coming) (hinlet : e.inlet = none)
    (hreading : e.reading = .done) (hstale : e.inflow.blocked = true → e.inflow.buffer = []) :
    e.lookForEnd.Converses f fun after looked => ∃ inflow, looked = ({ e with inflow }, .ok ()) ∧
      after.owed = f.owed ∧ inflow.Awaits todo after.coming ∧ Heeds after inflow := by
  unfold lookForEnd
  by_cases hbuffer : e.inflow.buffer = []
  · rw [if_neg (by simp [hinlet, hreading, hbuffer])]
    refine (converses_pull ha).bind ?_
    rintro after ⟨e', result⟩ ⟨inflow, hsame, howed, ha', hended⟩
    dsimp only at hsame hended ⊢
    subst hsame
    rcases hended with ⟨rfl, hstarved, hblocked, hsame⟩ | ⟨count, rfl, hblocked, hlength⟩
    · exact ⟨inflow, rfl, howed, ha', fun _ => ⟨hsame.trans hbuffer, hstarved⟩⟩
    · refine ⟨inflow, rfl, howed, ha', fun hb => ?_⟩
      rw [hblocked] at hb
      cases hb
  · rw [if_pos (by simp [hbuffer])]
    exact ⟨e.inflow, rfl, rfl, ha, fun hb => absurd (hstale hb) hbuffer⟩

/-- a request that was read is in hand -/
theorem Serves.begin {g : Get} {inflow : Inflow} {coming' : Bytes} (hs : e.Serves o coming owed (g :: todo))
    (hl : e.Listening) (ha : inflow.Awaits todo coming') :
    (({ e with inflow } : Exchange).begin g.head).Serves o coming' owed todo ∧
      (({ e with inflow } : Exchange).begin g.head).Called where
  left :=
    { persist := by simp [Exchange.begin, Get.head, hs.persist]
      upgrades := by simp [Exchange.begin, Get.head, hs.upgrades]
      version := rfl
      inlet := rfl
      failure := hs.failure
      awaits := ha
      told := by
        have htold := hs.told
        rw [hl.call, Option.toList_none, List.length_nil, Nat.zero_add, List.length_cons, Nat.add_comm] at htold
        exact htold }
  right := ⟨rfl, hl.writing, ⟨_, rfl, rfl⟩, hl.outbox⟩

theorem settleInlet_none (patience : Nat) (hnone : e.inlet = none) : e.settleInlet patience = pure e := by
  unfold settleInlet
  rw [hnone]

theorem fillInlet_none (patience : Nat) (hnone : e.inlet = none) : e.fillInlet patience = pure e := by
  unfold fillInlet
  rw [hnone]

/-- the next head: it is not there in full, or the request is in hand, or the last answer is still to be written -/
theorem converses_nextHead (hs : e.Serves o f.coming f.owed todo) (hst : e.Stands todo) :
    (e.nextHead o).Converses f fun after read => ∃ e' todo', read = (e', .ok ()) ∧ e'.again = e.again ∧
      e'.Serves o after.coming after.owed todo' ∧
      (e'.WaitsForMore todo' after ∧ e'.inflow.blocked = true ∨
        (e'.Called ∨ e'.Answered) ∧ (e'.inflow.blocked = true → e'.inflow.buffer = [])) := by
  unfold nextHead
  cases hst with
  | listening hl hstale =>
    have hlimit : Pace.greatest < e.inflow.buffer.length + (Pace.greatest + 1) := by omega
    rw [if_neg (not_not.2 hl.reading)]
    refine (converses_readHead hs.awaits hstale hlimit (Nat.succ_pos _)).bind ?_
    rintro after ⟨e', result⟩ ⟨inflow, hsame, howed, hended⟩
    dsimp only at hsame hended ⊢
    subst hsame
    rcases hended with ⟨rfl, ha, hlacks, hblocked, hstarved⟩ | ⟨g, rest, rfl, rfl, ha, hfree⟩
    · exact ⟨_, todo, rfl, rfl, hs.moved ha howed,
        .inl ⟨⟨⟨hl.reading, hl.writing, hl.call, hl.outbox⟩, hlacks, hstarved⟩, hblocked⟩⟩
    · obtain ⟨hs', hcalled⟩ := hs.begin hl ha
      refine ⟨_, rest, rfl, rfl, howed ▸ hs', .inr ⟨.inl hcalled, fun hb => ?_⟩⟩
      rw [show ((({ e with inflow } : Exchange).begin g.head).inflow).blocked = inflow.blocked from rfl, hfree] at hb
      cases hb
  | answered ha hstale =>
    rw [if_pos (by simp [ha.reading])]
    exact ⟨e, todo, rfl, rfl, hs, .inr ⟨.inr ha, hstale⟩⟩

/-- what reading comes to: the next request is not there in full, or it is in hand, or the last answer is still to be
written, and the exchange has looked for more -/
theorem converses_readPhase (patience : Nat) (hs : e.Serves o f.coming f.owed todo) (hst : e.Stands todo) :
    (e.readPhase o patience).Converses f fun after read => ∃ e' todo', read = (e', .ok ()) ∧ e'.again = e.again ∧
      e'.Serves o after.coming after.owed todo' ∧
      (e'.WaitsForMore todo' after ∧ e'.inflow.blocked = true ∨
        (e'.Called ∨ e'.Answered) ∧ Heeds after e'.inflow) := by
  unfold readPhase
  rw [settleInlet_none patience hs.inlet]
  refine (converses_nextHead hs hst).bind ?_
  rintro after read ⟨e', todo', rfl, hsame, hs', hended⟩
  dsimp only
  rw [fillInlet_none patience hs'.inlet]
  show e'.lookForEnd.Converses after _
  rcases hended with ⟨hwaits, hblocked⟩ | ⟨hphase, hstale⟩
  · unfold lookForEnd
    rw [if_pos (by simp [hwaits.listening.reading])]
    exact ⟨e', todo', rfl, hsame, hs', .inl ⟨hwaits, hblocked⟩⟩
  · have hreading : e'.reading = .done := hphase.elim Called.reading Answered.reading
    refine (converses_lookForEnd hs'.awaits hs'.inlet hreading hstale).mono ?_
    rintro after' looked ⟨inflow, rfl, howed, ha, hheeds⟩
    refine ⟨_, todo', rfl, hsame, hs'.moved ha howed, .inr ⟨?_, hheeds⟩⟩
    exact hphase.imp (fun h => ⟨h.reading, h.writing, h.call, h.outbox⟩)
      fun h => ⟨h.reading, h.writing, h.call, h.outbox⟩

/-- the service answers what is in hand -/
theorem converses_writePhase (hs : e.Serves o f.coming f.owed todo) :
    (e.call = none → e.writePhase o = pure e) ∧
      (e.Called → Heeds f e.inflow → (e.writePhase o).Converses f fun after e' => after = f ∧ e'.again = e.again ∧
        e'.Serves o f.coming f.owed todo ∧ e'.Answered ∧ Heeds f e'.inflow) := by
  refine ⟨fun hnone => ?_, fun hc hh => ?_⟩
  · unfold writePhase
    rw [hnone]
  · obtain ⟨request, hcall, hmethod⟩ := hc.call
    have htakes : takesOver (some Get.method) 200 = false := by decide +kernel
    have hstatus : (((ServiceCall.holding request).run).value.map (·.status)).getD 500 = 200 := rfl
    unfold writePhase
    rw [hcall]
    dsimp only
    rw [hstatus, hmethod]
    refine Talk.Converses.reports _ ⟨rfl, rfl, ?_, ⟨hc.reading, ?_, rfl, ?_⟩, hh⟩
    · refine { hs with
        inlet := by rw [hs.inlet]; rfl
        awaits := hs.awaits.of_same rfl rfl rfl
        told := ?_ }
      have htold := hs.told
      rw [hcall, hc.outbox] at htold
      show e.outbox ++ renderAnswer e.version 200 e.persist (some Get.method) o.date ++
        successes o (0 + todo.length) = _
      rw [hs.version, hs.persist, renderAnswer_get, hc.outbox, Nat.zero_add, List.nil_append, ← successes_succ, ← htold,
        List.nil_append, Option.toList_some, List.length_singleton, Nat.add_comm]
    · show (if e.persist && !takesOver (some Get.method) 200 then Writing.answered else .closed) = .answered
      rw [hs.persist, htakes]
      rfl
    · show e.outbox ++ renderAnswer e.version 200 e.persist (some Get.method) o.date ≠ []
      rw [hs.version, hs.persist, renderAnswer_get]
      exact List.append_ne_nil_of_right_ne_nil _ (success_ne_nil o)

/-- writing goes on for as long as there is room -/
theorem converses_writeOut {limit : Nat} (hs : e.Serves o f.coming f.owed todo) (hlimit : e.outbox.length < limit) :
    (writeOut limit e).Converses f fun after written => ∃ left flushed,
      written = ({ e with outbox := left }, .ok flushed) ∧ after.coming = f.coming ∧ after.starved = f.starved ∧
      ({ e with outbox := left } : Exchange).Serves o after.coming after.owed todo ∧
      (flushed = true ∧ left = [] ∨ flushed = false ∧ e.outbox ≠ [] ∧ left ≠ [] ∧ after.stuffed = true) := by
  induction limit generalizing e f with
  | zero => exact absurd hlimit (Nat.not_lt_zero _)
  | succ limit ih =>
    unfold writeOut
    by_cases hnone : e.outbox = []
    · rw [if_pos (by simp [hnone])]
      exact ⟨e.outbox, true, rfl, rfl, rfl, hs, .inl ⟨rfl, hnone⟩⟩
    · rw [if_neg (by simp [hnone])]
      have howed : e.outbox <+: f.owed := ⟨_, hs.told⟩
      refine ⟨hnone, howed, ⟨e.outbox, false, rfl, rfl, rfl, hs, .inr ⟨rfl, hnone, hnone, rfl⟩⟩, ?_⟩
      intro count hpos hfits
      obtain ⟨count, rfl⟩ := Nat.exists_eq_add_one_of_ne_zero (Nat.ne_of_gt hpos)
      have hs' : ({ e with outbox := e.outbox.drop (count + 1) } : Exchange).Serves o f.coming
          (f.owed.drop (count + 1)) todo := by
        refine { hs with told := ?_ }
        rw [← hs.told, List.drop_append_of_le_length hfits]
      have hless : (e.outbox.drop (count + 1)).length < limit := by
        rw [List.length_drop]
        omega
      refine (ih (e := { e with outbox := e.outbox.drop (count + 1) })
        (f := { f with owed := f.owed.drop (count + 1), stuffed := false }) hs' hless).mono ?_
      rintro after written ⟨left, flushed, hwritten, hcoming, hstarved, hserves, hended⟩
      exact ⟨left, flushed, hwritten, hcoming, hstarved, hserves,
        hended.imp_right (And.imp_right fun hrest => ⟨hnone, hrest.2⟩)⟩

/-- once everything is written the exchange looks for the next request: there are bytes to read already, or it waits -/
theorem converses_lookAhead (hs : e.Serves o f.coming f.owed todo) (hl : e.Listening) (hagain : e.again = false)
    (hheeds : e.inflow.blocked = true → e.inflow.Lacks todo ∧ f.starved = true) :
    e.lookAhead.Converses f fun after e' => e'.Serves o after.coming after.owed todo ∧
      (e'.Listening ∧ e'.again = true ∧ e'.inflow.blocked = false ∨ e'.again = false ∧ e'.WaitsForMore todo after) := by
  unfold lookAhead
  cases hb : e.inflow.blocked with
  | true =>
    obtain ⟨hlacks, hstarved⟩ := hheeds hb
    rw [if_pos (by simp)]
    exact ⟨hs, .inr ⟨hagain, hl, hlacks, hstarved⟩⟩
  | false =>
    rw [if_neg (by simp [hl.reading])]
    by_cases hbuffer : e.inflow.buffer = []
    · rw [if_neg (by simp [hbuffer])]
      refine (converses_pull hs.awaits).bind ?_
      rintro after ⟨e', result⟩ ⟨inflow, hsame, howed, ha, hended⟩
      dsimp only at hsame hended ⊢
      subst hsame
      rcases hended with ⟨rfl, hstarved, hblocked, hsame⟩ | ⟨count, rfl, hblocked, hlength⟩
      · exact ⟨hs.moved ha howed, .inr ⟨hagain, ⟨hl.reading, hl.writing, hl.call, hl.outbox⟩,
          Inflow.lacks_of_empty (hsame.trans hbuffer) todo, hstarved⟩⟩
      · exact ⟨{ hs.moved ha howed with }, .inl ⟨⟨hl.reading, hl.writing, hl.call, hl.outbox⟩, rfl, hblocked⟩⟩
    · rw [if_pos (by simp [hbuffer])]
      exact ⟨{ hs with }, .inl ⟨⟨hl.reading, hl.writing, hl.call, hl.outbox⟩, rfl, hb⟩⟩

/-- what is written of the answers: all, and the exchange goes on, or there is no room and the exchange waits -/
theorem converses_flush (hs : e.Serves o f.coming f.owed todo) (hagain : e.again = false)
    (hphase : e.WaitsForMore todo f ∧ e.inflow.blocked = true ∨ e.Answered ∧ Heeds f e.inflow) :
    e.flush.Converses f fun after flushed => ∃ e', flushed = (e', .ok ()) ∧ e'.Serves o after.coming after.owed todo ∧
      (e'.Listening ∧ e'.again = true ∧ e'.inflow.blocked = false ∨
        e'.again = false ∧ (e'.WaitsForMore todo after ∨ e'.WaitsForRoom after)) := by
  unfold flush
  refine (converses_writeOut hs (Nat.lt_succ_self _)).bind ?_
  rintro after written ⟨left, flushed, rfl, hcoming, hstarved, hs', hended⟩
  dsimp only
  rcases hended with ⟨rfl, rfl⟩ | ⟨rfl, hsome, hleft, hstuffed⟩
  · -- once everything is written the next request is read
    obtain ⟨e', hadvance, hs'', hl, hagain', hinflow⟩ : ∃ e', ({ e with outbox := [] } : Exchange).advance = e' ∧
        e'.Serves o after.coming after.owed todo ∧ e'.Listening ∧ e'.again = false ∧ e'.inflow = e.inflow := by
      rcases hphase with ⟨hwaits, -⟩ | ⟨ha, -⟩
      · have hl := hwaits.listening
        refine ⟨_, ?_, hs', ⟨hl.reading, hl.writing, hl.call, rfl⟩, hagain, rfl⟩
        unfold advance
        simp only [hl.reading, hl.writing]
      · refine ⟨{ e with outbox := [], reading := .head, writing := .idle }, ?_, { hs' with },
          ⟨rfl, rfl, ha.call, rfl⟩, hagain, rfl⟩
        unfold advance
        simp only [ha.reading, ha.writing, hs.persist, if_true]
    -- and a read that had to wait is not forgotten
    have hheeds : e'.inflow.blocked = true → e'.inflow.Lacks todo ∧ after.starved = true := by
      intro hb
      rw [hinflow] at hb ⊢
      rw [hstarved]
      rcases hphase with ⟨hwaits, -⟩ | ⟨-, hh⟩
      · exact ⟨hwaits.lacks, hwaits.starved⟩
      · exact ⟨Inflow.lacks_of_empty (hh hb).1 todo, (hh hb).2⟩
    unfold goOn
    rw [hadvance]
    refine (converses_lookAhead hs'' hl hagain' hheeds).bind ?_
    rintro after' e'' ⟨hserves, hended⟩
    exact ⟨e'', rfl, hserves, hended.imp_right (And.imp_right .inl)⟩
  · have ha : e.Answered ∧ Heeds f e.inflow := by
      exact hphase.resolve_left fun ⟨hwaits, _⟩ => hsome hwaits.listening.outbox
    exact ⟨_, rfl, hs', .inr ⟨hagain, .inr ⟨⟨ha.1.reading, ha.1.writing, ha.1.call, hleft⟩, fun hb => (ha.2 hb).1,
      hstuffed⟩⟩⟩

/-- one round: there are bytes to read already, or the exchange waits -/
theorem converses_round (patience : Nat) (hs : e.Serves o f.coming f.owed todo) (hst : e.Stands todo)
    (hagain : e.again = false) :
    (e.round o patience).Converses f fun after turned => ∃ e' todo', turned = (e', .ok ()) ∧
      e'.Serves o after.coming after.owed todo' ∧
      (e'.Listening ∧ e'.again = true ∧ e'.inflow.blocked = false ∨
        e'.again = false ∧ (e'.WaitsForMore todo' after ∨ e'.WaitsForRoom after)) := by
  unfold round
  refine (converses_readPhase patience hs hst).bind ?_
  rintro after read ⟨e', todo', rfl, hsame, hs', hphase⟩
  dsimp only
  obtain ⟨hnone, hcalled⟩ := converses_writePhase hs'
  -- the service has nothing to answer, or it answers what is in hand
  have hwritten : (e'.writePhase o).Converses after fun after' e'' => after' = after ∧ e''.again = e'.again ∧
      e''.Serves o after.coming after.owed todo' ∧
      (e''.WaitsForMore todo' after ∧ e''.inflow.blocked = true ∨ e''.Answered ∧ Heeds after e''.inflow) := by
    rcases hphase with ⟨hwaits, hblocked⟩ | ⟨hc | ha, hheeds⟩
    · rw [hnone hwaits.listening.call]
      exact ⟨rfl, rfl, hs', .inl ⟨hwaits, hblocked⟩⟩
    · refine (hcalled hc hheeds).mono ?_
      rintro after' e'' ⟨hafter, hagain', hserves, ha, hh⟩
      exact ⟨hafter, hagain', hserves, .inr ⟨ha, hh⟩⟩
    · rw [hnone ha.call]
      exact ⟨rfl, rfl, hs', .inr ⟨ha, hheeds⟩⟩
  refine hwritten.bind ?_
  rintro after' e'' ⟨rfl, hagain', hserves, hphase'⟩
  refine (converses_flush hserves (hagain'.trans (hsame.trans hagain)) hphase').mono ?_
  rintro last flushed ⟨e₃, rfl, hserves', hended⟩
  exact ⟨e₃, todo', rfl, hserves', hended⟩

/-- rounds, until the exchange waits or there were enough of them -/
theorem converses_rounds (patience limit : Nat) (hs : e.Serves o f.coming f.owed todo) (hst : e.Stands todo)
    (hagain : e.again = false) :
    (rounds o patience limit e).Converses f fun after done => ∃ e' todo' calm, done = (e', .ok calm) ∧
      e'.Serves o after.coming after.owed todo' ∧ e'.again = false ∧
      (calm = true ∧ (e'.WaitsForMore todo' after ∨ e'.WaitsForRoom after) ∨ calm = false ∧ e'.Stands todo') := by
  induction limit generalizing todo f e with
  | zero => exact ⟨e, todo, false, rfl, hs, hagain, .inr ⟨rfl, hst⟩⟩
  | succ limit ih =>
    unfold rounds
    refine (converses_round patience hs hst hagain).bind ?_
    rintro after turned ⟨e', todo', rfl, hs', hended⟩
    dsimp only
    rcases hended with ⟨hl, hmore, hfree⟩ | ⟨hcalm, hwaits⟩
    · rw [if_pos hmore]
      refine ih { hs' with } (.listening ⟨hl.reading, hl.writing, hl.call, hl.outbox⟩ fun hb => ?_) rfl
      rw [show ({ e' with again := false } : Exchange).inflow.blocked = e'.inflow.blocked from rfl, hfree] at hb
      cases hb
    · rw [if_neg (by simp [hcalm])]
      exact ⟨e', todo', true, rfl, hs', hcalm, .inl ⟨rfl, hwaits⟩⟩

/-- where an exchange stands between two polls -/
def Serving (o : Options) (coming owed : Bytes) (e : Exchange) : Prop :=
  ∃ todo, e.Serves o coming owed todo ∧ e.Stands todo ∧ e.again = false

/-- an exchange that waits for more and that nothing will come to owes nothing -/
theorem WaitsForMore.owed_eq_nil (hw : e.WaitsForMore todo f) (hs : e.Serves o [] owed todo) : owed = [] := by
  have hcoming := hs.awaits.coming
  rw [List.append_nil] at hcoming
  have htodo : todo = [] := by
    cases todo with
    | nil => rfl
    | cons g rest =>
      have hlacks := hw.lacks g rfl
      rw [hcoming, List.flatMap_cons, List.length_append] at hlacks
      omega
  rw [← hs.told, hw.listening.outbox, hw.listening.call, htodo]
  rfl

/-- a poll: the exchange goes on without waiting for its client, or it waits; no request is lost, and every request that
is used up is answered -/
theorem converses_poll (patience : Nat) (hs : e.Serving o coming owed) :
    ((protocol o).poll patience e).Converses { coming, owed } fun after polled =>
      polled.ended = .waiting ∧ polled.exchange.Serving o after.coming after.owed ∧
        (polled.roused = true ∨ after.starved = true ∧ (after.coming = [] → after.owed = []) ∨
          after.stuffed = true) := by
  obtain ⟨todo, hserves, hst, hagain⟩ := hs
  have hstart : ({ e with roused := false } : Exchange).Stands todo := by
    cases hst with
    | listening h hstale => exact .listening ⟨h.reading, h.writing, h.call, h.outbox⟩ hstale
    | answered h hstale => exact .answered ⟨h.reading, h.writing, h.call, h.outbox⟩ hstale
  unfold protocol
  dsimp only
  -- the exchange and how its poll ended
  have hpoll : (e.poll o patience).Converses { coming, owed } fun after polled => polled.2 = .waiting ∧
      polled.1.Serving o after.coming after.owed ∧
      (polled.1.roused = true ∨ after.starved = true ∧ (after.coming = [] → after.owed = []) ∨
        after.stuffed = true) := by
    unfold Exchange.poll
    refine (converses_rounds (e := { e with roused := false }) (f := { coming, owed }) patience maxRounds
      { hserves with } hstart hagain).bind ?_
    rintro after done ⟨e', todo', calm, rfl, hs', hagain', hended⟩
    rcases hended with ⟨rfl, hwaits⟩ | ⟨rfl, hst'⟩
    · have hopen : e'.reading ≠ .closed := by
        rcases hwaits with h | h
        · exact fun hc => by cases h.listening.reading.symm.trans hc
        · exact fun hc => by cases h.answered.reading.symm.trans hc
      dsimp only
      rw [if_neg hopen]
      rcases hwaits with h | h
      · refine ⟨rfl, ⟨todo', hs', .listening h.listening fun _ => h.lacks, hagain'⟩, .inr (.inl ⟨h.starved, ?_⟩)⟩
        intro hnone
        exact h.owed_eq_nil (hnone ▸ hs')
      · exact ⟨rfl, ⟨todo', hs', .answered h.answered h.empty, hagain'⟩, .inr (.inr h.stuffed)⟩
    · refine ⟨rfl, ⟨todo', { hs' with }, ?_, hagain'⟩, .inl rfl⟩
      cases hst' with
      | listening h hstale => exact .listening ⟨h.reading, h.writing, h.call, h.outbox⟩ hstale
      | answered h hstale => exact .answered ⟨h.reading, h.writing, h.call, h.outbox⟩ hstale
  exact hpoll.bind fun after polled hpolled => hpolled

/-! ## The end of an exchange -/

/-- nothing is left to do for an exchange but to wait for another request -/
structure AtEase (e : Exchange) : Prop extends e.Listening where
  buffer : e.inflow.buffer = []
  inlet : e.inlet = none
  upgrades : e.upgrades = false
  failure : e.failure = none
  again : e.again = false

/-- that is so once nothing will come and nothing is owed -/
theorem Serving.atEase (hs : e.Serving o [] []) : e.AtEase := by
  obtain ⟨todo, hserves, hst, hagain⟩ := hs
  obtain ⟨houtbox, hnothing⟩ := List.append_eq_nil_iff.1 hserves.told
  cases hst with
  | answered h _ => exact absurd houtbox h.outbox
  | listening hl _ =>
    have htodo : todo = [] := by
      cases todo with
      | nil => rfl
      | cons g rest =>
        rw [List.length_cons, ← Nat.add_assoc, successes_succ] at hnothing
        exact absurd (List.append_eq_nil_iff.1 hnothing).1 (success_ne_nil o)
    subst htodo
    exact ⟨hl, hserves.awaits.nil.1, hserves.inlet, hserves.upgrades, hserves.failure, hagain⟩

/-- an exchange whose client is gone between two requests -/
def parted (e : Exchange) (inflow : Inflow) : Exchange :=
  { e with inflow, reading := .closed, writing := .closed, persist := false }

/-- a read finds the end of the bytes -/
theorem departs_pull (e : Exchange) : e.pull.Departs fun pulled =>
    ∃ inflow, pulled = ({ e with inflow }, .ready (.ok 0)) ∧ inflow.buffer = e.inflow.buffer :=
  ⟨_, rfl, List.append_nil _⟩

/-- between two requests the end of the bytes is the end of the exchange -/
theorem departs_readPhase (patience : Nat) (he : e.AtEase) :
    (e.readPhase o patience).Departs fun read => ∃ inflow, read = (e.parted inflow, .ok ()) := by
  have hlook : (if mayHoldHead e.inflow then Head.scan e.inflow.buffer else .more) = .more := by
    rw [he.buffer, show Head.scan [] = .more from rfl, ite_self]
  have hroom : ¬ e.inflow.buffer.length ≥ Pace.greatest := by
    rw [he.buffer]
    decide
  have hread : (readHead (Pace.greatest + 1) e).Departs fun read =>
      ∃ inflow, read = ({ e with inflow }, .failed .incomplete) ∧ inflow.buffer = [] := by
    unfold readHead
    dsimp only
    rw [hlook]
    dsimp only
    rw [if_neg hroom]
    refine (departs_pull _).bind ?_
    rintro pulled ⟨inflow, rfl, hbuffer⟩
    exact ⟨inflow, rfl, hbuffer.trans he.buffer⟩
  have hnext : (e.nextHead o).Departs fun read => ∃ inflow, read = (e.parted inflow, .ok ()) := by
    unfold nextHead
    rw [if_neg (not_not.2 he.reading)]
    refine hread.bind ?_
    rintro read ⟨inflow, rfl, hnone⟩
    refine ⟨inflow.keep [], ?_⟩
    unfold refuseHead
    simp only [hnone, List.dropWhile_nil, List.isEmpty_nil, if_true]
    rfl
  unfold readPhase
  rw [settleInlet_none patience he.inlet]
  refine hnext.bind ?_
  rintro read ⟨inflow, rfl⟩
  dsimp only
  rw [fillInlet_none (e := e.parted inflow) patience he.inlet]
  show (e.parted inflow).lookForEnd.Departs _
  unfold lookForEnd
  rw [if_pos (by simp [parted])]
  exact ⟨inflow, rfl⟩

/-- what is written in full stays so -/
theorem writeOut_parted (he : e.AtEase) (inflow : Inflow) :
    (e.parted inflow).writeOut ((e.parted inflow).outbox.length + 1) = pure (e.parted inflow, .ok true) := by
  unfold writeOut
  exact if_pos (by simp [parted, he.outbox])

/-- the last round: the end of the bytes is found, and nothing was left to do -/
theorem departs_rounds (patience : Nat) (he : e.AtEase) :
    (rounds o patience maxRounds e).Departs fun done => ∃ inflow, done = (e.parted inflow, .ok true) := by
  have hround : (e.round o patience).Departs fun turned => ∃ inflow, turned = (e.parted inflow, .ok ()) := by
    unfold round
    refine (departs_readPhase patience he).bind ?_
    rintro read ⟨inflow, rfl⟩
    have hwrite : (e.parted inflow).writePhase o = pure (e.parted inflow) := by
      unfold writePhase
      rw [show (e.parted inflow).call = none from he.call]
    have hflush : (e.parted inflow).flush = pure (e.parted inflow, .ok ()) := by
      unfold flush
      rw [writeOut_parted he]
      rfl
    dsimp only
    rw [hwrite]
    show (e.parted inflow).flush.Departs _
    rw [hflush]
    exact ⟨inflow, rfl⟩
  rw [show maxRounds = 15 + 1 from rfl]
  unfold rounds
  refine hround.bind ?_
  rintro turned ⟨inflow, rfl⟩
  dsimp only
  rw [if_neg (by simp [parted, he.again])]
  exact ⟨inflow, rfl⟩

/-- an exchange that is over between two requests ends as it should, once its end is shut down -/
theorem departs_finish (he : e.AtEase) (inflow : Inflow) :
    (e.parted inflow).finish.Departs fun finished => finished.2 = .complete ∧ finished.1.roused = e.roused := by
  unfold finish
  rw [if_neg (by simp [parted, he.upgrades]), writeOut_parted he]
  exact ⟨congrArg (Option.elim · Ended.complete Ended.failed) he.failure, rfl⟩

/-- the last poll of an exchange ends it as it should -/
theorem departs_poll (patience : Nat) (hs : e.Serving o [] []) :
    ((protocol o).poll patience e).Departs fun polled => polled.ended = .complete ∧ polled.roused = false := by
  have he := hs.atEase
  have hstart : ({ e with roused := false } : Exchange).AtEase :=
    ⟨⟨he.reading, he.writing, he.call, he.outbox⟩, he.buffer, he.inlet, he.upgrades, he.failure, he.again⟩
  have hpoll : (e.poll o patience).Departs fun polled => polled.2 = .complete ∧ polled.1.roused = false := by
    unfold Exchange.poll
    refine (departs_rounds patience hstart).bind ?_
    rintro done ⟨inflow, rfl⟩
    dsimp only
    rw [if_pos (show (Exchange.parted { e with roused := false } inflow).reading = .closed from rfl)]
    exact departs_finish hstart inflow
  unfold protocol
  exact hpoll.bind fun polled hpolled => ⟨hpolled.1, hpolled.2⟩

end Exchange

open Exchange

/-- HTTP answers requests as their bytes come, and keeps the connection for as long as its client does -/
theorem answers_protocol (o : Options) : (protocol o).Answers o (Serving o) where
  start gets := by
    have hamount : 0 < ({} : Pace).amount := by decide
    rw [Get.answers_eq]
    refine ⟨gets, ⟨rfl, rfl, rfl, rfl, rfl, ⟨hamount, rfl, nofun⟩, ?_⟩, .listening ⟨rfl, rfl, rfl, rfl⟩ nofun, rfl⟩
    show successes o (0 + gets.length) = _
    rw [Nat.zero_add]
  poll n hs := converses_poll n hs
  close n hs := departs_poll n hs

end EventServer.Http
