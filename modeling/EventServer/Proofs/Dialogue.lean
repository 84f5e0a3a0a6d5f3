/-
Dialogues: the runs of a server in which one client writes what it has to ask in any pieces, and reads, at any times.

The client is followed by its own view (`View`). `View.Serves` is an account of the bytes on their way to it and of what
it is owed, and says of a parked task that what it is parked for is not there, or that the task will be resumed
(`Berth.Waits`). It is kept by what happens by itself, if the protocol answers requests as their bytes come
(`View.Serves.next`), and by what the client writes and reads (`View.Serves.apply`). Where nothing happens by itself any
more, everything is written and there is nothing to read, it says that every request was answered
(`View.Serves.at_rest`).

`Client.Dialogue` are the runs: others connect, write and leave as they like, the server takes its turns, and the client
writes and reads in between. Each of these keeps the account (`Client.Accounted`). `Client.Dialogue.inOrder` says that
it holds at the end of each run, in a host that refuses no call, and where room to write is watched while a write is
parked.
-/
import EventServer.Proofs.Conversing
import EventServer.Proofs.Noninterference

namespace EventServer

open Http

variable {X : Type} {protocol : Http.Protocol X} {o : Options} {stands : Bytes → Bytes → X → Prop}
  {answers unsent heard coming owed : Bytes} {b : Berth} {told : Option Conditions}

/-! ## A client that is served -/

/-- an exchange serves its client over a stream: what the client has not written yet comes last, and what it has heard,
what is on its way to it and what it is owed are all the answers -/
structure Stream.Serves (stands : Bytes → Bytes → X → Prop) (answers unsent heard : Bytes) (s : Stream) (x : X)
    (owed : Bytes) : Prop where
  flows : s.Flows
  stands : stands (s.toRead .far ++ unsent) owed x
  told : heard ++ s.toRead .near ++ owed = answers

/-- the connection is looked at in the next wait, or what was seen of it resumes in this direction -/
def Berth.Heeded (b : Berth) (told : Option Conditions) (direction : Direction) : Prop :=
  b.queued = true ∨ ∃ shown, told = some shown ∧ shown.wakes direction = true

/-- the task is parked, and whatever it is parked for is not there, or it will be resumed; and where it is parked for
more it owes nothing once nothing more will come -/
inductive Berth.Waits (coming owed : Bytes) (b : Berth) (told : Option Conditions) : Prop where
  | more (settled : coming = [] → owed = []) (read : b.read = true)
      (heeded : b.stream.toRead .far = [] ∨ b.Heeded told .read)
  | room (write : b.write = true) (armed : b.armed = true)
      (heeded : b.stream.writable .far = false ∨ b.Heeded told .write)

/-- the client's requests are served in order: where its connection stands, what it has not written yet and what it has
heard fit together -/
def View.Serves (protocol : Http.Protocol X) (stands : Bytes → Bytes → X → Prop) (answers unsent heard : Bytes) :
    View X → Prop
  | .waiting stream => ∃ owed, stream.Serves stands answers unsent heard protocol.start owed
  | .served b x told ready => ∃ owed, b.stream.Serves stands answers unsent heard x owed ∧
      (ready = true ∨ b.Waits (b.stream.toRead .far ++ unsent) owed told)
  | .gone _ => False

namespace Berth

theorem stream_fired (b : Berth) (shown : Conditions) : (b.fired shown).stream = b.stream := by
  unfold fired
  dsimp only
  split <;> rfl

/-- what is watched shows what can be read, and what can be written if that is watched -/
theorem shows_flows (hf : b.stream.Flows) :
    b.shows = { input := !(b.stream.toRead .far).isEmpty, output := b.armed && b.stream.writable .far } := by
  unfold shows
  rw [hf.conditions]
  unfold Host.visible interest
  cases b.armed <;> rfl

/-- a report is dealt with -/
theorem Waits.fired {shown : Conditions} (hw : b.Waits coming owed (some shown)) :
    b.wakes shown = true ∨ (b.fired shown).Waits coming owed none := by
  cases hw with
  | more settled read heeded =>
    cases hwakes : shown.wakes .read with
    | true =>
      refine .inl ?_
      simp [wakes, read, hwakes]
    | false =>
      refine .inr (.more settled ?_ ?_)
      · unfold Berth.fired
        dsimp only
        split <;> simp [rearmed, looked, read, hwakes]
      · rw [stream_fired]
        refine heeded.imp_right ?_
        rintro (hqueued | ⟨_, hshown, hw⟩)
        · left
          unfold Berth.fired
          dsimp only
          split <;> simp [rearmed, looked, hqueued]
        · cases hshown
          rw [hwakes] at hw
          cases hw
  | room write armed heeded =>
    cases hwakes : shown.wakes .write with
    | true =>
      refine .inl ?_
      simp [wakes, write, hwakes]
    | false =>
      have hfired : b.fired shown = { b with read := b.read && !shown.wakes .read, write := b.write } := by
        unfold Berth.fired
        simp [hwakes]
      rw [hfired]
      refine .inr (.room write armed (heeded.imp_right ?_))
      rintro (hqueued | ⟨_, hshown, hw⟩)
      · exact .inl hqueued
      · cases hshown
        rw [hwakes] at hw
        cases hw

/-- a connection is looked at -/
theorem Waits.looked (hf : b.stream.Flows) (hw : b.Waits coming owed none) :
    ({ b with queued := false } : Berth).Waits coming owed (if b.shows.none then none else some b.shows) := by
  have hshows := shows_flows hf
  cases hw with
  | more settled read heeded =>
    refine .more settled read ?_
    by_cases hnone : b.stream.toRead .far = []
    · exact .inl hnone
    · have hinput : b.shows.input = true := by simp [hshows, hnone]
      refine .inr (.inr ⟨b.shows, ?_, ?_⟩)
      · rw [if_neg (by simp [Conditions.none, hinput])]
      · simp [Conditions.wakes, hinput]
  | room write armed heeded =>
    refine .room write armed ?_
    cases hroom : b.stream.writable .far with
    | false => exact .inl rfl
    | true =>
      have houtput : b.shows.output = true := by simp [hshows, armed, hroom]
      refine .inr (.inr ⟨b.shows, ?_, ?_⟩)
      · rw [if_neg (by simp [Conditions.none, houtput])]
      · simp [Conditions.wakes, houtput]

/-- what the client does at its end may only add to what is looked at -/
theorem Waits.apply {α : Type} (hw : b.Waits coming owed told) {operation : Stream → Stirred α}
    (hfar : (operation b.stream).stream.toRead .far = b.stream.toRead .far ∨
      (Side.far, Stir.input) ∈ (operation b.stream).stirs)
    (hroom : ∀ e, Stream.Tells b.stream (operation b.stream) e)
    (hany : (Side.far, Stir.any) ∉ (operation b.stream).stirs) :
    (b.apply operation).1.Waits coming owed told := by
  have hkept : ∀ {direction}, b.Heeded told direction → (b.apply operation).1.Heeded told direction := by
    rintro direction (hqueued | hshown)
    · exact .inl (by simp [Berth.apply, hqueued])
    · exact .inr hshown
  have hstirred : ∀ {stir : Stir}, (Side.far, stir) ∈ (operation b.stream).stirs → stir.concerns b.interest = true →
      (b.apply operation).1.queued = true := by
    intro stir hm hconcerns
    have hany : b.stirred (operation b.stream).stirs = true :=
      List.any_eq_true.2 ⟨_, hm, by simp [hconcerns]⟩
    simp [Berth.apply, hany]
  cases hw with
  | more settled read heeded =>
    refine .more settled read ?_
    rcases hfar with hsame | hm
    · exact heeded.imp hsame.trans hkept
    · refine .inr (.inl (hstirred hm ?_))
      unfold interest
      split <;> rfl
  | room write armed heeded =>
    refine .room write armed ?_
    rcases heeded with hfull | hheeded
    · cases hafter : (operation b.stream).stream.writable .far with
      | false => exact .inl hafter
      | true =>
        rcases (hroom .far).output hafter with hbefore | hm | hm
        · rw [hfull] at hbefore
          cases hbefore
        · refine .inr (.inl (hstirred hm ?_))
          unfold interest
          rw [if_pos armed]
          rfl
        · exact absurd hm hany
    · exact .inr (hkept hheeded)

end Berth

namespace View

variable {v v' : View X}

/-- what happens to the connection by itself leaves it served in order -/
theorem Serves.next (ha : protocol.Answers o stands) (hs : v.Serves protocol stands answers unsent heard)
    (hn : v.next protocol true = some v') : v'.Serves protocol stands answers unsent heard := by
  cases v with
  | gone stream => exact hs.elim
  | waiting stream =>
    obtain ⟨owed, hserves⟩ := hs
    cases hn
    exact ⟨owed, hserves, .inl rfl⟩
  | served b x told ready =>
    obtain ⟨owed, hserves, hwaits⟩ := hs
    cases told with
    | some shown =>
      cases hn
      have hstream := b.stream_fired shown
      refine ⟨owed, hstream ▸ hserves, ?_⟩
      rcases hwaits with rfl | hwaits
      · exact .inl rfl
      · rw [hstream]
        exact hwaits.fired.imp_left fun hw => by rw [hw, Bool.or_true]
    | none =>
      cases ready with
      | true =>
        have hbears : b.Bears answers unsent heard { coming := b.stream.toRead .far ++ unsent, owed } :=
          ⟨hserves.flows, rfl, hserves.told, nofun, nofun⟩
        obtain ⟨after, ⟨hended, hstands, hparked⟩, hbears'⟩ := (ha.poll b.due hserves.stands).across hbears
        rw [View.next, turned] at hn
        simp only [hended] at hn
        cases hn
        rw [← hbears'.coming] at hstands hparked
        refine ⟨after.owed, ⟨hbears'.flows, hstands, hbears'.told⟩, ?_⟩
        rcases hparked with hroused | ⟨hstarved, hsettled⟩ | hstuffed
        · exact .inl hroused
        · obtain ⟨hdrained, hread⟩ := hbears'.starved hstarved
          exact .inr (.more hsettled hread (.inl hdrained))
        · obtain ⟨hfull, hwrite, harmed⟩ := hbears'.stuffed hstuffed
          exact .inr (.room hwrite harmed (.inl hfull))
      | false =>
        rw [View.next] at hn
        split at hn
        · cases hn
          have hwaits := hwaits.resolve_left Bool.false_ne_true
          exact ⟨owed, hserves, .inr (hwaits.looked hserves.flows)⟩
        · cases hn

theorem Serves.leads (ha : protocol.Answers o stands) (hs : v.Serves protocol stands answers unsent heard)
    (hl : v.Leads protocol true v') : v'.Serves protocol stands answers unsent heard := by
  induction hl with
  | refl => exact hs
  | tail _ hn ih => exact ih.next ha hn

/-- where nothing happens by itself, the client has written everything and there is nothing for it to read, every
request was answered and the task waits for another one -/
theorem Serves.at_rest (hs : v.Serves protocol stands answers [] heard) (hn : v.next protocol true = none)
    (hread : v.stream.toRead .near = []) :
    heard = answers ∧ ∃ b x, v = .served b x none false ∧ b.queued = false ∧ b.stream.Flows ∧ stands [] [] x ∧
      b.read = true ∧ b.stream.toRead .far = [] := by
  cases v with
  | gone stream => exact hs.elim
  | waiting stream => cases hn
  | served b x told ready =>
    obtain ⟨owed, hserves, hwaits⟩ := hs
    cases told with
    | some shown => cases hn
    | none =>
      cases ready with
      | true => cases hn
      | false =>
        have hqueued : b.queued = false := by
          rw [View.next] at hn
          split at hn
          · cases hn
          · next hq => exact Bool.not_eq_true _ ▸ hq
        have hunheeded : ∀ direction, ¬ b.Heeded none direction := by
          rintro direction (hq | ⟨_, hshown, -⟩)
          · rw [hqueued] at hq
            cases hq
          · cases hshown
        have hread : b.stream.toRead .near = [] := hread
        cases hwaits.resolve_left Bool.false_ne_true with
        | room write armed heeded =>
          have hfull := heeded.resolve_right (hunheeded .write)
          have hroom : b.stream.writable .far = true := hserves.flows.writable hread
          rw [hfull] at hroom
          cases hroom
        | more settled parked heeded =>
          have hfar := heeded.resolve_right (hunheeded .read)
          have hnothing : b.stream.toRead .far ++ [] = [] := by rw [hfar, List.append_nil]
          have hstands := hserves.stands
          have htold := hserves.told
          rw [hnothing, settled hnothing] at hstands
          rw [hread, settled hnothing, List.append_nil, List.append_nil] at htold
          exact ⟨htold, b, x, rfl, hqueued, hserves.flows, hstands, parked, hfar⟩

end View

/-! ## What a client does -/

/-- what a client does at its end of the stream fits what it had written and heard before, and has then -/
structure Stream.Fits {α : Type} (s : Stream) (after : Stirred α) (unsent heard unsent' heard' : Bytes) : Prop where
  flows : after.stream.Flows
  asked : after.stream.toRead .far ++ unsent' = s.toRead .far ++ unsent
  heard : heard' ++ after.stream.toRead .near = heard ++ s.toRead .near
  input : after.stream.toRead .far = s.toRead .far ∨ (Side.far, Stir.input) ∈ after.stirs
  tells : ∀ e, s.Tells after e
  quiet : (Side.far, Stir.any) ∉ after.stirs

namespace Stream

variable {s : Stream}

/-- a client writes some of what it has not written yet -/
theorem Flows.fits_send (hf : s.Flows) (unsent heard : Bytes) (count : Nat) :
    s.Fits (s.send .near (unsent.take count)) unsent heard
      (unsent.drop ((s.send .near (unsent.take count)).value.toOption.getD 0)) heard := by
  have htells := s.tells_send .near (unsent.take count)
  by_cases hnone : unsent.take count = []
  · have hopen := hf.ends .near
    have hsend : s.send .near [] = { stream := s, value := .ok 0 } := by
      unfold Stream.send
      simp [hf.family, hopen.trouble, hopen.finished, hopen.broken]
    rw [hnone] at htells ⊢
    rw [hsend] at htells ⊢
    exact ⟨hf, rfl, rfl, .inl rfl, htells, nofun⟩
  · rcases hf.send .near hnone with ⟨-, hsend⟩ | ⟨accepted, -, hle, hvalue, hflows, hfar, hnear, hstirs⟩
    · rw [hsend] at htells ⊢
      exact ⟨hf, rfl, rfl, .inl rfl, htells, nofun⟩
    · rw [hvalue]
      refine ⟨hflows, ?_, by rw [hnear], .inr (by rw [hstirs]; exact List.mem_singleton_self _), htells, ?_⟩
      · have hfits : accepted ≤ count := Nat.le_trans hle (List.length_take_le ..)
        have hfar : (s.send .near (unsent.take count)).stream.toRead .far =
            s.toRead .far ++ (unsent.take count).take accepted := hfar
        rw [hfar, List.take_take, Nat.min_eq_left hfits, List.append_assoc]
        show s.toRead .far ++ (unsent.take accepted ++ unsent.drop accepted) = _
        rw [List.take_append_drop]
      · rw [hstirs]
        exact fun hm => by cases List.mem_singleton.1 hm

/-- a client reads -/
theorem Flows.fits_recv (hf : s.Flows) (unsent heard : Bytes) (count : Nat) :
    s.Fits (s.recv .near count) unsent heard unsent (heard ++ ((s.recv .near count).value.toOption.getD [])) := by
  have htells := s.tells_recv .near count
  rcases hf.recv .near count with ⟨-, hrecv⟩ | ⟨bytes, hvalue, -, hsplit, hflows, hfar, -⟩
  · rw [hrecv] at htells ⊢
    exact ⟨hf, rfl, by rw [show ((.error .again : Except Errno Bytes).toOption.getD []) = [] from rfl, List.append_nil],
      .inl rfl, htells, nofun⟩
  · rw [hvalue]
    refine ⟨hflows, ?_, ?_, .inl ?_, htells, ?_⟩
    · exact congrArg (·.inbox.flatMap (·.bytes) ++ unsent) hfar
    · rw [hsplit]
      exact List.append_assoc ..
    · exact congrArg (·.inbox.flatMap (·.bytes)) hfar
    · intro hm
      unfold Stream.recv at hm
      dsimp only at hm
      split at hm
      · split at hm <;> cases hm
      · dsimp only at hm
        split at hm
        · cases List.mem_singleton.1 hm
        · cases hm

end Stream

namespace View

variable {v v' : View X}

theorem apply_value {α : Type} (v : View X) (operation : Stream → Stirred α) :
    (v.apply operation).2 = (operation v.stream).value := by
  cases v <;> rfl

theorem Serves.flows (hs : v.Serves protocol stands answers unsent heard) : v.stream.Flows := by
  cases v with
  | gone stream => exact hs.elim
  | waiting stream =>
    obtain ⟨owed, hserves⟩ := hs
    exact hserves.flows
  | served b x told ready =>
    obtain ⟨owed, hserves, -⟩ := hs
    exact hserves.flows

/-- the client is served in order whatever it writes and reads of its requests and answers -/
theorem Serves.apply {α : Type} {unsent' heard' : Bytes} (hs : v.Serves protocol stands answers unsent heard)
    {operation : Stream → Stirred α}
    (hfits : v.stream.Fits (operation v.stream) unsent heard unsent' heard') :
    (v.apply operation).1.Serves protocol stands answers unsent' heard' := by
  -- the exchange is as it was, at a stream that has moved
  have hmoved : ∀ {x : X} {owed : Bytes}, v.stream.Serves stands answers unsent heard x owed →
      (operation v.stream).stream.Serves stands answers unsent' heard' x owed := by
    intro x owed hserves
    exact ⟨hfits.flows, hfits.asked ▸ hserves.stands, hfits.heard ▸ hserves.told⟩
  cases v with
  | gone stream => exact hs.elim
  | waiting stream =>
    obtain ⟨owed, hserves⟩ := hs
    exact ⟨owed, hmoved hserves⟩
  | served b x told ready =>
    obtain ⟨owed, hserves, hwaits⟩ := hs
    refine ⟨owed, hmoved hserves, hwaits.imp_right fun hw => ?_⟩
    rw [show (b.apply operation).1.stream.toRead .far ++ unsent' = _ from hfits.asked]
    exact hw.apply hfits.input hfits.tells hfits.quiet

end View

/-! ## Dialogues -/

namespace Client

variable {host : Host} {settings : Settings} {asked : Bytes}

/-- the runs of a server, set up in a host, in which one client writes what it has to ask, in any pieces, and reads, at
any times: the server, the descriptor under which the client is connected, what it has not written yet, and what it has
heard -/
inductive Dialogue (protocol : Http.Protocol X) (host : Host) (settings : Settings) (asked : Bytes) :
    Server X → Option Descriptor → Bytes → Bytes → Prop where
  /-- the server is about to wait for the first time -/
  | start {first : Server X} {limit : Nat} {ready : Worked X} :
      (Server.bind host settings protocol).server = .ok first → first.prepare limit = some ready →
        Dialogue protocol host settings asked ready.server none asked []
  /-- others do what they like, but not in the client's place -/
  | others {s : Server X} {me : Option Descriptor} {unsent heard : Bytes} (deed : Deed) :
      Dialogue protocol host settings asked s me unsent heard → (∀ d, me = some d → deed.client? ≠ some d) →
        Dialogue protocol host settings asked (s.onHost (·.act deed)) me unsent heard
  /-- the server takes one turn -/
  | turned {s : Server X} {me : Option Descriptor} {unsent heard : Bytes} {limit : Nat} {ready : Worked X} :
      Dialogue protocol host settings asked s me unsent heard → s.take.halt = none →
        s.take.server.prepare limit = some ready →
          Dialogue protocol host settings asked ready.server me unsent heard
  /-- the server's wait does not end -/
  | blocked {s : Server X} {me : Option Descriptor} {unsent heard : Bytes} :
      Dialogue protocol host settings asked s me unsent heard → s.take.halt = some .blocked →
        Dialogue protocol host settings asked s.take.server me unsent heard
  /-- the client connects -/
  | connected {s s' : Server X} {me me' : Option Descriptor} {unsent heard : Bytes} :
      Dialogue protocol host settings asked s me unsent heard → Does s me .connect s' me' .connected →
        Dialogue protocol host settings asked s' me' unsent heard
  /-- the client writes a piece of what it has not written yet; as much of it is written as is accepted -/
  | wrote {s s' : Server X} {me me' : Option Descriptor} {unsent heard : Bytes} (count : Nat)
      {result : Except Errno Nat} :
      Dialogue protocol host settings asked s me unsent heard →
        Does s me (.send (unsent.take count)) s' me' (.sent result) →
          Dialogue protocol host settings asked s' me' (unsent.drop (result.toOption.getD 0)) heard
  /-- the client reads -/
  | read {s s' : Server X} {me me' : Option Descriptor} {unsent heard : Bytes} (count : Nat)
      {result : Except Errno Bytes} :
      Dialogue protocol host settings asked s me unsent heard → Does s me (.recv count) s' me' (.received result) →
        Dialogue protocol host settings asked s' me' unsent (heard ++ result.toOption.getD [])

/-- a server that is run until a wait does not end gets to that wait in the same dialogue -/
theorem Dialogue.last {s : Server X} {me : Option Descriptor}
    (hd : Dialogue protocol host settings asked s me unsent heard) {limit : Nat}
    (hhalt : (s.run limit).halt = some .blocked) :
    ∃ last, Dialogue protocol host settings asked last me unsent heard ∧ last.take.halt = some .blocked ∧
      (s.run limit).server = last.take.server := by
  induction limit generalizing s with
  | zero => cases hhalt
  | succ limit ih =>
    unfold Server.run at hhalt ⊢
    dsimp only at hhalt ⊢
    cases hstop : s.take.halt with
    | some halt =>
      rw [hstop] at hhalt
      exact ⟨s, hd, hhalt, rfl⟩
    | none =>
      rw [hstop] at hhalt
      dsimp only at hhalt ⊢
      cases hprepare : s.take.server.prepare s.take.server.patience with
      | none =>
        rw [hprepare] at hhalt
        cases hhalt
      | some ready =>
        rw [hprepare] at hhalt
        exact ih (hd.turned hstop hprepare) hhalt

/-- a server that is run until it waits is in the same dialogue -/
theorem Dialogue.ran {s : Server X} {me : Option Descriptor}
    (hd : Dialogue protocol host settings asked s me unsent heard) {limit : Nat}
    (hhalt : (s.run limit).halt = some .blocked) :
    Dialogue protocol host settings asked (s.run limit).server me unsent heard := by
  obtain ⟨last, hlast, hblocked, hserver⟩ := hd.last hhalt
  rw [hserver]
  exact hlast.blocked hblocked

/-- what a dialogue has come to: the client has not connected yet, or it is served in order -/
def InOrder (protocol : Http.Protocol X) (stands : Bytes → Bytes → X → Prop) (asked answers unsent heard : Bytes) :
    Option (View X) → Prop
  | none => unsent = asked ∧ heard = []
  | some v => v.Serves protocol stands answers unsent heard

variable {gets : List Get} {s : Server X} {me : Option Descriptor}

section InOrder

variable {view moved : Option (View X)}

theorem InOrder.connected (hv : InOrder protocol stands asked answers unsent heard view)
    (hstart : stands asked answers protocol.start) (hact : Act.connect.alone view = some (moved, .connected)) :
    InOrder protocol stands asked answers unsent heard moved := by
  cases view with
  | some v => cases hact
  | none =>
    obtain ⟨rfl, rfl⟩ := hv
    cases hact
    exact ⟨answers, Stream.flows_fresh, hstart, rfl⟩

theorem InOrder.wrote (hv : InOrder protocol stands asked answers unsent heard view) {count : Nat}
    {result : Except Errno Nat} (hact : (Act.send (unsent.take count)).alone view = some (moved, .sent result)) :
    InOrder protocol stands asked answers (unsent.drop (result.toOption.getD 0)) heard moved := by
  cases view with
  | none => cases hact
  | some v =>
    cases hact
    rw [View.apply_value]
    exact View.Serves.apply hv (hv.flows.fits_send _ _ count)

theorem InOrder.read (hv : InOrder protocol stands asked answers unsent heard view) {count : Nat}
    {result : Except Errno Bytes} (hact : (Act.recv count).alone view = some (moved, .received result)) :
    InOrder protocol stands asked answers unsent (heard ++ result.toOption.getD []) moved := by
  cases view with
  | none => cases hact
  | some v =>
    cases hact
    rw [View.apply_value]
    exact View.Serves.apply hv (hv.flows.fits_recv _ _ count)

end InOrder

/-- a server that is about to wait, with a client that is served in order as long as everything fits into a word -/
def Accounted (protocol : Http.Protocol X) (stands : Bytes → Bytes → X → Prop) (asked answers unsent heard : Bytes)
    (s : Server X) (me : Option Descriptor) : Prop :=
  ∃ fixed, s.Poised protocol fixed true ∧ ((s.scene []).Fits →
    ∃ view, Sees s me view ∧ InOrder protocol stands asked answers unsent heard view)

/-- what the client does keeps the account if its view, alone, does -/
theorem Accounted.did {s' : Server X} {me' : Option Descriptor} {act : Act} {reply : Reply} {unsent' heard' : Bytes}
    (hs : Accounted protocol stands asked answers unsent heard s me) (hdoes : Does s me act s' me' reply)
    (hfollows : ∀ {view moved}, InOrder protocol stands asked answers unsent heard view →
      act.alone view = some (moved, reply) → InOrder protocol stands asked answers unsent' heard' moved) :
    Accounted protocol stands asked answers unsent' heard' s' me' := by
  obtain ⟨fixed, hp, hserved⟩ := hs
  obtain ⟨deed, rfl⟩ := hdoes.deed
  obtain ⟨hp', hlength⟩ := poised_act hp deed
  refine ⟨fixed, hp', fun hfits => ?_⟩
  obtain ⟨view, hsees, hv⟩ := hserved (Nat.lt_of_le_of_lt (Nat.add_le_add_right hlength _) hfits)
  obtain ⟨moved, hact, hsees'⟩ := hdoes.alone hp hsees
  exact ⟨moved, hsees', hfollows hv hact⟩

/-- so does what others do, if they do it elsewhere -/
theorem Accounted.others (hs : Accounted protocol stands asked answers unsent heard s me) (deed : Deed)
    (hothers : ∀ d, me = some d → deed.client? ≠ some d) :
    Accounted protocol stands asked answers unsent heard (s.onHost (·.act deed)) me := by
  obtain ⟨fixed, hp, hserved⟩ := hs
  obtain ⟨hp', hlength⟩ := poised_act hp deed
  refine ⟨fixed, hp', fun hfits => ?_⟩
  obtain ⟨view, hsees, hv⟩ := hserved (Nat.lt_of_le_of_lt (Nat.add_le_add_right hlength _) hfits)
  cases hsees with
  | none => exact ⟨none, .none, hv⟩
  | some hm =>
    obtain ⟨i, hm⟩ := hm
    exact ⟨_, .some ⟨i, hm.act hp.settled.sound.host (hothers _ rfl)⟩, hv⟩

/-- and so does what the server does, for all that its client's view goes through is what happens by itself -/
theorem Accounted.passed {s' : Server X} {fixed : List Watch} (ha : protocol.Answers o stands)
    (hp : s.Poised protocol fixed true) (hserved : (s.scene []).Fits →
      ∃ view, Sees s me view ∧ InOrder protocol stands asked answers unsent heard view)
    (hpasses : Scene.Passes protocol true (Scene.Settled fixed true) (s.scene []) (s'.scene []))
    (hp' : s'.Poised protocol fixed true) : Accounted protocol stands asked answers unsent heard s' me := by
  refine ⟨fixed, hp', fun hfits => ?_⟩
  have hlength := hpasses.length hp.settled
  obtain ⟨view, hsees, hv⟩ := hserved (Nat.lt_of_le_of_lt (Nat.add_le_add_right hlength _) hfits)
  cases hsees with
  | none => exact ⟨none, .none, hv⟩
  | some hm =>
    obtain ⟨i, hm⟩ := hm
    obtain ⟨v', hleads, hm'⟩ := hpasses.follows hp.settled hfits hm
    exact ⟨some v', .some ⟨i, hm'⟩, View.Serves.leads ha hv hleads⟩

/-- a server in a dialogue is about to wait, and it serves the client's requests in order, if nobody hinders it and it
watches for room while a write is parked -/
theorem Dialogue.inOrder (ha : protocol.Answers o stands) (hlocal : protocol.Local) (hh : host.Sound)
    (hw : host.watches = []) (hu : host.Unhindered) (harms : settings.armWrites = true)
    (hd : Dialogue protocol host settings (gets.flatMap Get.bytes) s me unsent heard) :
    Accounted protocol stands (gets.flatMap Get.bytes) (successes o gets.length) unsent heard s me := by
  have hstart : stands (gets.flatMap Get.bytes) (successes o gets.length) protocol.start :=
    Get.answers_eq o gets ▸ ha.start gets
  generalize gets.flatMap Get.bytes = asked at hd hstart
  generalize successes o gets.length = answers at hstart
  induction hd with
  | start hb hprepare =>
    obtain ⟨hsettled, hfollows, hroomy⟩ := Server.settled_bind hh hw hu hb
    rw [harms] at hsettled
    obtain ⟨-, hpoised⟩ := Server.Poised.prepared hsettled hlocal rfl hfollows hroomy hprepare
    exact ⟨_, hpoised, fun _ => ⟨none, .none, rfl, rfl⟩⟩
  | others deed _ hothers ih => exact ih.others deed hothers
  | turned _ hhalt hprepare ih =>
    obtain ⟨fixed, hp, hserved⟩ := ih
    obtain ⟨hpasses, halike⟩ := Server.passes_take hp hhalt
    obtain ⟨hprepared, hready⟩ := Server.Poised.prepared (hpasses.keeps hp.settled) hlocal
      (halike.standing.trans hp.own) (halike.protocol.trans hp.follows) (halike.capacity ▸ hp.roomy) hprepare
    exact .passed ha hp hserved (hpasses.trans hprepared) hready
  | blocked _ hhalt ih =>
    obtain ⟨fixed, hp, hserved⟩ := ih
    obtain ⟨hpasses, halike, hidle, -⟩ := Server.passes_blocked hp hhalt
    exact .passed ha hp hserved hpasses ⟨hpasses.keeps hp.settled, hidle, halike.standing.trans hp.own,
      halike.protocol.trans hp.follows, halike.capacity ▸ hp.roomy⟩
  | connected _ hdoes ih => exact ih.did hdoes fun hv hact => hv.connected hstart hact
  | wrote _ _ hdoes ih => exact ih.did hdoes fun hv hact => hv.wrote hact
  | read _ _ hdoes ih => exact ih.did hdoes fun hv hact => hv.read hact

end Client

end EventServer
