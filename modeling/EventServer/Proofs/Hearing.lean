/-
Hearing a server out: a client reads what it is sent, whenever the server waits, until there is nothing left to read.

`Client.HearsOut` are the ways in which that happens. They are a part of the client's dialogue (`Dialogue.listened`),
and where nobody else acts there is one (`Dialogue.hearsOut`). The server comes to a wait that does not end
(`Dialogue.rests`), for its runs are runs that `Reached` knows of; and the client is never sent more than an answer to
each of its requests (`View.Serves.length_le`), so it does not read on and on.
-/
import EventServer.Proofs.Dialogue
import EventServer.Proofs.Quiescence

namespace EventServer

open Http

variable {X : Type} {protocol : Http.Protocol X} {o : Options} {stands : Bytes → Bytes → X → Prop} {host : Host}
  {settings : Settings} {count : Nat} {answers unsent heard asked : Bytes} {client : Descriptor}

/-! ## Reading -/

namespace Host

/-- what is read at an end of a stream is felt by nobody but the other end -/
theorem abides_receive (h : Host) (d : Descriptor) (count : Nat) : h.Abides (h.receive d count).1 := by
  unfold receive
  split
  · exact .refl h
  · next id side _ =>
    rcases h.onStream_cases id (·.recv side count) (.error .badDescriptor) with hnone | ⟨s, q, -, hsome⟩
    · rw [hnone]
      exact .refl h
    · rw [hsome]
      exact ⟨rfl, rfl, rfl, fun he _ => he⟩
  all_goals exact .refl h

theorem abides_recv (h : Host) (d : Descriptor) (count : Nat) : h.Abides (h.act (.recv d count)) := by
  show h.Abides (if (h.client? d).isSome then (h.receive d count).1 else h)
  split
  · exact h.abides_receive d count
  · exact .refl h

end Host

/-- a client reads what its view has for it -/
theorem Scene.Mirrors.receive {s : Server X} {i : Nat} {v : View X} (hm : (s.scene []).Mirrors i client v)
    (count : Nat) : (s.host.receive client count).2 = (v.stream.recv .near count).value := by
  unfold Host.receive
  rw [show s.host.device? client = _ from hm.client]
  dsimp only
  unfold Host.onStream
  rw [show s.host.streams[i]? = _ from hm.stream]

/-- what a client has heard, and what it can read now, is no more than all its answers -/
theorem View.Serves.length_le {v : View X} (hv : v.Serves protocol stands answers unsent heard) :
    heard.length + (v.stream.toRead .near).length ≤ answers.length := by
  have htold : ∀ {s : Stream} {x : X} {owed : Bytes}, s.Serves stands answers unsent heard x owed →
      heard.length + (s.toRead .near).length ≤ answers.length := fun hs => by
    rw [← hs.told]
    simp only [List.length_append]
    omega
  cases v with
  | gone stream => exact hv.elim
  | waiting stream =>
    obtain ⟨owed, hs⟩ := hv
    exact htold hs
  | served b x told ready =>
    obtain ⟨owed, hs, -⟩ := hv
    exact htold hs

/-! ## Hearing a server out -/

namespace Client

/-- a client hears a server out: the server runs until its wait does not end and the client reads up to `count` bytes,
again and again, until there is nothing to read. The bytes are what the client hears, and the server is as it is then -/
inductive HearsOut (client : Descriptor) (count : Nat) : Server X → Bytes → Server X → Prop where
  | nothing {s : Server X} {limit : Nat} :
      (s.run limit).halt = some .blocked → ((s.run limit).server.host.receive client count).2 = .error .again →
        HearsOut client count s [] (s.run limit).server
  | more {s s' : Server X} {limit : Nat} {bytes rest : Bytes} :
      (s.run limit).halt = some .blocked → ((s.run limit).server.host.receive client count).2 = .ok bytes →
        HearsOut client count ((s.run limit).server.onHost (·.act (.recv client count))) rest s' →
          HearsOut client count s (bytes ++ rest) s'

variable {s s' : Server X} {me : Option Descriptor} {rest : Bytes}

/-- a client that hears the server out goes on with its dialogue until there is nothing to read -/
theorem Dialogue.listened (hd : Dialogue protocol host settings asked s (some client) unsent heard)
    (ho : HearsOut client count s rest s') :
    ∃ last, Dialogue protocol host settings asked last (some client) unsent (heard ++ rest) ∧
      last.take.halt = some .blocked ∧ s' = last.take.server ∧ (s'.host.receive client count).2 = .error .again := by
  induction ho generalizing heard with
  | nothing hhalt hread =>
    obtain ⟨last, hlast, hblocked, hserver⟩ := hd.last hhalt
    exact ⟨last, by simpa using hlast, hblocked, hserver, hread⟩
  | more hhalt hread _ ih =>
    have hheard := (hd.ran hhalt).read count (.recv count)
    rw [hread] at hheard
    rw [← List.append_assoc]
    exact ih hheard

/-- a server in a dialogue is reached from one that was set up -/
theorem Dialogue.reached (arises : X → Prop) (hh : host.Sound) (hw : host.watches = [])
    (hd : Dialogue protocol host settings asked s me unsent heard) :
    ∃ fixed first past, first.Upholds fixed False [] [] ∧ first.Tends protocol arises ∧
      Reached first .wait s past := by
  have hdone : ∀ {first s s' : Server X} {me me' : Option Descriptor} {past : List Moment} {act : Act} {reply : Reply},
      Reached first .wait s past → Does s me act s' me' reply → Reached first .wait s' past := by
    intro first s s' me me' past act reply hr hdoes
    obtain ⟨deed, rfl⟩ := hdoes.deed
    exact hr.others deed
  induction hd with
  | start hb hprepare =>
    exact ⟨_, _, _, Server.upholds_bind False hh hw False.elim hb, Server.tends_bind hb, Reached.start.pumped hprepare⟩
  | others deed _ _ ih =>
    obtain ⟨fixed, first, past, hu, hf, hr⟩ := ih
    exact ⟨fixed, first, past, hu, hf, hr.others deed⟩
  | turned _ hhalt hprepare ih =>
    obtain ⟨fixed, first, past, hu, hf, hr⟩ := ih
    exact ⟨fixed, first, _, hu, hf, (hr.took hhalt).pumped hprepare⟩
  | blocked _ hhalt ih =>
    obtain ⟨fixed, first, past, hu, hf, hr⟩ := ih
    exact ⟨fixed, first, _, hu, hf, hr.blocked hhalt⟩
  | connected _ hdoes ih =>
    obtain ⟨fixed, first, past, hu, hf, hr⟩ := ih
    exact ⟨fixed, first, past, hu, hf, hdone hr hdoes⟩
  | wrote _ _ hdoes ih =>
    obtain ⟨fixed, first, past, hu, hf, hr⟩ := ih
    exact ⟨fixed, first, past, hu, hf, hdone hr hdoes⟩
  | read _ _ hdoes ih =>
    obtain ⟨fixed, first, past, hu, hf, hr⟩ := ih
    exact ⟨fixed, first, past, hu, hf, hdone hr hdoes⟩

/-- a server that nobody else acts upon comes to a wait that does not end -/
theorem Dialogue.rests {arises : X → Prop} (hp : protocol.Thrifty arises) (hh : host.Sound) (hw : host.watches = [])
    (hd : Dialogue protocol host settings asked s me unsent heard) (hdeserted : s.Deserted) :
    ∃ limit, (s.run limit).halt = some .blocked ∧ s.host.Abides (s.run limit).server.host ∧
      (s.run limit).server.Deserted := by
  obtain ⟨fixed, first, past, hu, hf, hr⟩ := hd.reached arises hh hw
  exact ⟨_, hr.run_blocks hp hu hf hdeserted (Nat.lt_succ_self _)⟩

/-- and its client gets to hear it out -/
theorem Dialogue.hearsOut {arises : X → Prop} {gets : List Get} (ha : protocol.Answers o stands)
    (hlocal : protocol.Local) (hp : protocol.Thrifty arises) (hh : host.Sound) (hw : host.watches = [])
    (hu : host.Unhindered) (harms : settings.armWrites = true) (hcount : 0 < count)
    (hd : Dialogue protocol host settings (gets.flatMap Get.bytes) s (some client) unsent heard)
    (hdeserted : s.Deserted) (hfits : s.host.devices.length + Token.base < UInt64.size) :
    ∃ rest s', HearsOut client count s rest s' ∧ s'.host.devices.length = s.host.devices.length := by
  -- on how much of the answers it has not heard yet
  induction hleft : (successes o gets.length).length - heard.length using Nat.strong_induction_on
    generalizing s heard with
  | h left ih =>
    obtain ⟨limit, hhalt, habides, hdeserted'⟩ := hd.rests hp hh hw hdeserted
    have hran := hd.ran hhalt
    obtain ⟨fixed, -, hserved⟩ := hran.inOrder ha hlocal hh hw hu harms
    have hroom : (s.run limit).server.host.devices.length + Token.base < UInt64.size := by
      rw [habides.length]
      exact hfits
    obtain ⟨view, hsees, hv⟩ := hserved hroom
    cases hsees with
    | @some _ v hm =>
    obtain ⟨i, hm⟩ := hm
    have hv : v.Serves protocol stands (successes o gets.length) unsent heard := hv
    have hreceive := hm.receive count
    rcases hv.flows.recv .near count with ⟨-, hvalue⟩ | ⟨bytes, hvalue, hsome, hsplit, -⟩
    · exact ⟨[], _, .nothing hhalt (hreceive.trans (by rw [hvalue])), habides.length⟩
    · have hread := hreceive.trans hvalue
      have hheard := hran.read count (.recv count)
      rw [hread] at hheard
      have habides' := (s.run limit).server.host.abides_recv client count
      have hless : (successes o gets.length).length - (heard ++ bytes).length < left := by
        have hle := hv.length_le
        have hpos := List.length_pos_iff.2 (hsome hcount)
        rw [hsplit, List.length_append] at hle
        rw [List.length_append]
        omega
      have hroom' : ((s.run limit).server.host.act (.recv client count)).devices.length + Token.base < UInt64.size := by
        rw [habides'.length]
        exact hroom
      obtain ⟨rest, s', hrest, hlength⟩ := ih _ hless hheard (hdeserted'.of_abides habides' rfl) hroom' rfl
      exact ⟨bytes ++ rest, s', .more hhalt hread hrest,
        hlength.trans (habides'.length.trans habides.length)⟩

end Client

end EventServer
