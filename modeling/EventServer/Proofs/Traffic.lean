/-
What goes over a stream, and the account of it.

`Traffic` is the account of one connection: what its client sent and has read, what the server's reads were given and
what its writes had accepted. A stream `Tallies` with an account if each byte that was sent was given or is still to be
read, in order, and each that was accepted has been heard or is still to be heard, in order. There is one lemma for each
operation at either end (`Tallies.recv`, `Tallies.send`, and those of the client); they rest on what a read and a write
come to at any end, whatever has happened to it (`read_cases`, `write_cases`). So an account can be opened at any time:
nothing is amiss with a stream that comes about by such operations (`Arises.serviceable`).

An operation of the host on a descriptor is one on a stream, so hosts tally as well: whatever others do is put down in
the account (`Host.Tallies.act`), and what a call on the server's end gives or takes is (`Host.Tallies.recv`,
`Host.Tallies.send`).
-/
import EventServer.Proofs.Elsewhere
import EventServer.Proofs.Endurance
import EventServer.Proofs.Flow
import EventServer.Proofs.Unrest

namespace EventServer

/-- the account of one connection -/
structure Traffic where
  /-- the bytes of its client's that were accepted -/
  sent : Bytes := []
  /-- those that its client has read -/
  heard : Bytes := []
  /-- those that the server's reads were given -/
  given : Bytes := []
  /-- those of the server's that were accepted -/
  taken : Bytes := []
  /-- its client has reset it, or has closed it with bytes left unread -/
  severed : Bool := false

namespace Traffic

def sends (t : Traffic) (bytes : Bytes) (count : Option Nat) : Traffic :=
  { t with sent := t.sent ++ bytes.take (count.getD 0) }

def hears (t : Traffic) (got : Option Bytes) : Traffic := { t with heard := t.heard ++ got.getD [] }

def gives (t : Traffic) (got : Option Bytes) : Traffic := { t with given := t.given ++ got.getD [] }

def takes (t : Traffic) (bytes : Bytes) (count : Option Nat) : Traffic :=
  { t with taken := t.taken ++ bytes.take (count.getD 0) }

@[simp] theorem sends_none (t : Traffic) (bytes : Bytes) : t.sends bytes none = t := by simp [sends]

@[simp] theorem hears_none (t : Traffic) : t.hears none = t := by simp [hears]

@[simp] theorem gives_none (t : Traffic) : t.gives none = t := by simp [gives]

@[simp] theorem takes_none (t : Traffic) (bytes : Bytes) : t.takes bytes none = t := by simp [takes]

/-- the account after a deed of others -/
def overhear (t : Traffic) (i : Nat) (h : Host) (deed : Deed) : Traffic :=
  if deed.client?.bind h.client? = some i then
    match deed with
    | .send d bytes => t.sends bytes (h.transmit d bytes).2.toOption
    | .recv d count => t.hears (h.receive d count).2.toOption
    | .close _ abrupt =>
      { t with severed := t.severed || abrupt || (h.streams[i]?).any fun s => !s.near.inbox.isEmpty }
    | .finish _ | .connect .. | .signal _ | .interrupt => t
  else t

/-- the client has sent and has read more, perhaps, and nothing was given or taken -/
structure Onward (t t' : Traffic) : Prop where
  sent : t.sent <+: t'.sent
  heard : t.heard <+: t'.heard
  given : t'.given = t.given
  taken : t'.taken = t.taken

theorem Onward.refl (t : Traffic) : Onward t t := ⟨List.prefix_rfl, List.prefix_rfl, rfl, rfl⟩

theorem Onward.trans {t t' t'' : Traffic} (h : Onward t t') (h' : Onward t' t'') : Onward t t'' :=
  ⟨h.sent.trans h'.sent, h.heard.trans h'.heard, h'.given.trans h.given, h'.taken.trans h.taken⟩

theorem onward_overhear (t : Traffic) (i : Nat) (h : Host) (deed : Deed) : Onward t (t.overhear i h deed) := by
  unfold overhear
  split
  · split
    · exact ⟨List.prefix_append .., List.prefix_rfl, rfl, rfl⟩
    · exact ⟨List.prefix_rfl, List.prefix_append .., rfl, rfl⟩
    · exact ⟨List.prefix_rfl, List.prefix_rfl, rfl, rfl⟩
    all_goals exact .refl t
  · exact .refl t

end Traffic

namespace Stream

variable {s s' : Stream} {t : Traffic} {count : Nat} {bytes : Bytes}

theorem update_trouble (s : Stream) (side : Side) {trouble : Option Errno} (ht : (s.get side).trouble = trouble) :
    (s.update side fun e => { e with trouble }) = s := by
  subst ht
  cases side <;> rfl

/-- what a read comes to at any end: an error that is told once at most, the end of all that comes, or the first of the
bytes -/
theorem read_cases (s : Stream) (side : Side) (count : Nat) :
    (∃ code trouble, (s.recv side count).value = .error code ∧
        (s.recv side count).stream = s.update side fun e => { e with trouble }) ∨
      (s.get side).inbox = [] ∧ s.atEnd side = true ∧ s.recv side count = { stream := s, value := .ok [] } ∨
      (s.get side).inbox ≠ [] ∧ (s.recv side count).value = .ok (takeBytes count (s.get side).inbox).1 ∧
        (s.recv side count).stream =
          s.update side fun e => { e with inbox := (takeBytes count (s.get side).inbox).2.1 } := by
  by_cases hnone : (s.get side).inbox = []
  · unfold Stream.recv
    simp only [hnone, List.isEmpty_nil, if_true]
    cases ht : (s.get side).trouble with
    | some code => exact .inl ⟨code, none, rfl, rfl⟩
    | none =>
      cases hend : s.atEnd side with
      | true => exact .inr (.inl ⟨trivial, rfl, rfl⟩)
      | false => exact .inl ⟨.again, none, rfl, (s.update_trouble side ht).symm⟩
  · refine .inr (.inr ⟨hnone, ?_⟩)
    unfold Stream.recv
    simp only [List.isEmpty_iff, hnone, if_false]
    exact ⟨trivial, trivial⟩

/-- what a write comes to at any end: an error that is told once at most, a reset by a peer that is closed, or the first
of the bytes are put behind those that the other end has to read yet -/
theorem write_cases (s : Stream) (side : Side) (bytes : Bytes) :
    (∃ code trouble, (s.send side bytes).value = .error code ∧
        (s.send side bytes).stream = s.update side fun e => { e with trouble }) ∨
      (s.get side.other).closed = true ∧ (s.send side bytes).value = .ok bytes.length ∧
        (s.send side bytes).stream = (s.update side fun e => { e with broken := true }) ∨
      bytes = [] ∧ s.send side bytes = { stream := s, value := .ok 0 } ∨
      (s.get side.other).closed = false ∧ ∃ count parcels, (s.send side bytes).value = .ok count ∧
        (s.send side bytes).stream = (s.update side.other fun e => { e with inbox := e.inbox ++ parcels }) ∧
        parcels.flatMap (·.bytes) = bytes.take count ∧ count ≤ bytes.length ∧
        ∀ parcel ∈ parcels, parcel.bytes ≠ [] := by
  have hsame : s = s.update side fun e => { e with trouble := (s.get side).trouble } := (s.update_trouble side rfl).symm
  have hdeliver : (∃ code, s.deliver side bytes = { stream := s, value := .error code }) ∨
      ∃ count parcels, (s.deliver side bytes).value = .ok count ∧
        (s.deliver side bytes).stream = (s.update side.other fun e => { e with inbox := e.inbox ++ parcels }) ∧
        parcels.flatMap (·.bytes) = bytes.take count ∧ count ≤ bytes.length ∧
        ∀ parcel ∈ parcels, parcel.bytes ≠ [] := by
    unfold deliver
    dsimp only
    split
    · exact .inl ⟨_, rfl⟩
    · exact .inr ⟨_, _, rfl, rfl, flatMap_parcelsOf .., length_parcelsOf .., filled_parcelsOf _ _ _⟩
  unfold Stream.send
  cases s.family with
  | unix =>
    dsimp only
    split
    · exact .inl ⟨_, _, rfl, hsame⟩
    · next hopen =>
      simp only [Bool.or_eq_true, not_or, Bool.not_eq_true] at hopen
      split
      · next hnone => exact .inr (.inr (.inl ⟨List.isEmpty_iff.1 hnone, rfl⟩))
      · rcases hdeliver with ⟨code, he⟩ | hdelivered
        · rw [he]
          exact .inl ⟨code, _, rfl, hsame⟩
        · exact .inr (.inr (.inr ⟨hopen.2, hdelivered⟩))
  | inet =>
    dsimp only
    cases (s.get side).trouble with
    | some code => exact .inl ⟨code, none, rfl, rfl⟩
    | none =>
      dsimp only
      split
      · exact .inl ⟨_, _, rfl, hsame⟩
      · split
        · next hnone => exact .inr (.inr (.inl ⟨List.isEmpty_iff.1 hnone, rfl⟩))
        · split
          · next hclosed => exact .inr (.inl ⟨hclosed, rfl, rfl⟩)
          · next hopen =>
            rcases hdeliver with ⟨code, he⟩ | hdelivered
            · rw [he]
              exact .inl ⟨code, _, rfl, hsame⟩
            · exact .inr (.inr (.inr ⟨eq_false_of_ne_true hopen, hdelivered⟩))

/-- nothing is amiss with the server's end: it is open, and only a client that is closed can have broken it -/
structure Serviceable (s : Stream) : Prop where
  kept : s.far.closed = false
  filled : ∀ parcel ∈ s.far.inbox, parcel.bytes ≠ []
  parted : s.far.broken = true → s.near.closed = true

/-- each byte that was sent was given or is still to be read, and each that was accepted has been heard or is still to
be heard, unless the connection was reset -/
structure Tallies (s : Stream) (t : Traffic) : Prop extends s.Serviceable where
  read : t.sent = t.given ++ s.toRead .far
  heard : t.heard ++ s.toRead .near <+: t.taken
  whole : t.severed = false → s.far.broken = false → t.taken = t.heard ++ s.toRead .near
  vacated : t.severed = true → s.near.closed = true

/-- an account that starts with what is on its way tallies -/
theorem Serviceable.tallies (hs : s.Serviceable) :
    s.Tallies { sent := s.toRead .far, taken := s.toRead .near } :=
  ⟨hs, rfl, List.prefix_rfl, fun _ _ => rfl, nofun⟩

/-- what an operation may change beside the bytes -/
theorem Tallies.of_same (ht : s.Tallies t) (hkept : s'.far.closed = s.far.closed) (hfar : s'.far.inbox = s.far.inbox)
    (hbroken : s'.far.broken = s.far.broken) (hclosed : s'.near.closed = s.near.closed)
    (hnear : s'.near.inbox = s.near.inbox) : s'.Tallies t := by
  have hread : s'.toRead .far = s.toRead .far := congrArg (·.flatMap (·.bytes)) hfar
  have hheard : s'.toRead .near = s.toRead .near := congrArg (·.flatMap (·.bytes)) hnear
  refine ⟨⟨hkept.trans ht.kept, hfar ▸ ht.filled, ?_⟩, ?_, ?_, ?_, ?_⟩
  · rw [hbroken, hclosed]
    exact ht.parted
  · rw [hread]
    exact ht.read
  · rw [hheard]
    exact ht.heard
  · rw [hbroken, hheard]
    exact ht.whole
  · rw [hclosed]
    exact ht.vacated

/-- an error that is told -/
theorem Tallies.told (ht : s.Tallies t) (side : Side) (trouble : Option Errno) :
    (s.update side fun e => { e with trouble }).Tallies t := by
  cases side <;> exact ht.of_same rfl rfl rfl rfl rfl

/-- what goes to the client is all there for as long as the client is -/
theorem Tallies.whole_of_open (ht : s.Tallies t) (hopen : s.near.closed = false) :
    t.taken = t.heard ++ s.toRead .near := by
  refine ht.whole (eq_false_of_ne_true fun hsevered => ?_) (eq_false_of_ne_true fun hbroken => ?_)
  · exact Bool.false_ne_true (hopen.symm.trans (ht.vacated hsevered))
  · exact Bool.false_ne_true (hopen.symm.trans (ht.parted hbroken))

theorem toRead_more (s : Stream) (side : Side) (parcels : List Parcel) :
    (s.update side fun e => { e with inbox := e.inbox ++ parcels }).toRead side =
      s.toRead side ++ parcels.flatMap (·.bytes) := by
  rw [toRead, get_update]
  exact List.flatMap_append

theorem toRead_rest (s : Stream) (side : Side) (count : Nat) :
    s.toRead side = (takeBytes count (s.get side).inbox).1 ++
      (s.update side fun e => { e with inbox := (takeBytes count (s.get side).inbox).2.1 }).toRead side := by
  rw [toRead_update, takeBytes_append, toRead]

/-! ## At the server's end -/

theorem Tallies.recv (ht : s.Tallies t) (count : Nat) :
    (s.recv .far count).stream.Tallies (t.gives (s.recv .far count).value.toOption) := by
  rcases s.read_cases .far count with ⟨code, trouble, hvalue, hstream⟩ | ⟨-, -, he⟩ | ⟨-, hvalue, hstream⟩
  · rw [hvalue, hstream]
    simpa [Except.toOption] using ht.told .far trouble
  · rw [he]
    simpa [Traffic.gives, Except.toOption] using ht
  · rw [hvalue, hstream]
    refine ⟨⟨ht.kept, filled_takeBytes count ht.filled, ht.parted⟩, ?_, ht.heard, ht.whole, ht.vacated⟩
    calc t.sent = t.given ++ s.toRead .far := ht.read
      _ = _ := by rw [s.toRead_rest .far count, ← List.append_assoc]; rfl

theorem Tallies.send (ht : s.Tallies t) (bytes : Bytes) :
    (s.send .far bytes).stream.Tallies (t.takes bytes (s.send .far bytes).value.toOption) := by
  rcases s.write_cases .far bytes with ⟨code, trouble, hvalue, hstream⟩ | ⟨hclosed, hvalue, hstream⟩ | ⟨-, he⟩ |
    ⟨hopen, count, parcels, hvalue, hstream, hparcels, -, -⟩
  · rw [hvalue, hstream]
    simpa [Except.toOption] using ht.told .far trouble
  · -- the bytes go nowhere, and the server's end is broken from now on
    rw [hvalue, hstream]
    exact ⟨⟨ht.kept, ht.filled, fun _ => hclosed⟩, ht.read, ht.heard.trans (List.prefix_append ..), nofun, ht.vacated⟩
  · rw [he]
    simpa [Traffic.takes, Except.toOption] using ht
  · rw [hvalue, hstream]
    have hmore := s.toRead_more .near parcels
    rw [hparcels] at hmore
    have hwhole : t.taken ++ bytes.take count =
        t.heard ++ (s.update .near fun e => { e with inbox := e.inbox ++ parcels }).toRead .near := by
      rw [hmore, ht.whole_of_open hopen, List.append_assoc]
    exact ⟨⟨ht.kept, ht.filled, ht.parted⟩, ht.read, hwhole ▸ List.prefix_rfl, fun _ _ => hwhole, ht.vacated⟩

/-- a read at the end of the server fills what it is given room for at most; with room it comes to nothing only if
nothing is left, and the client has shut its end down or has closed it -/
theorem Tallies.recv_ok (ht : s.Tallies t) (hr : (s.recv .far count).value = .ok bytes) :
    bytes.length ≤ count ∧ (0 < count → bytes = [] →
      s.toRead .far = [] ∧ (s.recv .far count).stream = s ∧ (s.near.finished || s.near.closed) = true) := by
  rcases s.read_cases .far count with ⟨code, trouble, hvalue, -⟩ | ⟨hnone, hend, he⟩ | ⟨hsome, hvalue, -⟩
  · rw [hvalue] at hr
    cases hr
  · rw [he] at hr ⊢
    cases hr
    refine ⟨Nat.zero_le _, fun _ _ => ⟨congrArg (·.flatMap (·.bytes)) hnone, rfl, ?_⟩⟩
    simp only [atEnd, Side.other, get, Bool.or_eq_true] at hend ⊢
    rcases hend with (hclosed | hfinished) | hbroken
    · exact .inr hclosed
    · exact .inl hfinished
    · exact .inr (ht.parted hbroken)
  · rw [hvalue] at hr
    cases hr
    exact ⟨length_takeBytes .., fun hcount hnone => absurd hnone (takeBytes_ne_nil ht.filled hsome hcount)⟩

/-- no more of a write is accepted than it has -/
theorem send_le (hr : (s.send .far bytes).value = .ok count) : count ≤ bytes.length := by
  rcases s.write_cases .far bytes with ⟨code, trouble, hvalue, -⟩ | ⟨-, hvalue, -⟩ | ⟨-, he⟩ |
    ⟨-, count', parcels, hvalue, -, -, hle, -⟩
  · rw [hvalue] at hr
    cases hr
  · rw [hvalue] at hr
    cases hr
    exact Nat.le_refl _
  · rw [he] at hr
    cases hr
    exact Nat.zero_le _
  · rw [hvalue] at hr
    cases hr
    exact hle

/-! ## At the client's end -/

theorem Tallies.client_recv (ht : s.Tallies t) (count : Nat) :
    (s.recv .near count).stream.Tallies (t.hears (s.recv .near count).value.toOption) := by
  rcases s.read_cases .near count with ⟨code, trouble, hvalue, hstream⟩ | ⟨-, -, he⟩ | ⟨-, hvalue, hstream⟩
  · rw [hvalue, hstream]
    simpa [Except.toOption] using ht.told .near trouble
  · rw [he]
    simpa [Traffic.hears, Except.toOption] using ht
  · rw [hvalue, hstream]
    have hrest : t.heard ++ s.toRead .near = (t.heard ++ (takeBytes count (s.get .near).inbox).1) ++
        (s.update .near fun e => { e with inbox := (takeBytes count (s.get .near).inbox).2.1 }).toRead .near := by
      rw [List.append_assoc, ← s.toRead_rest .near count]
    exact ⟨⟨ht.kept, ht.filled, ht.parted⟩, ht.read, hrest ▸ ht.heard,
      fun hsevered hbroken => (ht.whole hsevered hbroken).trans hrest, ht.vacated⟩

theorem Tallies.client_send (ht : s.Tallies t) (bytes : Bytes) :
    (s.send .near bytes).stream.Tallies (t.sends bytes (s.send .near bytes).value.toOption) := by
  rcases s.write_cases .near bytes with ⟨code, trouble, hvalue, hstream⟩ | ⟨hclosed, -⟩ | ⟨-, he⟩ |
    ⟨-, count, parcels, hvalue, hstream, hparcels, -, hfilled⟩
  · rw [hvalue, hstream]
    simpa [Except.toOption] using ht.told .near trouble
  · exact absurd (ht.kept.symm.trans hclosed) Bool.false_ne_true
  · rw [he]
    simpa [Traffic.sends, Except.toOption] using ht
  · rw [hvalue, hstream]
    have hmore := s.toRead_more .far parcels
    rw [hparcels] at hmore
    refine ⟨⟨ht.kept, fun parcel hm => ?_, ht.parted⟩, ?_, ht.heard, ht.whole, ht.vacated⟩
    · exact (List.mem_append.1 hm).elim (ht.filled parcel) (hfilled parcel)
    · calc t.sent ++ bytes.take count = t.given ++ (s.toRead .far ++ bytes.take count) := by
            rw [ht.read, List.append_assoc]
        _ = _ := by rw [← hmore]; rfl

theorem Tallies.finish (ht : s.Tallies t) (side : Side) : (s.finish side).stream.Tallies t := by
  unfold Stream.finish
  split
  · exact ht
  · cases side <;> exact ht.of_same rfl rfl rfl rfl rfl

/-- what a client that closes does to the other end -/
theorem far_close_near (s : Stream) (abrupt : Bool) : ∃ trouble broken,
    (s.close .near abrupt).stream.far = { s.far with trouble, broken } ∧ (s.far.broken = true → broken = true) := by
  cases hc : (!s.near.inbox.isEmpty || (abrupt && s.family == .inet)) && !s.far.closed with
  | true =>
    refine ⟨some .connectionReset, s.family == .inet || s.far.broken, ?_, fun hbroken => by simp [hbroken]⟩
    simp only [close, get, update, Side.other, hc, if_true]
  | false =>
    refine ⟨s.far.trouble, s.far.broken, ?_, id⟩
    simp only [close, get, update, Side.other, hc, Bool.false_eq_true, if_false]

/-- what the client has not read when it closes is lost to it -/
theorem Tallies.client_close (ht : s.Tallies t) (abrupt : Bool) :
    (s.close .near abrupt).stream.Tallies
      { t with severed := t.severed || abrupt || !s.near.inbox.isEmpty } := by
  have hnothing : (s.close .near abrupt).stream.toRead .near = [] := rfl
  obtain ⟨trouble, broken, hfar, hbroken⟩ := s.far_close_near abrupt
  have hinbox : (s.close .near abrupt).stream.far.inbox = s.far.inbox := by rw [hfar]
  have hclosed : (s.close .near abrupt).stream.far.closed = s.far.closed := by rw [hfar]
  have hread : (s.close .near abrupt).stream.toRead .far = s.toRead .far := congrArg (·.flatMap (·.bytes)) hinbox
  refine ⟨⟨hclosed.trans ht.kept, hinbox ▸ ht.filled, fun _ => rfl⟩, hread ▸ ht.read, ?_, fun hsevered hwhole => ?_,
    fun _ => rfl⟩
  · rw [hnothing, List.append_nil]
    exact (List.prefix_append ..).trans ht.heard
  · simp only [Bool.or_eq_false_iff, Bool.not_eq_false', List.isEmpty_iff] at hsevered
    obtain ⟨⟨hsevered, -⟩, hread⟩ := hsevered
    have hunread : s.toRead .near = [] := congrArg (·.flatMap (·.bytes)) hread
    rw [hnothing, ← hunread]
    rw [hfar] at hwhole
    exact ht.whole hsevered (eq_false_of_ne_true fun h => Bool.false_ne_true (hwhole.symm.trans (hbroken h)))

/-- how a stream comes about for as long as the server has its end of it: both ends read and write and shut down, and
the client may close its own -/
inductive Arises : Stream → Prop where
  | fresh (family : Family) : Arises { family }
  | recv {s : Stream} (hs : Arises s) (side : Side) (count : Nat) : Arises (s.recv side count).stream
  | send {s : Stream} (hs : Arises s) (side : Side) (bytes : Bytes) : Arises (s.send side bytes).stream
  | finish {s : Stream} (hs : Arises s) (side : Side) : Arises (s.finish side).stream
  | close {s : Stream} (hs : Arises s) (abrupt : Bool) : Arises (s.close .near abrupt).stream

/-- what serves goes on to serve, so nothing is amiss with a stream that comes about in any way -/
theorem Arises.serviceable (hs : s.Arises) : s.Serviceable := by
  induction hs with
  | fresh family => exact ⟨rfl, nofun, nofun⟩
  | recv _ side count ih =>
    cases side with
    | near => exact (ih.tallies.client_recv count).toServiceable
    | far => exact (ih.tallies.recv count).toServiceable
  | send _ side bytes ih =>
    cases side with
    | near => exact (ih.tallies.client_send bytes).toServiceable
    | far => exact (ih.tallies.send bytes).toServiceable
  | finish _ side ih => exact (ih.tallies.finish side).toServiceable
  | close _ abrupt ih => exact (ih.tallies.client_close abrupt).toServiceable

end Stream

namespace Host

variable {h : Host} {d : Descriptor} {i : Nat} {t : Traffic} {α : Type}

/-- the server's end of a stream is open, and the stream tallies with an account -/
structure Tallies (h : Host) (d : Descriptor) (i : Nat) (t : Traffic) : Prop where
  far : h.device? d = some (.stream i .far)
  stream : ∃ s, h.streams[i]? = some s ∧ s.Tallies t

theorem Tallies.of_same {h' : Host} (ht : h.Tallies d i t) (hd : h'.device? d = h.device? d)
    (hs : h'.streams[i]? = h.streams[i]?) : h'.Tallies d i t :=
  ⟨hd.trans ht.far, hs ▸ ht.stream⟩

/-- an operation on the stream -/
theorem Tallies.operates (ht : h.Tallies d i t) (operation : Stream → Stirred α) (otherwise : α) :
    ∃ s, h.streams[i]? = some s ∧ s.Tallies t ∧
      (h.onStream i operation otherwise).1.streams[i]? = some (operation s).stream ∧
      (h.onStream i operation otherwise).2 = (operation s).value := by
  obtain ⟨s, hs, htallies⟩ := ht.stream
  have hi := (List.getElem?_eq_some_iff.1 hs).1
  obtain ⟨q, hq, -⟩ := stirEnds_eq { h with streams := h.streams.set i (operation s).stream } i (operation s).stirs
  refine ⟨s, hs, htallies, ?_, by simp only [Host.onStream, hs]⟩
  simp only [Host.onStream, hs, hq]
  exact List.getElem?_set_self hi

theorem Tallies.onStream (ht : h.Tallies d i t) (operation : Stream → Stirred α) (otherwise : α) (t' : α → Traffic)
    (hop : ∀ s, h.streams[i]? = some s → s.Tallies t → (operation s).stream.Tallies (t' (operation s).value)) :
    (h.onStream i operation otherwise).1.Tallies d i (t' (h.onStream i operation otherwise).2) := by
  obtain ⟨s, hs, htallies, hstream, hvalue⟩ := ht.operates operation otherwise
  exact ⟨(device?_onStream ..).trans ht.far, _, hstream, hvalue ▸ hop s hs htallies⟩

/-! ## Calls on the server's end -/

theorem Tallies.receive (ht : h.Tallies d i t) (count : Nat) :
    (h.receive d count).1.Tallies d i (t.gives (h.receive d count).2.toOption) := by
  simp only [Host.receive, ht.far]
  exact ht.onStream (·.recv .far count) _ (fun r => t.gives r.toOption) fun _ _ hs => hs.recv count

theorem Tallies.transmit (ht : h.Tallies d i t) (bytes : Bytes) :
    (h.transmit d bytes).1.Tallies d i (t.takes bytes (h.transmit d bytes).2.toOption) := by
  simp only [Host.transmit, ht.far]
  exact ht.onStream (·.send .far bytes) _ (fun r => t.takes bytes r.toOption) fun _ _ hs => hs.send bytes

theorem Tallies.interrupted (ht : h.Tallies d i t) {h' : Host} (hcut : h.interrupted? = some h') :
    h'.Tallies d i t := by
  unfold interrupted? at hcut
  split at hcut
  · cases hcut
    exact ht.of_same rfl rfl
  · cases hcut

/-- a call that a signal cuts short has done nothing -/
theorem Tallies.recv (ht : h.Tallies d i t) (count : Nat) :
    (h.recv d count).1.Tallies d i (t.gives (h.recv d count).2.toOption) := by
  unfold Host.recv
  split
  · next hcut => simpa [Except.toOption] using ht.interrupted hcut
  · exact ht.receive count

theorem Tallies.send (ht : h.Tallies d i t) (bytes : Bytes) :
    (h.send d bytes).1.Tallies d i (t.takes bytes (h.send d bytes).2.toOption) := by
  unfold Host.send
  split
  · next hcut => simpa [Except.toOption] using ht.interrupted hcut
  · exact ht.transmit bytes

/-- what a read gives: no more than there is room for, and with room nothing only at the end of all that comes -/
theorem Tallies.recv_ok (ht : h.Tallies d i t) {count : Nat} {bytes : Bytes} (hr : (h.recv d count).2 = .ok bytes) :
    bytes.length ≤ count ∧ (0 < count → bytes = [] → ∃ s, (h.recv d count).1.streams[i]? = some s ∧
      s.toRead .far = [] ∧ (s.near.finished || s.near.closed) = true) := by
  unfold Host.recv at hr ⊢
  split at hr
  · cases hr
  · simp only [Host.receive, ht.far] at hr ⊢
    obtain ⟨s, -, htallies, hstream, hvalue⟩ := ht.operates (·.recv .far count) (.error .badDescriptor)
    obtain ⟨hle, hend⟩ := htallies.recv_ok (hvalue.symm.trans hr)
    refine ⟨hle, fun hcount hnone => ?_⟩
    obtain ⟨hnothing, hsame, hended⟩ := hend hcount hnone
    exact ⟨s, hstream.trans (congrArg some hsame), hnothing, hended⟩

theorem Tallies.send_le (ht : h.Tallies d i t) {count : Nat} {bytes : Bytes} (hr : (h.send d bytes).2 = .ok count) :
    count ≤ bytes.length := by
  unfold Host.send at hr
  split at hr
  · cases hr
  · simp only [Host.transmit, ht.far] at hr
    obtain ⟨s, -, -, -, hvalue⟩ := ht.operates (·.send .far bytes) (.error .badDescriptor)
    exact Stream.send_le (hvalue.symm.trans hr)

theorem Tallies.rewatch (ht : h.Tallies d i t) (e : Descriptor) (word : UInt64) (interest : Interest) :
    (h.rewatch e word interest).1.Tallies d i t :=
  ht.of_same (device?_rewatch ..) (congrArg (·[i]?) (h.nudges_rewatch e word interest).2.1)

/-! ## What others do -/

/-- the client closes its end -/
theorem Tallies.client_close (ht : h.Tallies d i t) {near : Descriptor}
    (hnear : h.device? near = some (.stream i .near)) (abrupt : Bool) : (h.close near abrupt).Tallies d i
      { t with severed := t.severed || abrupt || (h.streams[i]?).any fun s => !s.near.inbox.isEmpty } := by
  have hne : d ≠ near := fun he => by
    have hfar := ht.far
    rw [he, hnear] at hfar
    cases hfar
  have hgone : ((h.forget near).setDevice near none).Tallies d i t :=
    ht.of_same ((h.device?_gone near d).trans (if_neg hne)) rfl
  simp only [Host.close, hnear]
  refine hgone.onStream (·.close .near abrupt) () (fun _ => _) fun s hs htallies => ?_
  have hs : h.streams[i]? = some s := hs
  rw [hs, Option.any_some]
  exact htallies.client_close abrupt

theorem Tallies.act (ht : h.Tallies d i t) (deed : Deed) : (h.act deed).Tallies d i (t.overhear i h deed) := by
  by_cases hours : deed.client?.bind h.client? = some i
  · unfold Traffic.overhear
    rw [if_pos hours]
    cases deed with
    | connect l self => cases hours
    | signal number => cases hours
    | interrupt => cases hours
    | send near bytes =>
      have hclient : h.client? near = some i := hours
      simp only [Host.act, hclient, Option.isSome_some, if_true, Host.transmit, client?_eq_some.1 hclient]
      exact ht.onStream (·.send .near bytes) _ (fun r => t.sends bytes r.toOption) fun _ _ hs =>
        hs.client_send bytes
    | recv near count =>
      have hclient : h.client? near = some i := hours
      simp only [Host.act, hclient, Option.isSome_some, if_true, Host.receive, client?_eq_some.1 hclient]
      exact ht.onStream (·.recv .near count) _ (fun r => t.hears r.toOption) fun _ _ hs => hs.client_recv count
    | finish near =>
      have hclient : h.client? near = some i := hours
      simp only [Host.act, hclient, Option.isSome_some, if_true, Host.finish, client?_eq_some.1 hclient]
      exact ht.onStream (·.finish .near) _ (fun _ => t) fun _ _ hs => hs.finish .near
    | close near abrupt =>
      have hclient : h.client? near = some i := hours
      simp only [Host.act, hclient, Option.isSome_some, if_true]
      exact ht.client_close (client?_eq_some.1 hclient) abrupt
  · -- it is about another stream, or about none
    obtain ⟨s, hs, -⟩ := ht.stream
    have hapart := (only_act h deed).apart hours (List.getElem?_eq_some_iff.1 hs).1
    unfold Traffic.overhear
    rw [if_neg hours]
    exact ht.of_same ((hapart.ends.2 ht.far).trans ht.far.symm) hapart.stream

end Host

end EventServer
