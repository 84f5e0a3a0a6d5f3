/-
Elsewhere: what goes on apart from one descriptor and the stream behind it.

An `Aside` is a descriptor with the ends of its stream. Two hosts `Agree` if they differ there at most, and in the
queue, which no call on a descriptor looks at. Closing the descriptor is such a difference (`agree_close`). Whatever
others do keeps it, also if they do it to that stream (`Agree.elapse`); a call on a descriptor that is no end of the
stream keeps it and comes out the same in both hosts (`Matches`). So every request to a table that has nothing to do
with the stream is answered alike over both, and so is every sequence of them (`Agree.answers`).
-/
import EventServer.Proofs.Custody
import EventServer.Proofs.Inbound

namespace EventServer

/-- a descriptor with the stream that it is an end of, if it is, and with the ends of that stream -/
structure Aside where
  descriptor : Descriptor
  stream : Option Nat
  ends : List Descriptor
  mem_ends : descriptor ∈ ends

theorem Aside.ne {v : Aside} {e : Descriptor} (he : e ∉ v.ends) : e ≠ v.descriptor := fun heq => he (heq ▸ v.mem_ends)

namespace Host

variable {α β : Type} {v : Aside} {h h' h'' : Host} {d e : Descriptor} {i : Nat} {side : Side}

def streamOf? (h : Host) (d : Descriptor) : Option Nat :=
  match h.device? d with
  | some (.stream id _) => some id
  | _ => none

/-- a descriptor, to be left aside -/
def aside (h : Host) (d : Descriptor) : Aside where
  descriptor := d
  stream := h.streamOf? d
  ends := d :: (List.range h.devices.length).filter fun e => (h.streamOf? d).isSome && h.streamOf? e == h.streamOf? d
  mem_ends := List.mem_cons_self

/-- a descriptor was given out, its stream is known, and nobody calls there -/
structure Offered (h : Host) (d : Descriptor) : Prop where
  given : d < h.devices.length
  known : ∀ id ∈ h.streamOf? d, id < h.streams.length
  silent : (h.device? d).all (fun device => match device with | .listener _ => false | _ => true) = true

/-- the descriptor and its stream are what they are said to be -/
structure SetAside (v : Aside) (h : Host) : Prop where
  given : v.descriptor < h.devices.length
  known : ∀ {i}, v.stream = some i → i < h.streams.length
  own : ∀ {i side}, h.device? v.descriptor = some (.stream i side) → v.stream = some i
  ends : ∀ {e i side}, h.device? e = some (.stream i side) → v.stream = some i → e ∈ v.ends
  silent : ∀ backlog, h.device? v.descriptor ≠ some (.listener backlog)

theorem streamOf?_eq_some : h.streamOf? d = some i ↔ ∃ side, h.device? d = some (.stream i side) := by
  unfold streamOf?
  split
  · next id side hd => simp [hd]
  · next hd => exact ⟨nofun, fun ⟨side, he⟩ => absurd he (hd i side)⟩

theorem Offered.setAside (ho : h.Offered d) : SetAside (h.aside d) h where
  given := ho.given
  known hi := ho.known _ hi
  own hd := streamOf?_eq_some.2 ⟨_, hd⟩
  ends {e i side} he hi := by
    have hi : h.streamOf? d = some i := hi
    refine List.mem_cons_of_mem _ (List.mem_filter.2 ⟨List.mem_range.2 (lt_length_of_device? he), ?_⟩)
    simp [hi, streamOf?_eq_some.2 ⟨side, he⟩]
  silent backlog hd := by
    have hsilent := ho.silent
    rw [show h.device? d = _ from hd] at hsilent
    cases hsilent

theorem SetAside.of_devices (hv : SetAside v h) (hdevices : h'.devices = h.devices)
    (hmade : h'.streams.length = h.streams.length) : SetAside v h' := by
  have hd : ∀ e, h'.device? e = h.device? e := fun e => by rw [device?, device?, hdevices]
  exact ⟨hdevices ▸ hv.given, fun hi => hmade ▸ hv.known hi, fun hs => hv.own (hd _ ▸ hs),
    fun hs => hv.ends (hd _ ▸ hs), fun backlog hs => hv.silent backlog (hd _ ▸ hs)⟩

/-- all of a host but its streams, descriptors and watches -/
def frame (h : Host) : Host := { h with streams := [], devices := [], watches := [], queue := [] }

/-- two hosts that differ at most in a descriptor and its stream, and in the queue -/
structure Agree (v : Aside) (h h' : Host) : Prop where
  left : SetAside v h
  right : SetAside v h'
  devices : ∀ {e}, e ≠ v.descriptor → h'.device? e = h.device? e
  opened : h'.devices.length = h.devices.length
  streams : ∀ {i}, v.stream ≠ some i → h'.streams[i]? = h.streams[i]?
  made : h'.streams.length = h.streams.length
  watches : h'.watches.filter (·.descriptor != v.descriptor) = h.watches.filter (·.descriptor != v.descriptor)
  frame : h'.frame = h.frame

namespace Agree

theorem refl (hv : SetAside v h) : Agree v h h := ⟨hv, hv, fun _ => rfl, rfl, fun _ => rfl, rfl, rfl, rfl⟩

theorem symm (ha : Agree v h h') : Agree v h' h :=
  ⟨ha.right, ha.left, fun he => (ha.devices he).symm, ha.opened.symm, fun hi => (ha.streams hi).symm, ha.made.symm,
    ha.watches.symm, ha.frame.symm⟩

theorem trans (ha : Agree v h h') (hb : Agree v h' h'') : Agree v h h'' :=
  ⟨ha.left, hb.right, fun he => (hb.devices he).trans (ha.devices he), hb.opened.trans ha.opened,
    fun hi => (hb.streams hi).trans (ha.streams hi), hb.made.trans ha.made, hb.watches.trans ha.watches,
    hb.frame.trans ha.frame⟩

/-- both hosts change, but not in their descriptors -/
theorem of_devices (ha : Agree v h h') {g g' : Host} (hdevices : g.devices = h.devices)
    (hdevices' : g'.devices = h'.devices)
    (hmade : g.streams.length = h.streams.length) (hmade' : g'.streams.length = h'.streams.length)
    (hstreams : ∀ {i}, v.stream ≠ some i → g'.streams[i]? = g.streams[i]?)
    (hwatches : g'.watches.filter (·.descriptor != v.descriptor) = g.watches.filter (·.descriptor != v.descriptor))
    (hframe : g'.frame = g.frame) : Agree v g g' where
  left := ha.left.of_devices hdevices hmade
  right := ha.right.of_devices hdevices' hmade'
  devices he := by rw [device?, device?, hdevices, hdevices', ← device?, ← device?, ha.devices he]
  opened := by rw [hdevices, hdevices', ha.opened]
  streams := hstreams
  made := by rw [hmade, hmade', ha.made]
  watches := hwatches
  frame := hframe

/-- what does not depend on the descriptors and the streams -/
theorem of_frame (ha : Agree v h h') (part : Host → β) (hpart : ∀ g : Host, part g.frame = part g) :
    part h' = part h := by
  rw [← hpart, ha.frame, hpart]

theorem requeued (ha : Agree v h h') (q q' : List Descriptor) :
    Agree v { h with queue := q } { h' with queue := q' } :=
  ha.of_devices rfl rfl rfl rfl ha.streams ha.watches ha.frame

theorem stir (ha : Agree v h h') (d : Descriptor) (stir : Stir) : Agree v (h.stir d stir) (h'.stir d stir) := by
  obtain ⟨q, hq, -⟩ := h.stir_eq d stir
  obtain ⟨q', hq', -⟩ := h'.stir_eq d stir
  rw [hq, hq']
  exact ha.requeued q q'

theorem watch?_eq (ha : Agree v h h') (he : e ≠ v.descriptor) : h'.watch? e = h.watch? e := by
  rw [watch?, watch?, ← watch?_filter_ne he h.watches, ← watch?_filter_ne he h'.watches, ha.watches]

theorem client?_eq (ha : Agree v h h') (he : e ≠ v.descriptor) : h'.client? e = h.client? e := by
  rw [client?, client?, ha.devices he]

theorem watchable (ha : Agree v h h') (he : e ≠ v.descriptor) : h'.watchable e = h.watchable e := by
  rw [Host.watchable, Host.watchable, ha.devices he]

/-- a descriptor that is no end of the stream has another stream behind it, if it has one -/
theorem stream_ne (ha : Agree v h h') (he : e ∉ v.ends) (hd : h.device? e = some (.stream i side)) :
    v.stream ≠ some i := fun hi => he (ha.left.ends hd hi)

end Agree

/-- an operation on the stream that is left aside -/
theorem agree_onStream (hv : SetAside v h) (hi : v.stream = some i) (operation : Stream → Stirred α) (otherwise : α) :
    Agree v h (h.onStream i operation otherwise).1 := by
  rcases h.onStream_cases i operation otherwise with he | ⟨s, q, -, he⟩
  · exact he ▸ .refl hv
  · rw [he]
    refine (Agree.refl hv).of_devices rfl rfl rfl List.length_set (fun {j} hj => ?_) rfl rfl
    have hne : i ≠ j := fun hij => hj (hij ▸ hi)
    exact List.getElem?_set_ne hne

namespace Agree

/-- an operation on any stream -/
theorem onStream (ha : Agree v h h') (i : Nat) (operation : Stream → Stirred α) (otherwise : α) :
    Agree v (h.onStream i operation otherwise).1 (h'.onStream i operation otherwise).1 ∧
      (v.stream ≠ some i → (h'.onStream i operation otherwise).2 = (h.onStream i operation otherwise).2) := by
  by_cases hi : v.stream = some i
  · have hleft := agree_onStream ha.left hi operation otherwise
    have hright := agree_onStream ha.right hi operation otherwise
    exact ⟨hleft.symm.trans (ha.trans hright), fun hne => absurd hi hne⟩
  · have hsame := ha.streams hi
    unfold Host.onStream
    rw [hsame]
    cases hs : h.streams[i]? with
    | none => exact ⟨ha, fun _ => rfl⟩
    | some s =>
      have hset : Agree v { h with streams := h.streams.set i (operation s).stream }
          { h' with streams := h'.streams.set i (operation s).stream } := by
        refine ha.of_devices rfl rfl List.length_set List.length_set (fun {j} hj => ?_) ha.watches ha.frame
        rw [List.getElem?_set, List.getElem?_set, ha.streams hj, ha.made]
      obtain ⟨q, hq, -⟩ := stirEnds_eq { h with streams := h.streams.set i (operation s).stream } i (operation s).stirs
      obtain ⟨q', hq', -⟩ := stirEnds_eq { h' with streams := h'.streams.set i (operation s).stream } i
        (operation s).stirs
      simp only [hq, hq']
      exact ⟨hset.requeued q q', fun _ => trivial⟩

end Agree

/-! ## What others do -/

/-- what clients do to their streams, the one that is left aside or another -/
theorem Agree.client (ha : Agree v h h') (act : Host → Host) {operation : Stream → Stirred α} {otherwise : α}
    (hact : ∀ {g i}, g.device? e = some (.stream i .near) → act g = (g.onStream i operation otherwise).1) :
    Agree v (if (h.client? e).isSome then act h else h) (if (h'.client? e).isSome then act h' else h') := by
  by_cases he : e = v.descriptor
  · have hone : ∀ {g}, SetAside v g → Agree v g (if (g.client? e).isSome then act g else g) := fun {g} hv => by
      split
      · next hc =>
        obtain ⟨i, hd⟩ := device?_of_client? hc
        rw [hact hd]
        exact agree_onStream hv (hv.own (he ▸ hd)) ..
      · exact .refl hv
    exact (hone ha.left).symm.trans (ha.trans (hone ha.right))
  · rw [ha.client?_eq he]
    split
    · next hc =>
      obtain ⟨i, hi⟩ := device?_of_client? hc
      rw [hact hi, hact ((ha.devices he).trans hi)]
      exact (ha.onStream ..).1
    · exact ha

theorem device?_gone (h : Host) (d e : Descriptor) :
    ((h.forget d).setDevice d none).device? e = if e = d then none else h.device? e := by
  unfold device? setDevice forget
  rw [List.getElem?_set]
  split
  · next he =>
    subst he
    split <;> simp
  · next he => rw [if_neg (Ne.symm he)]

theorem SetAside.gone (hv : SetAside v h) (d : Descriptor) : SetAside v ((h.forget d).setDevice d none) := by
  have hd := h.device?_gone d
  have hopen : ∀ {e device}, ((h.forget d).setDevice d none).device? e = some device → h.device? e = some device :=
    fun {e device} he => by
      rw [hd] at he
      split at he
      · cases he
      · exact he
  refine ⟨?_, hv.known, fun he => hv.own (hopen he), fun he => hv.ends (hopen he), fun backlog he =>
    hv.silent backlog (hopen he)⟩
  rw [setDevice, List.length_set]
  exact hv.given

theorem Agree.gone (ha : Agree v h h') (d : Descriptor) :
    Agree v ((h.forget d).setDevice d none) ((h'.forget d).setDevice d none) where
  left := ha.left.gone d
  right := ha.right.gone d
  devices he := by rw [device?_gone, device?_gone, ha.devices he]
  opened := by simp only [setDevice, List.length_set]; exact ha.opened
  streams := ha.streams
  made := ha.made
  watches := by
    simp only [setDevice, forget, List.filter_filter, Bool.and_comm (_ != v.descriptor)]
    rw [← List.filter_filter, ← List.filter_filter, ha.watches]
  frame := ha.frame

theorem agree_gone (hv : SetAside v h) :
    Agree v h ((h.forget v.descriptor).setDevice v.descriptor none) where
  left := hv
  right := hv.gone _
  devices he := (h.device?_gone ..).trans (if_neg he)
  opened := by rw [setDevice, List.length_set]; rfl
  streams _ := rfl
  made := rfl
  watches := by simp [setDevice, forget, List.filter_filter]
  frame := rfl

/-- closing the descriptor that is left aside -/
theorem agree_close (hv : SetAside v h) (abrupt : Bool) : Agree v h (h.close v.descriptor abrupt) := by
  unfold close
  dsimp only
  split
  · next i side hd => exact (agree_gone hv).trans (agree_onStream (hv.gone _) (hv.own hd) ..)
  · next backlog hd => exact absurd hd (hv.silent backlog)
  · exact agree_gone hv

/-- closing another one -/
theorem Agree.close (ha : Agree v h h') (he : e ≠ v.descriptor) (abrupt : Bool) :
    Agree v (h.close e abrupt) (h'.close e abrupt) := by
  have hgone := ha.gone e
  unfold Host.close
  rw [ha.devices he]
  dsimp only
  split
  · exact (hgone.onStream ..).1
  · next backlog _ =>
    have hreset : ∀ (backlog : List Arrival) {g g' : Host}, Agree v g g' →
        Agree v (backlog.foldl (fun h arrival => (h.onStream arrival.stream (·.close .far true) ()).1) g)
          (backlog.foldl (fun h arrival => (h.onStream arrival.stream (·.close .far true) ()).1) g') := by
      intro backlog
      induction backlog with
      | nil => exact id
      | cons arrival rest ih => exact fun hg => ih (hg.onStream ..).1
    exact hreset backlog hgone
  · exact hgone

/-- a client that calls has an end of a new stream -/
def dialed (h : Host) : Host × Descriptor :=
  ({ h with streams := h.streams ++ [{ family := .inet }] } : Host).opened (.stream h.streams.length .near)

theorem device?_dialed (h : Host) (e : Descriptor) :
    h.dialed.1.device? e = if e = h.devices.length then some (.stream h.streams.length .near) else h.device? e :=
  device?_opened (h := { h with streams := h.streams ++ [{ family := .inet }] }) ..

theorem SetAside.dialed (hv : SetAside v h) : SetAside v h.dialed.1 := by
  have hdevice := h.device?_dialed
  have hmade : h.dialed.1.streams.length = h.streams.length + 1 := List.length_append ..
  have hopened : h.dialed.1.devices.length = h.devices.length + 1 := List.length_append ..
  have hd : h.dialed.1.device? v.descriptor = h.device? v.descriptor :=
    (hdevice _).trans (if_neg (Nat.ne_of_lt hv.given))
  refine ⟨hopened ▸ Nat.lt_succ_of_lt hv.given, fun hi => hmade ▸ Nat.lt_succ_of_lt (hv.known hi), fun he =>
    hv.own (hd ▸ he), fun {e i side} he hi => ?_, fun backlog he => hv.silent backlog (hd ▸ he)⟩
  rw [hdevice] at he
  split at he
  · cases he
    exact absurd (hv.known hi) (Nat.lt_irrefl _)
  · exact hv.ends he hi

theorem Agree.dialed (ha : Agree v h h') : Agree v h.dialed.1 h'.dialed.1 where
  left := ha.left.dialed
  right := ha.right.dialed
  devices he := by rw [device?_dialed, device?_dialed, ha.devices he, ha.opened, ha.made]
  opened := by simp [Host.dialed, Host.opened, ha.opened]
  streams {i} hi := by
    simp only [Host.dialed, Host.opened, List.getElem?_append, ha.made]
    split
    · exact ha.streams hi
    · rfl
  made := by simp [Host.dialed, Host.opened, ha.made]
  watches := ha.watches
  frame := ha.frame

theorem SetAside.backlog (hv : SetAside v h) {l : Descriptor} {backlog : List Arrival}
    (hl : h.device? l = some (.listener backlog)) (longer : List Arrival) :
    SetAside v (h.setDevice l (some (.listener longer))) := by
  have hdevice := device?_setDevice hl (some (.listener longer))
  have hne : v.descriptor ≠ l := fun he => hv.silent backlog (he ▸ hl)
  have hd : (h.setDevice l (some (.listener longer))).device? v.descriptor = h.device? v.descriptor :=
    (hdevice _).trans (if_neg hne)
  refine ⟨?_, hv.known, fun {i side} he => hv.own (hd ▸ he), fun {e i side} he hi => ?_, fun backlog he =>
    hv.silent backlog (hd ▸ he)⟩
  · rw [setDevice, List.length_set]
    exact hv.given
  · rw [hdevice] at he
    split at he
    · cases he
    · exact hv.ends he hi

theorem Agree.backlog (ha : Agree v h h') {l : Descriptor} {backlog : List Arrival}
    (hl : h.device? l = some (.listener backlog)) (longer : List Arrival) :
    Agree v (h.setDevice l (some (.listener longer))) (h'.setDevice l (some (.listener longer))) := by
  have hl' : h'.device? l = some (.listener backlog) :=
    (ha.devices fun he => ha.left.silent backlog (he ▸ hl)).trans hl
  refine ⟨ha.left.backlog hl longer, ha.right.backlog hl' longer, fun he => ?_, ?_, ha.streams, ha.made, ha.watches,
    ha.frame⟩
  · rw [device?_setDevice hl, device?_setDevice hl', ha.devices he]
  · simp only [setDevice, List.length_set]
    exact ha.opened

theorem connect_of_listener (hrouted : h.routed = true) {l : Descriptor} {backlog : List Arrival}
    (hl : h.device? l = some (.listener backlog)) (self : Address) : (h.connect l self).1 =
      (h.dialed.1.setDevice l (some (.listener (backlog ++ [⟨h.streams.length, self⟩])))).stir l .input := by
  have hopen : ¬ (!h.routed) = true := by simp [hrouted]
  unfold connect
  rw [if_neg hopen, hl]
  rfl

theorem connect_of_not (h : Host) {l : Descriptor}
    (hl : ¬ (h.routed = true ∧ ∃ backlog, h.device? l = some (.listener backlog))) (self : Address) :
    (h.connect l self).1 = h := by
  unfold connect
  split
  · rfl
  · next hrouted =>
    split
    · next backlog hb => exact absurd ⟨by simpa using hrouted, backlog, hb⟩ hl
    · rfl

/-- a client calls somewhere -/
theorem Agree.connect (ha : Agree v h h') (l : Descriptor) (self : Address) :
    Agree v (h.connect l self).1 (h'.connect l self).1 := by
  have hlistens : ∀ backlog, h'.device? l = some (.listener backlog) ↔ h.device? l = some (.listener backlog) := by
    intro backlog
    by_cases hl : l = v.descriptor
    · exact ⟨fun hb => absurd (hl ▸ hb) (ha.right.silent backlog), fun hb => absurd (hl ▸ hb) (ha.left.silent backlog)⟩
    · rw [ha.devices hl]
  have hrouted : h'.routed = h.routed := ha.of_frame Host.routed fun _ => rfl
  by_cases hcall : h.routed = true ∧ ∃ backlog, h.device? l = some (.listener backlog)
  · obtain ⟨hroute, backlog, hl⟩ := hcall
    have hdialed : h.dialed.1.device? l = some (.listener backlog) :=
      (h.device?_dialed l).trans ((if_neg (Nat.ne_of_lt (lt_length_of_device? hl))).trans hl)
    rw [connect_of_listener hroute hl, connect_of_listener (hrouted.trans hroute) ((hlistens backlog).2 hl), ha.made]
    exact (ha.dialed.backlog hdialed _).stir l .input
  · rw [h.connect_of_not hcall, h'.connect_of_not fun hcall' => hcall ⟨hrouted ▸ hcall'.1, ?_⟩]
    · exact ha
    · exact hcall'.2.imp fun backlog hb => (hlistens backlog).1 hb

/-- the signals that wait once another has come -/
def waiting (h : Host) (number : Int) : List Int :=
  if h.blocked.contains number then insertSignal number (h.pending.filter fun n => !(calledOff number).contains n)
  else h.pending

/-- a signal only comes to wait, and only queues -/
theorem raise_eq (h : Host) (number : Int) :
    ∃ q, (h.raise number).1 = { h with pending := h.waiting number, queue := q } ∧ h.queue ⊆ q := by
  have hfold : ∀ (sources : List (Option Device × Nat)) (g : Host),
      ∃ q, sources.foldl (fun h entry => h.stir entry.2 .input) g = { g with queue := q } ∧ g.queue ⊆ q := by
    intro sources
    induction sources with
    | nil => exact fun g => ⟨g.queue, rfl, List.Subset.refl _⟩
    | cons entry rest ih =>
      intro g
      obtain ⟨q, hq, hsub⟩ := g.stir_eq entry.2 .input
      obtain ⟨q', hq', hsub'⟩ := ih { g with queue := q }
      exact ⟨q', by rw [List.foldl_cons, hq, hq'], fun _ hm => hsub' (hsub hm)⟩
  unfold raise waiting
  split
  · exact hfold _ _
  · exact ⟨h.queue, rfl, List.Subset.refl _⟩

/-- whatever others do -/
theorem Agree.act (ha : Agree v h h') (deed : Deed) : Agree v (h.act deed) (h'.act deed) := by
  cases deed with
  | connect l self => exact ha.connect l self
  | send d bytes =>
    exact ha.client (fun h => (h.transmit d bytes).1) fun hd => by rw [transmit, hd]
  | recv d count =>
    exact ha.client (fun h => (h.receive d count).1) fun hd => by rw [receive, hd]
  | finish d =>
    exact ha.client (fun h => (h.finish d).1) fun hd => by rw [Host.finish, hd]
  | close d abrupt =>
    by_cases hd : d = v.descriptor
    · have hone : ∀ {g}, SetAside v g → Agree v g (g.act (.close d abrupt)) := fun {g} hv => by
        simp only [Host.act]
        split
        · exact hd ▸ agree_close hv abrupt
        · exact .refl hv
      exact (hone ha.left).symm.trans (ha.trans (hone ha.right))
    · simp only [Host.act, ha.client?_eq hd]
      split
      · exact ha.close hd abrupt
      · exact ha
  | signal number =>
    obtain ⟨q, hq, -⟩ := h.raise_eq number
    obtain ⟨q', hq', -⟩ := h'.raise_eq number
    rw [Host.act, Host.act, hq, hq']
    exact ha.of_devices rfl rfl rfl rfl ha.streams ha.watches
      (congrArg (fun g : Host => { g with pending := g.waiting number }) ha.frame)
  | interrupt =>
    exact ha.of_devices rfl rfl rfl rfl ha.streams ha.watches
      (congrArg (fun g : Host => { g with interruptions := g.interruptions + 1 }) ha.frame)

theorem Agree.elapse (ha : Agree v h h') : Agree v h.elapse h'.elapse := by
  have hacts : ∀ (deeds : List Deed) {g g' : Host}, Agree v g g' →
      Agree v (deeds.foldl Host.act g) (deeds.foldl Host.act g') := by
    intro deeds
    induction deeds with
    | nil => exact id
    | cons deed rest ih => exact fun hg => ih (hg.act deed)
  have hothers : h'.others = h.others := ha.of_frame Host.others fun _ => rfl
  unfold Host.elapse
  rw [hothers]
  exact hacts _ (ha.of_devices rfl rfl rfl rfl ha.streams ha.watches
    (congrArg (fun g : Host => { g with others := h.others.tail }) ha.frame))

/-! ## Calls on other descriptors -/

/-- a call leaves two hosts that agree, and comes out the same in both -/
structure Matches (v : Aside) (r r' : Host × β) : Prop where
  agree : Agree v r.1 r'.1
  value : r'.2 = r.2

theorem Agree.receive (ha : Agree v h h') (he : e ∉ v.ends) (count : Nat) :
    Matches v (h.receive e count) (h'.receive e count) := by
  unfold Host.receive
  rw [ha.devices (Aside.ne he)]
  split
  · exact ⟨ha, rfl⟩
  · next i side hd =>
    obtain ⟨hagree, hvalue⟩ := ha.onStream i (·.recv side count) (.error .badDescriptor)
    exact ⟨hagree, hvalue (ha.stream_ne he hd)⟩
  all_goals exact ⟨ha, rfl⟩

theorem Agree.transmit (ha : Agree v h h') (he : e ∉ v.ends) (bytes : Bytes) :
    Matches v (h.transmit e bytes) (h'.transmit e bytes) := by
  unfold Host.transmit
  rw [ha.devices (Aside.ne he)]
  split
  · exact ⟨ha, rfl⟩
  · next i side hd =>
    obtain ⟨hagree, hvalue⟩ := ha.onStream i (·.send side bytes) (.error .badDescriptor)
    exact ⟨hagree, hvalue (ha.stream_ne he hd)⟩
  all_goals exact ⟨ha, rfl⟩

theorem Agree.finish (ha : Agree v h h') (he : e ∉ v.ends) : Matches v (h.finish e) (h'.finish e) := by
  unfold Host.finish
  rw [ha.devices (Aside.ne he)]
  split
  · exact ⟨ha, rfl⟩
  · next i side hd =>
    obtain ⟨hagree, hvalue⟩ := ha.onStream i (·.finish side) (.error .badDescriptor)
    exact ⟨hagree, hvalue (ha.stream_ne he hd)⟩
  · exact ⟨ha.stir e .any, rfl⟩
  · exact ⟨ha.stir e .any, rfl⟩
  all_goals exact ⟨ha, rfl⟩

/-- a signal cuts the call short in both hosts or in none -/
theorem Agree.interruptible (ha : Agree v h h') (call : Host → Host × Except Errno β)
    (hcall : Matches v (call h) (call h')) :
    Matches v (match h.interrupted? with | some h => (h, .error .interrupted) | none => call h)
      (match h'.interrupted? with | some h => (h, .error .interrupted) | none => call h') := by
  have hcuts : h'.interruptions = h.interruptions := ha.of_frame Host.interruptions fun _ => rfl
  unfold interrupted?
  rw [hcuts]
  split
  · next hsome =>
    split at hsome
    · next hpositive =>
      cases hsome
      simp only [hpositive, if_true]
      exact ⟨ha.of_devices rfl rfl rfl rfl ha.streams ha.watches
        (congrArg (fun g : Host => { g with interruptions := h.interruptions - 1 }) ha.frame), rfl⟩
    · cases hsome
  · next hnone =>
    split at hnone
    · cases hnone
    · next hzero =>
      simp only [hzero, if_false]
      exact hcall

theorem Matches.retry (call : Host → Host × Except Errno β)
    (hcall : ∀ {g g'}, Agree v g g' → Matches v (call g) (call g')) (limit : Nat) (ha : Agree v h h') :
    Matches v (Nonblocking.retry call limit h) (Nonblocking.retry call limit h') := by
  induction limit generalizing h h' with
  | zero => exact hcall ha
  | succ limit ih =>
    have hfirst := hcall ha
    unfold Nonblocking.retry
    dsimp only
    rw [hfirst.value]
    split
    · exact ih hfirst.agree
    · exact ⟨hfirst.agree, rfl⟩

theorem Agree.recv (ha : Agree v h h') (he : e ∉ v.ends) (count : Nat) :
    Matches v (Nonblocking.recv h e count) (Nonblocking.recv h' e count) := by
  have hcuts : h'.cuts = h.cuts := ha.of_frame Host.cuts fun _ => rfl
  have hcall := Matches.retry (fun h => h.elapse.recv e count)
    (fun hg => hg.elapse.interruptible (·.receive e count) (hg.elapse.receive he count)) h.cuts ha
  unfold Nonblocking.recv
  rw [hcuts]
  exact ⟨hcall.agree, congrArg Outcome.ofResult hcall.value⟩

theorem Agree.send (ha : Agree v h h') (he : e ∉ v.ends) (bytes : Bytes) :
    Matches v (Nonblocking.send h e bytes) (Nonblocking.send h' e bytes) := by
  have hcuts : h'.cuts = h.cuts := ha.of_frame Host.cuts fun _ => rfl
  have hcall := Matches.retry (fun h => h.elapse.send e bytes)
    (fun hg => hg.elapse.interruptible (·.transmit e bytes) (hg.elapse.transmit he bytes)) h.cuts ha
  unfold Nonblocking.send
  rw [hcuts]
  exact ⟨hcall.agree, congrArg Outcome.ofResult hcall.value⟩

/-- looking at a descriptor only queues it -/
theorem Agree.looked (ha : Agree v h h') (look look' : Bool) :
    Agree v (if look then h.enqueue e else h) (if look' then h'.enqueue e else h') := by
  have hone : ∀ (g : Host) (look : Bool), ∃ q, (if look then g.enqueue e else g) = { g with queue := q } := by
    intro g look
    unfold enqueue
    split
    · split
      · exact ⟨g.queue, rfl⟩
      · exact ⟨_, rfl⟩
    · exact ⟨g.queue, rfl⟩
  obtain ⟨q, hq⟩ := hone h look
  obtain ⟨q', hq'⟩ := hone h' look'
  rw [hq, hq']
  exact ha.requeued q q'

theorem Agree.spent (ha : Agree v h h') (refusals : Refusals) : Agree v { h with refusals } { h' with refusals } :=
  ha.of_devices rfl rfl rfl rfl ha.streams ha.watches (congrArg (fun g : Host => { g with refusals }) ha.frame)

theorem Agree.watch (ha : Agree v h h') (he : e ∉ v.ends) (word : UInt64) (interest : Interest) :
    Matches v (h.watch e word interest) (h'.watch e word interest) := by
  have hne := Aside.ne he
  have hrefusals : h'.refusals = h.refusals := ha.of_frame Host.refusals fun _ => rfl
  have hspent := ha.spent ⟨h.refusals.accept, h.refusals.unblock, h.refusals.watch.tail, h.refusals.rewatch⟩
  unfold Host.watch
  dsimp only
  rw [hrefusals, hspent.watchable hne, hspent.watch?_eq hne]
  split
  · exact ⟨hspent, rfl⟩
  · exact ⟨hspent, rfl⟩
  · split
    · exact ⟨hspent, rfl⟩
    · refine ⟨Agree.looked ?_ .., rfl⟩
      refine hspent.of_devices rfl rfl rfl rfl hspent.streams ?_ hspent.frame
      simp only [List.filter_append, ha.watches]

theorem Agree.rewatch (ha : Agree v h h') (he : e ∉ v.ends) (word : UInt64) (interest : Interest) :
    Matches v (h.rewatch e word interest) (h'.rewatch e word interest) := by
  have hne := Aside.ne he
  have hrefusals : h'.refusals = h.refusals := ha.of_frame Host.refusals fun _ => rfl
  have hspent := ha.spent (h.refusals.changed e)
  have hmap : ∀ watches : List Watch, (watches.map fun w => if w.descriptor == e then ⟨e, word, interest⟩ else w).filter
      (·.descriptor != v.descriptor) = (watches.filter (·.descriptor != v.descriptor)).map
        fun w => if w.descriptor == e then ⟨e, word, interest⟩ else w := fun watches => by
    rw [List.filter_map]
    refine congrArg _ (List.filter_congr fun w _ => ?_)
    by_cases hw : w.descriptor = e <;> simp [hw]
  unfold Host.rewatch
  dsimp only
  rw [hrefusals, hspent.watchable hne, hspent.watch?_eq hne]
  split
  · exact ⟨hspent, rfl⟩
  · exact ⟨hspent, rfl⟩
  · split
    · exact ⟨hspent, rfl⟩
    · refine ⟨Agree.looked ?_ .., rfl⟩
      refine hspent.of_devices rfl rfl rfl rfl hspent.streams ?_ hspent.frame
      simp only [hmap, ha.watches]

theorem Agree.unwatch (ha : Agree v h h') (he : e ∉ v.ends) : Matches v (h.unwatch e) (h'.unwatch e) := by
  have hne := Aside.ne he
  unfold Host.unwatch
  rw [ha.watchable hne, ha.watch?_eq hne]
  split
  · exact ⟨ha, rfl⟩
  · split
    · exact ⟨ha, rfl⟩
    · refine ⟨ha.of_devices rfl rfl rfl rfl ha.streams ?_ ha.frame, rfl⟩
      simp only [forget, List.filter_filter, Bool.and_comm (_ != v.descriptor)]
      rw [← List.filter_filter, ← List.filter_filter, ha.watches]

end Host

end EventServer
