/-
What a call on one descriptor leaves to all others.

Which refusals are to come and how many calls a signal will cut short matters to nobody but the server: others do the
same whatever these are (`facing_act`, `facing_elapse`). So a call is compared with what others alone make of the host
in a number of turns: `Beside v h h'` says that they differ at most in the descriptor that is left aside and its stream,
in the queue, and in those two. A call lets others act and then does something there, so calls are `Beside` one after
another (`Beside.trans`), and there is one lemma for each call that the server makes on a descriptor of its own.

A descriptor that is no client's and that is elsewhere keeps its device, its watch and its stream but for what others
do to it (`Spared`).
-/
import EventServer.Proofs.Elsewhere
import EventServer.Proofs.Steady

namespace EventServer

namespace Host

variable {α : Type} {v : Aside} {h h' h'' : Host} {d e : Descriptor} {i cuts : Nat} {refusals : Refusals}

/-! ## What is to come -/

/-- the host with other interruptions and refusals to come -/
def facing (h : Host) (cuts : Nat) (refusals : Refusals) : Host := { h with interruptions := cuts, refusals }

@[simp] theorem facing_facing (h : Host) (cuts cuts' : Nat) (refusals refusals' : Refusals) :
    (h.facing cuts refusals).facing cuts' refusals' = h.facing cuts' refusals' := rfl

@[simp] theorem facing_device? (h : Host) (d : Descriptor) : (h.facing cuts refusals).device? d = h.device? d := rfl

@[simp] theorem facing_descriptorOf? (h : Host) (id : Nat) (side : Side) :
    (h.facing cuts refusals).descriptorOf? id side = h.descriptorOf? id side := rfl

@[simp] theorem facing_client? (h : Host) (d : Descriptor) : (h.facing cuts refusals).client? d = h.client? d := rfl

@[simp] theorem facing_watch? (h : Host) (d : Descriptor) : (h.facing cuts refusals).watch? d = h.watch? d := rfl

@[simp] theorem facing_streams (h : Host) : (h.facing cuts refusals).streams = h.streams := rfl

@[simp] theorem facing_enqueue (h : Host) (d : Descriptor) :
    (h.facing cuts refusals).enqueue d = (h.enqueue d).facing cuts refusals := by
  unfold enqueue
  by_cases hq : h.queue.contains d
  · rw [if_pos hq, if_pos (by exact hq)]
  · rw [if_neg hq, if_neg (by exact hq)]
    rfl

@[simp] theorem facing_stir (h : Host) (d : Descriptor) (stir : Stir) :
    (h.facing cuts refusals).stir d stir = (h.stir d stir).facing cuts refusals := by
  unfold Host.stir
  rw [facing_watch?]
  cases h.watch? d with
  | none => rfl
  | some w =>
    dsimp only
    split
    · exact facing_enqueue ..
    · rfl

@[simp] theorem facing_stirEnds (h : Host) (id : Nat) (stirs : List (Side × Stir)) :
    (h.facing cuts refusals).stirEnds id stirs = (h.stirEnds id stirs).facing cuts refusals := by
  induction stirs generalizing h with
  | nil => rfl
  | cons stirred rest ih =>
    have hhead : (h.facing cuts refusals).stirEnds id [stirred] =
        (h.stirEnds id [stirred]).facing cuts refusals := by
      simp only [stirEnds, List.foldl_cons, List.foldl_nil, facing_descriptorOf?]
      cases h.descriptorOf? id stirred.1 with
      | none => rfl
      | some d => exact facing_stir ..
    exact (congrArg (·.stirEnds id rest) hhead).trans (ih _)

@[simp] theorem facing_onStream (h : Host) (id : Nat) (operation : Stream → Stirred α) (otherwise : α) :
    (h.facing cuts refusals).onStream id operation otherwise =
      ((h.onStream id operation otherwise).1.facing cuts refusals, (h.onStream id operation otherwise).2) := by
  unfold onStream
  rw [facing_streams]
  cases h.streams[id]? with
  | none => rfl
  | some s =>
    have hset : ({ h.facing cuts refusals with streams := h.streams.set id (operation s).stream } : Host) =
        ({ h with streams := h.streams.set id (operation s).stream } : Host).facing cuts refusals := rfl
    dsimp only
    rw [hset, facing_stirEnds]

theorem facing_receive (h : Host) (d : Descriptor) (count : Nat) :
    (h.facing cuts refusals).receive d count =
      ((h.receive d count).1.facing cuts refusals, (h.receive d count).2) := by
  unfold Host.receive
  rw [facing_device?]
  split <;> simp

theorem facing_transmit (h : Host) (d : Descriptor) (bytes : Bytes) :
    (h.facing cuts refusals).transmit d bytes =
      ((h.transmit d bytes).1.facing cuts refusals, (h.transmit d bytes).2) := by
  unfold Host.transmit
  rw [facing_device?]
  split <;> simp

theorem facing_finish (h : Host) (d : Descriptor) :
    (h.facing cuts refusals).finish d = ((h.finish d).1.facing cuts refusals, (h.finish d).2) := by
  unfold Host.finish
  rw [facing_device?]
  split <;> simp

theorem facing_gone (h : Host) (d : Descriptor) :
    (((h.facing cuts refusals).forget d).setDevice d none) = ((h.forget d).setDevice d none).facing cuts refusals := rfl

theorem facing_close (h : Host) (d : Descriptor) (abrupt : Bool) :
    (h.facing cuts refusals).close d abrupt = (h.close d abrupt).facing cuts refusals := by
  have hreset : ∀ (backlog : List Arrival) (g : Host),
      backlog.foldl (fun h arrival => (h.onStream arrival.stream (·.close .far true) ()).1) (g.facing cuts refusals) =
        (backlog.foldl (fun h arrival => (h.onStream arrival.stream (·.close .far true) ()).1) g).facing
          cuts refusals := by
    intro backlog
    induction backlog with
    | nil => exact fun g => rfl
    | cons arrival rest ih =>
      intro g
      rw [List.foldl_cons, List.foldl_cons, facing_onStream]
      exact ih _
  unfold Host.close
  rw [facing_device?, facing_gone]
  dsimp only
  split
  · simp
  · exact hreset _ _
  · rfl

theorem facing_connect (h : Host) (l : Descriptor) (self : Address) :
    ((h.facing cuts refusals).connect l self).1 = (h.connect l self).1.facing cuts refusals := by
  by_cases hcall : h.routed = true ∧ ∃ backlog, h.device? l = some (.listener backlog)
  · obtain ⟨hroute, backlog, hl⟩ := hcall
    rw [connect_of_listener hroute hl, connect_of_listener (h := h.facing cuts refusals) hroute hl, ← facing_stir]
    rfl
  · rw [h.connect_of_not hcall, (h.facing cuts refusals).connect_of_not hcall]

theorem facing_raise (h : Host) (number : Int) :
    ((h.facing cuts refusals).raise number).1 = (h.raise number).1.facing cuts refusals := by
  have hfold : ∀ (sources : List (Option Device × Nat)) (g : Host),
      sources.foldl (fun h entry => h.stir entry.2 .input) (g.facing cuts refusals) =
        (sources.foldl (fun h entry => h.stir entry.2 .input) g).facing cuts refusals := by
    intro sources
    induction sources with
    | nil => exact fun g => rfl
    | cons entry rest ih =>
      intro g
      rw [List.foldl_cons, List.foldl_cons, facing_stir]
      exact ih _
  unfold Host.raise
  change (if h.blocked.contains number then _ else _ : Host × Bool).1 = _
  split
  · exact hfold _ { h with
      pending := insertSignal number (h.pending.filter fun n => !(calledOff number).contains n) }
  · rfl

/-- others do the same whatever the server will meet -/
theorem facing_act (h : Host) (cuts : Nat) (refusals : Refusals) (deed : Deed) :
    ∃ cuts', (h.facing cuts refusals).act deed = (h.act deed).facing cuts' refusals := by
  cases deed with
  | connect l self => exact ⟨cuts, facing_connect ..⟩
  | send d bytes =>
    refine ⟨cuts, ?_⟩
    simp only [Host.act, facing_client?, facing_transmit]
    split <;> rfl
  | recv d count =>
    refine ⟨cuts, ?_⟩
    simp only [Host.act, facing_client?, facing_receive]
    split <;> rfl
  | finish d =>
    refine ⟨cuts, ?_⟩
    simp only [Host.act, facing_client?, facing_finish]
    split <;> rfl
  | close d abrupt =>
    refine ⟨cuts, ?_⟩
    simp only [Host.act, facing_client?, facing_close]
    split <;> rfl
  | signal number => exact ⟨cuts, facing_raise ..⟩
  | interrupt => exact ⟨cuts + 1, rfl⟩

theorem facing_elapse (h : Host) (cuts : Nat) (refusals : Refusals) :
    ∃ cuts', (h.facing cuts refusals).elapse = h.elapse.facing cuts' refusals := by
  have hacts : ∀ (deeds : List Deed) (g : Host) (cuts : Nat),
      ∃ cuts', deeds.foldl act (g.facing cuts refusals) = (deeds.foldl act g).facing cuts' refusals := by
    intro deeds
    induction deeds with
    | nil => exact fun g cuts => ⟨cuts, rfl⟩
    | cons deed rest ih =>
      intro g cuts
      obtain ⟨cuts', hfirst⟩ := g.facing_act cuts refusals deed
      rw [List.foldl_cons, hfirst]
      exact ih (g.act deed) cuts'
  exact hacts _ { h with others := h.others.tail } cuts

theorem facing_iterate (h : Host) (cuts : Nat) (refusals : Refusals) (n : Nat) :
    ∃ cuts', elapse^[n] (h.facing cuts refusals) = (elapse^[n] h).facing cuts' refusals := by
  induction n generalizing h cuts with
  | zero => exact ⟨cuts, rfl⟩
  | succ n ih =>
    obtain ⟨cuts', hfirst⟩ := h.facing_elapse cuts refusals
    rw [Function.iterate_succ_apply, hfirst]
    exact ih h.elapse cuts'

/-! ## Beside others -/

theorem SetAside.facing (hv : SetAside v h) (cuts : Nat) (refusals : Refusals) :
    SetAside v (h.facing cuts refusals) := hv.of_devices rfl rfl

theorem Agree.facing (ha : Agree v h h') (cuts : Nat) (refusals : Refusals) :
    Agree v (h.facing cuts refusals) (h'.facing cuts refusals) :=
  ha.of_devices rfl rfl rfl rfl ha.streams ha.watches (congrArg (fun g : Host => g.facing cuts refusals) ha.frame)

theorem Agree.iterate (ha : Agree v h h') (n : Nat) : Agree v (Host.elapse^[n] h) (Host.elapse^[n] h') := by
  induction n generalizing h h' with
  | zero => exact ha
  | succ n ih =>
    rw [Function.iterate_succ_apply, Function.iterate_succ_apply]
    exact ih ha.elapse

/-- a step is what others alone do in some turns, but for what is left aside, the queue, and what the server will
meet -/
def Beside (v : Aside) (h h' : Host) : Prop :=
  ∃ n cuts refusals, Agree v ((elapse^[n] h).facing cuts refusals) h'

theorem Beside.setAside (hb : Beside v h h') : SetAside v h' := by
  obtain ⟨n, cuts, refusals, ha⟩ := hb
  exact ha.right

/-- something was done to what is left aside, and others did nothing -/
theorem Agree.beside (ha : Agree v h h') : Beside v h h' := ⟨0, h.interruptions, h.refusals, ha⟩

theorem Beside.refl (hv : SetAside v h) : Beside v h h := (Agree.refl hv).beside

theorem Beside.trans (hab : Beside v h h') (hbc : Beside v h' h'') : Beside v h h'' := by
  obtain ⟨n, cuts, refusals, hab⟩ := hab
  obtain ⟨m, cuts', refusals', hbc⟩ := hbc
  obtain ⟨cuts'', hface⟩ := (elapse^[n] h).facing_iterate cuts refusals m
  have hlater := (hab.iterate m).facing cuts' refusals'
  rw [hface, facing_facing, ← Function.iterate_add_apply] at hlater
  exact ⟨m + n, cuts', refusals', hlater.trans hbc⟩

theorem beside_facing (hv : SetAside v h) (cuts : Nat) (refusals : Refusals) : Beside v h (h.facing cuts refusals) :=
  ⟨0, cuts, refusals, .refl (hv.facing cuts refusals)⟩

theorem beside_elapse (hv : SetAside v h) : Beside v h h.elapse :=
  ⟨1, h.elapse.interruptions, h.elapse.refusals, (Agree.refl hv).elapse⟩

/-! ## Calls on a descriptor -/

theorem agree_receive (hv : SetAside v h) (count : Nat) : Agree v h (h.receive v.descriptor count).1 := by
  unfold Host.receive
  split
  · exact .refl hv
  · next i side hd => exact agree_onStream hv (hv.own hd) ..
  all_goals exact .refl hv

theorem agree_transmit (hv : SetAside v h) (bytes : Bytes) : Agree v h (h.transmit v.descriptor bytes).1 := by
  unfold Host.transmit
  split
  · exact .refl hv
  · next i side hd => exact agree_onStream hv (hv.own hd) ..
  all_goals exact .refl hv

theorem agree_stir (hv : SetAside v h) (d : Descriptor) (stir : Stir) : Agree v h (h.stir d stir) := by
  obtain ⟨q, hq, -⟩ := h.stir_eq d stir
  rw [hq]
  exact (Agree.refl hv).of_devices rfl rfl rfl rfl (fun _ => rfl) rfl rfl

theorem agree_finish (hv : SetAside v h) : Agree v h (h.finish v.descriptor).1 := by
  unfold Host.finish
  split
  · exact .refl hv
  · next i side hd => exact agree_onStream hv (hv.own hd) ..
  · exact agree_stir hv ..
  · exact agree_stir hv ..
  all_goals exact .refl hv

/-- the entries of the watch on a descriptor may change, and it may be queued -/
theorem agree_watches (hv : SetAside v h) {watches : List Watch} (look : Bool)
    (hwatches : watches.filter (·.descriptor != v.descriptor) =
      h.watches.filter (·.descriptor != v.descriptor)) :
    Agree v h (if look then ({ h with watches } : Host).enqueue v.descriptor else { h with watches }) := by
  obtain ⟨q, hq⟩ : ∃ q, (if look then ({ h with watches } : Host).enqueue v.descriptor else { h with watches }) =
      { h with watches, queue := q } := by
    unfold enqueue
    split
    · split
      · exact ⟨h.queue, rfl⟩
      · exact ⟨_, rfl⟩
    · exact ⟨h.queue, rfl⟩
  rw [hq]
  exact (Agree.refl hv).of_devices rfl rfl rfl rfl (fun _ => rfl) hwatches rfl

theorem beside_watch (hv : SetAside v h) (word : UInt64) (interest : Interest) :
    Beside v h (h.watch v.descriptor word interest).1 := by
  have hspent := beside_facing hv h.interruptions { h.refusals with watch := h.refusals.watch.tail }
  unfold Host.watch
  dsimp only
  split
  · exact hspent
  · exact hspent
  · split
    · exact hspent
    · exact hspent.trans (agree_watches hspent.setAside _ (by simp [Host.facing])).beside

theorem filter_rewatched (watches : List Watch) (d : Descriptor) (word : UInt64) (interest : Interest) :
    (rewatched watches d word interest).filter (·.descriptor != d) = watches.filter (·.descriptor != d) := by
  induction watches with
  | nil => rfl
  | cons w rest ih =>
    rw [rewatched, List.map_cons, ← rewatched, List.filter_cons, List.filter_cons, ih]
    by_cases hw : w.descriptor = d <;> simp [hw]

theorem beside_rewatch (hv : SetAside v h) (word : UInt64) (interest : Interest) :
    Beside v h (h.rewatch v.descriptor word interest).1 := by
  have hspent := beside_facing hv h.interruptions (h.refusals.changed v.descriptor)
  unfold Host.rewatch
  dsimp only
  split
  · exact hspent
  · exact hspent
  · split
    · exact hspent
    · exact hspent.trans (agree_watches hspent.setAside _ (filter_rewatched ..)).beside

theorem beside_unwatch (hv : SetAside v h) : Beside v h (h.unwatch v.descriptor).1 := by
  rcases h.unwatch_cases v.descriptor with ⟨code, he⟩ | ⟨-, he⟩
  · exact he ▸ .refl hv
  · have hforgot : Agree v h (h.forget v.descriptor) :=
      (Agree.refl hv).of_devices rfl rfl rfl rfl (fun _ => rfl) (by simp [forget, List.filter_filter]) rfl
    exact he ▸ hforgot.beside

theorem beside_finish (hv : SetAside v h) : Beside v h (h.elapse.finish v.descriptor).1 :=
  (beside_elapse hv).trans (agree_finish (beside_elapse hv).setAside).beside

theorem beside_close (hv : SetAside v h) : Beside v h (h.elapse.close v.descriptor false) :=
  (beside_elapse hv).trans (agree_close (beside_elapse hv).setAside false).beside

theorem beside_retry {call : Host → Host × Except Errno α} (hcall : ∀ {g}, SetAside v g → Beside v g (call g).1)
    (hv : SetAside v h) (limit : Nat) : Beside v h (Nonblocking.retry call limit h).1 := by
  have hstep : ∀ g, Beside v h g → Beside v h (call g).1 := fun g hb => hb.trans (hcall hb.setAside)
  obtain ⟨last, hlast, he⟩ := Nonblocking.retry_spec (P := Beside v h) call hstep limit (.refl hv)
  rw [he]
  exact hstep last hlast

theorem beside_recv (hv : SetAside v h) (count : Nat) : Beside v h (Nonblocking.recv h v.descriptor count).1 := by
  refine beside_retry (fun {g} hg => (beside_elapse hg).trans ?_) hv _
  have hg' := (beside_elapse hg).setAside
  rcases g.elapse.recv_cases v.descriptor count with he | ⟨n, he⟩
  · exact he ▸ (agree_receive hg' count).beside
  · exact he ▸ beside_facing hg' n g.elapse.refusals

theorem beside_send (hv : SetAside v h) (bytes : Bytes) : Beside v h (Nonblocking.send h v.descriptor bytes).1 := by
  refine beside_retry (fun {g} hg => (beside_elapse hg).trans ?_) hv _
  have hg' := (beside_elapse hg).setAside
  rcases g.elapse.send_cases v.descriptor bytes with he | ⟨n, he⟩
  · exact he ▸ (agree_transmit hg' bytes).beside
  · exact he ▸ beside_facing hg' n g.elapse.refusals

/-! ## Elsewhere -/

theorem Offered.of_setAside (hv : SetAside v h) : h.Offered v.descriptor where
  given := hv.given
  known id hid := by
    obtain ⟨side, hd⟩ := streamOf?_eq_some.1 hid
    exact hv.known (hv.own hd)
  silent := by
    cases hd : h.device? v.descriptor with
    | none => rfl
    | some device =>
      cases device with
      | listener backlog => exact absurd hd (hv.silent backlog)
      | stream | file | counter | idleSocket | signalSource => rfl

theorem Offered.iterate (ho : h.Offered d) (n : Nat) : (elapse^[n] h).Offered d :=
  .of_setAside ((Agree.refl ho.setAside).iterate n).left

theorem steady_iterate (hg : h.Guarded) (n : Nat) : Steady h (elapse^[n] h) := by
  induction n generalizing h with
  | zero => exact .refl h
  | succ n ih =>
    rw [Function.iterate_succ_apply]
    have hfirst := steady_elapse hg
    exact hfirst.trans (ih (hfirst.guarded hg))

/-- what is open and no listener has its kind only -/
theorem device?_of_kind? {device : Device} (hk : h'.kind? d = h.kind? d) (hd : h.device? d = some device)
    (ho : h.Offered d) : h'.device? d = some device := by
  have hsilent := ho.silent
  rw [kind?, kind?, hd, Option.map_some] at hk
  rw [hd, Option.all_some] at hsilent
  obtain ⟨device', hd', he⟩ := Option.map_eq_some_iff.1 hk
  rw [hd']
  cases device <;> cases device' <;> simp_all [Device.kind]

/-- what a server's descriptor keeps whatever is done beside it: its device, its watch, and its stream as others alone
have made it in some turns -/
structure Spared (turns : Nat) (h h' : Host) (d : Descriptor) : Prop where
  device : h'.device? d = h.device? d
  watch : h'.watch? d = h.watch? d
  stream : ∀ i ∈ h.streamOf? d, h'.streams[i]? = (elapse^[turns] h).streams[i]?

/-- a descriptor that stands elsewhere is spared, and stays what a connection may be on -/
theorem Beside.spares (hb : Beside v h h') (hg : h.Guarded) :
    ∃ turns, ∀ {e}, h.Stands e → h.Offered e → e ∉ v.ends → Spared turns h h' e ∧ h'.Offered e := by
  obtain ⟨n, cuts, refusals, ha⟩ := hb
  have hs := steady_iterate hg n
  refine ⟨n, fun {e} hstands ho he => ?_⟩
  have hne := Aside.ne he
  obtain ⟨kind, hk, hkind⟩ := (Option.any_eq_true _ _).1 hstands
  obtain ⟨device, hd, -⟩ := Option.map_eq_some_iff.1 hk
  -- the device is the same after the turns of others, and then after what was done elsewhere
  have hturned : (elapse^[n] h).device? e = some device :=
    device?_of_kind? ((hs.kinds hk (Device.not_isClients_of_stands hkind)).trans hk.symm) hd ho
  have hdevice : h'.device? e = some device := (ha.devices hne).trans hturned
  refine ⟨⟨hdevice.trans hd.symm, ?_, fun i hi => ?_⟩, lt_length_of_device? hdevice, fun i hi => ?_, ?_⟩
  · rw [ha.watch?_eq hne]
    show (elapse^[n] h).watch? e = _
    rw [watch?, hs.watches, ← watch?]
  · obtain ⟨side, hi⟩ := streamOf?_eq_some.1 hi
    have hturned : (elapse^[n] h).device? e = some (.stream i side) := hturned.trans (hd.symm.trans hi)
    exact ha.streams (ha.stream_ne he hturned)
  · obtain ⟨side, hi⟩ := streamOf?_eq_some.1 hi
    have hknown := (ho.iterate n).known i (streamOf?_eq_some.2 ⟨side, hturned.trans (hdevice.symm.trans hi)⟩)
    exact ha.made ▸ hknown
  · rw [hdevice, ← hd]
    exact ho.silent

end Host

end EventServer
