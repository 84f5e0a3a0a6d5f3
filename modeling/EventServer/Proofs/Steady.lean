/-
Steps of the host that change no watch and close nothing of the server's (`Host.Steady`). Whatever clients do is steady
(`steady_act`, `steady_elapse`), and so are reading, writing and finishing, on any descriptor and with any result.

On a `Guarded` host no descriptor is watched twice, and what is watched is open and no client's to close. There the
three calls of a notifier are refused with nothing changed, or change just the watch that they are about
(`register_spec`, `reregister_spec`); and leaving the watch is never refused (`deregister_spec`). Nothing is asked of
the streams, so these steps may come from any kernel that keeps its watch right.
-/
import EventServer.Proofs.Apart

namespace EventServer

namespace Device

/-- a device but for what waits at it -/
def kind : Device → Device
  | listener _ => listener []
  | device => device

/-- whether a client holds it and may close it -/
def isClients : Device → Bool
  | stream _ .near => true
  | _ => false

/-- whether it can be watched, and no client may close it -/
def stands : Device → Bool
  | stream _ .near | file => false
  | _ => true

variable {device : Device}

@[simp] theorem stands_kind : device.kind.stands = device.stands := by cases device <;> rfl

theorem not_isClients_of_stands (hs : device.stands) : device.isClients = false := by
  cases device with
  | stream id side =>
    cases side with
    | near => cases hs
    | far => rfl
  | file | counter | idleSocket | listener _ | signalSource _ => rfl

end Device

namespace Host

variable {h h' : Host} {α : Type} {d : Descriptor}

def kind? (h : Host) (d : Descriptor) : Option Device := (h.device? d).map Device.kind

/-- a descriptor is open, can be watched, and is no client's -/
def Stands (h : Host) (d : Descriptor) : Prop := (h.kind? d).any Device.stands = true

instance (h : Host) (d : Descriptor) : Decidable (h.Stands d) := inferInstanceAs (Decidable (_ = true))

/-- no watch changes, and what is open and no client's stays what it is -/
structure Steady (h h' : Host) : Prop where
  watches : h'.watches = h.watches
  kinds : ∀ {d kind}, h.kind? d = some kind → kind.isClients = false → h'.kind? d = some kind

/-- no descriptor is watched twice, and each that is watched stands -/
structure Guarded (h : Host) : Prop where
  once : (h.watches.map (·.descriptor)).Nodup
  stands : ∀ w ∈ h.watches, h.Stands w.descriptor

theorem Steady.refl (h : Host) : Steady h h := ⟨rfl, fun hk _ => hk⟩

theorem Steady.trans {a b c : Host} (hab : Steady a b) (hbc : Steady b c) : Steady a c where
  watches := hbc.watches.trans hab.watches
  kinds hk hc := hbc.kinds (hab.kinds hk hc) hc

theorem steady_of_devices (hwatches : h'.watches = h.watches) (hdevices : h'.devices = h.devices) : Steady h h' :=
  ⟨hwatches, fun hk _ => by rw [← hk, kind?, kind?, device?, device?, hdevices]⟩

theorem Steady.stands (hs : Steady h h') (hd : h.Stands d) : h'.Stands d := by
  obtain ⟨kind, hk, hstands⟩ := (Option.any_eq_true _ _).1 hd
  exact (Option.any_eq_true _ _).2 ⟨kind, hs.kinds hk (Device.not_isClients_of_stands hstands), hstands⟩

/-- a host is guarded if it watches no more descriptors than a guarded one, and those stand -/
theorem Guarded.of_sublist (hg : h.Guarded)
    (hsub : (h'.watches.map (·.descriptor)).Sublist (h.watches.map (·.descriptor)))
    (hstands : ∀ w ∈ h'.watches, h.Stands w.descriptor → h'.Stands w.descriptor) : h'.Guarded := by
  refine ⟨hg.once.sublist hsub, fun w hw => hstands w hw ?_⟩
  obtain ⟨v, hv, he⟩ := List.mem_map.1 (hsub.subset (List.mem_map_of_mem hw))
  exact he ▸ hg.stands v hv

theorem Steady.guarded (hs : Steady h h') (hg : h.Guarded) : h'.Guarded :=
  hg.of_sublist (by rw [hs.watches]) fun _ _ hd => hs.stands hd

theorem Stands.watchable (hd : h.Stands d) : h.watchable d = .ok () := by
  obtain ⟨kind, hk, hstands⟩ := (Option.any_eq_true _ _).1 hd
  obtain ⟨device, hdevice, rfl⟩ := Option.map_eq_some_iff.1 hk
  cases device <;> simp_all [Host.watchable, Device.stands, Device.kind]

/-- what can be watched and is no client's stands -/
theorem stands_of_watchable (hw : h.watchable d = .ok ()) (hd : (h.kind? d).any (!·.isClients) = true) :
    h.Stands d := by
  obtain ⟨kind, hk, hclients⟩ := (Option.any_eq_true _ _).1 hd
  obtain ⟨device, hdevice, rfl⟩ := Option.map_eq_some_iff.1 hk
  rw [Stands, hk, Option.any_some, Device.stands_kind]
  rw [watchable, hdevice] at hw
  cases device with
  | stream id side =>
    cases side with
    | near => cases hclients
    | far => rfl
  | file => cases hw
  | counter | idleSocket | listener _ | signalSource _ => rfl

theorem watch?_isSome {w : Watch} (hw : w ∈ h.watches) : (h.watch? w.descriptor).isSome := by
  rw [watch?, List.find?_isSome]
  exact ⟨w, hw, beq_self_eq_true _⟩

/-! ## What others do -/

theorem steady_stir (h : Host) (d : Descriptor) (stir : Stir) : Steady h (h.stir d stir) := by
  obtain ⟨queue, hqueue, -⟩ := h.stir_eq d stir
  rw [hqueue]
  exact steady_of_devices rfl rfl

theorem steady_onStream (h : Host) (id : Nat) (operation : Stream → Stirred α) (otherwise : α) :
    Steady h (h.onStream id operation otherwise).1 := by
  unfold onStream
  cases h.streams[id]? with
  | none => exact .refl h
  | some s =>
    obtain ⟨queue, hqueue, -⟩ := stirEnds_eq { h with streams := h.streams.set id (operation s).stream } id
      (operation s).stirs
    simp only [hqueue]
    exact steady_of_devices rfl rfl

theorem steady_receive (h : Host) (d : Descriptor) (count : Nat) : Steady h (h.receive d count).1 := by
  unfold receive
  split
  · exact .refl h
  · exact steady_onStream ..
  all_goals exact .refl h

theorem steady_transmit (h : Host) (d : Descriptor) (bytes : Bytes) : Steady h (h.transmit d bytes).1 := by
  unfold transmit
  split
  · exact .refl h
  · exact steady_onStream ..
  all_goals exact .refl h

theorem steady_finish (h : Host) (d : Descriptor) : Steady h (h.finish d).1 := by
  unfold finish
  split
  · exact .refl h
  · exact steady_onStream ..
  · exact steady_stir ..
  · exact steady_stir ..
  all_goals exact .refl h

/-- what is opened gets a descriptor that nobody had -/
theorem steady_opened (h : Host) (device : Device) : Steady h (h.opened device).1 := by
  refine ⟨rfl, fun {d kind} hk _ => ?_⟩
  obtain ⟨old, hold, -⟩ := Option.map_eq_some_iff.1 hk
  rw [← hk, kind?, kind?, device?_opened, if_neg (Nat.ne_of_lt (lt_length_of_device? hold))]

/-- a listener keeps being one -/
theorem steady_backlog {backlog : List Arrival} (hl : h.device? d = some (.listener backlog))
    (backlog' : List Arrival) : Steady h (h.setDevice d (some (.listener backlog'))) := by
  refine ⟨rfl, fun {e kind} hk _ => ?_⟩
  rw [← hk, kind?, kind?, device?_setDevice hl]
  split
  · next he =>
    rw [he, hl]
    rfl
  · rfl

theorem steady_connect (h : Host) (listener : Descriptor) (self : Address) : Steady h (h.connect listener self).1 := by
  unfold connect
  split
  · exact .refl h
  split
  · next backlog hl =>
    let grown : Host := { h with streams := h.streams ++ [{ family := .inet }] }
    have hgrown : Steady h grown := steady_of_devices rfl rfl
    have hopened : Steady h (grown.opened (.stream h.streams.length .near)).1 := hgrown.trans (steady_opened ..)
    have hl' : (grown.opened (.stream h.streams.length .near)).1.device? listener = some (.listener backlog) := by
      rw [device?_opened, if_neg (Nat.ne_of_lt (lt_length_of_device? hl))]
      exact hl
    exact (hopened.trans (steady_backlog hl' _)).trans (steady_stir ..)
  · exact .refl h

theorem steady_raise (h : Host) (number : Int) : Steady h (h.raise number).1 := by
  have hfold : ∀ (sources : List (Option Device × Nat)) (h : Host),
      Steady h (sources.foldl (fun h entry => h.stir entry.2 .input) h) := by
    intro sources
    induction sources with
    | nil => exact fun h => .refl h
    | cons entry rest ih => exact fun h => (steady_stir h entry.2 .input).trans (ih _)
  unfold raise
  split
  · refine Steady.trans ?_ (hfold _ _)
    exact steady_of_devices rfl rfl
  · exact .refl h

/-- closing ends the watch of the descriptor and leaves all others open -/
theorem close_spec (h : Host) (d : Descriptor) (abrupt : Bool) :
    (h.close d abrupt).watches = h.watches.filter (·.descriptor != d) ∧
      ∀ e, e ≠ d → (h.close d abrupt).device? e = h.device? e := by
  have hgone : ∀ e, e ≠ d → ((h.forget d).setDevice d none).device? e = h.device? e := fun e hne => by
    simp [forget, setDevice, device?, List.getElem?_set_ne (Ne.symm hne)]
  -- the far ends of the connections that waited are reset one by one
  have hreset : ∀ (backlog : List Arrival) (g : Host),
      (backlog.foldl (fun h arrival => (h.onStream arrival.stream (·.close .far true) ()).1) g).watches = g.watches ∧
        ∀ e, (backlog.foldl (fun h arrival => (h.onStream arrival.stream (·.close .far true) ()).1) g).device? e =
          g.device? e := by
    intro backlog
    induction backlog with
    | nil => exact fun g => ⟨rfl, fun _ => rfl⟩
    | cons arrival rest ih =>
      intro g
      obtain ⟨hwatches, hdevices⟩ := ih (g.onStream arrival.stream (·.close .far true) ()).1
      exact ⟨hwatches.trans (steady_onStream ..).watches, fun e => (hdevices e).trans (device?_onStream ..)⟩
  unfold close
  dsimp only
  split
  · exact ⟨(steady_onStream ..).watches, fun e hne => (device?_onStream ..).trans (hgone e hne)⟩
  · next backlog _ =>
    obtain ⟨hwatches, hdevices⟩ := hreset backlog ((h.forget d).setDevice d none)
    exact ⟨hwatches, fun e hne => (hdevices e).trans (hgone e hne)⟩
  · exact ⟨rfl, hgone⟩

theorem filter_watches_of_none (hw : h.watch? d = none) : h.watches.filter (·.descriptor != d) = h.watches :=
  List.filter_eq_self.2 fun w hm => by simpa using not_mem_watches hw w hm

/-- a client closes nothing but its own, and nobody watches that -/
theorem steady_close_client (hg : h.Guarded) {id : Nat} (hd : h.device? d = some (.stream id .near)) (abrupt : Bool) :
    Steady h (h.close d abrupt) := by
  obtain ⟨hwatches, hdevices⟩ := h.close_spec d abrupt
  have hkind : h.kind? d = some (.stream id .near) := by rw [kind?, hd]; rfl
  have hnone : h.watch? d = none := by
    refine List.find?_eq_none.2 fun w hw he => ?_
    have hstands := hg.stands w hw
    rw [beq_iff_eq.1 he, Stands, hkind] at hstands
    cases hstands
  refine ⟨hwatches.trans (filter_watches_of_none hnone), fun {e kind} hk hclients => ?_⟩
  have hne : e ≠ d := fun he => by
    rw [he, hkind] at hk
    cases hk
    cases hclients
  rw [← hk, kind?, kind?, hdevices e hne]

theorem steady_act (hg : h.Guarded) (deed : Deed) : Steady h (h.act deed) := by
  cases deed with
  | connect listener self => exact steady_connect h listener self
  | send d bytes =>
    simp only [act]
    split
    · exact steady_transmit h d bytes
    · exact .refl h
  | recv d count =>
    simp only [act]
    split
    · exact steady_receive h d count
    · exact .refl h
  | finish d =>
    simp only [act]
    split
    · exact steady_finish h d
    · exact .refl h
  | close d abrupt =>
    simp only [act]
    split
    · next hc =>
      obtain ⟨id, hd⟩ := device?_of_client? hc
      exact steady_close_client hg hd abrupt
    · exact .refl h
  | signal number => exact steady_raise h number
  | interrupt => exact steady_of_devices rfl rfl

theorem steady_elapse (hg : h.Guarded) : Steady h h.elapse := by
  have hacts : ∀ (deeds : List Deed) {g : Host}, g.Guarded → Steady g (deeds.foldl act g) := by
    intro deeds
    induction deeds with
    | nil => exact fun {g} _ => .refl g
    | cons deed rest ih =>
      intro g hg
      have hfirst := steady_act hg deed
      exact hfirst.trans (ih (hfirst.guarded hg))
  have hrest : Steady h { h with others := h.others.tail } := steady_of_devices rfl rfl
  exact hrest.trans (hacts _ (hrest.guarded hg))

/-! ## The server's calls -/

theorem steady_retry {call : Host → Host × Except Errno α} (hc : ∀ {g : Host}, g.Guarded → Steady g (call g).1)
    (hg : h.Guarded) (limit : Nat) : Steady h (Nonblocking.retry call limit h).1 := by
  have hstep : ∀ g, Steady h g → Steady h (call g).1 := fun g hs => hs.trans (hc (hs.guarded hg))
  obtain ⟨last, hlast, he⟩ := Nonblocking.retry_spec (P := Steady h) call hstep limit (.refl h)
  rw [he]
  exact hstep last hlast

theorem steady_recv (hg : h.Guarded) (d : Descriptor) (count : Nat) : Steady h (Nonblocking.recv h d count).1 := by
  refine steady_retry (fun {g} hg => (steady_elapse hg).trans ?_) hg _
  rcases g.elapse.recv_cases d count with he | ⟨n, he⟩
  · exact he ▸ steady_receive g.elapse d count
  · exact he ▸ steady_of_devices rfl rfl

theorem steady_send (hg : h.Guarded) (d : Descriptor) (bytes : Bytes) : Steady h (Nonblocking.send h d bytes).1 := by
  refine steady_retry (fun {g} hg => (steady_elapse hg).trans ?_) hg _
  rcases g.elapse.send_cases d bytes with he | ⟨n, he⟩
  · exact he ▸ steady_transmit g.elapse d bytes
  · exact he ▸ steady_of_devices rfl rfl

/-- entering the watch: refused with nothing changed, or entered, and then the descriptor can be watched -/
theorem watch_spec (h : Host) (d : Descriptor) (word : UInt64) (interest : Interest) :
    (∃ code, (h.watch d word interest).2 = .error code ∧ Steady h (h.watch d word interest).1) ∨
      (h.watch d word interest).2 = .ok () ∧ h.watchable d = .ok () ∧
        (h.watch d word interest).1.watches = h.watches ++ [⟨d, word, interest⟩] ∧
        (h.watch d word interest).1.devices = h.devices := by
  have hspent : Steady h { h with refusals := { h.refusals with watch := h.refusals.watch.tail } } :=
    steady_of_devices rfl rfl
  unfold watch
  dsimp only
  split
  · exact .inl ⟨_, rfl, hspent⟩
  · exact .inl ⟨_, rfl, hspent⟩
  · next hwatchable =>
    split
    · exact .inl ⟨_, rfl, hspent⟩
    · obtain ⟨queue, hqueue, -⟩ := looked_eq { h with
        refusals := { h.refusals with watch := h.refusals.watch.tail }
        watches := h.watches ++ [⟨d, word, interest⟩] } d interest
      rw [hqueue]
      exact .inr ⟨rfl, hwatchable, rfl, rfl⟩

/-- changing a watch: refused with nothing changed, or changed -/
theorem rewatch_spec (h : Host) (d : Descriptor) (word : UInt64) (interest : Interest) :
    (∃ code, (h.rewatch d word interest).2 = .error code ∧ Steady h (h.rewatch d word interest).1) ∨
      (h.rewatch d word interest).2 = .ok () ∧
        (h.rewatch d word interest).1.watches = rewatched h.watches d word interest ∧
        (h.rewatch d word interest).1.devices = h.devices := by
  have hspent : Steady h { h with refusals := h.refusals.changed d } := steady_of_devices rfl rfl
  unfold rewatch
  dsimp only
  split
  · exact .inl ⟨_, rfl, hspent⟩
  · exact .inl ⟨_, rfl, hspent⟩
  · split
    · exact .inl ⟨_, rfl, hspent⟩
    · obtain ⟨queue, hqueue, -⟩ := looked_eq { h with
        refusals := h.refusals.changed d
        watches := rewatched h.watches d word interest } d interest
      rw [show (List.map _ h.watches) = rewatched h.watches d word interest from rfl, hqueue]
      exact .inr ⟨rfl, rfl, rfl⟩

/-- the kernel ends the watch of whatever is watched and stands -/
theorem unwatch_spec (hg : h.Guarded) {w : Watch} (hw : w ∈ h.watches) :
    h.unwatch w.descriptor = (h.forget w.descriptor, .ok ()) := by
  obtain ⟨found, hfound⟩ := Option.isSome_iff_exists.1 (watch?_isSome hw)
  simp [unwatch, (hg.stands w hw).watchable, hfound]

/-- leaving the watch: refused with nothing changed, or what was watched is not any more -/
theorem unwatch_cases (h : Host) (d : Descriptor) :
    (∃ code, h.unwatch d = (h, .error code)) ∨
      d ∈ h.watches.map (·.descriptor) ∧ h.unwatch d = (h.forget d, .ok ()) := by
  unfold unwatch
  split
  · exact .inl ⟨_, rfl⟩
  · split
    · exact .inl ⟨_, rfl⟩
    · next w hw =>
      obtain ⟨hmem, he⟩ := mem_watches hw
      exact .inr ⟨List.mem_map.2 ⟨w, hmem, he⟩, rfl⟩

theorem guarded_forget (hg : h.Guarded) (d : Descriptor) : (h.forget d).Guarded :=
  hg.of_sublist (List.filter_sublist.map _) fun _ _ hd => hd

/-- what is still watched after a descriptor was closed is something else -/
theorem guarded_close (hg : h.Guarded) (d : Descriptor) (abrupt : Bool) : (h.close d abrupt).Guarded := by
  obtain ⟨hwatches, hdevices⟩ := h.close_spec d abrupt
  refine hg.of_sublist (hwatches ▸ List.filter_sublist.map _) fun w hw hd => ?_
  have hne : w.descriptor ≠ d := by
    rw [hwatches] at hw
    simpa using (List.mem_filter.1 hw).2
  rwa [Stands, kind?, hdevices _ hne]

end Host

namespace Notifier

variable {n : Notifier} {d : Descriptor}

/-- a registration is refused and changes no watch, or it is the last entry of the watch and counted -/
theorem register_spec (hg : n.host.Guarded) (hw : n.host.watch? d = none)
    (hd : (n.host.kind? d).any (!·.isClients) = true) (token : Token) (interest : Interest) :
    (∃ fault h, Host.Steady n.host h ∧ (n.register d token interest).value = .error fault ∧
        (n.register d token interest).state = { n with host := h }) ∨
      ∃ word h, token.word? = some word ∧ h.Guarded ∧ h.watches = n.host.watches ++ [⟨d, word, interest⟩] ∧
        (n.register d token interest).value = .ok () ∧
        (n.register d token interest).state = { n with host := h, registrations := n.registrations + 1 } := by
  have hs := Host.steady_elapse hg
  unfold register
  cases hword : token.word? with
  | none => exact .inl ⟨_, n.host, .refl _, rfl, rfl⟩
  | some word =>
    dsimp only
    rcases n.host.elapse.watch_spec d word interest with ⟨code, hr, hs'⟩ | ⟨hr, hwatchable, hwatches, hdevices⟩
    · rw [hr]
      exact .inl ⟨_, _, hs.trans hs', rfl, rfl⟩
    · rw [hr]
      rw [hs.watches] at hwatches
      refine .inr ⟨word, _, rfl, ⟨?_, fun w hm => ?_⟩, hwatches, rfl, rfl⟩
      · rw [hwatches, List.map_append, List.map_singleton, List.nodup_append]
        refine ⟨hg.once, by simp, fun x hx y hy he => ?_⟩
        obtain ⟨v, hv, rfl⟩ := List.mem_map.1 hx
        exact Host.not_mem_watches hw v hv (he.trans (List.mem_singleton.1 hy))
      · have hkinds : ∀ e, (n.host.elapse.watch d word interest).1.kind? e = n.host.elapse.kind? e := fun e => by
          rw [Host.kind?, Host.kind?, Host.device?, Host.device?, hdevices]
        rw [Host.Stands, hkinds]
        rw [hwatches] at hm
        rcases List.mem_append.1 hm with hm | hm
        · exact hs.stands (hg.stands w hm)
        · -- it was open, is so still and can be watched
          obtain ⟨kind, hk, hclients⟩ := (Option.any_eq_true _ _).1 hd
          have hk' := hs.kinds hk (by simpa using hclients)
          rw [List.mem_singleton.1 hm]
          exact Host.stands_of_watchable hwatchable (by rw [hk']; exact hclients)

/-- a change of a watch is refused and changes no watch, or the watch is for the new conditions -/
theorem reregister_spec (hg : n.host.Guarded) (d : Descriptor) (token : Token) (interest : Interest) :
    (∃ fault h, Host.Steady n.host h ∧ (n.reregister d token interest).value = .error fault ∧
        (n.reregister d token interest).state = { n with host := h }) ∨
      ∃ word h, token.word? = some word ∧ h.Guarded ∧
        h.watches = Host.rewatched n.host.watches d word interest ∧
        (n.reregister d token interest).value = .ok () ∧
        (n.reregister d token interest).state = { n with host := h } := by
  have hs := Host.steady_elapse hg
  unfold reregister
  cases hword : token.word? with
  | none => exact .inl ⟨_, n.host, .refl _, rfl, rfl⟩
  | some word =>
    dsimp only
    rcases n.host.elapse.rewatch_spec d word interest with ⟨code, hr, hs'⟩ | ⟨hr, hwatches, hdevices⟩
    · rw [hr]
      exact .inl ⟨_, _, hs.trans hs', rfl, rfl⟩
    · rw [hr]
      refine .inr ⟨word, _, rfl, (hs.guarded hg).of_sublist ?_ fun w _ hd => ?_, hs.watches ▸ hwatches, rfl, rfl⟩
      · rw [hwatches, Host.map_rewatched]
      · rwa [Host.Stands, Host.kind?, Host.device?, hdevices]

/-- what is watched and guarded leaves the watch without a refusal, and is counted -/
theorem deregister_spec (hg : n.host.Guarded) {w : Watch} (hw : w ∈ n.host.watches) :
    ∃ h, h.Guarded ∧ h.watches = n.host.watches.filter (·.descriptor != w.descriptor) ∧
      n.deregister w.descriptor = ({ n with host := h, deregistrations := n.deregistrations + 1 }, .ok ()) := by
  have hs := Host.steady_elapse hg
  have hunwatch := Host.unwatch_spec (hs.guarded hg) (w := w) (by rwa [hs.watches])
  refine ⟨_, Host.guarded_forget (hs.guarded hg) w.descriptor, ?_, by simp only [deregister, hunwatch]⟩
  rw [Host.forget, hs.watches]

end Notifier

end EventServer
