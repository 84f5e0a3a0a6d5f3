/-
Hailing: what becomes of a listener while nobody accepts from it.

Between two hosts of which one comes of the other a listener is `Hailed` if callers have come at most: they wait behind
those who waited, each with a new stream, and the listener is queued if it is watched for them. Whatever others do hails
it (`hailed_elapse`), and so does every call of the server on another descriptor; so do the requests to a table that
does not hold the listener (`Clear.recv` and the like), a pump (`Server.clear_prepare`) and dealing with a report on
anything else (`Server.clear_handle`). Callers to come are used up by those who have come (`Hails.calls`), and the
refusals that the server's calls will meet are nobody else's (`refusals_elapse`).
-/
import EventServer.Proofs.Elsewhere

namespace EventServer

namespace Host

variable {h h' h'' : Host} {l d e : Descriptor} {extra extra' : Nat} {came came' : List Arrival} {α : Type}

/-- nobody but callers had to do with a listener, those who came and no more than were to come, or a few extra; what is
closed stays so -/
structure Hails (l : Descriptor) (extra : Nat) (came : List Arrival) (h h' : Host) : Prop where
  backlog : ∀ {waiting}, h.device? l = some (.listener waiting) → h'.device? l = some (.listener (waiting ++ came))
  fresh : ∀ a ∈ came, h.streams.length ≤ a.stream
  made : h.streams.length ≤ h'.streams.length
  opened : h.devices.length ≤ h'.devices.length
  gone : ∀ {d}, d < h.devices.length → h.device? d = none → h'.device? d = none
  watch : h'.watch? l = h.watch? l
  queued : l ∈ h.queue → l ∈ h'.queue
  told : came ≠ [] → ∀ {w}, h.watch? l = some w → w.interest.read = true → l ∈ h'.queue
  refusals : h'.refusals.accept = h.refusals.accept
  calls : came.length + h'.ahead Deed.calls ≤ h.ahead Deed.calls + extra

/-- a listener was hailed by those who came, all of whom were to come -/
def Hailed (l : Descriptor) (h h' : Host) : Prop := ∃ came, Hails l 0 came h h'

theorem Hails.trans (hh : Hails l extra came h h') (hh' : Hails l extra' came' h' h'') :
    Hails l (extra + extra') (came ++ came') h h'' where
  backlog hl := by rw [← List.append_assoc]; exact hh'.backlog (hh.backlog hl)
  fresh a ha := (List.mem_append.1 ha).elim (hh.fresh a) fun ha => hh.made.trans (hh'.fresh a ha)
  made := hh.made.trans hh'.made
  opened := hh.opened.trans hh'.opened
  gone hd hnone := hh'.gone (Nat.lt_of_lt_of_le hd hh.opened) (hh.gone hd hnone)
  watch := hh'.watch.trans hh.watch
  queued hq := hh'.queued (hh.queued hq)
  told hne w hw hr := by
    by_cases hfirst : came = []
    · exact hh'.told (by simpa [hfirst] using hne) (hh.watch.trans hw) hr
    · exact hh'.queued (hh.told hfirst hw hr)
  refusals := hh'.refusals.trans hh.refusals
  calls := by
    have hfirst := hh.calls
    have hsecond := hh'.calls
    rw [List.length_append]
    omega

/-- nobody came -/
theorem hails_of_eq (hl : h'.device? l = h.device? l) (hmade : h.streams.length ≤ h'.streams.length)
    (hopened : h.devices.length ≤ h'.devices.length)
    (hgone : ∀ {d}, d < h.devices.length → h.device? d = none → h'.device? d = none) (hwatch : h'.watch? l = h.watch? l)
    (hqueued : l ∈ h.queue → l ∈ h'.queue) (hrefusals : h'.refusals.accept = h.refusals.accept)
    (hcalls : h'.ahead Deed.calls ≤ h.ahead Deed.calls) : Hails l 0 [] h h' where
  backlog hb := by rw [hl, hb, List.append_nil]
  fresh _ ha := by cases ha
  made := hmade
  opened := hopened
  gone := hgone
  watch := hwatch
  queued := hqueued
  told hne := absurd rfl hne
  refusals := hrefusals
  calls := by simpa using hcalls

theorem Hails.refl (l : Descriptor) (h : Host) : Hails l 0 [] h h :=
  hails_of_eq rfl (Nat.le_refl _) (Nat.le_refl _) (fun _ hd => hd) rfl id rfl (Nat.le_refl _)

theorem Hailed.refl (l : Descriptor) (h : Host) : Hailed l h h := ⟨[], .refl l h⟩

theorem Hailed.trans (hh : Hailed l h h') (hh' : Hailed l h' h'') : Hailed l h h'' :=
  ⟨_, hh.choose_spec.trans hh'.choose_spec⟩

/-- a change of neither the descriptors nor the watches -/
theorem hails_of_devices (hdevices : h'.devices = h.devices) (hmade : h.streams.length ≤ h'.streams.length)
    (hwatches : h'.watches = h.watches) (hqueue : h.queue ⊆ h'.queue)
    (hrefusals : h'.refusals.accept = h.refusals.accept) (hothers : h'.others = h.others) : Hails l 0 [] h h' := by
  have hd : ∀ d, h'.device? d = h.device? d := fun d => by rw [device?, device?, hdevices]
  refine hails_of_eq (hd l) hmade (Nat.le_of_eq (congrArg _ hdevices.symm)) (fun _ hnone => (hd _).trans hnone) ?_
    (fun hq => hqueue hq) hrefusals ?_
  · rw [watch?, watch?, hwatches]
  · rw [ahead, ahead, hothers]

/-! ## What others do -/

theorem hails_stir (h : Host) (d : Descriptor) (stir : Stir) : Hails l 0 [] h (h.stir d stir) := by
  obtain ⟨q, hq, hsub⟩ := h.stir_eq d stir
  rw [hq]
  exact hails_of_devices rfl (Nat.le_refl _) rfl hsub rfl rfl

theorem hails_onStream (h : Host) (i : Nat) (operation : Stream → Stirred α) (otherwise : α) :
    Hails l 0 [] h (h.onStream i operation otherwise).1 := by
  unfold onStream
  cases h.streams[i]? with
  | none => exact .refl l h
  | some s =>
    obtain ⟨q, hq, hsub, -⟩ := stirEnds_eq { h with streams := h.streams.set i (operation s).stream } i
      (operation s).stirs
    simp only [hq]
    exact hails_of_devices rfl (Nat.le_of_eq List.length_set.symm) rfl hsub rfl rfl

theorem hails_receive (h : Host) (d : Descriptor) (count : Nat) : Hails l 0 [] h (h.receive d count).1 := by
  unfold receive
  split
  · exact .refl l h
  · exact hails_onStream ..
  all_goals exact .refl l h

theorem hails_transmit (h : Host) (d : Descriptor) (bytes : Bytes) : Hails l 0 [] h (h.transmit d bytes).1 := by
  unfold transmit
  split
  · exact .refl l h
  · exact hails_onStream ..
  all_goals exact .refl l h

theorem hails_finish (h : Host) (d : Descriptor) : Hails l 0 [] h (h.finish d).1 := by
  unfold finish
  split
  · exact .refl l h
  · exact hails_onStream ..
  · exact hails_stir ..
  · exact hails_stir ..
  all_goals exact .refl l h

theorem hails_forget (hne : l ≠ d) : Hails l 0 [] h (h.forget d) :=
  hails_of_eq rfl (Nat.le_refl _) (Nat.le_refl _) (fun _ hnone => hnone) (watch?_filter_ne hne _)
    (fun hq => mem_queue_forget.2 ⟨hq, hne⟩) rfl (Nat.le_refl _)

theorem hails_gone (hne : l ≠ d) : Hails l 0 [] h ((h.forget d).setDevice d none) := by
  have hdevice := h.device?_gone d
  refine hails_of_eq ((hdevice l).trans (if_neg hne)) (Nat.le_refl _) (Nat.le_of_eq List.length_set.symm)
    (fun {e} _ hnone => ?_) (watch?_filter_ne hne _) (fun hq => mem_queue_forget.2 ⟨hq, hne⟩) rfl (Nat.le_refl _)
  rw [hdevice]
  split
  · rfl
  · exact hnone

theorem hailed_close (hne : l ≠ d) (abrupt : Bool) : Hailed l h (h.close d abrupt) := by
  have hgone : Hailed l h ((h.forget d).setDevice d none) := ⟨[], hails_gone hne⟩
  have hreset : ∀ (backlog : List Arrival) {g : Host}, Hailed l h g →
      Hailed l h (backlog.foldl (fun h arrival => (h.onStream arrival.stream (·.close .far true) ()).1) g) := by
    intro backlog
    induction backlog with
    | nil => exact id
    | cons arrival rest ih => exact fun hg => ih (hg.trans ⟨[], hails_onStream ..⟩)
  unfold close
  dsimp only
  split
  · exact hgone.trans ⟨[], hails_onStream ..⟩
  · exact hreset _ hgone
  · exact hgone

theorem Hails.more (hh : Hails l extra came h h') (hle : extra ≤ extra') : Hails l extra' came h h' :=
  ⟨hh.backlog, hh.fresh, hh.made, hh.opened, hh.gone, hh.watch, hh.queued, hh.told, hh.refusals,
    hh.calls.trans (Nat.add_le_add_left hle _)⟩

theorem hails_connect (h : Host) (d : Descriptor) (self : Address) : ∃ came, Hails l 1 came h (h.connect d self).1 := by
  by_cases hcall : h.routed = true ∧ ∃ backlog, h.device? d = some (.listener backlog)
  · obtain ⟨hrouted, backlog, hd⟩ := hcall
    have hdialed : h.dialed.1.device? d = some (.listener backlog) :=
      (h.device?_dialed d).trans ((if_neg (Nat.ne_of_lt (lt_length_of_device? hd))).trans hd)
    let longer : Host := h.dialed.1.setDevice d (some (.listener (backlog ++ [⟨h.streams.length, self⟩])))
    have hlonger : ∀ e, longer.device? e = if e = d then some (.listener (backlog ++ [⟨h.streams.length, self⟩])) else
        if e = h.devices.length then some (.stream h.streams.length .near) else h.device? e := fun e => by
      rw [device?_setDevice hdialed, device?_dialed]
    have hmade : longer.streams.length = h.streams.length + 1 := List.length_append ..
    have hopened : longer.devices.length = h.devices.length + 1 := List.length_set.trans (List.length_append ..)
    obtain ⟨q, hq, hsub⟩ := longer.stir_eq d .input
    rw [connect_of_listener hrouted hd, show (longer.stir d .input) = _ from hq]
    refine ⟨if l = d then [⟨h.streams.length, self⟩] else [], ⟨fun {waiting} hl => ?_, fun a ha => ?_,
      hmade ▸ Nat.le_succ _, hopened ▸ Nat.le_succ _, fun {e} he hnone => ?_, rfl, fun hm => hsub hm,
      fun hne w hw hr => ?_, rfl, ?_⟩⟩
    · refine (hlonger l).trans ?_
      split
      · next he =>
        rw [he, hd] at hl
        cases hl
        rfl
      · rw [if_neg (Nat.ne_of_lt (lt_length_of_device? hl)), hl, List.append_nil]
    · split at ha
      · rw [List.mem_singleton.1 ha]
      · cases ha
    · refine (hlonger e).trans ?_
      rw [if_neg fun heq => ?_, if_neg (Nat.ne_of_lt he), hnone]
      rw [heq, hd] at hnone
      cases hnone
    · split at hne
      · next he =>
        subst he
        have hm : l ∈ (longer.stir l .input).queue := mem_queue_stir hw hr
        rwa [hq] at hm
      · exact absurd rfl hne
    · have hlength : (if l = d then [(⟨h.streams.length, self⟩ : Arrival)] else []).length ≤ 1 := by split <;> simp
      exact (Nat.add_le_add_right hlength _).trans (Nat.le_of_eq (Nat.add_comm ..))
  · rw [h.connect_of_not hcall]
    exact ⟨[], (Hails.refl l h).more (Nat.zero_le _)⟩

theorem hails_raise (h : Host) (number : Int) : Hails l 0 [] h (h.raise number).1 := by
  obtain ⟨q, hq, hsub⟩ := h.raise_eq number
  rw [hq]
  exact hails_of_devices rfl (Nat.le_refl _) rfl hsub rfl rfl

theorem hails_act {waiting : List Arrival} (hl : h.device? l = some (.listener waiting)) (deed : Deed) :
    ∃ came, Hails l deed.calls came h (h.act deed) := by
  cases deed with
  | connect d self => exact hails_connect h d self
  | send d bytes =>
    simp only [act]
    split
    · exact ⟨[], hails_transmit h d bytes⟩
    · exact ⟨[], .refl l h⟩
  | recv d count =>
    simp only [act]
    split
    · exact ⟨[], hails_receive h d count⟩
    · exact ⟨[], .refl l h⟩
  | finish d =>
    simp only [act]
    split
    · exact ⟨[], hails_finish h d⟩
    · exact ⟨[], .refl l h⟩
  | close d abrupt =>
    simp only [act]
    split
    · next hc =>
      obtain ⟨id, hd⟩ := device?_of_client? hc
      refine hailed_close (fun he => ?_) abrupt
      rw [he, hd] at hl
      cases hl
    · exact ⟨[], .refl l h⟩
  | signal number => exact ⟨[], hails_raise h number⟩
  | interrupt => exact ⟨[], hails_of_devices rfl (Nat.le_refl _) rfl (List.Subset.refl _) rfl rfl⟩

theorem hails_acts {waiting : List Arrival} (hl : h.device? l = some (.listener waiting)) (deeds : List Deed) :
    ∃ came, Hails l (deeds.foldr (fun deed sum => deed.calls + sum) 0) came h (deeds.foldl act h) := by
  induction deeds generalizing h waiting with
  | nil => exact ⟨[], .refl l h⟩
  | cons deed rest ih =>
    obtain ⟨came, hfirst⟩ := hails_act hl deed
    obtain ⟨came', hrest⟩ := ih (hfirst.backlog hl)
    exact ⟨_, hfirst.trans hrest⟩

/-- whatever others do before a call -/
theorem hailed_elapse {waiting : List Arrival} (hl : h.device? l = some (.listener waiting)) : Hailed l h h.elapse := by
  obtain ⟨came, hh⟩ := hails_acts (h := { h with others := h.others.tail }) hl (h.others.headD [])
  refine ⟨came, hh.backlog, hh.fresh, hh.made, hh.opened, hh.gone, hh.watch, hh.queued, hh.told, hh.refusals, ?_⟩
  have hcalls := hh.calls
  have hsplit : h.ahead Deed.calls = (h.others.headD []).foldr (fun deed sum => deed.calls + sum) 0 +
      ({ h with others := h.others.tail } : Host).ahead Deed.calls := by
    cases hothers : h.others with
    | nil => simp [ahead, hothers]
    | cons deeds rest =>
      rw [ahead, hothers, List.flatten_cons, foldr_add_append, ahead]
      rfl
  rw [elapse]
  omega

/-! ## Refusals that others leave for the server -/

theorem refusals_onStream (h : Host) (i : Nat) (operation : Stream → Stirred α) (otherwise : α) :
    (h.onStream i operation otherwise).1.refusals = h.refusals := by
  unfold onStream
  split
  · next s _ =>
    obtain ⟨q, hq, -⟩ := stirEnds_eq { h with streams := h.streams.set i (operation s).stream } i (operation s).stirs
    simp only [hq]
  · rfl

theorem refusals_stir (h : Host) (d : Descriptor) (stir : Stir) : (h.stir d stir).refusals = h.refusals := by
  obtain ⟨q, hq, -⟩ := h.stir_eq d stir
  rw [hq]

theorem refusals_receive (h : Host) (d : Descriptor) (count : Nat) : (h.receive d count).1.refusals = h.refusals := by
  unfold receive
  split
  · rfl
  · exact refusals_onStream ..
  all_goals rfl

theorem refusals_transmit (h : Host) (d : Descriptor) (bytes : Bytes) :
    (h.transmit d bytes).1.refusals = h.refusals := by
  unfold transmit
  split
  · rfl
  · exact refusals_onStream ..
  all_goals rfl

theorem refusals_finish (h : Host) (d : Descriptor) : (h.finish d).1.refusals = h.refusals := by
  unfold finish
  split
  · rfl
  · exact refusals_onStream ..
  · exact refusals_stir ..
  · exact refusals_stir ..
  all_goals rfl

theorem refusals_close (h : Host) (d : Descriptor) (abrupt : Bool) : (h.close d abrupt).refusals = h.refusals := by
  have hreset : ∀ (backlog : List Arrival) (g : Host),
      (backlog.foldl (fun h arrival => (h.onStream arrival.stream (·.close .far true) ()).1) g).refusals =
        g.refusals := by
    intro backlog
    induction backlog with
    | nil => exact fun _ => rfl
    | cons arrival rest ih => exact fun g => (ih _).trans (refusals_onStream ..)
  unfold close
  dsimp only
  split
  · exact refusals_onStream ..
  · exact hreset ..
  · rfl

theorem refusals_connect (h : Host) (d : Descriptor) (self : Address) :
    (h.connect d self).1.refusals = h.refusals := by
  by_cases hcall : h.routed = true ∧ ∃ backlog, h.device? d = some (.listener backlog)
  · obtain ⟨hrouted, backlog, hd⟩ := hcall
    rw [connect_of_listener hrouted hd, refusals_stir]
    rfl
  · rw [h.connect_of_not hcall]

theorem refusals_act (h : Host) (deed : Deed) : (h.act deed).refusals = h.refusals := by
  cases deed with
  | connect d self => exact refusals_connect h d self
  | send d bytes =>
    simp only [act]
    split
    · exact refusals_transmit h d bytes
    · rfl
  | recv d count =>
    simp only [act]
    split
    · exact refusals_receive h d count
    · rfl
  | finish d =>
    simp only [act]
    split
    · exact refusals_finish h d
    · rfl
  | close d abrupt =>
    simp only [act]
    split
    · exact refusals_close h d abrupt
    · rfl
  | signal number =>
    obtain ⟨q, hq, -⟩ := h.raise_eq number
    simp only [act, hq]
  | interrupt => rfl

theorem refusals_elapse (h : Host) : h.elapse.refusals = h.refusals := by
  have hacts : ∀ (deeds : List Deed) (g : Host), (deeds.foldl act g).refusals = g.refusals := by
    intro deeds
    induction deeds with
    | nil => exact fun _ => rfl
    | cons deed rest ih => exact fun g => (ih _).trans (g.refusals_act deed)
  exact hacts ..

/-! ## Calls of the server on other descriptors -/

theorem Hailed.listens {waiting : List Arrival} (hh : Hailed l h h') (hl : h.device? l = some (.listener waiting)) :
    ∃ waiting, h'.device? l = some (.listener waiting) :=
  ⟨_, hh.choose_spec.backlog hl⟩

theorem hailed_spent (h : Host) {refusals : Refusals} (haccept : refusals.accept = h.refusals.accept) :
    Hailed l h { h with refusals } :=
  ⟨[], hails_of_devices rfl (Nat.le_refl _) rfl (List.Subset.refl _) haccept rfl⟩

theorem hailed_retry (call : Host → Host × Except Errno α) {waiting : List Arrival}
    (hl : h.device? l = some (.listener waiting)) (hcall : ∀ g, Hails l 0 [] g (call g).1) (limit : Nat) :
    Hailed l h (Nonblocking.retry (fun h => call h.elapse) limit h).1 := by
  have hstep : ∀ g, Hailed l h g → Hailed l h (call g.elapse).1 := fun g hg => by
    obtain ⟨waiting, hwaiting⟩ := hg.listens hl
    exact (hg.trans (hailed_elapse hwaiting)).trans ⟨[], hcall _⟩
  obtain ⟨last, hlast, he⟩ := Nonblocking.retry_spec (P := Hailed l h) (fun h => call h.elapse) hstep limit (.refl l h)
  rw [he]
  exact hstep last hlast

theorem hailed_recv {waiting : List Arrival} (hl : h.device? l = some (.listener waiting)) (d : Descriptor)
    (count : Nat) : Hailed l h (Nonblocking.recv h d count).1 := by
  refine hailed_retry (·.recv d count) hl (fun g => ?_) _
  rcases g.recv_cases d count with he | ⟨n, he⟩
  · exact he ▸ hails_receive g d count
  · exact he ▸ hails_of_devices rfl (Nat.le_refl _) rfl (List.Subset.refl _) rfl rfl

theorem hailed_send {waiting : List Arrival} (hl : h.device? l = some (.listener waiting)) (d : Descriptor)
    (bytes : Bytes) : Hailed l h (Nonblocking.send h d bytes).1 := by
  refine hailed_retry (·.send d bytes) hl (fun g => ?_) _
  rcases g.send_cases d bytes with he | ⟨n, he⟩
  · exact he ▸ hails_transmit g d bytes
  · exact he ▸ hails_of_devices rfl (Nat.le_refl _) rfl (List.Subset.refl _) rfl rfl

theorem hailed_watches {watches : List Watch} (hwatch : watches.find? (·.descriptor == l) = h.watch? l)
    (interest : Interest) : Hailed l h
      (if ({ h with watches } : Host).holds d interest then ({ h with watches } : Host).enqueue d
        else { h with watches }) := by
  obtain ⟨q, hq, hsub, -⟩ := looked_eq { h with watches } d interest
  rw [hq]
  exact ⟨[], hails_of_eq rfl (Nat.le_refl _) (Nat.le_refl _) (fun _ hnone => hnone) hwatch (fun hm => hsub hm) rfl
    (Nat.le_refl _)⟩

theorem hailed_watch (hne : l ≠ d) (word : UInt64) (interest : Interest) :
    Hailed l h (h.watch d word interest).1 := by
  have hspent : Hailed l h { h with refusals := { h.refusals with watch := h.refusals.watch.tail } } :=
    h.hailed_spent rfl
  unfold watch
  dsimp only
  split
  · exact hspent
  · exact hspent
  · split
    · exact hspent
    · refine hspent.trans (hailed_watches ?_ interest)
      have hother : ([⟨d, word, interest⟩] : List Watch).find? (·.descriptor == l) = none := by simp [Ne.symm hne]
      rw [List.find?_append, hother, Option.or_none]
      rfl

theorem hailed_rewatch (hne : l ≠ d) (word : UInt64) (interest : Interest) :
    Hailed l h (h.rewatch d word interest).1 := by
  have hspent : Hailed l h { h with refusals := h.refusals.changed d } := h.hailed_spent rfl
  unfold rewatch
  dsimp only
  split
  · exact hspent
  · exact hspent
  · split
    · exact hspent
    · exact hspent.trans (hailed_watches (find?_rewatched_ne hne ..) interest)

theorem hailed_unwatch (hne : l ≠ d) : Hailed l h (h.unwatch d).1 := by
  unfold unwatch
  split
  · exact .refl l h
  · split
    · exact .refl l h
    · exact ⟨[], hails_forget hne⟩

theorem hailed_readSignal (h : Host) (d : Descriptor) : Hailed l h (h.readSignal d).1 := by
  unfold readSignal
  split
  · dsimp only
    split
    · exact ⟨[], hails_of_devices rfl (Nat.le_refl _) rfl (List.Subset.refl _) rfl rfl⟩
    · exact .refl l h
  · exact .refl l h

end Host

/-! ## Requests to a table -/

theorem Notifier.hailed_register {n : Notifier} {l d : Descriptor} {waiting : List Arrival}
    (hl : n.host.device? l = some (.listener waiting)) (hne : l ≠ d) (token : Token) (interest : Interest) :
    Host.Hailed l n.host (n.register d token interest).state.host := by
  unfold Notifier.register
  split
  · exact .refl l _
  · dsimp only
    split <;> exact (Host.hailed_elapse hl).trans (Host.hailed_watch hne ..)

namespace Connections

variable {H : Type} {c c' : Connections H} {l : Descriptor} {key : Nat}

/-- a listener is there, and is not in the table -/
structure Clear (l : Descriptor) (c : Connections H) : Prop where
  listens : ∃ waiting, c.host.device? l = some (.listener waiting)
  apart : ∀ {key conn}, c.get? key = some conn → l ≠ conn.descriptor

theorem Sound.clear {fixed : List Watch} {batch : List Readiness} {waiting : List Arrival} (hc : c.Sound fixed batch)
    (hl : c.host.device? l = some (.listener waiting)) : c.Clear l where
  listens := ⟨waiting, hl⟩
  apart hg he := by
    obtain ⟨id, hd⟩ := hc.far hg
    rw [← he, hl] at hd
    cases hd

/-- a table with the same descriptors or fewer, over a host in which the listener was hailed -/
theorem Clear.hailed (hc : c.Clear l) (hh : Host.Hailed l c.host c'.host)
    (hs : ∀ {key conn}, c'.get? key = some conn → ∃ key old, c.get? key = some old ∧ conn.descriptor = old.descriptor) :
    Host.Hailed l c.host c'.host ∧ c'.Clear l := by
  obtain ⟨waiting, hl⟩ := hc.listens
  refine ⟨hh, hh.listens hl, fun hg => ?_⟩
  obtain ⟨key, old, hold, hd⟩ := hs hg
  exact hd ▸ hc.apart hold

theorem Clear.amends (hc : c.Clear l) {P : H → Prop} (ha : Amends P key c c') (hh : Host.Hailed l c.host c'.host) :
    Host.Hailed l c.host c'.host ∧ c'.Clear l := by
  refine hc.hailed hh fun {k conn} hg => ?_
  rcases ha with hs | ⟨old, changed, hold, hs, hd, -⟩
  · rw [get?, hs] at hg
    exact ⟨k, conn, hg, rfl⟩
  · rw [get?, hs, Slots.get?_set hold] at hg
    split at hg
    · cases hg
      exact ⟨key, old, hold, hd⟩
    · exact ⟨k, conn, hg, rfl⟩

theorem Clear.hailed_rearm (hc : c.Clear l) (key : Nat) (conn : Connection H) (hne : l ≠ conn.descriptor)
    (armed : Bool) : Host.Hailed l c.host (c.rearm key conn armed).state.host := by
  obtain ⟨waiting, hl⟩ := hc.listens
  have hcall : Host.Hailed l c.host (c.notifier.reregister conn.descriptor (.connection key)
      (if armed then writingInterest else idleInterest)).state.host := by
    unfold Notifier.reregister
    split
    · exact .refl l _
    · dsimp only
      split <;> exact (Host.hailed_elapse hl).trans (Host.hailed_rewatch hne ..)
  unfold rearm
  dsimp only
  split <;> exact hcall

theorem Clear.hailed_insert (hc : c.Clear l) {d : Descriptor} (hne : l ≠ d) (peer : Address) :
    Host.Hailed l c.host (c.insert d peer).state.host := by
  obtain ⟨waiting, hl⟩ := hc.listens
  have hwatched : Host.Hailed l c.host
      (c.notifier.register d (.connection c.slots.nextKey) idleInterest).state.host :=
    Notifier.hailed_register hl hne ..
  unfold Connections.insert
  dsimp only
  split
  · exact hwatched
  · obtain ⟨waiting', hl'⟩ := hwatched.listens hl
    have helapse := hwatched.trans (Host.hailed_elapse hl')
    exact helapse.trans (Host.hailed_close hne false)

theorem Clear.recv (hc : c.Clear l) (key : Nat) (handle : H) (count : Nat) :
    Host.Hailed l c.host (c.recv key handle count).state.host ∧ (c.recv key handle count).state.Clear l := by
  refine hc.amends (c.amends_recv key handle count) ?_
  obtain ⟨waiting, hl⟩ := hc.listens
  unfold Connections.recv
  split
  · exact .refl l _
  · dsimp only
    split <;> exact Host.hailed_recv hl ..

theorem Clear.send (hc : c.Clear l) (key : Nat) (handle : H) (bytes : Bytes) :
    Host.Hailed l c.host (c.send key handle bytes).state.host ∧ (c.send key handle bytes).state.Clear l := by
  refine hc.amends (c.amends_send key handle bytes) ?_
  obtain ⟨waiting, hl⟩ := hc.listens
  unfold Connections.send
  split
  · exact .refl l _
  · next conn hg =>
    have hne := hc.apart hg
    have hsent := Host.hailed_send hl conn.descriptor bytes
    dsimp only
    split
    · exact hsent
    · exact hsent
    · split
      · have hafter : (c.onHost fun _ => (Nonblocking.send c.notifier.host conn.descriptor bytes).1).Clear l :=
          ⟨hsent.listens hl, hc.apart⟩
        have harm := hafter.hailed_rearm key { conn with write := (conn.write.store handle).1 } hne true
        exact hsent.trans harm
      · exact hsent

theorem Clear.shutdown (hc : c.Clear l) (key : Nat) :
    Host.Hailed l c.host (c.shutdown key).1.host ∧ (c.shutdown key).1.Clear l := by
  obtain ⟨waiting, hl⟩ := hc.listens
  have hslots := c.shutdown_slots key
  refine hc.hailed ?_ fun {k conn} hg => ⟨k, conn, by rwa [get?, hslots] at hg, rfl⟩
  unfold Connections.shutdown
  split
  · exact .refl l _
  · exact (Host.hailed_elapse hl).trans ⟨[], Host.hails_finish ..⟩

theorem Clear.fire (hc : c.Clear l) (key : Nat) (r : Readiness) :
    Host.Hailed l c.host (c.fire key r).state.host ∧ (c.fire key r).state.Clear l := by
  refine hc.amends (c.amends_fire key r) ?_
  unfold Connections.fire
  split
  · exact .refl l _
  · next conn hg =>
    have hne := hc.apart hg
    dsimp only
    split
    · exact hc.hailed_rearm key (conn.resumed r) hne false
    · exact .refl l _

theorem Clear.remove (hc : c.Clear l) (key : Nat) :
    Host.Hailed l c.host (c.remove key).state.host ∧ (c.remove key).state.Clear l := by
  obtain ⟨waiting, hl⟩ := hc.listens
  refine hc.hailed ?_ fun {k conn} hg => ⟨k, conn, ?_, rfl⟩
  · unfold Connections.remove
    split
    · exact .refl l _
    · next conn hg =>
      have hne := hc.apart hg
      have hleft : Host.Hailed l c.host (c.notifier.deregister conn.descriptor).1.host := by
        unfold Notifier.deregister
        dsimp only
        split <;> exact (Host.hailed_elapse hl).trans (Host.hailed_unwatch hne)
      obtain ⟨waiting', hl'⟩ := hleft.listens hl
      have helapse := hleft.trans (Host.hailed_elapse hl')
      exact helapse.trans (Host.hailed_close hne false)
  · rw [get?, remove_slots, Slots.get?_erase] at hg
    split at hg
    · cases hg
    · exact hg

end Connections

/-! ## What the server does beside accepting -/

namespace Server

variable {X : Type} {s : Server X} {l : Descriptor}

theorem clear_prepare (hc : s.connections.Clear l) {limit : Nat} {w : Worked X} (hw : s.prepare limit = some w) :
    Host.Hailed l s.host w.server.host ∧ w.server.connections.Clear l := by
  simp only [prepare, Option.map_eq_some_iff] at hw
  obtain ⟨pumped, hp, rfl⟩ := hw
  exact pumpUpTo_keeps (P := fun c => Host.Hailed l s.host c.host ∧ c.Clear l)
    (fun key handle count h => (h.2.recv key handle count).imp_left h.1.trans)
    (fun key handle bytes h => (h.2.send key handle bytes).imp_left h.1.trans)
    (fun key h => (h.2.shutdown key).imp_left h.1.trans) (fun key h => (h.2.remove key).imp_left h.1.trans)
    ⟨.refl l s.host, hc⟩ hp

theorem clear_handle (hc : s.connections.Clear l) {r : Readiness} (hr : r.token ≠ .listener) :
    Host.Hailed l s.host (s.handle r).1.server.host ∧ (s.handle r).1.server.connections.Clear l := by
  unfold handle
  cases htoken : r.token with
  | listener => exact absurd htoken hr
  | signals =>
    obtain ⟨waiting, hl⟩ := hc.listens
    have hread : Host.Hailed l s.host (s.signals.read s.host).1 :=
      (Host.hailed_elapse hl).trans (Host.hailed_readSignal ..)
    have hafter : (s.onHost fun _ => (s.signals.read s.host).1).connections.Clear l := ⟨hread.listens hl, hc.apart⟩
    simp only [readSignal]
    split <;> exact ⟨hread, hafter⟩
  | connection key => exact hc.fire key r

end Server

end EventServer
