/-
Bytes to come. `Host.inbound` is how many bytes the far ends of all streams can still be given to read: those that are
in their inboxes, and those that others are going to send. Nothing adds to it (`inbound_elapse`, `inbound_send`,
`inbound_shutdown`), and a read takes off it what it brings (`inbound_recv`), however often the call is made again and
whatever others do meanwhile. So a poll that is told of all bytes that are on their way (`inbound_le_unread`) is told
the truth.
-/
import EventServer.Proofs.Berth

namespace EventServer

/-- what is counted over a list is counted over its parts -/
theorem foldr_add_append {β : Type} (measure : β → Nat) (a b : List β) :
    (a ++ b).foldr (fun x count => measure x + count) 0 =
      a.foldr (fun x count => measure x + count) 0 + b.foldr (fun x count => measure x + count) 0 := by
  induction a with
  | nil => exact (Nat.zero_add _).symm
  | cons x rest ih => exact (congrArg (measure x + ·) ih).trans (Nat.add_assoc ..).symm

namespace Stream

variable (s : Stream) (side e : Side)

/-- a change of an end that leaves its inbox alone leaves what is to be read anywhere -/
theorem due_update {change : StreamEnd → StreamEnd} (h : ∀ x, (change x).inbox = x.inbox) :
    (s.update side change).due e = s.due e := by
  cases side <;> cases e <;> simp [due, update, get, h]

/-- a read brings no more to either end -/
theorem due_recv_le (count : Nat) : (s.recv side count).stream.due e ≤ s.due e := by
  rcases eq_or_eq_other e side with rfl | rfl
  · exact (s.due_recv e count).1
  · unfold recv
    dsimp only
    split
    · split
      · exact Nat.le_of_eq (s.due_update side _ fun _ => rfl)
      · exact Nat.le_refl _
    · simp [due]

theorem length_parcelsOf (limit load : Nat) (bytes : Bytes) :
    (parcelsOf limit load bytes).foldr (fun parcel count => parcel.bytes.length + count) 0 ≤ bytes.length := by
  induction limit generalizing load bytes with
  | zero => exact Nat.zero_le _
  | succ limit ih =>
    unfold parcelsOf
    split
    · exact Nat.zero_le _
    · have hrest := ih (load + Parcel.weightOf (bytes.take Parcel.limit).length) (bytes.drop Parcel.limit)
      simp only [List.foldr_cons, List.length_take, List.length_drop] at hrest ⊢
      omega

/-- a write brings its bytes to the other end, at most -/
theorem due_send_le (bytes : Bytes) : (s.send side bytes).stream.due e ≤ s.due e + bytes.length := by
  have hdeliver : (s.deliver side bytes).stream.due e ≤ s.due e + bytes.length := by
    unfold deliver
    dsimp only
    split
    · exact Nat.le_add_right ..
    · rcases eq_or_eq_other e side with rfl | rfl
      · simp [due]
      · have hparcels := length_parcelsOf (bytes.length / Parcel.limit + 1) (s.load side) bytes
        simp only [due, get_update, foldr_add_append fun parcel : Parcel => parcel.bytes.length]
        omega
  unfold send
  cases s.family <;> dsimp only
  · split
    · exact Nat.le_add_right ..
    · split
      · exact Nat.le_add_right ..
      · exact hdeliver
  · split
    · exact Nat.le_trans (Nat.le_of_eq (s.due_update side e fun _ => rfl)) (Nat.le_add_right ..)
    · split
      · exact Nat.le_add_right ..
      · split
        · exact Nat.le_add_right ..
        · split
          · exact Nat.le_trans (Nat.le_of_eq (s.due_update side e fun _ => rfl)) (Nat.le_add_right ..)
          · exact hdeliver

theorem due_finish_le : (s.finish side).stream.due e ≤ s.due e := by
  unfold finish
  split
  · exact Nat.le_refl _
  · exact Nat.le_of_eq (s.due_update side e fun _ => rfl)

/-- what was to be read at an end that is closed is lost -/
theorem due_close_le (abrupt : Bool) : (s.close side abrupt).stream.due e ≤ s.due e := by
  unfold close
  dsimp only
  rw [due_update _ side.other e fun x => by split <;> rfl]
  cases side <;> cases e <;> simp [due, update, get]

end Stream

namespace Host

variable {h : Host} {α : Type}

/-- how many bytes are to be read at the far ends of all streams -/
def due (h : Host) : Nat := h.streams.foldr (fun s count => s.due .far + count) 0

/-- how many bytes can come to the far ends of all streams -/
def inbound (h : Host) : Nat := h.due + h.ahead Deed.volume

/-- an operation on one stream that brings so much there at most brings no more in all -/
theorem sum_set_le {streams : List Stream} {i : Nat} {s s' : Stream} (hs : streams[i]? = some s) (brings gives : Nat)
    (hle : s'.due .far + gives ≤ s.due .far + brings) :
    (streams.set i s').foldr (fun s count => s.due .far + count) 0 + gives ≤
      streams.foldr (fun s count => s.due .far + count) 0 + brings := by
  induction streams generalizing i with
  | nil => cases hs
  | cons t rest ih =>
    cases i with
    | zero =>
      cases hs
      simp only [List.set_cons_zero, List.foldr_cons]
      omega
    | succ i =>
      have hrest := ih hs
      simp only [List.set_cons_succ, List.foldr_cons]
      omega

/-- what a step leaves of the deeds to come, and how much it brings to the far ends -/
structure Brings (count : Nat) (h h' : Host) : Prop where
  others : h'.others = h.others
  due : h'.due ≤ h.due + count

theorem Brings.refl (h : Host) : Brings 0 h h := ⟨rfl, Nat.le_refl _⟩

theorem Brings.trans {a b c : Host} {count count' : Nat} (h : Brings count a b) (h' : Brings count' b c) :
    Brings (count + count') a c := by
  have hfirst := h.due
  have hsecond := h'.due
  exact ⟨h'.others.trans h.others, by omega⟩

theorem brings_stir (h : Host) (d : Descriptor) (stir : Stir) : Brings 0 h (h.stir d stir) := by
  obtain ⟨q, hq, -⟩ := h.stir_eq d stir
  rw [hq]
  exact ⟨rfl, Nat.le_refl _⟩

theorem onStream_cases (h : Host) (i : Nat) (operation : Stream → Stirred α) (otherwise : α) :
    h.onStream i operation otherwise = (h, otherwise) ∨
      ∃ s q, h.streams[i]? = some s ∧ h.onStream i operation otherwise =
        ({ h with streams := h.streams.set i (operation s).stream, queue := q }, (operation s).value) := by
  unfold onStream
  cases hs : h.streams[i]? with
  | none => exact .inl rfl
  | some s =>
    obtain ⟨q, hq, -⟩ := stirEnds_eq { h with streams := h.streams.set i (operation s).stream } i (operation s).stirs
    exact .inr ⟨s, q, rfl, by simp only [hq]⟩

theorem brings_onStream (h : Host) (i : Nat) {operation : Stream → Stirred α} (otherwise : α) {count : Nat}
    (hop : ∀ s, (operation s).stream.due .far ≤ s.due .far + count) :
    Brings count h (h.onStream i operation otherwise).1 := by
  rcases h.onStream_cases i operation otherwise with he | ⟨s, q, hs, he⟩
  · rw [he]
    exact ⟨rfl, Nat.le_add_right ..⟩
  · rw [he]
    exact ⟨rfl, sum_set_le hs count 0 (hop s)⟩

theorem brings_receive (h : Host) (d : Descriptor) (count : Nat) : Brings 0 h (h.receive d count).1 := by
  unfold receive
  split
  · exact .refl h
  · exact h.brings_onStream _ _ fun s => s.due_recv_le _ .far count
  all_goals exact .refl h

theorem brings_transmit (h : Host) (d : Descriptor) (bytes : Bytes) :
    Brings bytes.length h (h.transmit d bytes).1 := by
  unfold transmit
  split
  · exact ⟨rfl, Nat.le_add_right ..⟩
  · exact h.brings_onStream _ _ fun s => s.due_send_le _ .far bytes
  all_goals exact ⟨rfl, Nat.le_add_right ..⟩

theorem brings_finish (h : Host) (d : Descriptor) : Brings 0 h (h.finish d).1 := by
  unfold finish
  split
  · exact .refl h
  · exact h.brings_onStream _ _ fun s => s.due_finish_le _ .far
  · exact h.brings_stir d .any
  · exact h.brings_stir d .any
  all_goals exact .refl h

/-! ## What others do -/

theorem brings_close_near (h : Host) {d : Descriptor} {i : Nat} (hd : h.device? d = some (.stream i .near))
    (abrupt : Bool) : Brings 0 h (h.close d abrupt) := by
  have hgone : Brings 0 h ((h.forget d).setDevice d none) := ⟨rfl, Nat.le_refl _⟩
  have hclose : ∀ s : Stream, (s.close .near abrupt).stream.due .far ≤ s.due .far + 0 := fun s =>
    s.due_close_le .near .far abrupt
  unfold close
  rw [hd]
  exact hgone.trans (brings_onStream _ i () hclose)

theorem brings_connect (h : Host) (listener : Descriptor) (self : Address) : Brings 0 h (h.connect listener self).1 := by
  unfold connect
  split
  · exact .refl h
  split
  · next backlog _ =>
    -- nothing is to be read in the new stream
    let opened := (({ h with streams := h.streams ++ [{ family := .inet }] } : Host).opened
      (.stream h.streams.length .near)).1
    have hnew : Brings 0 h (opened.setDevice listener (some (.listener (backlog ++ [⟨h.streams.length, self⟩])))) := by
      refine ⟨rfl, Nat.le_of_eq ?_⟩
      simp [opened, Host.due, Host.opened, Host.setDevice, Stream.due, Stream.get]
    exact hnew.trans (brings_stir _ listener .input)
  · exact .refl h

theorem brings_raise (h : Host) (number : Int) : Brings 0 h (h.raise number).1 := by
  have hfold : ∀ (sources : List (Option Device × Nat)) (h : Host),
      Brings 0 h (sources.foldl (fun h entry => h.stir entry.2 .input) h) := by
    intro sources
    induction sources with
    | nil => exact .refl
    | cons entry rest ih => exact fun h => (h.brings_stir entry.2 .input).trans (ih _)
  unfold raise
  split
  · let waiting := h.pending.filter fun n => !(calledOff number).contains n
    have hpending : Brings 0 h { h with pending := insertSignal number waiting } := ⟨rfl, Nat.le_refl _⟩
    exact hpending.trans (hfold _ _)
  · exact .refl h

/-- a deed brings its own bytes, at most -/
theorem brings_act (h : Host) (deed : Deed) : Brings deed.volume h (h.act deed) := by
  cases deed with
  | connect listener self => exact h.brings_connect listener self
  | send d bytes =>
    simp only [act]
    split
    · exact h.brings_transmit d bytes
    · exact ⟨rfl, Nat.le_add_right ..⟩
  | recv d count =>
    simp only [act]
    split
    · exact h.brings_receive d count
    · exact .refl h
  | finish d =>
    simp only [act]
    split
    · exact h.brings_finish d
    · exact .refl h
  | close d abrupt =>
    simp only [act]
    split
    · next hc =>
      obtain ⟨i, hd⟩ := device?_of_client? hc
      exact h.brings_close_near hd abrupt
    · exact .refl h
  | signal number => exact h.brings_raise number
  | interrupt => exact ⟨rfl, Nat.le_refl _⟩

theorem brings_acts (deeds : List Deed) (h : Host) :
    Brings (deeds.foldr (fun deed count => deed.volume + count) 0) h (deeds.foldl act h) := by
  induction deeds generalizing h with
  | nil => exact .refl h
  | cons deed rest ih => exact (h.brings_act deed).trans (ih _)

/-- a step that leaves the deeds to come adds to the bytes to come what it brings, at most -/
theorem Brings.inbound {h' : Host} {count : Nat} (hb : Brings count h h') : h'.inbound ≤ h.inbound + count := by
  have hdue := hb.due
  have hahead : h'.ahead Deed.volume = h.ahead Deed.volume := by rw [ahead, hb.others, ahead]
  unfold Host.inbound
  omega

/-- what others do before a call was to come -/
theorem inbound_elapse (h : Host) : h.elapse.inbound ≤ h.inbound := by
  have hacts := (brings_acts (h.others.headD []) { h with others := h.others.tail }).inbound
  have hrest : ({ h with others := h.others.tail } : Host).inbound +
      (h.others.headD []).foldr (fun deed count => deed.volume + count) 0 = h.inbound := by
    unfold inbound ahead
    cases h.others with
    | nil => rfl
    | cons deeds rest =>
      simp only [Host.due, List.tail_cons, List.headD_cons, List.flatten_cons, foldr_add_append Deed.volume]
      omega
  unfold elapse
  omega

/-- a read at a far end takes what it brings off what can come -/
theorem inbound_receive {d : Descriptor} {i : Nat} (hd : h.device? d = some (.stream i .far)) {count : Nat}
    {bytes : Bytes} (hr : (h.receive d count).2 = .ok bytes) :
    bytes.length + (h.receive d count).1.inbound ≤ h.inbound := by
  simp only [receive, hd] at hr ⊢
  rcases h.onStream_cases i (·.recv .far count) (.error .badDescriptor) with he | ⟨s, q, hs, he⟩
  · rw [he] at hr
    cases hr
  · rw [he] at hr ⊢
    have htaken := (s.due_recv .far count).2 bytes hr
    have hless : (s.recv .far count).stream.due .far + bytes.length ≤ s.due .far + 0 := by omega
    have hsum := sum_set_le hs 0 bytes.length hless
    have hahead : ({ h with streams := h.streams.set i (s.recv .far count).stream, queue := q } : Host).ahead
        Deed.volume = h.ahead Deed.volume := rfl
    simp only [inbound, Host.due, hahead] at hsum ⊢
    omega

/-- a write at a far end brings nothing to one -/
theorem brings_transmit_far {d : Descriptor} {i : Nat} (hd : h.device? d = some (.stream i .far)) (bytes : Bytes) :
    Brings 0 h (h.transmit d bytes).1 := by
  have hsend : ∀ s : Stream, (s.send .far bytes).stream.due .far ≤ s.due .far + 0 := fun s =>
    Nat.le_of_eq (s.due_send .far bytes)
  unfold transmit
  rw [hd]
  exact h.brings_onStream i (.error .badDescriptor) hsend

theorem brings_rewatch (h : Host) (d : Descriptor) (word : UInt64) (interest : Interest) :
    Brings 0 h (h.rewatch d word interest).1 := by
  unfold rewatch
  dsimp only
  split
  · exact ⟨rfl, Nat.le_refl _⟩
  · exact ⟨rfl, Nat.le_refl _⟩
  · split
    · exact ⟨rfl, Nat.le_refl _⟩
    · dsimp only
      split
      · unfold enqueue
        split <;> exact ⟨rfl, Nat.le_refl _⟩
      · exact ⟨rfl, Nat.le_refl _⟩

/-- a poll is told of all bytes that can come -/
theorem inbound_le_unread (h : Host) : h.inbound ≤ h.unread := by
  have hsum : h.due ≤ h.streams.foldr (fun s count => s.unread + count) 0 := by
    unfold Host.due
    induction h.streams with
    | nil => exact Nat.le_refl _
    | cons s rest ih =>
      have hfirst := s.due_le_unread
      simp only [List.foldr_cons]
      omega
  exact Nat.add_le_add_right hsum _

end Host

/-! ## Calls that never wait -/

namespace Nonblocking

open Host

variable {h : Host} {d : Descriptor} {i : Nat}

/-- a read takes what it brings off what can come, and nothing adds to that -/
theorem inbound_recv (hs : h.Sound) (hd : h.device? d = some (.stream i .far)) (count : Nat) :
    (recv h d count).1.inbound ≤ h.inbound ∧
      ∀ bytes, (recv h d count).2 = .done bytes → bytes.length + (recv h d count).1.inbound ≤ h.inbound := by
  obtain ⟨last, ⟨hu, hlast⟩, he⟩ := retry_spec (P := fun s => Undisturbed h s ∧ s.inbound ≤ h.inbound)
    (fun h => h.elapse.recv d count) (fun s ⟨hu, hle⟩ => by
      have helapse := undisturbed_elapse hu.sound
      refine ⟨hu.trans (helapse.trans (undisturbed_recv helapse.sound d count)), ?_⟩
      have hbefore := s.inbound_elapse
      rcases s.elapse.recv_cases d count with hr | ⟨n, hr⟩
      · have hafter := (s.elapse.brings_receive d count).inbound
        rw [hr]
        omega
      · rw [hr]
        exact Nat.le_trans hbefore hle) h.cuts ⟨Undisturbed.refl hs, Nat.le_refl _⟩
  have helapse := undisturbed_elapse hu.sound
  have hd' : last.elapse.device? d = some (.stream i .far) :=
    ((hu.trans helapse).calm (by simp) hd).device.trans hd
  have hbefore := last.inbound_elapse
  rw [recv, he]
  dsimp only
  rcases last.elapse.recv_cases d count with hr | ⟨n, hr⟩
  · have hafter := (last.elapse.brings_receive d count).inbound
    rw [hr]
    refine ⟨by omega, fun bytes hdone => ?_⟩
    cases hv : (last.elapse.receive d count).2 with
    | ok read =>
      rw [hv] at hdone
      cases hdone
      have htaken := inbound_receive hd' hv
      omega
    | error code =>
      rw [hv] at hdone
      rcases Outcome.ofResult_error (α := Bytes) code with ho | ⟨fault, ho⟩ <;> simp [ho] at hdone
  · rw [hr]
    refine ⟨Nat.le_trans hbefore hlast, fun bytes hdone => ?_⟩
    cases hdone

/-- a write adds nothing to what can come -/
theorem inbound_send (hs : h.Sound) (hd : h.device? d = some (.stream i .far)) (bytes : Bytes) :
    (send h d bytes).1.inbound ≤ h.inbound := by
  have htry : ∀ s : Host, Undisturbed h s → (s.elapse.send d bytes).1.inbound ≤ s.inbound := fun s hu => by
    have helapse := undisturbed_elapse hu.sound
    have hd' : s.elapse.device? d = some (.stream i .far) :=
      ((hu.trans helapse).calm (by simp) hd).device.trans hd
    have hbefore := s.inbound_elapse
    rcases s.elapse.send_cases d bytes with hr | ⟨n, hr⟩
    · have hafter := (brings_transmit_far hd' bytes).inbound
      rw [hr]
      omega
    · rw [hr]
      exact hbefore
  obtain ⟨last, ⟨hu, hlast⟩, he⟩ := retry_spec (P := fun s => Undisturbed h s ∧ s.inbound ≤ h.inbound)
    (fun h => h.elapse.send d bytes) (fun s ⟨hu, hle⟩ => by
      have helapse := undisturbed_elapse hu.sound
      exact ⟨hu.trans (helapse.trans (undisturbed_send helapse.sound d bytes)), Nat.le_trans (htry s hu) hle⟩)
    h.cuts ⟨Undisturbed.refl hs, Nat.le_refl _⟩
  rw [send, he]
  exact Nat.le_trans (htry last hu) hlast

end Nonblocking

/-! ## Calls on a connection -/

namespace Connections

variable {H : Type} {c : Connections H} {fixed : List Watch} {batch : List Readiness}

theorem inbound_recv (hc : c.Sound fixed batch) (key : Nat) (handle : H) (count : Nat) :
    Http.brought (c.recv key handle count).value + (c.recv key handle count).state.host.inbound ≤ c.host.inbound := by
  unfold recv
  cases hg : c.get? key with
  | none => exact Nat.le_of_eq (Nat.zero_add _)
  | some conn =>
    obtain ⟨i, hd⟩ := hc.far hg
    obtain ⟨hle, hdone⟩ := Nonblocking.inbound_recv hc.host hd count
    have hnone : 0 + (Nonblocking.recv c.host conn.descriptor count).1.inbound ≤ c.host.inbound := by omega
    dsimp only
    split
    · next bytes hr => exact hdone bytes hr
    · exact hnone
    · exact hnone

theorem inbound_rearm (c : Connections H) (key : Nat) (conn : Connection H) (armed : Bool) :
    (c.rearm key conn armed).state.host.inbound ≤ c.host.inbound := by
  have hrewatch : ∀ interest, (c.notifier.reregister conn.descriptor (.connection key) interest).state.host.inbound ≤
      c.host.inbound := fun interest => by
    unfold Notifier.reregister
    split
    · exact Nat.le_refl _
    · next word _ =>
      have hbefore := c.host.inbound_elapse
      have hafter := (c.host.elapse.brings_rewatch conn.descriptor word interest).inbound
      have hboth : (c.host.elapse.rewatch conn.descriptor word interest).1.inbound ≤ c.host.inbound := by omega
      dsimp only
      split <;> exact hboth
  unfold rearm
  dsimp only
  split <;> exact hrewatch _

theorem inbound_send (hc : c.Sound fixed batch) (key : Nat) (handle : H) (bytes : Bytes) :
    (c.send key handle bytes).state.host.inbound ≤ c.host.inbound := by
  unfold send
  cases hg : c.get? key with
  | none => exact Nat.le_refl _
  | some conn =>
    obtain ⟨i, hd⟩ := hc.far hg
    have hsent := Nonblocking.inbound_send hc.host hd bytes
    dsimp only
    split
    · exact hsent
    · exact hsent
    · dsimp only
      split
      · exact Nat.le_trans (inbound_rearm _ key _ true) hsent
      · exact hsent

theorem inbound_shutdown (c : Connections H) (key : Nat) : (c.shutdown key).1.host.inbound ≤ c.host.inbound := by
  unfold shutdown
  cases c.get? key with
  | none => exact Nat.le_refl _
  | some conn =>
    have hbefore := c.host.inbound_elapse
    have hafter := (c.host.elapse.brings_finish conn.descriptor).inbound
    exact Nat.le_trans hafter hbefore

end Connections

end EventServer
