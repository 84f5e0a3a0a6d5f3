/-
Calls that would have to wait, on a far end. However often a signal cuts such a call short and whatever others do
meanwhile, the call disturbs nothing else (`undisturbed_recv`, `undisturbed_send`); and if it would have to wait,
nothing of the direction is there to be seen right after it (`quiet_receive`, `quiet_transmit`).
-/
import EventServer.Nonblocking
import EventServer.Proofs.Undisturbed
import EventServer.Journal.Note

namespace EventServer

/-- whether there is something to do in a direction, or trouble -/
def Conditions.calls (c : Conditions) : Direction → Bool
  | .read => c.input || c.error
  | .write => c.output || c.error

namespace Nonblocking

/-- a retried call is one call, from a state that tries lead to that were cut short -/
theorem retry_last {σ α : Type} {P : σ → Prop} (call : σ → σ × Except Errno α)
    (hc : ∀ s, P s → cutShort (call s).2 → P (call s).1) (limit : Nat) {s : σ} (hs : P s) :
    ∃ s', P s' ∧ retry call limit s = call s' := by
  induction limit generalizing s with
  | zero => exact ⟨s, hs, rfl⟩
  | succ limit ih =>
    unfold retry
    dsimp only
    split
    · next hcut => exact ih (hc s hs hcut)
    · exact ⟨s, hs, rfl⟩

/-- a retried call is one call, from a state that earlier tries lead to -/
theorem retry_spec {σ α : Type} {P : σ → Prop} (call : σ → σ × Except Errno α) (hc : ∀ s, P s → P (call s).1)
    (limit : Nat) {s : σ} (hs : P s) : ∃ s', P s' ∧ retry call limit s = call s' :=
  retry_last call (fun s hs _ => hc s hs) limit hs

end Nonblocking

theorem Outcome.wouldBlock_iff {α : Type} {result : Except Errno α} :
    Outcome.ofResult result = .wouldBlock ↔ ∃ code, result = .error code ∧ code.kind = .wouldBlock := by
  cases result with
  | ok value => simp [Outcome.ofResult]
  | error code =>
    simp only [Outcome.ofResult]
    split <;> simp_all

namespace Host

variable {h : Host} {α : Type}

/-- an operation at a far end: the conditions before it, its value, and the conditions after it -/
theorem onStream_far (hs : h.Sound) {d : Descriptor} {id : Nat} (hd : h.device? d = some (.stream id .far))
    (operation : Stream → Stirred α) (otherwise : α) :
    ∃ s : Stream, s.Sound ∧ h.conditions d = s.conditions .far ∧
      (h.onStream id operation otherwise).2 = (operation s).value ∧
      (h.onStream id operation otherwise).1.conditions d = (operation s).stream.conditions .far := by
  have hid := hs.known_of_device? hd
  obtain ⟨q, hq, -⟩ := stirEnds_eq { h with streams := h.streams.set id (operation h.streams[id]).stream } id
    (operation h.streams[id]).stirs
  refine ⟨h.streams[id], hs.streams _ (List.getElem_mem hid), ?_, ?_, ?_⟩
  · simp [conditions_far hd, hid]
  · simp [onStream, hid]
  · simp only [onStream, List.getElem?_eq_getElem hid, hq]
    rw [conditions_far (h := { h with streams := h.streams.set id (operation h.streams[id]).stream, queue := q }) hd]
    simp [List.getElem?_set_self hid]

/-- a call is made, or cut short by a signal that others sent -/
theorem recv_cases (h : Host) (d : Descriptor) (count : Nat) : h.recv d count = h.receive d count ∨
    ∃ n, h.recv d count = ({ h with interruptions := n }, .error .interrupted) := by
  unfold Host.recv interrupted?
  split
  · next he =>
    split at he
    · cases he
      exact .inr ⟨_, rfl⟩
    · cases he
  · exact .inl rfl

theorem send_cases (h : Host) (d : Descriptor) (bytes : Bytes) : h.send d bytes = h.transmit d bytes ∨
    ∃ n, h.send d bytes = ({ h with interruptions := n }, .error .interrupted) := by
  unfold Host.send interrupted?
  split
  · next he =>
    split at he
    · cases he
      exact .inr ⟨_, rfl⟩
    · cases he
  · exact .inl rfl

theorem undisturbed_recv (hs : h.Sound) (d : Descriptor) (count : Nat) : Undisturbed h (h.recv d count).1 := by
  rcases h.recv_cases d count with he | ⟨n, he⟩
  · exact he ▸ undisturbed_receive hs d count
  · exact he ▸ undisturbed_of_eq hs rfl rfl rfl rfl fun _ hq => hq

theorem undisturbed_send (hs : h.Sound) (d : Descriptor) (bytes : Bytes) : Undisturbed h (h.send d bytes).1 := by
  rcases h.send_cases d bytes with he | ⟨n, he⟩
  · exact he ▸ undisturbed_transmit hs d bytes
  · exact he ▸ undisturbed_of_eq hs rfl rfl rfl rfl fun _ hq => hq

/-- a read at a far end that would have to wait finds nothing there -/
theorem quiet_receive (hs : h.Sound) {d : Descriptor} {id : Nat} (hd : h.device? d = some (.stream id .far))
    {count : Nat} (hb : Outcome.ofResult (h.receive d count).2 = .wouldBlock) :
    ((h.receive d count).1.conditions d).calls .read = false := by
  obtain ⟨code, hr, hc⟩ := Outcome.wouldBlock_iff.1 hb
  simp only [receive, hd] at hr ⊢
  obtain ⟨s, hsound, -, hvalue, hafter⟩ := onStream_far hs hd (·.recv .far count) (.error .badDescriptor)
  obtain ⟨hsame, hquiet⟩ := Stream.quiet_of_recv hsound (hvalue.symm.trans hr) hc
  rw [hafter, hsame]
  simp [Conditions.calls, Stream.conditions, hquiet.input, hquiet.error]

/-- a read at a far end has to wait whenever nothing is there -/
theorem receive_of_quiet (hs : h.Sound) {d : Descriptor} {id : Nat} (hd : h.device? d = some (.stream id .far))
    (hq : (h.conditions d).calls .read = false) (count : Nat) :
    Outcome.ofResult (h.receive d count).2 = .wouldBlock := by
  obtain ⟨s, -, hbefore, hvalue, -⟩ := onStream_far hs hd (·.recv .far count) (.error .badDescriptor)
  obtain ⟨hi, he⟩ : s.readable .far = false ∧ (s.get .far).trouble.isSome = false := by
    simpa [hbefore, Conditions.calls, Stream.conditions] using hq
  simp only [receive, hd]
  rw [hvalue, Stream.recv_of_quiet ⟨hi, by simpa using he⟩]
  rfl

/-- a write at a far end that would have to wait finds no room there -/
theorem quiet_transmit (hs : h.Sound) {d : Descriptor} {id : Nat} (hd : h.device? d = some (.stream id .far))
    {bytes : Bytes} (hb : Outcome.ofResult (h.transmit d bytes).2 = .wouldBlock) :
    ((h.transmit d bytes).1.conditions d).calls .write = false := by
  obtain ⟨code, hr, hc⟩ := Outcome.wouldBlock_iff.1 hb
  simp only [transmit, hd] at hr ⊢
  obtain ⟨s, hsound, -, hvalue, hafter⟩ := onStream_far hs hd (·.send .far bytes) (.error .badDescriptor)
  obtain ⟨hsame, hquiet⟩ := Stream.quiet_of_send hsound (hvalue.symm.trans hr) hc
  rw [hafter, hsame]
  simp [Conditions.calls, Stream.conditions, hquiet.output, hquiet.error]

end Host

namespace Nonblocking

open Host

variable {h : Host}

/-- the last try of a read: where it starts, and that it is one -/
theorem recv_eq (hs : h.Sound) (d : Descriptor) (count : Nat) :
    ∃ h' : Host, Undisturbed h h' ∧ recv h d count = ((h'.recv d count).1, .ofResult (h'.recv d count).2) := by
  obtain ⟨s, hu, he⟩ := retry_spec (P := Undisturbed h) (fun h => h.elapse.recv d count)
    (fun s hu => hu.trans ((undisturbed_elapse hu.sound).trans
      (undisturbed_recv (undisturbed_elapse hu.sound).sound d count))) h.cuts (.refl hs)
  exact ⟨s.elapse, hu.trans (undisturbed_elapse hu.sound), by rw [recv, he]⟩

/-- the last try of a write: where it starts, and that it is one -/
theorem send_eq (hs : h.Sound) (d : Descriptor) (bytes : Bytes) :
    ∃ h' : Host, Undisturbed h h' ∧ send h d bytes = ((h'.send d bytes).1, .ofResult (h'.send d bytes).2) := by
  obtain ⟨s, hu, he⟩ := retry_spec (P := Undisturbed h) (fun h => h.elapse.send d bytes)
    (fun s hu => hu.trans ((undisturbed_elapse hu.sound).trans
      (undisturbed_send (undisturbed_elapse hu.sound).sound d bytes))) h.cuts (.refl hs)
  exact ⟨s.elapse, hu.trans (undisturbed_elapse hu.sound), by rw [send, he]⟩

/-- reading disturbs nothing, and a read that would have to wait finds nothing to read -/
theorem recv_spec (hs : h.Sound) {d : Descriptor} {id : Nat} (hd : h.device? d = some (.stream id .far))
    (count : Nat) : Undisturbed h (recv h d count).1 ∧
      ((recv h d count).2 = .wouldBlock → ((recv h d count).1.conditions d).calls .read = false) := by
  obtain ⟨h', hu, he⟩ := recv_eq hs d count
  have hd' := (hu.calm (by simp) hd).device.trans hd
  rw [he]
  refine ⟨hu.trans (undisturbed_recv hu.sound d count), fun hb => ?_⟩
  rcases h'.recv_cases d count with hr | ⟨n, hr⟩
  · rw [hr] at hb ⊢
    exact quiet_receive hu.sound hd' hb
  · rw [hr] at hb
    cases hb

/-- writing disturbs nothing, and a write that would have to wait finds no room -/
theorem send_spec (hs : h.Sound) {d : Descriptor} {id : Nat} (hd : h.device? d = some (.stream id .far))
    (bytes : Bytes) : Undisturbed h (send h d bytes).1 ∧
      ((send h d bytes).2 = .wouldBlock → ((send h d bytes).1.conditions d).calls .write = false) := by
  obtain ⟨h', hu, he⟩ := send_eq hs d bytes
  have hd' := (hu.calm (by simp) hd).device.trans hd
  rw [he]
  refine ⟨hu.trans (undisturbed_send hu.sound d bytes), fun hb => ?_⟩
  rcases h'.send_cases d bytes with hr | ⟨n, hr⟩
  · rw [hr] at hb ⊢
    exact quiet_transmit hu.sound hd' hb
  · rw [hr] at hb
    cases hb

/-- the ways an accept ends: no connection is taken, or one is taken and its calls may not wait, or that is refused and
the connection is closed -/
theorem accept_ways (h : Host) (listener : Descriptor) :
    let taken := h.elapse.accept listener
    (∃ code, taken.2 = .error code ∧ accept h listener = (taken.1, .ofResult (.error code))) ∨
    ∃ d peer, taken.2 = .ok (d, peer) ∧
      (((taken.1.elapse.unblock d).2 = .ok () ∧
          accept h listener = ((taken.1.elapse.unblock d).1, .done (d, peer))) ∨
        ∃ code, (taken.1.elapse.unblock d).2 = .error code ∧
          accept h listener = ((taken.1.elapse.unblock d).1.elapse.close d false, .failed (.system code))) := by
  dsimp only
  cases ht : (h.elapse.accept listener).2 with
  | error code => exact .inl ⟨code, rfl, by simp only [accept, ht]⟩
  | ok value =>
    obtain ⟨d, peer⟩ := value
    refine .inr ⟨d, peer, rfl, ?_⟩
    cases hu : ((h.elapse.accept listener).1.elapse.unblock d).2 with
    | ok _ => exact .inl ⟨rfl, by simp only [accept, ht, hu]⟩
    | error code => exact .inr ⟨code, rfl, by simp only [accept, ht, hu]⟩

/-- accepting disturbs nothing, and what was accepted is a far end that nobody watches -/
theorem accept_spec (hs : h.Sound) (listener : Descriptor) : Undisturbed h (accept h listener).1 ∧
    ∀ {d peer}, (accept h listener).2 = .done (d, peer) →
      (∃ id, (accept h listener).1.device? d = some (.stream id .far)) ∧ (accept h listener).1.watch? d = none := by
  have helapse := undisturbed_elapse hs
  obtain ⟨haccept, hnew⟩ := undisturbed_accept helapse.sound listener
  rcases accept_ways h listener with ⟨code, -, he⟩ | ⟨d, peer, hok, hways⟩
  · rw [he]
    refine ⟨helapse.trans haccept, fun hr => ?_⟩
    simp only [Outcome.ofResult] at hr
    split at hr <;> cases hr
  -- nobody had the descriptor, so nobody watched it
  obtain ⟨hfree, id, hfar⟩ := hnew hok
  have hlater := undisturbed_elapse haccept.sound
  have hunblock := hlater.trans (undisturbed_unblock hlater.sound d)
  have hfar' := (hunblock.calm (by simp) hfar).device.trans hfar
  rcases hways with ⟨-, he⟩ | ⟨code, -, he⟩
  · rw [he]
    refine ⟨helapse.trans (haccept.trans hunblock), fun hr => ?_⟩
    cases hr
    refine ⟨⟨id, hfar'⟩, ?_⟩
    rw [← helapse.sound.not_watched hfree, watch?, watch?]
    exact congrArg _ (haccept.trans hunblock).watches
  · have hlast := undisturbed_elapse hunblock.sound
    have hgone := (haccept.trans (hunblock.trans hlast)).close_new helapse.sound hfree
      ((hlast.calm (by simp) hfar').device.trans hfar') false
    rw [he]
    exact ⟨helapse.trans hgone, fun hr => by cases hr⟩

/-- no call on an accepted connection waits -/
theorem unblocked_of_accept {listener d : Descriptor} {peer : Address}
    (hdone : (accept h listener).2 = .done (d, peer)) : d ∈ (accept h listener).1.unblocked := by
  rcases accept_ways h listener with ⟨code, -, he⟩ | ⟨d', peer', -, ⟨hok, he⟩ | ⟨code, -, he⟩⟩
  · rw [he] at hdone
    simp only [Outcome.ofResult] at hdone
    split at hdone <;> cases hdone
  · rw [he] at hdone ⊢
    cases hdone
    unfold unblock at hok ⊢
    dsimp only at hok ⊢
    split at hok
    · cases hok
    · cases hok
    · exact List.mem_cons_self
  · rw [he] at hdone
    cases hdone

end Nonblocking

end EventServer
