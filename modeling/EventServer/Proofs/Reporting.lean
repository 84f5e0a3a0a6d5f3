/-
What a wait reports. Beside a notifier a record is kept of what each descriptor was last registered or registered anew
with, by the requests that were granted (`noted`, `latest`). Every watch is what the record has of its descriptor
(`Recorded`): a request that is refused leaves both alone, a registration finds no watch of the descriptor, and closing
only takes watches away (`Recorded.after`), so it holds after any requests (`Recorded.foldl`).

A wait reports watches, so the record says what it reports, and a queue that holds nothing twice makes no two reports on
one descriptor. What it does not come to stays to be delivered, and so does everything when it is cut short
(`Recorded.truthful`). The word of a token leads back to the token alone, and the conditions that are reported are those
that the interest's number has among its flags (`wait_tells_registrations`).
-/
import EventServer.Proofs.Conduct
import EventServer.Proofs.Ledger
import EventServer.Proofs.Waiting
import Mathlib.Data.List.Forall2

namespace EventServer

/-- the host's number for conditions -/
def Conditions.flags (c : Conditions) : Nat :=
  (if c.input then 1 else 0) + (if c.output then 4 else 0) + (if c.error then 8 else 0) + (if c.hangup then 16 else 0)

namespace Token

/-- no two tokens have one word -/
theorem word?_injective {a b : Token} {word : UInt64} (ha : a.word? = some word) (hb : b.word? = some word) :
    a = b := by
  rw [← ofWord_word? ha, ofWord_word? hb]

end Token

namespace Host

variable {h : Host}

/-- what is visible under an interest are the conditions that its number has a flag for -/
theorem flags_visible (interest : Interest) (c : Conditions) :
    (visible interest c).flags = c.flags &&& interest.mask := by
  obtain ⟨read, write, edge⟩ := interest
  obtain ⟨input, output, error, hangup⟩ := c
  cases read <;> cases write <;> cases edge <;> cases input <;> cases output <;> cases error <;> cases hangup <;> rfl

/-- what is to be delivered is queued, watched and to be seen -/
theorem of_mem_undelivered (honce : (h.watches.map (·.descriptor)).Nodup) {report : Watch × Conditions}
    (hm : report ∈ h.undelivered) : report.1.descriptor ∈ h.queue ∧ h.watch? report.1.descriptor = some report.1 ∧
      report.2 = visible report.1.interest (h.conditions report.1.descriptor) ∧ report.2.none = false := by
  obtain ⟨hwatch, hshown⟩ := mem_harvest hm
  have hqueued := (h.sublist_harvest h.queue.length h.queue).2.subset (List.mem_map_of_mem hm)
  exact ⟨hqueued, watch?_of_mem honce hwatch, hshown, shown_of_harvest hm⟩

/-- what is to be delivered is reported by a wait, or the wait does not come to it -/
theorem reported_or_left (honce : (h.watches.map (·.descriptor)).Nodup) {report : Watch × Conditions}
    (hm : report ∈ h.undelivered) (capacity : Nat) :
    report ∈ (h.harvest capacity h.queue).reports ∨ report.1.descriptor ∈ (h.harvest capacity h.queue).left := by
  obtain ⟨w, c⟩ := report
  obtain ⟨hqueued, hwatch, hshown, hsome⟩ := of_mem_undelivered honce hm
  dsimp only at hshown hsome hqueued hwatch
  rw [hshown] at hsome ⊢
  exact (harvest_spec hwatch hsome capacity hqueued).symm

/-- a wait that finds nothing leaves nothing to be delivered, and nothing was -/
theorem undelivered_of_found_none (honce : (h.watches.map (·.descriptor)).Nodup) {capacity : Nat} (hc : 0 < capacity)
    (hr : (h.harvest capacity h.queue).reports = []) : h.undelivered = [] := by
  refine List.eq_nil_iff_forall_not_mem.2 fun report hm => ?_
  rcases reported_or_left honce hm capacity with hreported | hleft
  · rw [hr] at hreported
    cases hreported
  · have hnone := (List.append_eq_nil_iff.1 (harvest_quiet hc hr)).1
    rw [hnone] at hleft
    cases hleft

/-- all that a wait changes are the queue and the interruptions -/
theorem wait_eq (h : Host) (capacity : Nat) : ∃ interruptions, (h.wait capacity).1 = { h with
    queue := (h.harvest capacity h.queue).left ++ (h.harvest capacity h.queue).again
    interruptions } := by
  unfold wait interrupted?
  dsimp only
  by_cases he : (h.harvest capacity h.queue).reports.isEmpty
  · rw [if_pos he]
    by_cases hi : h.interruptions > 0
    · simp only [hi, if_true]
      exact ⟨_, rfl⟩
    · simp only [hi, if_false]
      exact ⟨_, rfl⟩
  · rw [if_neg he]
    exact ⟨_, rfl⟩

theorem watches_wait (h : Host) (capacity : Nat) : (h.wait capacity).1.watches = h.watches := by
  obtain ⟨interruptions, he⟩ := h.wait_eq capacity
  rw [he]

/-- a wait queues nothing that was not queued, nor twice what was queued once -/
theorem nodup_wait (capacity : Nat) (hq : h.queue.Nodup) : (h.wait capacity).1.queue.Nodup := by
  obtain ⟨interruptions, he⟩ := h.wait_eq capacity
  rw [he]
  exact List.perm_append_comm.nodup_iff.1 (hq.sublist (h.sublist_harvest capacity h.queue).1)

/-- a wait is cut short only if it found nothing -/
theorem found_of_interrupted {capacity : Nat} (hi : (h.wait capacity).2 = .interrupted) :
    (h.harvest capacity h.queue).reports = [] := by
  unfold wait at hi
  dsimp only at hi
  split at hi
  · next he => exact List.isEmpty_iff.1 he
  · cases hi

end Host

namespace Notifier

variable {n : Notifier}

/-! ## The record -/

/-- what descriptors were last registered or registered anew with -/
abbrev Record := Descriptor → Option (Token × Interest)

namespace Request

/-- what a request is to enter for which descriptor -/
def entry? : Request → Option (Descriptor × Token × Interest)
  | register d token interest | reregister d token interest => some (d, token, interest)
  | deregister _ | close .. | call .. => none

/-- a request queues nothing twice, if nothing was; of calls that leave the watch to itself this is to be said -/
def QueuesOnce : Request → Prop
  | call change _ => ∀ h : Host, h.queue.Nodup → (change h).queue.Nodup
  | register .. | reregister .. | deregister _ | close .. => True

/-- a wait, as one of the calls that leave the watch to itself -/
def wait (capacity : Nat) : Request := .call (fun h => (h.wait capacity).1) (·.watches_wait capacity)

/-- a call that is tame queues nothing twice, and the calls on streams are -/
theorem queuesOnce_of_tame {change : Host → Host} {cuts : Nat} (ht : ∀ h, Host.Tame cuts h (change h))
    (keeps : ∀ h, (change h).watches = h.watches) : (call change keeps).QueuesOnce := fun h hq => (ht h).queue hq

/-- a write, as one of the calls that leave the watch to itself -/
def transmit (d : Descriptor) (bytes : Bytes) : Request :=
  .call (fun h => (h.transmit d bytes).1) fun h => (h.steady_transmit d bytes).watches

theorem queuesOnce_wait (capacity : Nat) : (wait capacity).QueuesOnce := fun _ hq => Host.nodup_wait capacity hq

end Request

/-- the record after a request: if it was granted, what it was to enter is the last for its descriptor -/
def noted (n : Notifier) (record : Record) (request : Request) : Record :=
  match request.entry?, n.answer request with
  | some (d, entry), .ok () => fun x => if x = d then some entry else record x
  | _, _ => record

/-- the record after requests -/
def latest (n : Notifier) (record : Record) : List Request → Record
  | [] => record
  | request :: rest => (n.after request).latest (n.noted record request) rest

variable {record : Record} {request : Request}

/-- a wait leaves the notifier that it leaves as a request -/
theorem after_wait (n : Notifier) (events : Events) : n.after (.wait events.capacity) = (n.wait events).state := by
  unfold wait
  dsimp only
  split <;> rfl

theorem noted_refused {fault : WatchFault} (ha : n.answer request = .error fault) :
    n.noted record request = record := by
  unfold noted
  rw [ha]
  split <;> simp_all

theorem noted_granted {d : Descriptor} {entry : Token × Interest} (he : request.entry? = some (d, entry))
    (ha : n.answer request = .ok ()) (x : Descriptor) :
    n.noted record request x = if x = d then some entry else record x := by
  rw [noted, he, ha]

theorem noted_other (he : request.entry? = none) : n.noted record request = record := by
  rw [noted, he]

/-- every watch is what the record has of its descriptor, no descriptor is watched twice, and none is queued twice -/
structure Recorded (n : Notifier) (record : Record) : Prop where
  balanced : ∃ vanished, n.Balanced vanished
  queue : n.host.queue.Nodup
  entries : ∀ w ∈ n.host.watches, ∃ token, token.word? = some w.word ∧ record w.descriptor = some (token, w.interest)

theorem Recorded.once (hr : n.Recorded record) : (n.host.watches.map (·.descriptor)).Nodup :=
  hr.balanced.elim fun _ hb => hb.once

/-- what closings leave of the watch is what the record has -/
theorem Recorded.kept (hr : n.Recorded record) (gone : List Descriptor) :
    ∀ w ∈ Host.without n.host.watches gone,
      ∃ token, token.word? = some w.word ∧ record w.descriptor = some (token, w.interest) :=
  fun w hw => hr.entries w (List.mem_filter.1 hw).1

theorem queue_after (hq : n.host.queue.Nodup) (ho : request.QueuesOnce) : (n.after request).host.queue.Nodup := by
  have helapsed := n.host.elapse_conduct.2.2 hq
  cases request with
  | register d token interest =>
    simp only [Notifier.after, register]
    cases token.word? with
    | none => exact hq
    | some word =>
      have hwatch := (n.host.elapse.tame_watch d word interest).queue helapsed
      dsimp only
      split <;> exact hwatch
  | reregister d token interest =>
    simp only [Notifier.after, reregister]
    cases token.word? with
    | none => exact hq
    | some word =>
      have hrewatch := (n.host.elapse.tame_rewatch d word interest).queue helapsed
      dsimp only
      split <;> exact hrewatch
  | deregister d =>
    have hunwatch := (n.host.elapse.tame_unwatch d).queue helapsed
    simp only [Notifier.after, deregister]
    split <;> exact hunwatch
  | close d abrupt => exact (n.host.elapse.tame_close d abrupt).queue helapsed
  | call change keeps => exact ho n.host.elapse helapsed

theorem Refuses.entries {fault : WatchFault} (hr : n.Recorded record) (hf : n.Refuses request fault) :
    ∀ w ∈ (n.after request).host.watches,
      ∃ token, token.word? = some w.word ∧ n.noted record request w.descriptor = some (token, w.interest) := by
  rw [hf.watches, noted_refused hf.answer]
  exact hr.kept _

/-- a request leaves every watch what the record has of its descriptor -/
theorem Recorded.entries_after (hr : n.Recorded record) (request : Request) :
    ∀ w ∈ (n.after request).host.watches,
      ∃ token, token.word? = some w.word ∧ n.noted record request w.descriptor = some (token, w.interest) := by
  cases request with
  | register d token interest =>
    cases hword : token.word? with
    | none => exact (refuses_slotTooLarge rfl hword).entries hr
    | some word =>
      rcases n.register_outcome d hword interest with ⟨code, hf⟩ | ⟨hg, hfresh⟩
      · exact hf.entries hr
      · -- the descriptor's watch is the new one, for it had none
        intro w hw
        rw [hg.watches] at hw
        simp only [Request.effect, hword, Option.map_some, Option.toList_some] at hw
        rw [noted_granted rfl hg.answer]
        rcases List.mem_append.1 hw with hold | hnew
        · have hne : w.descriptor ≠ d := fun he => hfresh (he ▸ List.mem_map_of_mem hold)
          rw [if_neg hne]
          exact hr.kept _ w hold
        · rw [List.mem_singleton.1 hnew, if_pos rfl]
          exact ⟨token, hword, rfl⟩
  | reregister d token interest =>
    cases hword : token.word? with
    | none => exact (refuses_slotTooLarge rfl hword).entries hr
    | some word =>
      rcases n.reregister_outcome d hword interest with ⟨code, hf⟩ | hg
      · exact hf.entries hr
      · intro w hw
        rw [hg.watches] at hw
        simp only [Request.effect, hword, Option.map_some, Option.getD_some] at hw
        rw [noted_granted rfl hg.answer]
        obtain ⟨old, hold, rfl⟩ := List.mem_map.1 hw
        by_cases he : old.descriptor = d
        · simp only [he, beq_self_eq_true, if_true]
          exact ⟨token, hword, rfl⟩
        · simp only [beq_eq_false_iff_ne.2 he, Bool.false_eq_true, if_false, if_neg he]
          exact hr.kept _ old hold
  | deregister d =>
    rcases n.deregister_outcome d with ⟨code, hf⟩ | ⟨hg, -⟩
    · exact hf.entries hr
    · intro w hw
      rw [hg.watches] at hw
      rw [noted_other rfl]
      exact hr.kept _ w (List.mem_filter.1 hw).1
  | close d abrupt =>
    rw [(n.close_outcome d abrupt).watches, noted_other rfl]
    exact hr.kept _
  | call change keeps =>
    rw [(n.call_outcome change keeps).watches, noted_other rfl]
    exact hr.kept _

theorem Recorded.after (hr : n.Recorded record) (ho : request.QueuesOnce) :
    (n.after request).Recorded (n.noted record request) where
  balanced := hr.balanced.elim fun _ hb => ⟨_, hb.after request⟩
  queue := queue_after hr.queue ho
  entries := hr.entries_after request

theorem Recorded.foldl (hr : n.Recorded record) {requests : List Request}
    (ho : ∀ request ∈ requests, request.QueuesOnce) :
    (requests.foldl Notifier.after n).Recorded (n.latest record requests) := by
  induction requests generalizing n record with
  | nil => exact hr
  | cons request rest ih =>
    obtain ⟨hfirst, hrest⟩ := List.forall_mem_cons.1 ho
    exact ih (hr.after hfirst) hrest

/-! ## A wait -/

/-- a report names the token that a descriptor was last brought under, and says of the conditions that hold on it those
that there is interest in, and whatever the interest whether there is trouble -/
def Describes (h : Host) (record : Record) (d : Descriptor) (r : Readiness) : Prop :=
  ∃ interest, record d = some (r.token, interest) ∧
    r.readable = (interest.read && (h.conditions d).input) ∧
    r.writable = (interest.write && (h.conditions d).output) ∧
    r.closed = ((h.conditions d).error || (h.conditions d).hangup)

/-- what the next wait with a buffer will come to, by the record -/
structure Truthful (n : Notifier) (record : Record) (events : Events) : Prop where
  /-- no more is reported than the buffer holds, which is as large as it was -/
  bounded : ∀ filled ∈ (n.wait events).value, filled.size ≤ events.capacity ∧ filled.capacity = events.capacity
  /-- one by one the same can be read as all together, and nothing beyond -/
  readable : ∀ filled ∈ (n.wait events).value, ∀ index,
    filled.get? index = filled.toList[index]? ∧ ((filled.get? index).isSome ↔ index < filled.size)
  /-- the reports are about one descriptor each, and true of it -/
  described : ∀ filled ∈ (n.wait events).value,
    ∃ ds : List Descriptor, ds.Nodup ∧ List.Forall₂ (Describes n.host.elapse record) ds filled.toList
  /-- what is to be delivered is reported or stays to be delivered -/
  delivered : ∀ report ∈ n.host.elapse.undelivered,
    (∃ filled ∈ (n.wait events).value, Readiness.ofReport report.1.word report.2 ∈ filled.toList) ∨
      report ∈ (n.wait events).state.host.undelivered
  /-- a wait ends with a report if there is anything to be delivered -/
  ends : n.host.elapse.undelivered ≠ [] → ∃ filled ∈ (n.wait events).value, 0 < filled.size
  /-- a wait that is cut short leaves an empty buffer and all that is to be delivered -/
  interrupted : (n.host.elapse.wait events.capacity).2 = .interrupted →
    (∃ filled ∈ (n.wait events).value, filled.size = 0 ∧ filled.toList = []) ∧
      (n.wait events).notes = [.waitInterrupted] ∧
      (n.wait events).state.host.undelivered = n.host.elapse.undelivered

/-- a wait that ends fills the buffer with what it found -/
theorem filled_of_wait {events filled : Events} (hv : filled ∈ (n.wait events).value) :
    filled.toList = told (n.found events.capacity).reports ∧ filled.capacity = events.capacity := by
  constructor
  · obtain ⟨-, ⟨hnone, -⟩ | ⟨filled', hsome, htold⟩⟩ := n.wait_spec events
    · cases hnone.symm.trans hv
    · cases hsome.symm.trans hv
      exact htold
  · unfold Notifier.wait at hv
    dsimp only at hv
    split at hv <;> cases hv <;> rfl

/-- a wait that found anything ends -/
theorem ends_of_found {events : Events} (hr : (n.found events.capacity).reports ≠ []) :
    ∃ filled ∈ (n.wait events).value, filled.toList = told (n.found events.capacity).reports := by
  obtain ⟨-, ⟨-, hnone⟩ | ⟨filled, hsome, htold⟩⟩ := n.wait_spec events
  · exact absurd hnone hr
  · exact ⟨filled, hsome, htold⟩

/-- no descriptor is watched twice when a wait begins -/
theorem Recorded.once_elapsed (hr : n.Recorded record) : (n.host.elapse.watches.map (·.descriptor)).Nodup :=
  n.host.drops_elapse.nodup hr.once

/-- a report of a wait is true of the descriptor that it is about -/
theorem Recorded.describes (hr : n.Recorded record) {report : Watch × Conditions} {capacity : Nat}
    (hm : report ∈ (n.found capacity).reports) :
    Describes n.host.elapse record report.1.descriptor (Readiness.ofReport report.1.word report.2) := by
  obtain ⟨hwatch, hshown⟩ := Host.mem_harvest hm
  rw [n.host.drops_elapse.watches] at hwatch
  obtain ⟨token, hword, hrecord⟩ := hr.kept _ report.1 hwatch
  refine ⟨report.1.interest, ?_, ?_, ?_, ?_⟩
  · rw [hrecord, Readiness.ofReport, Token.ofWord_word? hword]
  all_goals rw [Readiness.ofReport, hshown]; rfl

theorem Recorded.described (hr : n.Recorded record) (capacity : Nat) :
    ∃ ds : List Descriptor, ds.Nodup ∧
      List.Forall₂ (Describes n.host.elapse record) ds (told (n.found capacity).reports) := by
  refine ⟨(n.found capacity).reports.map (·.1.descriptor), ?_, ?_⟩
  · have hqueue := n.host.elapse_conduct.2.2 hr.queue
    exact hqueue.sublist (n.host.elapse.sublist_harvest capacity n.host.elapse.queue).2
  · rw [told, List.forall₂_map_left_iff, List.forall₂_map_right_iff, List.forall₂_same]
    exact fun _ hm => hr.describes hm

/-- what a wait does not come to stays to be delivered -/
theorem undelivered_of_left {report : Watch × Conditions} {events : Events}
    (honce : (n.host.elapse.watches.map (·.descriptor)).Nodup) (hm : report ∈ n.host.elapse.undelivered)
    (hleft : report.1.descriptor ∈ (n.found events.capacity).left) :
    report ∈ (n.wait events).state.host.undelivered := by
  obtain ⟨w, c⟩ := report
  obtain ⟨-, hwatch, hshown, hsome⟩ := Host.of_mem_undelivered honce hm
  dsimp only at hwatch hshown hsome hleft
  obtain ⟨⟨interruptions, hstate⟩, -⟩ := n.wait_spec events
  rw [hshown] at hsome ⊢
  rw [hstate]
  exact Host.mem_undelivered (List.mem_append_left _ hleft) hwatch hsome

/-- a wait that found nothing leaves nothing to be delivered -/
theorem undelivered_of_none {events : Events} (hr : (n.found events.capacity).reports = []) :
    (n.wait events).state.host.undelivered = [] := by
  obtain ⟨⟨interruptions, hstate⟩, -⟩ := n.wait_spec events
  have hquiet : (n.found events.capacity).left ++ (n.found events.capacity).again = [] :=
    Host.harvest_quiet events.room hr
  rw [hstate, hquiet, Host.undelivered]
  unfold Host.harvest
  rfl

theorem Recorded.truthful (hr : n.Recorded record) (events : Events) : n.Truthful record events where
  bounded filled hv := by
    obtain ⟨htold, hcapacity⟩ := filled_of_wait hv
    refine ⟨?_, hcapacity⟩
    rw [← Events.length_toList, htold, told, List.length_map]
    exact n.host.elapse.length_harvest events.capacity n.host.elapse.queue
  readable filled _ index := ⟨filled.get?_eq index, Events.isSome_get?_iff⟩
  described filled hv := by
    rw [(filled_of_wait hv).1]
    exact hr.described events.capacity
  delivered report hm := by
    rcases Host.reported_or_left hr.once_elapsed hm events.capacity with hreported | hleft
    · obtain ⟨filled, hv, htold⟩ := ends_of_found (List.ne_nil_of_mem hreported)
      exact .inl ⟨filled, hv, htold ▸ List.mem_map_of_mem hreported⟩
    · exact .inr (undelivered_of_left hr.once_elapsed hm hleft)
  ends hpending := by
    have hfound : (n.found events.capacity).reports ≠ [] := fun hnone =>
      hpending (Host.undelivered_of_found_none hr.once_elapsed events.room hnone)
    obtain ⟨filled, hv, htold⟩ := ends_of_found hfound
    refine ⟨filled, hv, ?_⟩
    rw [← Events.length_toList, htold, told, List.length_map]
    exact List.length_pos_of_ne_nil hfound
  interrupted hcut := by
    have hnone : (n.found events.capacity).reports = [] := Host.found_of_interrupted hcut
    have hwait : (n.wait events).value = some (events.fill []) ∧ (n.wait events).notes = [.waitInterrupted] := by
      unfold Notifier.wait
      dsimp only
      rw [hcut]
      exact ⟨rfl, rfl⟩
    refine ⟨⟨_, hwait.1, Nat.zero_min _, ?_⟩, hwait.2, ?_⟩
    · rw [Events.toList, Events.written_fill, List.take_nil, List.map_nil]
    · rw [undelivered_of_none hnone, Host.undelivered_of_found_none hr.once_elapsed events.room hnone]

/-- **a wait reports what was registered.** A notifier was made over a host that watches nothing yet, and any requests
were made of it, waits among them, on any descriptors and under any tokens, while clients did what they liked. Then the
next wait, with any buffer, whatever the buffer held, is truthful by the record of those requests; a buffer holds one
report at least; every slot below the last two of the range has a word, and no two tokens have the same; and of the
conditions that hold those are reported that the interest's number asks for -/
theorem wait_tells_registrations {host : Host} (hw : host.watches = []) (hq : host.queue.Nodup)
    {requests : List Request} (ho : ∀ request ∈ requests, request.QueuesOnce) (events : Events) :
    (requests.foldl after { host }).Truthful (latest { host } (fun _ => none) requests) events ∧
      (∀ capacity, (Events.ofCapacity capacity).capacity = max capacity 1) ∧
      (∀ slot, (Token.connection slot).word?.isSome ↔ slot < UInt64.size - 2) ∧
      (∀ a b : Token, ∀ word, a.word? = some word → b.word? = some word → a = b) ∧
      ∀ interest c, (Host.visible interest c).flags = c.flags &&& interest.mask := by
  have hfirst : Recorded { host } fun _ => none :=
    { balanced := ⟨[], by simp [hw], by simp [hw]⟩
      queue := hq
      entries := fun w hm => by simp [hw] at hm }
  refine ⟨(hfirst.foldl ho).truthful events, fun _ => rfl, fun slot => ?_, fun a b word => Token.word?_injective,
    Host.flags_visible⟩
  rw [← Option.ne_none_iff_isSome, ne_eq, word?_connection_eq_none, Nat.not_le]

end Notifier

namespace Sample

/-- two streams; the client of the first sends before the third call, and that of the second resets it before the
sixth -/
def stirring : Host where
  streams := [{ family := .inet }, { family := .inet }]
  devices := [some (.stream 0 .near), some (.stream 0 .far), some (.stream 1 .near), some (.stream 1 .far)]
  others := [[], [], [.send 0 [71]], [], [], [.close 2 true]]

/-- both far ends are registered, and after a wait and a write one of them anew under the last slot that there is, and
the other in vain -/
def enrolled : List Notifier.Request :=
  [.register 1 (.connection 3) .reading, .register 3 (.connection 0) Interest.reading.edgeTriggered, .wait 1,
    .transmit 3 [72], .reregister 1 (.connection (UInt64.size - 3)) .readingAndWriting, .register 3 .listener .reading]

/-- one stream on which nothing happens until the wait is cut short -/
def hushed : Host where
  streams := [{ family := .inet }]
  devices := [some (.stream 0 .near), some (.stream 0 .far)]
  others := [[], [.interrupt]]

/-- a buffer that an earlier wait filled with readiness of the listener and the signal source -/
def stale : Events := (Events.ofCapacity 2).fill [(0, { input := true }), (1, { input := true, hangup := true })]

end Sample

namespace Notifier

/-- the first far end is reported under its later slot, the second as closed, and nothing of what the buffer held -/
theorem wait_tells_enrolled :
    Sample.stirring.watches = [] ∧ Sample.stirring.queue.Nodup ∧ (∀ request ∈ Sample.enrolled, request.QueuesOnce) ∧
      (Sample.enrolled.foldl after { host := Sample.stirring }).Truthful
        (latest { host := Sample.stirring } (fun _ => none) Sample.enrolled) Sample.stale ∧
      ((Sample.enrolled.foldl after { host := Sample.stirring }).wait Sample.stale).value.map Events.toList =
        some [⟨.connection (UInt64.size - 3), true, true, false⟩, ⟨.connection 0, true, false, true⟩] ∧
      (({ host := Sample.hushed } : Notifier).after (.register 1 .signals .reading)).Truthful
        (latest { host := Sample.hushed } (fun _ => none) [.register 1 .signals .reading]) Sample.stale ∧
      Sample.stale.size = 2 ∧
      (((({ host := Sample.hushed } : Notifier).after (.register 1 .signals .reading)).wait Sample.stale).value.map
        Events.toList) = some [] := by
  have honce : ∀ request ∈ Sample.enrolled, request.QueuesOnce := by
    simp only [Sample.enrolled, List.forall_mem_cons]
    exact ⟨trivial, trivial, Request.queuesOnce_wait 1,
      Request.queuesOnce_of_tame (Host.tame_transmit · 3 [72]) _, trivial, trivial, List.forall_mem_nil _⟩
  have hsingle : ∀ request ∈ [Request.register 1 .signals .reading], request.QueuesOnce :=
    List.forall_mem_singleton.2 trivial
  have hstirring := wait_tells_registrations (show Sample.stirring.watches = [] from rfl) .nil honce Sample.stale
  have hhushed := wait_tells_registrations (show Sample.hushed.watches = [] from rfl) .nil hsingle Sample.stale
  exact ⟨rfl, .nil, honce, hstirring.1, by decide +kernel, hhushed.1, rfl, by decide +kernel⟩

end Notifier

end EventServer
