/-
The watch itself: what entering, changing and leaving it does to the host, and what a wait finds.

`watch_cases`, `rewatch_cases` and `unwatch_eq` say all that the three calls can do on a sound host. A wait looks at the
queue in order (`harvest`); `harvest_spec` says that nothing to be seen is lost in it: a queued descriptor is reported
with all that is visible of it, or it stays queued. `undelivered` is what the queue holds in this sense.
-/
import EventServer.Notifier
import EventServer.Proofs.Undisturbed
import Mathlib.Data.List.Nodup

namespace EventServer

namespace Host

variable {h : Host}

theorem Ours.watchable {d : Descriptor} (ho : h.Ours d) : h.watchable d = .ok () := by
  obtain ⟨device, hd, hours⟩ := ho
  cases device <;> simp_all [Host.watchable, Device.ours]

theorem mem_watches {d : Descriptor} {w : Watch} (hw : h.watch? d = some w) : w ∈ h.watches ∧ w.descriptor = d :=
  ⟨List.mem_of_find?_eq_some hw, by simpa using List.find?_some hw⟩

theorem not_mem_watches {d : Descriptor} (hw : h.watch? d = none) : ∀ w ∈ h.watches, w.descriptor ≠ d :=
  fun w hm => by simpa using List.find?_eq_none.1 hw w hm

/-- the watch on a descriptor is the only one there -/
theorem watch?_of_mem (honce : (h.watches.map (·.descriptor)).Nodup) {w : Watch} (hw : w ∈ h.watches) :
    h.watch? w.descriptor = some w := by
  cases he : h.watch? w.descriptor with
  | none => exact absurd rfl (not_mem_watches he w hw)
  | some found =>
    obtain ⟨hm, hd⟩ := mem_watches he
    exact congrArg some (List.inj_on_of_nodup_map honce hm hw hd)

theorem Sound.watch?_eq (hs : h.Sound) {w : Watch} (hw : w ∈ h.watches) : h.watch? w.descriptor = some w :=
  watch?_of_mem hs.watches hw

/-! ## Entering, changing and leaving -/

/-- watching a descriptor that is not watched spares the others -/
theorem spares_watching (hs : h.Sound) {w : Watch} (ho : h.Ours w.descriptor) (hw : h.watch? w.descriptor = none) :
    Spares (some w.descriptor) h { h with watches := h.watches ++ [w] } := by
  refine ⟨⟨hs.ends, hs.known, hs.streams, ?_, fun v hv => ?_⟩, fun hobl => hobl, fun _ ho => ho,
    fun {d id} hne hd => ?_⟩
  · rw [List.map_append, List.map_singleton, List.nodup_append]
    refine ⟨hs.watches, by simp, fun d hd e he hde => ?_⟩
    obtain ⟨v, hv, hvd⟩ := List.mem_map.1 hd
    exact not_mem_watches hw v hv (by simp_all)
  · rcases List.mem_append.1 hv with hv | hv
    · exact hs.watched v hv
    · exact List.mem_singleton.1 hv ▸ ho
  · have hne : w.descriptor ≠ d := fun he => hne (congrArg some he)
    exact ⟨rfl, by simp [watch?, hne], fun hq => hq, fun _ v _ => .refl _⟩

/-- what the watches are once one of them is for another word or other conditions -/
def rewatched (watches : List Watch) (d : Descriptor) (word : UInt64) (interest : Interest) : List Watch :=
  watches.map fun w => if w.descriptor == d then ⟨d, word, interest⟩ else w

theorem map_rewatched (watches : List Watch) (d : Descriptor) (word : UInt64) (interest : Interest) :
    (rewatched watches d word interest).map (·.descriptor) = watches.map (·.descriptor) := by
  simp only [rewatched, List.map_map]
  refine List.map_congr_left fun w _ => ?_
  simp only [Function.comp_apply]
  split
  · next he => exact (by simpa using he : w.descriptor = d).symm
  · rfl

theorem find?_rewatched_ne {x d : Descriptor} (hne : x ≠ d) (watches : List Watch) (word : UInt64)
    (interest : Interest) :
    (rewatched watches d word interest).find? (·.descriptor == x) = watches.find? (·.descriptor == x) := by
  induction watches with
  | nil => rfl
  | cons w rest ih =>
    rw [rewatched, List.map_cons, List.find?_cons, List.find?_cons, ← rewatched, ih]
    by_cases hwd : w.descriptor = d
    · have hdx : (d == x) = false := by simpa using Ne.symm hne
      simp only [hwd, beq_self_eq_true, if_true, hdx]
    · simp [hwd]

/-- changing what a descriptor is watched for spares the others -/
theorem spares_rewatched (hs : h.Sound) (d : Descriptor) (word : UInt64) (interest : Interest) :
    Spares (some d) h { h with watches := rewatched h.watches d word interest } := by
  refine ⟨⟨hs.ends, hs.known, hs.streams, ?_, fun v hv => ?_⟩, fun hobl => hobl, fun _ ho => ho,
    fun {x id} hne hd => ?_⟩
  · exact (map_rewatched ..).symm ▸ hs.watches
  · have hm : v.descriptor ∈ h.watches.map (·.descriptor) := map_rewatched .. ▸ List.mem_map_of_mem hv
    obtain ⟨w, hw, he⟩ := List.mem_map.1 hm
    exact he ▸ hs.watched w hw
  · have hne : x ≠ d := fun he => hne (congrArg some he.symm)
    exact ⟨rfl, find?_rewatched_ne hne .., fun hq => hq, fun _ v _ => .refl _⟩

/-- queueing changes nothing else -/
theorem enqueue_eq (h : Host) (d : Descriptor) : ∃ q, h.enqueue d = { h with queue := q } ∧ h.queue ⊆ q ∧ d ∈ q := by
  unfold enqueue
  split
  · next hq => exact ⟨h.queue, rfl, fun _ hx => hx, List.contains_iff_mem.1 hq⟩
  · exact ⟨h.queue ++ [d], rfl, fun _ hx => List.mem_append_left _ hx, by simp⟩

/-- looking at a descriptor once, for what holds now, queues at most that one -/
theorem looked_eq (h : Host) (d : Descriptor) (interest : Interest) :
    ∃ q, (if h.holds d interest then h.enqueue d else h) = { h with queue := q } ∧ h.queue ⊆ q ∧
      (h.holds d interest → d ∈ q) := by
  split
  · obtain ⟨q, hq, hsub, hd⟩ := h.enqueue_eq d
    exact ⟨q, hq, hsub, fun _ => hd⟩
  · next hh => exact ⟨h.queue, rfl, fun _ hx => hx, fun hh' => absurd hh' hh⟩

/-- a descriptor that is not watched is refused, or watched from then on -/
theorem watch_cases (hs : h.Sound) {d : Descriptor} (ho : h.Ours d) (hw : h.watch? d = none) (word : UInt64)
    (interest : Interest) :
    (∃ code, (h.watch d word interest).2 = .error code ∧ Undisturbed h (h.watch d word interest).1) ∨
      (h.watch d word interest).2 = .ok () ∧ Spares (some d) h (h.watch d word interest).1 ∧
        (h.watch d word interest).1.watches = h.watches ++ [⟨d, word, interest⟩] ∧
        (h.watch d word interest).1.devices = h.devices := by
  have hspent : Undisturbed h { h with refusals := { h.refusals with watch := h.refusals.watch.tail } } :=
    undisturbed_of_eq hs rfl rfl rfl rfl fun _ hq => hq
  cases hr : h.refusals.watch.head?.join with
  | some code =>
    left
    exact ⟨code, by simp [watch, hr], by simpa [watch, hr] using hspent⟩
  | none =>
    right
    have ho' : ({ h with refusals := { h.refusals with watch := h.refusals.watch.tail } } : Host).Ours d := ho
    have hw' : ({ h with refusals := { h.refusals with watch := h.refusals.watch.tail } } : Host).watch? d = none := hw
    have hwatching := (hspent.toSpares.but (some d)).trans
      (spares_watching hspent.sound (w := ⟨d, word, interest⟩) ho' hw')
    obtain ⟨q, hq, hsub, -⟩ := looked_eq { h with
      refusals := { h.refusals with watch := h.refusals.watch.tail }
      watches := h.watches ++ [⟨d, word, interest⟩] } d interest
    have hqueue : Undisturbed _ { h with
      refusals := { h.refusals with watch := h.refusals.watch.tail }
      watches := h.watches ++ [⟨d, word, interest⟩]
      queue := q } := undisturbed_of_eq hwatching.sound rfl rfl rfl rfl hsub
    simp only [watch, hr, ho'.watchable, hw', hq]
    exact ⟨trivial, hwatching.trans (hqueue.toSpares.but _), trivial, trivial⟩

/-- a call that changes what a descriptor is watched for is refused, or goes through; then the descriptor is queued if
anything of the kind holds -/
theorem rewatch_cases (hs : h.Sound) {d : Descriptor} {w : Watch} (hw : h.watch? d = some w) (word : UInt64)
    (interest : Interest) :
    (∃ code, (h.rewatch d word interest).2 = .error code ∧ ¬ h.Obliging ∧
        Undisturbed h (h.rewatch d word interest).1) ∨
      (h.rewatch d word interest).2 = .ok () ∧ Spares (some d) h (h.rewatch d word interest).1 ∧
        ∃ q, h.queue ⊆ q ∧ (h.holds d interest → d ∈ q) ∧
          (h.rewatch d word interest).1 =
            { h with
              refusals := h.refusals.changed d
              watches := rewatched h.watches d word interest
              queue := q } := by
  let spent : Host := { h with refusals := h.refusals.changed d }
  have hspent : Spares none h spent :=
    ⟨⟨hs.ends, hs.known, hs.streams, hs.watches, hs.watched⟩,
      fun ho refusal hm => ho refusal (List.mem_of_mem_eraseP hm), fun _ ho => ho,
      fun _ _ => ⟨rfl, rfl, id, fun _ _ _ => .refl _⟩⟩
  cases hr : h.refusals.change? d with
  | some code =>
    left
    refine ⟨code, by simp [rewatch, hr], fun ho => ?_, by simpa [rewatch, hr] using ⟨hspent, rfl⟩⟩
    rw [ho.change?] at hr
    cases hr
  | none =>
    right
    obtain ⟨hm, rfl⟩ := mem_watches hw
    have ho' : spent.Ours w.descriptor := hs.watched w hm
    have hw' : spent.watch? w.descriptor = some w := hw
    have hwatching := (hspent.but (some w.descriptor)).trans (spares_rewatched hspent.sound w.descriptor word interest)
    obtain ⟨q, hq, hsub, hholds⟩ :=
      looked_eq { spent with watches := rewatched h.watches w.descriptor word interest } w.descriptor interest
    have hqueue : Undisturbed _ { spent with
      watches := rewatched h.watches w.descriptor word interest
      queue := q } := undisturbed_of_eq hwatching.sound rfl rfl rfl rfl hsub
    have heq : h.rewatch w.descriptor word interest = ({ spent with
        watches := rewatched h.watches w.descriptor word interest
        queue := q }, .ok ()) := by
      simp only [rewatch, hr]
      rw [show Host.watchable _ w.descriptor = .ok () from ho'.watchable,
        show Host.watch? _ w.descriptor = some w from hw']
      exact congrArg (·, _) hq
    rw [heq]
    exact ⟨rfl, hwatching.trans (hqueue.toSpares.but _), q, hsub, hholds, rfl⟩

/-- leaving goes through for whatever is watched -/
theorem unwatch_eq (hs : h.Sound) {d : Descriptor} {w : Watch} (hw : h.watch? d = some w) :
    h.unwatch d = (h.forget d, .ok ()) := by
  obtain ⟨hm, rfl⟩ := mem_watches hw
  simp [unwatch, (hs.watched w hm).watchable, hw]

/-! ## Waiting -/

/-- the reports that a wait without a bound would make now: what the watch has to deliver yet -/
def undelivered (h : Host) : List (Watch × Conditions) := (h.harvest h.queue.length h.queue).reports

/-- a queued descriptor of which something is to be seen is reported with all of it, or it stays queued -/
theorem harvest_spec {d : Descriptor} {w : Watch} (hw : h.watch? d = some w)
    (hv : (visible w.interest (h.conditions d)).none = false) (capacity : Nat) {queue : List Descriptor}
    (hd : d ∈ queue) : d ∈ (h.harvest capacity queue).left ∨
      (w, visible w.interest (h.conditions d)) ∈ (h.harvest capacity queue).reports := by
  induction queue generalizing capacity with
  | nil => cases hd
  | cons x rest ih =>
    cases capacity with
    | zero => exact .inl hd
    | succ capacity =>
      unfold harvest
      rcases List.mem_cons.1 hd with rfl | hd
      · simp [hw, hv]
      · cases h.watch? x with
        | none => exact ih _ hd
        | some v =>
          dsimp only
          split
          · exact ih _ hd
          · exact (ih capacity hd).imp_right (List.mem_cons_of_mem _)

/-- a wait that may take all of the queue leaves none of it -/
theorem harvest_left {capacity : Nat} {queue : List Descriptor} (hl : queue.length ≤ capacity) :
    (h.harvest capacity queue).left = [] := by
  induction queue generalizing capacity with
  | nil => unfold harvest; rfl
  | cons x rest ih =>
    cases capacity with
    | zero => simp at hl
    | succ capacity =>
      have hl : rest.length ≤ capacity := by simpa using hl
      unfold harvest
      cases h.watch? x with
      | none => exact ih (Nat.le_succ_of_le hl)
      | some v =>
        dsimp only
        split
        · exact ih (Nat.le_succ_of_le hl)
        · exact ih hl

theorem mem_undelivered {d : Descriptor} {w : Watch} (hd : d ∈ h.queue) (hw : h.watch? d = some w)
    (hv : (visible w.interest (h.conditions d)).none = false) :
    (w, visible w.interest (h.conditions d)) ∈ h.undelivered := by
  have hspec := harvest_spec hw hv h.queue.length hd
  rw [harvest_left (Nat.le_refl _)] at hspec
  exact hspec.resolve_left (by simp)

/-- what is reported is watched, and the report is what is visible of it -/
theorem mem_harvest {report : Watch × Conditions} {capacity : Nat} {queue : List Descriptor}
    (hm : report ∈ (h.harvest capacity queue).reports) :
    report.1 ∈ h.watches ∧ report.2 = visible report.1.interest (h.conditions report.1.descriptor) := by
  induction queue generalizing capacity with
  | nil => unfold harvest at hm; cases hm
  | cons x rest ih =>
    cases capacity with
    | zero => unfold harvest at hm; cases hm
    | succ capacity =>
      unfold harvest at hm
      cases hw : h.watch? x with
      | none => exact ih (by simpa [hw] using hm)
      | some v =>
        rw [hw] at hm
        dsimp only at hm
        split at hm
        · exact ih hm
        · rcases List.mem_cons.1 hm with rfl | hm
          · obtain ⟨hv, rfl⟩ := mem_watches hw
            exact ⟨hv, rfl⟩
          · exact ih hm

/-- a report of a wait shows something -/
theorem shown_of_harvest {report : Watch × Conditions} {capacity : Nat} {queue : List Descriptor}
    (hm : report ∈ (h.harvest capacity queue).reports) : report.2.none = false := by
  induction queue generalizing capacity with
  | nil => unfold harvest at hm; cases hm
  | cons x rest ih =>
    cases capacity with
    | zero => unfold harvest at hm; cases hm
    | succ capacity =>
      unfold harvest at hm
      cases hw : h.watch? x with
      | none => exact ih (by simpa [hw] using hm)
      | some w =>
        simp only [hw] at hm
        split at hm
        · exact ih hm
        · next hshown =>
          rcases List.mem_cons.1 hm with rfl | hm
          · simpa using hshown
          · exact ih hm

/-- a wait makes no more reports than it may -/
theorem length_harvest (capacity : Nat) (queue : List Descriptor) :
    (h.harvest capacity queue).reports.length ≤ capacity := by
  induction queue generalizing capacity with
  | nil => unfold harvest; exact Nat.zero_le _
  | cons x rest ih =>
    cases capacity with
    | zero => unfold harvest; exact Nat.le_refl _
    | succ capacity =>
      unfold harvest
      cases h.watch? x with
      | none => exact ih _
      | some v =>
        dsimp only
        split
        · exact ih _
        · exact Nat.succ_le_succ (ih _)

end Host

namespace Notifier

/-- what a wait for so many reports finds, each report with the watch that it is about -/
def found (n : Notifier) (capacity : Nat) : Host.Harvest := n.host.elapse.harvest capacity n.host.elapse.queue

/-- what the server is told of the reports of a wait -/
def told (reports : List (Watch × Conditions)) : List Readiness :=
  reports.map fun report => Readiness.ofReport report.1.word report.2

/-- a wait leaves what it did not come to and what it is to look at again, and the buffer holds all that it found -/
theorem wait_spec (n : Notifier) (events : Events) :
    (∃ interruptions, (n.wait events).state =
      { n with host := { n.host.elapse with
          queue := (n.found events.capacity).left ++ (n.found events.capacity).again
          interruptions } }) ∧
    ((n.wait events).value = none ∧ (n.found events.capacity).reports = [] ∨
      ∃ filled, (n.wait events).value = some filled ∧ filled.toList = told (n.found events.capacity).reports) := by
  have hlength := n.host.elapse.length_harvest events.capacity n.host.elapse.queue
  unfold wait Host.wait Host.interrupted?
  dsimp only
  by_cases he : (n.host.elapse.harvest events.capacity n.host.elapse.queue).reports.isEmpty
  · have hnone : (n.found events.capacity).reports = [] := List.isEmpty_iff.1 he
    rw [if_pos he]
    by_cases hi : n.host.elapse.interruptions > 0
    · simp only [hi, if_true]
      exact ⟨⟨_, rfl⟩, .inr ⟨_, rfl, by simp [hnone, told, Events.toList]⟩⟩
    · simp only [hi, if_false]
      exact ⟨⟨_, rfl⟩, .inl ⟨trivial, hnone⟩⟩
  · rw [if_neg he]
    refine ⟨⟨_, rfl⟩, .inr ⟨_, rfl, ?_⟩⟩
    rw [Events.toList, Events.written_fill, List.take_of_length_le (by simpa using hlength), List.map_map]
    rfl

/-- the batch of a wait is what it found, and no wait that does not end found anything -/
theorem wait_told (n : Notifier) (events : Events) :
    ((n.wait events).value.map Events.toList).getD [] = told (n.found events.capacity).reports := by
  obtain ⟨-, ⟨hv, hr⟩ | ⟨filled, hv, hr⟩⟩ := n.wait_spec events
  · rw [hv, hr]
    rfl
  · rw [hv, ← hr]
    rfl

end Notifier

end EventServer
