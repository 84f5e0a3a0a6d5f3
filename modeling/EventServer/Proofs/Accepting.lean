/-
Accepting: what becomes of those who wait at a listener when the server takes them in, whichever calls are refused.

A drain of the listener is told by three frames and what binds them (`Drain`). Of the host: some of those who waited or
came meanwhile were taken, in order, and the rest still waits (`Host.Admits`). Of the table: the new records stand
beside the old ones, and each is watched and counted (`Connections.Joins`). Of the scheduler: the new tasks stand beside
the old ones and are queued (`Tasks.Enrolls`). The new records and tasks are those of the connections that were taken
(`Taken.record?`, `Taken.tenant?`); one that could not be watched has neither, and its descriptor is closed, and so it
is with one on which calls might wait, which ends the drain (`Ending.lost`). Which ones those are is what the refusals
say that the calls meet (`Met`).

One call that accepts is such a drain (`drain_accept`): it takes nobody, or what it took (`Host.Fetched`) is welcome
(`drain_welcome`) or lost (`drain_lost`). Drains compose (`Drain.trans`), and so a drain until a
call takes nobody is one (`fullDrain_acceptUpTo`); it comes to its end since every call that takes somebody leaves
fewer callers (`acceptUpTo_eq`).
-/
import EventServer.Proofs.Hailing
import EventServer.Proofs.Passage
import EventServer.Proofs.Refusal

namespace EventServer

/-! ## Refusals that calls meet -/

/-- calls were answered so, each by the refusal that it met or by none, and these refusals are left for calls to come -/
structure Met (refusals answers left : List (Option Errno)) : Prop where
  left : left = refusals.drop answers.length
  each : ∀ i < answers.length, (refusals[i]?).join = (answers[i]?).join

namespace Met

variable {refusals answers answers' left left' : List (Option Errno)}

theorem nil (refusals : List (Option Errno)) : Met refusals [] refusals :=
  ⟨rfl, fun _ hi => absurd hi (Nat.not_lt_zero _)⟩

theorem one (refusals : List (Option Errno)) : Met refusals [refusals.head?.join] refusals.tail where
  left := List.drop_one.symm
  each i hi := by
    obtain rfl : i = 0 := Nat.lt_one_iff.1 hi
    cases refusals <;> rfl

theorem append (h : Met refusals answers left) (h' : Met left answers' left') :
    Met refusals (answers ++ answers') left' where
  left := by rw [h'.left, h.left, List.drop_drop, List.length_append]
  each i hi := by
    by_cases hfirst : i < answers.length
    · rw [List.getElem?_append_left hfirst, h.each i hfirst]
    · have hsecond := h'.each (i - answers.length) (by rw [List.length_append] at hi; omega)
      rw [h.left, List.getElem?_drop, Nat.add_sub_cancel' (Nat.le_of_not_lt hfirst)] at hsecond
      rw [List.getElem?_append_right (Nat.le_of_not_lt hfirst), hsecond]

end Met

/-- how the call that watches was answered, if it came to that call -/
def WatchFault.answerOf? {α : Type} : Except WatchFault α → Option (Option Errno)
  | .ok _ => some none
  | .error (.refused code) => some (some code)
  | .error .slotTooLarge => none

/-! ## A listener that some are taken from -/

namespace Host

variable {h h' h'' : Host} {l d : Descriptor} {came came' taken taken' waiting : List Arrival} {extra extra' : Nat}

/-- some came to a listener, those who were to come and a few extra at most, and some were taken from it, those who
waited longest. Who was not taken still waits, and a listener that is watched for callers is queued for those who
came -/
structure Admits (l : Descriptor) (extra : Nat) (came taken : List Arrival) (h h' : Host) : Prop where
  backlog : ∀ {waiting}, h.device? l = some (.listener waiting) →
    ∃ left, h'.device? l = some (.listener left) ∧ waiting ++ came = taken ++ left
  fresh : ∀ a ∈ came, h.streams.length ≤ a.stream
  made : h.streams.length ≤ h'.streams.length
  opened : h.devices.length ≤ h'.devices.length
  gone : ∀ {d}, d < h.devices.length → h.device? d = none → h'.device? d = none
  watch : h'.watch? l = h.watch? l
  queued : l ∈ h.queue → l ∈ h'.queue
  told : came ≠ [] → ∀ {w}, h.watch? l = some w → w.interest.read = true → l ∈ h'.queue
  callers : h'.callers l + taken.length ≤ h.callers l + extra

theorem callers_of_listener (hl : h.device? l = some (.listener waiting)) :
    h.callers l = waiting.length + h.ahead Deed.calls := by
  simp [callers, hl]

theorem Admits.trans (ha : Admits l extra came taken h h') (ha' : Admits l extra' came' taken' h' h'') :
    Admits l (extra + extra') (came ++ came') (taken ++ taken') h h'' where
  backlog hl := by
    obtain ⟨left, hleft, hwaiting⟩ := ha.backlog hl
    obtain ⟨left', hleft', hwaiting'⟩ := ha'.backlog hleft
    refine ⟨left', hleft', ?_⟩
    rw [← List.append_assoc, hwaiting, List.append_assoc, hwaiting', List.append_assoc]
  fresh a hm := (List.mem_append.1 hm).elim (ha.fresh a) fun hm => ha.made.trans (ha'.fresh a hm)
  made := ha.made.trans ha'.made
  opened := ha.opened.trans ha'.opened
  gone hd hnone := ha'.gone (Nat.lt_of_lt_of_le hd ha.opened) (ha.gone hd hnone)
  watch := ha'.watch.trans ha.watch
  queued hq := ha'.queued (ha.queued hq)
  told hne w hw hr := by
    by_cases hfirst : came = []
    · exact ha'.told (by simpa [hfirst] using hne) (ha.watch.trans hw) hr
    · exact ha'.queued (ha.told hfirst hw hr)
  callers := by
    have hfirst := ha.callers
    have hsecond := ha'.callers
    rw [List.length_append]
    omega

/-- nobody was taken -/
theorem Hails.admits (hh : Hails l extra came h h') (hl : h.device? l = some (.listener waiting)) :
    Admits l extra came [] h h' where
  backlog hl := ⟨_, hh.backlog hl, rfl⟩
  fresh := hh.fresh
  made := hh.made
  opened := hh.opened
  gone := hh.gone
  watch := hh.watch
  queued := hh.queued
  told := hh.told
  callers := by
    have hcalls := hh.calls
    rw [callers_of_listener hl, callers_of_listener (hh.backlog hl), List.length_append, List.length_nil]
    omega

/-- one was taken, and nobody came -/
theorem admits_admitted {arrival : Arrival} {rest : List Arrival}
    (hl : h.device? l = some (.listener (arrival :: rest))) :
    Admits l 0 [] [arrival] h (h.admitted l arrival rest) := by
  have hdevice := device?_admitted hl
  have hlt := lt_length_of_device? hl
  have hleft : (h.admitted l arrival rest).device? l = some (.listener rest) := by
    rw [hdevice, if_neg (Nat.ne_of_lt hlt), if_pos rfl]
  refine ⟨fun {waiting} hw => ⟨rest, hleft, ?_⟩, fun _ hm => absurd hm List.not_mem_nil, Nat.le_refl _,
    (h.length_admitted l arrival rest) ▸ Nat.le_succ _, fun {d} hd hnone => ?_, rfl, id, fun hne => absurd rfl hne, ?_⟩
  · rw [hl] at hw
    cases hw
    exact List.append_nil _
  · have hne : d ≠ l := fun he => by
      rw [he, hl] at hnone
      cases hnone
    rw [hdevice, if_neg (Nat.ne_of_lt hd), if_neg hne, hnone]
  · rw [callers_of_listener hl, callers_of_listener hleft]
    exact Nat.le_of_eq (Nat.add_right_comm ..)

/-- the host after a call that accepts nobody: a refusal is used up -/
def turnedAway (h : Host) : Host := { h with refusals := { h.refusals with accept := h.refusals.accept.tail } }

theorem admits_turnedAway (l : Descriptor) (h : Host) : Admits l 0 [] [] h h.turnedAway where
  backlog hl := ⟨_, hl, List.append_nil _⟩
  fresh _ hm := absurd hm List.not_mem_nil
  made := Nat.le_refl _
  opened := Nat.le_refl _
  gone _ hnone := hnone
  watch := rfl
  queued := id
  told hne := absurd rfl hne
  callers := Nat.le_refl _

/-- a call that accepts takes who waited longest, or it is refused or finds nobody -/
theorem accept_of_listener (hl : h.device? l = some (.listener waiting)) :
    (∃ code, h.accept l = (h.turnedAway, .error code) ∧ (h.refusals.accept.head?.join = none → waiting = [])) ∨
      h.refusals.accept.head?.join = none ∧ ∃ arrival rest, waiting = arrival :: rest ∧
        h.accept l = (h.admitted l arrival rest, .ok (h.devices.length, arrival.peer)) := by
  have hl' : h.turnedAway.device? l = some (.listener waiting) := hl
  have hlength : ∀ device, (h.devices.set l device).length = h.devices.length := fun _ => List.length_set ..
  unfold accept
  rw [show ({ h with refusals := { h.refusals with accept := h.refusals.accept.tail } } : Host) = h.turnedAway from rfl]
  simp only [hl']
  cases hr : h.refusals.accept.head?.join with
  | some code => exact .inl ⟨code, rfl, fun hnone => by cases hnone⟩
  | none =>
    cases waiting with
    | nil => exact .inl ⟨.again, rfl, fun _ => rfl⟩
    | cons arrival rest =>
      exact .inr ⟨rfl, arrival, rest, rfl, by simp [admitted, turnedAway, Host.opened, setDevice, hlength]⟩

end Host

/-- a call has taken who waited longest, under a descriptor that nobody had -/
structure Host.Fetched (l : Descriptor) (came : List Arrival) (arrival : Arrival) (d : Descriptor)
    (h h' : Host) : Prop where
  undisturbed : Undisturbed h h'
  admits : Admits l 0 came [arrival] h h'
  far : h'.device? d = some (.stream arrival.stream .far)
  fresh : h.devices.length ≤ d
  accept : h'.refusals.accept = h.refusals.accept.tail
  watch : h'.refusals.watch = h.refusals.watch

theorem Host.Fetched.unwatched {h h' : Host} {l d : Descriptor} {came : List Arrival} {arrival : Arrival}
    (hf : Fetched l came arrival d h h') (hs : h.Sound) : h'.watch? d = none := by
  have hnew : h.device? d = none := by
    simp [device?, List.getElem?_eq_none hf.fresh]
  rw [watch?, hf.undisturbed.watches]
  exact hs.not_watched hnew

/-- the call that accepts takes who waited longest -/
theorem Host.fetched_admitted {h : Host} {l : Descriptor} {came rest : List Arrival} {arrival : Arrival}
    (hs : h.Sound) (hadmits : Admits l 0 came [] h h.elapse)
    (hl : h.elapse.device? l = some (.listener (arrival :: rest)))
    (he : (h.elapse.accept l).1 = h.elapse.admitted l arrival rest) :
    Fetched l came arrival h.elapse.devices.length h (h.elapse.admitted l arrival rest) := by
  have hu := undisturbed_elapse hs
  have haccept := (undisturbed_accept hu.sound l).1
  have hrefusals := h.refusals_elapse
  rw [he] at haccept
  refine ⟨hu.trans haccept, ?_, (device?_admitted hl _).trans (if_pos rfl), hadmits.opened, ?_, ?_⟩
  · simpa using hadmits.trans (admits_admitted hl)
  · rw [← hrefusals]
    rfl
  · rw [← hrefusals]
    rfl

/-- callers may come again before no call on the connection is to wait, and it stays taken -/
theorem Host.Fetched.unblocked {h g : Host} {l d : Descriptor} {came waiting : List Arrival} {arrival : Arrival}
    (hf : Fetched l came arrival d h g) (hl : h.device? l = some (.listener waiting)) :
    (∃ came', Fetched l (came ++ came') arrival d h (g.elapse.unblock d).1) ∧
      (g.elapse.unblock d).1.refusals.unblock = g.refusals.unblock.tail ∧
      (g.elapse.unblock d).2 = (g.refusals.unblock.head?.join).elim (.ok ()) .error := by
  obtain ⟨left, hleft, -⟩ := hf.admits.backlog hl
  obtain ⟨came', hh⟩ := hailed_elapse hleft
  have hlater := undisturbed_elapse hf.undisturbed.sound
  have hfar := (hlater.calm (by simp) hf.far).device.trans hf.far
  obtain ⟨unblocked, hg⟩ := g.elapse.unblock_eq d
  have hunblocked : Hails l 0 [] g.elapse (g.elapse.unblock d).1 :=
    hg ▸ hails_of_devices rfl (Nat.le_refl _) rfl (List.Subset.refl _) rfl rfl
  have hboth := (hf.admits.trans (hh.admits hleft)).trans (hunblocked.admits (hh.backlog hleft))
  have hrefusals := g.refusals_elapse
  refine ⟨⟨came', hf.undisturbed.trans (hlater.trans (undisturbed_unblock hlater.sound d)), by simpa using hboth,
    (device?_unblock ..).trans hfar, hf.fresh, ?_, ?_⟩, ?_, ?_⟩
  · rw [hg, hrefusals]
    exact hf.accept
  · rw [hg, hrefusals]
    exact hf.watch
  · rw [hg, hrefusals]
  · rw [unblock_value hfar, hrefusals]

/-- accepting: callers may come, and the call is refused or finds nobody; or who waited longest is taken and no call on
that connection is to wait, or it is closed since that meets a refusal -/
theorem Nonblocking.accept_of_listener {h : Host} {l : Descriptor} {waiting : List Arrival} (hs : h.Sound)
    (hl : h.device? l = some (.listener waiting)) :
    (∃ came, (∀ accepted, (accept h l).2 ≠ .done accepted) ∧ Host.Undisturbed h (accept h l).1 ∧
        Host.Admits l 0 came [] h (accept h l).1 ∧
        (accept h l).1.refusals = { h.refusals with accept := h.refusals.accept.tail } ∧
        (h.refusals.accept.head?.join = none → waiting ++ came = [])) ∨
      h.refusals.accept.head?.join = none ∧ ∃ came arrival d g, Host.Fetched l came arrival d h g ∧
        g.refusals.unblock = h.refusals.unblock.tail ∧
        (h.refusals.unblock.head?.join = none ∧ accept h l = (g, .done (d, arrival.peer)) ∨
          ∃ code, h.refusals.unblock.head?.join = some code ∧
            accept h l = (g.elapse.close d false, .failed (.system code))) := by
  obtain ⟨came, hh⟩ := Host.hailed_elapse hl
  have hrefusals := h.refusals_elapse
  rcases Host.accept_of_listener (hh.backlog hl) with ⟨code, he, hempty⟩ | ⟨hnone, arrival, rest, hfirst, he⟩
  · have hu := Host.undisturbed_elapse hs
    have haccept : accept h l = (h.elapse.turnedAway, .ofResult (.error code)) := by simp only [accept, he]
    rw [haccept]
    refine .inl ⟨came, fun accepted ha => ?_, ?_, ?_, ?_, ?_⟩
    · rcases Outcome.ofResult_error (α := Descriptor × Address) code with ho | ⟨fault, ho⟩ <;> simp [ho] at ha
    · exact hu.trans (Host.undisturbed_of_eq hu.sound rfl rfl rfl rfl (List.Subset.refl _))
    · simpa using (hh.admits hl).trans (Host.admits_turnedAway l h.elapse)
    · rw [Host.turnedAway, hrefusals]
    · rwa [← hrefusals]
  · have hfetched := Host.fetched_admitted hs (hh.admits hl) ((hh.backlog hl).trans (by rw [hfirst]))
      (congrArg Prod.fst he)
    obtain ⟨⟨came', hfetched'⟩, hspent, hvalue⟩ := hfetched.unblocked hl
    have hsame : (h.elapse.admitted l arrival rest).refusals.unblock = h.refusals.unblock := by
      rw [← hrefusals]
      rfl
    rw [hsame] at hspent hvalue
    refine .inr ⟨hrefusals ▸ hnone, _, arrival, _, _, hfetched', hspent, ?_⟩
    cases hr : h.refusals.unblock.head?.join with
    | none =>
      rw [hr] at hvalue
      exact .inl ⟨rfl, by simp only [accept, he]; rw [hvalue]; rfl⟩
    | some code =>
      rw [hr] at hvalue
      exact .inr ⟨code, rfl, by simp only [accept, he]; rw [hvalue]; rfl⟩

/-! ## A table that new connections join -/

namespace Slots

variable {α : Type} {s : Slots α}

theorem length_le_insert (s : Slots α) (value : α) : s.entries.length ≤ (s.insert value).entries.length := by
  unfold Slots.insert
  split <;> simp

/-- a value is put beside the others -/
theorem perm_insert (ht : s.Tidy) (value : α) :
    (s.insert value).toList.Perm ((s.nextKey, value) :: s.toList) := by
  obtain ⟨pre, post, hs, hi⟩ := toList_insert ht value
  rw [hs, hi]
  exact List.perm_middle

end Slots

theorem perm_more {α : Type} {old middle later new new' : List α} (h : middle.Perm (new ++ old))
    (h' : later.Perm (new' ++ middle)) : later.Perm ((new ++ new') ++ old) := by
  have hnew : (new' ++ middle).Perm (new' ++ (new ++ old)) := h.append_left new'
  rw [← List.append_assoc] at hnew
  exact h'.trans (hnew.trans (List.perm_append_comm.append_right old))

namespace Connections

variable {H : Type} {c c' c'' : Connections H} {new new' : List (Nat × Connection H)}

/-- these connections were taken in, watched and counted, and the others are as they were -/
structure Joins (new : List (Nat × Connection H)) (c c' : Connections H) : Prop where
  records : c'.slots.toList.Perm (new ++ c.slots.toList)
  watches : c'.host.watches = c.host.watches ++ new.map fun entry => entry.2.watch entry.1
  registrations : c'.notifier.registrations = c.notifier.registrations + new.length
  deregistrations : c'.notifier.deregistrations = c.notifier.deregistrations
  armWrites : c'.armWrites = c.armWrites
  grown : c.slots.entries.length ≤ c'.slots.entries.length

theorem joins_of_eq (hslots : c'.slots = c.slots) (hwatches : c'.host.watches = c.host.watches)
    (hregistrations : c'.notifier.registrations = c.notifier.registrations)
    (hderegistrations : c'.notifier.deregistrations = c.notifier.deregistrations)
    (harm : c'.armWrites = c.armWrites) : Joins [] c c' :=
  ⟨hslots ▸ .refl _, hwatches.trans (List.append_nil _).symm, hregistrations, hderegistrations, harm,
    hslots ▸ Nat.le_refl _⟩

theorem Joins.trans (hj : Joins new c c') (hj' : Joins new' c' c'') : Joins (new ++ new') c c'' where
  records := perm_more hj.records hj'.records
  watches := by rw [hj'.watches, hj.watches, List.map_append, List.append_assoc]
  registrations := by rw [hj'.registrations, hj.registrations, List.length_append, Nat.add_assoc]
  deregistrations := hj'.deregistrations.trans hj.deregistrations
  armWrites := hj'.armWrites.trans hj.armWrites
  grown := hj.grown.trans hj'.grown

/-- what becomes of an accepted connection: it joins the table and is watched, or it is refused and closed; all others
are spared -/
theorem joins_insert {d : Descriptor} {id : Nat} (hs : c.host.Sound) (ht : c.slots.Tidy)
    (hd : c.host.device? d = some (.stream id .far)) (hw : c.host.watch? d = none) (peer : Address) :
    Host.Spares (some d) c.host (c.insert d peer).state.host ∧
      ((∃ fault, (c.insert d peer).value = .error fault ∧ Joins [] c (c.insert d peer).state ∧
          (c.insert d peer).state.host.device? d = none) ∨
        (c.insert d peer).value = .ok c.slots.nextKey ∧
          Joins [(c.slots.nextKey, { descriptor := d, peer })] c (c.insert d peer).state ∧
          (c.insert d peer).state.host.device? d = some (.stream id .far)) := by
  rcases insert_cases hs hd hw peer with
    ⟨fault, h, hsp, hwatches, hvalue, hstate⟩ | ⟨h, -, hsp, hwatches, hdevice, hvalue, hstate⟩
  · refine ⟨hstate ▸ hsp, .inl ⟨fault, hvalue, ?_, ?_⟩⟩
    · rw [hstate]
      exact joins_of_eq rfl hwatches rfl rfl rfl
    · unfold Connections.insert at hvalue ⊢
      dsimp only at hvalue ⊢
      split at hvalue
      · cases hvalue
      · simp only
        exact Host.device?_close ..
  · rw [hvalue, hstate]
    exact ⟨hsp, .inr ⟨rfl, ⟨Slots.perm_insert ht _, hwatches, rfl, rfl, rfl, Slots.length_le_insert ..⟩, hdevice⟩⟩

end Connections

/-! ## How the table's call was answered -/

namespace Host

variable {h : Host} {d : Descriptor} {id : Nat}

/-- a far end that nobody watches is watched unless the call meets a refusal -/
theorem watch_far (hd : h.device? d = some (.stream id .far)) (hw : h.watch? d = none) (word : UInt64)
    (interest : Interest) :
    (h.watch d word interest).1.refusals = { h.refusals with watch := h.refusals.watch.tail } ∧
      ((h.watch d word interest).2 = .ok () ∧ h.refusals.watch.head?.join = none ∨
        ∃ code, (h.watch d word interest).2 = .error code ∧ h.refusals.watch.head?.join = some code) := by
  have hd' : h.refusalSpent.watchable d = .ok () := by
    have hspent : h.refusalSpent.device? d = some (.stream id .far) := hd
    rw [watchable, hspent]
  have hw' : h.refusalSpent.watch? d = none := hw
  unfold watch
  rw [show ({ h with refusals := { h.refusals with watch := h.refusals.watch.tail } } : Host) = h.refusalSpent from rfl]
  cases hr : h.refusals.watch.head?.join with
  | some code => exact ⟨rfl, .inr ⟨code, rfl, rfl⟩⟩
  | none =>
    obtain ⟨q, hq, -⟩ := looked_eq { h.refusalSpent with watches := h.watches ++ [⟨d, word, interest⟩] } d interest
    simp only [hd', hw']
    exact ⟨(congrArg Host.refusals hq).trans rfl, .inl ⟨trivial, trivial⟩⟩

end Host

namespace Connections

variable {H : Type} {c : Connections H}

/-- an accepted connection is refused only if the call meets a refusal, or if its slot has no word; other refusals are
left to be met -/
theorem insert_answer {d : Descriptor} {id : Nat} (hs : c.host.Sound)
    (hd : c.host.device? d = some (.stream id .far)) (hw : c.host.watch? d = none) (peer : Address) :
    Met c.host.refusals.watch (WatchFault.answerOf? (c.insert d peer).value).toList
        (c.insert d peer).state.host.refusals.watch ∧
      (c.insert d peer).state.host.refusals.unblock = c.host.refusals.unblock ∧
      ((c.insert d peer).value = .error .slotTooLarge → UInt64.size ≤ c.slots.nextKey + Token.base) := by
  have hu := Host.undisturbed_elapse hs
  have hd' := (hu.calm (by simp) hd).device.trans hd
  have hw' : c.host.elapse.watch? d = none := (congrArg _ hu.watches).trans hw
  -- what comes after the call does not use refusals up
  have hclosed : ∀ h : Host, (h.elapse.close d false).refusals = h.refusals := fun h =>
    (Host.refusals_close ..).trans h.refusals_elapse
  cases hword : (Token.connection c.slots.nextKey).word? with
  | none =>
    have hinsert : c.insert d peer =
        { state := { c with notifier := c.notifier.onHost (·.elapse.close d false) }
          value := .error .slotTooLarge } := by
      simp [Connections.insert, Notifier.register, hword]
    rw [hinsert]
    rw [show (({ c with notifier := c.notifier.onHost (·.elapse.close d false) } : Connections H).host.refusals) =
      c.host.refusals from hclosed _]
    exact ⟨.nil _, rfl, fun _ => word?_eq_none.1 hword⟩
  | some word =>
    have hone := Met.one c.host.refusals.watch
    obtain ⟨hleft, hanswer⟩ := Host.watch_far hd' hw' word idleInterest
    rw [c.host.refusals_elapse] at hleft hanswer
    rcases hanswer with ⟨hok, hnone⟩ | ⟨code, hrefused, hsome⟩
    · have hvalue : (c.insert d peer).value = .ok c.slots.nextKey := by
        simp [Connections.insert, Notifier.register, hword, hok]
      have hhost : (c.insert d peer).state.host = (c.host.elapse.watch d word idleInterest).1 := by
        simp [Connections.insert, Notifier.register, hword, hok]
      rw [hnone] at hone
      rw [hvalue, hhost, hleft]
      exact ⟨hone, rfl, fun he => by cases he⟩
    · have hvalue : (c.insert d peer).value = .error (.refused code) := by
        simp [Connections.insert, Notifier.register, hword, hrefused]
      have hhost : (c.insert d peer).state.host =
          (c.host.elapse.watch d word idleInterest).1.elapse.close d false := by
        simp [Connections.insert, Notifier.register, Notifier.onHost, hword, hrefused]
      rw [hsome] at hone
      rw [hvalue, hhost, hclosed, hleft]
      exact ⟨hone, rfl, fun he => by cases he⟩

end Connections

/-! ## A scheduler that new tasks join -/

namespace Tasks

variable {U F : Type} {t t' t'' : Tasks U F} {new new' : List (Nat × Tenant U F)}

/-- these tasks were enrolled and queued, with serials that nobody had, and the others are as they were -/
structure Enrolls (new : List (Nat × Tenant U F)) (t t' : Tasks U F) : Prop where
  tenants : t'.slots.toList.Perm (new ++ t.slots.toList)
  queue : t'.queue = t.queue ++ new.map (·.1)
  marked : t'.marked = (new.map (·.2.serial)).reverse ++ t.marked
  serials : new.map (·.2.serial) = List.range' t.nextSerial new.length
  nextSerial : t'.nextSerial = t.nextSerial + new.length

theorem Enrolls.refl (t : Tasks U F) : Enrolls [] t t :=
  ⟨.refl _, (List.append_nil _).symm, rfl, rfl, rfl⟩

theorem Enrolls.trans (he : Enrolls new t t') (he' : Enrolls new' t' t'') : Enrolls (new ++ new') t t'' where
  tenants := perm_more he.tenants he'.tenants
  queue := by rw [he'.queue, he.queue, List.map_append, List.append_assoc]
  marked := by rw [he'.marked, he.marked, List.map_append, List.reverse_append, List.append_assoc]
  serials := by
    rw [List.map_append, he.serials, he'.serials, he.nextSerial, List.length_append, List.range'_append_1]
  nextSerial := by rw [he'.nextSerial, he.nextSerial, List.length_append, Nat.add_assoc]

theorem enrolls_push (ht : t.slots.Tidy) (work : F) (userdata : Option U) :
    Enrolls [(t.slots.nextKey, ⟨t.nextSerial, work, userdata⟩)] t (t.push work userdata).state :=
  ⟨Slots.perm_insert ht _, rfl, rfl, rfl, rfl⟩

end Tasks

/-! ## Draining a listener -/

namespace Server

variable {X : Type}

/-- why a connection that was taken from a listener is not served -/
inductive Loss where
  /-- calls on it could not be kept from waiting -/
  | waits (code : Errno)
  | unwatched (fault : WatchFault)

/-- one connection that was taken from a listener -/
structure Taken where
  arrival : Arrival
  descriptor : Descriptor
  /-- the slot and the task that serve it, or why it is not served -/
  outcome : Except Loss (Nat × Handle)

namespace Taken

/-- the record of the connection, under its slot, if it has one -/
def record? (t : Taken) : Option (Nat × Connection Handle) :=
  t.outcome.toOption.map fun served => (served.1, { descriptor := t.descriptor, peer := t.arrival.peer })

/-- the task that serves the connection and carries its slot, under the slot of its own, if there is one -/
def tenant? (protocol : Http.Protocol X) (t : Taken) : Option (Nat × Tenant Nat (ConnectionTask X)) :=
  t.outcome.toOption.map fun served =>
    (served.2.slot, ⟨served.2.serial, ⟨⟨served.1, t.arrival.peer⟩, protocol.start⟩, some served.1⟩)

/-- the refusal that ended the drain, if calls on the connection could not be kept from waiting -/
def waits? (t : Taken) : Option Errno :=
  match t.outcome with
  | .error (.waits code) => some code
  | _ => none

/-- how the call that watches was answered, if it came to that call -/
def watched? (t : Taken) : Option (Option Errno) :=
  match t.outcome with
  | .ok _ => some none
  | .error (.unwatched (.refused code)) => some (some code)
  | .error (.unwatched .slotTooLarge) | .error (.waits _) => none

/-- the device under the descriptor: the far end of the stream, or nothing if it had to be closed -/
def device? (t : Taken) : Option Device :=
  if t.outcome.isOk then some (.stream t.arrival.stream .far) else none

end Taken

/-- connections were taken from the listener of a server, those that waited longest, and nothing else changed. Each has
a record and a task of its own, or it could not be watched or kept from waiting; then it is closed and has neither -/
structure Drain (came : List Arrival) (taken : List Taken) (s s' : Server X) : Prop where
  admits : Host.Admits s.listener 0 came (taken.map (·.arrival)) s.host s'.host
  joins : Connections.Joins (taken.filterMap Taken.record?) s.connections s'.connections
  enrolls : Tasks.Enrolls (taken.filterMap (Taken.tenant? s.engine.protocol)) s.engine.tasks s'.engine.tasks
  rest : s' = { s with engine := { s.engine with tasks := s'.engine.tasks }, connections := s'.connections }
  kept : ∀ {d id}, s.host.device? d = some (.stream id .far) → s'.host.device? d = some (.stream id .far)
  fresh : ∀ t ∈ taken, s.host.devices.length ≤ t.descriptor ∧ t.descriptor < s'.host.devices.length
  distinct : (taken.map (·.descriptor)).Nodup
  devices : ∀ t ∈ taken, s'.host.device? t.descriptor = t.device?
  unblocks : Met s.host.refusals.unblock (taken.map Taken.waits?) s'.host.refusals.unblock
  watches : Met s.host.refusals.watch (taken.filterMap Taken.watched?) s'.host.refusals.watch
  crowded : ∀ t ∈ taken, t.outcome = .error (.unwatched .slotTooLarge) →
    UInt64.size ≤ s'.connections.slots.entries.length + Token.base

variable {s s' s'' : Server X} {came came' : List Arrival} {taken taken' : List Taken} {fixed : List Watch}
  {batch : List Readiness}

theorem Drain.listener (hd : Drain came taken s s') : s'.listener = s.listener := by rw [hd.rest]

theorem Drain.protocol (hd : Drain came taken s s') : s'.engine.protocol = s.engine.protocol := by rw [hd.rest]

/-- the listener is still one, and whoever was not taken waits at it -/
theorem Drain.listens {waiting : List Arrival} (hd : Drain came taken s s')
    (hl : s.host.device? s.listener = some (.listener waiting)) :
    ∃ left, s'.host.device? s'.listener = some (.listener left) ∧
      waiting ++ came = taken.map (·.arrival) ++ left := by
  rw [hd.listener]
  exact hd.admits.backlog hl

theorem Drain.fewer {t : Taken} (hd : Drain came [t] s s') :
    s'.host.callers s'.listener < s.host.callers s.listener := by
  rw [hd.listener]
  exact hd.admits.callers

theorem Drain.trans (hd : Drain came taken s s') (hd' : Drain came' taken' s' s'') :
    Drain (came ++ came') (taken ++ taken') s s'' where
  admits := by
    have hlater := hd'.admits
    rw [hd.listener] at hlater
    rw [List.map_append]
    exact hd.admits.trans hlater
  joins := by
    rw [List.filterMap_append]
    exact hd.joins.trans hd'.joins
  enrolls := by
    have hlater := hd'.enrolls
    rw [hd.protocol] at hlater
    rw [List.filterMap_append]
    exact hd.enrolls.trans hlater
  rest := by
    rw [hd'.rest, hd.rest]
  kept hfar := hd'.kept (hd.kept hfar)
  fresh t hm := by
    rcases List.mem_append.1 hm with hm | hm
    · exact ⟨(hd.fresh t hm).1, Nat.lt_of_lt_of_le (hd.fresh t hm).2 hd'.admits.opened⟩
    · exact ⟨hd.admits.opened.trans (hd'.fresh t hm).1, (hd'.fresh t hm).2⟩
  distinct := by
    rw [List.map_append, List.nodup_append]
    refine ⟨hd.distinct, hd'.distinct, fun d hm d' hm' he => ?_⟩
    obtain ⟨t, ht, rfl⟩ := List.mem_map.1 hm
    obtain ⟨t', ht', rfl⟩ := List.mem_map.1 hm'
    exact Nat.lt_irrefl _ (Nat.lt_of_lt_of_le (hd.fresh t ht).2 (he ▸ (hd'.fresh t' ht').1))
  devices t hm := by
    rcases List.mem_append.1 hm with hm | hm
    · have hdevice := hd.devices t hm
      unfold Taken.device? at hdevice ⊢
      split at hdevice
      · next hok => rw [hd'.kept hdevice, if_pos hok]
      · next hnot => rw [hd'.admits.gone (hd.fresh t hm).2 hdevice, if_neg hnot]
    · exact hd'.devices t hm
  unblocks := by
    rw [List.map_append]
    exact hd.unblocks.append hd'.unblocks
  watches := by
    rw [List.filterMap_append]
    exact hd.watches.append hd'.watches
  crowded t hm hfault := by
    rcases List.mem_append.1 hm with hm | hm
    · exact (hd.crowded t hm hfault).trans (Nat.add_le_add_right hd'.joins.grown _)
    · exact hd'.crowded t hm hfault

/-- a call that takes nobody -/
theorem drain_none {h : Host} (hu : Host.Undisturbed s.host h) (ha : Host.Admits s.listener 0 came [] s.host h)
    (hunblock : h.refusals.unblock = s.host.refusals.unblock) (hwatch : h.refusals.watch = s.host.refusals.watch) :
    Drain came [] s (s.onHost fun _ => h) where
  admits := ha
  joins := Connections.joins_of_eq rfl hu.watches rfl rfl rfl
  enrolls := .refl _
  rest := rfl
  kept hd := (hu.calm (by simp) hd).device.trans hd
  fresh _ hm := absurd hm List.not_mem_nil
  distinct := List.nodup_nil
  devices _ hm := absurd hm List.not_mem_nil
  unblocks := hunblock ▸ Met.nil _
  watches := hwatch ▸ Met.nil _
  crowded _ hm := absurd hm List.not_mem_nil

/-- what becomes of a connection that is welcome -/
def welcomed (s : Server X) (d : Descriptor) (arrival : Arrival) : Taken where
  arrival
  descriptor := d
  outcome := match (s.connections.insert d arrival.peer).value with
    | .ok key => .ok (key, (s.engine.serve key arrival.peer).value)
    | .error fault => .error (.unwatched fault)

theorem welcome_rest (s : Server X) (d : Descriptor) (peer : Address) :
    (s.welcome d peer).server = { s with
      engine := { s.engine with tasks := (s.welcome d peer).server.engine.tasks }
      connections := (s.welcome d peer).server.connections } := by
  rcases s.welcome_cases d peer with ⟨-, -, -, hs⟩ | ⟨-, -, hs⟩
  · rw [hs]
  · rw [hs]
    rfl

/-- a connection that is taken in joins the table and its task is enrolled; one that is refused is closed -/
theorem welcome_spec {d : Descriptor} {arrival : Arrival} (hc : s.connections.Sound fixed batch)
    (ht : s.engine.tasks.slots.Tidy) (hd : s.host.device? d = some (.stream arrival.stream .far))
    (hw : s.host.watch? d = none) :
    Connections.Joins ([s.welcomed d arrival].filterMap Taken.record?) s.connections
        (s.welcome d arrival.peer).server.connections ∧
      Tasks.Enrolls ([s.welcomed d arrival].filterMap (Taken.tenant? s.engine.protocol)) s.engine.tasks
        (s.welcome d arrival.peer).server.engine.tasks ∧
      (s.welcome d arrival.peer).server.host.device? d = (s.welcomed d arrival).device? := by
  obtain ⟨-, hinserted⟩ := Connections.joins_insert hc.host hc.tidy hd hw arrival.peer
  rcases s.welcome_cases d arrival.peer with ⟨fault, hvalue, -, hs⟩ | ⟨hvalue, -, hs⟩
  · have ho : (s.welcomed d arrival).outcome = .error (.unwatched fault) := by rw [welcomed, hvalue]
    rcases hinserted with ⟨-, -, hjoins, hclosed⟩ | ⟨hvalue', -⟩
    · rw [hs]
      simp only [List.filterMap_cons, List.filterMap_nil, Taken.record?, Taken.tenant?, Taken.device?, ho]
      exact ⟨hjoins, .refl _, hclosed⟩
    · rw [hvalue] at hvalue'
      cases hvalue'
  · have ho : (s.welcomed d arrival).outcome = .ok (s.connections.slots.nextKey,
        (s.engine.serve s.connections.slots.nextKey arrival.peer).value) := by rw [welcomed, hvalue]
    rcases hinserted with ⟨fault, hvalue', -⟩ | ⟨-, hjoins, hdevice⟩
    · rw [hvalue] at hvalue'
      cases hvalue'
    · rw [hs]
      simp only [List.filterMap_cons, List.filterMap_nil, Taken.record?, Taken.tenant?, Taken.device?, ho]
      exact ⟨hjoins, Tasks.enrolls_push ht _ _, hdevice⟩

/-- the call that watches was answered as the table says -/
theorem watched?_welcomed (s : Server X) (d : Descriptor) (arrival : Arrival) :
    (s.welcomed d arrival).watched? = WatchFault.answerOf? (s.connections.insert d arrival.peer).value := by
  unfold Taken.watched? welcomed
  cases (s.connections.insert d arrival.peer).value with
  | ok key => rfl
  | error fault => cases fault <;> rfl

theorem waits?_welcomed (s : Server X) (d : Descriptor) (arrival : Arrival) : (s.welcomed d arrival).waits? = none := by
  unfold Taken.waits? welcomed
  cases (s.connections.insert d arrival.peer).value <;> rfl

/-- a connection that was taken, and whose calls do not wait, is welcome -/
theorem drain_welcome {arrival : Arrival} {d : Descriptor} {h : Host} {waiting : List Arrival}
    (hc : s.connections.Sound fixed batch) (ht : s.engine.tasks.slots.Tidy)
    (hl : s.host.device? s.listener = some (.listener waiting)) (hf : Host.Fetched s.listener came arrival d s.host h)
    (hunblock : Met s.host.refusals.unblock [none] h.refusals.unblock) :
    let s' := ((s.onHost fun _ => h).welcome d arrival.peer).server
    ∃ came t, Drain came [t] s s' ∧ t.waits? = none ∧ s'.host.refusals.accept = s.host.refusals.accept.tail := by
  let s₁ := s.onHost fun _ => h
  have hu := hf.undisturbed
  have hc₁ : s₁.connections.Sound fixed batch := hc.onHost hu
  obtain ⟨left, hleft, -⟩ := hf.admits.backlog hl
  have hw : s₁.host.watch? d = none := hf.unwatched hc.host
  have hne : s.listener ≠ d := Nat.ne_of_lt (Nat.lt_of_lt_of_le (Host.lt_length_of_device? hl) hf.fresh)
  have hhost : (s₁.welcome d arrival.peer).server.host = (s₁.connections.insert d arrival.peer).state.host :=
    congrArg Connections.host (s₁.welcome_connections d arrival.peer)
  obtain ⟨came', hhailed⟩ := (hc₁.clear hleft).hailed_insert hne arrival.peer
  obtain ⟨hspares, -⟩ := Connections.joins_insert hc₁.host hc₁.tidy hf.far hw arrival.peer
  obtain ⟨hanswers, hkept, hcrowded⟩ := Connections.insert_answer hc₁.host hf.far hw arrival.peer
  obtain ⟨hjoins, henrolls, hdevice⟩ := welcome_spec hc₁ ht hf.far hw
  have hbefore : Connections.Joins [] s.connections s₁.connections := Connections.joins_of_eq rfl hu.watches rfl rfl rfl
  refine ⟨came ++ came', s₁.welcomed d arrival, ⟨?_, hbefore.trans hjoins, henrolls, s₁.welcome_rest d arrival.peer,
    fun {e id} he => ?_, fun t hm => ?_, List.nodup_singleton _, fun t hm => ?_, ?_, ?_, fun t hm => ?_⟩,
    s₁.waits?_welcomed d arrival, ?_⟩
  · rw [hhost]
    exact hf.admits.trans (hhailed.admits hleft)
  · have he₁ : s₁.host.device? e = some (.stream id .far) := (hu.calm (by simp) he).device.trans he
    have hother : some d ≠ some e := fun heq =>
      Nat.not_le_of_lt (Host.lt_length_of_device? he) (Option.some.inj heq ▸ hf.fresh)
    rw [hhost]
    exact (hspares.calm hother he₁).device.trans he₁
  · rw [List.mem_singleton.1 hm, hhost]
    exact ⟨hf.fresh, Nat.lt_of_lt_of_le (Host.lt_length_of_device? hf.far) hhailed.opened⟩
  · rw [List.mem_singleton.1 hm]
    exact hdevice
  · rw [List.map_singleton, waits?_welcomed, hhost, hkept]
    exact hunblock
  · have hanswer : [s₁.welcomed d arrival].filterMap Taken.watched? =
        (WatchFault.answerOf? (s₁.connections.insert d arrival.peer).value).toList := by
      rw [List.filterMap_cons, List.filterMap_nil, watched?_welcomed]
      cases WatchFault.answerOf? (s₁.connections.insert d arrival.peer).value <;> rfl
    rw [hhost, hanswer, ← hf.watch]
    exact hanswers
  · have hfault : (s₁.connections.insert d arrival.peer).value = .error .slotTooLarge → UInt64.size ≤
        (s₁.welcome d arrival.peer).server.connections.slots.entries.length + Token.base := fun hfault =>
      (hcrowded hfault).trans (Nat.add_le_add_right ((Slots.nextKey_le hc.tidy).trans hjoins.grown) _)
    rw [List.mem_singleton.1 hm, welcomed]
    cases hvalue : (s₁.connections.insert d arrival.peer).value with
    | ok key => exact fun he => by cases he
    | error fault =>
      intro he
      cases he
      exact hfault hvalue
  · rw [hhost]
    exact hhailed.refusals.trans hf.accept

/-- a connection that was taken, and whose calls might wait, is closed, and nothing is left of it -/
theorem drain_lost {arrival : Arrival} {d : Descriptor} {h : Host} {waiting : List Arrival} {code : Errno}
    (hs : s.host.Sound) (hl : s.host.device? s.listener = some (.listener waiting))
    (hf : Host.Fetched s.listener came arrival d s.host h)
    (hunblock : Met s.host.refusals.unblock [some code] h.refusals.unblock) :
    let s' := s.onHost fun _ => h.elapse.close d false
    ∃ came t, Drain came [t] s s' ∧ t.waits? = some code ∧
      s'.host.refusals.accept = s.host.refusals.accept.tail := by
  have hlater := Host.undisturbed_elapse hf.undisturbed.sound
  have hnew : s.host.device? d = none := by simp [Host.device?, List.getElem?_eq_none hf.fresh]
  have hu : Host.Undisturbed s.host (h.elapse.close d false) :=
    (hf.undisturbed.trans hlater).close_new hs hnew ((hlater.calm (by simp) hf.far).device.trans hf.far) false
  have hrefusals : (h.elapse.close d false).refusals = h.refusals :=
    (Host.refusals_close ..).trans h.refusals_elapse
  have hne : s.listener ≠ d := Nat.ne_of_lt (Nat.lt_of_lt_of_le (Host.lt_length_of_device? hl) hf.fresh)
  obtain ⟨left, hleft, -⟩ := hf.admits.backlog hl
  obtain ⟨came', hhailed⟩ := (Host.hailed_elapse hleft).trans (Host.hailed_close hne false)
  refine ⟨came ++ came', ⟨arrival, d, .error (.waits code)⟩, ⟨?_, Connections.joins_of_eq rfl hu.watches rfl rfl rfl,
    .refl _, rfl, fun he => (hu.calm (by simp) he).device.trans he, fun t hm => ?_, List.nodup_singleton _,
    fun t hm => ?_, ?_, ?_, fun t hm he => ?_⟩, rfl, (congrArg (·.accept) hrefusals).trans hf.accept⟩
  · exact hf.admits.trans (hhailed.admits hleft)
  · rw [List.mem_singleton.1 hm]
    exact ⟨hf.fresh, Nat.lt_of_lt_of_le (Host.lt_length_of_device? hf.far) hhailed.opened⟩
  · rw [List.mem_singleton.1 hm]
    exact Host.device?_close ..
  · rw [show (s.onHost fun _ => h.elapse.close d false).host.refusals = h.refusals from hrefusals]
    exact hunblock
  · rw [show (s.onHost fun _ => h.elapse.close d false).host.refusals = h.refusals from hrefusals, hf.watch]
    exact .nil _
  · rw [List.mem_singleton.1 hm] at he
    cases he

/-- one call that accepts: nobody is taken, since the call is refused or nobody waits; or one connection is, which is
welcome, or lost since calls on it might wait -/
theorem drain_accept {waiting : List Arrival} (hc : s.connections.Sound fixed batch) (ht : s.engine.tasks.slots.Tidy)
    (hl : s.host.device? s.listener = some (.listener waiting)) :
    let s₁ := s.onHost fun _ => (Nonblocking.accept s.host s.listener).1
    (∃ came last, (∀ accepted, (Nonblocking.accept s.host s.listener).2 ≠ .done accepted) ∧ Drain came [] s s₁ ∧
        Met s.host.refusals.accept [last] s₁.host.refusals.accept ∧ (last = none → waiting ++ came = [])) ∨
      (∃ came t code, (∀ accepted, (Nonblocking.accept s.host s.listener).2 ≠ .done accepted) ∧ Drain came [t] s s₁ ∧
        t.waits? = some code ∧ Met s.host.refusals.accept [none] s₁.host.refusals.accept) ∨
      ∃ d peer came t, (Nonblocking.accept s.host s.listener).2 = .done (d, peer) ∧
        Drain came [t] s (s₁.welcome d peer).server ∧ t.waits? = none ∧
        Met s.host.refusals.accept [none] (s₁.welcome d peer).server.host.refusals.accept := by
  have hone := Met.one s.host.refusals.accept
  have hunblock := Met.one s.host.refusals.unblock
  rcases Nonblocking.accept_of_listener (h := s.host) hc.host hl with
    ⟨came, hnone, hu, hadmits, hrefusals, hempty⟩ | ⟨hmet, came, arrival, d, h, hf, hleft, hways⟩
  · refine .inl ⟨came, _, hnone, drain_none hu hadmits (by rw [hrefusals]) (by rw [hrefusals]), ?_, hempty⟩
    rw [show (s.onHost fun _ => (Nonblocking.accept s.host s.listener).1).host.refusals = _ from hrefusals]
    exact hone
  rw [hmet] at hone
  rw [← hleft] at hunblock
  rcases hways with ⟨hr, hcall⟩ | ⟨code, hr, hcall⟩
  · rw [hr] at hunblock
    obtain ⟨came', t, hd, hkept, haccept⟩ := drain_welcome hc ht hl hf hunblock
    rw [hcall]
    exact .inr (.inr ⟨d, arrival.peer, came', t, rfl, hd, hkept, haccept ▸ hone⟩)
  · rw [hr] at hunblock
    obtain ⟨came', t, hd, hlost, haccept⟩ := drain_lost hc.host hl hf hunblock
    rw [hcall]
    exact .inr (.inl ⟨came', t, code, fun accepted => by simp, hd, hlost, haccept ▸ hone⟩)

/-- the table and the scheduler after a call that takes a connection -/
theorem sound_accept (hc : s.connections.Sound fixed batch) (ht : s.engine.tasks.slots.Tidy) {d : Descriptor}
    {peer : Address} (hdone : (Nonblocking.accept s.host s.listener).2 = .done (d, peer)) :
    let s' := ((s.onHost fun _ => (Nonblocking.accept s.host s.listener).1).welcome d peer).server
    s'.connections.Sound fixed batch ∧ s'.engine.tasks.slots.Tidy := by
  obtain ⟨hu, hnew⟩ := Nonblocking.accept_spec (h := s.host) hc.host s.listener
  obtain ⟨⟨id, hd⟩, hw⟩ := hnew hdone
  refine ⟨?_, ?_⟩
  · rw [welcome_connections]
    exact (Connections.sound_insert (hc.onHost hu) hd hw peer).1
  · rcases (s.onHost fun _ => (Nonblocking.accept s.host s.listener).1).welcome_cases d peer with
      ⟨-, -, -, hs⟩ | ⟨-, -, hs⟩
    · rw [hs]
      exact ht
    · rw [hs]
      exact ht.insert _

/-- how a drain of the listener ended: a call found nobody, or it was refused, or what it took was lost -/
inductive Ending where
  | emptied
  | refused (code : Errno)
  | lost (code : Errno)

namespace Ending

/-- how the last call that accepts was answered, if it took nobody -/
def answers : Ending → List (Option Errno)
  | emptied => [none]
  | refused code => [some code]
  | lost _ => []

def loss? : Ending → Option Errno
  | lost code => some code
  | _ => none

end Ending

/-- what a drain of the listener came to: connections were taken until a call was refused or found nobody, or until one
that was taken was lost since calls on it might wait -/
structure FullDrain (came : List Arrival) (taken : List Taken) (ending : Ending) (s s' : Server X) : Prop
    extends Drain came taken s s' where
  calls : Met s.host.refusals.accept (List.replicate taken.length none ++ ending.answers) s'.host.refusals.accept
  lost : taken.filterMap Taken.waits? = ending.loss?.toList
  last : ∀ t ∈ taken.dropLast, t.waits? = none
  emptied : ending = .emptied → s'.host.device? s.listener = some (.listener [])

theorem FullDrain.after {t : Taken} {ending : Ending} (hd : Drain came [t] s s') (ht : t.waits? = none)
    (hcalls : Met s.host.refusals.accept [none] s'.host.refusals.accept) (hd' : FullDrain came' taken ending s' s'') :
    FullDrain (came ++ came') (t :: taken) ending s s'' where
  toDrain := hd.trans hd'.toDrain
  calls := hcalls.append hd'.calls
  lost := (List.filterMap_cons_none ht).trans hd'.lost
  last u hm := by
    cases taken with
    | nil => cases hm
    | cons first rest =>
      rw [List.dropLast_cons_cons] at hm
      rcases List.mem_cons.1 hm with rfl | hm
      · exact ht
      · exact hd'.last u hm
  emptied hending := hd.listener ▸ hd'.emptied hending

/-- a drain comes to its end if it may make more calls than there are callers -/
theorem fullDrain_acceptUpTo {limit : Nat} {waiting : List Arrival} (hc : s.connections.Sound fixed batch)
    (ht : s.engine.tasks.slots.Tidy) (hl : s.host.device? s.listener = some (.listener waiting))
    (hlimit : s.host.callers s.listener < limit) :
    (∃ came taken ending, FullDrain came taken ending s (s.acceptUpTo limit).server) ∧
      (s.acceptUpTo limit).server.connections.Sound fixed batch := by
  induction limit generalizing s waiting with
  | zero => cases hlimit
  | succ limit ih =>
    have hsound := hc.onHost (Nonblocking.accept_spec (h := s.host) hc.host s.listener).1
    -- a call that gives nobody ends the drain
    have hends : (∀ accepted, (Nonblocking.accept s.host s.listener).2 ≠ .done accepted) →
        (s.acceptUpTo (limit + 1)).server = s.onHost fun _ => (Nonblocking.accept s.host s.listener).1 := by
      intro hnone
      unfold acceptUpTo
      dsimp only
      split
      · rfl
      · rfl
      · next hdone => exact absurd hdone (hnone _)
    rcases drain_accept hc ht hl with ⟨came, last, hnone, hd, hcalls, hempty⟩ |
      ⟨came, t, code, hnone, hd, hlost, hcalls⟩ | ⟨d, peer, came, t, hdone, hd, hkept, hcalls⟩
    · rw [hends hnone]
      refine ⟨⟨came, [], (last.map Ending.refused).getD .emptied, hd, ?_, ?_, fun _ hm => absurd hm List.not_mem_nil,
        fun hlast => ?_⟩, hsound⟩
      · cases last <;> exact hcalls
      · cases last <;> rfl
      · obtain ⟨left, hleft, hwaiting⟩ := hd.listens hl
        cases last with
        | some code => cases hlast
        | none =>
          rw [hempty rfl, List.map_nil, List.nil_append] at hwaiting
          exact hleft.trans (by rw [hwaiting])
    · rw [hends hnone]
      refine ⟨⟨came, [t], .lost code, hd, hcalls, ?_, fun _ hm => absurd hm List.not_mem_nil, fun he => by cases he⟩,
        hsound⟩
      rw [List.filterMap_cons_some hlost]
      rfl
    · obtain ⟨hc', ht'⟩ := sound_accept hc ht hdone
      obtain ⟨left, hleft, -⟩ := hd.listens hl
      have hfewer := hd.fewer
      obtain ⟨⟨came', taken, ending, hrest⟩, hsound⟩ := ih hc' ht' hleft (by omega)
      unfold acceptUpTo
      simp only [hdone]
      exact ⟨⟨_, _, _, .after hd hkept hcalls hrest⟩, hsound⟩

/-- how many calls it may make does not matter then -/
theorem acceptUpTo_eq {limit limit' : Nat} {waiting : List Arrival} (hc : s.connections.Sound fixed batch)
    (ht : s.engine.tasks.slots.Tidy) (hl : s.host.device? s.listener = some (.listener waiting))
    (hlimit : s.host.callers s.listener < limit) (hlimit' : s.host.callers s.listener < limit') :
    s.acceptUpTo limit = s.acceptUpTo limit' := by
  induction limit generalizing s waiting limit' with
  | zero => cases hlimit
  | succ limit ih =>
    obtain ⟨limit', rfl⟩ : ∃ n, limit' = n + 1 := ⟨limit' - 1, by omega⟩
    unfold acceptUpTo
    dsimp only
    rcases drain_accept hc ht hl with ⟨-, -, hnone, -⟩ | ⟨-, -, -, hnone, -⟩ | ⟨d, peer, came, t, hdone, hd, -⟩
    iterate 2
      split
      · rfl
      · rfl
      · next hdone => exact absurd hdone (hnone _)
    · obtain ⟨hc', ht'⟩ := sound_accept hc ht hdone
      obtain ⟨left, hleft, -⟩ := hd.listens hl
      have hfewer := hd.fewer
      have hrest := ih hc' ht' hleft (by omega : _ < limit) (by omega : _ < limit')
      simp only [hdone, hrest]

end Server

end EventServer
