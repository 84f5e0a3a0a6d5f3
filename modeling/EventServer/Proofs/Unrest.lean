/-
How much a server may yet stir by itself.

The host reports conditions when they arise, and a server makes some arise: a write that had to wait has the watch
changed, which queues the descriptor if anything holds there, and a report resumes a task that may do so again. What
keeps this from going on for ever is the heat of a stream (`Stream.heat`): how often its far end may still have
something resumed there. No call of the server on its own end makes it larger (`heat_recv`, `heat_send`, `heat_finish`),
and where a call had to wait, what it parks is cold (`cold_of_recv`, `cold_of_send`).

`Connections.unrest` sums that up with what is queued and what is watched for room to write. The turn of a task costs
two at most (`Engages.unrest`); a report that fits the conditions pays that for every handle that it takes out
(`unrest_fire`); to take a connection out costs nothing (`unrest_remove`); and a wait takes from the queue what it
reports (`harvest_drains`). Nobody else acts in any of this: no deed is ahead.
-/
import EventServer.Proofs.Berth
import EventServer.Proofs.Custody
import EventServer.Proofs.Inbound
import EventServer.Proofs.Waiting

namespace EventServer

theorem Conditions.Within.wakes {a b : Conditions} (h : a.Within b) (direction : Direction)
    (hw : a.wakes direction) : b.wakes direction := by
  obtain ⟨hinput, houtput, herror, hhangup⟩ := h
  cases direction <;> simp only [Conditions.wakes, Bool.or_eq_true] at hw ⊢ <;> tauto

/-- how many of an end's own marks can still come up -/
def StreamEnd.unmarked (e : StreamEnd) : Nat := (!e.finished).toNat + (!e.broken).toNat

namespace Stream

variable {s s' : Stream} {read write : Bool}

/-- how often the far end may yet resume what is parked there: once for each parked direction that its conditions are
for, and for each mark of its own that can still come up and so change them -/
def heat (s : Stream) (read write : Bool) : Nat :=
  (read && (s.conditions .far).wakes .read).toNat + (write && (s.conditions .far).wakes .write).toNat + s.far.unmarked

theorem toNat_and_le {p a b : Bool} (h : a → b) : (p && a).toNat ≤ (p && b).toNat := by
  cases p <;> cases a <;> cases b <;> simp_all

theorem heat_le_of_within (h : (s'.conditions .far).Within (s.conditions .far))
    (hmarks : s'.far.unmarked ≤ s.far.unmarked) : s'.heat read write ≤ s.heat read write := by
  have hr := toNat_and_le (p := read) (h.wakes .read)
  have hw := toNat_and_le (p := write) (h.wakes .write)
  unfold heat
  omega

/-- a mark that comes up may have a write resumed; a read could be resumed already -/
theorem heat_le_of_marked (hreadable : s.readable .far) (hmarks : s'.far.unmarked < s.far.unmarked) :
    s'.heat read write ≤ s.heat read write := by
  have hr := toNat_and_le (p := read) (a := (s'.conditions .far).wakes .read) (b := (s.conditions .far).wakes .read)
    fun _ => by simp [Conditions.wakes, conditions, hreadable]
  have hw := (write && (s'.conditions .far).wakes .write).toNat_le
  unfold heat
  omega

theorem within_untroubled (s : Stream) :
    ((s.update .far fun e => { e with trouble := none }).conditions .far).Within (s.conditions .far) :=
  ⟨id, id, nofun, id⟩

theorem heat_recv (s : Stream) (count : Nat) : (s.recv .far count).stream.heat read write ≤ s.heat read write := by
  unfold recv
  dsimp only
  split
  · split
    · exact heat_le_of_within s.within_untroubled (Nat.le_refl _)
    · exact Nat.le_refl _
  · have hreadable : s.readable .far := by simp_all [readable]
    exact heat_le_of_within ⟨fun _ => hreadable, id, id, id⟩ (Nat.le_refl _)

theorem heat_deliver (s : Stream) (bytes : Bytes) :
    (s.deliver .far bytes).stream.heat read write ≤ s.heat read write := by
  unfold deliver
  dsimp only
  split
  · exact Nat.le_refl _
  · exact heat_le_of_within ⟨id, fun h => writable_of_inbox_append (writable_iff.1 h), id, id⟩ (Nat.le_refl _)

theorem heat_send (s : Stream) (bytes : Bytes) : (s.send .far bytes).stream.heat read write ≤ s.heat read write := by
  unfold send
  dsimp only
  split
  · split
    · exact Nat.le_refl _
    · split
      · exact Nat.le_refl _
      · exact s.heat_deliver bytes
  · split
    · exact heat_le_of_within s.within_untroubled (Nat.le_refl _)
    · split
      · exact Nat.le_refl _
      · next hopen =>
        split
        · exact Nat.le_refl _
        · split
          · next hclosed =>
            have hbroken : s.far.broken = false := by simp_all [get]
            refine heat_le_of_marked (by simp_all [readable, atEnd]) ?_
            simp [StreamEnd.unmarked, update, hbroken]
          · exact s.heat_deliver bytes

theorem heat_finish (s : Stream) : (s.finish .far).stream.heat read write ≤ s.heat read write := by
  have hmarks : (s.update .far fun e => { e with finished := true }).far.unmarked ≤ s.far.unmarked := by
    simp [StreamEnd.unmarked, update]
  unfold finish
  split
  · exact Nat.le_refl _
  · by_cases hh : (s.update .far fun e => { e with finished := true }).hungUp .far → s.hungUp .far
    · exact heat_le_of_within ⟨id, id, id, hh⟩ hmarks
    · -- hung up by this: the peer's side was over, and this one was not
      obtain ⟨hnow, hbefore⟩ := Classical.not_imp.1 hh
      have hopen : s.far.finished = false := by
        cases hf : s.far.finished with
        | false => rfl
        | true => exact absurd hnow (by simpa [hungUp, update, get, hf, Side.other] using hbefore)
      have hover : s.readable .far := by
        revert hnow hbefore
        cases hfamily : s.family <;> simp [hungUp, readable, atEnd, update, get, hfamily, Side.other] <;> tauto
      exact heat_le_of_marked hover (by simp [StreamEnd.unmarked, update, hopen])

/-- once a read would have to wait, nothing resumes one -/
theorem cold_of_recv (h : s.Sound) {count : Nat} {code : Errno} (hr : (s.recv .far count).value = .error code)
    (hc : code.kind = .wouldBlock) :
    (s.recv .far count).stream = s ∧ (s.conditions .far).wakes .read = false := by
  obtain ⟨hsame, hquiet⟩ := quiet_of_recv h hr hc
  refine ⟨hsame, ?_⟩
  have hinput := hquiet.input
  have hhangup : s.hungUp .far = false := by
    revert hinput
    cases hfamily : s.family <;> simp [hungUp, readable, atEnd, get, hfamily, Side.other] <;> tauto
  simp [Conditions.wakes, conditions, hinput, hhangup, hquiet.error]

/-- once a write would have to wait, nothing resumes one -/
theorem cold_of_send (h : s.Sound) {bytes : Bytes} {code : Errno} (hr : (s.send .far bytes).value = .error code)
    (hc : code.kind = .wouldBlock) :
    (s.send .far bytes).stream = s ∧ (s.conditions .far).wakes .write = false := by
  obtain ⟨hsame, hquiet⟩ := quiet_of_send h hr hc
  refine ⟨hsame, ?_⟩
  have hhangup : s.hungUp .far = false := by
    by_contra hhung
    rw [Bool.not_eq_false] at hhung
    have hbroken : (s.send .far bytes).value = .error .brokenPipe := by
      have herror := hquiet.error
      unfold send
      cases hfamily : s.family <;> simp_all [hungUp] <;> grind
    rw [hbroken] at hr
    cases hr
    exact absurd hc (by decide)
  simp [Conditions.wakes, conditions, hquiet.output, hhangup, hquiet.error]

end Stream

/-- a value is changed or taken out, and what is measured of the others stays -/
theorem Slots.total_alter {α : Type} (m m' : α → Nat) {s : Slots α} (s' : Slots α) {key : Nat} {old : α}
    (hold : s.get? key = some old) (hothers : ∀ k, k ≠ key → (s'.get? k).map m' = (s.get? k).map m) :
    s'.total m' + m old = s.total m + ((s'.get? key).map m').getD 0 := by
  let bound := max (key + 1) (max s.entries.length s'.entries.length)
  have hkey : key ∈ Finset.range bound := Finset.mem_range.2 (by omega)
  have hbefore : s.entries.length ≤ bound := by omega
  have hafter : s'.entries.length ≤ bound := by omega
  rw [s.total_eq_sum m hbefore, s'.total_eq_sum m' hafter, ← Finset.add_sum_erase _ _ hkey, ← Finset.add_sum_erase _ _ hkey, hold]
  have hrest : ∑ k ∈ (Finset.range bound).erase key, ((s'.get? k).map m').getD 0 =
      ∑ k ∈ (Finset.range bound).erase key, ((s.get? k).map m).getD 0 :=
    Finset.sum_congr rfl fun k hk => by rw [hothers k (Finset.ne_of_mem_erase hk)]
  rw [hrest]
  simp only [Option.map_some, Option.getD_some]
  omega

theorem Slots.total_set {α : Type} (m : α → Nat) {s : Slots α} {key : Nat} {old : α} (hold : s.get? key = some old)
    (value : α) : (s.set key value).total m + m old = s.total m + m value := by
  have htotal := total_alter m m (s.set key value) hold fun k hk => by rw [get?_set hold, if_neg hk]
  rwa [get?_set hold, if_pos rfl] at htotal

theorem Slots.total_erase {α : Type} (m : α → Nat) {s : Slots α} {key : Nat} {old : α} (hold : s.get? key = some old) :
    (s.erase key).total m + m old = s.total m := by
  have htotal := total_alter m m (s.erase key) hold fun k hk => by rw [get?_erase, if_neg hk]
  rwa [get?_erase, if_pos rfl] at htotal

theorem Slots.total_succ {α : Type} (m : α → Nat) (s : Slots α) :
    s.total (fun value => m value + 1) = s.total m + s.size := by
  unfold total size
  induction s.toList with
  | nil => rfl
  | cons entry rest ih =>
    simp only [List.foldr_cons, List.length_cons, ih]
    omega

namespace Host

variable {h h' h'' : Host} {α : Type} {d : Descriptor} {i : Nat} {w : Watch} {s : Stream}

/-- what a call does to the host while nobody else acts: no descriptor is opened or closed, no signal comes, and one
descriptor at most is queued -/
structure Nudges (d : Descriptor) (h h' : Host) : Prop where
  others : h'.others = h.others
  devices : h'.devices = h.devices
  pending : h'.pending = h.pending
  interruptions : h'.interruptions ≤ h.interruptions
  queue : h'.queue = h.queue ∨ d ∉ h.queue ∧ h'.queue = h.queue ++ [d]

theorem Nudges.refl (d : Descriptor) (h : Host) : Nudges d h h := ⟨rfl, rfl, rfl, Nat.le_refl _, .inl rfl⟩

theorem Nudges.trans (h₁ : Nudges d h h') (h₂ : Nudges d h' h'') : Nudges d h h'' where
  others := h₂.others.trans h₁.others
  devices := h₂.devices.trans h₁.devices
  pending := h₂.pending.trans h₁.pending
  interruptions := Nat.le_trans h₂.interruptions h₁.interruptions
  queue := by
    rcases h₁.queue with hq | ⟨hn, hq⟩
    · rw [← hq]
      exact h₂.queue
    · rcases h₂.queue with hq' | ⟨hn', -⟩
      · exact .inr ⟨hn, hq'.trans hq⟩
      · exact absurd (by simp [hq]) hn'

theorem Nudges.device? (hn : Nudges d h h') (e : Descriptor) : h'.device? e = h.device? e := by
  rw [Host.device?, Host.device?, hn.devices]

theorem Nudges.length_queue (hn : Nudges d h h') : h'.queue.length ≤ h.queue.length + 1 := by
  rcases hn.queue with hq | ⟨-, hq⟩ <;> simp [hq]

/-- nobody acts in a step of the host: no signal comes, nothing is opened, and what is no far end of a stream stays as it
is -/
structure Abides (h h' : Host) : Prop where
  others : h'.others = h.others
  pending : h'.pending = h.pending
  length : h'.devices.length = h.devices.length
  devices : ∀ {e device}, h.device? e = some device → (∀ i, device ≠ .stream i .far) → h'.device? e = some device

theorem Abides.refl (h : Host) : Abides h h := ⟨rfl, rfl, rfl, fun he _ => he⟩

theorem Abides.trans (h₁ : Abides h h') (h₂ : Abides h' h'') : Abides h h'' :=
  ⟨h₂.others.trans h₁.others, h₂.pending.trans h₁.pending, h₂.length.trans h₁.length,
    fun he hne => h₂.devices (h₁.devices he hne) hne⟩

theorem Nudges.abides (hn : Nudges d h h') : Abides h h' :=
  ⟨hn.others, hn.pending, congrArg List.length hn.devices, fun {e _} he _ => (hn.device? e).trans he⟩

theorem nudges_enqueue (h : Host) (d : Descriptor) : Nudges d h (h.enqueue d) := by
  unfold enqueue
  split
  · exact .refl d h
  · next hq => exact ⟨rfl, rfl, rfl, Nat.le_refl _, .inr ⟨fun hm => hq (List.contains_iff_mem.2 hm), rfl⟩⟩

/-- an operation on a stream queues the descriptor of its far end at most -/
theorem nudges_onStream (hs : h.Sound) (hd : h.device? d = some (.stream i .far)) (hw : h.watch? d = some w)
    (hstream : h.streams[i]? = some s) (operation : Stream → Stirred α) (otherwise : α)
    (hk : (operation s).stream.Sound) :
    Nudges d h (h.onStream i operation otherwise).1 ∧
      (h.onStream i operation otherwise).1.streams = h.streams.set i (operation s).stream ∧
      (h.onStream i operation otherwise).2 = (operation s).value := by
  let after : Host := { h with streams := h.streams.set i (operation s).stream }
  have hstirs := stirEnds_far (h := after) (hs.setStream i hk) hd hw (operation s).stirs
  have hafter : Nudges d h after := ⟨rfl, rfl, rfl, Nat.le_refl _, .inl rfl⟩
  unfold Host.onStream
  rw [hstream]
  dsimp only
  rw [hstirs]
  split
  · have hqueued := hafter.trans (nudges_enqueue after d)
    obtain ⟨q, hq, -⟩ := after.enqueue_eq d
    exact ⟨hqueued, congrArg Host.streams hq, rfl⟩
  · exact ⟨hafter, rfl, rfl⟩

theorem nudges_rewatch (h : Host) (d : Descriptor) (word : UInt64) (interest : Interest) :
    Nudges d h (h.rewatch d word interest).1 ∧ (h.rewatch d word interest).1.streams = h.streams ∧
      ((h.rewatch d word interest).2 ≠ .ok () → (h.rewatch d word interest).1.queue = h.queue) := by
  unfold rewatch
  dsimp only
  split
  · exact ⟨⟨rfl, rfl, rfl, Nat.le_refl _, .inl rfl⟩, rfl, fun _ => rfl⟩
  · exact ⟨⟨rfl, rfl, rfl, Nat.le_refl _, .inl rfl⟩, rfl, fun _ => rfl⟩
  · split
    · exact ⟨⟨rfl, rfl, rfl, Nat.le_refl _, .inl rfl⟩, rfl, fun _ => rfl⟩
    · next w hw =>
      let changed : Host := { h with
        refusals := h.refusals.changed d
        watches := h.watches.map fun w => if w.descriptor == d then ⟨d, word, interest⟩ else w }
      have hchanged : Nudges d h changed := ⟨rfl, rfl, rfl, Nat.le_refl _, .inl rfl⟩
      show Nudges d h (if changed.holds d interest then changed.enqueue d else changed) ∧ _
      obtain ⟨q, hq, -⟩ := changed.enqueue_eq d
      have hstreams := congrArg Host.streams hq
      split
      · exact ⟨hchanged.trans (nudges_enqueue changed d), hstreams, fun h => absurd rfl h⟩
      · exact ⟨hchanged, rfl, fun h => absurd rfl h⟩

/-- a call that uses up the interruptions first and then operates on a stream -/
theorem nudges_called (hs : h.Sound) (hd : h.device? d = some (.stream i .far)) (hw : h.watch? d = some w)
    (hstream : h.streams[i]? = some s) (operation : Stream → Stirred α) (otherwise : α)
    (hk : (operation s).stream.Sound) :
    let after := ({ h with interruptions := 0 } : Host).onStream i operation otherwise
    Nudges d h after.1 ∧ after.1.streams = h.streams.set i (operation s).stream ∧
      after.2 = (operation s).value := by
  let calm : Host := { h with interruptions := 0 }
  have hcalm : calm.Sound := ⟨hs.ends, hs.known, hs.streams, hs.watches, hs.watched⟩
  have hspent : Nudges d h calm := ⟨rfl, rfl, rfl, Nat.zero_le _, .inl rfl⟩
  obtain ⟨hnudges, hafter⟩ := nudges_onStream hcalm hd hw hstream operation otherwise hk
  exact ⟨hspent.trans hnudges, hafter⟩

theorem nudges_recv (hs : h.Sound) (hothers : h.others = []) (hd : h.device? d = some (.stream i .far))
    (hw : h.watch? d = some w) (hstream : h.streams[i]? = some s) (count : Nat) :
    Nudges d h (Nonblocking.recv h d count).1 ∧
      (Nonblocking.recv h d count).1.streams = h.streams.set i (s.recv .far count).stream ∧
      (Nonblocking.recv h d count).2 = .ofResult (s.recv .far count).value := by
  have hsound := (hs.streams s (List.mem_of_getElem? hstream)).recv .far count
  obtain ⟨hnudges, hstreams, hvalue⟩ :=
    nudges_called hs hd hw hstream (·.recv .far count) (.error .badDescriptor) hsound
  have hd' : ({ h with interruptions := 0 } : Host).device? d = _ := hd
  rw [nonblocking_recv_eq hothers]
  simp only [receive, hd']
  exact ⟨hnudges, hstreams, congrArg _ hvalue⟩

theorem nudges_send (hs : h.Sound) (hothers : h.others = []) (hd : h.device? d = some (.stream i .far))
    (hw : h.watch? d = some w) (hstream : h.streams[i]? = some s) (bytes : Bytes) :
    Nudges d h (Nonblocking.send h d bytes).1 ∧
      (Nonblocking.send h d bytes).1.streams = h.streams.set i (s.send .far bytes).stream ∧
      (Nonblocking.send h d bytes).2 = .ofResult (s.send .far bytes).value := by
  have hsound := (hs.streams s (List.mem_of_getElem? hstream)).send .far bytes
  obtain ⟨hnudges, hstreams, hvalue⟩ :=
    nudges_called hs hd hw hstream (·.send .far bytes) (.error .badDescriptor) hsound
  have hd' : ({ h with interruptions := 0 } : Host).device? d = _ := hd
  rw [nonblocking_send_eq hothers]
  simp only [transmit, hd']
  exact ⟨hnudges, hstreams, congrArg _ hvalue⟩

/-- a wait reports nothing that was not queued, and looks again at none of what is watched for edges -/
theorem harvest_drains (h : Host) (capacity : Nat) (queue : List Descriptor) :
    (h.harvest capacity queue).reports.length + (h.harvest capacity queue).left.length ≤ queue.length ∧
      ((∀ report ∈ (h.harvest capacity queue).reports, report.1.interest.edge) →
        (h.harvest capacity queue).again = []) := by
  induction queue generalizing capacity with
  | nil => unfold harvest; exact ⟨Nat.le_refl _, fun _ => rfl⟩
  | cons x rest ih =>
    cases capacity with
    | zero => unfold harvest; exact ⟨by simp, fun _ => rfl⟩
    | succ capacity =>
      unfold harvest
      cases hw : h.watch? x with
      | none => exact ⟨Nat.le_succ_of_le (ih _).1, (ih _).2⟩
      | some w =>
        dsimp only
        split
        · exact ⟨Nat.le_succ_of_le (ih _).1, (ih _).2⟩
        · obtain ⟨hlength, hagain⟩ := ih capacity
          refine ⟨?_, fun hedge => ?_⟩
          · simp only [List.length_cons]
            omega
          · have hfirst : w.interest.edge = true := hedge _ (List.mem_cons_self ..)
            simp only [if_pos hfirst]
            exact hagain fun report hm => hedge report (List.mem_cons_of_mem _ hm)

/-- the stream of a descriptor that is a far end -/
def far? (h : Host) (d : Descriptor) : Option Stream :=
  match h.device? d with
  | some (.stream id .far) => h.streams[id]?
  | _ => none

theorem far?_eq (hd : h.device? d = some (.stream i .far)) : h.far? d = h.streams[i]? := by rw [far?, hd]

end Host

/-- how often a connection may yet be resumed, given its stream -/
def Connection.heat {H : Type} (conn : Connection H) (s : Stream) : Nat :=
  s.heat conn.read.isParked conn.write.isParked

/-- what a connection may yet cost: two for each time that it may be resumed, for the turn of its task that follows may
queue it and have room to write watched, and one while room to write is watched -/
def Connection.unrest {H : Type} (h : Host) (conn : Connection H) : Nat :=
  2 * ((h.far? conn.descriptor).map conn.heat).getD 0 + conn.armed.toNat

namespace Connections

variable {H : Type} {fixed : List Watch} {batch : List Readiness} {c c' c'' : Connections H} {key id : Nat}
  {d : Descriptor} {conn old : Connection H}

/-- what a task does to its own connection while nobody else acts: other connections and other streams stay as they are,
and its own may not be resumed more often than before -/
structure Engages (key : Nat) (d : Descriptor) (id : Nat) (c c' : Connections H) : Prop where
  host : Host.Nudges d c.host c'.host
  others : ∀ k, k ≠ key → c'.get? k = c.get? k
  streams : ∀ i, i ≠ id → c'.host.streams[i]? = c.host.streams[i]?
  own : ∀ {conn s}, c.get? key = some conn → conn.descriptor = d → c.host.streams[id]? = some s →
    ∃ conn' s', c'.get? key = some conn' ∧ conn'.descriptor = d ∧ c'.host.streams[id]? = some s' ∧
      conn'.heat s' ≤ conn.heat s

theorem Engages.refl (key : Nat) (d : Descriptor) (id : Nat) (c : Connections H) : Engages key d id c c :=
  ⟨.refl d _, fun _ _ => rfl, fun _ _ => rfl, fun hg hd hs => ⟨_, _, hg, hd, hs, Nat.le_refl _⟩⟩

theorem Engages.trans (h : Engages key d id c c') (h' : Engages key d id c' c'') : Engages key d id c c'' where
  host := h.host.trans h'.host
  others k hk := (h'.others k hk).trans (h.others k hk)
  streams i hi := (h'.streams i hi).trans (h.streams i hi)
  own hg hd hs := by
    obtain ⟨conn', s', hg', hd', hs', hle⟩ := h.own hg hd hs
    obtain ⟨conn'', s'', hg'', hd'', hs'', hle'⟩ := h'.own hg' hd' hs'
    exact ⟨conn'', s'', hg'', hd'', hs'', Nat.le_trans hle' hle⟩

/-- an operation on the stream of a connection, and a new record of the connection under the old descriptor -/
theorem engages_of (hg : c.get? key = some old) {s s' : Stream} (hs : c.host.streams[id]? = some s)
    (hhost : Host.Nudges d c.host c'.host) (hslots : c'.slots = c.slots ∧ old = conn ∨ c'.slots = c.slots.set key conn)
    (hd : conn.descriptor = old.descriptor) (hstreams : c'.host.streams = c.host.streams.set id s')
    (hheat : conn.heat s' ≤ old.heat s) : Engages key d id c c' := by
  have hget : ∀ k, c'.get? k = if k = key then some conn else c.get? k := fun k => by
    rcases hslots with ⟨hslots, rfl⟩ | hslots
    · rw [get?, hslots]
      split
      · next hk => exact hk ▸ hg
      · rfl
    · rw [get?, hslots, Slots.get?_set hg]
      rfl
  refine ⟨hhost, fun k hk => (hget k).trans (if_neg hk), fun i hi => ?_, fun {conn₀ s₀} hg₀ hd₀ hs₀ => ?_⟩
  · rw [hstreams, List.getElem?_set_ne (Ne.symm hi)]
  · rw [hg] at hg₀
    cases hg₀
    rw [hs] at hs₀
    cases hs₀
    refine ⟨conn, s', (hget key).trans (if_pos rfl), hd.trans hd₀, ?_, hheat⟩
    rw [hstreams, List.getElem?_set_self (List.getElem?_eq_some_iff.1 hs).1]

theorem engages_recv (hc : c.Sound fixed batch) (hothers : c.host.others = []) (hg : c.get? key = some conn)
    (hd : c.host.device? conn.descriptor = some (.stream id .far)) (handle : H) (count : Nat) :
    Engages key conn.descriptor id c (c.recv key handle count).state := by
  obtain ⟨s, hs⟩ : ∃ s, c.host.streams[id]? = some s := ⟨_, List.getElem?_eq_getElem (hc.host.known_of_device? hd)⟩
  obtain ⟨hhost, hstreams, hvalue⟩ := Host.nudges_recv hc.host hothers hd (hc.watch?_eq hg) hs count
  have hheat : (s.recv .far count).stream.heat conn.read.isParked conn.write.isParked ≤ conn.heat s := s.heat_recv count
  unfold recv
  rw [hg]
  dsimp only
  rw [show (Nonblocking.recv c.notifier.host conn.descriptor count).2 = _ from hvalue]
  split
  · exact engages_of hg hs hhost (.inl ⟨rfl, rfl⟩) rfl hstreams hheat
  · exact engages_of hg hs hhost (.inl ⟨rfl, rfl⟩) rfl hstreams hheat
  · next hblocked =>
    obtain ⟨code, hcode, hkind⟩ := Outcome.wouldBlock_iff.1 hblocked
    obtain ⟨hsame, hcold⟩ := Stream.cold_of_recv (hc.host.streams s (List.mem_of_getElem? hs)) hcode hkind
    refine engages_of hg hs hhost (.inr rfl) rfl hstreams ?_
    rw [hsame]
    simp [Connection.heat, Stream.heat, hcold]

/-- what is watched of a connection is changed; nothing is queued where the change is refused -/
theorem rearm_engages (key : Nat) (hothers : c.host.others = []) (conn : Connection H) (armed : Bool) :
    ∃ marked, (c.rearm key conn armed).state.slots = c.slots.set key { conn with armed := marked } ∧
      Host.Nudges conn.descriptor c.host (c.rearm key conn armed).state.host ∧
      (c.rearm key conn armed).state.host.streams = c.host.streams ∧
      (marked = armed ∨ marked = conn.armed ∧ (c.rearm key conn armed).state.host.queue = c.host.queue) := by
  unfold rearm Notifier.reregister
  cases (Token.connection key).word? with
  | none => exact ⟨conn.armed, rfl, .refl _ _, rfl, .inr ⟨rfl, rfl⟩⟩
  | some word =>
    dsimp only
    rw [show c.notifier.host.elapse = c.host from Host.elapse_eq hothers]
    obtain ⟨hnudges, hstreams, hqueue⟩ := c.host.nudges_rewatch conn.descriptor word
      (if armed then writingInterest else idleInterest)
    cases hresult : (c.host.rewatch conn.descriptor word (if armed then writingInterest else idleInterest)).2 with
    | ok done => exact ⟨armed, rfl, hnudges, hstreams, .inl rfl⟩
    | error code => exact ⟨conn.armed, rfl, hnudges, hstreams, .inr ⟨rfl, hqueue (by simp [hresult])⟩⟩

theorem engages_send (hc : c.Sound fixed batch) (hothers : c.host.others = []) (hg : c.get? key = some conn)
    (hd : c.host.device? conn.descriptor = some (.stream id .far)) (handle : H) (bytes : Bytes) :
    Engages key conn.descriptor id c (c.send key handle bytes).state := by
  obtain ⟨s, hs⟩ : ∃ s, c.host.streams[id]? = some s := ⟨_, List.getElem?_eq_getElem (hc.host.known_of_device? hd)⟩
  obtain ⟨hhost, hstreams, hvalue⟩ := Host.nudges_send hc.host hothers hd (hc.watch?_eq hg) hs bytes
  have hheat : (s.send .far bytes).stream.heat conn.read.isParked conn.write.isParked ≤ conn.heat s := s.heat_send bytes
  unfold send
  rw [hg]
  dsimp only
  rw [show (Nonblocking.send c.notifier.host conn.descriptor bytes).2 = _ from hvalue]
  split
  · exact engages_of hg hs hhost (.inl ⟨rfl, rfl⟩) rfl hstreams hheat
  · exact engages_of hg hs hhost (.inl ⟨rfl, rfl⟩) rfl hstreams hheat
  · next hblocked =>
    obtain ⟨code, hcode, hkind⟩ := Outcome.wouldBlock_iff.1 hblocked
    obtain ⟨hsame, hcold⟩ := Stream.cold_of_send (hc.host.streams s (List.mem_of_getElem? hs)) hcode hkind
    have hparked : ∀ armed, ({ conn with write := (conn.write.store handle).1, armed } : Connection H).heat
        (s.send .far bytes).stream ≤ conn.heat s := fun armed => by
      rw [hsame]
      simp [Connection.heat, Stream.heat, hcold]
    dsimp only
    split
    · let sent := c.onHost fun _ => (Nonblocking.send c.host conn.descriptor bytes).1
      obtain ⟨marked, hslots, hnudges, hsame, -⟩ := rearm_engages (c := sent) key (hhost.others.trans hothers)
        { conn with write := (conn.write.store handle).1 } true
      exact engages_of hg hs (hhost.trans hnudges) (.inr hslots) rfl (hsame.trans hstreams) (hparked marked)
    · exact engages_of hg hs hhost (.inr rfl) rfl hstreams (hparked conn.armed)

theorem engages_shutdown (hc : c.Sound fixed batch) (hothers : c.host.others = []) (hg : c.get? key = some conn)
    (hd : c.host.device? conn.descriptor = some (.stream id .far)) :
    Engages key conn.descriptor id c (c.shutdown key).1 := by
  obtain ⟨s, hs⟩ : ∃ s, c.host.streams[id]? = some s := ⟨_, List.getElem?_eq_getElem (hc.host.known_of_device? hd)⟩
  obtain ⟨hhost, hstreams, -⟩ := Host.nudges_onStream hc.host hd (hc.watch?_eq hg) hs (·.finish .far)
    (.error .badDescriptor) ((hc.host.streams s (List.mem_of_getElem? hs)).finish .far)
  have hfinish : c.host.finish conn.descriptor = c.host.onStream id (·.finish .far) (.error .badDescriptor) := by
    rw [Host.finish, hd]
  unfold shutdown
  rw [hg]
  dsimp only
  rw [show c.notifier.host.elapse = c.host from Host.elapse_eq hothers, hfinish]
  exact engages_of hg hs hhost (.inl ⟨rfl, rfl⟩) rfl hstreams (s.heat_finish)

/-! ## What may yet stir -/

/-- how much the connections and their host may yet stir while nobody else acts -/
def unrest (c : Connections H) : Nat :=
  c.host.interruptions + c.host.queue.length + c.slots.total (·.unrest c.host)

theorem unrest_of_far (hd : c.host.device? conn.descriptor = some (.stream id .far)) {s : Stream}
    (hs : c.host.streams[id]? = some s) : conn.unrest c.host = 2 * conn.heat s + conn.armed.toNat := by
  rw [Connection.unrest, Host.far?_eq hd, hs]
  rfl

/-- what concerns one connection and its stream leaves what the others may cost -/
theorem unrest_other (hc : c.Sound fixed batch) (hg : c.get? key = some conn)
    (hd : c.host.device? conn.descriptor = some (.stream id .far)) {h : Host}
    (hdevices : ∀ e, e ≠ conn.descriptor → h.device? e = c.host.device? e)
    (hstreams : ∀ i, i ≠ id → h.streams[i]? = c.host.streams[i]?) {k : Nat} (hk : k ≠ key) {other : Connection H}
    (ho : c.get? k = some other) : other.unrest h = other.unrest c.host := by
  obtain ⟨i, hi⟩ := hc.far ho
  have hne : other.descriptor ≠ conn.descriptor := fun he => hk (hc.slot_unique ho hg he)
  have hid : i ≠ id := fun he => hne (hc.host.once hi (he ▸ hd))
  rw [Connection.unrest, Connection.unrest, Host.far?_eq hi, Host.far?_eq ((hdevices _ hne).trans hi), hstreams i hid]

theorem Engages.unrest (he : Engages key conn.descriptor id c c') (hc : c.Sound fixed batch)
    (hg : c.get? key = some conn) (hd : c.host.device? conn.descriptor = some (.stream id .far)) :
    c'.unrest ≤ c.unrest + 2 := by
  obtain ⟨s, hs⟩ : ∃ s, c.host.streams[id]? = some s := ⟨_, List.getElem?_eq_getElem (hc.host.known_of_device? hd)⟩
  obtain ⟨conn', s', hg', hd', hs', hheat⟩ := he.own hg rfl hs
  have htotal := Slots.total_alter (·.unrest c.host) (·.unrest c'.host) c'.slots hg
    fun k hk => by
      rw [show c'.slots.get? k = c.slots.get? k from he.others k hk]
      refine Option.map_congr fun other ho => ?_
      exact unrest_other hc hg hd (fun e _ => he.host.device? e) he.streams hk ho
  rw [show c'.slots.get? key = some conn' from hg'] at htotal
  have hbefore := unrest_of_far hd hs
  have hafter : conn'.unrest c'.host = 2 * conn'.heat s' + conn'.armed.toNat :=
    unrest_of_far (hd' ▸ (he.host.device? _).trans hd) hs'
  have harmed := conn'.armed.toNat_le
  have hspent := he.host.interruptions
  have hqueue := he.host.length_queue
  simp only [Option.map_some, Option.getD_some] at htotal
  unfold Connections.unrest
  omega

/-- a report that fits the conditions takes out as many handles as it makes the connection cooler -/
theorem heat_resumed (conn : Connection H) {s : Stream} {r : Readiness}
    (hfits : ∀ direction, r.heeds direction → (s.conditions .far).wakes direction) :
    (conn.resumed r).heat s + ((if r.heeds .read then conn.read.handle.toList else []) ++
      (if r.heeds .write then conn.write.handle.toList else [])).length ≤ conn.heat s := by
  have hread : (conn.resumed r).read.isParked = (conn.read.isParked && !r.heeds .read) := by
    unfold Connection.resumed Readiness.heeds ParkingSlot.isParked ParkingSlot.wake
    cases (r.readable || r.closed) <;> simp [ParkingSlot.empty]
  have hwrite : (conn.resumed r).write.isParked = (conn.write.isParked && !r.heeds .write) := by
    unfold Connection.resumed Readiness.heeds ParkingSlot.isParked ParkingSlot.wake
    cases (r.writable || r.closed) <;> simp [ParkingSlot.empty]
  have hlength : ∀ slot : ParkingSlot H, slot.handle.toList.length = slot.isParked.toNat := fun slot => by
    cases h : slot.handle <;> simp [ParkingSlot.isParked, h]
  have hr := hfits .read
  have hw := hfits .write
  unfold Connection.heat Stream.heat
  rw [hread, hwrite, List.length_append]
  cases hrh : r.heeds .read <;> cases hwh : r.heeds .write <;> simp_all <;> omega

theorem fire_state (hg : c.get? key = some conn) (r : Readiness) :
    (c.fire key r).state = if r.heeds .write && conn.armed then (c.rearm key (conn.resumed r) false).state
      else c.put key (conn.resumed r) := by
  unfold fire
  rw [hg]
  dsimp only
  split
  · next harmed => exact (if_pos harmed).symm
  · next harmed => exact (if_neg harmed).symm

/-- a report that fits the conditions pays for the turns of the tasks that it resumes, and for watching less -/
theorem unrest_fire (hc : c.Sound fixed batch) (hothers : c.host.others = []) (hg : c.get? key = some conn)
    {r : Readiness} (hfits : ∀ direction, r.heeds direction → (c.host.conditions conn.descriptor).wakes direction) :
    Host.Nudges conn.descriptor c.host (c.fire key r).state.host ∧
      (c.fire key r).state.host.streams = c.host.streams ∧
      (c.fire key r).state.unrest + 2 * (c.fire key r).value.length ≤ c.unrest := by
  obtain ⟨id, hd⟩ := hc.far hg
  obtain ⟨s, hs⟩ : ∃ s, c.host.streams[id]? = some s := ⟨_, List.getElem?_eq_getElem (hc.host.known_of_device? hd)⟩
  rw [Host.conditions_far hd, hs] at hfits
  have hheat := heat_resumed conn hfits
  have hvalue : (c.fire key r).value = (if r.heeds .read then conn.read.handle.toList else []) ++
      (if r.heeds .write then conn.write.handle.toList else []) := by
    rcases c.fire_cases key r with ⟨hnone, -⟩ | ⟨conn', -, hg', hvalue, -⟩
    · rw [hg] at hnone
      cases hnone
    · rw [hg] at hg'
      cases hg'
      exact hvalue
  rw [← hvalue] at hheat
  -- the record and the host that come of it, whether it is watched for less or not
  obtain ⟨after, hslots, hdescriptor, hcooler, hnudges, hstreams, hpaid⟩ : ∃ after : Connection H,
      (c.fire key r).state.slots = c.slots.set key after ∧ after.descriptor = conn.descriptor ∧
      after.heat s = (conn.resumed r).heat s ∧ Host.Nudges conn.descriptor c.host (c.fire key r).state.host ∧
      (c.fire key r).state.host.streams = c.host.streams ∧
      (c.fire key r).state.host.queue.length + after.armed.toNat ≤ c.host.queue.length + conn.armed.toNat := by
    rw [fire_state hg]
    split
    · next harmed =>
      obtain ⟨marked, hslots, hnudges, hstreams, hmarked⟩ := rearm_engages key hothers (conn.resumed r) false
      refine ⟨_, hslots, rfl, rfl, hnudges, hstreams, ?_⟩
      rcases hmarked with rfl | ⟨rfl, hqueue⟩
      · rw [(Bool.and_eq_true_iff.1 harmed).2]
        exact hnudges.length_queue
      · rw [hqueue]
        exact Nat.le_refl _
    · exact ⟨conn.resumed r, rfl, rfl, rfl, .refl _ _, rfl, Nat.le_refl _⟩
  have hget : ∀ k, (c.fire key r).state.slots.get? k = if k = key then some after else c.slots.get? k := fun k => by
    rw [hslots]
    exact Slots.get?_set hg _ k
  have htotal := Slots.total_alter (·.unrest c.host) (·.unrest (c.fire key r).state.host)
    (c.fire key r).state.slots hg fun k hk => by
      rw [hget, if_neg hk]
      refine Option.map_congr fun other ho => ?_
      exact unrest_other hc hg hd (fun e _ => hnudges.device? e) (fun i _ => by rw [hstreams]) hk ho
  rw [hget, if_pos rfl] at htotal
  have hbefore := unrest_of_far hd hs
  have hafter := unrest_of_far (c := (c.fire key r).state) (hdescriptor ▸ (hnudges.device? _).trans hd) (hstreams ▸ hs)
  have hspent := hnudges.interruptions
  simp only [Option.map_some, Option.getD_some] at htotal
  refine ⟨hnudges, hstreams, ?_⟩
  unfold Connections.unrest
  omega

/-- the host once a connection was taken out -/
theorem remove_host (hc : c.Sound fixed batch) (hothers : c.host.others = []) (hg : c.get? key = some conn)
    (hd : c.host.device? conn.descriptor = some (.stream id .far)) {s : Stream} (hs : c.host.streams[id]? = some s) :
    (c.remove key).state.host =
      { ((c.host.forget conn.descriptor).forget conn.descriptor).setDevice conn.descriptor none with
        streams := c.host.streams.set id (s.close .far false).stream } := by
  have hleft : (c.notifier.deregister conn.descriptor).1.host = c.host.forget conn.descriptor := by
    unfold Notifier.deregister
    rw [show c.notifier.host.elapse = c.host from Host.elapse_eq hothers, Host.unwatch_eq hc.host (hc.watch?_eq hg)]
  unfold remove
  rw [hg]
  simp only [host, Notifier.onHost, hleft]
  rw [Host.elapse_eq (h := c.notifier.host.forget conn.descriptor) hothers]
  exact Host.close_far_eq hc.host hd hs

/-- a connection that is taken out costs nothing any more, and the others no more than before -/
theorem unrest_remove (hc : c.Sound fixed batch) (hothers : c.host.others = []) (hg : c.get? key = some conn) :
    (c.remove key).state.unrest ≤ c.unrest ∧ (c.remove key).state.host.inbound ≤ c.host.inbound ∧
      Host.Abides c.host (c.remove key).state.host := by
  obtain ⟨id, hd⟩ := hc.far hg
  obtain ⟨s, hs⟩ : ∃ s, c.host.streams[id]? = some s := ⟨_, List.getElem?_eq_getElem (hc.host.known_of_device? hd)⟩
  have hhost := remove_host hc hothers hg hd hs
  have hslots := c.remove_slots key
  generalize (c.remove key).state = removed at hhost hslots ⊢
  have hdevice : ∀ e, e ≠ conn.descriptor → removed.host.device? e = c.host.device? e := fun e he => by
    rw [hhost]
    exact (Host.device?_setDevice (h := (c.host.forget conn.descriptor).forget conn.descriptor) hd none e).trans
      (if_neg he)
  have htotal := Slots.total_alter (·.unrest c.host) (·.unrest removed.host) removed.slots hg
    fun k hk => by
      rw [hslots, Slots.get?_erase, if_neg hk]
      refine Option.map_congr fun other ho => ?_
      refine unrest_other hc hg hd hdevice (fun i hi => ?_) hk ho
      rw [hhost]
      exact List.getElem?_set_ne (Ne.symm hi)
  rw [hslots, Slots.get?_erase, if_pos rfl, ← hslots] at htotal
  have hqueue : removed.host.queue.length ≤ c.host.queue.length := by
    rw [hhost]
    exact Nat.le_trans (List.length_filter_le ..) (List.length_filter_le ..)
  have hspent : removed.host.interruptions = c.host.interruptions := by rw [hhost]; rfl
  simp only [Option.map_none, Option.getD_none] at htotal
  have hlength : removed.host.devices.length = c.host.devices.length := by
    rw [hhost]
    exact List.length_set
  refine ⟨?_, ?_, by rw [hhost]; rfl, by rw [hhost]; rfl, hlength, fun {e device} he hfar => ?_⟩
  · unfold Connections.unrest
    omega
  · have hclosed := Host.sum_set_le hs 0 0 (by simpa using s.due_close_le .far .far false)
    have hahead : removed.host.ahead Deed.volume = c.host.ahead Deed.volume := by rw [hhost]; rfl
    have hdue : removed.host.due ≤ c.host.due := by
      rw [hhost]
      exact hclosed
    unfold Host.inbound
    omega
  · refine (hdevice e fun hown => hfar id ?_).trans he
    rw [hown, hd] at he
    exact (Option.some.inj he).symm

end Connections

end EventServer
