/-
What is done to the table of connections. Every operation keeps `Connections.Sound`, and `Connections.Arming` with it:
reading and writing (`sound_recv`, `sound_send`, `sound_shutdown`), taking a connection in or out (`sound_insert`,
`sound_remove`), a wait, which fills the batch (`sound_wait`), and dealing with a report, which uses the first one of
the batch up (`sound_fire`).

`undelivered_of_told` is what the invariant is for: with no batch at hand, whatever a parked handle waits for is still
to be delivered.
-/
import EventServer.Proofs.Table

namespace EventServer

namespace Connections

variable {H : Type} {fixed : List Watch} {batch : List Readiness} {c : Connections H} {key : Nat}
  {conn old : Connection H}

/-! ## Reading and writing -/

theorem sound_recv (hc : c.Sound fixed batch) (key : Nat) (handle : H) (count : Nat) :
    (c.recv key handle count).state.Sound fixed batch ∧ (c.Arming → (c.recv key handle count).state.Arming) := by
  unfold recv
  cases hg : c.get? key with
  | none => exact ⟨hc, id⟩
  | some conn =>
    obtain ⟨id, hd⟩ := hc.far hg
    obtain ⟨hu, hquiet⟩ := Nonblocking.recv_spec hc.host hd count
    have hafter := hc.onHost hu
    dsimp only
    cases hr : (Nonblocking.recv c.notifier.host conn.descriptor count).2 with
    | done bytes => exact ⟨hafter, fun ha => ha.onHost hu⟩
    | failed fault => exact ⟨hafter, fun ha => ha.onHost hu⟩
    | wouldBlock =>
      let parked : Connection H := { conn with read := (conn.read.store handle).1 }
      refine ⟨hafter.set parked hg rfl rfl (fun direction hp hi hcalls => ?_) fun r hr => .inl hr,
        fun ha => (ha.onHost hu).set_conn parked hg fun hp => show conn.armed = true from ha.armed hg hp⟩
      cases direction with
      -- nothing was there to be read a moment ago
      | read => exact absurd hcalls (by simpa using hquiet hr)
      | write => exact hafter.told hg .write hp hi hcalls

theorem sound_send (hc : c.Sound fixed batch) (key : Nat) (handle : H) (bytes : Bytes) :
    (c.send key handle bytes).state.Sound fixed batch ∧ (c.Arming → (c.send key handle bytes).state.Arming) := by
  unfold send
  cases hg : c.get? key with
  | none => exact ⟨hc, id⟩
  | some conn =>
    obtain ⟨id, hd⟩ := hc.far hg
    obtain ⟨hu, hquiet⟩ := Nonblocking.send_spec hc.host hd bytes
    have hafter := hc.onHost hu
    dsimp only
    cases hr : (Nonblocking.send c.notifier.host conn.descriptor bytes).2 with
    | done count => exact ⟨hafter, fun ha => ha.onHost hu⟩
    | failed fault => exact ⟨hafter, fun ha => ha.onHost hu⟩
    | wouldBlock =>
      let parked : Connection H := { conn with write := (conn.write.store handle).1 }
      have hset : ((c.onHost fun _ => (Nonblocking.send c.notifier.host conn.descriptor bytes).1).put key
          parked).Sound fixed batch := by
        refine hafter.set parked hg rfl rfl (fun direction hp hi hcalls => ?_) fun r hr => .inl hr
        cases direction with
        | read => exact hafter.told hg .read hp hi hcalls
        -- there was no room a moment ago
        | write => exact absurd hcalls (by simpa using hquiet hr)
      dsimp only
      split
      · exact ⟨hset.rearm hafter.tidy hg true, fun ha => (ha.onHost hu).rearm hg hset fun _ => rfl⟩
      · next harm =>
        refine ⟨hset, fun ha => (ha.onHost hu).set_conn _ hg fun _ => ?_⟩
        have hset := ha.set
        simp only [Bool.and_eq_true, Bool.not_eq_true', not_and, Bool.not_eq_false] at harm
        exact harm hset

theorem sound_shutdown (hc : c.Sound fixed batch) (key : Nat) :
    (c.shutdown key).1.Sound fixed batch ∧ (c.Arming → (c.shutdown key).1.Arming) := by
  unfold shutdown
  cases c.get? key with
  | none => exact ⟨hc, id⟩
  | some conn =>
    have helapse := Host.undisturbed_elapse hc.host
    have hu := helapse.trans (Host.undisturbed_finish helapse.sound conn.descriptor)
    exact ⟨hc.onHost hu, fun ha => ha.onHost hu⟩

/-! ## Resuming -/

/-- what is parked still was parked before, in a direction that the report does not resume -/
theorem parked_resumed {r : Readiness} {direction : Direction} (hp : (conn.resumed r).parked direction) :
    conn.parked direction ∧ r.heeds direction = false := by
  cases direction <;> simp only [Connection.parked, Connection.resumed, Readiness.heeds] at hp ⊢ <;> split at hp
  · cases hp
  · next hr => exact ⟨hp, by simpa using hr⟩
  · cases hp
  · next hr => exact ⟨hp, by simpa using hr⟩

/-- the first report of the batch is used up on its own connection: what it resumes is no longer parked -/
theorem sound_fire {r : Readiness} (hc : c.Sound fixed (r :: batch)) (htoken : r.token = .connection key) :
    (c.fire key r).state.Sound fixed batch ∧ (c.Arming → (c.fire key r).state.Arming) := by
  have hbatch : ∀ r' ∈ r :: batch, r' ∈ batch ∨ r'.token = .connection key := fun r' hr' => by
    rcases List.mem_cons.1 hr' with rfl | hr'
    · exact .inr htoken
    · exact .inl hr'
  unfold fire
  cases hg : c.get? key with
  | none =>
    refine ⟨⟨hc.tidy, hc.host, hc.far, hc.words, hc.watches, hc.ledger, fun {k x} hx direction hp hi hcalls => ?_⟩, id⟩
    refine (hc.told hx direction hp hi hcalls).imp_right fun ⟨r', hr', htoken', hheeds⟩ =>
      ⟨r', (hbatch r' hr').resolve_right fun hkey => ?_, htoken', hheeds⟩
    rw [htoken', Token.connection.injEq] at hkey
    rw [hkey, hg] at hx
    cases hx
  | some conn =>
    have hset : (c.put key (conn.resumed r)).Sound fixed batch := by
      refine hc.set (conn.resumed r) hg rfl rfl (fun direction hp hi hcalls => ?_) hbatch
      obtain ⟨hparked, hnot⟩ := parked_resumed hp
      refine (hc.told hg direction hparked hi hcalls).imp_right fun ⟨r', hr', htoken', hheeds⟩ =>
        ⟨r', ?_, htoken', hheeds⟩
      rcases List.mem_cons.1 hr' with rfl | hr'
      · rw [hnot] at hheeds
        cases hheeds
      · exact hr'
    dsimp only
    split
    · next hwrite =>
      refine ⟨hset.rearm hc.tidy hg false, fun ha => ha.rearm hg hset fun hp => ?_⟩
      have hnot := (parked_resumed hp).2
      simp_all [Readiness.heeds]
    · exact ⟨hset, fun ha => ha.set_conn (conn.resumed r) hg fun hp =>
        show conn.armed = true from ha.armed hg (parked_resumed hp).1⟩

/-! ## Taking in -/

/-- the slots after taking a connection in: it is in the next one, or nothing has changed -/
theorem insert_slots (c : Connections H) (d : Descriptor) (peer : Address) :
    (∃ fault, (c.insert d peer).value = .error fault ∧ (c.insert d peer).state.slots = c.slots) ∨
      (c.insert d peer).value = .ok c.slots.nextKey ∧
        (c.insert d peer).state.slots = c.slots.insert { descriptor := d, peer } := by
  unfold insert
  dsimp only
  split
  · exact .inr ⟨rfl, rfl⟩
  · next fault _ => exact .inl ⟨fault, rfl, rfl⟩

/-- registering: refused with the ledger as it was, or the watch is there and counted -/
theorem register_cases {n : Notifier} (hs : n.host.Sound) {d : Descriptor} (ho : n.host.Ours d)
    (hw : n.host.watch? d = none) (token : Token) (interest : Interest) :
    (∃ fault h, Host.Undisturbed n.host h ∧ (n.register d token interest).value = .error fault ∧
        (n.register d token interest).state = { n with host := h }) ∨
      ∃ word h, token.word? = some word ∧ Host.Spares (some d) n.host h ∧
        h.watches = n.host.watches ++ [⟨d, word, interest⟩] ∧
        (∀ {id}, n.host.device? d = some (.stream id .far) → h.device? d = some (.stream id .far)) ∧
        (n.register d token interest).value = .ok () ∧
        (n.register d token interest).state = { n with host := h, registrations := n.registrations + 1 } := by
  have hu := Host.undisturbed_elapse hs
  have hw' : n.host.elapse.watch? d = none := by rw [← hw, Host.watch?, Host.watch?, hu.watches]
  cases hword : token.word? with
  | none =>
    left
    exact ⟨.slotTooLarge, n.host, .refl hs, by simp [Notifier.register, hword], by simp [Notifier.register, hword]⟩
  | some word =>
    rcases Host.watch_cases hu.sound (hu.ours (by simp) ho) hw' word interest with
      ⟨code, hr, hu'⟩ | ⟨hr, hsp, hwatches, hdevices⟩
    · left
      exact ⟨.refused code, _, hu.trans hu', by simp [Notifier.register, hword, hr],
        by simp [Notifier.register, hword, hr]⟩
    · right
      refine ⟨word, _, rfl, (hu.toSpares.but _).trans hsp, hwatches.trans (by rw [hu.watches]), fun hd => ?_, ?_, ?_⟩
      · have hd' := (hu.calm (by simp) hd).device.trans hd
        simpa [Host.device?, hdevices] using hd'
      · simp [Notifier.register, hword, hr]
      · simp [Notifier.register, hword, hr]

/-- taking a connection in: it is refused and closed, or it is watched and counted; others notice neither -/
theorem insert_cases (hs : c.host.Sound) {d : Descriptor} {id : Nat} (hd : c.host.device? d = some (.stream id .far))
    (hw : c.host.watch? d = none) (peer : Address) :
    (∃ fault h, Host.Spares (some d) c.host h ∧ h.watches = c.host.watches ∧
        (c.insert d peer).value = .error fault ∧ (c.insert d peer).state = c.onHost fun _ => h) ∨
      ∃ h, Token.base + c.slots.nextKey < UInt64.size ∧ Host.Spares (some d) c.host h ∧
        h.watches = c.host.watches ++ [({ descriptor := d, peer } : Connection H).watch c.slots.nextKey] ∧
        h.device? d = some (.stream id .far) ∧ (c.insert d peer).value = .ok c.slots.nextKey ∧
        (c.insert d peer).state =
          { c with
            slots := c.slots.insert { descriptor := d, peer }
            notifier := { c.notifier with host := h, registrations := c.notifier.registrations + 1 } } := by
  rcases register_cases hs ⟨_, hd, rfl⟩ hw (.connection c.slots.nextKey) idleInterest with
    ⟨fault, h, hu, hvalue, hstate⟩ | ⟨word, h, hword, hsp, hwatches, hdevice, hvalue, hstate⟩
  · left
    have hu' := hu.trans (Host.undisturbed_elapse hu.sound)
    obtain ⟨hclose, hfilter⟩ := Host.spares_close hu'.sound ((hu'.calm (by simp) hd).device.trans hd) false
    refine ⟨fault, _, (hu'.toSpares.but (some d)).trans hclose, ?_, by simp only [insert, hvalue],
      by simp only [insert, hvalue, hstate]; rfl⟩
    rw [hfilter, hu'.watches, List.filter_eq_self]
    exact fun w hm => by simpa using Host.not_mem_watches hw w hm
  · right
    obtain ⟨hk, rfl⟩ : Token.base + c.slots.nextKey < UInt64.size ∧
        word = UInt64.ofNat (Token.base + c.slots.nextKey) := by
      simp only [Token.word?] at hword
      split at hword
      · next hk => exact ⟨hk, (Option.some.inj hword).symm⟩
      · cases hword
    exact ⟨h, hk, hsp, hwatches, hdevice hd, by simp only [insert, hvalue], by simp only [insert, hvalue, hstate]⟩

/-- connections are calm while something happens to a descriptor that is not theirs -/
theorem Sound.calm (hc : c.Sound fixed batch) {d : Descriptor} (hw : c.host.watch? d = none) {h : Host}
    (hsp : Host.Spares (some d) c.host h) (hg : c.get? key = some conn) : Host.Calm conn.descriptor c.host h := by
  obtain ⟨id, hd⟩ := hc.far hg
  refine hsp.calm (fun he => ?_) hd
  rw [Option.some.inj he, hc.watch?_eq hg] at hw
  cases hw

/-- a connection is taken in, or refused and closed -/
theorem sound_insert (hc : c.Sound fixed batch) {d : Descriptor} {id : Nat}
    (hd : c.host.device? d = some (.stream id .far)) (hw : c.host.watch? d = none) (peer : Address) :
    (c.insert d peer).state.Sound fixed batch ∧ (c.Arming → (c.insert d peer).state.Arming) := by
  rcases insert_cases hc.host hd hw peer with
    ⟨-, h, hsp, hwatches, -, hstate⟩ | ⟨h, hk, hsp, hwatches, hdevice, -, hstate⟩
  · rw [hstate]
    refine ⟨⟨hc.tidy, hsp.sound, fun hg => ?_, hc.words, ?_, hc.ledger, fun hg =>
      (hc.told hg).calm (hc.watch?_eq hg) (hc.calm hw hsp hg)⟩, fun ha => ⟨ha.set, hsp.obliging ha.obliging, ha.armed⟩⟩
    · obtain ⟨id, hd⟩ := hc.far hg
      exact ⟨id, (hc.calm hw hsp hg).device.trans hd⟩
    · rw [onHost_host, hwatches]
      exact hc.watches
  · rw [hstate]
    have hget := Slots.get?_insert hc.tidy ({ descriptor := d, peer } : Connection H)
    obtain ⟨pre, post, hlist, hlist'⟩ := Slots.toList_insert hc.tidy ({ descriptor := d, peer } : Connection H)
    refine ⟨⟨hc.tidy.insert _, hsp.sound, fun {k x} hx => ?_, fun {k x} hx => ?_, ?_, ?_, fun {k x} hx => ?_⟩,
      fun ha => ⟨ha.set, hsp.obliging ha.obliging, fun {k x} hx hpark => ?_⟩⟩
    · rw [get?, hget] at hx
      split at hx
      · cases hx
        exact ⟨id, hdevice⟩
      · obtain ⟨id, hd⟩ := hc.far hx
        exact ⟨id, (hc.calm hw hsp hx).device.trans hd⟩
    · rw [get?, hget] at hx
      split at hx
      · next he => exact he ▸ hk
      · exact hc.words hx
    · have hperm := hc.watches
      rw [hlist, List.map_append, ← List.append_assoc] at hperm
      rw [hlist', List.map_append, List.map_cons, ← List.append_assoc]
      refine (hwatches ▸ (List.perm_append_singleton ..).trans (hperm.cons _)).trans List.perm_middle.symm
    · have hledger := hc.ledger
      rw [Slots.size_insert hc.tidy]
      simp only
      omega
    · rw [get?, hget] at hx
      split at hx
      · cases hx
        intro direction hp
        cases direction <;> cases hp
      · exact (hc.told hx).calm (hc.watch?_eq hx) (hc.calm hw hsp hx)
    · rw [get?, hget] at hx
      split at hx
      · cases hx
        cases hpark
      · exact ha.armed hx hpark

/-! ## Taking out -/

theorem perm_filter_ne {watches rest : List Watch} {w : Watch} (hp : watches.Perm (w :: rest))
    (hn : (watches.map (·.descriptor)).Nodup) : (watches.filter (·.descriptor != w.descriptor)).Perm rest := by
  have hn' := (hp.map (·.descriptor)).nodup_iff.1 hn
  rw [List.map_cons, List.nodup_cons] at hn'
  have hrest : rest.filter (·.descriptor != w.descriptor) = rest := by
    refine List.filter_eq_self.2 fun v hv => ?_
    have hne : v.descriptor ≠ w.descriptor := fun he => hn'.1 (he ▸ List.mem_map_of_mem hv)
    simpa using hne
  have hfilter := hp.filter (·.descriptor != w.descriptor)
  rwa [List.filter_cons, hrest, if_neg (by simp)] at hfilter

/-- the host once a connection has left the watch and is closed, whatever others do meanwhile -/
theorem left_spec (hc : c.Sound fixed batch) (hg : c.get? key = some conn) :
    ∃ h, Host.Spares (some conn.descriptor) c.host h ∧
      h.watches = c.host.watches.filter (·.descriptor != conn.descriptor) ∧
      (c.remove key).state =
        { c with
          slots := c.slots.erase key
          notifier := { c.notifier with host := h, deregistrations := c.notifier.deregistrations + 1 } } := by
  obtain ⟨id, hd⟩ := hc.far hg
  have hu := Host.undisturbed_elapse hc.host
  have hd₁ := (hu.calm (by simp) hd).device.trans hd
  have hw₁ : c.host.elapse.watch? conn.descriptor = some (conn.watch key) := by
    rw [← hc.watch?_eq hg, Host.watch?, Host.watch?, hu.watches]
  have hforget := Host.spares_forget hu.sound conn.descriptor
  have hu' := Host.undisturbed_elapse hforget.sound
  have hd₂ := (hu'.calm (by simp) (show (c.host.elapse.forget conn.descriptor).device? _ = _ from hd₁)).device.trans hd₁
  obtain ⟨hclose, hwatches⟩ := Host.spares_close hu'.sound hd₂ false
  refine ⟨_, ((hu.toSpares.but _).trans hforget).trans ((hu'.toSpares.but _).trans hclose), ?_, ?_⟩
  · have hleft : (c.host.elapse.forget conn.descriptor).watches =
        c.host.watches.filter (·.descriptor != conn.descriptor) := by
      rw [← hu.watches]
      rfl
    rw [hwatches, hu'.watches, hleft]
    simp
  · simp only [remove, hg, Notifier.deregister, Host.unwatch_eq hu.sound hw₁]
    rfl

/-- a connection is taken out, and its watch with it -/
theorem sound_remove (hc : c.Sound fixed batch) (key : Nat) :
    (c.remove key).state.Sound fixed batch ∧ (c.Arming → (c.remove key).state.Arming) := by
  cases hg : c.get? key with
  | none =>
    simp only [remove, hg]
    exact ⟨hc, id⟩
  | some conn =>
    obtain ⟨h, hsp, hwatches, hstate⟩ := left_spec hc hg
    rw [hstate]
    have hget := Slots.get?_erase c.slots key
    -- the others are where they were, and have other descriptors
    have hother : ∀ {k x}, (c.slots.erase key).get? k = some x → c.get? k = some x ∧
        Host.Calm x.descriptor c.host h := fun {k x} hx => by
      rw [hget] at hx
      split at hx
      · cases hx
      · next hne =>
        obtain ⟨id, hd⟩ := hc.far hx
        exact ⟨hx, hsp.calm (fun he => hne (hc.slot_unique hx hg (Option.some.inj he).symm)) hd⟩
    obtain ⟨pre, post, hlist, herase, -⟩ := Slots.toList_focus hg
    refine ⟨⟨hc.tidy.erase key, hsp.sound, fun {k x} hx => ?_, fun {k x} hx => hc.words (hother hx).1, ?_, ?_,
      fun {k x} hx => ?_⟩, fun ha => ⟨ha.set, hsp.obliging ha.obliging, fun {k x} hx hp => ha.armed (hother hx).1 hp⟩⟩
    · obtain ⟨hx, hcalm⟩ := hother hx
      obtain ⟨id, hd⟩ := hc.far hx
      exact ⟨id, hcalm.device.trans hd⟩
    · have hperm := hc.watches
      rw [hlist, List.map_append, List.map_cons, ← List.append_assoc] at hperm
      have hfilter := perm_filter_ne (hperm.trans List.perm_middle) hc.host.watches
      simp only [host, hwatches, herase, List.map_append, ← List.append_assoc]
      exact hfilter
    · have hledger := hc.ledger
      rw [Slots.size_erase hg] at hledger
      simp only
      omega
    · obtain ⟨hx, hcalm⟩ := hother hx
      exact (hc.told hx).calm (hc.watch?_eq hx) hcalm

/-! ## Waiting -/

theorem none_of_calls {c : Conditions} {direction : Direction} (hc : c.calls direction) : c.none = false := by
  cases direction <;> simp only [Conditions.calls, Bool.or_eq_true] at hc <;>
    rcases hc with hc | hc <;> simp [Conditions.none, hc]

theorem heeds_ofReport {word : UInt64} {c : Conditions} {direction : Direction} (hc : c.calls direction) :
    (Readiness.ofReport word c).heeds direction := by
  cases direction <;> simp only [Conditions.calls, Bool.or_eq_true] at hc <;>
    rcases hc with hc | hc <;> simp [Readiness.heeds, Readiness.ofReport, hc]

/-- the word of a connection's watch stands for its slot -/
theorem Sound.ofWord (hc : c.Sound fixed batch) (hg : c.get? key = some conn) :
    Token.ofWord (conn.watch key).word = .connection key :=
  Token.ofWord_word? (by simp [Token.word?, hc.words hg, Connection.watch])

/-- whatever is watched under the word of a slot is the connection there, unless it is one of the fixed watches -/
theorem Sound.of_word (hc : c.Sound fixed batch) {w : Watch} (hw : w ∈ c.host.watches)
    (hword : Token.ofWord w.word = .connection key) (hf : w ∉ fixed) :
    ∃ conn, c.get? key = some conn ∧ w = conn.watch key := by
  obtain ⟨⟨k, conn⟩, hm, rfl⟩ := List.mem_map.1 ((List.mem_append.1 (hc.watches.mem_iff.1 hw)).resolve_left hf)
  have hg := mem_toList.1 hm
  cases (hc.ofWord hg).symm.trans hword
  exact ⟨conn, hg, rfl⟩

/-- what a wait takes from the queue is in the batch -/
theorem sound_wait (hc : c.Sound fixed []) (events : Events) :
    ({ c with notifier := (c.notifier.wait events).state } : Connections H).Sound fixed
        (((c.notifier.wait events).value.map Events.toList).getD []) ∧
      (c.Arming → ({ c with notifier := (c.notifier.wait events).state } : Connections H).Arming) := by
  have hu := Host.undisturbed_elapse hc.host
  have hafter := hc.onHost hu
  obtain ⟨⟨interruptions, hstate⟩, -⟩ := c.notifier.wait_spec events
  rw [hstate, c.notifier.wait_told events]
  have hsound := hu.sound
  refine ⟨⟨hafter.tidy, ⟨hsound.ends, hsound.known, hsound.streams, hsound.watches, hsound.watched⟩, hafter.far,
    hafter.words, hafter.watches, hafter.ledger, fun {key conn} hg direction hp hi hcalls => ?_⟩,
    fun ha => ⟨ha.set, hu.obliging ha.obliging, ha.armed⟩⟩
  -- it was queued, so it stays queued or is reported
  have hqueued : conn.descriptor ∈ c.host.elapse.queue := by
    refine (hafter.told hg direction hp hi hcalls).resolve_right ?_
    rintro ⟨r, hr, -⟩
    cases hr
  have hvisible := (Conditions.calls_visible hi).trans hcalls
  refine (Host.harvest_spec (hafter.watch?_eq hg) (none_of_calls hvisible) events.capacity hqueued).imp
    (fun hleft => List.mem_append_left _ hleft) fun hreport => ⟨_, List.mem_map_of_mem hreport, ?_, ?_⟩
  · exact hafter.ofWord hg
  · exact heeds_ofReport hvisible

/-- what a connection is parked for and there is to do is with the notifier still -/
theorem undelivered_of_told (hc : c.Sound fixed []) (hg : c.get? key = some conn) (direction : Direction)
    (hp : conn.parked direction) (hi : conn.interest.covers direction)
    (hcalls : (c.host.conditions conn.descriptor).calls direction) :
    ∃ r ∈ Notifier.told c.host.undelivered, r.token = .connection key ∧ r.heeds direction := by
  have hqueued : conn.descriptor ∈ c.host.queue := by
    refine (hc.told hg direction hp hi hcalls).resolve_right ?_
    rintro ⟨r, hr, -⟩
    cases hr
  have hvisible := (Conditions.calls_visible hi).trans hcalls
  have hm := Host.mem_undelivered hqueued (hc.watch?_eq hg) (none_of_calls hvisible)
  exact ⟨_, List.mem_map_of_mem hm, hc.ofWord hg, heeds_ofReport hvisible⟩

end Connections

end EventServer
