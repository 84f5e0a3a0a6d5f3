/-
Reclaiming: what becomes of the table when some connections are taken out of it while others are in use.

In a `Watched` table every live connection has its own entry in the watch of a guarded host; so have the tables that any
sequence of requests leads to, and the table of a server (`Enrolled.watched`, `Sound.watched`). There a call on a
connection parks a handle at most, and widens its watch if that is a write (`Connection.Widened`); taking a connection
out ends its watch and is counted.

`Reclaimed names` is what both have in common: of the connections that were there, those named are gone and the others
are as they were up to that. `Reclaimed.trans` puts steps together; `Watched.used` and `Watched.remove` are the steps.
-/
import EventServer.Proofs.Registration
import EventServer.Proofs.Teardown

namespace EventServer

variable {H : Type}

/-- the same connection with the same registration, or with a wider one for a write that was parked -/
structure Connection.Widened (old conn : Connection H) : Prop where
  descriptor : conn.descriptor = old.descriptor
  peer : conn.peer = old.peer
  parked : old.write.isParked = true → conn.write.isParked = true
  armed : conn.armed = old.armed ∨ conn.armed = true ∧ conn.write.isParked = true

theorem Connection.Widened.refl (conn : Connection H) : conn.Widened conn := ⟨rfl, rfl, id, .inl rfl⟩

theorem Connection.Widened.trans {a b c : Connection H} (hab : a.Widened b) (hbc : b.Widened c) : a.Widened c where
  descriptor := hbc.descriptor.trans hab.descriptor
  peer := hbc.peer.trans hab.peer
  parked := hbc.parked ∘ hab.parked
  armed := by
    rcases hbc.armed with harmed | harmed
    · exact hab.armed.imp (harmed.trans ·) fun ⟨harmed', hparked⟩ => ⟨harmed.trans harmed', hbc.parked hparked⟩
    · exact .inr harmed

/-- the keys in use are as they were but for the one that is taken out -/
theorem Slots.keys_erase {α : Type} (s : Slots α) (key : Nat) :
    (s.erase key).toList.map (·.1) = (s.toList.map (·.1)).filter (· ≠ key) := by
  cases hg : s.get? key with
  | none =>
    have hout : ∀ other ∈ s.toList.map (·.1), other ≠ key := by
      rintro _ hm rfl
      obtain ⟨⟨other, value⟩, hentry, rfl⟩ := List.mem_map.1 hm
      rw [mem_toList.1 hentry] at hg
      cases hg
    rw [erase, hg, List.filter_eq_self.2 fun other hm => by simpa using hout other hm]
  | some value =>
    obtain ⟨pre, post, hlist, herase, -⟩ := toList_focus hg
    have hnodup := s.nodup_keys
    rw [hlist, List.map_append, List.map_cons] at hnodup ⊢
    have hout := (List.nodup_middle.1 hnodup).notMem
    have hother : ∀ part : List (Nat × α), (∀ entry ∈ part, entry.1 ≠ key) →
        (part.map (·.1)).filter (· ≠ key) = part.map (·.1) := fun part hpart =>
      List.filter_eq_self.2 fun other hm => by
        obtain ⟨entry, hentry, rfl⟩ := List.mem_map.1 hm
        simpa using hpart entry hentry
    rw [herase, List.map_append, List.filter_append, List.filter_cons_of_neg (by simp),
      hother pre fun entry hm he => hout (List.mem_append_left _ (List.mem_map.2 ⟨entry, hm, he⟩)),
      hother post fun entry hm he => hout (List.mem_append_right _ (List.mem_map.2 ⟨entry, hm, he⟩))]

namespace Connections

variable {fixed : List Watch} {batch : List Readiness} {c c' c'' : Connections H} {key : Nat}
  {conn old : Connection H} {names names' : List Nat}

theorem mem_keys : key ∈ c.keys ↔ ∃ conn, c.get? key = some conn := by
  constructor
  · intro hm
    obtain ⟨⟨key, conn⟩, hentry, rfl⟩ := List.mem_map.1 hm
    exact ⟨conn, mem_toList.1 hentry⟩
  · rintro ⟨conn, hg⟩
    exact List.mem_map.2 ⟨(key, conn), mem_toList.2 hg, rfl⟩

/-- every live connection has its entry in the watch -/
structure Watched (c : Connections H) : Prop where
  guarded : c.host.Guarded
  words : ∀ {key conn}, c.get? key = some conn → Token.base + key < UInt64.size
  entries : ∀ {key conn}, c.get? key = some conn → conn.watch key ∈ c.host.watches

theorem Enrolled.watched (hc : c.Enrolled fixed) : c.Watched := ⟨hc.guarded, hc.words, hc.mem_watches⟩

theorem Sound.watched (hc : c.Sound fixed batch) : c.Watched := ⟨hc.host.guarded, hc.words, hc.mem_watches⟩

/-- no two live connections share a descriptor -/
theorem Watched.descriptor_ne (hc : c.Watched) {other : Nat} {x : Connection H} (hg : c.get? key = some conn)
    (hx : c.get? other = some x) (hne : other ≠ key) : x.descriptor ≠ conn.descriptor := by
  intro hd
  have hsame := List.inj_on_of_nodup_map hc.guarded.once (hc.entries hx) (hc.entries hg) hd
  have hword := congrArg (·.word.toNat) hsame
  simp only [Connection.watch, UInt64.toNat_ofNat_of_lt' (hc.words hx), UInt64.toNat_ofNat_of_lt' (hc.words hg)]
    at hword
  omega

/-- of the connections that were there, those named are gone for good, each with its watch and counted once, and the
others are still there and watched as they were, or for room to write too if a write was parked -/
structure Reclaimed (names : List Nat) (c c' : Connections H) : Prop where
  keys : c'.keys = c.keys.filter (· ∉ names)
  conns : ∀ {key conn}, c.get? key = some conn → key ∉ names →
    ∃ conn', c'.get? key = some conn' ∧ conn.Widened conn'
  registrations : c'.notifier.registrations = c.notifier.registrations
  deregistrations : c'.notifier.deregistrations =
    c.notifier.deregistrations + (c.keys.filter (· ∈ names)).length
  gone : ∀ {key conn}, c.get? key = some conn → key ∈ names → ∀ w ∈ c'.host.watches, w.descriptor ≠ conn.descriptor
  /-- nothing is watched that was not watched before -/
  fewer : c'.host.watches.map (·.descriptor) ⊆ c.host.watches.map (·.descriptor)

/-- nothing is taken out -/
theorem reclaimed_nil (hkeys : c'.keys = c.keys)
    (hconns : ∀ {key conn}, c.get? key = some conn → ∃ conn', c'.get? key = some conn' ∧ conn.Widened conn')
    (hregistrations : c'.notifier.registrations = c.notifier.registrations)
    (hderegistrations : c'.notifier.deregistrations = c.notifier.deregistrations)
    (hfewer : c'.host.watches.map (·.descriptor) ⊆ c.host.watches.map (·.descriptor)) : Reclaimed [] c c' where
  keys := by simp [hkeys]
  conns hg _ := hconns hg
  registrations := hregistrations
  deregistrations := by simp [hderegistrations]
  gone _ hm := by cases hm
  fewer := hfewer

theorem Reclaimed.refl (c : Connections H) : Reclaimed [] c c :=
  reclaimed_nil rfl (fun hg => ⟨_, hg, .refl _⟩) rfl rfl (List.Subset.refl _)

theorem Reclaimed.trans (h : Reclaimed names c c') (h' : Reclaimed names' c' c'') :
    Reclaimed (names ++ names') c c'' where
  keys := by
    rw [h'.keys, h.keys, List.filter_filter]
    refine List.filter_congr fun key _ => ?_
    simp [Bool.and_comm]
  conns hg hm := by
    rw [List.mem_append, not_or] at hm
    obtain ⟨conn', hg', hwide⟩ := h.conns hg hm.1
    obtain ⟨conn'', hg'', hwide'⟩ := h'.conns hg' hm.2
    exact ⟨conn'', hg'', hwide.trans hwide'⟩
  registrations := h'.registrations.trans h.registrations
  deregistrations := by
    -- a key that is named twice was gone when it was named again
    have hsplit : ∀ keys : List Nat, (keys.filter (· ∈ names ++ names')).length =
        (keys.filter (· ∈ names)).length + ((keys.filter (· ∉ names)).filter (· ∈ names')).length := by
      intro keys
      induction keys with
      | nil => rfl
      | cons key rest ih =>
        by_cases hfirst : key ∈ names <;> by_cases hsecond : key ∈ names' <;> simp_all <;> omega
    rw [h'.deregistrations, h.deregistrations, h.keys, hsplit, Nat.add_assoc]
  gone {key conn} hg hm w hw := by
    by_cases hfirst : key ∈ names
    · obtain ⟨v, hv, he⟩ := List.mem_map.1 (h'.fewer (List.mem_map_of_mem hw))
      exact he ▸ h.gone hg hfirst v hv
    · obtain ⟨conn', hg', hwide⟩ := h.conns hg hfirst
      rw [← hwide.descriptor]
      exact h'.gone hg' ((List.mem_append.1 hm).resolve_left hfirst) w hw
  fewer := List.Subset.trans h'.fewer h.fewer

/-! ## Calls on a connection -/

/-- a host with the same watches, guarded as well -/
theorem Watched.steady (hc : c.Watched) {h : Host} (hs : Host.Steady c.host h) :
    (c.onHost fun _ => h).Watched ∧ Reclaimed [] c (c.onHost fun _ => h) := by
  refine ⟨⟨hs.guarded hc.guarded, hc.words, fun hg => hs.watches ▸ hc.entries hg⟩,
    reclaimed_nil rfl (fun hg => ⟨_, hg, .refl _⟩) rfl rfl ?_⟩
  rw [onHost_host, hs.watches]
  exact List.Subset.refl _

/-- a connection is replaced by one on the same descriptor, with its own entry in the watch -/
theorem Watched.put (hc : c.Watched) (hg : c.get? key = some old) (hwide : old.Widened conn) {n : Notifier}
    (hguarded : n.host.Guarded) (hregistrations : n.registrations = c.notifier.registrations)
    (hderegistrations : n.deregistrations = c.notifier.deregistrations) (hown : conn.watch key ∈ n.host.watches)
    (hothers : ∀ w ∈ c.host.watches, w.descriptor ≠ old.descriptor → w ∈ n.host.watches)
    (hfewer : n.host.watches.map (·.descriptor) ⊆ c.host.watches.map (·.descriptor)) :
    (({ c with notifier := n } : Connections H).put key conn).Watched ∧
      Reclaimed [] c (({ c with notifier := n } : Connections H).put key conn) := by
  have hget := get?_put (c := { c with notifier := n }) hg conn
  obtain ⟨pre, post, hlist, hset⟩ := put_focus (c := { c with notifier := n }) hg
  refine ⟨⟨hguarded, fun {k x} hx => ?_, fun {k x} hx => ?_⟩,
    reclaimed_nil ?_ (fun {k x} hx => ?_) hregistrations hderegistrations hfewer⟩
  · rw [hget] at hx
    split at hx
    · next hk => exact hk ▸ hc.words hg
    · exact hc.words hx
  · rw [hget] at hx
    split at hx
    · next hk =>
      cases hx
      exact hk ▸ hown
    · next hne => exact hothers _ (hc.entries hx) (hc.descriptor_ne hg hx hne)
  · rw [keys, hset, keys, show c.slots.toList = _ from hlist]
    simp
  · rw [hget]
    split
    · next hk =>
      subst hk
      rw [hg] at hx
      cases hx
      exact ⟨conn, rfl, hwide⟩
    · exact ⟨x, hx, .refl x⟩

/-- what is parked on a connection may change -/
theorem Watched.set (hc : c.Watched) (hg : c.get? key = some old) (hwide : old.Widened conn)
    (ha : conn.armed = old.armed) {n : Notifier} (hs : Host.Steady c.host n.host)
    (hregistrations : n.registrations = c.notifier.registrations)
    (hderegistrations : n.deregistrations = c.notifier.deregistrations) :
    (({ c with notifier := n } : Connections H).put key conn).Watched ∧
      Reclaimed [] c (({ c with notifier := n } : Connections H).put key conn) := by
  have hsame : conn.watch key = old.watch key := by simp [Connection.watch, Connection.interest, hwide.descriptor, ha]
  refine hc.put hg hwide (hs.guarded hc.guarded) hregistrations hderegistrations ?_
    (fun w hw _ => hs.watches ▸ hw) (by rw [hs.watches]; exact List.Subset.refl _)
  rw [hsame, hs.watches]
  exact hc.entries hg

/-- a parked write widens the watch, or the kernel refuses that and nothing is watched for other conditions -/
theorem Watched.arm (hc : c.Watched) (hg : c.get? key = some old) (hwide : old.Widened conn)
    (ha : conn.armed = old.armed) (hparked : conn.write.isParked = true) :
    (c.rearm key conn true).state.Watched ∧ Reclaimed [] c (c.rearm key conn true).state := by
  have hdescriptor := hwide.descriptor
  rcases Notifier.reregister_spec hc.guarded conn.descriptor (.connection key) writingInterest with
    ⟨fault, h, hs, hvalue, hstate⟩ | ⟨word, h, hword, hguarded, hwatches, hvalue, hstate⟩
  · simp only [Connections.rearm, if_true, hvalue, hstate]
    exact hc.set hg hwide ha hs rfl rfl
  · simp only [Connections.rearm, if_true, hvalue, hstate]
    have hentry : (⟨conn.descriptor, word, writingInterest⟩ : Watch) = ({ conn with armed := true }).watch key := by
      have hknown : (Token.connection key).word? = some (UInt64.ofNat (Token.base + key)) := by
        simp [Token.word?, hc.words hg]
      rw [hknown, Option.some.injEq] at hword
      simp [Connection.watch, Connection.interest, hword]
    have hwide' : old.Widened { conn with armed := true } :=
      ⟨hdescriptor, hwide.peer, fun _ => hparked, .inr ⟨rfl, hparked⟩⟩
    refine hc.put hg hwide' hguarded rfl rfl ?_ (fun w hw hne => ?_) ?_
    · rw [hwatches, ← hentry, Host.rewatched]
      exact List.mem_map.2 ⟨old.watch key, hc.entries hg, by simp [Connection.watch, hdescriptor]⟩
    · rw [hwatches, Host.rewatched]
      exact List.mem_map.2 ⟨w, hw, by simp [hdescriptor, hne]⟩
    · rw [hwatches, Host.map_rewatched]
      exact List.Subset.refl _

theorem Watched.recv (hc : c.Watched) (key : Nat) (handle : H) (count : Nat) :
    (c.recv key handle count).state.Watched ∧ Reclaimed [] c (c.recv key handle count).state := by
  unfold Connections.recv
  cases hg : c.get? key with
  | none => exact ⟨hc, .refl c⟩
  | some conn =>
    have hs := Host.steady_recv hc.guarded conn.descriptor count
    dsimp only
    split
    · exact hc.steady hs
    · exact hc.steady hs
    · have hwide : conn.Widened { conn with read := (conn.read.store handle).1 } := ⟨rfl, rfl, id, .inl rfl⟩
      exact hc.set hg hwide rfl (n := c.notifier.onHost fun _ => _) hs rfl rfl

theorem Watched.send (hc : c.Watched) (key : Nat) (handle : H) (bytes : Bytes) :
    (c.send key handle bytes).state.Watched ∧ Reclaimed [] c (c.send key handle bytes).state := by
  unfold Connections.send
  cases hg : c.get? key with
  | none => exact ⟨hc, .refl c⟩
  | some conn =>
    have hs := Host.steady_send hc.guarded conn.descriptor bytes
    have hwide : conn.Widened { conn with write := (conn.write.store handle).1 } := ⟨rfl, rfl, fun _ => rfl, .inl rfl⟩
    dsimp only
    split
    · exact hc.steady hs
    · exact hc.steady hs
    · dsimp only
      split
      · obtain ⟨hc', hr⟩ := hc.steady hs
        obtain ⟨hc'', hr'⟩ := hc'.arm hg hwide rfl rfl
        exact ⟨hc'', hr.trans hr'⟩
      · exact hc.set hg hwide rfl (n := c.notifier.onHost fun _ => _) hs rfl rfl

theorem Watched.shutdown (hc : c.Watched) (key : Nat) :
    (c.shutdown key).1.Watched ∧ Reclaimed [] c (c.shutdown key).1 := by
  unfold Connections.shutdown
  cases hg : c.get? key with
  | none => exact ⟨hc, .refl c⟩
  | some conn => exact hc.steady ((Host.steady_elapse hc.guarded).trans (Host.steady_finish ..))

/-- a call on a connection, as a transport makes it -/
def Request.isCall : Request H → Bool
  | .recv .. | .send .. | .shutdown _ => true
  | _ => false

/-- what any number of calls on any connections leads to -/
def Used (c c' : Connections H) : Prop :=
  ∃ calls : List (Request H), (∀ call ∈ calls, call.isCall = true) ∧ c' = calls.foldl after c

theorem Used.refl (c : Connections H) : c.Used c := ⟨[], by simp, rfl⟩

theorem Used.call (hu : c.Used c') (call : Request H) (hcall : call.isCall = true) : c.Used (c'.after call) := by
  obtain ⟨calls, hcalls, rfl⟩ := hu
  refine ⟨calls ++ [call], fun other hm => ?_, by simp⟩
  exact (List.mem_append.1 hm).elim (hcalls other) fun hm => List.mem_singleton.1 hm ▸ hcall

theorem Watched.used (hc : c.Watched) (hu : c.Used c') : c'.Watched ∧ Reclaimed [] c c' := by
  obtain ⟨calls, hcalls, rfl⟩ := hu
  induction calls generalizing c with
  | nil => exact ⟨hc, .refl c⟩
  | cons call rest ih =>
    have hcall := hcalls call (by simp)
    have hfirst : (c.after call).Watched ∧ Reclaimed [] c (c.after call) := by
      cases call with
      | recv key handle count => exact hc.recv key handle count
      | send key handle bytes => exact hc.send key handle bytes
      | shutdown key => exact hc.shutdown key
      | insert | remove | fire | onHost => cases hcall
    obtain ⟨hrest, hreclaimed⟩ := ih hfirst.1 fun call hm => hcalls call (List.mem_cons_of_mem _ hm)
    exact ⟨hrest, hfirst.2.trans hreclaimed⟩

/-! ## Taking out -/

/-- a slot in use is one key -/
theorem length_filter_keys (c : Connections H) (key : Nat) :
    (c.keys.filter (· ∈ [key])).length = if (c.get? key).isSome then 1 else 0 := by
  have hcount : (c.keys.filter (· ∈ [key])).length = c.keys.count key := by
    rw [List.count, List.countP_eq_length_filter]
    exact congrArg List.length (List.filter_congr fun other _ => by simp [beq_eq_decide])
  rw [hcount]
  cases hg : c.get? key with
  | none =>
    refine List.count_eq_zero.2 fun hm => ?_
    obtain ⟨conn, hx⟩ := mem_keys.1 hm
    rw [hg] at hx
    cases hx
  | some conn => exact List.count_eq_one_of_mem c.slots.nodup_keys (mem_keys.2 ⟨conn, hg⟩)

/-- a connection is taken out with its watch, and counted -/
theorem Watched.remove (hc : c.Watched) (key : Nat) :
    (c.remove key).state.Watched ∧ Reclaimed [key] c (c.remove key).state := by
  have hkeys : (c.remove key).state.keys = c.keys.filter (· ∉ [key]) := by
    rw [keys, remove_slots, Slots.keys_erase, keys]
    exact List.filter_congr fun other _ => by simp
  have hget : ∀ {k x}, (c.remove key).state.get? k = some x ↔ k ≠ key ∧ c.get? k = some x := fun {k x} => by
    rw [get?, remove_slots, Slots.get?_erase]
    split <;> simp_all [get?]
  have hstays : ∀ {k conn}, c.get? k = some conn → k ∉ [key] →
      ∃ conn', (c.remove key).state.get? k = some conn' ∧ conn.Widened conn' := fun {k conn} hx hk =>
    ⟨conn, hget.2 ⟨by simpa using hk, hx⟩, .refl conn⟩
  have hcounted := c.length_filter_keys key
  cases hg : c.get? key with
  | none =>
    have hsame : (c.remove key).state = c := by rw [Connections.remove, hg]
    rw [hg] at hcounted
    rw [hsame] at hkeys hstays ⊢
    refine ⟨hc, hkeys, hstays, rfl, by rw [hcounted]; rfl, fun {k x} hx hk => ?_, List.Subset.refl _⟩
    rw [List.mem_singleton.1 hk, hg] at hx
    cases hx
  | some conn =>
    obtain ⟨h, hguarded, hwatches, hleft⟩ := Notifier.deregister_spec hc.guarded (hc.entries hg)
    have hs := Host.steady_elapse hguarded
    have hstate : (c.remove key).state.notifier = { c.notifier with
        host := h.elapse.close conn.descriptor false, deregistrations := c.notifier.deregistrations + 1 } := by
      rw [Connections.remove, hg]
      dsimp only
      rw [show c.notifier.deregister conn.descriptor = _ from hleft]
      rfl
    have hmem : ∀ w, w ∈ (c.remove key).state.host.watches ↔ w ∈ c.host.watches ∧ w.descriptor ≠ conn.descriptor := by
      intro w
      rw [Connections.host, hstate, (Host.close_spec ..).1, hs.watches, hwatches]
      simp [Connection.watch]
    rw [hg] at hcounted
    refine ⟨⟨?_, fun hx => hc.words (hget.1 hx).2, fun {k x} hx => ?_⟩, hkeys, hstays, by rw [hstate], ?_,
      fun {k x} hx hk w hw => ?_, ?_⟩
    · rw [Connections.host, hstate]
      exact Host.guarded_close (hs.guarded hguarded) ..
    · obtain ⟨hne, hx⟩ := hget.1 hx
      exact (hmem _).2 ⟨hc.entries hx, hc.descriptor_ne hg hx hne⟩
    · rw [hstate, hcounted]
      rfl
    · rw [List.mem_singleton.1 hk, hg] at hx
      cases hx
      exact ((hmem w).1 hw).2
    · refine List.map_subset _ fun w hw => ((hmem w).1 hw).1

end Connections

end EventServer
