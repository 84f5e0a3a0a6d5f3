/-
Calls that are made again. A raw call that a signal cut short is made once more, and no other is; `recorded` writes down
what every try gave, so that a retried call can be seen to make no try too many.

The loop is exact for every call there is (`retry_eq`): with so many tries cut short at first, it makes one more and
ends with what that one gave. The three outcomes divide what is left among them (`Settles`), and a fault among them is
never that the call was cut short or would have to wait.

On a host whose streams are sound the limit of the loop is never felt. A try that is cut short spends one of the
interruptions that are there or to come and moves no bytes (`spends_recv`, `spends_send`), so a try that is not cut
short is met within the limit (`met_within`). Hence a read and a write end with their first whole try, and make none
after it (`whole_try_is_last`).
-/
import EventServer.Proofs.Conduct
import EventServer.Proofs.WouldBlock

namespace EventServer

/-- the two error numbers that calls are steered by are alone of their kind -/
theorem Errno.kind_eq_iff {code known : Errno} (hk : known = .interrupted ∨ known = .again) :
    code.kind = known.kind ↔ code = known := by
  refine ⟨fun h => ?_, fun h => h ▸ rfl⟩
  obtain ⟨number⟩ := code
  rcases hk with rfl | rfl <;>
  · simp only [kind, interrupted, again] at h ⊢
    split at h <;> first | rfl | cases h

/-- what an outcome says of a raw result: each outcome is told for the results that it is meant for and for no other -/
structure Outcome.Settles {α : Type} (result : Except Errno α) (outcome : Outcome α) : Prop where
  done : ∀ value, outcome = .done value ↔ result = .ok value
  wouldBlock : outcome = .wouldBlock ↔ result = .error .again
  failed : ∀ fault, outcome = .failed fault ↔ ∃ code, code ≠ .again ∧ result = .error code ∧ fault = .system code
  kind : ∀ fault, outcome = .failed fault → fault.kind ≠ .interrupted ∧ fault.kind ≠ .wouldBlock

/-- a result that is not that the call was cut short is settled -/
theorem Outcome.settles_ofResult {α : Type} {result : Except Errno α} (hr : result ≠ .error .interrupted) :
    Settles result (ofResult result) := by
  cases result with
  | ok value => exact ⟨by simp [ofResult], by simp [ofResult], by simp [ofResult], by simp [ofResult]⟩
  | error code =>
    have hcode : code ≠ .interrupted := fun h => hr (h ▸ rfl)
    by_cases ha : code = .again
    · subst ha
      have htold : ofResult (α := α) (.error .again) = .wouldBlock := rfl
      rw [htold]
      refine ⟨by simp, by simp, fun fault => ⟨by simp, ?_⟩, by simp⟩
      rintro ⟨_, hne, ⟨⟩, -⟩
      exact absurd rfl hne
    · have hkind : code.kind ≠ .wouldBlock := fun h => ha ((Errno.kind_eq_iff (.inr rfl)).1 h)
      have htold : ofResult (α := α) (.error code) = .failed (.system code) := if_neg hkind
      rw [htold]
      refine ⟨by simp, by simp [ha], fun fault => ?_, fun fault hf => ?_⟩
      · constructor
        · rintro ⟨⟩
          exact ⟨code, ha, rfl, rfl⟩
        · rintro ⟨_, -, ⟨⟩, rfl⟩
          rfl
      · cases hf
        exact ⟨fun h => hcode ((Errno.kind_eq_iff (.inl rfl)).1 h), hkind⟩

/-! ## Operations are never cut short -/

namespace Stream

variable {s : Stream}

/-- the only trouble of a sound end is a reset, so no operation on it says that it was cut short -/
theorem recv_whole (hs : s.Sound) (side : Side) (count : Nat) : (s.recv side count).value ≠ .error .interrupted := by
  unfold Stream.recv
  dsimp only
  split
  · rcases hs side with ht | ⟨ht, -⟩
    · rw [ht]
      dsimp only
      split <;> simp [Errno.again, Errno.interrupted]
    · rw [ht]
      simp [Errno.connectionReset, Errno.interrupted]
  · simp

theorem send_whole (hs : s.Sound) (side : Side) (bytes : Bytes) :
    (s.send side bytes).value ≠ .error .interrupted := by
  have hdeliver : (s.deliver side bytes).value ≠ .error .interrupted := by
    unfold Stream.deliver
    dsimp only
    split <;> simp [Errno.again, Errno.interrupted]
  have hpipe : Errno.brokenPipe ≠ Errno.interrupted := by decide
  unfold Stream.send
  cases s.family with
  | unix =>
    dsimp only
    split
    · simp [hpipe]
    split
    · simp
    · exact hdeliver
  | inet =>
    rcases hs side with ht | ⟨ht, -⟩
    · simp only [ht]
      split
      · simp [hpipe]
      split
      · simp
      split
      · simp
      · exact hdeliver
    · simp [ht, Errno.connectionReset, Errno.interrupted]

end Stream

namespace Host

variable {h : Host}

theorem onStream_whole {α : Type} (hs : ∀ s ∈ h.streams, s.Sound) {operation : Stream → Stirred (Except Errno α)}
    (hop : ∀ s : Stream, s.Sound → (operation s).value ≠ .error .interrupted) (id : Nat) :
    (h.onStream id operation (.error .badDescriptor)).2 ≠ .error .interrupted := by
  unfold onStream
  split
  · next s hid => exact hop s (hs s (List.mem_of_getElem? hid))
  · simp [Errno.badDescriptor, Errno.interrupted]

theorem receive_whole (hs : ∀ s ∈ h.streams, s.Sound) (d : Descriptor) (count : Nat) :
    (h.receive d count).2 ≠ .error .interrupted := by
  unfold receive
  split
  · simp [Errno.badDescriptor, Errno.interrupted]
  · exact onStream_whole hs (fun _ hs => Stream.recv_whole hs _ count) _
  all_goals simp [Errno.notConnected, Errno.notSocket, Errno.interrupted]

theorem transmit_whole (hs : ∀ s ∈ h.streams, s.Sound) (d : Descriptor) (bytes : Bytes) :
    (h.transmit d bytes).2 ≠ .error .interrupted := by
  unfold transmit
  split
  · simp [Errno.badDescriptor, Errno.interrupted]
  · exact onStream_whole hs (fun _ hs => Stream.send_whole hs _ bytes) _
  all_goals simp [Errno.brokenPipe, Errno.notSocket, Errno.interrupted]

end Host

namespace Nonblocking

variable {σ α : Type} {call : σ → σ × Except Errno α} {s : σ}

theorem cutShort_iff {result : Except Errno α} : cutShort result ↔ result = .error .interrupted := by
  cases result with
  | ok value => simp [cutShort]
  | error code =>
    have hkind : code.kind = .interrupted ↔ code = .interrupted := Errno.kind_eq_iff (.inl rfl)
    simp [cutShort, hkind]

/-- the state that so many tries of a call lead to -/
def tried (call : σ → σ × Except Errno α) : Nat → σ → σ
  | 0, s => s
  | count + 1, s => tried call count (call s).1

/-- what a call gives after so many tries -/
def raw (call : σ → σ × Except Errno α) (count : Nat) (s : σ) : Except Errno α := (call (tried call count s)).2

/-- a call that writes down what each try of it gave -/
def recorded (call : σ → σ × Except Errno α) (s : List (Except Errno α) × σ) :
    (List (Except Errno α) × σ) × Except Errno α :=
  ((s.1 ++ [(call s.2).2], (call s.2).1), (call s.2).2)

/-- the loop ends with the first try that is not cut short, and makes no other -/
theorem retry_eq {m limit : Nat} (hcut : ∀ i < m, raw call i s = .error .interrupted)
    (hwhole : raw call m s ≠ .error .interrupted) (hlimit : m ≤ limit) :
    retry call limit s = (tried call (m + 1) s, raw call m s) := by
  induction m generalizing s limit with
  | zero =>
    have hfirst : ¬ cutShort (call s).2 := fun h => hwhole (cutShort_iff.1 h)
    cases limit with
    | zero => rfl
    | succ limit =>
      rw [retry]
      exact if_neg hfirst
  | succ m ih =>
    obtain ⟨limit, rfl⟩ : ∃ k, limit = k + 1 := ⟨limit - 1, by omega⟩
    have hfirst : cutShort (call s).2 := cutShort_iff.2 (hcut 0 (by omega))
    have hrest := ih (s := (call s).1) (fun i hi => hcut (i + 1) (by omega)) hwhole (by omega : m ≤ limit)
    rw [retry]
    exact (if_pos hfirst).trans hrest

/-- the record of so many tries is what each of them gave, and the call under it is what it was -/
theorem tried_recorded (count : Nat) (log : List (Except Errno α)) (s : σ) :
    tried (recorded call) count (log, s) =
      (log ++ (List.range count).map (raw call · s), tried call count s) := by
  induction count generalizing log s with
  | zero => simp [tried]
  | succ count ih =>
    rw [tried, recorded, ih, List.range_succ_eq_map]
    simp [raw, tried, Function.comp_def]

theorem raw_recorded (count : Nat) (log : List (Except Errno α)) (s : σ) :
    raw (recorded call) count (log, s) = raw call count s := by
  rw [raw, tried_recorded]
  rfl

/-- the record of a retried call: the tries that were cut short and one more -/
theorem retry_recorded {m limit : Nat} (hcut : ∀ i < m, raw call i s = .error .interrupted)
    (hwhole : raw call m s ≠ .error .interrupted) (hlimit : m ≤ limit) :
    retry (recorded call) limit ([], s) =
      ((List.replicate m (.error .interrupted) ++ [raw call m s], tried call (m + 1) s), raw call m s) := by
  have hlog : (List.range m).map (raw call · s) = List.replicate m (.error .interrupted) := by
    refine List.eq_replicate_iff.2 ⟨by simp, fun result hresult => ?_⟩
    obtain ⟨i, hi, rfl⟩ := List.mem_map.1 hresult
    exact hcut i (List.mem_range.1 hi)
  rw [retry_eq (fun i hi => (raw_recorded i [] s).trans (hcut i hi)) (by rwa [raw_recorded]) hlimit, raw_recorded,
    tried_recorded, List.range_succ, List.map_append, hlog]
  rfl

/-! ## On a host -/

/-- a call that a signal cuts short spends one of the interruptions and leaves the streams as others left them; no
such call makes a sound stream unsound -/
structure Spends (call : Host → Host × Except Errno α) : Prop where
  sound : ∀ h, (∀ s ∈ h.streams, s.Sound) → ∀ s ∈ (call h).1.streams, s.Sound
  cut : ∀ h, (∀ s ∈ h.streams, s.Sound) → (call h).2 = .error .interrupted →
    (call h).1.cuts + 1 = h.cuts ∧ (call h).1.streams = h.elapse.streams

/-- a call is an operation that a signal may come before, and the operation itself is never cut short -/
theorem spends_of_operation {call : Host → Host × Except Errno α} (operation : Host → Host × Except Errno α)
    (hcall : ∀ h, call h = match h.elapse.interrupted? with
      | some g => (g, .error .interrupted)
      | none => operation h.elapse)
    (htame : ∀ h, Host.Tame 0 h (operation h).1)
    (hwhole : ∀ h : Host, (∀ s ∈ h.streams, s.Sound) → (operation h).2 ≠ .error .interrupted) : Spends call := by
  have hcases : ∀ h, (call h = operation h.elapse) ∨ 0 < h.elapse.interruptions ∧
      call h = ({ h.elapse with interruptions := h.elapse.interruptions - 1 }, .error .interrupted) := by
    intro h
    rw [hcall, Host.interrupted?]
    by_cases hpos : 0 < h.elapse.interruptions
    · rw [if_pos hpos]
      exact .inr ⟨hpos, rfl⟩
    · rw [if_neg hpos]
      exact .inl rfl
  constructor
  · intro h hs
    have helapsed := h.elapse_conduct.2.1 hs
    rcases hcases h with he | ⟨-, he⟩
    · exact he ▸ (htame h.elapse).streams helapsed
    · exact he ▸ helapsed
  · intro h hs hcut
    rcases hcases h with he | ⟨hpos, he⟩
    · exact absurd (he ▸ hcut) (hwhole h.elapse (h.elapse_conduct.2.1 hs))
    · have hsum : h.elapse.interruptions - 1 + h.elapse.ahead Deed.cuts + 1 = h.cuts := by
        have hcuts := h.elapse_conduct.1
        unfold Host.cuts at hcuts ⊢
        omega
      rw [he]
      exact ⟨hsum, rfl⟩

theorem spends_recv (d : Descriptor) (count : Nat) : Spends fun h => h.elapse.recv d count :=
  spends_of_operation (fun h => h.receive d count) (fun _ => rfl) (Host.tame_receive · d count)
    fun _ hs => Host.receive_whole hs d count

theorem spends_send (d : Descriptor) (bytes : Bytes) : Spends fun h => h.elapse.send d bytes :=
  spends_of_operation (fun h => h.transmit d bytes) (fun _ => rfl) (Host.tame_transmit · d bytes)
    fun _ hs => Host.transmit_whole hs d bytes

/-- a try that is not cut short is met before all interruptions that are there or to come are spent -/
theorem met_within {call : Host → Host × Except Errno α} (hcall : Spends call) {h : Host}
    (hs : ∀ s ∈ h.streams, s.Sound) : ∃ m ≤ h.cuts, raw call m h ≠ .error .interrupted ∧
      ∀ i < m, raw call i h = .error .interrupted ∧
        (tried call (i + 1) h).streams = (tried call i h).elapse.streams := by
  -- by induction on the interruptions: each try that is cut short leaves one less
  induction hn : h.cuts generalizing h with
  | zero =>
    refine ⟨0, Nat.le_refl 0, fun hcut => ?_, by simp⟩
    have := (hcall.cut h hs hcut).1
    omega
  | succ n ih =>
    by_cases hcut : (call h).2 = .error .interrupted
    · obtain ⟨hspent, hstreams⟩ := hcall.cut h hs hcut
      obtain ⟨m, hm, hwhole, hbefore⟩ := ih (hcall.sound h hs) (by omega)
      refine ⟨m + 1, by omega, hwhole, fun i hi => ?_⟩
      cases i with
      | zero => exact ⟨hcut, hstreams⟩
      | succ i => exact hbefore i (by omega)
    · exact ⟨0, Nat.zero_le _, hcut, by simp⟩

/-- what a retried call comes to on a host: some tries that were cut short and moved no bytes, and one more, which is
the last and is what the outcome tells -/
def WholeLast (call : Host → Host × Except Errno α) (h : Host) (after : Host × Outcome α) : Prop :=
  ∃ m ≤ h.cuts, raw call m h ≠ .error .interrupted ∧
    (∀ i < m, raw call i h = .error .interrupted ∧
      (tried call (i + 1) h).streams = (tried call i h).elapse.streams) ∧
    retry (recorded call) h.cuts ([], h) =
      ((List.replicate m (.error .interrupted) ++ [raw call m h], after.1), raw call m h) ∧
    Outcome.Settles (raw call m h) after.2

theorem wholeLast_retry {call : Host → Host × Except Errno α} (hcall : Spends call) {h : Host}
    (hs : ∀ s ∈ h.streams, s.Sound) :
    WholeLast call h ((retry call h.cuts h).1, .ofResult (retry call h.cuts h).2) := by
  obtain ⟨m, hm, hwhole, hbefore⟩ := met_within hcall hs
  have hcut : ∀ i < m, raw call i h = .error .interrupted := fun i hi => (hbefore i hi).1
  refine ⟨m, hm, hwhole, hbefore, ?_, ?_⟩
  · rw [retry_recorded hcut hwhole hm, retry_eq hcut hwhole hm]
  · rw [retry_eq hcut hwhole hm]
    exact Outcome.settles_ofResult hwhole

/-- **a call is made again only when it was cut short**: whatever the call and however often it is cut short at first,
it is made once more than that and never after a whole try, and that try's result is what the outcome tells; and a read
or a write on a host whose streams are sound comes to such a whole try, with none before it that moved bytes -/
theorem whole_try_is_last :
    (∀ {σ α : Type} (call : σ → σ × Except Errno α) (s : σ) (m limit : Nat),
      (∀ i < m, raw call i s = .error .interrupted) → raw call m s ≠ .error .interrupted → m ≤ limit →
        retry call limit s = (tried call (m + 1) s, raw call m s) ∧
        retry (recorded call) limit ([], s) =
          ((List.replicate m (.error .interrupted) ++ [raw call m s], tried call (m + 1) s), raw call m s) ∧
        Outcome.Settles (raw call m s) (.ofResult (retry call limit s).2)) ∧
    ∀ h : Host, (∀ s ∈ h.streams, s.Sound) → ∀ d,
      (∀ count, WholeLast (fun h => h.elapse.recv d count) h (recv h d count)) ∧
      ∀ bytes, WholeLast (fun h => h.elapse.send d bytes) h (send h d bytes) := by
  constructor
  · intro σ α call s m limit hcut hwhole hlimit
    have hlast := retry_eq hcut hwhole hlimit
    refine ⟨hlast, retry_recorded hcut hwhole hlimit, ?_⟩
    rw [hlast]
    exact Outcome.settles_ofResult hwhole
  · intro h hs d
    exact ⟨fun count => wholeLast_retry (spends_recv d count) hs,
      fun bytes => wholeLast_retry (spends_send d bytes) hs⟩

namespace Sample

/-- a call that gives the results of a list one after another -/
def listed : List (Except Errno Nat) → List (Except Errno Nat) × Except Errno Nat
  | [] => ([], .error .again)
  | result :: rest => (rest, result)

/-- two tries are cut short, the third moves bytes and a fourth would move more -/
def results : List (Except Errno Nat) := [.error .interrupted, .error .interrupted, .ok 5, .ok 7]

/-- three bytes wait at the far end; one interruption is there, and one comes before the next try -/
def host : Host where
  streams := [{ family := .inet, far := { inbox := [⟨[71, 69, 84], 768⟩] } }]
  devices := [some (.stream 0 .far)]
  interruptions := 1
  others := [[.interrupt]]

end Sample

/-- the third try is the last, of a list of results and of a read -/
theorem third_try_is_last :
    retry Sample.listed 9 Sample.results = ([.ok 7], .ok 5) ∧
      retry (recorded Sample.listed) 9 ([], Sample.results) = ((Sample.results.take 3, [.ok 7]), .ok 5) ∧
      (∀ s ∈ Sample.host.streams, s.Sound) ∧
      recv Sample.host 0 16 = (tried (fun h => h.elapse.recv 0 16) 3 Sample.host, .done [71, 69, 84]) ∧
      WholeLast (fun h => h.elapse.recv 0 16) Sample.host (recv Sample.host 0 16) := by
  have hcut : ∀ i < 2, raw Sample.listed i Sample.results = .error .interrupted := by
    rintro (_ | _ | i) hi
    · rfl
    · rfl
    · omega
  have hlisted := whole_try_is_last.1 Sample.listed Sample.results 2 9 hcut nofun (by decide)
  have hsound : ∀ s ∈ Sample.host.streams, s.Sound := by
    intro s hs side
    rw [List.mem_singleton.1 hs]
    cases side <;> exact .inl rfl
  exact ⟨hlisted.1, hlisted.2.1, hsound, rfl, (whole_try_is_last.2 Sample.host hsound 0).1 16⟩

end Nonblocking

end EventServer
