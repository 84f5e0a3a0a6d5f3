/-
What a stream tells the watch. An operation on one end may let a condition rise at either end; `Tells` says that every
such rise is among the stirs of the operation, and `tells_recv`, `tells_send`, `tells_finish` and `tells_close` say so
of the four operations that there are. This is all that the watch ever needs to know of a stream.

The second half is about calls that would have to wait. `Sound` says that the only trouble of an end is a reset by a
peer that is closed; on such a stream a read that would have to wait leaves neither input nor trouble behind
(`quiet_of_recv`), and a write that would have to wait leaves neither room nor trouble (`quiet_of_send`).
-/
import EventServer.Fault
import EventServer.Host.Stream

namespace EventServer

namespace Stream

variable {α : Type} {s : Stream}

@[simp] theorem other_other (side : Side) : side.other.other = side := by cases side <;> rfl

@[simp] theorem other_ne (side : Side) : side.other ≠ side := by cases side <;> simp [Side.other]

theorem eq_or_eq_other (a b : Side) : a = b ∨ a = b.other := by cases a <;> cases b <;> simp [Side.other]

@[simp] theorem get_update (side : Side) (change : StreamEnd → StreamEnd) :
    (s.update side change).get side = change (s.get side) := by cases side <;> rfl

@[simp] theorem get_update_other (side : Side) (change : StreamEnd → StreamEnd) :
    (s.update side change).get side.other = s.get side.other := by cases side <;> rfl

@[simp] theorem get_other_update (side : Side) (change : StreamEnd → StreamEnd) :
    (s.update side.other change).get side = s.get side := by cases side <;> rfl

@[simp] theorem family_update (side : Side) (change : StreamEnd → StreamEnd) :
    (s.update side change).family = s.family := by cases side <;> rfl

theorem writable_iff {side : Side} : s.writable side ↔ 4 * (s.load side + 1) ≤ sendAllowance := by
  simp [writable]

/-! ## What rises is told -/

/-- every condition that holds at an end after an operation held there before or is among the stirs -/
structure Tells (s : Stream) (after : Stirred α) (side : Side) : Prop where
  input : after.stream.readable side →
    s.readable side ∨ (side, .input) ∈ after.stirs ∨ (side, .any) ∈ after.stirs
  output : after.stream.writable side →
    s.writable side ∨ (side, .output) ∈ after.stirs ∨ (side, .any) ∈ after.stirs
  error : (after.stream.get side).trouble.isSome → (s.get side).trouble.isSome ∨ (side, .any) ∈ after.stirs
  hangup : after.stream.hungUp side → s.hungUp side ∨ (side, .any) ∈ after.stirs

/-- an operation that leaves the stream as it was has nothing to tell -/
theorem tells_self (value : α) (stirs : List (Side × Stir)) (e : Side) : Tells s { stream := s, value, stirs } e :=
  ⟨.inl, .inl, .inl, .inl⟩

/-- an end that is stirred in every respect is told everything -/
theorem tells_any {after : Stirred α} {e : Side} (h : (e, .any) ∈ after.stirs) : Tells s after e :=
  ⟨fun _ => .inr (.inr h), fun _ => .inr (.inr h), fun _ => .inr h, fun _ => .inr h⟩

/-- what is read to no parcel's end relieves the sender of nothing -/
theorem weight_takeBytes (count : Nat) (inbox : List Parcel) (h : (takeBytes count inbox).2.2 = 0) :
    (takeBytes count inbox).2.1.foldr (fun parcel load => parcel.weight + load) 0 =
      inbox.foldr (fun parcel load => parcel.weight + load) 0 := by
  cases inbox with
  | nil => rfl
  | cons parcel rest =>
    unfold takeBytes at h ⊢
    dsimp only at h ⊢
    by_cases hc : count = 0
    · simp [hc]
    · by_cases hl : count < parcel.bytes.length
      · simp [hc, hl]
      · simp [hc, hl] at h

theorem length_takeBytes (count : Nat) (inbox : List Parcel) : (takeBytes count inbox).1.length ≤ count := by
  induction inbox generalizing count with
  | nil => simp [takeBytes]
  | cons parcel rest ih =>
    unfold takeBytes
    dsimp only
    split
    · simp
    · split
      · rw [List.length_take]
        exact Nat.min_le_left ..
      · have hrest := ih (count - parcel.bytes.length)
        simp only [List.length_append]
        omega

/-- no more is read than there is room for -/
theorem length_of_recv {side : Side} {count : Nat} {bytes : Bytes} (h : (s.recv side count).value = .ok bytes) :
    bytes.length ≤ count := by
  unfold recv at h
  dsimp only at h
  split at h
  · split at h
    · cases h
    · dsimp only at h
      split at h <;> cases h
      exact Nat.zero_le _
  · cases h
    exact length_takeBytes ..

/-- a change of one end that takes nothing from its inbox and leaves its marks, its trouble apart -/
theorem tells_update {side e : Side} {change : StreamEnd → StreamEnd} (value : α) (stirs : List (Side × Stir))
    (hi : (change (s.get side)).inbox = (s.get side).inbox)
    (hf : (change (s.get side)).finished = (s.get side).finished)
    (hc : (change (s.get side)).closed = (s.get side).closed)
    (hb : (change (s.get side)).broken = (s.get side).broken ∨ (side, .any) ∈ stirs)
    (ht : (change (s.get side)).trouble.isSome → (s.get side).trouble.isSome) :
    Tells s { stream := s.update side change, value, stirs } e := by
  rcases eq_or_eq_other e side with rfl | rfl
  · rcases hb with hb | hb
    · refine ⟨fun h => .inl ?_, fun h => .inl ?_, fun h => .inl ?_, fun h => .inl ?_⟩
      · simpa [readable, atEnd, hi, hb] using h
      · simpa [writable_iff, load] using h
      · exact ht (by simpa using h)
      · simpa [hungUp, hf, hb] using h
    · exact tells_any hb
  · refine ⟨fun h => .inl ?_, fun h => .inl ?_, fun h => .inl ?_, fun h => .inl ?_⟩
    · simpa [readable, atEnd, hc, hf] using h
    · simpa [writable_iff, load, hi] using h
    · simpa using h
    · simpa [hungUp, hc, hf] using h

theorem tells_recv (s : Stream) (side : Side) (count : Nat) (e : Side) : Tells s (s.recv side count) e := by
  unfold recv
  dsimp only
  by_cases hi : (s.get side).inbox.isEmpty
  · rw [if_pos hi]
    cases (s.get side).trouble with
    | none => exact tells_self _ _ e
    | some code => exact tells_update _ _ rfl rfl rfl (.inl rfl) (by simp)
  · rw [if_neg hi]
    rcases eq_or_eq_other e side with rfl | rfl
    · refine ⟨fun _ => .inl ?_, fun h => .inl ?_, fun h => .inl ?_, fun h => .inl ?_⟩
      · simp [readable, hi]
      · simpa [writable_iff, load] using h
      · simpa using h
      · simpa [hungUp] using h
    · refine ⟨fun h => .inl ?_, fun h => ?_, fun h => .inl ?_, fun h => .inl ?_⟩
      · simpa [readable, atEnd] using h
      · -- room comes only with a parcel that was read to its end, and then it is stirred
        by_cases hz : (takeBytes count (s.get side).inbox).2.2 = 0
        · left
          simpa [writable_iff, load, weight_takeBytes _ _ hz] using h
        · right; left
          dsimp only at h ⊢
          rw [h]
          simp [Nat.pos_of_ne_zero hz]
      · simpa using h
      · simpa [hungUp] using h

/-- an end that has room once its peer has more to read had room before -/
theorem writable_of_inbox_append {side : Side} {parcels : List Parcel}
    (h : 4 * (((s.get side.other).inbox ++ parcels).foldr (fun parcel load => parcel.weight + load) 0 + 1) ≤
      sendAllowance) : s.writable side := by
  have hle : ∀ inbox : List Parcel, inbox.foldr (fun parcel load => parcel.weight + load) 0 ≤
      (inbox ++ parcels).foldr (fun parcel load => parcel.weight + load) 0 := fun inbox => by
    induction inbox with
    | nil => exact Nat.zero_le _
    | cons parcel rest ih =>
      simp only [List.cons_append, List.foldr_cons]
      exact Nat.add_le_add_left ih _
  have := hle (s.get side.other).inbox
  exact writable_iff.2 (by unfold load; omega)

theorem tells_deliver (s : Stream) (side : Side) (bytes : Bytes) (e : Side) : Tells s (s.deliver side bytes) e := by
  unfold deliver
  dsimp only
  split
  · exact tells_self _ _ e
  · rcases eq_or_eq_other e side with rfl | rfl
    · refine ⟨fun h => .inl ?_, fun h => .inl ?_, fun h => .inl ?_, fun h => .inl ?_⟩
      · simpa [readable, atEnd] using h
      · exact writable_of_inbox_append (by simpa [writable_iff, load] using h)
      · simpa using h
      · simpa [hungUp] using h
    · refine ⟨fun _ => .inr (.inl (by simp)), fun h => .inl ?_, fun h => .inl ?_, fun h => .inl ?_⟩
      · simpa [writable_iff, load] using h
      · simpa using h
      · simpa [hungUp] using h

theorem tells_send (s : Stream) (side : Side) (bytes : Bytes) (e : Side) : Tells s (s.send side bytes) e := by
  unfold send
  cases s.family with
  | unix =>
    dsimp only
    split
    · exact tells_self _ _ e
    · split
      · exact tells_self _ _ e
      · exact tells_deliver s side bytes e
  | inet =>
    dsimp only
    cases (s.get side).trouble with
    | some code => exact tells_update _ _ rfl rfl rfl (.inl rfl) (by simp)
    | none =>
      dsimp only
      split
      · exact tells_self _ _ e
      · split
        · exact tells_self _ _ e
        · split
          · exact tells_update _ _ rfl rfl rfl (.inr (by simp)) (by simp)
          · exact tells_deliver s side bytes e

theorem tells_finish (s : Stream) (side : Side) (e : Side) : Tells s (s.finish side) e := by
  unfold finish
  split
  · exact tells_self _ _ e
  · refine tells_any ?_
    rcases eq_or_eq_other e side with rfl | rfl <;> simp

theorem tells_close (s : Stream) (side : Side) (abrupt : Bool) (e : Side) : Tells s (s.close side abrupt) e := by
  rcases eq_or_eq_other e side with rfl | rfl
  · have hpeer : ∀ p : StreamEnd → StreamEnd, (∀ x, (p x).inbox = x.inbox) → (∀ x, (p x).finished = x.finished) →
        (∀ x, (p x).closed = x.closed) →
        Tells s { stream := (s.update e fun x => { x with closed := true, inbox := [] }).update e.other p, value := (),
                  stirs := [(e.other, .any)] } e := by
      intro p hi hf hc
      refine ⟨fun h => .inl ?_, fun h => .inl ?_, fun h => .inl ?_, fun h => .inl ?_⟩
      · simp only [readable, atEnd, get_update, get_update_other, get_other_update, hf, hc] at h
        simp only [readable, atEnd, Bool.or_eq_true]
        right
        simpa using h
      · simpa [writable_iff, load, hi] using h
      · simpa using h
      · simpa [hungUp, hf, hc] using h
    exact hpeer _ (fun x => by split <;> rfl) (fun x => by split <;> rfl) (fun x => by split <;> rfl)
  · exact tells_any (by simp [close])

/-! ## Calls that would have to wait -/

/-- the only trouble of an end is that its peer, which is closed, reset the connection -/
def Sound (s : Stream) : Prop :=
  ∀ side, (s.get side).trouble = none ∨
    (s.get side).trouble = some .connectionReset ∧ (s.get side.other).closed = true

/-- a fresh stream is sound -/
theorem sound_fresh (family : Family) : Sound { family } := fun side => by cases side <;> exact .inl rfl

/-- a change of one end that reopens nothing keeps the stream sound, if the end's trouble is over or as it was -/
theorem Sound.update (h : s.Sound) {side : Side} {change : StreamEnd → StreamEnd}
    (ht : (change (s.get side)).trouble = none ∨ (change (s.get side)).trouble = (s.get side).trouble)
    (hc : (s.get side).closed → (change (s.get side)).closed) : (s.update side change).Sound := fun e => by
  rcases eq_or_eq_other e side with rfl | rfl
  · simp only [get_update, get_update_other]
    rcases ht with ht | ht
    · exact .inl ht
    · rw [ht]
      exact h e
  · simp only [get_update_other, other_other, get_update]
    rcases h side.other with hn | ⟨hr, hp⟩
    · exact .inl hn
    · exact .inr ⟨hr, hc (by simpa using hp)⟩

theorem Sound.recv (h : s.Sound) (side : Side) (count : Nat) : (s.recv side count).stream.Sound := by
  unfold Stream.recv
  dsimp only
  split
  · split
    · exact h.update (.inl rfl) id
    · exact h
  · exact h.update (.inr rfl) id

theorem Sound.deliver (h : s.Sound) (side : Side) (bytes : Bytes) : (s.deliver side bytes).stream.Sound := by
  unfold Stream.deliver
  dsimp only
  split
  · exact h
  · exact h.update (.inr rfl) id

theorem Sound.send (h : s.Sound) (side : Side) (bytes : Bytes) : (s.send side bytes).stream.Sound := by
  unfold Stream.send
  cases s.family with
  | unix =>
    dsimp only
    split
    · exact h
    · split
      · exact h
      · exact h.deliver side bytes
  | inet =>
    dsimp only
    cases ht : (s.get side).trouble with
    | some code => exact h.update (.inl rfl) id
    | none =>
      dsimp only
      split
      · exact h
      · split
        · exact h
        · split
          · exact h.update (.inr rfl) id
          · exact h.deliver side bytes

theorem Sound.finish (h : s.Sound) (side : Side) : (s.finish side).stream.Sound := by
  unfold Stream.finish
  split
  · exact h
  · exact h.update (.inr rfl) id

/-- only a close brings trouble, and the end that it closes stays closed -/
theorem Sound.close (h : s.Sound) (side : Side) (abrupt : Bool) : (s.close side abrupt).stream.Sound := by
  have left : (s.update side fun e => { e with closed := true, inbox := [] }).Sound :=
    h.update (.inr rfl) fun _ => rfl
  intro e
  rcases eq_or_eq_other e side with rfl | rfl
  · have := left e
    simp only [Stream.close, get_update_other, get_other_update, get_update] at this ⊢
    rcases this with hn | ⟨hr, hp⟩
    · exact .inl hn
    · exact .inr ⟨hr, by split <;> exact hp⟩
  · have := left side.other
    simp only [Stream.close, get_update, get_update_other, get_other_update, other_other] at this ⊢
    split
    · exact .inr ⟨rfl, trivial⟩
    · exact this

/-- nothing is there to be read at an end, not even trouble -/
structure QuietIn (s : Stream) (side : Side) : Prop where
  input : s.readable side = false
  error : (s.get side).trouble = none

/-- an end has no room, and there is no trouble -/
structure QuietOut (s : Stream) (side : Side) : Prop where
  output : s.writable side = false
  error : (s.get side).trouble = none

/-- a read that would have to wait finds nothing to read and changes nothing -/
theorem quiet_of_recv (h : s.Sound) {side : Side} {count : Nat} {code : Errno}
    (hr : (s.recv side count).value = .error code) (hc : code.kind = .wouldBlock) :
    (s.recv side count).stream = s ∧ s.QuietIn side := by
  unfold Stream.recv at hr ⊢
  dsimp only at hr ⊢
  by_cases hi : (s.get side).inbox.isEmpty
  · rw [if_pos hi] at hr ⊢
    rcases h side with hn | ⟨ht, -⟩
    · simp only [hn] at hr ⊢
      by_cases he : s.atEnd side
      · simp [he] at hr
      · exact ⟨trivial, by simpa [readable, he] using hi, hn⟩
    · simp only [ht, Except.error.injEq] at hr
      subst hr
      exact absurd hc (by decide)
  · rw [if_neg hi] at hr
    cases hr

/-- a read has to wait whenever nothing is there -/
theorem recv_of_quiet {side : Side} (hq : s.QuietIn side) (count : Nat) :
    (s.recv side count).value = .error .again := by
  obtain ⟨hi, he⟩ : (s.get side).inbox.isEmpty = true ∧ s.atEnd side = false := by
    simpa [readable] using hq.input
  simp [Stream.recv, hi, hq.error, he]

/-- a delivery that accepts nothing is refused for want of allowance -/
theorem deliver_refused {side : Side} {bytes : Bytes} {code : Errno} (hb : bytes ≠ [])
    (hr : (s.deliver side bytes).value = .error code) :
    (s.deliver side bytes).stream = s ∧ s.load side ≥ sendAllowance := by
  unfold Stream.deliver at hr ⊢
  dsimp only at hr ⊢
  by_cases hp : (parcelsOf (bytes.length / Parcel.limit + 1) (s.load side) bytes).isEmpty
  · rw [if_pos hp] at hr ⊢
    refine ⟨rfl, ?_⟩
    unfold parcelsOf at hp
    refine Nat.le_of_not_lt fun hl => ?_
    simp [hb, hl] at hp
  · rw [if_neg hp] at hr
    cases hr

/-- a write that would have to wait finds no room and changes nothing -/
theorem quiet_of_send (h : s.Sound) {side : Side} {bytes : Bytes} {code : Errno}
    (hr : (s.send side bytes).value = .error code) (hc : code.kind = .wouldBlock) :
    (s.send side bytes).stream = s ∧ s.QuietOut side := by
  have room : s.load side ≥ sendAllowance → s.writable side = false := fun hl => by
    rw [← Bool.not_eq_true, writable_iff]
    omega
  unfold Stream.send at hr ⊢
  cases hf : s.family with
  | unix =>
    simp only [hf] at hr ⊢
    by_cases hg : ((s.get side).finished || (s.get side.other).closed) = true
    · rw [if_pos hg] at hr
      cases hr
      exact absurd hc (by decide)
    · rw [if_neg hg] at hr ⊢
      by_cases hb : bytes.isEmpty
      · rw [if_pos hb] at hr
        cases hr
      · rw [if_neg hb] at hr ⊢
        obtain ⟨hs, hl⟩ := deliver_refused (by simpa using hb) hr
        refine ⟨hs, room hl, ?_⟩
        -- trouble would come from a peer that is closed
        rcases h side with hn | ⟨-, hp⟩
        · exact hn
        · simp [hp] at hg
  | inet =>
    simp only [hf] at hr ⊢
    rcases h side with hn | ⟨ht, -⟩
    · simp only [hn] at hr ⊢
      by_cases hg : ((s.get side).finished || (s.get side).broken) = true
      · rw [if_pos hg] at hr
        cases hr
        exact absurd hc (by decide)
      · rw [if_neg hg] at hr ⊢
        by_cases hb : bytes.isEmpty
        · rw [if_pos hb] at hr
          cases hr
        · rw [if_neg hb] at hr ⊢
          by_cases hp : (s.get side.other).closed
          · rw [if_pos hp] at hr
            cases hr
          · rw [if_neg hp] at hr ⊢
            obtain ⟨hs, hl⟩ := deliver_refused (by simpa using hb) hr
            exact ⟨hs, room hl, hn⟩
    · simp only [ht, Except.error.injEq] at hr
      subst hr
      exact absurd hc (by decide)

end Stream

end EventServer
