/-
What others do, and what a server's calls do to other descriptors, never costs a server a readiness report.

A descriptor is calm from one host to another (`Host.Calm`) if it is the same device under the same watch, stays queued
if it was, and shows no new condition that is watched for unless it is queued. A step of the host is `Undisturbed` if
the host is sound after it, every watch is as it was, and every far end is calm; `Spares` is the same but for one
descriptor and the watches.

Main results: `undisturbed_elapse` (whatever others do before a call), `undisturbed_receive`, `undisturbed_transmit`,
`undisturbed_finish`, `undisturbed_accept`, `undisturbed_unblock` and `undisturbed_readSignal` (a server's calls), and
`spares_close`.
-/
import EventServer.Proofs.Ends

namespace EventServer

/-- every condition of the first is one of the second -/
structure Conditions.Within (a b : Conditions) : Prop where
  input : a.input → b.input
  output : a.output → b.output
  error : a.error → b.error
  hangup : a.hangup → b.hangup

theorem Conditions.Within.refl (c : Conditions) : c.Within c := ⟨id, id, id, id⟩

theorem Conditions.Within.trans {a b c : Conditions} (h : a.Within b) (h' : b.Within c) : a.Within c :=
  ⟨h'.input ∘ h.input, h'.output ∘ h.output, h'.error ∘ h.error, h'.hangup ∘ h.hangup⟩

namespace Host

variable {h h' : Host} {α : Type}

/-- no call to come that changes what is watched will be refused -/
def Obliging (h : Host) : Prop := ∀ refusal ∈ h.refusals.rewatch, refusal.2 = none

theorem Obliging.change? (ho : h.Obliging) (d : Descriptor) : h.refusals.change? d = none := by
  unfold Refusals.change?
  cases hr : h.refusals.rewatch.lookup d with
  | none => rfl
  | some refusal =>
    obtain ⟨before, after, he, -⟩ := List.lookup_eq_some_iff.1 hr
    exact ho (d, refusal) (by simp [he])

/-- a descriptor is what it was, and nothing new is to be seen of it unless it is queued -/
structure Calm (d : Descriptor) (h h' : Host) : Prop where
  device : h'.device? d = h.device? d
  watch : h'.watch? d = h.watch? d
  queued : d ∈ h.queue → d ∈ h'.queue
  rises : d ∉ h'.queue → ∀ {w}, h.watch? d = some w →
    (visible w.interest (h'.conditions d)).Within (visible w.interest (h.conditions d))

/-- the host stays sound, what is the server's own stays so and every far end is calm, but for one descriptor maybe -/
structure Spares (x : Option Descriptor) (h h' : Host) : Prop where
  sound : h'.Sound
  obliging : h.Obliging → h'.Obliging
  ours : ∀ {d}, x ≠ some d → h.Ours d → h'.Ours d
  calm : ∀ {d id}, x ≠ some d → h.device? d = some (.stream id .far) → Calm d h h'

/-- the host stays sound, every far end is calm, and every watch is as it was -/
structure Undisturbed (h h' : Host) : Prop extends Spares none h h' where
  watches : h'.watches = h.watches

theorem Calm.trans {d : Descriptor} {a b c : Host} (h : Calm d a b) (h' : Calm d b c) : Calm d a c where
  device := h'.device.trans h.device
  watch := h'.watch.trans h.watch
  queued := h'.queued ∘ h.queued
  rises hq _ hw :=
    (h'.rises hq (h.watch.trans hw)).trans (h.rises (fun hb => hq (h'.queued hb)) hw)

theorem Spares.trans {x : Option Descriptor} {a b c : Host} (h : Spares x a b) (h' : Spares x b c) : Spares x a c where
  sound := h'.sound
  obliging := h'.obliging ∘ h.obliging
  ours hx ho := h'.ours hx (h.ours hx ho)
  calm hx hd := (h.calm hx hd).trans (h'.calm hx ((h.calm hx hd).device.trans hd))

/-- what spares all spares all but one -/
theorem Spares.but (x : Option Descriptor) (hu : Spares none h h') : Spares x h h' :=
  ⟨hu.sound, hu.obliging, fun _ ho => hu.ours (by simp) ho, fun _ hd => hu.calm (by simp) hd⟩

theorem Undisturbed.trans {a b c : Host} (h : Undisturbed a b) (h' : Undisturbed b c) : Undisturbed a c :=
  ⟨h.toSpares.trans h'.toSpares, h'.watches.trans h.watches⟩

theorem conditions_far {d : Descriptor} {id : Nat} (hd : h.device? d = some (.stream id .far)) :
    h.conditions d = ((h.streams[id]?).map (·.conditions .far)).getD {} := by
  simp [conditions, hd]

/-- streams and devices come and others of them change, but not what is watched; and no more than the queue watches -/
theorem undisturbed_of_keeps (hs : h.Sound) (hk : Keeps h h') (hends : h'.ends.Nodup)
    (hknown : ∀ e ∈ h'.ends, e.1 < h'.streams.length) (more : List Stream) (hstreams : h'.streams = h.streams ++ more)
    (hmore : ∀ s ∈ more, s.Sound) (hwatches : h'.watches = h.watches)
    (hrewatch : h'.refusals.rewatch = h.refusals.rewatch) (hqueue : h.queue ⊆ h'.queue) : Undisturbed h h' := by
  refine ⟨⟨⟨hends, hknown, fun s hm => ?_, ?_, fun w hw => ?_⟩, ?_, fun _ ho => hk.ours ho,
    fun {d id} _ hd => ⟨(hk.far hd).trans hd.symm, ?_, fun hq => hqueue hq, fun _ w _ => ?_⟩⟩, hwatches⟩
  · rw [hstreams] at hm
    exact (List.mem_append.1 hm).elim (hs.streams s) (hmore s)
  · rw [hwatches]
    exact hs.watches
  · rw [hwatches] at hw
    exact hk.ours (hs.watched w hw)
  · simp [Obliging, hrewatch]
  · simp [watch?, hwatches]
  · rw [conditions_far hd, conditions_far (hk.far hd), hstreams, List.getElem?_append_left (hs.known_of_device? hd)]
    exact .refl _

/-- a change of nothing that is watched or watches, and of the queue only by more -/
theorem undisturbed_of_eq (hs : h.Sound) (hdevices : h'.devices = h.devices) (hstreams : h'.streams = h.streams)
    (hwatches : h'.watches = h.watches) (hrewatch : h'.refusals.rewatch = h.refusals.rewatch)
    (hqueue : h.queue ⊆ h'.queue) : Undisturbed h h' := by
  have hends : h'.ends = h.ends := by simp [Host.ends, hdevices]
  refine undisturbed_of_keeps hs (keeps_of_device? fun d => ?_) ?_ ?_ [] ?_ ?_ hwatches hrewatch hqueue
  · simp [device?, hdevices]
  · exact hends ▸ hs.ends
  · exact hends ▸ hstreams ▸ hs.known
  · simp [hstreams]
  · simp

theorem Undisturbed.refl (hs : h.Sound) : Undisturbed h h :=
  undisturbed_of_eq hs rfl rfl rfl rfl fun _ hd => hd

/-! ## Stirring -/

/-- stirring only queues -/
theorem stir_eq (h : Host) (d : Descriptor) (stir : Stir) :
    ∃ q, h.stir d stir = { h with queue := q } ∧ h.queue ⊆ q := by
  unfold Host.stir enqueue
  split
  · split
    · split
      · exact ⟨h.queue, rfl, fun _ hd => hd⟩
      · exact ⟨h.queue ++ [d], rfl, fun _ hd => List.mem_append_left _ hd⟩
    · exact ⟨h.queue, rfl, fun _ hd => hd⟩
  · exact ⟨h.queue, rfl, fun _ hd => hd⟩

/-- a descriptor that is watched for what was stirred is queued -/
theorem mem_queue_stir {d : Descriptor} {stir : Stir} {w : Watch} (hw : h.watch? d = some w)
    (hc : stir.concerns w.interest) : d ∈ (h.stir d stir).queue := by
  simp only [Host.stir, hw, hc, if_true, enqueue]
  split
  · next hq => exact List.contains_iff_mem.1 hq
  · simp

/-- stirring ends only queues, and it queues every end that is watched for what was stirred there -/
theorem stirEnds_eq (h : Host) (id : Nat) (stirs : List (Side × Stir)) :
    ∃ q, h.stirEnds id stirs = { h with queue := q } ∧ h.queue ⊆ q ∧
      ∀ {side stir d w}, (side, stir) ∈ stirs → h.descriptorOf? id side = some d → h.watch? d = some w →
        stir.concerns w.interest → d ∈ q := by
  induction stirs generalizing h with
  | nil => exact ⟨h.queue, rfl, fun _ hd => hd, by simp⟩
  | cons stirred rest ih =>
    obtain ⟨side, stir⟩ := stirred
    -- what the first stir makes of the host
    obtain ⟨q, hq, hsub, htold⟩ : ∃ q, h.stirEnds id [(side, stir)] = { h with queue := q } ∧ h.queue ⊆ q ∧
        ∀ {d w}, h.descriptorOf? id side = some d → h.watch? d = some w → stir.concerns w.interest → d ∈ q := by
      simp only [stirEnds, List.foldl_cons, List.foldl_nil]
      cases hd : h.descriptorOf? id side with
      | none => exact ⟨h.queue, rfl, fun _ hd => hd, by simp⟩
      | some d =>
        obtain ⟨q, hq, hsub⟩ := h.stir_eq d stir
        refine ⟨q, hq, hsub, fun he hw hc => ?_⟩
        cases he
        have := mem_queue_stir hw hc
        rwa [hq] at this
    obtain ⟨q', hq', hsub', htold'⟩ := ih { h with queue := q }
    refine ⟨q', ?_, fun _ hd => hsub' (hsub hd), fun hm hd hw hc => ?_⟩
    · rw [← hq', ← hq]
      rfl
    · rcases List.mem_cons.1 hm with he | hm
      · cases he
        exact hsub' (htold hd hw hc)
      · exact htold' hm hd hw hc

/-- what is visible of a far end after an operation on its stream was visible before, or the far end is queued -/
theorem rises_onStream {s : Stream} {after : Stirred α} (ht : s.Tells after .far) {q : List Descriptor}
    {d : Descriptor} {w : Watch} (hq : d ∉ q)
    (htold : ∀ {stir : Stir}, (Side.far, stir) ∈ after.stirs → stir.concerns w.interest → d ∈ q) :
    (visible w.interest (after.stream.conditions .far)).Within (visible w.interest (s.conditions .far)) := by
  have hany : (Side.far, Stir.any) ∉ after.stirs := fun hm => hq (htold hm rfl)
  constructor
  · intro hv
    obtain ⟨hr, hv⟩ := by simpa [visible, Stream.conditions] using hv
    rcases ht.input hv with hb | hm | hm
    · simp [visible, Stream.conditions, hr, hb]
    · exact absurd (htold hm (by simpa [Stir.concerns] using hr)) hq
    · exact absurd hm hany
  · intro hv
    obtain ⟨hr, hv⟩ := by simpa [visible, Stream.conditions] using hv
    rcases ht.output hv with hb | hm | hm
    · simp [visible, Stream.conditions, hr, hb]
    · exact absurd (htold hm (by simpa [Stir.concerns] using hr)) hq
    · exact absurd hm hany
  · exact fun hv => (ht.error hv).resolve_right hany
  · exact fun hv => (ht.hangup hv).resolve_right hany

/-- an operation on a stream that tells what it lets rise -/
theorem undisturbed_onStream (hs : h.Sound) (id : Nat) {operation : Stream → Stirred α} (otherwise : α)
    (ht : ∀ s side, Stream.Tells s (operation s) side) (hk : ∀ s : Stream, s.Sound → (operation s).stream.Sound) :
    Undisturbed h (h.onStream id operation otherwise).1 := by
  unfold onStream
  cases he : h.streams[id]? with
  | none => exact .refl hs
  | some s =>
    have hid := (List.getElem?_eq_some_iff.1 he).1
    obtain ⟨q, hq, hsub, htold⟩ := stirEnds_eq { h with streams := h.streams.set id (operation s).stream } id
      (operation s).stirs
    simp only [hq]
    refine ⟨⟨⟨hs.ends, fun e hm => ?_, fun t hm => ?_, hs.watches, hs.watched⟩, fun ho => ho, fun _ ho => ho,
      fun {d id'} _ hd => ⟨rfl, rfl, fun hd => hsub hd, fun hnq w hw => ?_⟩⟩, rfl⟩
    · simpa using hs.known e hm
    · rcases List.mem_or_eq_of_mem_set hm with hm | rfl
      · exact hs.streams t hm
      · exact hk s (hs.streams s (List.mem_of_getElem? he))
    · -- the conditions of a far end are its stream's
      have hafter := conditions_far (h := { h with streams := h.streams.set id (operation s).stream, queue := q }) hd
      rw [hafter, conditions_far hd]
      by_cases hne : id' = id
      · subst hne
        simp only [List.getElem?_set_self hid, he]
        exact rises_onStream (ht s .far) hnq fun hm hc => htold hm (hs.descriptorOf?_eq hd) hw hc
      · rw [List.getElem?_set_ne (Ne.symm hne)]
        exact .refl _

/-! ## Calls on streams -/

theorem undisturbed_receive (hs : h.Sound) (d : Descriptor) (count : Nat) : Undisturbed h (h.receive d count).1 := by
  unfold receive
  split
  · exact .refl hs
  · exact undisturbed_onStream hs _ _ (fun s => s.tells_recv _ count) fun _ hk => hk.recv _ count
  all_goals exact .refl hs

theorem undisturbed_transmit (hs : h.Sound) (d : Descriptor) (bytes : Bytes) :
    Undisturbed h (h.transmit d bytes).1 := by
  unfold transmit
  split
  · exact .refl hs
  · exact undisturbed_onStream hs _ _ (fun s => s.tells_send _ bytes) fun _ hk => hk.send _ bytes
  all_goals exact .refl hs

theorem undisturbed_stir (hs : h.Sound) (d : Descriptor) (stir : Stir) : Undisturbed h (h.stir d stir) := by
  obtain ⟨q, hq, hsub⟩ := h.stir_eq d stir
  rw [hq]
  exact undisturbed_of_eq hs rfl rfl rfl rfl hsub

theorem undisturbed_finish (hs : h.Sound) (d : Descriptor) : Undisturbed h (h.finish d).1 := by
  unfold finish
  split
  · exact .refl hs
  · exact undisturbed_onStream hs _ _ (fun s => s.tells_finish _) fun _ hk => hk.finish _
  · exact undisturbed_stir hs d .any
  · exact undisturbed_stir hs d .any
  all_goals exact .refl hs

/-! ## Closing -/

theorem watch?_filter_ne {d x : Descriptor} (hne : d ≠ x) (watches : List Watch) :
    (watches.filter (·.descriptor != x)).find? (·.descriptor == d) = watches.find? (·.descriptor == d) := by
  induction watches with
  | nil => rfl
  | cons w rest ih =>
    by_cases hx : w.descriptor = x
    · have hd : w.descriptor ≠ d := hx ▸ Ne.symm hne
      simp [hx, Ne.symm hne, ih]
    · by_cases hd : w.descriptor = d
      · simp [hd, hne]
      · simp [hx, hd, ih]

/-- taking a descriptor off the watch spares the others -/
theorem spares_forget (hs : h.Sound) (x : Descriptor) : Spares (some x) h (h.forget x) := by
  refine ⟨⟨hs.ends, hs.known, hs.streams, hs.watches.sublist (List.filter_sublist.map _),
    fun w hw => hs.watched w (List.mem_filter.1 hw).1⟩, fun ho => ho, fun _ ho => ho, fun {d id} hne hd => ?_⟩
  have hne : d ≠ x := fun he => hne (congrArg some he.symm)
  exact ⟨rfl, watch?_filter_ne hne _, fun hq => List.mem_filter.2 ⟨hq, by simpa using hne⟩, fun _ w _ => .refl _⟩

/-- and so does closing one that is not watched -/
theorem spares_setDevice (hs : h.Sound) {x : Descriptor} {device : Device} (hx : h.device? x = some device)
    (hw : ∀ w ∈ h.watches, w.descriptor ≠ x) : Spares (some x) h (h.setDevice x none) := by
  have hdevice := device?_setDevice hx none
  obtain ⟨pre, post, hends, hset⟩ := ends_focus hx
  have hsub : (h.setDevice x none).ends.Sublist h.ends := by
    rw [hset none, hends]
    simp
  have hours : ∀ {d}, d ≠ x → h.Ours d → (h.setDevice x none).Ours d := fun hne ⟨old, hold, ho⟩ =>
    ⟨old, by rw [hdevice, if_neg hne, hold], ho⟩
  refine ⟨⟨hs.ends.sublist hsub, fun e he => hs.known e (hsub.subset he), hs.streams, hs.watches, fun w hm =>
    hours (hw w hm) (hs.watched w hm)⟩, fun ho => ho, fun hne ho => hours (fun he => hne (congrArg some he.symm)) ho,
    fun {d id} hne hd => ?_⟩
  · have hne : d ≠ x := fun he => hne (congrArg some he.symm)
    have hd' : (h.setDevice x none).device? d = h.device? d := by rw [hdevice, if_neg hne]
    refine ⟨hd', rfl, fun hq => hq, fun _ w _ => ?_⟩
    rw [conditions_far hd, conditions_far (hd'.trans hd)]
    exact .refl _

/-- closing an end spares all other descriptors and ends only its own watch -/
theorem spares_close (hs : h.Sound) {x : Descriptor} {id : Nat} {side : Side}
    (hx : h.device? x = some (.stream id side)) (abrupt : Bool) :
    Spares (some x) h (h.close x abrupt) ∧ (h.close x abrupt).watches = h.watches.filter (·.descriptor != x) := by
  have hforget := spares_forget hs x
  have hgone := hforget.trans (spares_setDevice hforget.sound hx fun w hw => by simpa using (List.mem_filter.1 hw).2)
  have hclose := undisturbed_onStream hgone.sound id ()
    (fun s => s.tells_close side abrupt) fun _ hk => hk.close side abrupt
  simp only [close, hx]
  exact ⟨hgone.trans (hclose.toSpares.but _), hclose.watches⟩

theorem not_watched_of_near (hs : h.Sound) {d : Descriptor} {id : Nat} (hd : h.device? d = some (.stream id .near)) :
    ∀ w ∈ h.watches, w.descriptor ≠ d := fun w hw he => by
  obtain ⟨device, hdev, hours⟩ := hs.watched w hw
  rw [he, hd, Option.some.injEq] at hdev
  subst hdev
  simp [Device.ours] at hours

/-- a client that closes its end disturbs nobody -/
theorem undisturbed_close_near (hs : h.Sound) {x : Descriptor} {id : Nat}
    (hx : h.device? x = some (.stream id .near)) (abrupt : Bool) : Undisturbed h (h.close x abrupt) := by
  obtain ⟨hspares, hwatches⟩ := spares_close hs hx abrupt
  refine ⟨⟨hspares.sound, hspares.obliging, fun {d} _ ho => hspares.ours (fun he => ?_) ho,
    fun {d id'} _ hd => hspares.calm (fun he => ?_) hd⟩, ?_⟩
  · cases he
    obtain ⟨device, hd, hours⟩ := ho
    rw [hx, Option.some.injEq] at hd
    subst hd
    cases hours
  · cases he
    rw [hx] at hd
    cases hd
  · rw [hwatches, List.filter_eq_self]
    exact fun w hw => by simpa using not_watched_of_near hs hx w hw

/-! ## What others do -/

/-- a client that calls takes the near end of a new stream and leaves the far end with the listener -/
theorem undisturbed_connect (hs : h.Sound) (listener : Descriptor) (self : Address) :
    Undisturbed h (h.connect listener self).1 := by
  unfold connect
  split
  · exact .refl hs
  split
  next backlog hl =>
    -- the host once the near end is open and the connection waits at the listener
    let stream := h.streams.length
    let opened := (({ h with streams := h.streams ++ [{ family := .inet }] } : Host).opened (.stream stream .near)).1
    let waiting := opened.setDevice listener (some (.listener (backlog ++ [⟨stream, self⟩])))
    have hl' : opened.device? listener = some (.listener backlog) := by
      rw [show opened.device? listener = _ from device?_opened .., if_neg (Nat.ne_of_lt (lt_length_of_device? hl))]
      exact hl
    have hends : waiting.ends.Perm ((stream, .far) :: (stream, .near) :: h.ends) := by
      obtain ⟨pre, post, he, hset⟩ := ends_focus hl'
      have hfar : waiting.ends.Perm ((stream, .far) :: opened.ends) := by
        rw [show waiting.ends = _ from hset _, he]
        have hmiddle : ((pre ++ Device.ends (.listener backlog)) ++ (stream, Side.far) :: post).Perm
            ((stream, Side.far) :: ((pre ++ Device.ends (.listener backlog)) ++ post)) := List.perm_middle
        simpa [Device.ends] using hmiddle
      have hnear : opened.ends.Perm ((stream, .near) :: h.ends) := by
        rw [show opened.ends = h.ends ++ [(stream, .near)] from ends_opened ..]
        exact List.perm_append_singleton ..
      exact hfar.trans (hnear.cons _)
    have hnew : ∀ side, (stream, side) ∉ h.ends := fun side hm => Nat.lt_irrefl _ (hs.known _ hm)
    have hlength : waiting.streams.length = stream + 1 := List.length_append ..
    have hstream : Keeps h { h with streams := h.streams ++ [{ family := .inet }] } := keeps_of_device? fun _ => rfl
    have hkeeps : Keeps h waiting := (hstream.trans (keeps_opened _)).trans (keeps_backlog hl' _)
    have hwaiting : Undisturbed h waiting := by
      refine undisturbed_of_keeps hs hkeeps (hends.nodup_iff.2 (by simp [hnew, hs.ends])) (fun e he => ?_)
        [{ family := .inet }] rfl (fun s hm => ?_) rfl rfl fun _ hq => hq
      · rw [hlength]
        rcases List.mem_cons.1 (hends.mem_iff.1 he) with rfl | he
        · exact Nat.lt_succ_self _
        · rcases List.mem_cons.1 he with rfl | he
          · exact Nat.lt_succ_self _
          · exact Nat.lt_succ_of_lt (hs.known e he)
      · rw [List.mem_singleton.1 hm]
        exact Stream.sound_fresh _
    exact hwaiting.trans (undisturbed_stir hwaiting.sound listener .input)
  · exact .refl hs

theorem undisturbed_raise (hs : h.Sound) (number : Int) : Undisturbed h (h.raise number).1 := by
  by_cases hb : h.blocked.contains number
  · have hfold : ∀ (sources : List (Option Device × Nat)) {h : Host}, h.Sound →
        Undisturbed h (sources.foldl (fun h entry => h.stir entry.2 .input) h) := by
      intro sources
      induction sources with
      | nil => exact fun hs => .refl hs
      | cons entry rest ih =>
        intro h hs
        have hfirst := undisturbed_stir hs entry.2 .input
        exact hfirst.trans (ih hfirst.sound)
    let waiting := h.pending.filter fun n => !(calledOff number).contains n
    have hpending : Undisturbed h { h with pending := insertSignal number waiting } :=
      undisturbed_of_eq hs rfl rfl rfl rfl fun _ hq => hq
    simp only [raise, hb, if_true]
    exact hpending.trans (hfold _ hpending.sound)
  · simp only [raise, hb]
    exact .refl hs

theorem device?_of_client? {d : Descriptor} (hc : (h.client? d).isSome) :
    ∃ id, h.device? d = some (.stream id .near) := by
  unfold client? at hc
  split at hc
  · next id hd => exact ⟨id, hd⟩
  · cases hc

/-- nothing that others do disturbs a server -/
theorem undisturbed_act (hs : h.Sound) (deed : Deed) : Undisturbed h (h.act deed) := by
  cases deed with
  | connect listener self => exact undisturbed_connect hs listener self
  | send d bytes =>
    simp only [act]
    split
    · exact undisturbed_transmit hs d bytes
    · exact .refl hs
  | recv d count =>
    simp only [act]
    split
    · exact undisturbed_receive hs d count
    · exact .refl hs
  | finish d =>
    simp only [act]
    split
    · exact undisturbed_finish hs d
    · exact .refl hs
  | close d abrupt =>
    simp only [act]
    split
    · next hc =>
      obtain ⟨id, hd⟩ := device?_of_client? hc
      exact undisturbed_close_near hs hd abrupt
    · exact .refl hs
  | signal number => exact undisturbed_raise hs number
  | interrupt => exact undisturbed_of_eq hs rfl rfl rfl rfl fun _ hq => hq

theorem undisturbed_acts (hs : h.Sound) (deeds : List Deed) : Undisturbed h (deeds.foldl act h) := by
  induction deeds generalizing h with
  | nil => exact .refl hs
  | cons deed rest ih =>
    have hfirst := undisturbed_act hs deed
    exact hfirst.trans (ih hfirst.sound)

/-- nor does all that they do before a call -/
theorem undisturbed_elapse (hs : h.Sound) : Undisturbed h h.elapse := by
  have hrest : Undisturbed h { h with others := h.others.tail } :=
    undisturbed_of_eq hs rfl rfl rfl rfl fun _ hq => hq
  exact hrest.trans (undisturbed_acts hrest.sound _)

/-! ## A server's other calls -/

theorem undisturbed_readSignal (hs : h.Sound) (d : Descriptor) : Undisturbed h (h.readSignal d).1 := by
  unfold readSignal
  split
  · dsimp only
    split
    · exact undisturbed_of_eq hs rfl rfl rfl rfl fun _ hq => hq
    · exact .refl hs
  · exact .refl hs

/-- the oldest connection that waits at a listener gets a descriptor that nobody had, and nothing is disturbed -/
theorem undisturbed_taken (hs : h.Sound) {listener : Descriptor} {arrival : Arrival} {rest : List Arrival}
    (hl : h.device? listener = some (.listener (arrival :: rest))) :
    Undisturbed h ((h.setDevice listener (some (.listener rest))).opened (.stream arrival.stream .far)).1 := by
  obtain ⟨pre, post, he, hset⟩ := ends_focus hl
  let left := rest.map fun a => (a.stream, Side.far)
  have hends : ((h.setDevice listener (some (.listener rest))).opened (.stream arrival.stream .far)).1.ends.Perm
      h.ends := by
    calc ((h.setDevice listener (some (.listener rest))).opened (.stream arrival.stream .far)).1.ends
        = (pre ++ left ++ post) ++ [(arrival.stream, .far)] := by rw [ends_opened, hset]; rfl
      List.Perm _ ((arrival.stream, .far) :: (pre ++ (left ++ post))) := by
        rw [List.append_assoc pre]
        exact List.perm_append_singleton ..
      List.Perm _ (pre ++ (arrival.stream, .far) :: (left ++ post)) := List.perm_middle.symm
      _ = h.ends := by rw [he, List.append_assoc pre]; rfl
  exact undisturbed_of_keeps hs ((keeps_backlog hl rest).trans (keeps_opened _)) (hends.nodup_iff.2 hs.ends)
    (fun e hm => hs.known e (hends.mem_iff.1 hm)) [] (List.append_nil _).symm (by simp) rfl rfl
    fun _ hq => hq

/-- an accepted connection has a descriptor that nobody had, and accepting it disturbs nothing -/
theorem undisturbed_accept (hs : h.Sound) (listener : Descriptor) :
    Undisturbed h (h.accept listener).1 ∧ ∀ {d peer}, (h.accept listener).2 = .ok (d, peer) →
      h.device? d = none ∧ ∃ id, (h.accept listener).1.device? d = some (.stream id .far) := by
  have hspent : Undisturbed h { h with refusals := { h.refusals with accept := h.refusals.accept.tail } } :=
    undisturbed_of_eq hs rfl rfl rfl rfl fun _ hq => hq
  unfold accept
  dsimp only
  split
  · exact ⟨hspent, fun h => by cases h⟩
  · exact ⟨hspent, fun h => by cases h⟩
  · exact ⟨hspent, fun h => by cases h⟩
  next arrival rest hl _ =>
    refine ⟨hspent.trans (undisturbed_taken hspent.sound hl), fun hr => ?_⟩
    have hd := congrArg Prod.fst (Except.ok.inj hr)
    have hlength : (h.devices.set listener (some (.listener rest))).length = h.devices.length := List.length_set ..
    subst hd
    refine ⟨?_, arrival.stream, ?_⟩
    · simp [Host.opened, setDevice, device?, hlength]
    · simp [Host.opened, device?]
  all_goals exact ⟨hspent, fun h => by cases h⟩

/-- letting no call on a descriptor wait spends a refusal, and marks the descriptor unless it is refused -/
theorem unblock_eq (h : Host) (d : Descriptor) : ∃ unblocked,
    (h.unblock d).1 = { h with refusals := { h.refusals with unblock := h.refusals.unblock.tail }, unblocked } := by
  unfold unblock
  dsimp only
  split <;> exact ⟨_, rfl⟩

/-- of an open descriptor only a refusal is in the way -/
theorem unblock_value {device : Device} (hd : h.device? d = some device) :
    (h.unblock d).2 = (h.refusals.unblock.head?.join).elim (.ok ()) .error := by
  have hd' : ({ h with refusals := { h.refusals with unblock := h.refusals.unblock.tail } } : Host).device? d =
    some device := hd
  simp only [unblock, hd']
  cases h.refusals.unblock.head?.join <;> rfl

theorem undisturbed_unblock (hs : h.Sound) (d : Descriptor) : Undisturbed h (h.unblock d).1 := by
  obtain ⟨unblocked, he⟩ := h.unblock_eq d
  rw [he]
  exact undisturbed_of_eq hs rfl rfl rfl rfl fun _ hq => hq

/-- closing a far end that was not there before disturbs nothing that was -/
theorem Undisturbed.close_new (hs : h.Sound) (hu : Undisturbed h h') {x : Descriptor} (hnew : h.device? x = none)
    {id : Nat} (hx : h'.device? x = some (.stream id .far)) (abrupt : Bool) : Undisturbed h (h'.close x abrupt) := by
  obtain ⟨hspares, hwatches⟩ := spares_close hu.sound hx abrupt
  refine ⟨⟨hspares.sound, hspares.obliging ∘ hu.obliging, fun {d} _ ho => ?_, fun {d id'} _ hd => ?_⟩, ?_⟩
  · refine hspares.ours (fun he => ?_) (hu.ours (by simp) ho)
    cases he
    obtain ⟨device, hd, -⟩ := ho
    rw [hnew] at hd
    cases hd
  · have hcalm := hu.calm (by simp) hd
    refine hcalm.trans (hspares.calm (fun he => ?_) (hcalm.device.trans hd))
    cases he
    rw [hnew] at hd
    cases hd
  · rw [hwatches, hu.watches, List.filter_eq_self]
    rintro w hw
    obtain ⟨device, hd, -⟩ := hs.watched w hw
    have hne : w.descriptor ≠ x := fun he => by
      rw [he, hnew] at hd
      cases hd
    simpa using hne

end Host

end EventServer
