/-
What every step of a host leaves in order, whoever takes it, on whatever descriptor and with whatever result: the deeds
to come, streams that were sound, and a queue that holds nothing twice (`Host.Tame`). Nothing is asked of the host, so
a step may start anywhere.

The steps are tame one by one (`tame_receive`, `tame_close`, `tame_watch`, `tame_act`, ...). What others do before a
call moves their interruptions from those to come to those that are there, and the sum of both is what it was
(`elapse_conduct`).
-/
import EventServer.Proofs.Stream
import EventServer.Host.Basic

namespace EventServer.Host

variable {h h' : Host} {α : Type} {cuts : Nat}

/-- a step leaves the deeds to come and brings so many interruptions; streams that are sound stay so, and nothing is
queued twice -/
structure Tame (cuts : Nat) (h h' : Host) : Prop where
  others : h'.others = h.others
  interruptions : h'.interruptions = h.interruptions + cuts
  streams : (∀ s ∈ h.streams, s.Sound) → ∀ s ∈ h'.streams, s.Sound
  queue : h.queue.Nodup → h'.queue.Nodup

theorem Tame.refl (h : Host) : Tame 0 h h := ⟨rfl, rfl, id, id⟩

theorem Tame.trans {a b c : Host} {more : Nat} (hab : Tame cuts a b) (hbc : Tame more b c) :
    Tame (cuts + more) a c where
  others := hbc.others.trans hab.others
  interruptions := by rw [hbc.interruptions, hab.interruptions, Nat.add_assoc]
  streams := hbc.streams ∘ hab.streams
  queue := hbc.queue ∘ hab.queue

/-- nothing of the deeds, interruptions, streams and queue changes -/
theorem tame_of_eq (hothers : h'.others = h.others) (hinterruptions : h'.interruptions = h.interruptions)
    (hstreams : h'.streams = h.streams) (hqueue : h'.queue = h.queue) : Tame 0 h h' :=
  ⟨hothers, hinterruptions, fun hs => hstreams ▸ hs, fun hq => hqueue ▸ hq⟩

/-! ## The queue -/

theorem tame_enqueue (h : Host) (d : Descriptor) : Tame 0 h (h.enqueue d) := by
  unfold enqueue
  split
  · exact .refl h
  · next hd =>
    refine ⟨rfl, rfl, id, fun hq => List.nodup_append.2 ⟨hq, by simp, fun x hx y hy he => ?_⟩⟩
    rw [he, List.mem_singleton.1 hy] at hx
    exact hd (List.contains_iff_mem.2 hx)

theorem tame_stir (h : Host) (d : Descriptor) (stir : Stir) : Tame 0 h (h.stir d stir) := by
  unfold Host.stir
  split
  · split
    · exact tame_enqueue h d
    · exact .refl h
  · exact .refl h

theorem tame_stirEnds (h : Host) (id : Nat) (stirs : List (Side × Stir)) : Tame 0 h (h.stirEnds id stirs) := by
  induction stirs generalizing h with
  | nil => exact .refl h
  | cons stirred rest ih =>
    unfold stirEnds at ih ⊢
    rw [List.foldl_cons]
    split
    · exact (tame_stir h _ stirred.2).trans (ih _)
    · exact ih h

theorem tame_forget (h : Host) (d : Descriptor) : Tame 0 h (h.forget d) := ⟨rfl, rfl, id, fun hq => hq.filter _⟩

/-! ## Streams -/

/-- an operation that keeps a stream sound, on one of the host's -/
theorem tame_onStream (h : Host) (id : Nat) {operation : Stream → Stirred α} (otherwise : α)
    (hop : ∀ s : Stream, s.Sound → (operation s).stream.Sound) : Tame 0 h (h.onStream id operation otherwise).1 := by
  unfold onStream
  split
  · next s hs =>
    have hset : Tame 0 h { h with streams := h.streams.set id (operation s).stream } := by
      refine ⟨rfl, rfl, fun hsound t ht => ?_, fun hq => hq⟩
      rcases List.mem_or_eq_of_mem_set ht with ht | rfl
      · exact hsound t ht
      · exact hop s (hsound s (List.mem_of_getElem? hs))
    exact hset.trans (tame_stirEnds _ id _)
  · exact .refl h

theorem tame_receive (h : Host) (d : Descriptor) (count : Nat) : Tame 0 h (h.receive d count).1 := by
  unfold receive
  split
  · exact .refl h
  · exact tame_onStream h _ _ fun _ hs => hs.recv _ count
  all_goals exact .refl h

theorem tame_transmit (h : Host) (d : Descriptor) (bytes : Bytes) : Tame 0 h (h.transmit d bytes).1 := by
  unfold transmit
  split
  · exact .refl h
  · exact tame_onStream h _ _ fun _ hs => hs.send _ bytes
  all_goals exact .refl h

theorem tame_finish (h : Host) (d : Descriptor) : Tame 0 h (h.finish d).1 := by
  unfold finish
  split
  · exact .refl h
  · exact tame_onStream h _ _ fun _ hs => hs.finish _
  · exact tame_stir h d .any
  · exact tame_stir h d .any
  all_goals exact .refl h

theorem tame_close (h : Host) (d : Descriptor) (abrupt : Bool) : Tame 0 h (h.close d abrupt) := by
  have hset : Tame 0 (h.forget d) ((h.forget d).setDevice d none) := tame_of_eq rfl rfl rfl rfl
  have hgone : Tame 0 h ((h.forget d).setDevice d none) := (tame_forget h d).trans hset
  -- those who wait at a listener are reset one by one
  have hreset : ∀ (backlog : List Arrival) (g : Host),
      Tame 0 g (backlog.foldl (fun h arrival => (h.onStream arrival.stream (·.close .far true) ()).1) g) := by
    intro backlog
    induction backlog with
    | nil => exact .refl
    | cons arrival rest ih => exact fun g => (tame_onStream g _ () fun _ hs => hs.close .far true).trans (ih _)
  unfold close
  split
  · exact hgone.trans (tame_onStream _ _ () fun _ hs => hs.close _ abrupt)
  · exact hgone.trans (hreset _ _)
  · exact hgone

/-! ## The watch -/

/-- a look at a descriptor queues it at most -/
theorem Tame.look (ht : Tame cuts h h') (d : Descriptor) (interest : Interest) :
    Tame cuts h (if h'.holds d interest then h'.enqueue d else h') := by
  split
  · exact ht.trans (tame_enqueue h' d)
  · exact ht

theorem tame_watch (h : Host) (d : Descriptor) (word : UInt64) (interest : Interest) :
    Tame 0 h (h.watch d word interest).1 := by
  unfold watch
  dsimp only
  split
  · exact tame_of_eq rfl rfl rfl rfl
  · exact tame_of_eq rfl rfl rfl rfl
  split
  · exact tame_of_eq rfl rfl rfl rfl
  refine Tame.look ?_ d interest
  exact tame_of_eq rfl rfl rfl rfl

theorem tame_rewatch (h : Host) (d : Descriptor) (word : UInt64) (interest : Interest) :
    Tame 0 h (h.rewatch d word interest).1 := by
  unfold rewatch
  dsimp only
  split
  · exact tame_of_eq rfl rfl rfl rfl
  · exact tame_of_eq rfl rfl rfl rfl
  split
  · exact tame_of_eq rfl rfl rfl rfl
  refine Tame.look ?_ d interest
  exact tame_of_eq rfl rfl rfl rfl

theorem tame_unwatch (h : Host) (d : Descriptor) : Tame 0 h (h.unwatch d).1 := by
  unfold unwatch
  split
  · exact .refl h
  split
  · exact .refl h
  · exact tame_forget h d

/-! ## What others do -/

theorem tame_connect (h : Host) (listener : Descriptor) (self : Address) : Tame 0 h (h.connect listener self).1 := by
  unfold connect
  split
  · exact .refl h
  split
  · next backlog _ =>
    let opened := (({ h with streams := h.streams ++ [{ family := .inet }] } : Host).opened
      (.stream h.streams.length .near)).1
    have hnew : Tame 0 h (opened.setDevice listener (some (.listener (backlog ++ [⟨h.streams.length, self⟩])))) := by
      refine ⟨rfl, rfl, fun hsound s hs => ?_, id⟩
      rcases List.mem_append.1 hs with hs | hs
      · exact hsound s hs
      · exact List.mem_singleton.1 hs ▸ Stream.sound_fresh .inet
    exact hnew.trans (tame_stir _ listener .input)
  · exact .refl h

theorem tame_raise (h : Host) (number : Int) : Tame 0 h (h.raise number).1 := by
  have hfold : ∀ (sources : List (Option Device × Nat)) (g : Host),
      Tame 0 g (sources.foldl (fun h entry => h.stir entry.2 .input) g) := by
    intro sources
    induction sources with
    | nil => exact .refl
    | cons entry rest ih => exact fun g => (tame_stir g entry.2 .input).trans (ih _)
  unfold raise
  split
  · let waiting := h.pending.filter fun n => !(calledOff number).contains n
    have hpending : Tame 0 h { h with pending := insertSignal number waiting } := tame_of_eq rfl rfl rfl rfl
    exact hpending.trans (hfold _ _)
  · exact .refl h

theorem tame_act (h : Host) (deed : Deed) : Tame deed.cuts h (h.act deed) := by
  cases deed with
  | connect listener self => exact tame_connect h listener self
  | send d bytes =>
    simp only [act]
    split
    · exact tame_transmit h d bytes
    · exact .refl h
  | recv d count =>
    simp only [act]
    split
    · exact tame_receive h d count
    · exact .refl h
  | finish d =>
    simp only [act]
    split
    · exact tame_finish h d
    · exact .refl h
  | close d abrupt =>
    simp only [act]
    split
    · exact tame_close h d abrupt
    · exact .refl h
  | signal number => exact tame_raise h number
  | interrupt => exact ⟨rfl, rfl, id, id⟩

theorem tame_acts (h : Host) (deeds : List Deed) :
    Tame (deeds.foldr (fun deed sum => deed.cuts + sum) 0) h (deeds.foldl act h) := by
  induction deeds generalizing h with
  | nil => exact .refl h
  | cons deed rest ih => exact (tame_act h deed).trans (ih _)

/-- what others do before a call keeps sound streams sound, queues nothing twice, and leaves as many interruptions as
there were to come or there -/
theorem elapse_conduct (h : Host) : h.elapse.cuts = h.cuts ∧
    ((∀ s ∈ h.streams, s.Sound) → ∀ s ∈ h.elapse.streams, s.Sound) ∧ (h.queue.Nodup → h.elapse.queue.Nodup) := by
  have hacts := tame_acts { h with others := h.others.tail } (h.others.headD [])
  refine ⟨?_, hacts.streams, hacts.queue⟩
  have hothers : h.elapse.others = h.others.tail := hacts.others
  have hinterruptions : h.elapse.interruptions =
      h.interruptions + (h.others.headD []).foldr (fun deed sum => deed.cuts + sum) 0 := hacts.interruptions
  unfold cuts ahead
  rw [hothers, hinterruptions]
  cases h.others with
  | nil => rfl
  | cons deeds rest =>
    have hsplit : ∀ first : List Deed, (first ++ rest.flatten).foldr (fun deed sum => deed.cuts + sum) 0 =
        first.foldr (fun deed sum => deed.cuts + sum) 0 + rest.flatten.foldr (fun deed sum => deed.cuts + sum) 0 := by
      intro first
      induction first with
      | nil => simp
      | cons deed first ih => simp only [List.cons_append, List.foldr_cons, ih, Nat.add_assoc]
    simp only [List.tail_cons, List.headD_cons, List.flatten_cons, hsplit, Nat.add_assoc]

end EventServer.Host
