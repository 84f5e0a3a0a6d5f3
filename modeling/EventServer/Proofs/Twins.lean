/-
Hosts that differ in the order of their queues only, and operations that can change places.

The kernel keeps the descriptors that it will look at in a queue, and no operation but a wait looks at that (`Blind`).
So operations on hosts that are `Twin` give twins and come out the same (`Blind.twin`), and queueing a descriptor may be
put off behind any of them (`Blind.enqueue`). What a connection is watched for is changed by `rewatching` its entry and
looking at it (`relaxed`); that may be put off as well behind whatever is about other descriptors (`Blind.relaxed`):
accepting, watching and closing one that was just accepted, and changing another watch.
-/
import EventServer.Proofs.Apart
import EventServer.Proofs.Inbound

namespace EventServer

namespace Refusals

/-! ## Refusals for several descriptors -/

/-- what a change for one descriptor will meet is left as it is by a change for another -/
theorem change?_changed {d e : Descriptor} (hne : e ≠ d) (r : Refusals) : (r.changed d).change? e = r.change? e := by
  unfold change? changed
  induction r.rewatch with
  | nil => rfl
  | cons refusal rest ih =>
    rw [List.eraseP_cons]
    cases hd : d == refusal.1 with
    | true =>
      have he : (e == refusal.1) = false := by simpa [← beq_iff_eq.1 hd] using hne
      rw [List.lookup_cons, he]
      rfl
    | false =>
      rw [cond_false, List.lookup_cons, List.lookup_cons]
      cases e == refusal.1 with
      | true => rfl
      | false => exact ih

theorem changed_comm (d e : Descriptor) (r : Refusals) : (r.changed d).changed e = (r.changed e).changed d := by
  by_cases hne : e = d
  · rw [hne]
  · have hcomm : (r.rewatch.eraseP (d == ·.1)).eraseP (e == ·.1) = (r.rewatch.eraseP (e == ·.1)).eraseP (d == ·.1) :=
      List.eraseP_comm fun refusal _ => by
        by_cases he : e = refusal.1
        · exact .inl (by simpa [← he] using Ne.symm hne)
        · exact .inr (by simpa using he)
    simp only [changed, hcomm]

end Refusals

namespace Host

variable {α β : Type} {h h' h'' : Host} {d e l x : Descriptor} {word word' : UInt64} {interest interest' : Interest}
  {gone : Descriptor → Prop} {op : Host → Host × β}

/-! ## Twins -/

/-- the host with another queue -/
def requeued (h : Host) (queue : List Descriptor) : Host := { h with queue }

/-- two hosts that differ at most in the order of what is queued -/
def Twin (h h' : Host) : Prop := ∃ q, h' = h.requeued q ∧ ∀ d, d ∈ q ↔ d ∈ h.queue

@[simp] theorem requeued_queue (h : Host) : h.requeued h.queue = h := rfl

theorem Twin.refl (h : Host) : Twin h h := ⟨h.queue, rfl, fun _ => .rfl⟩

theorem Twin.symm (ht : Twin h h') : Twin h' h := by
  obtain ⟨q, rfl, hq⟩ := ht
  exact ⟨h.queue, rfl, fun d => (hq d).symm⟩

theorem Twin.trans (ht : Twin h h') (ht' : Twin h' h'') : Twin h h'' := by
  obtain ⟨q, rfl, hq⟩ := ht
  obtain ⟨q', rfl, hq'⟩ := ht'
  exact ⟨q', rfl, fun d => (hq' d).trans (hq d)⟩

/-- what does not depend on the queue -/
theorem Twin.part (ht : Twin h h') (part : Host → α) (hpart : ∀ g q, part (requeued g q) = part g) :
    part h' = part h := by
  obtain ⟨q, rfl, -⟩ := ht
  exact hpart h q

theorem Twin.others (ht : Twin h h') : h'.others = h.others := ht.part Host.others fun _ _ => rfl

/-- at a host, an operation does not look at the queue; it may take some descriptors out of it and put others in -/
def Blind (op : Host → Host × β) (gone : Descriptor → Prop) (h : Host) : Prop :=
  ∃ added : Descriptor → Prop, ∀ q, ∃ q', op (h.requeued q) = ((op h).1.requeued q', (op h).2) ∧
    ∀ d, d ∈ q' ↔ d ∈ q ∧ ¬ gone d ∨ added d

/-- twins come out of it as twins, and with the same result -/
theorem Blind.twin (hb : Blind op gone h) (ht : Twin h h') : Twin (op h).1 (op h').1 ∧ (op h').2 = (op h).2 := by
  obtain ⟨added, hb⟩ := hb
  obtain ⟨q, rfl, hq⟩ := ht
  obtain ⟨q', he', hm'⟩ := hb q
  obtain ⟨q₀, he₀, hm₀⟩ := hb h.queue
  rw [requeued_queue] at he₀
  have hqueue : (op h).1.queue = q₀ := congrArg (fun r : Host × β => r.1.queue) he₀
  rw [he']
  exact ⟨⟨q', rfl, fun d => by rw [hm', hqueue, hm₀, hq]⟩, rfl⟩

theorem mem_enqueue : x ∈ (h.enqueue d).queue ↔ x ∈ h.queue ∨ x = d := by
  unfold enqueue
  split
  · next hq =>
    exact ⟨.inl, fun hx => hx.elim id fun he => he ▸ List.contains_iff_mem.1 hq⟩
  · simp

theorem enqueue_eq_requeued (h : Host) (d : Descriptor) : h.enqueue d = h.requeued (h.enqueue d).queue := by
  unfold enqueue
  split <;> rfl

/-- a descriptor that the operation does not take out may be queued before it or after it -/
theorem Blind.enqueue (hb : Blind op gone h) (hd : ¬ gone d) :
    Twin ((op h).1.enqueue d) (op (h.enqueue d)).1 ∧ (op (h.enqueue d)).2 = (op h).2 := by
  obtain ⟨added, hb⟩ := hb
  obtain ⟨q', he', hm'⟩ := hb (h.enqueue d).queue
  obtain ⟨q₀, he₀, hm₀⟩ := hb h.queue
  rw [requeued_queue] at he₀
  have hqueue : (op h).1.queue = q₀ := congrArg (fun r : Host × β => r.1.queue) he₀
  rw [← enqueue_eq_requeued] at he'
  rw [he']
  refine ⟨⟨q', ?_, fun x => ?_⟩, rfl⟩
  · rw [enqueue_eq_requeued]
    rfl
  · rw [hm', mem_enqueue, mem_enqueue, hqueue, hm₀]
    constructor
    · rintro (⟨hx | rfl, hkept⟩ | hx)
      · exact .inl (.inl ⟨hx, hkept⟩)
      · exact .inr rfl
      · exact .inl (.inr hx)
    · rintro ((hx | hx) | rfl)
      · exact .inl ⟨.inl hx.1, hx.2⟩
      · exact .inr hx
      · exact .inl ⟨.inr rfl, hd⟩

/-- what leaves the queue to itself -/
theorem blind_of_eq (hop : ∀ q, op (h.requeued q) = ((op h).1.requeued q, (op h).2)) :
    Blind op (fun _ => False) h :=
  ⟨fun _ => False, fun q => ⟨q, hop q, fun d => by simp⟩⟩

theorem blind_id (h : Host) (value : β) : Blind (fun g => (g, value)) (fun _ => False) h := blind_of_eq fun _ => rfl

/-- what comes to an operation of another host that does not look at the queue -/
theorem Blind.congr {op' : Host → Host × β} (hb : Blind op' gone h')
    (hop : ∀ q, op (h.requeued q) = op' (h'.requeued q)) : Blind op gone h := by
  obtain ⟨added, hb⟩ := hb
  obtain ⟨q₀, he₀, -⟩ := hb h.queue
  have hself : op h = ((op' h').1.requeued q₀, (op' h').2) := (hop h.queue).trans he₀
  refine ⟨added, fun q => ?_⟩
  obtain ⟨q', he', hm'⟩ := hb q
  refine ⟨q', ?_, hm'⟩
  rw [hop, he', hself]
  rfl

/-- an operation after one that takes nothing out -/
theorem Blind.comp {first : Host → Host} {second : Host → Host × β}
    (hf : Blind (fun g => (first g, ())) (fun _ => False) h) (hs : Blind second gone (first h)) :
    Blind (fun g => second (first g)) gone h := by
  obtain ⟨added, hf⟩ := hf
  obtain ⟨added', hs⟩ := hs
  refine ⟨fun d => added d ∧ ¬ gone d ∨ added' d, fun q => ?_⟩
  obtain ⟨q', he, hm⟩ := hf q
  obtain ⟨q'', he', hm'⟩ := hs q'
  refine ⟨q'', ?_, fun d => ?_⟩
  · have hfirst : first (h.requeued q) = (first h).requeued q' := congrArg Prod.fst he
    exact (congrArg second hfirst).trans he'
  · rw [hm', hm]
    tauto

/-! ## Operations that do not look at the queue -/

@[simp] theorem requeued_device? (h : Host) (q : List Descriptor) (d : Descriptor) :
    (h.requeued q).device? d = h.device? d := rfl

@[simp] theorem requeued_watch? (h : Host) (q : List Descriptor) (d : Descriptor) :
    (h.requeued q).watch? d = h.watch? d := rfl

@[simp] theorem requeued_descriptorOf? (h : Host) (q : List Descriptor) (id : Nat) (side : Side) :
    (h.requeued q).descriptorOf? id side = h.descriptorOf? id side := rfl

@[simp] theorem requeued_streams (h : Host) (q : List Descriptor) : (h.requeued q).streams = h.streams := rfl

@[simp] theorem requeued_holds (h : Host) (q : List Descriptor) (d : Descriptor) (interest : Interest) :
    (h.requeued q).holds d interest = h.holds d interest := rfl

theorem blind_enqueue (h : Host) (d : Descriptor) : Blind (fun g => (g.enqueue d, ())) (fun _ => False) h := by
  refine ⟨(· = d), fun q => ⟨((h.requeued q).enqueue d).queue, ?_, fun x => ?_⟩⟩
  · dsimp only
    rw [enqueue_eq_requeued h d]
    exact congrArg (·, ()) (enqueue_eq_requeued (h.requeued q) d)
  · rw [mem_enqueue, not_false_eq_true, and_true]
    rfl

theorem blind_stir (h : Host) (d : Descriptor) (stir : Stir) :
    Blind (fun g => (g.stir d stir, ())) (fun _ => False) h := by
  cases hw : h.watch? d with
  | none => exact (blind_id h ()).congr fun q => by simp only [Host.stir, requeued_watch?, hw]
  | some w =>
    cases hc : stir.concerns w.interest with
    | false => exact (blind_id h ()).congr fun q => by simp [Host.stir, hw, hc]
    | true => exact (blind_enqueue h d).congr fun q => by simp [Host.stir, hw, hc]

theorem blind_stirEnds (h : Host) (id : Nat) (stirs : List (Side × Stir)) :
    Blind (fun g => (g.stirEnds id stirs, ())) (fun _ => False) h := by
  induction stirs generalizing h with
  | nil => exact blind_id h ()
  | cons stirred rest ih =>
    have hhead : Blind (fun g : Host => (g.stirEnds id [stirred], ())) (fun _ => False) h := by
      cases hd : h.descriptorOf? id stirred.1 with
      | none => exact (blind_id h ()).congr fun q => by simp [stirEnds, hd]
      | some d => exact (blind_stir h d stirred.2).congr fun q => by simp [stirEnds, hd]
    exact (hhead.comp (ih _)).congr fun q => rfl

theorem blind_onStream (h : Host) (id : Nat) (operation : Stream → Stirred α) (otherwise : α) :
    Blind (fun g => g.onStream id operation otherwise) (fun _ => False) h := by
  cases hs : h.streams[id]? with
  | none => exact (blind_id h otherwise).congr fun q => by simp only [onStream, requeued_streams, hs]
  | some s =>
    obtain ⟨added, hb⟩ := blind_stirEnds { h with streams := h.streams.set id (operation s).stream } id
      (operation s).stirs
    have hvalue : Blind (fun g : Host => (g.stirEnds id (operation s).stirs, (operation s).value)) (fun _ => False)
        { h with streams := h.streams.set id (operation s).stream } := by
      refine ⟨added, fun q => ?_⟩
      obtain ⟨q', he, hm⟩ := hb q
      exact ⟨q', congrArg (fun r : Host × Unit => (r.1, (operation s).value)) he, hm⟩
    exact hvalue.congr fun q => by simp only [onStream, requeued_streams, hs]; rfl

/-- closing an end of a stream takes its descriptor out of the queue -/
theorem blind_close {id : Nat} {side : Side} (hd : h.device? d = some (.stream id side)) (abrupt : Bool) :
    Blind (fun g => (g.close d abrupt, ())) (· = d) h := by
  obtain ⟨added, hb⟩ := blind_onStream ((h.forget d).setDevice d none) id (·.close side abrupt) ()
  have hclose : ∀ q, (h.requeued q).close d abrupt =
      ((((h.forget d).setDevice d none).requeued (q.filter (· != d))).onStream id (·.close side abrupt) ()).1 :=
    fun q => by simp only [close, requeued_device?, hd]; rfl
  have hself := hclose h.queue
  rw [requeued_queue] at hself
  obtain ⟨q₀, he₀, -⟩ := hb (h.queue.filter (· != d))
  refine ⟨added, fun q => ?_⟩
  obtain ⟨q', he, hm⟩ := hb (q.filter (· != d))
  refine ⟨q', ?_, fun x => ?_⟩
  · dsimp only at he he₀ ⊢
    rw [hclose, hself, he, he₀]
    rfl
  · rw [hm, List.mem_filter]
    simp

/-- closing an end, with whatever comes of it -/
theorem blind_closed {id : Nat} {side : Side} (hd : h.device? d = some (.stream id side)) (abrupt : Bool) (value : β) :
    Blind (fun g => (g.close d abrupt, value)) (· = d) h := by
  obtain ⟨added, hb⟩ := blind_close hd abrupt
  refine ⟨added, fun q => ?_⟩
  obtain ⟨q', he, hm⟩ := hb q
  exact ⟨q', congrArg (fun r : Host × Unit => (r.1, value)) he, hm⟩

/-- accepting goes together with any change that is not about devices and what accepting will meet -/
theorem accept_update (u : Host → Host) (hdevices : ∀ g, (u g).devices = g.devices)
    (haccept : ∀ g, (u g).refusals.accept = g.refusals.accept)
    (hspent : ∀ g : Host, { u g with refusals := { (u g).refusals with accept := (u g).refusals.accept.tail } } =
      u { g with refusals := { g.refusals with accept := g.refusals.accept.tail } })
    (hopened : ∀ (g : Host) devices, { u g with devices } = u { g with devices }) (h : Host) (l : Descriptor) :
    (u h).accept l = (u (h.accept l).1, (h.accept l).2) := by
  have hdevice : ∀ g, (u g).device? l = g.device? l := fun g => by rw [device?, device?, hdevices]
  unfold accept
  dsimp only
  rw [hspent, haccept, hdevice]
  cases hd : ({ h with refusals := { h.refusals with accept := h.refusals.accept.tail } } : Host).device? l with
  | none => rfl
  | some device =>
    cases h.refusals.accept.head?.join with
    | some code => rfl
    | none =>
      cases device with
      | listener backlog =>
        cases backlog with
        | nil => rfl
        | cons arrival rest => simp only [setDevice, opened, hdevices, hopened]
      | stream | file | counter | idleSocket | signalSource => rfl

theorem blind_accept (h : Host) (l : Descriptor) : Blind (fun g => g.accept l) (fun _ => False) h :=
  blind_of_eq fun q => accept_update (·.requeued q) (fun _ => rfl) (fun _ => rfl) (fun _ => rfl) (fun _ _ => rfl) h l

/-- so does letting no call wait, with a change that is not about what that will meet either -/
theorem unblock_update (u : Host → Host) (hdevice : ∀ g, (u g).device? d = g.device? d)
    (hunblock : ∀ g, (u g).refusals.unblock = g.refusals.unblock)
    (hspent : ∀ g : Host, { u g with refusals := { (u g).refusals with unblock := (u g).refusals.unblock.tail } } =
      u { g with refusals := { g.refusals with unblock := g.refusals.unblock.tail } })
    (hmarked : ∀ g : Host, { u g with unblocked := d :: (u g).unblocked } = u { g with unblocked := d :: g.unblocked })
    (h : Host) : (u h).unblock d = (u (h.unblock d).1, (h.unblock d).2) := by
  have hboth := hmarked { h with refusals := { h.refusals with unblock := h.refusals.unblock.tail } }
  rw [← hspent h, hunblock h] at hboth
  unfold unblock
  dsimp only
  rw [hspent, hunblock, hdevice]
  cases ({ h with refusals := { h.refusals with unblock := h.refusals.unblock.tail } } : Host).device? d with
  | none => rfl
  | some device =>
    cases h.refusals.unblock.head?.join with
    | some code => rfl
    | none => exact congrArg (·, _) hboth

theorem requeued_unblock (h : Host) (q : List Descriptor) (d : Descriptor) :
    (h.requeued q).unblock d = ((h.unblock d).1.requeued q, (h.unblock d).2) :=
  unblock_update (·.requeued q) (fun _ => rfl) (fun _ => rfl) (fun _ => rfl) (fun _ => rfl) h

theorem blind_look (h : Host) (d : Descriptor) (interest : Interest) (value : β) :
    Blind (fun g => (g.look d interest, value)) (fun _ => False) h := by
  cases hh : h.holds d interest with
  | false => exact (blind_id h value).congr fun q => by simp [look, hh]
  | true =>
    obtain ⟨added, hb⟩ := blind_enqueue h d
    refine ⟨added, fun q => ?_⟩
    obtain ⟨q', he, hm⟩ := hb q
    refine ⟨q', ?_, hm⟩
    simp only [look, requeued_holds, hh, if_true]
    exact congrArg (fun r : Host × Unit => (r.1, value)) he

/-! ## Entering and changing a watch -/

/-- what comes of entering a watch -/
def admission (h : Host) (d : Descriptor) : Except Errno Unit :=
  h.refusals.watch.head?.join.elim
    ((h.watchable d).bind fun _ => if (h.watch? d).isSome then .error .alreadyExists else .ok ()) .error

/-- the host once a watch was asked for, with what is watched then -/
def entering (h : Host) (watches : List Watch) : Host :=
  { h with watches, refusals := { h.refusals with watch := h.refusals.watch.tail } }

theorem watch_eq (h : Host) (d : Descriptor) (word : UInt64) (interest : Interest) :
    (∃ code, h.admission d = .error code ∧ h.watch d word interest = (h.entering h.watches, .error code)) ∨
      h.admission d = .ok () ∧ h.watch d word interest =
        ((h.entering (h.watches ++ [⟨d, word, interest⟩])).look d interest, .ok ()) := by
  have hwatchable : Host.watchable { h with refusals := { h.refusals with watch := h.refusals.watch.tail } } d =
    h.watchable d := rfl
  have hfound : Host.watch? { h with refusals := { h.refusals with watch := h.refusals.watch.tail } } d =
    h.watch? d := rfl
  unfold watch admission
  dsimp only
  rw [hwatchable, hfound]
  cases h.refusals.watch.head?.join with
  | some code => exact .inl ⟨code, rfl, rfl⟩
  | none =>
    cases h.watchable d with
    | error code => exact .inl ⟨code, rfl, rfl⟩
    | ok _ =>
      cases h.watch? d with
      | some w => exact .inl ⟨_, rfl, rfl⟩
      | none => exact .inr ⟨rfl, rfl⟩

/-- the host once a change of the watches was asked for, for a descriptor -/
def revised (h : Host) (d : Descriptor) (change : List Watch → List Watch) : Host :=
  { h with watches := change h.watches, refusals := h.refusals.changed d }

/-- changing what a watched descriptor is watched for -/
theorem rewatch_eq (hd : h.watchable d = .ok ()) (hw : (h.watch? d).isSome) (word : UInt64) (interest : Interest) :
    (∃ code, h.refusals.change? d = some code ∧
        h.rewatch d word interest = (h.revised d id, .error code)) ∨
      h.refusals.change? d = none ∧ h.rewatch d word interest =
        ((h.revised d (rewatched · d word interest)).look d interest, .ok ()) := by
  obtain ⟨w, hw⟩ := Option.isSome_iff_exists.1 hw
  have hwatchable : Host.watchable { h with refusals := h.refusals.changed d } d = .ok () := hd
  have hfound : Host.watch? { h with refusals := h.refusals.changed d } d = some w := hw
  unfold rewatch
  dsimp only
  rw [hwatchable, hfound]
  cases h.refusals.change? d with
  | some code => exact .inl ⟨code, rfl, rfl⟩
  | none => exact .inr ⟨rfl, rfl⟩

theorem blind_rewatch (hd : h.watchable d = .ok ()) (hw : (h.watch? d).isSome) (word : UInt64) (interest : Interest) :
    Blind (fun g => g.rewatch d word interest) (fun _ => False) h := by
  have hsame : ∀ q, (h.requeued q).refusals.change? d = h.refusals.change? d := fun _ => rfl
  cases hr : h.refusals.change? d with
  | some code =>
    refine (blind_id (h.revised d id) (.error code)).congr fun q => ?_
    rcases rewatch_eq (h := h.requeued q) hd hw word interest with ⟨code', hr', he⟩ | ⟨hr', -⟩
    · rw [hsame, hr] at hr'
      cases hr'
      exact he
    · rw [hsame, hr] at hr'
      cases hr'
  | none =>
    refine (blind_look (h.revised d (rewatched · d word interest)) d interest (.ok ())).congr fun q => ?_
    rcases rewatch_eq (h := h.requeued q) hd hw word interest with ⟨code', hr', -⟩ | ⟨-, he⟩
    · rw [hsame, hr] at hr'
      cases hr'
    · exact he

/-! ## Changes that are put off -/

/-- a change of the watches that is not about a descriptor's -/
structure Omits (e : Descriptor) (change : List Watch → List Watch) : Prop where
  kept : ∀ watches x, ((change watches).find? (·.descriptor == x)).isSome =
    (watches.find? (·.descriptor == x)).isSome
  found : ∀ watches, (change watches).find? (·.descriptor == e) = watches.find? (·.descriptor == e)
  entered : ∀ watches word interest, change (watches ++ [⟨e, word, interest⟩]) = change watches ++ [⟨e, word, interest⟩]
  forgotten : ∀ watches, change (watches.filter (·.descriptor != e)) = (change watches).filter (·.descriptor != e)
  rewatched : ∀ watches word interest, change (rewatched watches e word interest) =
    rewatched (change watches) e word interest

theorem omits_id (e : Descriptor) : Omits e id :=
  ⟨fun _ _ => rfl, fun _ => rfl, fun _ _ _ => rfl, fun _ => rfl, fun _ _ _ => rfl⟩

theorem omits_rewatched (hne : e ≠ d) (word : UInt64) (interest : Interest) :
    Omits e (rewatched · d word interest) where
  kept watches x := by
    induction watches with
    | nil => rfl
    | cons w rest ih =>
      rw [Host.rewatched, List.map_cons, ← Host.rewatched, List.find?_cons, List.find?_cons]
      have hsame : (if w.descriptor == d then (⟨d, word, interest⟩ : Watch) else w).descriptor = w.descriptor := by
        split
        · next he => exact (beq_iff_eq.1 he).symm
        · rfl
      rw [hsame]
      cases w.descriptor == x with
      | true => rfl
      | false => exact ih
  found watches := find?_rewatched_ne hne watches word interest
  entered watches word' interest' := by simp [Host.rewatched, hne]
  forgotten watches := by
    rw [Host.rewatched, Host.rewatched, List.filter_map]
    refine congrArg (List.map _) (List.filter_congr fun w _ => ?_)
    by_cases hw : w.descriptor = d <;> simp [hw]
  rewatched watches word' interest' := by
    simp only [Host.rewatched, List.map_map]
    refine List.map_congr_left fun w _ => ?_
    by_cases hd : w.descriptor = d
    · simp [hd, hne.symm]
    · by_cases he : w.descriptor = e <;> simp [hd, he, hne]

section

variable {change : List Watch → List Watch}

@[simp] theorem revised_device? (h : Host) (x : Descriptor) : (h.revised d change).device? x = h.device? x := rfl

theorem revised_enqueue (h : Host) (x : Descriptor) :
    (h.revised d change).enqueue x = (h.enqueue x).revised d change := by
  unfold enqueue
  split <;> split
  · rfl
  · next hq hq' => exact absurd hq hq'
  · next hq hq' => exact absurd hq' hq
  · rfl

theorem revised_look (h : Host) (x : Descriptor) (interest : Interest) :
    (h.revised d change).look x interest = (h.look x interest).revised d change := by
  have hsame : (h.revised d change).holds x interest = h.holds x interest := rfl
  unfold look
  rw [hsame]
  split
  · exact h.revised_enqueue x
  · rfl

theorem revised_watch? (h : Host) (hkept : ∀ watches x, ((change watches).find? (·.descriptor == x)).isSome =
    (watches.find? (·.descriptor == x)).isSome) (x : Descriptor) :
    ((h.revised d change).watch? x).isSome = (h.watch? x).isSome :=
  hkept h.watches x

/-- trouble concerns whatever a descriptor is watched for -/
theorem revised_stir (ho : Omits e change) (h : Host) (x : Descriptor) :
    (h.revised d change).stir x .any = (h.stir x .any).revised d change := by
  have hsame := h.revised_watch? (d := d) ho.kept x
  unfold Host.stir
  cases hw : h.watch? x with
  | none =>
    rw [hw, Option.isSome_none, Option.isSome_eq_false_iff, Option.isNone_iff_eq_none] at hsame
    rw [hsame]
  | some w =>
    rw [hw, Option.isSome_some] at hsame
    obtain ⟨w', hw'⟩ := Option.isSome_iff_exists.1 hsame
    rw [hw']
    exact h.revised_enqueue x

theorem revised_accept (h : Host) (l : Descriptor) :
    (h.revised d change).accept l = ((h.accept l).1.revised d change, (h.accept l).2) :=
  accept_update (·.revised d change) (fun _ => rfl) (fun _ => rfl) (fun _ => rfl) (fun _ _ => rfl) h l

theorem revised_watch (ho : Omits e change) (h : Host) (word : UInt64) (interest : Interest) :
    (h.revised d change).watch e word interest =
      ((h.watch e word interest).1.revised d change, (h.watch e word interest).2) := by
  have hfound : (h.revised d change).watch? e = h.watch? e := ho.found h.watches
  have hsame : (h.revised d change).admission e = h.admission e := by
    unfold admission
    rw [hfound]
    rfl
  rcases h.watch_eq e word interest with ⟨code, ha, he⟩ | ⟨ha, he⟩
  · rcases (h.revised d change).watch_eq e word interest with ⟨code', ha', he'⟩ | ⟨ha', -⟩
    · rw [hsame, ha] at ha'
      cases ha'
      rw [he, he']
      rfl
    · rw [hsame, ha] at ha'
      cases ha'
  · rcases (h.revised d change).watch_eq e word interest with ⟨code', ha', -⟩ | ⟨-, he'⟩
    · rw [hsame, ha] at ha'
      cases ha'
    · have hentered : (h.revised d change).entering ((h.revised d change).watches ++ [⟨e, word, interest⟩]) =
          (h.entering (h.watches ++ [⟨e, word, interest⟩])).revised d change := by
        simp only [entering, revised, ho.entered, Refusals.changed]
      rw [he, he', hentered, revised_look]

/-- closing an end tells its peer only, and of trouble -/
theorem revised_close {id : Nat} {side : Side} (ho : Omits e change) (hd : h.device? e = some (.stream id side))
    (abrupt : Bool) : (h.revised d change).close e abrupt = (h.close e abrupt).revised d change := by
  have hgone : ((h.revised d change).forget e).setDevice e none = ((h.forget e).setDevice e none).revised d change := by
    simp only [forget, setDevice, revised, ho.forgotten]
  have hstream : ∀ g : Host, ((g.revised d change).onStream id (·.close side abrupt) ()).1 =
      (g.onStream id (·.close side abrupt) ()).1.revised d change := fun g => by
    have hstreams : (g.revised d change).streams = g.streams := rfl
    unfold onStream
    rw [hstreams]
    cases g.streams[id]? with
    | none => rfl
    | some s =>
      simp only [Stream.close, stirEnds, List.foldl_cons, List.foldl_nil]
      have hset : ∀ streams, ({ g.revised d change with streams } : Host) =
        ({ g with streams } : Host).revised d change := fun _ => rfl
      have hfound : ∀ (f : Host) side, (f.revised d change).descriptorOf? id side = f.descriptorOf? id side :=
        fun _ _ => rfl
      rw [hset, hfound]
      cases Host.descriptorOf? _ id side.other with
      | none => rfl
      | some x => exact revised_stir ho _ x
  simp only [close, revised_device?, hd, hgone, hstream]

/-- changes of what two descriptors are watched for -/
theorem revised_rewatch (ho : Omits e change) (hne : e ≠ d) (hd : h.watchable e = .ok ()) (hw : (h.watch? e).isSome)
    (word : UInt64) (interest : Interest) :
    (h.revised d change).rewatch e word interest =
      ((h.rewatch e word interest).1.revised d change, (h.rewatch e word interest).2) := by
  have hd' : (h.revised d change).watchable e = .ok () := hd
  have hw' : ((h.revised d change).watch? e).isSome := (h.revised_watch? ho.kept e).trans hw
  have hr' : (h.revised d change).refusals.change? e = h.refusals.change? e := Refusals.change?_changed hne _
  have hboth : ∀ change', (∀ watches, change' (change watches) = change (change' watches)) →
      (h.revised d change).revised e change' = (h.revised e change').revised d change := fun change' hcomm => by
    simp only [revised, hcomm, Refusals.changed_comm d e]
  rcases rewatch_eq hd hw word interest with ⟨code, hc, he⟩ | ⟨hc, he⟩
  · rcases rewatch_eq hd' hw' word interest with ⟨code', hc', he'⟩ | ⟨hc', -⟩
    · rw [hr', hc] at hc'
      cases hc'
      rw [he, he', hboth id fun _ => rfl]
    · rw [hr', hc] at hc'
      cases hc'
  · rcases rewatch_eq hd' hw' word interest with ⟨code', hc', -⟩ | ⟨-, he'⟩
    · rw [hr', hc] at hc'
      cases hc'
    · rw [he, he', hboth (Host.rewatched · e word interest) fun watches => (ho.rewatched watches word interest).symm,
        revised_look]

end

/-- **A change of a watch may be put off** behind an operation that is about another stream and other descriptors, if
it is granted or refused then as it would have been before -/
theorem rewatch_later (op : Host → Host × β) {i : Nat} {concerned : Option Nat}
    (hd : h.device? d = some (.stream i .far)) (hknown : i < h.streams.length) (hw : (h.watch? d).isSome)
    (ho : Only concerned h (op h).1) (hne : concerned ≠ some i)
    (hr : (op h).1.refusals.change? d = h.refusals.change? d)
    (hrevised : ∀ change, (∀ e, e ≠ d → Omits e change) →
      op (h.revised d change) = ((op h).1.revised d change, (op h).2))
    (hblind : ∀ change, (∀ e, e ≠ d → Omits e change) → ∃ gone, ¬ gone d ∧ Blind op gone (h.revised d change))
    (word : UInt64) (interest : Interest) :
    Twin ((op h).1.rewatch d word interest).1 (op (h.rewatch d word interest).1).1 ∧
      (op (h.rewatch d word interest).1).2 = (op h).2 ∧
      ((op h).1.rewatch d word interest).2 = (h.rewatch d word interest).2 := by
  have hapart := ho.apart hne hknown
  have hd' : (op h).1.device? d = some (.stream i .far) := hapart.ends.2 hd
  have hw' : ((op h).1.watch? d).isSome := by rwa [hapart.watch (.inl hd)]
  have hwatchable : ∀ {g : Host}, g.device? d = some (.stream i .far) → g.watchable d = .ok () := fun hg => by
    rw [Host.watchable, hg]
  let change : List Watch → List Watch := (Host.rewatched · d word interest)
  have homits : ∀ e, e ≠ d → Omits e change := fun e he => omits_rewatched he word interest
  have hidle := hrevised id fun e _ => omits_id e
  have hchanged := hrevised change homits
  rcases rewatch_eq (hwatchable hd) hw word interest with ⟨code, hc, he⟩ | ⟨hc, he⟩
  · rcases rewatch_eq (hwatchable hd') hw' word interest with ⟨code', hc', he'⟩ | ⟨hc', -⟩
    · rw [hr, hc] at hc'
      cases hc'
      rw [he, he', hidle]
      exact ⟨.refl _, rfl, rfl⟩
    · rw [hr, hc] at hc'
      cases hc'
  · rcases rewatch_eq (hwatchable hd') hw' word interest with ⟨code', hc', -⟩ | ⟨-, he'⟩
    · rw [hr, hc] at hc'
      cases hc'
    rw [he, he']
    have hsame : ((op h).1.revised d change).holds d interest = (h.revised d change).holds d interest := by
      have hholds : (op h).1.holds d interest = h.holds d interest := by
        simp only [Host.holds, conditions_far hd, conditions_far hd', hapart.stream]
      exact hholds
    dsimp only
    unfold look
    rw [hsame]
    split
    · obtain ⟨gone, hgone, hblind⟩ := hblind change homits
      obtain ⟨htwin, hvalue⟩ := hblind.enqueue hgone
      rw [hchanged] at htwin hvalue
      exact ⟨htwin, hvalue, rfl⟩
    · rw [hchanged]
      exact ⟨.refl _, rfl, rfl⟩

/-! ## Admitting a connection -/

/-- nobody acted, and nothing was met of what changes of a watch will meet -/
structure Unmet (h h' : Host) : Prop where
  others : h'.others = h.others
  rewatch : h'.refusals.rewatch = h.refusals.rewatch

theorem Unmet.trans (hu : Unmet h h') (hu' : Unmet h' h'') : Unmet h h'' :=
  ⟨hu'.others.trans hu.others, hu'.rewatch.trans hu.rewatch⟩

theorem Unmet.change? (hu : Unmet h h') (d : Descriptor) : h'.refusals.change? d = h.refusals.change? d := by
  rw [Refusals.change?, hu.rewatch]
  rfl

theorem unmet_look (h : Host) (d : Descriptor) (interest : Interest) : Unmet h (h.look d interest) := by
  unfold look enqueue
  split
  · split <;> exact ⟨rfl, rfl⟩
  · exact ⟨rfl, rfl⟩

theorem unmet_accept (h : Host) (l : Descriptor) : Unmet h (h.accept l).1 := by
  rcases h.accept_cases l with ⟨arrival, rest, -, he⟩ | ⟨code, he⟩
  · rw [he]
    exact ⟨rfl, rfl⟩
  · rw [he]
    exact ⟨rfl, rfl⟩

theorem unmet_unblock (h : Host) (d : Descriptor) : Unmet h (h.unblock d).1 := by
  obtain ⟨unblocked, he⟩ := h.unblock_eq d
  rw [he]
  exact ⟨rfl, rfl⟩

theorem unmet_watch (h : Host) (d : Descriptor) (word : UInt64) (interest : Interest) :
    Unmet h (h.watch d word interest).1 := by
  rcases h.watch_eq d word interest with ⟨code, -, he⟩ | ⟨-, he⟩
  · rw [he]
    exact ⟨rfl, rfl⟩
  · rw [he]
    have hentered : Unmet h (h.entering (h.watches ++ [⟨d, word, interest⟩])) := ⟨rfl, rfl⟩
    exact hentered.trans (unmet_look ..)

theorem unmet_close {i : Nat} {side : Side} (hd : h.device? d = some (.stream i side)) (abrupt : Bool) :
    Unmet h (h.close d abrupt) := by
  simp only [close, hd]
  rcases ((h.forget d).setDevice d none).onStream_cases i (·.close side abrupt) () with he | ⟨s, q, -, he⟩
  · rw [he]
    exact ⟨rfl, rfl⟩
  · rw [he]
    exact ⟨rfl, rfl⟩

/-- a change of a watch meets what is the first to be met -/
theorem met_rewatch (h : Host) (d : Descriptor) (word : UInt64) (interest : Interest) :
    (h.rewatch d word interest).1.others = h.others ∧
      (h.rewatch d word interest).1.refusals.rewatch = (h.refusals.changed d).rewatch := by
  unfold rewatch
  dsimp only
  split
  · exact ⟨rfl, rfl⟩
  · exact ⟨rfl, rfl⟩
  · split
    · exact ⟨rfl, rfl⟩
    · have hlook := (h.revised d (rewatched · d word interest)).unmet_look d interest
      exact ⟨hlook.others, hlook.rewatch⟩

/-- accepting concerns a stream only that waits to be accepted -/
theorem only_accept (h : Host) (l : Descriptor) :
    ∃ concerned, Only concerned h (h.accept l).1 ∧ ∀ i, concerned = some i → h.Waits i l := by
  have hspent := (only_spent h).1
  rcases h.accept_cases l with ⟨arrival, rest, hl, he⟩ | ⟨code, he⟩
  · rw [he]
    refine ⟨some arrival.stream, (hspent.of_none _).trans (only_taken hl), fun i hi => ?_⟩
    cases hi
    exact ⟨_, hl, arrival, List.mem_cons_self, rfl⟩
  · rw [he]
    exact ⟨none, hspent, fun i hi => by cases hi⟩

/-- a connection that was accepted is to be watched under its slot, and is closed if that is refused -/
def enlist (h : Host) (key : Nat) (d : Descriptor) : Host × Except WatchFault Unit :=
  match (Token.connection key).word? with
  | none => (h.close d false, .error .slotTooLarge)
  | some word =>
    let watched := h.watch d word Connections.idleInterest
    match watched.2 with
    | .ok () => (watched.1, .ok ())
    | .error code => (watched.1.close d false, .error (.refused code))

theorem only_enlist {i : Nat} (hd : h.device? d = some (.stream i .far)) (key : Nat) :
    Only (some i) h (h.enlist key d).1 := by
  unfold enlist
  split
  · exact only_close hd false
  · next word _ =>
    have hwatched := only_watch hd word Connections.idleInterest
    dsimp only
    split
    · exact hwatched
    · exact hwatched.trans (only_close ((device?_watch ..).trans hd) false)

theorem unmet_enlist {i : Nat} (hd : h.device? d = some (.stream i .far)) (key : Nat) :
    Unmet h (h.enlist key d).1 := by
  unfold enlist
  split
  · exact unmet_close hd false
  · next word _ =>
    have hwatched := h.unmet_watch d word Connections.idleInterest
    dsimp only
    split
    · exact hwatched
    · exact hwatched.trans (unmet_close ((device?_watch ..).trans hd) false)

theorem blind_enlist {i : Nat} (hd : h.device? d = some (.stream i .far)) (key : Nat) :
    ∃ gone, (∀ e, e ≠ d → ¬ gone e) ∧ Blind (fun g => g.enlist key d) gone h := by
  cases hk : (Token.connection key).word? with
  | none =>
    refine ⟨_, fun e he => he, (blind_closed hd false (.error .slotTooLarge)).congr fun q => ?_⟩
    simp only [enlist, hk]
  | some word =>
    have hsame : ∀ q, (h.requeued q).admission d = h.admission d := fun _ => rfl
    cases ha : h.admission d with
    | error code =>
      refine ⟨_, fun e he => he, (blind_closed (h := h.entering h.watches) hd false (.error (.refused code))).congr
        fun q => ?_⟩
      rcases (h.requeued q).watch_eq d word Connections.idleInterest with ⟨code', ha', he⟩ | ⟨ha', -⟩
      · rw [hsame, ha] at ha'
        cases ha'
        simp only [enlist, hk, he]
        rfl
      · rw [hsame, ha] at ha'
        cases ha'
    | ok _ =>
      refine ⟨_, fun e _ => id, (blind_look (h.entering (h.watches ++ [⟨d, word, Connections.idleInterest⟩])) d
        Connections.idleInterest (.ok ())).congr fun q => ?_⟩
      rcases (h.requeued q).watch_eq d word Connections.idleInterest with ⟨code', ha', -⟩ | ⟨-, he⟩
      · rw [hsame, ha] at ha'
        cases ha'
      · simp only [enlist, hk, he]
        rfl

theorem revised_enlist {i : Nat} {change : List Watch → List Watch} (ho : Omits d change)
    (hd : h.device? d = some (.stream i .far)) (key : Nat) :
    (h.revised e change).enlist key d = ((h.enlist key d).1.revised e change, (h.enlist key d).2) := by
  unfold enlist
  cases (Token.connection key).word? with
  | none => exact congrArg (·, _) (revised_close ho hd false)
  | some word =>
    dsimp only
    rw [revised_watch ho]
    dsimp only
    cases (h.watch d word Connections.idleInterest).2 with
    | ok _ => rfl
    | error code => exact congrArg (·, _) (revised_close ho ((device?_watch ..).trans hd) false)

/-! ## Accepting, and what comes of it -/

/-- no call on a connection that was taken is to wait, and it is closed if that is refused -/
def confirm (h : Host) (d : Descriptor) : Host × Except Errno Unit :=
  let unblocked := h.unblock d
  match unblocked.2 with
  | .ok () => (unblocked.1, .ok ())
  | .error code => (unblocked.1.close d false, .error code)

/-- takes the oldest connection that waits, and no call on it is to wait -/
def acquire (h : Host) (l : Descriptor) : Host × Outcome (Descriptor × Address) :=
  let taken := h.accept l
  match taken.2 with
  | .error code => (taken.1, .ofResult (.error code))
  | .ok (d, peer) =>
    let confirmed := taken.1.confirm d
    (confirmed.1, match confirmed.2 with
      | .ok () => .done (d, peer)
      | .error code => .failed (.system code))

/-- nothing was taken, or a far end that nobody had, which is confirmed or not -/
theorem acquire_cases (h : Host) (l : Descriptor) :
    (∃ code, (h.accept l).2 = .error code ∧ h.acquire l = ((h.accept l).1, .ofResult (.error code))) ∨
      ∃ peer i, (h.accept l).2 = .ok (h.devices.length, peer) ∧ h.Waits i l ∧
        (h.accept l).1.device? h.devices.length = some (.stream i .far) ∧
        (h.acquire l).1 = ((h.accept l).1.confirm h.devices.length).1 ∧
        (h.acquire l).2 = match ((h.accept l).1.confirm h.devices.length).2 with
          | .ok () => .done (h.devices.length, peer)
          | .error code => .failed (.system code) := by
  rcases h.accept_cases l with ⟨arrival, rest, hl, he⟩ | ⟨code, he⟩
  · refine .inr ⟨arrival.peer, arrival.stream, by rw [he], ⟨_, hl, arrival, List.mem_cons_self, rfl⟩, ?_, ?_⟩
    · have hlength : (h.devices.set l (some (.listener rest))).length = h.devices.length := List.length_set ..
      rw [he]
      simp [Host.opened, setDevice, device?, hlength]
    · unfold acquire
      dsimp only
      rw [he]
      exact ⟨rfl, rfl⟩
  · exact .inl ⟨code, by rw [he], by simp only [acquire, he]⟩

theorem only_confirm {i : Nat} (hd : h.device? d = some (.stream i .far)) : Only (some i) h (h.confirm d).1 := by
  have hunblocked := (h.only_unblock d).of_none (some i)
  have hd' : (h.unblock d).1.device? d = some (.stream i .far) := (device?_unblock ..).trans hd
  unfold confirm
  dsimp only
  split
  · exact hunblocked
  · exact hunblocked.trans (only_close hd' false)

theorem unmet_confirm {i : Nat} (hd : h.device? d = some (.stream i .far)) : Unmet h (h.confirm d).1 := by
  have hd' : (h.unblock d).1.device? d = some (.stream i .far) := (device?_unblock ..).trans hd
  unfold confirm
  dsimp only
  split
  · exact h.unmet_unblock d
  · exact (h.unmet_unblock d).trans (unmet_close hd' false)

theorem blind_confirm {i : Nat} (hd : h.device? d = some (.stream i .far)) :
    ∃ gone, (∀ e, e ≠ d → ¬ gone e) ∧ Blind (fun g => g.confirm d) gone h := by
  have hd' : (h.unblock d).1.device? d = some (.stream i .far) := (device?_unblock ..).trans hd
  cases hr : (h.unblock d).2 with
  | ok _ =>
    exact ⟨_, fun _ _ => id, (blind_id (h.unblock d).1 (.ok ())).congr fun q => by
      simp only [confirm, requeued_unblock, hr]⟩
  | error code =>
    exact ⟨_, fun _ he => he, (blind_closed hd' false (.error code)).congr fun q => by
      simp only [confirm, requeued_unblock, hr]⟩

theorem revised_confirm {i : Nat} {change : List Watch → List Watch} (ho : Omits d change)
    (hd : h.device? d = some (.stream i .far)) :
    (h.revised e change).confirm d = ((h.confirm d).1.revised e change, (h.confirm d).2) := by
  have hrevised : (h.revised e change).unblock d = ((h.unblock d).1.revised e change, (h.unblock d).2) :=
    unblock_update (·.revised e change) (fun _ => rfl) (fun _ => rfl) (fun _ => rfl) (fun _ => rfl) h
  have hd' : (h.unblock d).1.device? d = some (.stream i .far) := (device?_unblock ..).trans hd
  simp only [confirm, hrevised]
  cases (h.unblock d).2 with
  | ok _ => rfl
  | error code => exact congrArg (·, _) (revised_close ho hd' false)

theorem unmet_acquire (h : Host) (l : Descriptor) : Unmet h (h.acquire l).1 := by
  have haccept := h.unmet_accept l
  rcases h.acquire_cases l with ⟨code, -, he⟩ | ⟨peer, i, -, -, hd, he, -⟩
  · rw [he]
    exact haccept
  · rw [he]
    exact haccept.trans (unmet_confirm hd)

/-- twins take the same connection -/
theorem Twin.acquire (ht : Twin h h') (l : Descriptor) :
    Twin (h.acquire l).1 (h'.acquire l).1 ∧ (h'.acquire l).2 = (h.acquire l).2 := by
  obtain ⟨haccept, hvalue⟩ := (blind_accept h l).twin ht
  have hlength : h'.devices.length = h.devices.length := ht.part (·.devices.length) fun _ _ => rfl
  rcases h.acquire_cases l with ⟨code, hr, he⟩ | ⟨peer, i, hr, -, hd, he, hv⟩
  · rcases h'.acquire_cases l with ⟨code', hr', he'⟩ | ⟨peer', i', hr', -⟩
    · cases hr'.symm.trans (hvalue.trans hr)
      rw [he, he']
      exact ⟨haccept, rfl⟩
    · cases hr'.symm.trans (hvalue.trans hr)
  · rcases h'.acquire_cases l with ⟨code', hr', -⟩ | ⟨peer', i', hr', -, -, he', hv'⟩
    · cases hr'.symm.trans (hvalue.trans hr)
    · obtain ⟨gone, -, hblind⟩ := blind_confirm hd
      obtain ⟨hconfirm, hsame⟩ := hblind.twin haccept
      rw [hlength] at hr' he' hv'
      cases hr'.symm.trans (hvalue.trans hr)
      rw [he, he', hv, hv', hsame]
      exact ⟨hconfirm, rfl⟩

/-! ## What a change may be put off behind -/

variable {i j key : Nat}

/-- behind accepting -/
theorem rewatch_accept (hs : h.Sound) (hd : h.device? d = some (.stream i .far)) (hw : (h.watch? d).isSome)
    (l : Descriptor) (word : UInt64) (interest : Interest) :
    Twin ((h.accept l).1.rewatch d word interest).1 ((h.rewatch d word interest).1.accept l).1 ∧
      ((h.rewatch d word interest).1.accept l).2 = (h.accept l).2 := by
  obtain ⟨concerned, ho, hwaits⟩ := h.only_accept l
  have hne : concerned ≠ some i := fun he => hs.not_waits hd l (hwaits i he)
  obtain ⟨htwin, hvalue, -⟩ := rewatch_later (fun g => g.accept l) hd (hs.known_of_device? hd) hw ho hne
    ((h.unmet_accept l).change? d) (fun _ _ => revised_accept h l)
    (fun _ _ => ⟨_, id, blind_accept _ l⟩) word interest
  exact ⟨htwin, hvalue⟩

/-- behind confirming another connection -/
theorem rewatch_confirm (hs : h.Sound) (hd : h.device? d = some (.stream i .far)) (hw : (h.watch? d).isSome)
    (he : h.device? e = some (.stream j .far)) (hne : e ≠ d) (word : UInt64) (interest : Interest) :
    Twin ((h.confirm e).1.rewatch d word interest).1 ((h.rewatch d word interest).1.confirm e).1 ∧
      ((h.rewatch d word interest).1.confirm e).2 = (h.confirm e).2 := by
  have hstream : some j ≠ some i := fun heq => hne (hs.once ((Option.some.inj heq) ▸ he) hd)
  obtain ⟨htwin, hvalue, -⟩ := rewatch_later (fun g => g.confirm e) hd (hs.known_of_device? hd) hw
    (only_confirm he) hstream ((unmet_confirm he).change? d)
    (fun change homits => revised_confirm (homits e hne) he)
    (fun change _ => by
      obtain ⟨gone, hgone, hb⟩ := blind_confirm (h := h.revised d change) he
      exact ⟨gone, hgone d hne.symm, hb⟩) word interest
  exact ⟨htwin, hvalue⟩

/-- behind admitting another connection -/
theorem rewatch_enlist (hs : h.Sound) (hd : h.device? d = some (.stream i .far)) (hw : (h.watch? d).isSome)
    (he : h.device? e = some (.stream j .far)) (hne : e ≠ d) (word : UInt64) (interest : Interest) :
    Twin ((h.enlist key e).1.rewatch d word interest).1 ((h.rewatch d word interest).1.enlist key e).1 ∧
      ((h.rewatch d word interest).1.enlist key e).2 = (h.enlist key e).2 := by
  have hstream : some j ≠ some i := fun heq => hne (hs.once ((Option.some.inj heq) ▸ he) hd)
  obtain ⟨htwin, hvalue, -⟩ := rewatch_later (fun g => g.enlist key e) hd (hs.known_of_device? hd) hw
    (only_enlist he key) hstream ((unmet_enlist he key).change? d)
    (fun change homits => revised_enlist (homits e hne) he key)
    (fun change _ => by
      obtain ⟨gone, hgone, hb⟩ := blind_enlist (h := h.revised d change) he key
      exact ⟨gone, hgone d hne.symm, hb⟩) word interest
  exact ⟨htwin, hvalue⟩

/-- a change for another descriptor is met as it would have been -/
theorem change?_rewatch (hne : e ≠ d) (h : Host) (word : UInt64) (interest : Interest) :
    (h.rewatch d word interest).1.refusals.change? e = h.refusals.change? e := by
  rw [Refusals.change?, (h.met_rewatch d word interest).2]
  exact Refusals.change?_changed hne _

/-- behind changing another watch -/
theorem rewatch_rewatch (hs : h.Sound) (hd : h.device? d = some (.stream i .far)) (hw : (h.watch? d).isSome)
    (he : h.device? e = some (.stream j .far)) (hw' : (h.watch? e).isSome) (hne : e ≠ d) (word word' : UInt64)
    (interest interest' : Interest) :
    Twin ((h.rewatch e word' interest').1.rewatch d word interest).1
      ((h.rewatch d word interest).1.rewatch e word' interest').1 := by
  have hstream : some j ≠ some i := fun heq => hne (hs.once ((Option.some.inj heq) ▸ he) hd)
  have hwatchable : h.watchable e = .ok () := by rw [watchable, he]
  exact (rewatch_later (fun g => g.rewatch e word' interest') hd (hs.known_of_device? hd) hw
    (only_rewatch he word' interest') hstream (change?_rewatch hne.symm ..)
    (fun change homits => revised_rewatch (homits e hne) hne hwatchable hw' word' interest')
    (fun change homits => ⟨_, id, blind_rewatch (h := h.revised d change) hwatchable
      ((h.revised_watch? (homits e hne).kept e).trans hw') word' interest'⟩)
    word interest).1

end Host

end EventServer
