/-
A wait, as the clients of a server see it, and a run of the loop until a wait would not end.

A wait looks at what is queued; of a connection it finds nothing new, or it reports what there is, once, or it does not
come to it (`Host.harvest_cases`). So it is a passage as well (`Scene.passes_waited`), and a run of the loop is a chain
of passages. When it ends because the wait would not, nothing is queued and no slot is to run, and every view has come
to its end (`Server.view_settles`).
-/
import EventServer.Proofs.Passage

namespace EventServer

variable {X : Type} {fixed : List Watch} {arms : Bool} {protocol : Http.Protocol X}

namespace Host

variable {h : Host} {d : Descriptor}

/-- what a wait looks at again or did not come to was queued, and no more often than before -/
theorem sublist_harvest (h : Host) (capacity : Nat) (queue : List Descriptor) :
    ((h.harvest capacity queue).again ++ (h.harvest capacity queue).left).Sublist queue ∧
      ((h.harvest capacity queue).reports.map (·.1.descriptor)).Sublist queue := by
  induction queue generalizing capacity with
  | nil => unfold harvest; exact ⟨.slnil, .slnil⟩
  | cons x rest ih =>
    cases capacity with
    | zero => unfold harvest; exact ⟨.refl _, List.nil_sublist _⟩
    | succ capacity =>
      unfold harvest
      cases hw : h.watch? x with
      | none => exact ⟨(ih _).1.cons x, (ih _).2.cons x⟩
      | some v =>
        obtain ⟨-, rfl⟩ := mem_watches hw
        dsimp only
        split
        · exact ⟨(ih _).1.cons _, (ih _).2.cons _⟩
        · refine ⟨?_, (ih capacity).2.cons_cons _⟩
          dsimp only
          split
          · exact (ih capacity).1.cons _
          · exact (ih capacity).1.cons_cons _

/-- what was not queued is not reported -/
theorem reports_of_not_mem (capacity : Nat) {queue : List Descriptor} (hd : d ∉ queue) :
    (h.harvest capacity queue).reports.filter (·.1.descriptor == d) = [] :=
  List.filter_eq_nil_iff.2 fun _ hm he =>
    hd (beq_iff_eq.1 he ▸ (h.sublist_harvest capacity queue).2.subset (List.mem_map_of_mem hm))

/-- what becomes of a queued descriptor in a wait: it is not come to, or there is nothing to be seen, or it is reported
once and looked at again unless it is watched for edges -/
theorem harvest_cases {w : Watch} (hw : h.watch? d = some w) (capacity : Nat) {queue : List Descriptor}
    (hn : queue.Nodup) (hd : d ∈ queue) :
    let found := h.harvest capacity queue
    let seen := visible w.interest (h.conditions d)
    let reports := found.reports.filter (·.1.descriptor == d)
    d ∈ found.left ++ found.again ∧ reports = [] ∨
      seen.none = true ∧ d ∉ found.left ++ found.again ∧ reports = [] ∨
      seen.none = false ∧ (d ∈ found.left ++ found.again ↔ w.interest.edge = false) ∧ reports = [(w, seen)] := by
  induction queue generalizing capacity with
  | nil => cases hd
  | cons x rest ih =>
    obtain ⟨hx, hrest⟩ := List.nodup_cons.1 hn
    cases capacity with
    | zero => exact .inl ⟨List.mem_append_left _ hd, rfl⟩
    | succ capacity =>
      by_cases he : x = d
      · subst he
        have habsent : ∀ n, x ∉ (h.harvest n rest).left ++ (h.harvest n rest).again := fun n hm =>
          hx ((h.sublist_harvest n rest).1.subset (List.mem_append.2 (List.mem_append.1 hm).symm))
        unfold harvest
        simp only [hw]
        by_cases hv : (visible w.interest (h.conditions x)).none = true
        · simp only [hv, if_true]
          exact .inr (.inl ⟨trivial, habsent _, reports_of_not_mem _ hx⟩)
        · simp only [Bool.not_eq_true] at hv
          have hnone := reports_of_not_mem (h := h) capacity hx
          have habsent := habsent capacity
          simp only [List.mem_append, not_or] at habsent
          obtain ⟨-, hself⟩ := mem_watches hw
          refine .inr (.inr ?_)
          simp only [hv, Bool.false_eq_true, if_false, List.filter_cons, hself, beq_self_eq_true, if_true, hnone]
          cases w.interest.edge <;> simp [habsent]
      · have hd : d ∈ rest := (List.mem_cons.1 hd).resolve_left (Ne.symm he)
        unfold harvest
        cases hv : h.watch? x with
        | none => exact ih _ hrest hd
        | some v =>
          obtain ⟨-, hself⟩ := mem_watches hv
          dsimp only
          split
          · exact ih _ hrest hd
          · have hother := ih capacity hrest hd
            have hne : (v.descriptor == d) = false := by simpa [hself] using he
            simp only [List.filter_cons, hne, Bool.false_eq_true, if_false]
            split
            · exact hother
            · simpa [List.mem_append, Ne.symm he] using hother

/-- a wait that finds nothing leaves nothing to look at -/
theorem harvest_quiet {capacity : Nat} (hc : 0 < capacity) {queue : List Descriptor}
    (hr : (h.harvest capacity queue).reports = []) :
    (h.harvest capacity queue).left ++ (h.harvest capacity queue).again = [] := by
  induction queue with
  | nil => unfold harvest; rfl
  | cons x rest ih =>
    obtain ⟨capacity, rfl⟩ : ∃ n, capacity = n + 1 := ⟨capacity - 1, by omega⟩
    unfold harvest at hr ⊢
    cases hw : h.watch? x with
    | none => exact ih (by simpa [hw] using hr)
    | some v =>
      rw [hw] at hr
      dsimp only at hr ⊢
      split at hr
      · next hnone =>
        rw [if_pos hnone]
        exact ih hr
      · cases hr

end Host

namespace Scene

variable {a : Scene X} {i : Nat} {near : Descriptor} {v : View X}

/-- the scene once a wait is over -/
def waited (a : Scene X) (events : Events) : Scene X where
  batch := ((a.connections.notifier.wait events).value.map Events.toList).getD []
  tasks := a.tasks
  connections := { a.connections with notifier := (a.connections.notifier.wait events).state }

/-- what a wait finds in a scene where nobody acts meanwhile -/
def found (a : Scene X) (events : Events) : Host.Harvest := a.host.harvest events.capacity a.host.queue

/-- the host once a wait is over -/
def lulled (a : Scene X) (events : Events) (interruptions : Nat) : Host :=
  { a.host with queue := (a.found events).left ++ (a.found events).again, interruptions }

theorem found_eq (hothers : a.host.others = []) (events : Events) :
    a.connections.notifier.found events.capacity = a.found events := by
  rw [Notifier.found, show a.connections.notifier.host.elapse = a.host from Host.elapse_eq hothers, found]

/-- a wait changes the queue, and may use an interruption up -/
theorem waited_eq (hothers : a.host.others = []) (events : Events) : ∃ interruptions, a.waited events =
    { batch := Notifier.told (a.found events).reports
      tasks := a.tasks
      connections := a.connections.onHost fun _ => a.lulled events interruptions } := by
  obtain ⟨⟨interruptions, hstate⟩, -⟩ := a.connections.notifier.wait_spec events
  rw [found_eq hothers, show a.connections.notifier.host.elapse = a.host from Host.elapse_eq hothers] at hstate
  refine ⟨interruptions, ?_⟩
  unfold waited
  rw [hstate, a.connections.notifier.wait_told events, found_eq hothers]
  rfl

theorem settled_waited (hs : a.Settled fixed arms) (hbatch : a.batch = []) (hq : a.tasks.queue = [])
    (hfixed : ∀ w ∈ fixed, ∀ key, Token.ofWord w.word ≠ .connection key) (events : Events) :
    (a.waited events).Settled fixed arms := by
  obtain ⟨past, hturning⟩ := hs.turning
  rw [hbatch] at hturning
  obtain ⟨htable, -⟩ := Connections.sound_wait hturning.table events
  obtain ⟨hsub, -⟩ := a.host.sublist_harvest events.capacity a.host.queue
  have hperm : ((a.found events).left ++ (a.found events).again).Perm
    ((a.found events).again ++ (a.found events).left) := List.perm_append_comm
  have hwaited : ∃ past, Turning fixed False (a.waited events).batch (a.waited events).tasks
      (a.waited events).connections [] past :=
    ⟨_, htable, False.elim, hturning.handles, hturning.law.wait hq, hturning.paired, hturning.placed⟩
  obtain ⟨interruptions, he⟩ := waited_eq hs.unhindered.others events
  rw [he] at hwaited ⊢
  refine ⟨hwaited, hs.owned, fun r hm {key} htoken => ?_, ⟨hs.unhindered.others, hs.unhindered.accept,
    hs.unhindered.unblock, hs.unhindered.watch, hs.unhindered.rewatch, fun d hd => ?_, ?_⟩, hs.counted, hs.arms⟩
  · obtain ⟨report, hreport, rfl⟩ := List.mem_map.1 hm
    have hwatched := (Host.mem_harvest hreport).1
    obtain ⟨conn, hg, -⟩ := hs.sound.of_word hwatched htoken fun hf => hfixed _ hf key htoken
    have hsome : (a.connections.get? key).isSome := by simp [hg]
    exact hsome
  · exact hs.unhindered.queued d (hsub.subset (hperm.mem_iff.1 hd))
  · exact hperm.nodup_iff.2 (hs.unhindered.once.sublist hsub)

/-- the reports on a connection are those on its descriptor -/
theorem reportsOn_told (hs : a.Settled fixed arms)
    (hfixed : ∀ w ∈ fixed, ∀ key, Token.ofWord w.word ≠ .connection key) {key : Nat} {conn : Connection Handle}
    (hg : a.connections.get? key = some conn) (events : Events) :
    reportsOn key (Notifier.told (a.found events).reports) =
      Notifier.told ((a.found events).reports.filter (·.1.descriptor == conn.descriptor)) := by
  rw [reportsOn, Notifier.told, List.filter_map, Notifier.told]
  refine congrArg _ (List.filter_congr fun report hreport => ?_)
  have hwatched := (Host.mem_harvest hreport).1
  refine Bool.eq_iff_iff.2 ⟨fun htoken => ?_, fun hd => ?_⟩
  · have htoken : Token.ofWord report.1.word = .connection key := beq_iff_eq.1 htoken
    obtain ⟨conn', hg', hw⟩ := hs.sound.of_word hwatched htoken fun hf => hfixed _ hf key htoken
    rw [hg] at hg'
    cases hg'
    exact beq_iff_eq.2 (congrArg Watch.descriptor hw)
  · have hw := hs.sound.host.watch?_eq hwatched
    rw [beq_iff_eq.1 hd, hs.sound.watch?_eq hg] at hw
    have htoken := hs.sound.ofWord hg
    rw [Option.some.inj hw] at htoken
    exact beq_iff_eq.2 htoken

/-- what is seen of a connection is what its berth shows, and it is reported so -/
theorem Has.seen {m : Mooring} {b : Berth} {x : X} {told : Option Conditions} {ready : Bool}
    (hhas : a.Has m b x told ready) (hs : a.Settled fixed arms) :
    Host.visible ((m.record b).watch m.key).interest (a.host.conditions m.far) = b.shows ∧
      Readiness.ofReport ((m.record b).watch m.key).word b.shows = b.shows.report m.key := by
  refine ⟨?_, ?_⟩
  · rw [Host.conditions_far hhas.holds.host.far, hhas.holds.host.stream]
    rfl
  · have htoken : Token.ofWord ((m.record b).watch m.key).word = .connection m.key := hs.sound.ofWord hhas.holds.conn
    rw [Readiness.ofReport, htoken]
    rfl

/-- a connection of which nothing is told and whose task is not to run, once a wait is over: its view is as it was, or
it was looked at -/
theorem has_waited (hs : a.Settled fixed arms) (hfixed : ∀ w ∈ fixed, ∀ key, Token.ofWord w.word ≠ .connection key)
    {m : Mooring} {b : Berth} {x : X} (hhas : a.Has m b x none false) (events : Events) :
    (a.waited events).Has m b x none false ∨
      b.queued = true ∧ (a.waited events).Has m { b with queued := false } x
        (if b.shows.none then none else some b.shows) false := by
  have hreports := reportsOn_told hs hfixed hhas.holds.conn events
  obtain ⟨hsub, -⟩ := a.host.sublist_harvest events.capacity a.host.queue
  have hwatch : a.host.watch? m.far = some ((m.record b).watch m.key) := hs.sound.watch?_eq hhas.holds.conn
  obtain ⟨hseen, hreport⟩ := hhas.seen hs
  obtain ⟨interruptions, he⟩ := waited_eq hs.unhindered.others events
  have hhas' : ∀ {b' : Berth} {told : Option Conditions}, b'.stream = b.stream → m.record b' = m.record b →
      b'.interest = b.interest → (m.far ∈ (a.found events).left ++ (a.found events).again ↔ b'.queued) →
      Notifier.told ((a.found events).reports.filter (·.1.descriptor == m.far)) = told.toList.map (·.report m.key) →
      (a.waited events).Has m b' x told false := fun hstream hrecord hinterest hqueued htold => by
    rw [he]
    exact ⟨⟨hhas.holds.conn.trans (congrArg some hrecord.symm), hhas.holds.host.near, hhas.holds.host.far,
      hhas.holds.host.stream.trans (congrArg some hstream.symm), hinterest ▸ hhas.holds.host.watch, hqueued⟩,
      hhas.works, hreports.trans htold⟩
  by_cases hq : m.far ∈ a.host.queue
  · have hqueued := hhas.holds.host.queued.1 hq
    have hcases := Host.harvest_cases hwatch events.capacity hs.unhindered.once hq
    rw [hseen] at hcases
    rcases hcases with ⟨hmem, hnone⟩ | ⟨hempty, hmem, hnone⟩ | ⟨hshown, hmem, hone⟩
    · exact .inl (hhas' rfl rfl rfl ⟨fun _ => hqueued, fun _ => hmem⟩ (congrArg Notifier.told hnone))
    · refine .inr ⟨hqueued, hhas' rfl rfl rfl ⟨fun h => absurd h hmem, fun h => by cases h⟩ ?_⟩
      rw [if_pos hempty]
      exact congrArg Notifier.told hnone
    · have hedge : ((m.record b).watch m.key).interest.edge = true := by
        simp only [Connection.watch, Connection.interest]
        split <;> rfl
      refine .inr ⟨hqueued, hhas' rfl rfl rfl ⟨fun h => ?_, fun h => by cases h⟩ ?_⟩
      · have hlevel := hmem.1 h
        rw [hedge] at hlevel
        cases hlevel
      · rw [if_neg (by simp [hshown])]
        exact (congrArg Notifier.told hone).trans (congrArg (fun r => [r]) hreport)
  · have hnone := Host.reports_of_not_mem (h := a.host) events.capacity hq
    refine .inl (hhas' rfl rfl rfl ⟨fun h => absurd ?_ hq, fun h => absurd (hhas.holds.host.queued.2 h) hq⟩
      (congrArg Notifier.told hnone))
    exact hsub.subset (List.mem_append.2 (List.mem_append.1 h).symm)

/-- a connection that waits is still to be looked at once a wait is over -/
theorem mem_queue_waited (hs : a.Settled fixed arms) {l : Descriptor} {word : UInt64} (hwaits : a.host.Waits i l)
    (hw : a.host.watch? l = some ⟨l, word, .reading⟩) (hq : l ∈ a.host.queue) (events : Events) :
    l ∈ (a.found events).left ++ (a.found events).again := by
  obtain ⟨backlog, hl, arrival, hm, -⟩ := hwaits
  have hsome : backlog.isEmpty = false := by
    cases backlog with
    | nil => cases hm
    | cons _ _ => rfl
  have hseen : (Host.visible .reading (a.host.conditions l)).none = false := by
    simp [Host.conditions, hl, hsome, Host.visible, Interest.reading, Conditions.none]
  rcases Host.harvest_cases hw events.capacity hs.unhindered.once hq with
    ⟨hmem, -⟩ | ⟨hempty, -, -⟩ | ⟨-, hmem, -⟩
  · exact hmem
  · rw [hseen] at hempty
    cases hempty
  · exact hmem.2 rfl

/-- between two batches nothing is told of a connection, and no task is to run at a wait -/
theorem Has.at_wait {m : Mooring} {b : Berth} {x : X} {told : Option Conditions} {ready : Bool}
    (hhas : a.Has m b x told ready) (hbatch : a.batch = []) (hq : a.tasks.queue = []) :
    told = none ∧ ready = false := by
  have htold := hhas.told
  have hcount := hhas.works.queued
  rw [hbatch] at htold
  rw [hq] at hcount
  refine ⟨?_, ?_⟩
  · cases told with
    | none => rfl
    | some shown => cases htold
  · cases ready with
    | false => rfl
    | true => cases hcount

/-- where nothing is left to do a view has come to its end -/
theorem Mirrors.at_rest (hm : a.Mirrors i near v) (hbatch : a.batch = []) (hq : a.tasks.queue = [])
    (hqueue : a.host.queue = []) : v.next protocol arms = none := by
  cases v with
  | waiting stream =>
    obtain ⟨-, l, -, -, -, hqueued⟩ := hm.places
    rw [hqueue] at hqueued
    cases hqueued
  | gone stream => rfl
  | served b x told ready =>
    obtain ⟨m, rfl, rfl, hhas⟩ := hm.places
    obtain ⟨rfl, rfl⟩ := hhas.at_wait hbatch hq
    have hqueued : b.queued = false := by
      have h := hhas.holds.host.queued
      rw [hqueue] at h
      simpa using h
    simp [View.next, hqueued]

/-- a wait is felt by a client as a look at its connection, or not at all -/
theorem passes_waited (hbatch : a.batch = []) (hq : a.tasks.queue = [])
    (hfixed : ∀ w ∈ fixed, ∀ key, Token.ofWord w.word ≠ .connection key) (events : Events) :
    Passes protocol arms (Settled fixed arms) a (a.waited events) := by
  refine .of_inv fun hs => ?_
  obtain ⟨interruptions, he⟩ := waited_eq hs.unhindered.others events
  refine ⟨fun _ => ?_, fun _ => settled_waited hs hbatch hq hfixed events, fun _ _ {i near v} hm => ?_⟩
  · rw [he]
    exact Nat.le_refl _
  cases v with
  | waiting stream =>
    obtain ⟨hfar, l, word, hwaits, hwatch, hqueued⟩ := hm.places
    have hstill := mem_queue_waited hs hwaits hwatch hqueued events
    refine ⟨_, .refl, ?_⟩
    rw [he]
    exact ⟨hm.client, hm.stream, hfar, l, word, hwaits, hwatch, hstill⟩
  | gone stream =>
    refine ⟨_, .refl, ?_⟩
    rw [he]
    have hgone : a.host.Gone i := hm.places
    exact ⟨hm.client, hm.stream, ⟨hgone.far, hgone.waits⟩⟩
  | served b x told ready =>
    obtain ⟨m, rfl, rfl, hhas⟩ := hm.places
    obtain ⟨rfl, rfl⟩ := hhas.at_wait hbatch hq
    rcases has_waited hs hfixed hhas events with hhas' | ⟨hqueued, hhas'⟩
    · exact ⟨_, .refl, hhas'.mirrors⟩
    · exact ⟨_, .one (by simp [View.next, hqueued]), hhas'.mirrors⟩

/-- a batch is begun when no slot is to run -/
theorem Passes.settled {a' : Scene X}
    (h : Passes protocol arms (Dispatching fixed arms) a a') (hq : a.tasks.queue = []) :
    Passes protocol arms (Settled fixed arms) a a' := by
  have hd : a.Settled fixed arms → a.Dispatching fixed arms := fun hs => ⟨hs, fun slot hm => by
    rw [hq] at hm
    cases hm⟩
  exact ⟨h.length ∘ hd, fun hs => (h.keeps (hd hs)).settled, h.follows ∘ hd⟩

end Scene

namespace Server

open Scene

variable {s : Server X}

/-- a server that is about to wait: its parts are settled, and no slot is to run -/
structure Poised (protocol : Http.Protocol X) (fixed : List Watch) (arms : Bool) (s : Server X) : Prop where
  settled : (s.scene []).Settled fixed arms
  idle : s.engine.tasks.queue = []
  own : s.standing = fixed
  follows : s.engine.protocol = protocol
  roomy : 0 < s.events.capacity

theorem Poised.standing (hp : s.Poised protocol fixed arms) :
    ∀ w ∈ fixed, ∀ key, Token.ofWord w.word ≠ .connection key := by
  intro w hw key
  rw [← hp.own] at hw
  rcases List.mem_cons.1 hw with rfl | hw
  · simp [Token.ofWord]
  · rw [List.mem_singleton.1 hw]
    simp [Token.ofWord]

theorem alike_await (s : Server X) : Alike s s.await.state := by
  refine ⟨rfl, rfl, ?_⟩
  unfold await Notifier.wait
  dsimp only
  split <;> rfl

/-- the scene in which the reports of a wait are dealt with -/
theorem await_scene (s : Server X) : s.await.state.scene ((s.await.value.map Events.toList).getD []) =
    (s.scene []).waited s.events := rfl

/-- a turn of the loop that ends in no halt -/
theorem passes_take (hp : s.Poised protocol fixed arms) (hhalt : s.take.halt = none) :
    Passes protocol arms (Settled fixed arms) (s.scene []) (s.take.server.scene []) ∧ Alike s s.take.server := by
  have hwaited : Passes protocol arms (Settled fixed arms) (s.scene []) ((s.scene []).waited s.events) :=
    passes_waited rfl hp.idle hp.standing s.events
  have halike := s.alike_await
  rw [← await_scene] at hwaited
  unfold take at hhalt ⊢
  cases hv : s.await.value with
  | none => simp [hv] at hhalt
  | some events =>
    simp only [hv, Option.map_eq_none_iff] at hhalt ⊢
    rw [hv] at hwaited
    have hdispatch : Passes protocol arms (Dispatching fixed arms) (s.await.state.scene events.toList) _ :=
      passes_dispatch events.toList (halike.protocol.trans hp.follows) hhalt
    exact ⟨hwaited.trans (hdispatch.settled hp.idle), halike.trans (alike_dispatch ..)⟩

/-- a turn of the loop whose wait does not end leaves nothing to look at -/
theorem passes_blocked (hp : s.Poised protocol fixed arms) (hhalt : s.take.halt = some .blocked) :
    Passes protocol arms (Settled fixed arms) (s.scene []) (s.take.server.scene []) ∧ Alike s s.take.server ∧
      s.take.server.engine.tasks.queue = [] ∧ s.take.server.host.queue = [] := by
  have hwaited : Passes protocol arms (Settled fixed arms) (s.scene []) ((s.scene []).waited s.events) :=
    passes_waited rfl hp.idle hp.standing s.events
  rw [← await_scene] at hwaited
  cases hv : s.await.value with
  | some events => cases hstop : (s.await.state.dispatch events.toList).2 <;> simp [take, hv, hstop] at hhalt
  | none =>
    have htake : s.take.server = s.await.state := by simp [take, hv]
    rw [hv] at hwaited
    rw [htake]
    refine ⟨hwaited, s.alike_await, hp.idle, ?_⟩
    obtain ⟨interruptions, he⟩ := waited_eq hp.settled.unhindered.others s.events
    have hfound : s.connections.notifier.found s.events.capacity = (s.scene []).found s.events :=
      found_eq hp.settled.unhindered.others s.events
    have hnone : ((s.scene []).found s.events).reports = [] := by
      rcases (s.connections.notifier.wait_spec s.events).2 with ⟨-, hr⟩ | ⟨filled, hsome, -⟩
      · rw [← hfound, hr]
      · have hcontra := hv.symm.trans hsome
        cases hcontra
    have hqueue : s.await.state.host = ((s.scene []).waited s.events).host := rfl
    rw [hqueue, he]
    exact Host.harvest_quiet hp.roomy hnone

/-- the server has been pumped and is about to wait again -/
theorem Poised.prepared (hp : (s.scene []).Settled fixed arms) (hlocal : protocol.Local)
    (hown : s.standing = fixed) (hfollows : s.engine.protocol = protocol) (hroomy : 0 < s.events.capacity) {limit : Nat}
    {w : Worked X} (hw : s.prepare limit = some w) :
    Passes protocol arms (Settled fixed arms) (s.scene []) (w.server.scene []) ∧
      w.server.Poised protocol fixed arms := by
  obtain ⟨hpasses, halike⟩ : Passes protocol arms (Settled fixed arms) (s.scene []) (w.server.scene []) ∧
      Alike s w.server := passes_prepare hlocal hfollows hw
  obtain ⟨past, hturning⟩ := hp.turning
  have hupholds : s.Upholds fixed False [] past := ⟨hturning, hown⟩
  exact ⟨hpasses, hpasses.keeps hp, (upholds_prepare hupholds hw).2, halike.standing.trans hown,
    halike.protocol.trans hfollows, halike.capacity ▸ hroomy⟩

/-- a run of the loop until a wait would not end -/
theorem passes_run (hlocal : protocol.Local) (limit : Nat) (hp : s.Poised protocol fixed arms)
    (hhalt : (s.run limit).halt = some .blocked) :
    Passes protocol arms (Settled fixed arms) (s.scene []) ((s.run limit).server.scene []) ∧
      (s.run limit).server.Poised protocol fixed arms ∧ (s.run limit).server.host.queue = [] := by
  induction limit generalizing s with
  | zero => cases hhalt
  | succ limit ih =>
    unfold run at hhalt ⊢
    dsimp only at hhalt ⊢
    cases htake : s.take.halt with
    | some halt =>
      simp only [htake, Option.some.injEq] at hhalt ⊢
      subst hhalt
      obtain ⟨hpasses, halike, hidle, hqueue⟩ := passes_blocked hp htake
      exact ⟨hpasses, ⟨hpasses.keeps hp.settled, hidle, halike.standing.trans hp.own,
        halike.protocol.trans hp.follows, halike.capacity ▸ hp.roomy⟩, hqueue⟩
    | none =>
      simp only [htake] at hhalt ⊢
      obtain ⟨hpasses, halike⟩ := passes_take hp htake
      cases hw : s.take.server.prepare s.take.server.patience with
      | none => simp [hw] at hhalt
      | some ready =>
        simp only [hw] at hhalt ⊢
        obtain ⟨hprepared, hready⟩ := Poised.prepared (hpasses.keeps hp.settled) hlocal
          (halike.standing.trans hp.own) (halike.protocol.trans hp.follows) (halike.capacity ▸ hp.roomy) hw
        obtain ⟨hrest, hpoised, hqueue⟩ := ih hready hhalt
        exact ⟨(hpasses.trans hprepared).trans hrest, hpoised, hqueue⟩

/-- once a wait would not end the view of every client has come to the end that it leads to -/
theorem view_settles (hlocal : protocol.Local) {limit : Nat} (hp : s.Poised protocol fixed arms)
    (hhalt : (s.run limit).halt = some .blocked) (hfits : ((s.run limit).server.scene []).Fits) {i : Nat}
    {near : Descriptor} {v : View X} (hm : (s.scene []).Mirrors i near v) :
    ∃ v', v.Settles protocol arms v' ∧ ((s.run limit).server.scene []).Mirrors i near v' := by
  obtain ⟨hpasses, hpoised, hqueue⟩ := passes_run hlocal limit hp hhalt
  obtain ⟨v', hleads, hm'⟩ := hpasses.follows hp.settled hfits hm
  exact ⟨v', ⟨hleads, hm'.at_rest rfl hpoised.idle hqueue⟩, hm'⟩

end Server

end EventServer
