/-
Fairness: a task that is to run is not starved by busy ones.

Slots are taken from the head of the queue and put in at its end, so before a slot that is in the queue comes at most
what is in the queue already. `Session.Onward` are the ways in which a session goes on from a state, step by step; the
sessions are the ways on from the start (`session_iff_onward`).

`Ahead` is what of the queue comes before a task in flight. A step uses up of it what it runs, and adds nothing
(`Waits.step`); so as long as the task is not run, the tenants of a slot are run as often at most as the slot was ahead
(`Waits.onward`). How often a slot can be in the queue at all is told by the marks (`Session.count_queue_le`).
`none_starved` is the result.
-/
import EventServer.Proofs.Coalescence

namespace EventServer

open TaskEvent Tasks

variable {U F E ε : Type}

/-- how a session with this state and past can go on: the state that it gets into, and what happens until then -/
inductive Session.Onward (r : Runner E F ε) (x : Option (Tasks U F)) (past : List (TaskEvent U ε)) :
    Option (Tasks U F) → List (TaskEvent U ε) → Prop
  | refl : Onward r x past x []
  | step {y z later events} : Onward r x past y later → Session.Step r (past ++ later) y events z →
      Onward r x past z (later ++ events)

namespace TaskEvent

def ran? : TaskEvent U ε → Option Handle
  | ran h => some h
  | _ => none

/-- the runs of tasks, in order -/
def turns (past : List (TaskEvent U ε)) : List Handle := past.filterMap ran?

@[simp] theorem turns_append (past later : List (TaskEvent U ε)) : turns (past ++ later) = turns past ++ turns later :=
  List.filterMap_append

theorem turns_eq_nil {events : List (TaskEvent U ε)} (hn : ∀ h, .ran h ∉ events) : turns events = [] := by
  refine List.filterMap_eq_nil_iff.2 fun event hm => ?_
  cases event with
  | ran h => exact absurd hm (hn h)
  | _ => rfl

theorem turns_cons_ran {h : Handle} {events : List (TaskEvent U ε)} (hn : turns events = []) :
    turns (.ran h :: events) = [h] :=
  congrArg (h :: ·) hn

end TaskEvent

theorem visits_turns_mono {earlier events : List (TaskEvent U ε)} (hp : earlier <+: events) (slot : Nat) :
    visits (turns earlier) slot ≤ visits (turns events) slot := by
  obtain ⟨rest, rfl⟩ := hp
  rw [turns_append, visits_append]
  exact Nat.le_add_right ..

/-- where two lists in a row are cut off -/
theorem prefix_append_cases {α : Type} {before later events : List α} (hb : before <+: later ++ events) :
    before <+: later ∨ ∃ part, before = later ++ part ∧ part <+: events := by
  rcases List.prefix_or_prefix_of_prefix hb (List.prefix_append later events) with hb | ⟨part, rfl⟩
  · exact .inl hb
  · exact .inr ⟨part, rfl, (List.prefix_append_right_inj later).1 hb⟩

/-! ## Going on -/

section Onward

variable {r : Runner E F ε} {x y : Option (Tasks U F)} {past events later : List (TaskEvent U ε)}

theorem Session.onward (hs : Session r x past) (ho : Session.Onward r x past y later) :
    Session r y (past ++ later) := by
  induction ho with
  | refl => simpa using hs
  | step _ hstep ih =>
    rw [← List.append_assoc]
    exact ih.step hstep

/-- a session is a way on from the start, and every way on from the start is a session -/
theorem session_iff_onward : Session r x past ↔ Session.Onward r (some .empty) [] x past := by
  refine ⟨fun hs => ?_, fun ho => by simpa using Session.start.onward ho⟩
  induction hs with
  | start => exact .refl
  | step _ hstep ih => exact ih.step hstep

end Onward

/-! ## What is ahead of a task -/

variable {r : Runner E F ε} {x y : Option (Tasks U F)} {t t' : Tasks U F} {h : Handle} {ahead : List Nat}
  {past events later : List (TaskEvent U ε)}

/-- the task of the handle is in flight, and these are the slots that are to run before its own -/
structure Ahead (t : Tasks U F) (h : Handle) (ahead : List Nat) : Prop where
  lives : ∃ userdata, Lives (some t) h userdata
  split : ∃ behind, t.queue = ahead ++ h.slot :: behind
  first : h.slot ∉ ahead

theorem exists_ahead {userdata : Option U} (hl : Lives (some t) h userdata) (hq : h.slot ∈ t.queue) :
    ∃ ahead, Ahead t h ahead := by
  obtain ⟨ahead, behind, hsplit, hfirst⟩ := List.eq_append_cons_of_mem hq
  exact ⟨ahead, ⟨userdata, hl⟩, ⟨behind, hsplit⟩, hfirst⟩

theorem Ahead.count_le (ha : Ahead t h ahead) (slot : Nat) : ahead.count slot ≤ t.queue.count slot := by
  obtain ⟨behind, hsplit⟩ := ha.split
  rw [hsplit, List.count_append]
  exact Nat.le_add_right ..

/-- waking adds to the end of the queue -/
theorem Tasks.prefix_wake (t : Tasks U F) (h : Handle) : t.queue <+: (t.wake h).queue := by
  unfold Tasks.wake
  split
  · exact List.prefix_rfl
  · exact List.prefix_append ..

theorem Tasks.prefix_wakes (t : Tasks U F) (hs : List Handle) : t.queue <+: (hs.foldl Tasks.wake t).queue := by
  induction hs generalizing t with
  | nil => exact List.prefix_rfl
  | cons h rest ih => exact (t.prefix_wake h).trans (ih _)

/-- a turn takes the head of the queue, and adds to its end -/
theorem Tasks.prefix_turn (t : Tasks U F) (r : Runner E F ε) (env : E) (slot : Nat) :
    t.queue.tail <+: (t.turn r env slot).tasks.queue := by
  rcases t.turn_queue r env slot with ⟨-, htasks, -⟩ | ⟨tenant, hs, -, -, -, -, hqueue, -⟩
  · exact htasks ▸ List.prefix_rfl
  · rw [hqueue]
    exact Tasks.prefix_wakes { t with queue := t.queue.tail, marked := t.marked.filter (· != tenant.serial) } hs

/-- what comes to the end of the queue is not ahead of who is in it -/
theorem Ahead.shorter (taken : List Nat) {rest : List Nat} (ha : Ahead t h (taken ++ ahead))
    (hq : t.queue = taken ++ rest) (hp : rest <+: t'.queue)
    (hl : ∀ userdata, Lives (some t) h userdata → Lives (some t') h userdata) : Ahead t' h ahead := by
  obtain ⟨userdata, hlives⟩ := ha.lives
  obtain ⟨behind, hsplit⟩ := ha.split
  obtain ⟨added, hadded⟩ := hp
  obtain rfl : rest = ahead ++ h.slot :: behind := by
    rw [hq, List.append_assoc] at hsplit
    exact List.append_cancel_left hsplit
  exact ⟨⟨userdata, hl userdata hlives⟩, ⟨behind ++ added, by simp [← hadded]⟩,
    fun hm => ha.first (List.mem_append_right _ hm)⟩

/-- a turn runs the task, or uses up the first slot ahead of it -/
theorem Ahead.turn {slot : Nat} (ha : Ahead t h ahead) (hl : t.Law (moments past)) (hq : t.queue.head? = some slot)
    (r : Runner E F ε) (env : E) :
    (∃ rest, t.turnEvents r env slot = .ran h :: rest) ∨
      ∃ left, Ahead (t.turn r env slot).tasks h left ∧
        ∀ other, visits (turns (t.turnEvents r env slot)) other + left.count other ≤ ahead.count other := by
  obtain ⟨userdata, hlives⟩ := ha.lives
  obtain ⟨behind, hsplit⟩ := ha.split
  have htail : t.queue = [slot] ++ t.queue.tail := List.eq_cons_of_mem_head? hq
  have hprefix := t.prefix_turn r env slot
  have hevents := hl.turnEvents_cases r env slot
  cases ahead with
  | nil =>
    -- the slot is its own, and it lives there
    left
    obtain rfl : h.slot = slot := by simpa [hsplit] using hq
    obtain ⟨tenant, ht, hserial, -⟩ := lives_some.1 hlives
    have hself : (⟨h.slot, tenant.serial⟩ : Handle) = h := by rw [hserial]
    rcases hevents with ⟨hnone, -⟩ | ⟨tenant', hs, ht', ⟨-, he⟩ | ⟨outcome, -, he⟩⟩
    · rw [ht] at hnone
      cases hnone
    all_goals
      rw [ht] at ht'
      cases ht'
      rw [hself] at he
      exact ⟨_, he⟩
  | cons first left =>
    -- the slot is another's, so what becomes of its tenant is nothing to the task
    right
    obtain rfl : first = slot := by simpa [hsplit] using hq
    have hne : h.slot ≠ first := fun he => ha.first (by simp [he])
    have hsame : ∀ {tasks : Tasks U F}, t.queue.tail <+: tasks.queue →
        (∀ userdata, Lives (some t) h userdata → Lives (some tasks) h userdata) → Ahead tasks h left :=
      fun hp hstays => ha.shorter [first] htail hp hstays
    rcases hevents with ⟨-, hslots, he⟩ | ⟨tenant, hs, ht, ⟨⟨work, hslots⟩, he⟩ | ⟨outcome, hslots, he⟩⟩
    · refine ⟨left, hsame hprefix fun _ => (lives_of_slots hslots).2, fun other => ?_⟩
      simp [he, turns, List.count_cons]
    · refine ⟨left, hsame hprefix fun _ => (lives_of_set ht hslots).2, fun other => ?_⟩
      rw [he, turns_cons_ran (turns_eq_nil (by simp)), List.count_cons]
      simp [Nat.add_comm]
    · refine ⟨left, hsame hprefix fun _ hl => (lives_of_erase hslots).2 ⟨hl, hne⟩, fun other => ?_⟩
      rw [he, List.cons_append, turns_cons_ran (turns_eq_nil (by simp)), List.count_cons]
      simp [Nat.add_comm]

/-- the same of a session's state; once the tasks are dropped nobody waits -/
def Waits (x : Option (Tasks U F)) (h : Handle) (ahead : List Nat) : Prop := ∀ t, x = some t → Ahead t h ahead

theorem waits_none : Waits (none : Option (Tasks U F)) h ahead := fun _ ht => by cases ht

/-- a step runs the task, or uses up of what is ahead of it what it runs -/
theorem Waits.step (hw : Waits x h ahead) (hs : Session r x past) (hstep : Session.Step r past x events y) :
    (∃ rest, events = .ran h :: rest) ∨
      ∃ left, Waits y h left ∧ ∀ slot, visits (turns events) slot + left.count slot ≤ ahead.count slot := by
  have hquiet : (∀ h, .ran h ∉ events) → Waits y h ahead →
      ∃ left, Waits y h left ∧ ∀ slot, visits (turns events) slot + left.count slot ≤ ahead.count slot :=
    fun hn hw => ⟨ahead, hw, fun slot => by simp [turns_eq_nil hn]⟩
  cases hstep with
  | @push t work userdata =>
    obtain ⟨hl, -⟩ := hs.lawful rfl
    refine .inr (hquiet (by simp [releases]) ?_)
    rintro _ ⟨⟩
    exact (hw t rfl).shorter [] rfl (List.prefix_append ..) fun _ hlives =>
      (lives_push hl.tidy work userdata).2 (.inl hlives)
  | @wake x woken userdata _ =>
    refine .inr (hquiet (by simp) fun t' ht' => ?_)
    obtain ⟨t, rfl, rfl⟩ := Option.map_eq_some_iff.1 ht'
    exact (hw t rfl).shorter [] rfl (t.prefix_wake woken) fun _ => (lives_wake (some t) woken).2
  | @turn t slot env hq _ =>
    rcases (hw t rfl).turn (hs.lawful rfl).1 hq r env with hran | ⟨left, ha, hcount⟩
    · exact .inl hran
    · refine .inr ⟨left, ?_, hcount⟩
      rintro _ ⟨⟩
      exact ha
  | idle _ => exact .inr (hquiet (by simp) hw)
  | drop => exact .inr ⟨[], waits_none, fun slot => by simp [turns_eq_nil, releases]⟩

/-- until the task is run, the tenants of a slot are run as often at most as the slot was ahead of it -/
theorem Waits.onward (hw : Waits x h ahead) (hs : Session r x past) (ho : Session.Onward r x past y later) :
    (.ran h ∉ later →
      ∃ left, Waits y h left ∧ ∀ slot, visits (turns later) slot + left.count slot ≤ ahead.count slot) ∧
    ∀ before, before <+: later → .ran h ∉ before → ∀ slot, visits (turns before) slot ≤ ahead.count slot := by
  induction ho with
  | refl =>
    refine ⟨fun _ => ⟨ahead, hw, fun slot => by simp [turns]⟩, fun before hb _ slot => ?_⟩
    simp [List.prefix_nil.1 hb, turns]
  | @step y z later events hsofar hstep ih =>
    obtain ⟨hlater, hbefore⟩ := ih
    have hstep := fun left (hw : Waits y h left) => hw.step (hs.onward hsofar) hstep
    refine ⟨fun hn => ?_, fun before hb hn slot => ?_⟩
    · obtain ⟨middle, hw, hmiddle⟩ := hlater fun hm => hn (List.mem_append_left _ hm)
      rcases hstep middle hw with ⟨rest, rfl⟩ | ⟨left, hw, hleft⟩
      · exact absurd (by simp) hn
      · refine ⟨left, hw, fun slot => ?_⟩
        have := hmiddle slot
        have := hleft slot
        simp only [turns_append, visits_append]
        omega
    · rcases prefix_append_cases hb with hb | ⟨part, rfl, hpart⟩
      · exact hbefore before hb hn slot
      · obtain ⟨middle, hw, hmiddle⟩ := hlater fun hm => hn (List.mem_append_left _ hm)
        have := hmiddle slot
        rcases hstep middle hw with ⟨rest, rfl⟩ | ⟨left, -, hleft⟩
        · -- the run of the task would be the first event of the step
          obtain rfl : part = [] := by
            rcases List.prefix_cons_iff.1 hpart with rfl | ⟨_, rfl, -⟩
            · rfl
            · exact absurd (by simp) hn
          simp only [List.append_nil]
          omega
        · have := hleft slot
          have := visits_turns_mono hpart slot
          rw [turns_append, visits_append]
          omega

/-! ## How much is ahead -/

/-- a slot is queued once if its tenant is marked, and once more for each task that has ended in it -/
theorem Session.count_queue_le (hs : Session r (some t) past) (slot : Nat) :
    t.queue.count slot ≤ 1 + visits (ends past) slot := by
  obtain ⟨skipped, hf⟩ := hs.follows t rfl
  have htotal := hs.balanced.total slot
  have hentries := hf.entries slot
  have hmarks := hs.visits_lit_le slot
  rw [hf.marked] at htotal
  split at hmarks <;> omega

/-- **No task is starved by busy ones.** In every state of the tasks that a session leads to, and for every task in
flight whose slot is in the queue: however the session goes on, with pushes, polls and wakes by anyone, until the task
is run the tenants of any slot are run at most once, and once more for each task that had ended in the slot before. They
may ask to be run again in each of their runs, and may end and be replaced meanwhile. -/
theorem none_starved {userdata : Option U} (hs : Session r (some t) past) (hl : Lives (some t) h userdata)
    (hq : h.slot ∈ t.queue) (ho : Session.Onward r (some t) past y later) {before : List (TaskEvent U ε)}
    (hb : before <+: later) (hn : .ran h ∉ before) (slot : Nat) :
    visits (turns before) slot ≤ 1 + visits (ends past) slot := by
  obtain ⟨ahead, ha⟩ := exists_ahead hl hq
  have hw : Waits (some t) h ahead := by
    rintro _ ⟨⟩
    exact ha
  calc visits (turns before) slot ≤ ahead.count slot := (hw.onward hs ho).2 before hb hn slot
    _ ≤ t.queue.count slot := ha.count_le slot
    _ ≤ 1 + visits (ends past) slot := hs.count_queue_le slot

namespace Errands

def fifth : Tasks Nat (List (List Handle)) := ((fourth.push [] none).state.turn runner () 0).tasks

/-- two tenants of one slot are run and end while the task of the other slot waits, and then that one is run -/
def passed : List (TaskEvent Nat Unit) :=
  [.ran ⟨0, 2⟩, .ended ⟨0, 2⟩ (.ok ()), .released 2, .returned (some ⟨2, none, .ok ()⟩),
    .pushed ⟨0, 3⟩ none,
    .ran ⟨0, 3⟩, .ended ⟨0, 3⟩ (.ok ()), .released 3, .returned (some ⟨3, none, .ok ()⟩),
    .ran ⟨1, 1⟩, .ended ⟨1, 1⟩ (.ok ()), .released 1, .returned (some ⟨1, some 11, .ok ()⟩)]

/-- a turn that wakes nobody -/
theorem onward_quiet {x : Option (Tasks Nat (List (List Handle)))} {t : Tasks Nat (List (List Handle))}
    {past later : List (TaskEvent Nat Unit)} (slot : Nat) (ho : Session.Onward runner x past (some t) later)
    (hq : t.queue.head? = some slot) (hn : ∀ h, .woken h ∉ t.turnEvents runner () slot) :
    Session.Onward runner x past (some (t.turn runner () slot).tasks) (later ++ t.turnEvents runner () slot) :=
  ho.step (.turn () hq fun h hm => absurd hm (hn h))

theorem onward_passed : Session.Onward runner (some (third.turn runner () 1).tasks) (recycled.take 10)
    (some (fifth.turn runner () 1).tasks) passed := by
  have start : Session.Onward runner (some (third.turn runner () 1).tasks) (recycled.take 10)
      (some (third.turn runner () 1).tasks) [] := .refl
  have ended := onward_quiet 0 start rfl fun h hm => by
    have hm : TaskEvent.woken h ∈ passed.take 4 := hm
    simp [passed] at hm
  have replaced := ended.step (.push [] none)
  have endedAgain := onward_quiet 0 replaced rfl fun h hm => by
    have hm : TaskEvent.woken h ∈ (passed.drop 5).take 4 := hm
    simp [passed] at hm
  exact onward_quiet 1 endedAgain rfl fun h hm => by
    have hm : TaskEvent.woken h ∈ (passed.drop 9).take 4 := hm
    simp [passed] at hm

end Errands

/-- the bound is reached: one task had ended in the other slot, and two tenants of it are run before the task is -/
theorem none_starved_passed :
    let t := (Errands.third.turn Errands.runner () 1).tasks
    Session Errands.runner (some t) (Errands.recycled.take 10) ∧ t.queue = [0, 0, 1] ∧
      visits (turns (Errands.passed.take 9)) 0 = 2 ∧ visits (ends (Errands.recycled.take 10)) 0 = 1 ∧
      visits (turns (Errands.passed.take 9)) 0 ≤ 1 + visits (ends (Errands.recycled.take 10)) 0 := by
  intro t
  have hl : Lives (some t) ⟨1, 1⟩ (some 11) := lives_some.2 ⟨_, rfl, rfl, rfl⟩
  exact ⟨Errands.session_stale, rfl, rfl, rfl,
    none_starved Errands.session_stale hl (by decide) Errands.onward_passed (List.take_prefix 9 _)
      (by simp [Errands.passed]) 0⟩

end EventServer
