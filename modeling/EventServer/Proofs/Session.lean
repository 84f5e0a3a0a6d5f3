/-
Sessions with tasks: every way in which tasks may be pushed, woken, polled and at last dropped.

A session is told as a list of events, oldest first. What the tasks see of their own runs (`ran`, `woken`, `ended`) is
told by themselves: `Runner.noting` is a runner that does what another does and has its environment note each run. What
the owner sees (`pushed`, `woken`, `returned`, `dropped`) is what it called and what it got back. What is released is
the work that was kept before a call and is not kept after it.

A poll is a sequence of turns, each of which takes one slot from the queue; a session goes turn by turn
(`Session.Step`), so that it also tells of a poll that never returns. `Session.poll` is a poll as a whole. Handles may
be woken at any time, those of tasks that are long gone and after the drop too; the one thing that a session asks is
that a handle was given out.

`Tasks.turn_cases` says what a turn does, and `Session.lawful` that the schedule's invariant holds of every session.
-/
import EventServer.Proofs.Schedule
import Mathlib.Data.List.Nodup

namespace EventServer

/-- what happens in a session with tasks -/
inductive TaskEvent (U ε : Type) where
  | pushed (h : Handle) (userdata : Option U)
  | woken (h : Handle)
  | ran (h : Handle)
  /-- a run ended its task -/
  | ended (h : Handle) (outcome : Except ε Unit)
  /-- the work of a task is given up -/
  | released (serial : Nat)
  /-- a poll is over -/
  | returned (completed : Option (Completed U ε))
  | dropped

namespace TaskEvent

variable {U ε : Type}

/-- what the schedule knows of an event: a poll that found nothing more to run is what lets a server wait -/
def moment? : TaskEvent U ε → Option Moment
  | pushed h _ => some (.task (.pushed h))
  | woken h => some (.task (.woken h))
  | ran h => some (.task (.ran h))
  | ended h _ => some (.task (.ended h))
  | returned none => some .wait
  | _ => none

def moments (past : List (TaskEvent U ε)) : List Moment := past.filterMap moment?

@[simp] theorem moments_nil : moments ([] : List (TaskEvent U ε)) = [] := rfl

@[simp] theorem moments_cons (event : TaskEvent U ε) (later : List (TaskEvent U ε)) :
    moments (event :: later) = event.moment?.toList ++ moments later := by
  unfold moments
  cases h : event.moment? <;> simp [h]

@[simp] theorem moments_append (past later : List (TaskEvent U ε)) :
    moments (past ++ later) = moments past ++ moments later :=
  List.filterMap_append

@[simp] theorem moments_map_woken (hs : List Handle) :
    moments (hs.map (woken : Handle → TaskEvent U ε)) = hs.map fun h => .task (.woken h) := by
  induction hs with
  | nil => rfl
  | cons h rest ih => exact congrArg (_ :: ·) ih

@[simp] theorem moments_map_released (serials : List Nat) :
    moments (serials.map (released : Nat → TaskEvent U ε)) = [] := by
  induction serials with
  | nil => rfl
  | cons serial rest ih => exact ih

end TaskEvent

variable {U F E ε : Type}

/-- the same runner with an environment that notes what the tasks see of their runs -/
def Runner.noting (U : Type) (r : Runner E F ε) : Runner (E × List (TaskEvent U ε)) F ε where
  run self env work :=
    let progress := r.run self env.1 work
    { env := (progress.env,
        env.2 ++ .ran self :: progress.woken.map .woken ++ progress.outcome.toList.map (.ended self))
      work := progress.work
      woken := progress.woken
      outcome := progress.outcome }
  note env note := (r.note env.1 note, env.2)

namespace Tasks

/-- the serials of the tasks whose work is kept -/
def kept (t : Tasks U F) : List Nat := t.slots.toList.map (·.2.serial)

/-- the work that was kept before and is not kept after -/
def releases (before after : Option (Tasks U F)) : List (TaskEvent U ε) :=
  (((before.map kept).getD []).filter (· ∉ (after.map kept).getD [])).map .released

/-- takes one slot from the queue and runs it, as a poll does -/
def turn (r : Runner E F ε) (t : Tasks U F) (env : E) (slot : Nat) : Polled U F (E × List (TaskEvent U ε)) ε :=
  runSlot (r.noting U) { t with queue := t.queue.tail } (env, []) slot

/-- what happens in a turn: what the task notes, what is released, and what the poll returns if the task ended -/
def turnEvents (r : Runner E F ε) (t : Tasks U F) (env : E) (slot : Nat) : List (TaskEvent U ε) :=
  (t.turn r env slot).env.2 ++ releases (some t) (some (t.turn r env slot).tasks) ++
    (t.turn r env slot).completed.toList.map fun completed => .returned (some completed)

end Tasks

open TaskEvent Tasks

/-- what can happen next to tasks with this past, none after the drop: what it is, and what becomes of the tasks -/
inductive Session.Step (r : Runner E F ε) (past : List (TaskEvent U ε)) :
    Option (Tasks U F) → List (TaskEvent U ε) → Option (Tasks U F) → Prop
  | push {t} (work : F) (userdata : Option U) :
      Step r past (some t)
        (.pushed (t.push work userdata).value userdata :: releases (some t) (t.push work userdata).state)
        (some (t.push work userdata).state)
  | wake {x h userdata} : .pushed h userdata ∈ past →
      Step r past x (.woken h :: releases x (x.map (·.wake h))) (x.map (·.wake h))
  | turn {t slot} (env : E) : t.queue.head? = some slot →
      (∀ h, .woken h ∈ t.turnEvents r env slot → ∃ userdata, .pushed h userdata ∈ past) →
      Step r past (some t) (t.turnEvents r env slot) (some (t.turn r env slot).tasks)
  /-- a poll that finds the queue empty -/
  | idle {t} : t.queue = [] → Step r past (some t) [.returned none] (some t)
  | drop {x} : Step r past x (.dropped :: releases x none) none

/-- what state the tasks can be in, and what has happened by then: any steps, one after another -/
inductive Session (r : Runner E F ε) : Option (Tasks U F) → List (TaskEvent U ε) → Prop
  | start : Session r (some .empty) []
  | step {x y past events} : Session r x past → Session.Step r past x events y → Session r y (past ++ events)

namespace Tasks

variable {t t' : Tasks U F} {past : List Moment} {slot : Nat} {tenant : Tenant U F}

/-! ## What is kept and what is released -/

theorem mem_kept {serial : Nat} :
    serial ∈ t.kept ↔ ∃ slot tenant, t.slots.get? slot = some tenant ∧ tenant.serial = serial := by
  constructor
  · intro hs
    obtain ⟨⟨slot, tenant⟩, hm, rfl⟩ := List.mem_map.1 hs
    exact ⟨slot, tenant, Slots.mem_toList.1 hm, rfl⟩
  · rintro ⟨slot, tenant, ht, rfl⟩
    exact List.mem_map.2 ⟨(slot, tenant), Slots.mem_toList.2 ht, rfl⟩

theorem kept_of_slots (h : t'.slots = t.slots) : t'.kept = t.kept := by
  rw [kept, kept, h]

theorem Law.nodup_kept (hl : t.Law past) : t.kept.Nodup := by
  refine List.Nodup.map_on ?_ (List.Nodup.of_map _ t.slots.nodup_keys)
  rintro ⟨slot, tenant⟩ hm ⟨slot', tenant'⟩ hm' he
  have ht := Slots.mem_toList.1 hm
  have ht' := Slots.mem_toList.1 hm'
  have hslot := hl.distinct ht ht' he
  subst hslot
  rw [ht] at ht'
  cases ht'
  rfl

theorem releases_eq_nil (h : t.kept ⊆ t'.kept) : (releases (some t) (some t') : List (TaskEvent U ε)) = [] := by
  simpa [releases] using fun serial hs => h hs

theorem releases_of_kept (h : t'.kept = t.kept) : (releases (some t) (some t') : List (TaskEvent U ε)) = [] :=
  releases_eq_nil (h ▸ List.Subset.refl _)

@[simp] theorem releases_drop (t : Tasks U F) :
    (releases (some t) none : List (TaskEvent U ε)) = t.kept.map .released := by
  simp [releases]

@[simp] theorem moments_releases (x y : Option (Tasks U F)) : moments (releases x y : List (TaskEvent U ε)) = [] :=
  moments_map_released _

/-- nothing is released by a push -/
theorem Law.releases_push (hl : t.Law past) (work : F) (userdata : Option U) :
    (releases (some t) (some (t.push work userdata).state) : List (TaskEvent U ε)) = [] := by
  refine releases_eq_nil fun serial hs => ?_
  obtain ⟨slot, tenant, ht, rfl⟩ := mem_kept.1 hs
  refine mem_kept.2 ⟨slot, tenant, ?_, rfl⟩
  have hne : slot ≠ t.slots.nextKey := fun he => by
    rw [he, Slots.get?_nextKey hl.tidy] at ht
    cases ht
  rw [Tasks.push, Slots.get?_insert hl.tidy, if_neg hne]
  exact ht

/-- nothing is released by a wake -/
@[simp] theorem releases_wake (x : Option (Tasks U F)) (h : Handle) :
    (releases x (x.map (·.wake h)) : List (TaskEvent U ε)) = [] := by
  cases x with
  | none => rfl
  | some t => exact releases_of_kept (kept_of_slots (t.wake_slots h).1)

theorem kept_of_set (ht : t.slots.get? slot = some tenant) {work : F}
    (h : t'.slots = t.slots.set slot { tenant with work }) : t'.kept = t.kept := by
  obtain ⟨pre, post, hs, -, hset⟩ := Slots.toList_focus ht
  rw [kept, kept, h, hset, hs]
  simp

/-- a task that leaves is the one that is released -/
theorem Law.releases_erase (hl : t.Law past) (ht : t.slots.get? slot = some tenant)
    (h : t'.slots = t.slots.erase slot) :
    (releases (some t) (some t') : List (TaskEvent U ε)) = [.released tenant.serial] := by
  obtain ⟨pre, post, hs, herase, -⟩ := Slots.toList_focus ht
  have hkept : t.kept = pre.map (·.2.serial) ++ tenant.serial :: post.map (·.2.serial) := by simp [kept, hs]
  have hkept' : t'.kept = pre.map (·.2.serial) ++ post.map (·.2.serial) := by simp [kept, h, herase]
  have hnodup := hl.nodup_kept
  rw [hkept] at hnodup
  have hnot := (List.nodup_middle.1 hnodup).notMem
  have hgone : t.kept.filter (· ∉ t'.kept) = [tenant.serial] := by
    rw [hkept, hkept', List.filter_append, List.filter_cons_of_pos (by simpa using hnot),
      List.filter_eq_nil_iff.2 fun serial hm => ?_, List.filter_eq_nil_iff.2 fun serial hm => ?_, List.nil_append]
    · simpa using fun _ => hm
    · simp [List.mem_map.1 hm]
  simpa [releases] using hgone

/-! ## Turns -/

/-- what a turn does: nobody lives in the slot, or its tenant runs and stays, or its tenant runs and ends -/
theorem turn_cases (r : Runner E F ε) (t : Tasks U F) (env : E) (slot : Nat) :
    (t.turn r env slot).tasks.nextSerial = t.nextSerial ∧
    (t.slots.get? slot = none ∧ (t.turn r env slot).tasks.slots = t.slots ∧ (t.turn r env slot).env.2 = [] ∧
        (t.turn r env slot).completed = none ∨
      ∃ tenant, ∃ hs : List Handle, t.slots.get? slot = some tenant ∧
        ((∃ work, (t.turn r env slot).tasks.slots = t.slots.set slot { tenant with work }) ∧
            (t.turn r env slot).env.2 = .ran ⟨slot, tenant.serial⟩ :: hs.map .woken ∧
            (t.turn r env slot).completed = none ∨
          ∃ outcome, (t.turn r env slot).tasks.slots = t.slots.erase slot ∧
            (t.turn r env slot).env.2 =
              .ran ⟨slot, tenant.serial⟩ :: hs.map .woken ++ [.ended ⟨slot, tenant.serial⟩ outcome] ∧
            (t.turn r env slot).completed = some ⟨tenant.serial, tenant.userdata, outcome⟩)) := by
  unfold turn runSlot
  cases ht : t.slots.get? slot with
  | none => exact ⟨rfl, .inl ⟨rfl, rfl, rfl, rfl⟩⟩
  | some tenant =>
    obtain ⟨hslots, hserial⟩ := wakes_slots
      { t with queue := t.queue.tail, marked := t.marked.filter (· != tenant.serial) }
      (r.run ⟨slot, tenant.serial⟩ env tenant.work).woken
    dsimp only [Runner.noting]
    cases (r.run ⟨slot, tenant.serial⟩ env tenant.work).outcome with
    | none =>
      refine ⟨hserial, .inr ⟨tenant, (r.run ⟨slot, tenant.serial⟩ env tenant.work).woken, rfl,
        .inl ⟨⟨(r.run ⟨slot, tenant.serial⟩ env tenant.work).work, ?_⟩, ?_, rfl⟩⟩⟩
      · dsimp only
        rw [hslots]
      · simp
    | some outcome =>
      refine ⟨hserial, .inr ⟨tenant, (r.run ⟨slot, tenant.serial⟩ env tenant.work).woken, rfl,
        .inr ⟨outcome, ?_, ?_, rfl⟩⟩⟩
      · dsimp only
        rw [hslots]
      · simp

/-- what the tasks note of a turn is the course of the turn -/
theorem moments_turn (r : Runner E F ε) (t : Tasks U F) (env : E) (slot : Nat) :
    moments (t.turn r env slot).env.2 = (t.turn r env slot).course.map .task := by
  unfold turn runSlot
  cases t.slots.get? slot with
  | none => rfl
  | some tenant =>
    dsimp only [Runner.noting]
    cases (r.run ⟨slot, tenant.serial⟩ env tenant.work).outcome with
    | none => simp [moment?, courseOf, Function.comp_def]
    | some outcome => simp [moment?, courseOf, Function.comp_def]

theorem woken_mem_turn {r : Runner E F ε} {env : E} {h : Handle} (ht : t.slots.get? slot = some tenant)
    (hm : h ∈ (r.run ⟨slot, tenant.serial⟩ env tenant.work).woken) : .woken h ∈ (t.turn r env slot).env.2 := by
  have hlog : .woken h ∈ ((r.noting U).run ⟨slot, tenant.serial⟩ (env, []) tenant.work).env.2 := by
    simp [Runner.noting, hm]
  obtain ⟨-, ⟨hnone, -⟩ | ⟨tenant', ht', hrun⟩⟩ :=
    runSlot_cases (r.noting U) { t with queue := t.queue.tail } (env, []) slot
  · rw [ht] at hnone
    cases hnone
  · rw [ht] at ht'
    cases ht'
    rcases hrun with ⟨-, -, henv⟩ | ⟨outcome, -, -, henv⟩
    · rw [turn, henv]
      exact hlog
    · rw [turn, henv]
      exact hlog

/-- a turn that runs a slot's tenant keeps the schedule's invariant if the handles that it wakes are of these tasks -/
theorem Law.turn (hl : t.Law past) (hq : t.queue.head? = some slot) (r : Runner E F ε) (env : E)
    (hn : ∀ h, .woken h ∈ (t.turn r env slot).env.2 → t.Names h) :
    (t.turn r env slot).tasks.Law (past ++ moments (t.turn r env slot).env.2) := by
  rw [moments_turn]
  have hqueue : t.queue = slot :: t.queue.tail := List.eq_cons_of_mem_head? hq
  refine hl.runSlot hqueue (r.noting U) (env, []) fun ht h hm => hn h (woken_mem_turn ht hm)

/-- the same of what happens: a task that ends is released and then returned, and nothing else is -/
theorem Law.turnEvents_cases (hl : t.Law past) (r : Runner E F ε) (env : E) (slot : Nat) :
    t.slots.get? slot = none ∧ (t.turn r env slot).tasks.slots = t.slots ∧ t.turnEvents r env slot = [] ∨
      ∃ tenant, ∃ hs : List Handle, t.slots.get? slot = some tenant ∧
        ((∃ work, (t.turn r env slot).tasks.slots = t.slots.set slot { tenant with work }) ∧
            t.turnEvents r env slot = .ran ⟨slot, tenant.serial⟩ :: hs.map .woken ∨
          ∃ outcome, (t.turn r env slot).tasks.slots = t.slots.erase slot ∧
            t.turnEvents r env slot = .ran ⟨slot, tenant.serial⟩ :: hs.map .woken ++
              [.ended ⟨slot, tenant.serial⟩ outcome, .released tenant.serial,
                .returned (some ⟨tenant.serial, tenant.userdata, outcome⟩)]) := by
  obtain ⟨-, ⟨ht, hslots, hlog, hc⟩ | ⟨tenant, hs, ht, hrun⟩⟩ := t.turn_cases r env slot
  · refine .inl ⟨ht, hslots, ?_⟩
    rw [turnEvents, hlog, hc, releases_of_kept (kept_of_slots hslots)]
    rfl
  · refine .inr ⟨tenant, hs, ht, ?_⟩
    rcases hrun with ⟨⟨work, hslots⟩, hlog, hc⟩ | ⟨outcome, hslots, hlog, hc⟩
    · refine .inl ⟨⟨work, hslots⟩, ?_⟩
      rw [turnEvents, hlog, hc, releases_of_kept (kept_of_set ht hslots)]
      simp
    · refine .inr ⟨outcome, hslots, ?_⟩
      rw [turnEvents, hlog, hc, hl.releases_erase ht hslots]
      simp

theorem moments_turnEvents (r : Runner E F ε) (t : Tasks U F) (env : E) (slot : Nat) :
    moments (t.turnEvents r env slot) = moments (t.turn r env slot).env.2 := by
  rw [turnEvents, moments_append, moments_append, moments_releases]
  cases (t.turn r env slot).completed <;> simp [moment?]

theorem woken_mem_turnEvents {r : Runner E F ε} {env : E} {h : Handle} :
    .woken h ∈ t.turnEvents r env slot ↔ .woken h ∈ (t.turn r env slot).env.2 := by
  simp [turnEvents, releases]

/-- who lives after a turn lived before it, with the same serial and userdata -/
theorem get?_turn {r : Runner E F ε} {env : E} {other : Nat} {tenant : Tenant U F}
    (ht : (t.turn r env slot).tasks.slots.get? other = some tenant) :
    ∃ old, t.slots.get? other = some old ∧ old.serial = tenant.serial ∧ old.userdata = tenant.userdata := by
  obtain ⟨-, ⟨-, hslots, -⟩ | ⟨self, hs, hself, ⟨⟨work, hslots⟩, -⟩ | ⟨outcome, hslots, -⟩⟩⟩ := t.turn_cases r env slot
  · exact ⟨tenant, hslots ▸ ht, rfl, rfl⟩
  · rw [hslots, Slots.get?_set hself] at ht
    split at ht
    · next he =>
      cases ht
      exact ⟨self, he ▸ hself, rfl, rfl⟩
    · exact ⟨tenant, ht, rfl, rfl⟩
  · rw [hslots, Slots.get?_erase] at ht
    split at ht
    · cases ht
    · exact ⟨tenant, ht, rfl, rfl⟩

theorem Law.pushed_notMem_turnEvents (hl : t.Law past) (r : Runner E F ε) (env : E) (slot : Nat) (h : Handle)
    (userdata : Option U) : .pushed h userdata ∉ t.turnEvents r env slot := by
  rcases hl.turnEvents_cases r env slot with ⟨-, -, he⟩ | ⟨self, hs, -, ⟨-, he⟩ | ⟨outcome, -, he⟩⟩ <;> simp [he]

/-- nothing is released in a turn that ends no task -/
theorem kept_turn {r : Runner E F ε} {env : E} (hc : (t.turn r env slot).completed = none) :
    (t.turn r env slot).tasks.kept = t.kept := by
  obtain ⟨-, ⟨-, hslots, -⟩ | ⟨self, hs, hself, ⟨⟨work, hslots⟩, -⟩ | ⟨outcome, -, -, hsome⟩⟩⟩ :=
    t.turn_cases r env slot
  · exact kept_of_slots hslots
  · exact kept_of_set hself hslots
  · rw [hc] at hsome
    cases hsome

theorem releases_congr {t t' : Tasks U F} (h : t.kept = t'.kept) (x : Option (Tasks U F)) :
    (releases (some t) x : List (TaskEvent U ε)) = releases (some t') x := by
  rw [releases, releases, Option.map_some, Option.map_some, h]

/-- notes are added to those that were there -/
theorem runSlot_noting (r : Runner E F ε) (t : Tasks U F) (env : E) (log : List (TaskEvent U ε)) (slot : Nat) :
    runSlot (r.noting U) t (env, log) slot =
      { runSlot (r.noting U) t (env, []) slot with
        env := ((runSlot (r.noting U) t (env, []) slot).env.1,
          log ++ (runSlot (r.noting U) t (env, []) slot).env.2) } := by
  unfold runSlot
  cases t.slots.get? slot with
  | none => simp [Runner.noting]
  | some tenant =>
    dsimp only [Runner.noting]
    cases (r.run ⟨slot, tenant.serial⟩ env tenant.work).outcome <;> simp

theorem poll_noting {r : Runner E F ε} {limit : Nat} {env : E} {log : List (TaskEvent U ε)}
    {p : Polled U F (E × List (TaskEvent U ε)) ε} (hp : t.poll (r.noting U) limit (env, log) = some p) :
    log <+: p.env.2 := by
  refine (poll_keeps (P := fun _ env _ _ => log <+: env.2) (fun {t env _ slot rest} h _ => ?_) []
    (List.prefix_refl log) hp).1
  rw [runSlot_noting]
  exact h.trans (List.prefix_append ..)

end Tasks

namespace Session

variable {r : Runner E F ε} {t : Tasks U F} {x : Option (Tasks U F)} {past : List (TaskEvent U ε)} {h : Handle}
  {userdata : Option U}

theorem turn {slot : Nat} (hs : Session r (some t) past) (env : E) (hq : t.queue.head? = some slot)
    (hh : ∀ h, .woken h ∈ t.turnEvents r env slot → ∃ userdata, .pushed h userdata ∈ past) :
    Session r (some (t.turn r env slot).tasks) (past ++ t.turnEvents r env slot) :=
  hs.step (.turn env hq hh)

/-- **The schedule's invariant holds in every session**, and every handle that was given out is of these tasks. -/
theorem lawful (hs : Session r x past) (hx : x = some t) :
    t.Law (moments past) ∧ ∀ {h userdata}, .pushed h userdata ∈ past → t.Names h := by
  induction hs generalizing t with
  | start =>
    cases hx
    exact ⟨law_empty, fun hm => by cases hm⟩
  | @step _ _ past _ _ hstep ih => cases hstep with
  | @push t work userdata =>
    cases hx
    obtain ⟨hl, hnames⟩ := ih rfl
    have hlaw := hl.push work userdata
    rw [hl.releases_push, moments_append]
    refine ⟨hlaw, fun {h userdata'} hm => ?_⟩
    rcases List.mem_append.1 hm with hm | hm
    · exact (hnames hm).push hl work userdata
    · cases List.mem_singleton.1 hm
      have hget : (t.push work userdata).state.slots.get? (t.push work userdata).value.slot =
          some ⟨t.nextSerial, work, userdata⟩ := by
        rw [Tasks.push, Slots.get?_insert hl.tidy, if_pos rfl]
      exact hlaw.names hget
  | @wake x h userdata hh =>
    obtain ⟨t, rfl, rfl⟩ := Option.map_eq_some_iff.1 hx
    obtain ⟨hl, hnames⟩ := ih rfl
    obtain ⟨hslots, hserial⟩ := t.wake_slots h
    rw [releases_wake, moments_append]
    refine ⟨hl.wake (hnames hh), fun hm => ?_⟩
    rcases List.mem_append.1 hm with hm | hm
    · exact ⟨hserial ▸ (hnames hm).serial, fun ht => (hnames hm).slot (hslots ▸ ht)⟩
    · cases List.mem_singleton.1 hm
  | @turn t slot env hq hh =>
    cases hx
    obtain ⟨hl, hnames⟩ := ih rfl
    rw [moments_append, moments_turnEvents]
    refine ⟨hl.turn hq r env fun h hm => ?_, fun {h userdata} hm => ?_⟩
    · obtain ⟨userdata, hpushed⟩ := hh h (woken_mem_turnEvents.2 hm)
      exact hnames hpushed
    · have hold := (List.mem_append.1 hm).resolve_right (hl.pushed_notMem_turnEvents r env slot h userdata)
      refine ⟨(t.turn_cases r env slot).1 ▸ (hnames hold).serial, fun ht he => ?_⟩
      obtain ⟨old, hget, hserial, -⟩ := get?_turn ht
      exact (hnames hold).slot hget (hserial.trans he)
  | @idle t hq =>
    cases hx
    obtain ⟨hl, hnames⟩ := ih rfl
    rw [moments_append]
    refine ⟨hl.wait hq, fun hm => ?_⟩
    rcases List.mem_append.1 hm with hm | hm
    · exact hnames hm
    · cases List.mem_singleton.1 hm
  | drop => cases hx

/-- **A poll is a sequence of turns.** A poll that returns leads from a session to a session: what it adds is what the
tasks note of their runs in it, what is released in it, and last of all what it returns. -/
theorem poll (hs : Session r (some t) past) {limit : Nat} {env : E} {log : List (TaskEvent U ε)}
    {p : Polled U F (E × List (TaskEvent U ε)) ε} (hp : t.poll (r.noting U) limit (env, log) = some p)
    (hh : ∀ h, .woken h ∈ p.env.2 → ∃ userdata, .pushed h userdata ∈ past) :
    ∃ later, p.env.2 = log ++ later ∧
      Session r (some p.tasks)
        (past ++ (later ++ releases (some t) (some p.tasks) ++ [.returned p.completed])) := by
  -- the notes of the turns so far are the log that the next turn starts from
  induction limit generalizing t past env log p with
  | zero =>
    unfold Tasks.poll at hp
    split at hp
    · next hq =>
      cases hp
      exact ⟨[], by simp, by simpa [releases_of_kept] using hs.step (.idle (List.isEmpty_iff.1 hq))⟩
    · cases hp
  | succ limit ih =>
    unfold Tasks.poll at hp
    cases hq : t.queue with
    | nil =>
      rw [hq] at hp
      cases hp
      exact ⟨[], by simp, by simpa [releases_of_kept] using hs.step (.idle hq)⟩
    | cons slot rest =>
      have hturn : runSlot (r.noting U) { t with queue := rest } (env, log) slot =
          { t.turn r env slot with env := ((t.turn r env slot).env.1, log ++ (t.turn r env slot).env.2) } := by
        rw [runSlot_noting, Tasks.turn, hq]
        rfl
      rw [hq] at hp
      dsimp only at hp
      rw [hturn] at hp
      dsimp only at hp
      have hhead : t.queue.head? = some slot := by simp [hq]
      cases hc : (t.turn r env slot).completed with
      | some c =>
        rw [hc] at hp
        cases hp
        refine ⟨_, rfl, ?_⟩
        have hnext := hs.turn env hhead fun h hm =>
          hh h (List.mem_append_right _ (woken_mem_turnEvents.1 hm))
        simpa [turnEvents, hc] using hnext
      | none =>
        rw [hc] at hp
        obtain ⟨q, hpoll, rfl⟩ := Option.map_eq_some_iff.1 hp
        have hkept := kept_turn hc
        have hevents : t.turnEvents r env slot = (t.turn r env slot).env.2 := by
          simp [turnEvents, hc, releases_of_kept hkept]
        have hnoted := (poll_noting hpoll).subset
        have hnext := hs.turn env hhead fun h hm =>
          hh h (hnoted (List.mem_append_right _ (woken_mem_turnEvents.1 hm)))
        obtain ⟨later, hlater, hsession⟩ := ih hnext hpoll fun h hm =>
          (hh h hm).imp fun userdata hm => List.mem_append_left _ hm
        refine ⟨(t.turn r env slot).env.2 ++ later, by simp [hlater], ?_⟩
        rw [hevents, releases_congr hkept] at hsession
        simpa using hsession

end Session

end EventServer
