/-
The schedule: no task that was asked to run is forgotten, and none waits for a run through a wait.

A history is a list of moments, oldest first: waits of the server and what happened to tasks. A task is asked to run
when it is pushed and when a handle with its serial is woken. `Tasks.Law t past` is the invariant of the tasks after a
history. Its heart is `Answered`: every time a task in flight was asked, it was run afterwards with no wait in between,
or its mark still stands and there was no wait since; and a task whose mark stands has its slot in the queue (`queued`).
So when the queue is empty nothing is left to be answered, and a wait may come (`Law.wait`).

`Law.push`, `Law.wake` and `Law.runSlot` are the steps, and `poll_keeps` is the induction over a poll.
-/
import EventServer.Tasks

namespace EventServer

/-- what a history is made of -/
inductive Moment where
  | wait
  | task (happening : Happening)
  deriving DecidableEq, Repr

namespace Moment

/-- whether a task with the serial is asked to run -/
def asks (serial : Nat) : Moment → Prop
  | task (.pushed h) => h.serial = serial
  | task (.woken h) => h.serial = serial
  | _ => False

end Moment

/-- a task was run before the next wait -/
def RunBeforeWait (h : Handle) (later : List Moment) : Prop :=
  ∃ before after, later = before ++ .task (.ran h) :: after ∧ Moment.wait ∉ before

theorem RunBeforeWait.append {h : Handle} {later : List Moment} (hr : RunBeforeWait h later) (moments : List Moment) :
    RunBeforeWait h (later ++ moments) := by
  obtain ⟨before, after, rfl, hw⟩ := hr
  exact ⟨before, after ++ moments, by simp, hw⟩

/-- whenever a task was asked to run it was run before the next wait, or it is marked and there was no wait since -/
def Answered (marked : List Nat) (past : List Moment) (h : Handle) : Prop :=
  ∀ earlier asked later, past = earlier ++ asked :: later → asked.asks h.serial →
    RunBeforeWait h later ∨ h.serial ∈ marked ∧ Moment.wait ∉ later

namespace Answered

variable {marked marked' : List Nat} {past : List Moment} {h : Handle} {moment : Moment}

theorem eq_or_eq_append {earlier later : List Moment} {asked : Moment}
    (he : past ++ [moment] = earlier ++ asked :: later) :
    asked = moment ∧ later = [] ∨ ∃ rest, later = rest ++ [moment] ∧ past = earlier ++ asked :: rest := by
  rcases List.eq_nil_or_concat later with rfl | ⟨rest, last, rfl⟩
  · obtain ⟨-, hl⟩ := List.append_inj' he rfl
    exact .inl ⟨(List.singleton_inj.1 hl).symm, rfl⟩
  · have he : past ++ [moment] = (earlier ++ asked :: rest) ++ [last] := by simpa using he
    obtain ⟨hp, hl⟩ := List.append_inj' he rfl
    exact .inr ⟨rest, by rw [List.concat_eq_append, ← hl], hp⟩

/-- anything but a wait may happen if marks stay and whoever is asked is marked -/
theorem append (ha : Answered marked past h) (hw : moment ≠ .wait)
    (hm : h.serial ∈ marked ∨ moment.asks h.serial → h.serial ∈ marked') :
    Answered marked' (past ++ [moment]) h := by
  intro earlier asked later he hasks
  rcases eq_or_eq_append he with ⟨rfl, rfl⟩ | ⟨rest, rfl, hp⟩
  · exact .inr ⟨hm (.inr hasks), by simp⟩
  · refine (ha earlier asked rest hp hasks).imp (·.append _) fun ⟨hmark, hrest⟩ => ⟨hm (.inl hmark), ?_⟩
    simp [hrest, Ne.symm hw]

/-- a run answers all that was asked before -/
theorem append_ran (ha : Answered marked past h) : Answered marked' (past ++ [.task (.ran h)]) h := by
  intro earlier asked later he hasks
  rcases eq_or_eq_append he with ⟨rfl, rfl⟩ | ⟨rest, rfl, hp⟩
  · cases hasks
  · refine .inl ((ha earlier asked rest hp hasks).elim (·.append _) fun ⟨_, hrest⟩ => ?_)
    exact ⟨rest, [], rfl, hrest⟩

/-- a wait may come when no mark stands -/
theorem append_wait (ha : Answered marked past h) (hm : h.serial ∉ marked) :
    Answered marked (past ++ [.wait]) h := by
  intro earlier asked later he hasks
  rcases eq_or_eq_append he with ⟨rfl, rfl⟩ | ⟨rest, rfl, hp⟩
  · cases hasks
  · exact .inl ((ha earlier asked rest hp hasks).elim (·.append _) fun ⟨hmark, _⟩ => absurd hmark hm)

end Answered

namespace Tasks

variable {U F E ε : Type} {t : Tasks U F} {past : List Moment} {h : Handle} {slot : Nat} {tenant : Tenant U F}

/-- the invariant of the tasks after a history -/
structure Law (t : Tasks U F) (past : List Moment) : Prop where
  tidy : t.slots.Tidy
  fresh : ∀ {slot tenant}, t.slots.get? slot = some tenant → tenant.serial < t.nextSerial
  distinct : ∀ {slot slot' tenant tenant'}, t.slots.get? slot = some tenant → t.slots.get? slot' = some tenant' →
    tenant.serial = tenant'.serial → slot = slot'
  /-- nobody was asked whose serial is yet to come -/
  asked : ∀ moment ∈ past, ∀ serial, moment.asks serial → serial < t.nextSerial
  queued : ∀ {slot tenant}, t.slots.get? slot = some tenant → tenant.serial ∈ t.marked → slot ∈ t.queue
  pushed : ∀ {slot tenant}, t.slots.get? slot = some tenant → .task (.pushed ⟨slot, tenant.serial⟩) ∈ past
  answered : ∀ {slot tenant}, t.slots.get? slot = some tenant → Answered t.marked past ⟨slot, tenant.serial⟩

/-- a handle is of these tasks: its task was pushed, and if it is in flight it is where the handle says -/
structure Names (t : Tasks U F) (h : Handle) : Prop where
  serial : h.serial < t.nextSerial
  slot : ∀ {slot tenant}, t.slots.get? slot = some tenant → tenant.serial = h.serial → slot = h.slot

theorem law_empty : (empty : Tasks U F).Law [] where
  tidy := Slots.tidy_empty
  fresh h := by simp [empty] at h
  distinct h := by simp [empty] at h
  asked := by simp
  queued h := by simp [empty] at h
  pushed h := by simp [empty] at h
  answered h := by simp [empty] at h

theorem Law.names (hl : t.Law past) (ht : t.slots.get? slot = some tenant) : t.Names ⟨slot, tenant.serial⟩ :=
  ⟨hl.fresh ht, fun ht' he => hl.distinct ht' ht he⟩

/-! ## Steps -/

/-- with an empty queue no mark of a task in flight stands -/
theorem Law.not_marked (hl : t.Law past) (hq : t.queue = []) (ht : t.slots.get? slot = some tenant) :
    tenant.serial ∉ t.marked := fun hm => by
  have := hl.queued ht hm
  rw [hq] at this
  cases this

theorem Law.wait (hl : t.Law past) (hq : t.queue = []) : t.Law (past ++ [.wait]) where
  tidy := hl.tidy
  fresh := hl.fresh
  distinct := hl.distinct
  asked m hm serial ha := by
    rcases List.mem_append.1 hm with hm | hm
    · exact hl.asked m hm serial ha
    · cases List.mem_singleton.1 hm
      cases ha
  queued := hl.queued
  pushed ht := List.mem_append_left _ (hl.pushed ht)
  answered ht := (hl.answered ht).append_wait (hl.not_marked hq ht)

/-- what happens to a task that is no longer there is of no account -/
theorem Law.ended (hl : t.Law past) (h : Handle) : t.Law (past ++ [.task (.ended h)]) where
  tidy := hl.tidy
  fresh := hl.fresh
  distinct := hl.distinct
  asked m hm serial ha := by
    rcases List.mem_append.1 hm with hm | hm
    · exact hl.asked m hm serial ha
    · cases List.mem_singleton.1 hm
      cases ha
  queued := hl.queued
  pushed ht := List.mem_append_left _ (hl.pushed ht)
  answered ht := (hl.answered ht).append (by simp) fun hm => hm.elim id fun ha => by cases ha

/-- a new task is asked to run and nobody else is -/
theorem Law.push (hl : t.Law past) (work : F) (userdata : Option U) :
    (t.push work userdata).state.Law (past ++ [.task (.pushed (t.push work userdata).value)]) := by
  have hget := Slots.get?_insert hl.tidy (⟨t.nextSerial, work, userdata⟩ : Tenant U F)
  have hold : ∀ {slot tenant}, slot ≠ t.slots.nextKey → (t.push work userdata).state.slots.get? slot = some tenant →
      t.slots.get? slot = some tenant := fun hne ht => by
    rw [Tasks.push, hget, if_neg hne] at ht
    exact ht
  have hnew : ∀ {tenant}, (t.push work userdata).state.slots.get? t.slots.nextKey = some tenant →
      tenant = ⟨t.nextSerial, work, userdata⟩ := fun ht => by
    rw [Tasks.push, hget, if_pos rfl] at ht
    exact (Option.some.inj ht).symm
  refine ⟨hl.tidy.insert _, fun {slot tenant} ht => ?_, fun {slot slot' tenant tenant'} ht ht' he => ?_,
    fun m hm serial ha => ?_, fun {slot tenant} ht hm => ?_, fun {slot tenant} ht => ?_, fun {slot tenant} ht => ?_⟩
  · by_cases hs : slot = t.slots.nextKey
    · subst hs
      rw [hnew ht]
      exact Nat.lt_succ_self _
    · exact Nat.lt_succ_of_lt (hl.fresh (hold hs ht))
  · by_cases hs : slot = t.slots.nextKey <;> by_cases hs' : slot' = t.slots.nextKey
    · rw [hs, hs']
    · subst hs
      rw [hnew ht] at he
      exact absurd he (Nat.ne_of_gt (hl.fresh (hold hs' ht')))
    · subst hs'
      rw [hnew ht'] at he
      exact absurd he (Nat.ne_of_lt (hl.fresh (hold hs ht)))
    · exact hl.distinct (hold hs ht) (hold hs' ht') he
  · rcases List.mem_append.1 hm with hm | hm
    · exact Nat.lt_succ_of_lt (hl.asked m hm serial ha)
    · cases List.mem_singleton.1 hm
      cases ha
      exact Nat.lt_succ_self _
  · by_cases hs : slot = t.slots.nextKey
    · simp [Tasks.push, hs]
    · have ht := hold hs ht
      have hne := Nat.ne_of_lt (hl.fresh ht)
      have hm : tenant.serial ∈ t.marked := (List.mem_cons.1 hm).resolve_left hne
      exact List.mem_append_left _ (hl.queued ht hm)
  · by_cases hs : slot = t.slots.nextKey
    · subst hs
      rw [hnew ht]
      simp [Tasks.push]
    · exact List.mem_append_left _ (hl.pushed (hold hs ht))
  · by_cases hs : slot = t.slots.nextKey
    · subst hs
      rw [hnew ht]
      intro earlier asked later he hasks
      rcases Answered.eq_or_eq_append he with ⟨rfl, rfl⟩ | ⟨rest, rfl, hp⟩
      · exact .inr ⟨List.mem_cons_self .., by simp⟩
      · -- the serial is new, so nobody asked for it before
        exact absurd (hl.asked asked (by simp [hp]) _ hasks) (Nat.lt_irrefl _)
    · refine (hl.answered (hold hs ht)).append (by simp) fun hm => List.mem_cons.2 ?_
      exact hm.symm.imp (fun ha => ha.symm) id

theorem Names.push (hn : t.Names h) (hl : t.Law past) (work : F) (userdata : Option U) :
    (t.push work userdata).state.Names h := by
  refine ⟨Nat.lt_succ_of_lt hn.serial, fun {slot tenant} ht he => ?_⟩
  rw [show (t.push work userdata).state.slots = t.slots.insert ⟨t.nextSerial, work, userdata⟩ from rfl,
    Slots.get?_insert hl.tidy] at ht
  split at ht
  · cases ht
    exact absurd he (Nat.ne_of_gt hn.serial)
  · exact hn.slot ht he

theorem wake_slots (t : Tasks U F) (h : Handle) :
    (t.wake h).slots = t.slots ∧ (t.wake h).nextSerial = t.nextSerial := by
  unfold wake
  split <;> exact ⟨rfl, rfl⟩

theorem mem_marked_wake (t : Tasks U F) (h : Handle) {serial : Nat} :
    serial ∈ (t.wake h).marked ↔ serial = h.serial ∨ serial ∈ t.marked := by
  unfold wake
  split
  · next hm =>
    refine ⟨.inr, fun hs => hs.elim (fun he => ?_) id⟩
    exact he ▸ List.contains_iff_mem.1 hm
  · exact List.mem_cons

/-- a handle of these tasks asks its task to run -/
theorem Law.wake (hl : t.Law past) (hn : t.Names h) : (t.wake h).Law (past ++ [.task (.woken h)]) := by
  obtain ⟨hslots, hserial⟩ := t.wake_slots h
  have hmarked : ∀ {serial}, serial ∈ (t.wake h).marked ↔ serial = h.serial ∨ serial ∈ t.marked := t.mem_marked_wake h
  refine ⟨hslots ▸ hl.tidy, fun {slot tenant} ht => ?_, fun ht ht' he => ?_, fun m hm serial ha => ?_,
    fun {slot tenant} ht hm => ?_, fun ht => ?_, fun {slot tenant} ht => ?_⟩
  · rw [hserial]
    exact hl.fresh (hslots ▸ ht)
  · exact hl.distinct (hslots ▸ ht) (hslots ▸ ht') he
  · rw [hserial]
    rcases List.mem_append.1 hm with hm | hm
    · exact hl.asked m hm serial ha
    · cases List.mem_singleton.1 hm
      cases ha
      exact hn.serial
  · rw [hslots] at ht
    have hq : t.queue ⊆ (t.wake h).queue := by
      unfold Tasks.wake
      split
      · exact fun _ hx => hx
      · exact List.subset_append_left ..
    by_cases hold : tenant.serial ∈ t.marked
    · exact hq (hl.queued ht hold)
    · have he := (hmarked.1 hm).resolve_right hold
      rw [he] at hold
      rw [hn.slot ht he]
      simp [Tasks.wake, hold]
  · exact List.mem_append_left _ (hl.pushed (hslots ▸ ht))
  · refine (hl.answered (hslots ▸ ht)).append (by simp) fun hm => hmarked.2 ?_
    exact hm.symm.imp (fun ha => ha.symm) id

/-- handles of these tasks, one after another -/
theorem Law.wakes (hl : t.Law past) (hs : List Handle) (hn : ∀ h ∈ hs, t.Names h) :
    (hs.foldl Tasks.wake t).Law (past ++ hs.map fun h => .task (.woken h)) := by
  induction hs generalizing t past with
  | nil => simpa using hl
  | cons h rest ih =>
    obtain ⟨hslots, hserial⟩ := t.wake_slots h
    have hrest : ∀ h' ∈ rest, (t.wake h).Names h' := fun h' hm =>
      ⟨hserial ▸ (hn h' (List.mem_cons_of_mem _ hm)).serial, fun ht he =>
        (hn h' (List.mem_cons_of_mem _ hm)).slot (hslots ▸ ht) he⟩
    simpa using ih (hl.wake (hn h List.mem_cons_self)) hrest

/-- the slot at the head of the queue is taken, and its task's mark with it: that is its run -/
theorem Law.take (hl : t.Law past) {rest : List Nat} (hq : t.queue = slot :: rest)
    (ht : t.slots.get? slot = some tenant) :
    ({ t with queue := rest, marked := t.marked.filter (· != tenant.serial) } : Tasks U F).Law
      (past ++ [.task (.ran ⟨slot, tenant.serial⟩)]) := by
  refine ⟨hl.tidy, hl.fresh, hl.distinct, fun m hm serial ha => ?_, fun {slot' tenant'} ht' hm => ?_,
    fun ht' => List.mem_append_left _ (hl.pushed ht'), fun {slot' tenant'} ht' => ?_⟩
  · rcases List.mem_append.1 hm with hm | hm
    · exact hl.asked m hm serial ha
    · cases List.mem_singleton.1 hm
      cases ha
  · obtain ⟨hm, hne⟩ := List.mem_filter.1 hm
    have hm := hl.queued ht' hm
    rw [hq] at hm
    refine (List.mem_cons.1 hm).resolve_left fun he => ?_
    subst he
    rw [ht] at ht'
    cases ht'
    simp at hne
  · by_cases he : slot' = slot
    · subst he
      rw [ht] at ht'
      cases ht'
      exact (hl.answered ht).append_ran
    · refine (hl.answered ht').append (by simp) fun hm => List.mem_filter.2 ⟨hm.resolve_right (fun ha => ha), ?_⟩
      simpa using fun hs => he (hl.distinct ht' ht hs)

/-- a slot that nobody lives in is passed over -/
theorem Law.skip (hl : t.Law past) {rest : List Nat} (hq : t.queue = slot :: rest) (ht : t.slots.get? slot = none) :
    ({ t with queue := rest } : Tasks U F).Law past := by
  refine ⟨hl.tidy, hl.fresh, hl.distinct, hl.asked, fun {slot' tenant'} ht' hm => ?_, hl.pushed, hl.answered⟩
  have hm := hl.queued ht' hm
  rw [hq] at hm
  refine (List.mem_cons.1 hm).resolve_left fun he => ?_
  rw [he, ht] at ht'
  cases ht'

/-- a task's work may be replaced, and a task may leave -/
theorem Law.of_slots (hl : t.Law past) {slots : Slots (Tenant U F)} (htidy : slots.Tidy)
    (hs : ∀ {slot tenant}, slots.get? slot = some tenant →
      ∃ old, t.slots.get? slot = some old ∧ old.serial = tenant.serial) :
    ({ t with slots } : Tasks U F).Law past := by
  refine ⟨htidy, fun ht => ?_, fun ht ht' he => ?_, hl.asked, fun ht hm => ?_, fun ht => ?_, fun ht => ?_⟩
  · obtain ⟨old, hold, hserial⟩ := hs ht
    exact hserial ▸ hl.fresh hold
  · obtain ⟨old, hold, hserial⟩ := hs ht
    obtain ⟨old', hold', hserial'⟩ := hs ht'
    exact hl.distinct hold hold' (hserial.trans (he.trans hserial'.symm))
  · obtain ⟨old, hold, hserial⟩ := hs ht
    exact hl.queued hold (hserial ▸ hm)
  · obtain ⟨old, hold, hserial⟩ := hs ht
    exact hserial ▸ hl.pushed hold
  · obtain ⟨old, hold, hserial⟩ := hs ht
    exact hserial ▸ hl.answered hold

/-! ## Runs and polls -/

theorem wakes_slots (t : Tasks U F) (hs : List Handle) :
    (hs.foldl Tasks.wake t).slots = t.slots ∧ (hs.foldl Tasks.wake t).nextSerial = t.nextSerial := by
  induction hs generalizing t with
  | nil => exact ⟨rfl, rfl⟩
  | cons h rest ih =>
    obtain ⟨hslots, hserial⟩ := t.wake_slots h
    exact ⟨(ih _).1.trans hslots, (ih _).2.trans hserial⟩

/-- what a run of a slot leaves in the slots: nobody lived there, or the tenant's work is new, or the tenant has left -/
theorem runSlot_cases (r : Runner E F ε) (t : Tasks U F) (env : E) (slot : Nat) :
    (runSlot r t env slot).tasks.nextSerial = t.nextSerial ∧
    (t.slots.get? slot = none ∧ (runSlot r t env slot).tasks.slots = t.slots ∧
        (runSlot r t env slot).completed = none ∧ (runSlot r t env slot).env = r.note env (.staleWake slot) ∨
      ∃ tenant, t.slots.get? slot = some tenant ∧
        ((runSlot r t env slot).completed = none ∧
            (runSlot r t env slot).tasks.slots =
              t.slots.set slot { tenant with work := (r.run ⟨slot, tenant.serial⟩ env tenant.work).work } ∧
            (runSlot r t env slot).env = (r.run ⟨slot, tenant.serial⟩ env tenant.work).env ∨
          ∃ outcome, (runSlot r t env slot).completed = some ⟨tenant.serial, tenant.userdata, outcome⟩ ∧
            (runSlot r t env slot).tasks.slots = t.slots.erase slot ∧
            (runSlot r t env slot).env =
              r.note (r.run ⟨slot, tenant.serial⟩ env tenant.work).env (.completed slot))) := by
  unfold runSlot
  cases ht : t.slots.get? slot with
  | none => exact ⟨rfl, .inl ⟨rfl, rfl, rfl, rfl⟩⟩
  | some tenant =>
    obtain ⟨hslots, hserial⟩ := wakes_slots { t with marked := t.marked.filter (· != tenant.serial) }
      (r.run ⟨slot, tenant.serial⟩ env tenant.work).woken
    dsimp only
    cases ho : (r.run ⟨slot, tenant.serial⟩ env tenant.work).outcome with
    | none => exact ⟨hserial, .inr ⟨tenant, rfl, .inl ⟨rfl, by rw [hslots], rfl⟩⟩⟩
    | some outcome => exact ⟨hserial, .inr ⟨tenant, rfl, .inr ⟨outcome, rfl, by rw [hslots], rfl⟩⟩⟩

/-- running the slot at the head of the queue, if the handles that the run wakes are of these tasks -/
theorem Law.runSlot (hl : t.Law past) {rest : List Nat} (hq : t.queue = slot :: rest) (r : Runner E F ε) (env : E)
    (hn : ∀ {tenant}, t.slots.get? slot = some tenant →
      ∀ h ∈ (r.run ⟨slot, tenant.serial⟩ env tenant.work).woken, t.Names h) :
    (runSlot r { t with queue := rest } env slot).tasks.Law
      (past ++ (runSlot r { t with queue := rest } env slot).course.map .task) := by
  unfold Tasks.runSlot
  cases ht : t.slots.get? slot with
  | none => simpa [ht] using hl.skip hq ht
  | some tenant =>
    dsimp only
    have htaken := hl.take hq ht
    have hlaw := htaken.wakes (r.run ⟨slot, tenant.serial⟩ env tenant.work).woken
      fun h hm => ⟨(hn ht h hm).serial, (hn ht h hm).slot⟩
    obtain ⟨hslots, -⟩ := wakes_slots { t with queue := rest, marked := t.marked.filter (· != tenant.serial) }
      (r.run ⟨slot, tenant.serial⟩ env tenant.work).woken
    cases ho : (r.run ⟨slot, tenant.serial⟩ env tenant.work).outcome with
    | none =>
      simp only [courseOf, Option.isSome_none, Bool.false_eq_true, if_false, List.append_nil, List.map_cons,
        List.map_map]
      rw [List.append_assoc] at hlaw
      refine hlaw.of_slots (hlaw.tidy.set slot _) fun {slot' tenant'} ht' => ?_
      rw [hslots] at ht' ⊢
      rw [Slots.get?_set ht] at ht'
      split at ht'
      · next he =>
        cases ht'
        exact ⟨tenant, he ▸ ht, rfl⟩
      · exact ⟨tenant', ht', rfl⟩
    | some outcome =>
      simp only [courseOf, Option.isSome_some, if_true, List.map_append, List.map_cons, List.map_map, List.map_nil]
      rw [List.append_assoc] at hlaw
      have hended := hlaw.ended ⟨slot, tenant.serial⟩
      rw [List.append_assoc] at hended
      refine hended.of_slots (hlaw.tidy.erase slot) fun {slot' tenant'} ht' => ?_
      rw [Slots.get?_erase] at ht'
      split at ht'
      · cases ht'
      · exact ⟨tenant', ht', rfl⟩

/-- what holds of tasks, environment, a task that has just ended and the course so far, and is kept by every run of a
slot, holds after a poll; and the queue is empty if no task ended in the poll -/
theorem poll_keeps {P : Tasks U F → E → Option (Completed U ε) → List Happening → Prop} {r : Runner E F ε}
    (hstep : ∀ {t env course slot rest}, P t env none course → t.queue = slot :: rest →
      P (runSlot r { t with queue := rest } env slot).tasks (runSlot r { t with queue := rest } env slot).env
        (runSlot r { t with queue := rest } env slot).completed
        (course ++ (runSlot r { t with queue := rest } env slot).course))
    {limit : Nat} {env : E} (course : List Happening) {p : Polled U F E ε} (h : P t env none course)
    (hp : poll r limit t env = some p) :
    P p.tasks p.env p.completed (course ++ p.course) ∧ (p.completed = none → p.tasks.queue = []) := by
  induction limit generalizing t env course p with
  | zero =>
    unfold poll at hp
    split at hp
    · next hq =>
      cases hp
      exact ⟨by simpa using h, fun _ => List.isEmpty_iff.1 hq⟩
    · cases hp
  | succ limit ih =>
    unfold poll at hp
    cases hq : t.queue with
    | nil =>
      rw [hq] at hp
      cases hp
      exact ⟨by simpa using h, fun _ => hq⟩
    | cons slot rest =>
      rw [hq] at hp
      have hafter := hstep h hq
      cases hc : (Tasks.runSlot r { t with queue := rest } env slot).completed with
      | some c =>
        simp only [hc] at hp
        cases hp
        exact ⟨hafter, fun hn => by rw [hc] at hn; cases hn⟩
      | none =>
        simp only [hc, Option.map_eq_some_iff] at hp
        obtain ⟨q, hq, rfl⟩ := hp
        rw [hc] at hafter
        have hrest := ih _ hafter hq
        rw [List.append_assoc] at hrest
        exact hrest

end Tasks

end EventServer
