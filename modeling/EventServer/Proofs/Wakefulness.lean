/-
Wakefulness: in a session no wake is lost.

Whoever asks for a task that is in flight, by pushing it or by waking a handle of it, has it run before any later poll
returns nothing. For a task that is still in flight this is the schedule's law (`Tasks.Law.heard`). For a task that has
ended since then, the run that ended it came after the request, so it was the answer; the one request that has no answer
is a wake from within that very run (`EndsNow`), after which there is nothing left to run.

`Session.heard` carries both over a session, and `no_wake_lost` is the result.
-/
import EventServer.Proofs.Lifetimes

namespace EventServer

open TaskEvent Tasks

variable {U F E ε : Type}

/-- whether the event asks for the handle's task -/
def TaskEvent.asksFor (h : Handle) : TaskEvent U ε → Prop
  | pushed asked _ => asked = h
  | woken asked => asked = h
  | _ => False

/-- the task is run before a poll returns nothing -/
def RanBefore (h : Handle) (later : List (TaskEvent U ε)) : Prop :=
  ∃ before after, later = before ++ .ran h :: after ∧ .returned none ∉ before

/-- the run under way ends the task -/
def EndsNow (h : Handle) (later : List (TaskEvent U ε)) : Prop :=
  ∃ (handles : List Handle) (outcome : Except ε Unit) (after : List (TaskEvent U ε)),
    later = handles.map .woken ++ .ended h outcome :: after

/-- every request for a task in flight was heard, or it may be pending still and no poll has returned nothing since -/
def Heard (pending : Prop) (past : List (TaskEvent U ε)) (h : Handle) : Prop :=
  ∀ earlier asked later, past = earlier ++ asked :: later → asked.asksFor h → (∀ outcome, .ended h outcome ∉ earlier) →
    RanBefore h later ∨ EndsNow h later ∨ pending ∧ .returned none ∉ later

theorem RanBefore.append {h : Handle} {later : List (TaskEvent U ε)} (hr : RanBefore h later)
    (events : List (TaskEvent U ε)) : RanBefore h (later ++ events) := by
  obtain ⟨before, after, rfl, hnone⟩ := hr
  exact ⟨before, after ++ events, by simp, hnone⟩

theorem EndsNow.append {h : Handle} {later : List (TaskEvent U ε)} (he : EndsNow h later)
    (events : List (TaskEvent U ε)) : EndsNow h (later ++ events) := by
  obtain ⟨handles, outcome, after, rfl⟩ := he
  exact ⟨handles, outcome, after ++ events, by simp⟩

theorem Heard.mono {pending pending' : Prop} {past : List (TaskEvent U ε)} {h : Handle} (hh : Heard pending past h)
    (hp : pending → pending') : Heard pending' past h := fun earlier asked later he hasks hlive =>
  (hh earlier asked later he hasks hlive).imp_right (.imp_right (.imp_left hp))

/-- what was heard stays so, and what is pending is pending still or answered by the events to come -/
theorem Heard.append {pending pending' : Prop} {past events : List (TaskEvent U ε)} {h : Handle}
    (hh : Heard pending past h)
    (hpending : pending → RanBefore h events ∨ pending' ∧ .returned none ∉ events)
    (hevents : ∀ middle asked later, events = middle ++ asked :: later → asked.asksFor h →
      (∀ outcome, .ended h outcome ∉ past ++ middle) →
      RanBefore h later ∨ EndsNow h later ∨ pending' ∧ .returned none ∉ later) :
    Heard pending' (past ++ events) h := by
  intro earlier asked later he hasks hlive
  rcases append_cons_cases he with ⟨middle, rfl, hsplit⟩ | ⟨rest, rfl, hpast⟩
  · exact hevents middle asked later hsplit hasks hlive
  · rcases hh earlier asked rest hpast hasks hlive with hran | hends | ⟨hp, hnone⟩
    · exact .inl (hran.append events)
    · exact .inr (.inl (hends.append events))
    · refine (hpending hp).imp (fun hran => ?_) fun ⟨hp', hevents⟩ => .inr ⟨hp', ?_⟩
      · obtain ⟨before, after, rfl, hbefore⟩ := hran
        exact ⟨rest ++ before, after, by simp, by simp [hnone, hbefore]⟩
      · simp [hnone, hevents]

/-! ## What the schedule says -/

theorem asks_of_asksFor {asked : TaskEvent U ε} {h : Handle} (ha : asked.asksFor h) :
    ∃ moment, asked.moment? = some moment ∧ moment.asks h.serial := by
  cases asked with
  | pushed asked userdata => exact ⟨_, rfl, congrArg Handle.serial ha⟩
  | woken asked => exact ⟨_, rfl, congrArg Handle.serial ha⟩
  | _ => cases ha

theorem RanBefore.of_moments {h : Handle} {later : List (TaskEvent U ε)} (hr : RunBeforeWait h (moments later)) :
    RanBefore h later := by
  obtain ⟨before, after, he, hwait⟩ := hr
  obtain ⟨first, second, rfl, rfl, hsecond⟩ := List.filterMap_eq_append_iff.1 he
  obtain ⟨skipped, event, rest, rfl, hskipped, hevent, -⟩ := List.filterMap_eq_cons_iff.1 hsecond
  have hran : event = .ran h := by
    cases event with
    | returned completed => cases completed <;> cases hevent
    | _ => cases hevent <;> rfl
  subst hran
  refine ⟨first ++ skipped, rest, by simp, fun hm => ?_⟩
  rcases List.mem_append.1 hm with hm | hm
  · exact hwait (List.mem_filterMap.2 ⟨_, hm, rfl⟩)
  · cases hskipped _ hm

theorem Tasks.Law.heard {t : Tasks U F} {past : List (TaskEvent U ε)} {h : Handle} {userdata : Option U}
    (hl : t.Law (moments past)) (hlives : Lives (some t) h userdata) : Heard True past h := by
  intro earlier asked later he hasks _
  obtain ⟨tenant, ht, hserial, -⟩ := lives_some.1 hlives
  obtain ⟨moment, hmoment, hasks⟩ := asks_of_asksFor hasks
  have hsplit : moments past = moments earlier ++ moment :: moments later := by simp [he, hmoment]
  have hhandle : (⟨h.slot, tenant.serial⟩ : Handle) = h := by rw [hserial]
  have hanswered := hl.answered ht
  rw [hhandle] at hanswered
  refine (hanswered _ _ _ hsplit hasks).imp .of_moments fun ⟨_, hwait⟩ => .inr ⟨trivial, fun hm => hwait ?_⟩
  exact List.mem_filterMap.2 ⟨_, hm, rfl⟩

/-! ## Sessions -/

variable {r : Runner E F ε} {x : Option (Tasks U F)} {t : Tasks U F} {past : List (TaskEvent U ε)} {h : Handle}

/-- a request is pending as long as its task is in flight, or for ever once there is nobody left to poll -/
abbrev Pending (x : Option (Tasks U F)) (h : Handle) : Prop := x = none ∨ ∃ userdata, Lives x h userdata

/-- a task that was pushed and is not in flight any more has ended -/
theorem Accounts.ended {userdata : Option U} (ha : Accounts (some t) past) (hp : .pushed h userdata ∈ past)
    (hdead : ¬ ∃ userdata, Lives (some t) h userdata) : ∃ outcome, .ended h outcome ∈ past := by
  cases ha.fates hp with
  | inFlight hl _ => exact absurd ⟨userdata, hl⟩ hdead
  | finished earlier outcome later hpast _ _ => exact ⟨outcome, by simp [hpast]⟩
  | abandoned _ _ hdrop _ _ _ => cases hdrop

/-- who has ended is never asked for again -/
theorem Accounts.heard_append (ha : Accounts (some t) past) {pending : Prop} {events : List (TaskEvent U ε)}
    (hh : Heard (Pending (some t) h) past h)
    (hdead : ¬ ∃ userdata, Lives (some t) h userdata)
    (hknown : ∀ asked ∈ events, asked.asksFor h → ∃ userdata, .pushed h userdata ∈ past) :
    Heard pending (past ++ events) h := by
  refine hh.append (fun hp => ?_) fun middle asked later he hasks hlive => ?_
  · exact absurd (hp.resolve_left (by simp)) hdead
  · obtain ⟨userdata, hp⟩ := hknown asked (by simp [he]) hasks
    obtain ⟨outcome, hended⟩ := ha.ended hp hdead
    exact absurd (List.mem_append_left _ hended) (hlive outcome)

/-- the run that ends a task answers what was asked before it, and what is asked in it has no answer -/
theorem Tasks.Law.heard_finish {slot : Nat} {tenant : Tenant U F} (hl : t.Law (moments past)) {pending : Prop}
    (ht : t.slots.get? slot = some tenant) (handles : List Handle) (outcome : Except ε Unit)
    (after : List (TaskEvent U ε)) (hafter : ∀ event ∈ after, ¬ event.asksFor ⟨slot, tenant.serial⟩) :
    Heard pending (past ++ (.ran ⟨slot, tenant.serial⟩ :: handles.map .woken ++
      .ended ⟨slot, tenant.serial⟩ outcome :: after)) ⟨slot, tenant.serial⟩ := by
  refine (hl.heard (lives_some.2 ⟨tenant, ht, rfl, rfl⟩)).append (fun _ => .inl ⟨[], _, rfl, by simp⟩)
    fun middle asked later he hasks _ => ?_
  rcases append_cons_cases he with ⟨rest, -, hsplit⟩ | ⟨rest, rfl, hsplit⟩
  · cases rest with
    | nil =>
      obtain ⟨rfl, -⟩ := List.cons.inj hsplit
      cases hasks
    | cons first rest =>
      obtain ⟨-, rfl⟩ := List.cons.inj hsplit
      exact absurd hasks (hafter asked (by simp))
  · cases middle with
    | nil =>
      obtain ⟨rfl, -⟩ := List.cons.inj hsplit
      cases hasks
    | cons first middle =>
      obtain ⟨-, hsplit⟩ := List.cons.inj hsplit
      obtain ⟨before, last, -, -, hlast⟩ := List.map_eq_append_iff.1 hsplit
      obtain ⟨_, handles, -, -, rfl⟩ := List.map_eq_cons_iff.1 hlast
      exact .inr (.inl ⟨handles, outcome, after, rfl⟩)

/-- a task in flight is the schedule's affair -/
theorem Session.heard_live (hs : Session r (some t) past) (hl : ∃ userdata, Lives (some t) h userdata) :
    Heard (Pending (some t) h) past h :=
  ((hs.lawful rfl).1.heard hl.choose_spec).mono fun _ => .inr hl

/-- a step after which the task is not in flight, if it was not in flight before and is not asked for unless it was
pushed -/
theorem Session.heard_step {t' : Tasks U F} {events : List (TaskEvent U ε)} (hs : Session r (some t) past)
    (hs' : Session r (some t') (past ++ events)) (hh : Heard (Pending (some t) h) past h)
    (hdead : ∀ userdata, Lives (some t) h userdata → ∃ userdata, Lives (some t') h userdata)
    (hknown : (¬ ∃ userdata, Lives (some t') h userdata) →
      ∀ asked ∈ events, asked.asksFor h → ∃ userdata, .pushed h userdata ∈ past) :
    Heard (Pending (some t') h) (past ++ events) h := by
  by_cases hl : ∃ userdata, Lives (some t') h userdata
  · exact hs'.heard_live hl
  · exact hs.accounts.heard_append hh (fun ⟨userdata, hold⟩ => hl (hdead userdata hold)) (hknown hl)

/-- the turn of a slot: it keeps its task, or it ends the one that it has -/
theorem Session.heard_turn {slot : Nat} (env : E) (hs : Session r (some t) past) (hq : t.queue.head? = some slot)
    (hknown : ∀ h, .woken h ∈ t.turnEvents r env slot → ∃ userdata, .pushed h userdata ∈ past)
    (hh : Heard (Pending (some t) h) past h) :
    Heard (Pending (some (t.turn r env slot).tasks) h) (past ++ t.turnEvents r env slot) h := by
  have hlaw := (hs.lawful rfl).1
  have hasked : ∀ asked ∈ t.turnEvents r env slot, asked.asksFor h → ∃ userdata, .pushed h userdata ∈ past := by
    intro asked hm hasks
    cases asked with
    | pushed asked userdata => exact absurd hm (hlaw.pushed_notMem_turnEvents r env slot asked userdata)
    | woken asked => exact hknown h (hasks ▸ hm)
    | _ => cases hasks
  have hkept (hlives : ∀ userdata, Lives (some t) h userdata → Lives (some (t.turn r env slot).tasks) h userdata) :
      Heard (Pending (some (t.turn r env slot).tasks) h) (past ++ t.turnEvents r env slot) h :=
    hs.heard_step (hs.turn env hq hknown) hh (fun userdata hold => ⟨userdata, hlives userdata hold⟩) fun _ => hasked
  rcases hlaw.turnEvents_cases r env slot with
    ⟨-, hslots, -⟩ | ⟨tenant, handles, ht, ⟨⟨work, hslots⟩, -⟩ | ⟨outcome, hslots, hevents⟩⟩
  · exact hkept fun _ => (lives_of_slots hslots).2
  · exact hkept fun _ => (lives_of_set ht hslots).2
  · by_cases hself : h = ⟨slot, tenant.serial⟩
    · subst hself
      rw [hevents]
      exact hlaw.heard_finish ht handles outcome _ (by simp [asksFor])
    · refine hkept fun userdata hold => (lives_of_erase hslots).2 ⟨hold, fun hslot => hself ?_⟩
      obtain ⟨tenant', ht', hserial, -⟩ := lives_some.1 hold
      rw [hslot, ht] at ht'
      cases ht'
      cases h
      simp_all

/-- all requests for the task of a handle were heard, whatever has become of it -/
theorem Session.heard (hs : Session r x past) (h : Handle) : Heard (Pending x h) past h := by
  induction hs with
  | start =>
    intro earlier asked later he
    simp at he
  | @step x _ past _ hs hstep ih => cases hstep with
  | @push t work userdata =>
    have hlaw := (hs.lawful rfl).1
    have hlives : ∀ userdata', Lives (some (t.push work userdata).state) h userdata' ↔
        Lives (some t) h userdata' ∨ h = (t.push work userdata).value ∧ userdata' = userdata := fun _ =>
      lives_push hlaw.tidy work userdata
    refine hs.heard_step (hs.step (.push work userdata)) ih
      (fun userdata' hold => ⟨userdata', (hlives userdata').2 (.inl hold)⟩) fun hl asked hm hasks => ?_
    rw [hlaw.releases_push] at hm
    cases List.mem_singleton.1 hm
    exact absurd ⟨userdata, (hlives userdata).2 (.inr ⟨hasks.symm, rfl⟩)⟩ hl
  | @wake _ h' userdata hp =>
    cases x with
    | none =>
      rw [releases_wake]
      refine ih.append (fun _ => .inr ⟨.inl rfl, by simp⟩) fun middle asked later he _ _ => ?_
      obtain ⟨-, -, rfl⟩ : middle = [] ∧ asked = .woken h' ∧ later = [] := by
        simpa [List.singleton_eq_append_iff, List.cons_eq_append_iff] using he
      exact .inr (.inr ⟨.inl rfl, by simp⟩)
    | some t =>
      refine hs.heard_step (hs.step (.wake hp)) ih (fun userdata hold => ⟨userdata, (lives_wake (some t) h').2 hold⟩)
        fun _ asked hm hasks => ?_
      rw [releases_wake] at hm
      cases List.mem_singleton.1 hm
      exact ⟨userdata, hasks ▸ hp⟩
  | turn env hq hknown => exact hs.heard_turn env hq hknown ih
  | @idle t hq =>
    refine hs.heard_step (hs.step (.idle hq)) ih (fun userdata hold => ⟨userdata, hold⟩) fun _ asked hm hasks => ?_
    cases List.mem_singleton.1 hm
    cases hasks
  | drop =>
    refine ih.append (fun _ => .inr ⟨.inl rfl, by simp [releases]⟩) fun middle asked later he hasks _ => ?_
    have hm : asked ∈ .dropped :: releases x none := by simp [he]
    rcases List.mem_cons.1 hm with rfl | hm
    · cases hasks
    · obtain ⟨serial, -, rfl⟩ := List.mem_map.1 hm
      cases hasks

/-- what comes before a poll returns nothing -/
theorem eq_append_of_before {between later before after : List (TaskEvent U ε)} {event : TaskEvent U ε}
    (he : between ++ .returned none :: later = before ++ event :: after) (hevent : event ≠ .returned none)
    (hbefore : .returned none ∉ before) : ∃ rest, between = before ++ event :: rest := by
  rcases append_cons_cases he with ⟨middle, rfl, hsplit⟩ | ⟨rest, -, hbetween⟩
  · cases middle with
    | nil => exact absurd (List.cons.inj hsplit).1.symm hevent
    | cons first rest =>
      obtain ⟨rfl, -⟩ := List.cons.inj hsplit
      simp at hbefore
  · exact ⟨rest, hbetween⟩

/-- **No wake is lost.** In every session a task in flight whose mark stands has its slot in the queue. And whenever a
task in flight is asked for, by being pushed or through any of its handles, from outside, from another task's run or
from its own, then it is run before a later poll returns nothing, unless it is the run under way that ends it. -/
theorem no_wake_lost (hs : Session r x past) :
    (∀ t slot tenant, x = some t → t.slots.get? slot = some tenant → tenant.serial ∈ t.marked → slot ∈ t.queue) ∧
    ∀ earlier asked between later h, past = earlier ++ asked :: between ++ .returned none :: later →
      asked.asksFor h → (∀ outcome, .ended h outcome ∉ earlier) →
      (∀ (handles : List Handle) outcome after, between ≠ handles.map .woken ++ .ended h outcome :: after) →
      .ran h ∈ between := by
  refine ⟨fun t slot tenant hx ht hm => (hs.lawful hx).1.queued ht hm,
    fun earlier asked between later h he hasks hlive hgoes => ?_⟩
  have he : past = earlier ++ asked :: (between ++ .returned none :: later) := by simpa using he
  rcases hs.heard h earlier asked _ he hasks hlive with
    ⟨before, after, hsplit, hnone⟩ | ⟨handles, outcome, after, hsplit⟩ | ⟨-, hnone⟩
  · obtain ⟨rest, rfl⟩ := eq_append_of_before hsplit (by simp) hnone
    simp
  · obtain ⟨rest, hbetween⟩ := eq_append_of_before hsplit (by simp) (by simp)
    exact absurd hbetween (hgoes handles outcome rest)
  · simp at hnone

namespace Errands

/-- the task that woke itself is found in the next poll, behind the queued slot of one that is gone -/
def revived : List (TaskEvent Nat Unit) :=
  recycled.take 14 ++
    [.ran ⟨1, 1⟩, .ended ⟨1, 1⟩ (.ok ()), .released 1, .returned (some ⟨1, some 11, .ok ()⟩), .returned none]

theorem session_revived : ∃ t, Session runner (some t) revived := by
  have passed : Session runner (some (fourth.turn runner () 0).tasks) (revived.take 14) :=
    session_reused.turn () rfl fun h hm => by
      have hm : TaskEvent.woken h ∈ ([] : List (TaskEvent Nat Unit)) := hm
      cases hm
  have ended : Session runner (some ((fourth.turn runner () 0).tasks.turn runner () 1).tasks) (revived.take 18) :=
    passed.turn () rfl fun h hm => by
      have hm : TaskEvent.woken h ∈ (revived.drop 14).take 4 := hm
      simp [revived, recycled] at hm
  exact ⟨_, ended.step (.idle rfl)⟩

end Errands

theorem no_wake_lost_revived :
    ∃ earlier between, Errands.revived = earlier ++ .woken ⟨1, 1⟩ :: between ++ [.returned none] ∧
      .ran ⟨1, 1⟩ ∈ between := by
  obtain ⟨t, hs⟩ := Errands.session_revived
  refine ⟨Errands.revived.take 9, (Errands.revived.drop 10).take 8, rfl, ?_⟩
  refine (no_wake_lost hs).2 (Errands.revived.take 9) (.woken ⟨1, 1⟩) _ [] ⟨1, 1⟩ rfl rfl ?_ ?_
  · simp [Errands.revived, Errands.recycled]
  · intro handles outcome after
    cases handles <;> simp [Errands.revived, Errands.recycled]

end EventServer
