/-
Lifetimes: what becomes of every task that is pushed in a session.

There are three fates (`Fate`). A task is in flight under its own handle and with its own userdata; or it is finished:
its run ended it, its work was released, and the poll returned it with its userdata and its outcome, each of these once
and in this order; or it was abandoned in the drop, which released its work. A finished or abandoned task is never run
again.

`Accounts` is the invariant behind it. The steps that end no task are all alike (`Accounts.quietly`); `Accounts.push`,
`Accounts.finish` and `Accounts.drop` are those that begin or end a lifetime. `exactly_once` is the result.
-/
import EventServer.Proofs.Session

namespace EventServer

variable {U F E ε : Type}

namespace TaskEvent

/-- whether the event is an end of the task, the release of its work or its return -/
def settles (serial : Nat) : TaskEvent U ε → Prop
  | ended h _ => h.serial = serial
  | .released gone => gone = serial
  | returned (some completed) => completed.serial = serial
  | _ => False

/-- whether the task is run -/
def runs (serial : Nat) : TaskEvent U ε → Prop
  | ran h => h.serial = serial
  | _ => False

def enrolled? : TaskEvent U ε → Option (Handle × Option U)
  | pushed h userdata => some (h, userdata)
  | _ => none

def completed? : TaskEvent U ε → Option (Completed U ε)
  | returned completed => completed
  | _ => none

/-- the handles that were given out, with the userdata that they were given for -/
def pushes (past : List (TaskEvent U ε)) : List (Handle × Option U) := past.filterMap enrolled?

/-- the tasks that polls returned -/
def completions (past : List (TaskEvent U ε)) : List (Completed U ε) := past.filterMap completed?

@[simp] theorem pushes_append (past later : List (TaskEvent U ε)) :
    pushes (past ++ later) = pushes past ++ pushes later :=
  List.filterMap_append

@[simp] theorem completions_append (past later : List (TaskEvent U ε)) :
    completions (past ++ later) = completions past ++ completions later :=
  List.filterMap_append

theorem mem_pushes {past : List (TaskEvent U ε)} {h : Handle} {userdata : Option U} :
    (h, userdata) ∈ pushes past ↔ .pushed h userdata ∈ past := by
  constructor
  · intro hm
    obtain ⟨event, hevent, he⟩ := List.mem_filterMap.1 hm
    cases event with
    | pushed h' userdata' =>
      cases he
      exact hevent
    | _ => cases he
  · exact fun hm => List.mem_filterMap.2 ⟨_, hm, rfl⟩

end TaskEvent

open TaskEvent Tasks

/-- the task of the handle is in flight with the userdata -/
def Lives (x : Option (Tasks U F)) (h : Handle) (userdata : Option U) : Prop :=
  ∃ t tenant, x = some t ∧ t.slots.get? h.slot = some tenant ∧ tenant.serial = h.serial ∧ tenant.userdata = userdata

/-- what has become of a task that was pushed -/
inductive Fate (x : Option (Tasks U F)) (past : List (TaskEvent U ε)) (h : Handle) (userdata : Option U) : Prop
  | inFlight (hlives : Lives x h userdata) (hquiet : ∀ event ∈ past, ¬ event.settles h.serial)
  | finished (earlier : List (TaskEvent U ε)) (outcome : Except ε Unit) (later : List (TaskEvent U ε))
      (hpast : past = earlier ++ .ended h outcome :: .released h.serial ::
        .returned (some ⟨h.serial, userdata, outcome⟩) :: later)
      (hbefore : ∀ event ∈ earlier, ¬ event.settles h.serial)
      (hafter : ∀ event ∈ later, ¬ event.settles h.serial ∧ ¬ event.runs h.serial)
  | abandoned (earlier later : List (TaskEvent U ε)) (hdrop : x = none)
      (hpast : past = earlier ++ .released h.serial :: later) (hdropped : .dropped ∈ earlier)
      (hbefore : ∀ event ∈ earlier, ¬ event.settles h.serial)
      (hafter : ∀ event ∈ later, ¬ event.settles h.serial ∧ ¬ event.runs h.serial)

/-- the books of a session -/
structure Accounts (x : Option (Tasks U F)) (past : List (TaskEvent U ε)) : Prop where
  enrolled : ∀ {h userdata}, Lives x h userdata → .pushed h userdata ∈ past
  fates : ∀ {h userdata}, .pushed h userdata ∈ past → Fate x past h userdata
  quiet : ∀ {h userdata}, Lives x h userdata → ∀ event ∈ past, ¬ event.settles h.serial
  known : ∀ event ∈ past, ∀ serial, event.settles serial ∨ event.runs serial →
    ∃ h userdata, .pushed h userdata ∈ past ∧ h.serial = serial
  distinct : ((pushes past).map (·.1.serial)).Nodup
  count : ∀ {t}, x = some t → t.size + (completions past).length = (pushes past).length
  undropped : ∀ {t}, x = some t → .dropped ∉ past
  still : ∀ earlier later, past = earlier ++ .dropped :: later → ∀ h, .ran h ∉ later

/-! ## Who lives -/

section Lives

variable {t t' : Tasks U F} {h : Handle} {userdata : Option U} {slot : Nat} {tenant : Tenant U F}

theorem lives_some : Lives (some t) h userdata ↔
    ∃ tenant, t.slots.get? h.slot = some tenant ∧ tenant.serial = h.serial ∧ tenant.userdata = userdata := by
  constructor
  · rintro ⟨t', tenant, he, ht⟩
    cases he
    exact ⟨tenant, ht⟩
  · rintro ⟨tenant, ht⟩
    exact ⟨t, tenant, rfl, ht⟩

theorem not_lives_none : ¬ Lives (none : Option (Tasks U F)) h userdata := by
  rintro ⟨t, tenant, he, -⟩
  cases he

theorem lives_push (hl : t.slots.Tidy) (work : F) (enrolled : Option U) :
    Lives (some (t.push work enrolled).state) h userdata ↔
      Lives (some t) h userdata ∨ h = (t.push work enrolled).value ∧ userdata = enrolled := by
  rw [lives_some, lives_some, show (t.push work enrolled).state.slots =
    t.slots.insert ⟨t.nextSerial, work, enrolled⟩ from rfl, Slots.get?_insert hl]
  constructor
  · rintro ⟨tenant, ht, hserial, huserdata⟩
    split at ht
    · next hslot =>
      cases ht
      exact .inr ⟨by cases h; simp_all [Tasks.push], huserdata.symm⟩
    · exact .inl ⟨tenant, ht, hserial, huserdata⟩
  · rintro (⟨tenant, ht, hrest⟩ | ⟨rfl, rfl⟩)
    · refine ⟨tenant, ?_, hrest⟩
      rw [if_neg fun he => ?_]
      · exact ht
      · rw [he, Slots.get?_nextKey hl] at ht
        cases ht
    · exact ⟨_, if_pos rfl, rfl, rfl⟩

theorem lives_of_slots (hs : t'.slots = t.slots) : Lives (some t') h userdata ↔ Lives (some t) h userdata := by
  rw [lives_some, lives_some, hs]

theorem lives_wake (x : Option (Tasks U F)) (woken : Handle) :
    Lives (x.map (·.wake woken)) h userdata ↔ Lives x h userdata := by
  cases x with
  | none => exact Iff.rfl
  | some t => exact lives_of_slots (t.wake_slots woken).1

theorem lives_of_set (ht : t.slots.get? slot = some tenant) {work : F}
    (hs : t'.slots = t.slots.set slot { tenant with work }) :
    Lives (some t') h userdata ↔ Lives (some t) h userdata := by
  rw [lives_some, lives_some, hs, Slots.get?_set ht]
  split
  · next he => simp [he, ht]
  · exact Iff.rfl

theorem lives_of_erase (hs : t'.slots = t.slots.erase slot) :
    Lives (some t') h userdata ↔ Lives (some t) h userdata ∧ h.slot ≠ slot := by
  rw [lives_some, lives_some, hs, Slots.get?_erase]
  split <;> simp_all

end Lives

/-! ## Steps -/

/-- an element of two lists in a row is one of the second or one of the first -/
theorem append_cons_cases {α : Type} {past events earlier later : List α} {event : α}
    (he : past ++ events = earlier ++ event :: later) :
    (∃ middle, earlier = past ++ middle ∧ events = middle ++ event :: later) ∨
      ∃ rest, later = rest ++ events ∧ past = earlier ++ event :: rest := by
  rcases List.append_eq_append_iff.1 he with ⟨middle, hearlier, hevents⟩ | ⟨middle, hpast, hlater⟩
  · exact .inl ⟨middle, hearlier, hevents⟩
  · cases middle with
    | nil => exact .inl ⟨[], by simpa using hpast.symm, by simpa using hlater.symm⟩
    | cons first rest =>
      obtain ⟨rfl, rfl⟩ := List.cons.inj hlater
      exact .inr ⟨rest, rfl, hpast⟩

/-- where the one element of a kind stands -/
theorem eq_of_only {α : Type} {P : α → Prop} {earlier later before after : List α} {event only : α}
    (he : earlier ++ event :: later = before ++ only :: after) (hkind : P event)
    (hbefore : ∀ other ∈ before, ¬ P other) (hafter : ∀ other ∈ after, ¬ P other) : later = after := by
  rcases append_cons_cases he.symm with ⟨middle, -, hrest⟩ | ⟨rest, -, hpast⟩
  · cases middle with
    | nil => exact (List.cons.inj hrest).2.symm
    | cons first rest =>
      obtain ⟨-, rfl⟩ := List.cons.inj hrest
      exact absurd hkind (hafter _ (by simp))
  · exact absurd hkind (hbefore _ (by simp [hpast]))

namespace Accounts

variable {x y : Option (Tasks U F)} {t : Tasks U F} {past events : List (TaskEvent U ε)} {h h' : Handle}
  {userdata userdata' : Option U}

theorem start : Accounts (some (.empty : Tasks U F)) ([] : List (TaskEvent U ε)) where
  enrolled hlives := by simp [lives_some, Tasks.empty] at hlives
  fates hp := by cases hp
  quiet _ _ he := by cases he
  known _ he := by cases he
  distinct := .nil
  count hx := by
    cases hx
    rfl
  undropped _ he := by cases he
  still earlier later he := by simp at he

/-- no two tasks were given the same serial -/
theorem eq_of_serial (ha : Accounts x past) (hp : .pushed h userdata ∈ past) (hp' : .pushed h' userdata' ∈ past)
    (he : h.serial = h'.serial) : h = h' ∧ userdata = userdata' := by
  have := List.inj_on_of_nodup_map ha.distinct (mem_pushes.2 hp) (mem_pushes.2 hp') he
  exact Prod.mk.inj this

/-- a fate is kept by events that do not settle the task, and do not run it unless it is in flight -/
theorem fate_append (ha : Accounts x past) (hp : .pushed h userdata ∈ past)
    (hlives : Lives x h userdata → Lives y h userdata) (hnone : x = none → y = none)
    (hsettles : ∀ event ∈ events, ¬ event.settles h.serial)
    (hruns : ¬ Lives x h userdata → ∀ event ∈ events, ¬ event.runs h.serial) :
    Fate y (past ++ events) h userdata := by
  have hafter : ∀ {later : List (TaskEvent U ε)}, ¬ Lives x h userdata →
      (∀ event ∈ later, ¬ event.settles h.serial ∧ ¬ event.runs h.serial) →
      ∀ event ∈ later ++ events, ¬ event.settles h.serial ∧ ¬ event.runs h.serial := fun hdead hl event hm =>
    (List.mem_append.1 hm).elim (hl event) fun hm => ⟨hsettles event hm, hruns hdead event hm⟩
  cases ha.fates hp with
  | inFlight hl hq =>
    exact .inFlight (hlives hl) fun event hm => (List.mem_append.1 hm).elim (hq event) (hsettles event)
  | finished earlier outcome later hpast hbefore hrest =>
    have hdead : ¬ Lives x h userdata := fun hl => ha.quiet hl (.ended h outcome) (by simp [hpast]) rfl
    exact .finished earlier outcome (later ++ events) (by simp [hpast]) hbefore (hafter hdead hrest)
  | abandoned earlier later hdrop hpast hdropped hbefore hrest =>
    have hdead : ¬ Lives x h userdata := hdrop ▸ not_lives_none
    exact .abandoned earlier (later ++ events) (hnone hdrop) (by simp [hpast]) hdropped hbefore (hafter hdead hrest)

theorem known_append (ha : Accounts x past)
    (hevents : ∀ event ∈ events, ∀ serial, event.settles serial ∨ event.runs serial →
      ∃ h userdata, .pushed h userdata ∈ past ∧ h.serial = serial) :
    ∀ event ∈ past ++ events, ∀ serial, event.settles serial ∨ event.runs serial →
      ∃ h userdata, .pushed h userdata ∈ past ++ events ∧ h.serial = serial := by
  intro event hm serial hs
  obtain ⟨h, userdata, hp, hserial⟩ :=
    (List.mem_append.1 hm).elim (ha.known event · serial hs) (hevents event · serial hs)
  exact ⟨h, userdata, List.mem_append_left _ hp, hserial⟩

theorem still_append (ha : Accounts x past) (hdropped : .dropped ∉ events)
    (hruns : ∀ h, .ran h ∈ events → ∃ t, x = some t) :
    ∀ earlier later, past ++ events = earlier ++ .dropped :: later → ∀ h, .ran h ∉ later := by
  intro earlier later he h hm
  rcases append_cons_cases he with ⟨middle, -, hevents⟩ | ⟨rest, rfl, hpast⟩
  · exact hdropped (by simp [hevents])
  · rcases List.mem_append.1 hm with hm | hm
    · exact ha.still earlier rest hpast h hm
    · obtain ⟨t, hx⟩ := hruns h hm
      exact ha.undropped hx (by simp [hpast])

theorem distinct_append (ha : Accounts x past) (hpushes : pushes events = []) :
    ((pushes (past ++ events)).map (·.1.serial)).Nodup := by
  rw [pushes_append, hpushes, List.append_nil]
  exact ha.distinct

/-- events that begin and end no lifetime: wakes, runs of tasks in flight and polls that return nothing -/
def Passing (x : Option (Tasks U F)) : TaskEvent U ε → Prop
  | .woken _ => True
  | .ran h => ∃ userdata, Lives x h userdata
  | .returned none => True
  | _ => False

theorem Passing.not_settles {event : TaskEvent U ε} (hp : Passing x event) (serial : Nat) : ¬ event.settles serial := by
  intro hs
  cases event with
  | returned completed => cases completed <;> contradiction
  | _ => contradiction

theorem Passing.lives {event : TaskEvent U ε} (hp : Passing x event) {serial : Nat} (hr : event.runs serial) :
    ∃ h userdata, Lives x h userdata ∧ h.serial = serial := by
  cases event with
  | ran h =>
    obtain ⟨userdata, hl⟩ := hp
    exact ⟨h, userdata, hl, hr⟩
  | _ => cases hr

theorem pushes_of_passing (hevents : ∀ event ∈ events, Passing x event) : pushes events = [] :=
  List.filterMap_eq_nil_iff.2 fun event hm => by
    have := hevents event hm
    cases event <;> first | rfl | contradiction

theorem completions_of_passing (hevents : ∀ event ∈ events, Passing x event) : completions events = [] :=
  List.filterMap_eq_nil_iff.2 fun event hm => by
    have := hevents event hm
    cases event with
    | returned completed => cases completed <;> first | rfl | contradiction
    | _ => rfl

theorem quietly (ha : Accounts x past) (hlives : ∀ h userdata, Lives y h userdata ↔ Lives x h userdata)
    (hsize : ∀ t', y = some t' → ∃ t, x = some t ∧ t'.size = t.size) (hevents : ∀ event ∈ events, Passing x event) :
    Accounts y (past ++ events) := by
  have hpushed : ∀ h userdata, .pushed h userdata ∉ events := fun h userdata hm => hevents _ hm
  have hsettles : ∀ event ∈ events, ∀ serial, ¬ event.settles serial := fun event hm => (hevents event hm).not_settles
  have hnone : x = none → y = none := fun hx => by
    cases hy : y with
    | none => rfl
    | some t' =>
      obtain ⟨t, ht, -⟩ := hsize t' hy
      rw [hx] at ht
      cases ht
  have hpushes : pushes events = [] := pushes_of_passing hevents
  have hcompletions : completions events = [] := completions_of_passing hevents
  have hdropped : .dropped ∉ events := fun hm => hevents _ hm
  refine ⟨fun hl => List.mem_append_left _ (ha.enrolled ((hlives _ _).1 hl)), fun {h userdata} hp => ?_,
    fun hl event hm => ?_, ha.known_append fun event hm serial hs => ?_, ha.distinct_append hpushes,
    fun {t'} hy => ?_, fun {t'} hy hm => ?_, ha.still_append hdropped fun h hm => ?_⟩
  · have hp := (List.mem_append.1 hp).resolve_right (hpushed h userdata)
    refine ha.fate_append hp (hlives _ _).2 hnone (fun event hm => hsettles event hm _)
      fun hdead event hm hr => hdead ?_
    obtain ⟨h', userdata', hl', hserial⟩ := (hevents event hm).lives hr
    obtain ⟨rfl, rfl⟩ := ha.eq_of_serial (ha.enrolled hl') hp hserial
    exact hl'
  · exact (List.mem_append.1 hm).elim (ha.quiet ((hlives _ _).1 hl) event) (hsettles event · _)
  · obtain ⟨h, userdata, hl, hserial⟩ := (hevents event hm).lives (hs.resolve_left (hsettles event hm serial))
    exact ⟨h, userdata, ha.enrolled hl, hserial⟩
  · obtain ⟨t, hx, hsize⟩ := hsize t' hy
    rw [pushes_append, completions_append, hpushes, hcompletions, List.append_nil, List.append_nil, hsize]
    exact ha.count hx
  · obtain ⟨t, hx, -⟩ := hsize t' hy
    exact (List.mem_append.1 hm).elim (ha.undropped hx) hdropped
  · obtain ⟨userdata, t, tenant, hx, -⟩ := hevents _ hm
    exact ⟨t, hx⟩

/-- a lifetime begins -/
theorem push (ha : Accounts (some t) past) (hl : t.slots.Tidy)
    (hfresh : ∀ {h userdata}, .pushed h userdata ∈ past → h.serial < t.nextSerial) (work : F) (userdata : Option U) :
    Accounts (some (t.push work userdata).state) (past ++ [.pushed (t.push work userdata).value userdata]) := by
  have hnew : ∀ event ∈ past, ¬ event.settles t.nextSerial := fun event hm hs => by
    obtain ⟨h, _, hp, hserial⟩ := ha.known event hm _ (.inl hs)
    exact absurd (hserial ▸ hfresh hp) (Nat.lt_irrefl _)
  have hlives : ∀ h userdata', Lives (some (t.push work userdata).state) h userdata' ↔
      Lives (some t) h userdata' ∨ h = (t.push work userdata).value ∧ userdata' = userdata := fun _ _ =>
    lives_push hl work userdata
  refine ⟨fun {h userdata'} hl' => ?_, fun {h userdata'} hp => ?_, fun {h userdata'} hl' event hm => ?_,
    ha.known_append fun event hm serial hs => ?_, ?_, fun {t'} ht' => ?_, fun _ hm => ?_,
    ha.still_append (by simp) fun _ _ => ⟨t, rfl⟩⟩
  · rcases (hlives _ _).1 hl' with hold | ⟨rfl, rfl⟩
    · exact List.mem_append_left _ (ha.enrolled hold)
    · simp
  · rcases List.mem_append.1 hp with hp | hp
    · exact ha.fate_append hp (fun hold => (hlives _ _).2 (.inl hold)) (fun he => by cases he)
        (by simp [settles]) fun _ => by simp [runs]
    · cases List.mem_singleton.1 hp
      refine .inFlight ((hlives _ _).2 (.inr ⟨rfl, rfl⟩)) fun event hm => ?_
      rcases List.mem_append.1 hm with hm | hm
      · exact hnew event hm
      · cases List.mem_singleton.1 hm
        exact id
  · rcases (hlives _ _).1 hl' with hold | ⟨rfl, rfl⟩
    · rcases List.mem_append.1 hm with hm | hm
      · exact ha.quiet hold event hm
      · cases List.mem_singleton.1 hm
        exact id
    · rcases List.mem_append.1 hm with hm | hm
      · exact hnew event hm
      · cases List.mem_singleton.1 hm
        exact id
  · cases List.mem_singleton.1 hm
    exact (hs.elim id id).elim
  · rw [pushes_append, List.map_append]
    refine List.nodup_append.2 ⟨ha.distinct, List.nodup_singleton _, fun serial hold serial' hm => ?_⟩
    obtain ⟨⟨h, _⟩, hp, rfl⟩ := List.mem_map.1 hold
    cases List.mem_singleton.1 hm
    exact Nat.ne_of_lt (hfresh (mem_pushes.1 hp))
  · cases ht'
    have hsize : (t.push work userdata).state.size = t.size + 1 := Slots.size_insert hl _
    have hcount := ha.count rfl
    rw [pushes_append, completions_append, hsize, List.length_append, List.length_append]
    simp only [pushes, completions, enrolled?, completed?, List.filterMap_cons, List.filterMap_nil, List.length_nil,
      List.length_cons] at hcount ⊢
    omega
  · exact (List.mem_append.1 hm).elim (ha.undropped rfl) (by simp)

/-- a lifetime ends with the run that ends the task -/
theorem finish (ha : Accounts (some t) past) {slot : Nat} {tenant : Tenant U F} (ht : t.slots.get? slot = some tenant)
    {t' : Tasks U F} (hslots : t'.slots = t.slots.erase slot) (hs : List Handle) (outcome : Except ε Unit)
    (hevents : events = .ran ⟨slot, tenant.serial⟩ :: hs.map .woken ++ [.ended ⟨slot, tenant.serial⟩ outcome,
      .released tenant.serial, .returned (some ⟨tenant.serial, tenant.userdata, outcome⟩)]) :
    Accounts (some t') (past ++ events) := by
  have hself : Lives (some t) ⟨slot, tenant.serial⟩ tenant.userdata := lives_some.2 ⟨tenant, ht, rfl, rfl⟩
  have hlives : ∀ h userdata, Lives (some t') h userdata ↔ Lives (some t) h userdata ∧ h.slot ≠ slot := fun _ _ =>
    lives_of_erase hslots
  have hother : ∀ {h userdata}, .pushed h userdata ∈ past → h.serial = tenant.serial →
      h = ⟨slot, tenant.serial⟩ ∧ userdata = tenant.userdata := fun hp he =>
    ha.eq_of_serial hp (ha.enrolled hself) he
  have hconcerns : ∀ event ∈ events, ∀ serial, event.settles serial ∨ event.runs serial → tenant.serial = serial := by
    simp [hevents, settles, runs, or_imp, forall_and]
  have hpushed : ∀ h userdata, .pushed h userdata ∉ events := by simp [hevents]
  have hpushes : pushes events = [] := by simp [hevents, pushes, enrolled?, List.filterMap_cons]
  have hcompletions : (completions events).length = 1 := by simp [hevents, completions, completed?, List.filterMap_cons]
  have hdropped : .dropped ∉ events := by simp [hevents]
  refine ⟨fun {h userdata} hl => ?_, fun {h userdata} hp => ?_, fun {h userdata} hl event hm => ?_,
    ha.known_append fun event hm serial hs => ?_, ha.distinct_append hpushes, fun {t''} ht'' => ?_, fun _ hm => ?_,
    ha.still_append hdropped fun _ _ => ⟨t, rfl⟩⟩
  · exact List.mem_append_left _ (ha.enrolled ((hlives _ _).1 hl).1)
  · have hp := (List.mem_append.1 hp).resolve_right (hpushed h userdata)
    by_cases he : tenant.serial = h.serial
    · obtain ⟨rfl, rfl⟩ := hother hp he.symm
      refine .finished (past ++ .ran ⟨slot, tenant.serial⟩ :: hs.map .woken) outcome [] (by simp [hevents]) ?_ (by simp)
      intro event hm
      rcases List.mem_append.1 hm with hm | hm
      · exact ha.quiet hself event hm
      · simp only [List.mem_cons, List.mem_map] at hm
        rcases hm with rfl | ⟨h, -, rfl⟩ <;> exact id
    · have hstays : Lives (some t) h userdata → Lives (some t') h userdata := fun hl =>
        (hlives _ _).2 ⟨hl, fun hslot => by
          obtain ⟨tenant', ht', hserial, -⟩ := lives_some.1 hl
          rw [hslot, ht] at ht'
          cases ht'
          exact he hserial⟩
      exact ha.fate_append hp hstays (fun he => by cases he) (fun event hm hs => he (hconcerns event hm _ (.inl hs)))
        fun _ event hm hr => he (hconcerns event hm _ (.inr hr))
  · obtain ⟨hl, hslot⟩ := (hlives _ _).1 hl
    refine (List.mem_append.1 hm).elim (ha.quiet hl event) fun hm hs => hslot ?_
    exact congrArg Handle.slot (hother (ha.enrolled hl) (hconcerns event hm _ (.inl hs)).symm).1
  · exact ⟨⟨slot, tenant.serial⟩, tenant.userdata, ha.enrolled hself, hconcerns event hm serial hs⟩
  · cases ht''
    have hsize : t.size = t'.size + 1 := by
      rw [Tasks.size, Tasks.size, hslots]
      exact Slots.size_erase ht
    have hcount := ha.count rfl
    rw [pushes_append, completions_append, List.length_append, List.length_append, hpushes, hcompletions,
      List.length_nil]
    omega
  · exact (List.mem_append.1 hm).elim (ha.undropped rfl) hdropped

/-- a task in flight is released in the drop, once -/
theorem fate_drop (ha : Accounts (some t) past) (hkept : t.kept.Nodup) (hl : Lives (some t) h userdata) :
    Fate (none : Option (Tasks U F)) (past ++ .dropped :: releases (some t) none) h userdata := by
  obtain ⟨tenant, ht, hserial, -⟩ := lives_some.1 hl
  obtain ⟨before, after, hsplit⟩ := List.append_of_mem (mem_kept.2 ⟨h.slot, tenant, ht, hserial⟩)
  rw [hsplit] at hkept
  have hnot : ∀ serial ∈ before ++ after, serial ≠ h.serial := fun serial hm he =>
    (List.nodup_middle.1 hkept).notMem (he ▸ hm)
  refine .abandoned (past ++ .dropped :: before.map .released) (after.map .released) rfl (by simp [hsplit])
    (by simp) (fun event hm => ?_) fun event hm => ?_
  · rcases List.mem_append.1 hm with hm | hm
    · exact ha.quiet hl event hm
    · rcases List.mem_cons.1 hm with rfl | hm
      · exact id
      · obtain ⟨gone, hgone, rfl⟩ := List.mem_map.1 hm
        exact hnot gone (List.mem_append_left _ hgone)
  · obtain ⟨gone, hgone, rfl⟩ := List.mem_map.1 hm
    exact ⟨hnot gone (List.mem_append_right _ hgone), id⟩

/-- every lifetime that is under way ends in the drop -/
theorem drop (ha : Accounts x past) (hkept : ∀ t, x = some t → t.kept.Nodup) :
    Accounts (none : Option (Tasks U F)) (past ++ .dropped :: releases x none) := by
  have hreleased : ∀ event ∈ .dropped :: (releases x none : List (TaskEvent U ε)), ∀ serial,
      event.settles serial ∨ event.runs serial → ∃ h userdata, Lives x h userdata ∧ h.serial = serial := by
    intro event hm serial hs
    cases x with
    | none =>
      cases List.mem_singleton.1 hm
      exact (hs.elim id id).elim
    | some t =>
      rw [releases_drop] at hm
      rcases List.mem_cons.1 hm with rfl | hm
      · exact (hs.elim id id).elim
      · obtain ⟨gone, hgone, rfl⟩ := List.mem_map.1 hm
        obtain ⟨slot, tenant, ht, rfl⟩ := mem_kept.1 hgone
        exact ⟨⟨slot, tenant.serial⟩, tenant.userdata, lives_some.2 ⟨tenant, ht, rfl, rfl⟩, hs.resolve_right id⟩
  have hlives : ∀ event ∈ .dropped :: (releases x none : List (TaskEvent U ε)), ∀ {h userdata},
      .pushed h userdata ∈ past → event.settles h.serial ∨ event.runs h.serial → Lives x h userdata := by
    intro event hm h userdata hp hs
    obtain ⟨h', userdata', hl, hserial⟩ := hreleased event hm _ hs
    obtain ⟨rfl, rfl⟩ := ha.eq_of_serial (ha.enrolled hl) hp hserial
    exact hl
  have hnone : ∀ {t : Tasks U F}, (none : Option (Tasks U F)) ≠ some t := by simp
  have hpushes : pushes (.dropped :: (releases x none : List (TaskEvent U ε))) = [] := by
    simp [pushes, enrolled?, releases, List.filterMap_cons]
  have hran : ∀ h, .ran h ∉ .dropped :: (releases x none : List (TaskEvent U ε)) := by simp [releases]
  refine ⟨fun hl => absurd hl not_lives_none, fun {h userdata} hp => ?_, fun hl => absurd hl not_lives_none,
    ha.known_append fun event hm serial hs => ?_, ha.distinct_append hpushes, fun hx => absurd hx hnone,
    fun hx => absurd hx hnone, fun earlier later he h hm => ?_⟩
  · have hp : .pushed h userdata ∈ past := (List.mem_append.1 hp).resolve_right (by simp [releases])
    by_cases hl : Lives x h userdata
    · obtain ⟨t, -, rfl, -⟩ := id hl
      exact ha.fate_drop (hkept t rfl) hl
    · exact ha.fate_append hp (fun hl' => absurd hl' hl) (fun _ => rfl)
        (fun event hm hs => hl (hlives event hm hp (.inl hs))) fun _ event hm hr => hl (hlives event hm hp (.inr hr))
  · obtain ⟨h, userdata, hl, hserial⟩ := hreleased event hm serial hs
    exact ⟨h, userdata, ha.enrolled hl, hserial⟩
  · rcases append_cons_cases he with ⟨middle, -, hevents⟩ | ⟨rest, rfl, hpast⟩
    · exact hran h (by simp [hevents, hm])
    · exact (List.mem_append.1 hm).elim (ha.still earlier rest hpast h) (hran h)

end Accounts

/-! ## Sessions -/

variable {r : Runner E F ε} {x : Option (Tasks U F)} {past : List (TaskEvent U ε)}

theorem Session.accounts (hs : Session r x past) : Accounts x past := by
  induction hs with
  | start => exact .start
  | @step x _ past _ hs hstep ih => cases hstep with
  | @push t work userdata =>
    obtain ⟨hl, hnames⟩ := hs.lawful rfl
    rw [hl.releases_push]
    exact ih.push hl.tidy (fun hp => (hnames hp).serial) work userdata
  | @wake _ h userdata _ =>
    rw [releases_wake]
    refine ih.quietly (fun h' userdata' => lives_wake x h) (fun t' ht' => ?_) fun event hm => ?_
    · obtain ⟨t, rfl, rfl⟩ := Option.map_eq_some_iff.1 ht'
      exact ⟨t, rfl, by rw [Tasks.size, Tasks.size, (t.wake_slots h).1]⟩
    · cases List.mem_singleton.1 hm
      exact trivial
  | @turn t slot env _ _ =>
    obtain ⟨hl, -⟩ := hs.lawful rfl
    rcases hl.turnEvents_cases r env slot with
      ⟨-, hslots, he⟩ | ⟨tenant, hwoken, ht, ⟨⟨work, hslots⟩, he⟩ | ⟨outcome, hslots, he⟩⟩
    · refine ih.quietly (fun h userdata => lives_of_slots hslots) (fun t' ht' => ?_) (by simp [he])
      cases ht'
      exact ⟨t, rfl, by rw [Tasks.size, Tasks.size, hslots]⟩
    · refine ih.quietly (fun h userdata => lives_of_set ht hslots) (fun t' ht' => ?_) fun event hm => ?_
      · cases ht'
        obtain ⟨pre, post, hlist, -, hset⟩ := Slots.toList_focus ht
        exact ⟨t, rfl, by simp [Tasks.size, Slots.size, hslots, hset, hlist]⟩
      · rw [he] at hm
        rcases List.mem_cons.1 hm with rfl | hm
        · exact ⟨tenant.userdata, lives_some.2 ⟨tenant, ht, rfl, rfl⟩⟩
        · obtain ⟨h, -, rfl⟩ := List.mem_map.1 hm
          exact trivial
    · exact ih.finish ht hslots hwoken outcome he
  | @idle t _ =>
    refine ih.quietly (fun h userdata => Iff.rfl) (fun t' ht' => ⟨t', ht', rfl⟩) fun event hm => ?_
    cases List.mem_singleton.1 hm
    exact trivial
  | drop => exact ih.drop fun t hx => (hs.lawful hx).1.nodup_kept

/-- a task that ended is not run again -/
theorem Accounts.not_ran (ha : Accounts x past) {earlier later : List (TaskEvent U ε)} {h h' : Handle}
    {outcome : Except ε Unit} (he : past = earlier ++ .ended h outcome :: later) (hm : .ran h' ∈ later) :
    h'.serial ≠ h.serial := by
  obtain ⟨own, userdata, hp, hserial⟩ := ha.known (.ended h outcome) (by simp [he]) h.serial (.inl rfl)
  have hsettles : TaskEvent.settles own.serial (.ended h outcome : TaskEvent U ε) := hserial.symm
  cases ha.fates hp with
  | inFlight _ hquiet => exact absurd hsettles (hquiet _ (by simp [he]))
  | abandoned before after _ hpast _ hbefore hafter =>
    have hm : .ended h outcome ∈ before ++ .released own.serial :: after := hpast ▸ he ▸ by simp
    rcases List.mem_append.1 hm with hm | hm
    · exact absurd hsettles (hbefore _ hm)
    · rcases List.mem_cons.1 hm with hm | hm
      · cases hm
      · exact absurd hsettles (hafter _ hm).1
  | finished before outcome' after hpast hbefore hafter =>
    -- the end that is told of here is the one of the fate, for there is only one
    have hlater := eq_of_only
      (P := fun event => event.settles own.serial ∧ ∃ h outcome, event = TaskEvent.ended h outcome)
      (he.symm.trans hpast) ⟨hsettles, h, outcome, rfl⟩ (fun event hm hk => hbefore event hm hk.1) (by
        rintro event hm ⟨hk, h, outcome, rfl⟩
        simp only [List.mem_cons, reduceCtorEq, false_or] at hm
        exact (hafter _ hm).1 hk)
    rw [hlater] at hm
    simp only [List.mem_cons, reduceCtorEq, false_or] at hm
    exact fun hs => (hafter _ hm).2 (hs.trans hserial.symm)

/-- **Every task is completed exactly once.** In every session of pushes, polls, wakes through any handles that were
given out and a drop at last, each task that was pushed has one of the three fates: it is in flight, or it was returned
by exactly one poll, with its own userdata and its own outcome and after its work was released, or it was released in
the drop. No two tasks share a serial, nothing else is ever returned, no task is run after it ended and none is run
after the drop, and the number of tasks in flight is what was pushed and not yet returned. -/
theorem exactly_once (hs : Session r x past) :
    (∀ h userdata, .pushed h userdata ∈ past → Fate x past h userdata) ∧
    ((pushes past).map (·.1.serial)).Nodup ∧
    (∀ completed, .returned (some completed) ∈ past →
      ∃ h userdata, .pushed h userdata ∈ past ∧ h.serial = completed.serial) ∧
    (∀ earlier h outcome later, past = earlier ++ .ended h outcome :: later →
      ∀ h', .ran h' ∈ later → h'.serial ≠ h.serial) ∧
    (∀ t, x = some t → t.size + (completions past).length = (pushes past).length ∧
      (t.isEmpty = true ↔ (completions past).length = (pushes past).length)) ∧
    ∀ earlier later, past = earlier ++ .dropped :: later → ∀ h, .ran h ∉ later := by
  have ha := hs.accounts
  refine ⟨fun h userdata => ha.fates, ha.distinct, fun completed hm => ha.known _ hm _ (.inl rfl),
    fun earlier h outcome later he h' hm => ha.not_ran he hm, fun t hx => ?_, ha.still⟩
  have hcount := ha.count hx
  refine ⟨hcount, ?_⟩
  calc t.isEmpty = true ↔ t.size = 0 := by rw [Tasks.isEmpty, Slots.isEmpty, List.isEmpty_iff_length_eq_zero]; rfl
    _ ↔ (completions past).length = (pushes past).length := by omega

namespace Errands

/-- tasks that wake some handles in each run and end well when there is nothing left to do -/
def runner : Runner Unit (List (List Handle)) Unit where
  run _ _ work :=
    match work with
    | [] => { env := (), work := [], outcome := some (.ok ()) }
    | handles :: rest => { env := (), work := rest, woken := handles }
  note _ _ := ()

def first : Tasks Nat (List (List Handle)) := (Tasks.empty.push [] (some 10)).state

def second : Tasks Nat (List (List Handle)) := (first.push [[⟨0, 0⟩, ⟨1, 1⟩]] (some 11)).state

def third : Tasks Nat (List (List Handle)) := ((second.turn runner () 0).tasks.push [] none).state

def fourth : Tasks Nat (List (List Handle)) := ((third.turn runner () 1).tasks.turn runner () 0).tasks

/-- the second task wakes a handle of the first, which is gone and whose slot belongs to the third -/
def recycled : List (TaskEvent Nat Unit) :=
  [.pushed ⟨0, 0⟩ (some 10), .pushed ⟨1, 1⟩ (some 11),
    .ran ⟨0, 0⟩, .ended ⟨0, 0⟩ (.ok ()), .released 0, .returned (some ⟨0, some 10, .ok ()⟩),
    .pushed ⟨0, 2⟩ none,
    .ran ⟨1, 1⟩, .woken ⟨0, 0⟩, .woken ⟨1, 1⟩,
    .ran ⟨0, 2⟩, .ended ⟨0, 2⟩ (.ok ()), .released 2, .returned (some ⟨2, none, .ok ()⟩),
    .dropped, .released 1, .woken ⟨1, 1⟩]

theorem session_stale : Session runner (some (third.turn runner () 1).tasks) (recycled.take 10) := by
  have pushed : Session runner (some second) (recycled.take 2) :=
    (Session.start.step (.push [] (some 10))).step (.push (t := first) [[⟨0, 0⟩, ⟨1, 1⟩]] (some 11))
  have ended : Session runner (some (second.turn runner () 0).tasks) (recycled.take 6) :=
    pushed.turn () rfl fun h hm => by
      have hm : TaskEvent.woken h ∈ (recycled.drop 2).take 4 := hm
      simp [recycled] at hm
  have reused : Session runner (some third) (recycled.take 7) := ended.step (.push [] none)
  exact reused.turn () rfl fun h hm => by
    have hm : TaskEvent.woken h ∈ (recycled.drop 7).take 3 := hm
    have hh : h = ⟨0, 0⟩ ∨ h = ⟨1, 1⟩ := by simpa [recycled] using hm
    rcases hh with rfl | rfl
    · exact ⟨some 10, by simp [recycled]⟩
    · exact ⟨some 11, by simp [recycled]⟩

theorem session_reused : Session runner (some fourth) (recycled.take 14) :=
  session_stale.turn () rfl fun h hm => by
    have hm : TaskEvent.woken h ∈ (recycled.drop 10).take 4 := hm
    simp [recycled] at hm

theorem session_recycled : Session runner none recycled := by
  have dropped : Session runner none (recycled.take 16) := session_reused.step .drop
  have given : .pushed ⟨1, 1⟩ (some 11) ∈ recycled.take 16 := by simp [recycled]
  exact dropped.step (.wake given)

end Errands

theorem exactly_once_recycled :
    Session Errands.runner none Errands.recycled ∧
      (∀ h userdata, .pushed h userdata ∈ Errands.recycled →
        Fate (none : Option (Tasks Nat (List (List Handle)))) Errands.recycled h userdata) ∧
      (∀ earlier later, Errands.recycled = earlier ++ .dropped :: later → ∀ h, .ran h ∉ later) :=
  ⟨Errands.session_recycled, (exactly_once Errands.session_recycled).1,
    (exactly_once Errands.session_recycled).2.2.2.2.2⟩

end EventServer
