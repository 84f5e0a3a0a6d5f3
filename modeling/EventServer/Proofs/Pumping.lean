/-
Pumping: what a pump does, and that it comes to an end.

A pump polls until a poll finds nothing to run, and a poll takes slots from the queue until a task finishes; both loops
together are one sequence of turns (`Crew.turn`, `drainUpTo_eq`). The tasks may be of any kind and may wake any handles,
their own and each other's, as long as they use the table through transports (`Crew`); the tasks of the engine are such
a crew, and its pump is their drain (`Engine.pumpUpTo_eq`).

A turn that runs a task uses up one of the runs that the task has left, and a turn that finds nobody shortens the queue,
so if each task is run finitely often the turns come to an end (`Crew.exists_idle`). What every turn keeps is the
reckoning (`Crew.Exact`), in which `Connections.Reclaimed` is the part of the table. `pump_exact` is the result.
-/
import EventServer.Proofs.Reclaiming
import Mathlib.Algebra.GroupWithZero.Nat
import Mathlib.Algebra.Order.BigOperators.Group.List
import Mathlib.Algebra.Order.Group.Nat
import Mathlib.Order.WellFounded

namespace EventServer

variable {F H X : Type}

/-- how tasks are run that use the table through transports only, with any number of calls on any connections -/
structure Crew (F H : Type) where
  runner : Runner (Site H) F TaskFailure
  runs : ∀ self (site : Site H) work, site.connections.Used (runner.run self site work).env.connections
  notes : ∀ (site : Site H) note, (runner.note site note).connections = site.connections

/-- the tasks and the site in the course of a pump, and what it has come to so far -/
structure Drained (F H : Type) where
  tasks : Tasks Nat F
  site : Site H
  report : PumpTally := {}
  /-- the tasks that finished -/
  finished : List (Completed Nat TaskFailure) := []
  course : List Happening := []

namespace Crew

/-- polls until a poll returns nothing, and takes out the connection of each task that finishes -/
def drainUpTo (crew : Crew F H) : Nat → Tasks Nat F → Site H → PumpTally → Option (Drained F H)
  | 0, _, _, _ => none
  | limit + 1, t, site, report =>
    match t.poll crew.runner limit site with
    | none => none
    | some polled =>
      match polled.completed with
      | none => some { tasks := polled.tasks, site := polled.env, report, course := polled.course }
      | some c =>
        (drainUpTo crew limit polled.tasks (Engine.reclaim polled.env c) (Engine.count report c)).map fun d =>
          { d with finished := c :: d.finished, course := polled.course ++ d.course }

def drain (crew : Crew F H) (limit : Nat) (t : Tasks Nat F) (site : Site H) : Option (Drained F H) :=
  crew.drainUpTo limit t site {}

/-- takes one slot from the queue, if there is one, and the connection of the task if it finishes -/
def turn (crew : Crew F H) (d : Drained F H) : Drained F H :=
  match d.tasks.queue with
  | [] => d
  | slot :: rest =>
    let after := Tasks.runSlot crew.runner { d.tasks with queue := rest } d.site slot
    let course := d.course ++ after.course
    match after.completed with
    | none => { d with tasks := after.tasks, site := after.env, course }
    | some c =>
      { tasks := after.tasks
        site := Engine.reclaim after.env c
        report := Engine.count d.report c
        finished := d.finished ++ [c]
        course }

/-- what there is after a number of turns -/
def turns (crew : Crew F H) (t : Tasks Nat F) (site : Site H) (n : Nat) : Drained F H :=
  crew.turn^[n] { tasks := t, site }

/-- each task is run finitely often, however long the pump goes on -/
def Settles (crew : Crew F H) (t : Tasks Nat F) (site : Site H) : Prop :=
  ∀ slot tenant, t.slots.get? slot = some tenant →
    ∃ bound, ∀ n, (crew.turns t site n).course.count (.ran ⟨slot, tenant.serial⟩) ≤ bound

variable {crew : Crew F H} {t : Tasks Nat F} {site : Site H} {d : Drained F H} {slot : Nat} {rest : List Nat}

/-! ## Turns -/

theorem turn_of_idle (hq : d.tasks.queue = []) : crew.turn d = d := by
  rw [turn, hq]

theorem turns_of_idle (hq : d.tasks.queue = []) (n : Nat) : crew.turn^[n] d = d :=
  Function.iterate_fixed (turn_of_idle hq) n

/-- a poll is a number of turns, the last of which ends a task or leaves nothing to run -/
theorem poll_turns (crew : Crew F H) {n limit : Nat} (hn : (crew.turn^[n] d).tasks.queue = []) (hl : n ≤ limit) :
    ∃ polled, d.tasks.poll crew.runner limit d.site = some polled ∧
      (polled.completed = none ∧ crew.turn^[n] d =
          { d with tasks := polled.tasks, site := polled.env, course := d.course ++ polled.course } ∨
        ∃ c k, k < n ∧ polled.completed = some c ∧ crew.turn^[n] d = crew.turn^[k]
          { tasks := polled.tasks, site := Engine.reclaim polled.env c, report := Engine.count d.report c,
            finished := d.finished ++ [c], course := d.course ++ polled.course }) := by
  induction n generalizing d limit with
  | zero =>
    have hq : d.tasks.queue = [] := hn
    refine ⟨{ tasks := d.tasks, env := d.site }, ?_, .inl ⟨rfl, by simp⟩⟩
    cases limit <;> simp [Tasks.poll, hq]
  | succ n ih =>
    obtain ⟨limit, rfl⟩ : ∃ l, limit = l + 1 := ⟨limit - 1, by omega⟩
    cases hq : d.tasks.queue with
    | nil =>
      refine ⟨{ tasks := d.tasks, env := d.site }, by simp [Tasks.poll, hq], .inl ⟨rfl, ?_⟩⟩
      rw [turns_of_idle hq]
      simp
    | cons slot rest =>
      rw [Function.iterate_succ_apply] at hn ⊢
      unfold Tasks.poll
      simp only [hq]
      cases hc : (Tasks.runSlot crew.runner { d.tasks with queue := rest } d.site slot).completed with
      | some c =>
        refine ⟨_, rfl, .inr ⟨c, n, by omega, hc, ?_⟩⟩
        simp only [turn, hq, hc]
      | none =>
        have hturn : crew.turn d = { d with
            tasks := (Tasks.runSlot crew.runner { d.tasks with queue := rest } d.site slot).tasks
            site := (Tasks.runSlot crew.runner { d.tasks with queue := rest } d.site slot).env
            course := d.course ++ (Tasks.runSlot crew.runner { d.tasks with queue := rest } d.site slot).course } := by
          simp only [turn, hq, hc]
        rw [hturn] at hn ⊢
        obtain ⟨polled, hpoll, hcases⟩ := ih hn (by omega : n ≤ limit)
        dsimp only at hpoll
        rw [hpoll]
        refine ⟨_, rfl, ?_⟩
        rcases hcases with ⟨hnone, hrest⟩ | ⟨c, k, hk, hsome, hrest⟩
        · exact .inl ⟨hnone, by simpa using hrest⟩
        · exact .inr ⟨c, k, by omega, hsome, by simpa using hrest⟩

/-- a drain is a number of turns that leave nothing to run -/
theorem drainUpTo_eq (crew : Crew F H) {n limit : Nat} (hn : (crew.turn^[n] d).tasks.queue = []) (hl : n < limit) :
    (crew.drainUpTo limit d.tasks d.site d.report).map (fun e =>
      { e with finished := d.finished ++ e.finished, course := d.course ++ e.course }) = some (crew.turn^[n] d) := by
  induction n using Nat.strong_induction_on generalizing d limit with
  | _ n ih =>
    obtain ⟨limit, rfl⟩ : ∃ l, limit = l + 1 := ⟨limit - 1, by omega⟩
    obtain ⟨polled, hpoll, hcases⟩ := crew.poll_turns hn (by omega : n ≤ limit)
    unfold drainUpTo
    rw [hpoll]
    dsimp only
    rcases hcases with ⟨hnone, hrest⟩ | ⟨c, k, hk, hsome, hrest⟩
    · rw [hnone, hrest]
      simp
    · rw [hsome]
      dsimp only
      rw [hrest] at hn ⊢
      rw [← ih k hk hn (by omega : k < limit), Option.map_map]
      refine congrArg (fun f => Option.map f _) (funext fun e => ?_)
      simp

/-- a run of a slot in use begins with a run of its tenant -/
theorem runSlot_course {E U ε : Type} (r : Runner E F ε) (t : Tasks U F) (env : E) {tenant : Tenant U F}
    (ht : t.slots.get? slot = some tenant) :
    ∃ later, (Tasks.runSlot r t env slot).course = .ran ⟨slot, tenant.serial⟩ :: later := by
  unfold Tasks.runSlot
  rw [ht]
  dsimp only
  cases (r.run ⟨slot, tenant.serial⟩ env tenant.work).outcome <;> exact ⟨_, rfl⟩

/-- what a turn does: nobody lives in the slot, or its tenant runs and stays, or its tenant runs and finishes -/
theorem turn_cases (crew : Crew F H) (hq : d.tasks.queue = slot :: rest) :
    (d.tasks.slots.get? slot = none ∧ (crew.turn d).tasks.queue = rest ∧
        (crew.turn d).tasks.slots = d.tasks.slots ∧ (crew.turn d).site.connections = d.site.connections ∧
        (crew.turn d).report = d.report ∧ (crew.turn d).finished = d.finished ∧ (crew.turn d).course = d.course) ∨
      ∃ tenant later, d.tasks.slots.get? slot = some tenant ∧
        (crew.turn d).course = d.course ++ .ran ⟨slot, tenant.serial⟩ :: later ∧
        ((∃ work, (crew.turn d).tasks.slots = d.tasks.slots.set slot { tenant with work } ∧
            d.site.connections.Used (crew.turn d).site.connections ∧
            (crew.turn d).report = d.report ∧ (crew.turn d).finished = d.finished) ∨
          ∃ outcome site, (crew.turn d).tasks.slots = d.tasks.slots.erase slot ∧
            d.site.connections.Used site.connections ∧
            (crew.turn d).site = Engine.reclaim site ⟨tenant.serial, tenant.userdata, outcome⟩ ∧
            (crew.turn d).report = Engine.count d.report ⟨tenant.serial, tenant.userdata, outcome⟩ ∧
            (crew.turn d).finished = d.finished ++ [⟨tenant.serial, tenant.userdata, outcome⟩]) := by
  have hcases := (Tasks.runSlot_cases crew.runner { d.tasks with queue := rest } d.site slot).2
  rcases hcases with ⟨ht, -⟩ | ⟨tenant, ht, hcases⟩
  · left
    simp [turn, hq, Tasks.runSlot, ht, crew.notes]
  right
  obtain ⟨later, hcourse⟩ := runSlot_course crew.runner { d.tasks with queue := rest } d.site ht
  have hused := crew.runs ⟨slot, tenant.serial⟩ d.site tenant.work
  refine ⟨tenant, later, ht, ?_, ?_⟩
  · rcases hcases with ⟨hc, -⟩ | ⟨outcome, hc, -⟩ <;> simp only [turn, hq, hc, hcourse]
  · rcases hcases with ⟨hnone, hslots, henv⟩ | ⟨outcome, hsome, hslots, henv⟩
    · left
      simp only [turn, hq, hnone]
      exact ⟨_, hslots, henv ▸ hused, trivial, trivial⟩
    · right
      simp only [turn, hq, hsome]
      refine ⟨outcome, _, hslots, ?_, rfl, rfl, rfl⟩
      rw [henv, crew.notes]
      exact hused

theorem turns_succ (crew : Crew F H) (t : Tasks Nat F) (site : Site H) (n : Nat) :
    crew.turns t site (n + 1) = crew.turn (crew.turns t site n) :=
  Function.iterate_succ_apply' ..

/-- what the first turn keeps, all of them keep -/
theorem turns_keep (crew : Crew F H) {P : Drained F H → Prop} (hstep : ∀ d, P d → P (crew.turn d))
    (h : P { tasks := t, site }) (n : Nat) : P (crew.turns t site n) := by
  induction n with
  | zero => exact h
  | succ n ih =>
    rw [turns_succ]
    exact hstep _ ih

/-! ## Coming to an end -/

/-- the tasks that are in flight were so before -/
def Resident (t : Tasks Nat F) (d : Drained F H) : Prop :=
  ∀ slot tenant, d.tasks.slots.get? slot = some tenant →
    ∃ old, t.slots.get? slot = some old ∧ old.serial = tenant.serial

theorem resident_turn (hr : Resident t d) : Resident t (crew.turn d) := by
  cases hq : d.tasks.queue with
  | nil => rwa [turn_of_idle hq]
  | cons slot rest =>
    intro other x hx
    rcases crew.turn_cases hq with
      ⟨-, -, hslots, -⟩ | ⟨tenant, -, ht, -, ⟨work, hslots, -⟩ | ⟨outcome, site, hslots, -⟩⟩
    · exact hr other x (hslots ▸ hx)
    · rw [hslots, Slots.get?_set ht] at hx
      split at hx
      · next he =>
        cases hx
        exact he ▸ hr slot tenant ht
      · exact hr other x hx
    · rw [hslots, Slots.get?_erase] at hx
      split at hx
      · cases hx
      · exact hr other x hx

/-- the handles of the tasks in flight -/
def handlesOf (t : Tasks Nat F) : List Handle := t.slots.toList.map fun entry => ⟨entry.1, entry.2.serial⟩

/-- how many runs the tasks have left, if they are run as often at most as the bound says -/
def left (t : Tasks Nat F) (bound : Handle → Nat) (d : Drained F H) : Nat :=
  ((handlesOf t).map fun h => bound h - d.course.count (.ran h)).sum

/-- a turn uses up a run of a task, or it uses up none and shortens the queue -/
theorem left_turn (crew : Crew F H) (bound : Handle → Nat) (hr : Resident t d) (hq : d.tasks.queue ≠ [])
    (hb : ∀ h ∈ handlesOf t, (crew.turn d).course.count (.ran h) ≤ bound h) :
    left t bound (crew.turn d) < left t bound d ∨ left t bound (crew.turn d) = left t bound d ∧
      (crew.turn d).tasks.queue.length < d.tasks.queue.length := by
  obtain ⟨slot, rest, hq⟩ := List.exists_cons_of_ne_nil hq
  rcases crew.turn_cases hq with ⟨-, hqueue, -, -, -, -, hcourse⟩ | ⟨tenant, later, ht, hcourse, -⟩
  · exact .inr ⟨by rw [left, left, hcourse], by simp [hqueue, hq]⟩
  · obtain ⟨old, hold, hserial⟩ := hr slot tenant ht
    have hself : (⟨slot, tenant.serial⟩ : Handle) ∈ handlesOf t :=
      List.mem_map.2 ⟨(slot, old), Slots.mem_toList.2 hold, by rw [← hserial]⟩
    refine .inl (List.sum_lt_sum _ _ (fun h _ => ?_) ⟨_, hself, ?_⟩)
    · rw [hcourse, List.count_append]
      omega
    · have hbound := hb _ hself
      rw [hcourse, List.count_append, List.count_cons_self] at hbound ⊢
      omega

/-- **If each task is run finitely often, there is nothing to run in the end.** -/
theorem exists_idle (hs : crew.Settles t site) : ∃ n, (crew.turns t site n).tasks.queue = [] := by
  have hbounds : ∀ h : Handle, ∃ bound, h ∈ handlesOf t → ∀ n, (crew.turns t site n).course.count (.ran h) ≤ bound := by
    intro h
    by_cases hm : h ∈ handlesOf t
    · obtain ⟨⟨slot, tenant⟩, hentry, rfl⟩ := List.mem_map.1 hm
      obtain ⟨bound, hb⟩ := hs slot tenant (Slots.mem_toList.1 hentry)
      exact ⟨bound, fun _ => hb⟩
    · exact ⟨0, fun hm' => absurd hm' hm⟩
  choose bound hb using hbounds
  have hr : ∀ n, Resident t (crew.turns t site n) :=
    crew.turns_keep (fun _ => resident_turn) fun _ tenant ht => ⟨tenant, ht, rfl⟩
  -- the runs that are left and the length of the queue cannot go down for ever
  let measure (n : Nat) : Nat × Nat := (left t bound (crew.turns t site n), (crew.turns t site n).tasks.queue.length)
  have hwf : IsWellFounded (Nat × Nat) (Prod.Lex (· < ·) (· < ·)) :=
    ⟨WellFounded.prod_lex wellFounded_lt wellFounded_lt⟩
  obtain ⟨n, hn⟩ := WellFounded.not_rel_apply_succ (r := Prod.Lex (· < ·) (· < ·)) measure
  refine ⟨n, by_contra fun hq => hn ?_⟩
  have hturn := crew.left_turn bound (hr n) hq fun h hm => by
    rw [← turns_succ]
    exact hb h hm (n + 1)
  rw [← turns_succ] at hturn
  exact Prod.lex_def.2 hturn

/-- what happens in a turn is added to what happened before -/
theorem course_turn (crew : Crew F H) (d : Drained F H) : d.course <+: (crew.turn d).course := by
  cases hq : d.tasks.queue with
  | nil => exact (turn_of_idle hq).symm ▸ List.prefix_rfl
  | cons slot rest =>
    rcases crew.turn_cases hq with ⟨-, -, -, -, -, -, hcourse⟩ | ⟨tenant, later, -, hcourse, -⟩
    · exact hcourse ▸ List.prefix_rfl
    · exact hcourse ▸ List.prefix_append ..

theorem course_turns {m n : Nat} (hm : m ≤ n) : (crew.turns t site m).course <+: (crew.turns t site n).course := by
  induction hm with
  | refl => exact List.prefix_rfl
  | @step n _ ih =>
    rw [turns_succ]
    exact ih.trans (crew.course_turn _)

/-- conversely, tasks that come to rest were run finitely often -/
theorem settles_of_idle {n : Nat} (hn : (crew.turns t site n).tasks.queue = []) : crew.Settles t site := by
  have hcourse : ∀ m, (crew.turns t site m).course <+: (crew.turns t site n).course := by
    intro m
    rcases Nat.le_total m n with hm | hm
    · exact course_turns hm
    · obtain ⟨k, rfl⟩ := Nat.exists_eq_add_of_le hm
      have hsame : crew.turns t site (n + k) = crew.turns t site n := by
        rw [turns, Nat.add_comm, Function.iterate_add_apply, ← turns, turns_of_idle hn]
      exact hsame ▸ List.prefix_rfl
  exact fun slot tenant _ => ⟨_, fun m => (hcourse m).sublist.count_le _⟩

/-! ## What a pump comes to -/

/-- what the owner of a task knows of it -/
def badge {U : Type} (tenant : Tenant U F) : Nat × Option U := (tenant.serial, tenant.userdata)

/-- the reckoning of a pump of these tasks at this site -/
structure Exact (t : Tasks Nat F) (site : Site H) (d : Drained F H) : Prop where
  /-- each task that was in flight is in flight still, or it finished, once -/
  tasks : (d.tasks.slots.toList.map (badge ·.2) ++ d.finished.map fun c => (c.serial, c.userdata)).Perm
    (t.slots.toList.map (badge ·.2))
  completed : d.report.completed = d.finished.length
  errors : d.report.errors = d.finished.countP fun c => !c.outcome.isOk
  /-- the connections of the tasks that finished are taken out, and no others -/
  table : Connections.Reclaimed (d.finished.filterMap (·.userdata)) site.connections d.site.connections
  watched : d.site.connections.Watched

theorem reclaim_connections (site : Site H) (c : Completed Nat TaskFailure) :
    (Engine.reclaim site c).connections =
      (c.userdata.map fun slot => (site.connections.remove slot).state).getD site.connections := by
  unfold Engine.reclaim
  cases c.userdata <;> rfl

/-- a finished task takes out the connection that it names, if it names one -/
theorem reclaimed_reclaim {c : Connections H} (hc : c.Watched) (hsite : c.Used site.connections)
    (done : Completed Nat TaskFailure) :
    (Engine.reclaim site done).connections.Watched ∧
      Connections.Reclaimed done.userdata.toList c (Engine.reclaim site done).connections := by
  obtain ⟨hused, hreclaimed⟩ := hc.used hsite
  rw [reclaim_connections]
  cases done.userdata with
  | none => exact ⟨hused, hreclaimed⟩
  | some slot =>
    obtain ⟨hremoved, hgone⟩ := hused.remove slot
    exact ⟨hremoved, hreclaimed.trans hgone⟩

theorem exact_start (hw : site.connections.Watched) : Exact t site { tasks := t, site } where
  tasks := by simp
  completed := rfl
  errors := rfl
  table := .refl _
  watched := hw

/-- as long as no task finishes, the tasks that stay and the use of the table keep the reckoning -/
theorem Exact.unfinished {d' : Drained F H} (he : Exact t site d)
    (hbadges : d'.tasks.slots.toList.map (badge ·.2) = d.tasks.slots.toList.map (badge ·.2))
    (hused : d.site.connections.Used d'.site.connections) (hreport : d'.report = d.report)
    (hfinished : d'.finished = d.finished) : Exact t site d' := by
  obtain ⟨hwatched, hreclaimed⟩ := he.watched.used hused
  exact {
    tasks := by rw [hbadges, hfinished]; exact he.tasks
    completed := by rw [hreport, hfinished]; exact he.completed
    errors := by rw [hreport, hfinished]; exact he.errors
    table := by simpa [hfinished] using he.table.trans hreclaimed
    watched := hwatched }

/-- every turn keeps the reckoning -/
theorem Exact.turn (he : Exact t site d) : Exact t site (crew.turn d) := by
  cases hq : d.tasks.queue with
  | nil => rwa [turn_of_idle hq]
  | cons slot rest =>
    rcases crew.turn_cases hq with ⟨-, -, hslots, hsite, hreport, hfinished, -⟩ | ⟨tenant, -, ht, -,
      ⟨work, hslots, hused, hreport, hfinished⟩ | ⟨outcome, after, hslots, hused, hsite, hreport, hfinished⟩⟩
    · exact he.unfinished (by rw [hslots]) (hsite ▸ .refl _) hreport hfinished
    · obtain ⟨pre, post, hlist, -, hset⟩ := Slots.toList_focus ht
      refine he.unfinished ?_ hused hreport hfinished
      rw [hslots, hset, hlist]
      simp [badge]
    · obtain ⟨pre, post, hlist, herase, -⟩ := Slots.toList_focus ht
      obtain ⟨hwatched, hreclaimed⟩ := reclaimed_reclaim he.watched hused ⟨tenant.serial, tenant.userdata, outcome⟩
      refine ⟨?_, ?_, ?_, ?_, hsite ▸ hwatched⟩
      · have htasks := he.tasks
        rw [hlist] at htasks
        rw [hslots, herase, hfinished]
        refine List.Perm.trans ?_ htasks
        simp only [List.map_append, List.map_cons, List.map_nil, List.append_assoc, List.cons_append]
        refine List.Perm.append_left _ ?_
        rw [← List.append_assoc]
        exact List.perm_append_singleton ..
      · rw [hreport, hfinished]
        simp [Engine.count, he.completed]
      · rw [hreport, hfinished]
        cases outcome <;> simp [Engine.count, he.errors, Except.isOk, Except.toBool]
      · rw [hfinished, hsite]
        have htable := he.table.trans hreclaimed
        rw [List.filterMap_append]
        cases hu : tenant.userdata <;> simpa [hu] using htable

end Crew

/-! ## The engine -/

namespace Engine

variable {wrap : Handle → H}

/-- an exchange uses the table through its transport only -/
theorem used_run {α : Type} (self : Handle) (place : Place) (talk : Http.Talk α) (site : Site H) :
    site.connections.Used (talk.run (transport wrap self place) site).1.connections :=
  talk.run_keeps (I := fun s : Site H => site.connections.Used s.connections)
    (fun count hu => hu.call (.recv place.slot (wrap self) count) rfl)
    (fun bytes hu => hu.call (.send place.slot (wrap self) bytes) rfl) (fun hu => hu.call (.shutdown place.slot) rfl)
    (fun _ hu => hu) (.refl _)

/-- the tasks of an engine -/
def crew (protocol : Http.Protocol X) (wrap : Handle → H) : Crew (ConnectionTask X) H where
  runner := runner protocol wrap
  runs self site work := used_run self work.place _ site
  notes _ _ := rfl

theorem pumpUpTo_eq (limit : Nat) (e : Engine X) (site : Site H) (report : PumpTally) :
    e.pumpUpTo wrap limit site report =
      ((crew e.protocol wrap).drainUpTo limit e.tasks site report).map fun d =>
        { engine := { e with tasks := d.tasks }, site := d.site, report := d.report, course := d.course } := by
  induction limit generalizing e site report with
  | zero => rfl
  | succ limit ih =>
    unfold pumpUpTo Crew.drainUpTo
    rw [show (crew e.protocol wrap).runner = runner e.protocol wrap from rfl]
    cases e.tasks.poll (runner e.protocol wrap) limit site with
    | none => rfl
    | some polled =>
      dsimp only
      cases polled.completed with
      | none => rfl
      | some c =>
        dsimp only
        rw [ih, Option.map_map, Option.map_map]
        rfl

end Engine

/-- **A pump ends, and it is exact.** The pump of an engine is the drain of its crew. Whatever the tasks of a crew are,
whomever they wake and however they use the table through transports: if each of them is run finitely often, the drain
returns, and then there is nothing left to run. What it reports as completed is by how much the tasks in flight have
become fewer, and as errors how many tasks finished with one. The connections that are gone from the table are those
that the finished tasks named, each with its watch and counted once; all others are still there and watched, and tasks
that name none take out none. -/
theorem pump_exact :
    (∀ (e : Engine X) (wrap : Handle → H) (limit : Nat) (site : Site H),
      e.pump wrap limit site = ((Engine.crew e.protocol wrap).drain limit e.tasks site).map fun d =>
        { engine := { e with tasks := d.tasks }, site := d.site, report := d.report, course := d.course }) ∧
    ∀ (crew : Crew F H) (t : Tasks Nat F) (site : Site H), site.connections.Watched → crew.Settles t site →
      ∃ enough d, (∀ limit, enough ≤ limit → crew.drain limit t site = some d) ∧ d.tasks.queue = [] ∧
        d.report.completed + d.tasks.size = t.size ∧ Crew.Exact t site d := by
  refine ⟨fun e wrap limit site => e.pumpUpTo_eq limit site {}, fun crew t site hw hs => ?_⟩
  obtain ⟨n, hn⟩ := Crew.exists_idle hs
  have he := crew.turns_keep (P := Crew.Exact t site) (fun _ => Crew.Exact.turn) (Crew.exact_start hw) n
  refine ⟨n + 1, crew.turns t site n, fun limit hl => ?_, hn, ?_, he⟩
  · have hd := crew.drainUpTo_eq (d := { tasks := t, site }) hn (by omega : n < limit)
    simpa [Crew.drain, Crew.turns] using hd
  · have hsize := he.tasks.length_eq
    simp only [List.length_append, List.length_map] at hsize
    rw [he.completed, Tasks.size, Tasks.size, Slots.size, Slots.size]
    omega

/-! ## A crew to look at -/

namespace Sample

/-- what a task does in its runs, each of which makes some calls and wakes some handles, and how it finishes then -/
structure Chore where
  runs : List (List (Connections.Request Handle) × List Handle) := []
  outcome : Except TaskFailure Unit := .ok ()

def chores : Crew Chore Handle where
  runner :=
    { run := fun _ site chore =>
        match chore.runs with
        | [] => { env := site, work := chore, outcome := some chore.outcome }
        | (calls, woken) :: rest =>
          { env := { site with connections := (calls.filter (·.isCall)).foldl Connections.after site.connections }
            work := { chore with runs := rest }
            woken }
      note := fun site note => site.record none [note] }
  runs _ site chore := by
    dsimp only
    split
    · exact .refl _
    · next calls woken rest _ => exact ⟨calls.filter (·.isCall), fun call hm => (List.mem_filter.1 hm).2, rfl⟩
  notes _ _ := rfl

/-- three pairs, the last of which has no room to write at its far end -/
def pairs (h : Host) : Host :=
  { h with
    streams := [{ family := .unix }, { family := .unix },
      { family := .unix, near := { inbox := [⟨[0], sendAllowance⟩] } }]
    devices := (List.range 3).flatMap fun id => [some (.stream id .near), some (.stream id .far)] }

def arrivals : List (Connections.Request Handle) :=
  [.onHost pairs, .insert 1 ⟨"c0"⟩, .insert 3 ⟨"c1"⟩, .insert 5 ⟨"c2"⟩]

def room : Site Handle := { connections := arrivals.foldl Connections.after (.empty { host := {} } true) }

/-- the first two tasks wake each other and themselves, the second one parks a write on the third connection and fails
in the end, and the third task belongs to no connection -/
def chatty : Tasks Nat Chore :=
  let first : Chore := { runs := [([], [⟨0, 0⟩]), ([], [⟨1, 1⟩])] }
  let second : Chore :=
    { runs := [([.send 2 ⟨1, 1⟩ [1]], []), ([], [⟨0, 0⟩, ⟨1, 1⟩])], outcome := .error (.exchange .incomplete) }
  (((Tasks.empty.push first (some 0)).state.push second (some 1)).state.push {} none).state

theorem watched_room : room.connections.Watched := by
  have hguarded : Host.Guarded {} := ⟨.nil, by simp⟩
  have hallowed : Connections.Throughout Connections.Allowed (.empty { host := {} } true) arrivals := by decide +kernel
  exact (hallowed.keeps Connections.Enrolled.after (Connections.enrolled_empty hguarded true)).watched

end Sample

/-- of three tasks that finish, one with an error, two take out their connections; the third connection stays -/
theorem pump_exact_chatty :
    (∃ enough d, (∀ limit, enough ≤ limit → Sample.chores.drain limit Sample.chatty Sample.room = some d) ∧
      d.tasks.queue = [] ∧ d.report.completed + d.tasks.size = 3 ∧ Crew.Exact Sample.chatty Sample.room d) ∧
    (Sample.chores.drain 10 Sample.chatty Sample.room).map (fun d =>
        (d.report, d.site.connections.keys, d.site.connections.notifier.deregistrations)) =
      some (⟨3, 1⟩, [2], 2) := by
  refine ⟨?_, by decide +kernel⟩
  have hsettles : Sample.chores.Settles Sample.chatty Sample.room :=
    Crew.settles_of_idle (n := 7) (by decide +kernel)
  exact (pump_exact (X := Unit)).2 Sample.chores Sample.chatty Sample.room Sample.watched_room hsettles

end EventServer
