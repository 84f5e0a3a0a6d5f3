/-
Coalescence: how many entries of the queue a task can be the cause of.

A wake queues a slot only if the mark of its serial does not stand, so between two runs a task queues its slot once. But
the mark belongs to the task and the entry to the slot. A handle that outlives its task queues the slot once more, and
the run of the next tenant that this entry leads to takes that tenant's mark away while the tenant's own entry is still
in the queue; so a slot may have several entries, and no bound on one task's entries holds.

What is conserved is told by the history alone. `Roll` replays it: every request that queued a slot (`entries`) belongs
to one run of its task that found the mark standing (`asked`), or else the mark stands now (`Roll.Balanced`). The other
side is the queue: every entry is in it still, or a run answered it, an asked one or an `extra` one, or it was skipped
because nobody lived in its slot (`Roll.Follows`). So what is in the queue, was extra or was skipped is as much as there
are marks, and those are the present tenant's and at most one for each task that has ended (`visits_marked_le`).

`wakes_coalesce` is the result.
-/
import EventServer.Proofs.Wakefulness
import Mathlib.Data.List.Perm.Subperm

namespace EventServer

open TaskEvent Tasks

variable {U F E ε : Type}

/-- how many of the handles are of tasks in the slot -/
def visits (handles : List Handle) (slot : Nat) : Nat := (handles.map Handle.slot).count slot

@[simp] theorem visits_nil (slot : Nat) : visits [] slot = 0 := rfl

@[simp] theorem visits_cons (h : Handle) (rest : List Handle) (slot : Nat) :
    visits (h :: rest) slot = visits rest slot + if h.slot = slot then 1 else 0 := by
  simp [visits, List.count_cons]

@[simp] theorem visits_append (handles rest : List Handle) (slot : Nat) :
    visits (handles ++ rest) slot = visits handles slot + visits rest slot := by
  simp [visits]

/-- what a history tells of the marks, and of who was queued and run -/
structure Roll where
  marked : List Nat := []
  /-- the requests that queued a slot -/
  entries : List Handle := []
  /-- the runs of tasks whose mark stood -/
  asked : List Handle := []
  /-- the runs of tasks that nobody had asked for since they were run last -/
  extra : List Handle := []

namespace Roll

/-- a request that queues its slot -/
def enter (roll : Roll) (h : Handle) : Roll :=
  { roll with marked := h.serial :: roll.marked, entries := roll.entries ++ [h] }

def run (roll : Roll) (h : Handle) : Roll :=
  let cleared := { roll with marked := roll.marked.filter (· != h.serial) }
  if h.serial ∈ roll.marked then { cleared with asked := roll.asked ++ [h] }
  else { cleared with extra := roll.extra ++ [h] }

def note (roll : Roll) : TaskEvent U ε → Roll
  | .pushed h _ => roll.enter h
  | .woken h => if h.serial ∈ roll.marked then roll else roll.enter h
  | .ran h => roll.run h
  | _ => roll

end Roll

namespace TaskEvent

/-- the roll of a history -/
def roll (past : List (TaskEvent U ε)) : Roll := past.foldl Roll.note {}

@[simp] theorem roll_append (past later : List (TaskEvent U ε)) :
    roll (past ++ later) = later.foldl Roll.note (roll past) :=
  List.foldl_append

/-- the handles that were given out -/
def handles (past : List (TaskEvent U ε)) : List Handle := (pushes past).map (·.1)

theorem mem_handles {past : List (TaskEvent U ε)} {h : Handle} :
    h ∈ handles past ↔ ∃ userdata, .pushed h userdata ∈ past := by
  simp only [handles, List.mem_map, Prod.exists, exists_and_right, exists_eq_right, mem_pushes]

@[simp] theorem handles_append (past later : List (TaskEvent U ε)) :
    handles (past ++ later) = handles past ++ handles later := by
  simp [handles]

theorem handles_eq_nil {events : List (TaskEvent U ε)} (hn : ∀ h userdata, .pushed h userdata ∉ events) :
    handles events = [] :=
  List.eq_nil_iff_forall_not_mem.2 fun h hm => by
    obtain ⟨userdata, hp⟩ := mem_handles.1 hm
    exact hn h userdata hp

def ended? : TaskEvent U ε → Option Handle
  | ended h _ => some h
  | _ => none

/-- the tasks that ended -/
def ends (past : List (TaskEvent U ε)) : List Handle := past.filterMap ended?

theorem mem_ends {past : List (TaskEvent U ε)} {h : Handle} {outcome : Except ε Unit}
    (hm : .ended h outcome ∈ past) : h ∈ ends past :=
  List.mem_filterMap.2 ⟨_, hm, rfl⟩

end TaskEvent

/-! ## Entries and marks -/

/-- the tasks whose mark stands -/
def lit (known : List Handle) (marked : List Nat) : List Handle := known.filter (·.serial ∈ marked)

/-- marks of other tasks count for the same -/
theorem visits_lit {known : List Handle} {h : Handle} (hnodup : (known.map Handle.serial).Nodup) (hm : h ∈ known)
    {marked marked' : List Nat}
    (hothers : ∀ serial, serial ≠ h.serial → (serial ∈ marked' ↔ serial ∈ marked)) (slot : Nat) :
    visits (lit known marked') slot + (if h.serial ∈ marked ∧ h.slot = slot then 1 else 0) =
      visits (lit known marked) slot + if h.serial ∈ marked' ∧ h.slot = slot then 1 else 0 := by
  obtain ⟨before, after, rfl⟩ := List.append_of_mem hm
  rw [List.map_append, List.map_cons] at hnodup
  have hnot := (List.nodup_middle.1 hnodup).notMem
  have hsame : ∀ part : List Handle, (∀ other ∈ part, other.serial ≠ h.serial) → lit part marked' = lit part marked :=
    fun part hp => List.filter_congr fun other ho => by simp [hothers other.serial (hp other ho)]
  have hbefore := hsame before fun other ho he => hnot (by simp [← he, List.mem_map_of_mem ho])
  have hafter := hsame after fun other ho he => hnot (by simp [← he, List.mem_map_of_mem ho])
  have hsplit : ∀ marks, visits (lit (before ++ h :: after) marks) slot = visits (lit before marks) slot +
      visits (lit after marks) slot + if h.serial ∈ marks ∧ h.slot = slot then 1 else 0 := by
    intro marks
    by_cases hmark : h.serial ∈ marks
    · simp [lit, hmark]
      omega
    · simp [lit, hmark]
  rw [hsplit, hsplit, hbefore, hafter]
  omega

/-- every entry belongs to a run of its task that was asked for, or the task's mark stands -/
structure Roll.Balanced (roll : Roll) (known : List Handle) : Prop where
  nodup : (known.map Handle.serial).Nodup
  marked : roll.marked ⊆ known.map Handle.serial
  entries : roll.entries ⊆ known
  asked : roll.asked ⊆ known
  own : ∀ h ∈ known, roll.entries.count h = roll.asked.count h + if h.serial ∈ roll.marked then 1 else 0
  total : ∀ slot, visits roll.entries slot = visits roll.asked slot + visits (lit known roll.marked) slot

namespace Roll.Balanced

variable {roll : Roll} {known : List Handle} {h : Handle}

theorem start : ({} : Roll).Balanced [] :=
  ⟨.nil, by simp, by simp, by simp, by simp, by simp [lit]⟩

theorem eq_of_serial (hb : roll.Balanced known) {h' : Handle} (hm : h ∈ known) (hm' : h' ∈ known)
    (he : h.serial = h'.serial) : h = h' :=
  List.inj_on_of_nodup_map hb.nodup hm hm' he

theorem enter (hb : roll.Balanced known) (hm : h ∈ known) (hmark : h.serial ∉ roll.marked) :
    (roll.enter h).Balanced known := by
  refine ⟨hb.nodup, List.cons_subset.2 ⟨List.mem_map_of_mem hm, hb.marked⟩,
    List.append_subset.2 ⟨hb.entries, by simpa using hm⟩, hb.asked, fun other ho => ?_, fun slot => ?_⟩
  · have hown := hb.own other ho
    by_cases hself : other = h
    · subst hself
      simp_all [Roll.enter]
    · have hserial : other.serial ≠ h.serial := fun he => hself (hb.eq_of_serial ho hm he)
      simpa [Roll.enter, List.count_cons, hserial, Ne.symm hself] using hown
  · have htotal := hb.total slot
    have hothers : ∀ serial, serial ≠ h.serial → (serial ∈ h.serial :: roll.marked ↔ serial ∈ roll.marked) :=
      fun _ hne => by simp [hne]
    have hlit := visits_lit hb.nodup hm hothers slot
    simp [hmark] at hlit
    simp [Roll.enter, htotal, hlit]
    omega

/-- a task that is new brings a mark of its own -/
theorem push (hb : roll.Balanced known) (hnew : h.serial ∉ known.map Handle.serial) :
    (roll.enter h).Balanced (known ++ [h]) := by
  have hunknown : h ∉ known := fun hm => hnew (List.mem_map_of_mem hm)
  have hmark : h.serial ∉ roll.marked := fun hm => hnew (hb.marked hm)
  have hplus : roll.Balanced (known ++ [h]) := by
    refine ⟨?_, ?_, fun _ hm => List.mem_append_left _ (hb.entries hm),
      fun _ hm => List.mem_append_left _ (hb.asked hm), fun other ho => ?_, fun slot => ?_⟩
    · rw [List.map_append]
      refine List.nodup_append.2 ⟨hb.nodup, by simp, ?_⟩
      rintro serial hs _ hs' rfl
      exact hnew (List.mem_singleton.1 hs' ▸ hs)
    · exact fun serial hm => by simpa using .inl (by simpa using hb.marked hm)
    · rcases List.mem_append.1 ho with ho | ho
      · exact hb.own other ho
      · cases List.mem_singleton.1 ho
        rw [List.count_eq_zero.2 fun hm => hunknown (hb.entries hm),
          List.count_eq_zero.2 fun hm => hunknown (hb.asked hm), if_neg hmark]
    · simpa [lit, hmark] using hb.total slot
  exact hplus.enter (by simp) hmark

theorem run (hb : roll.Balanced known) (hm : h ∈ known) : (roll.run h).Balanced known := by
  have hcleared : roll.marked.filter (· != h.serial) ⊆ known.map Handle.serial :=
    fun _ hs => hb.marked (List.mem_of_mem_filter hs)
  by_cases hmark : h.serial ∈ roll.marked
  · rw [Roll.run, if_pos hmark]
    refine ⟨hb.nodup, hcleared, hb.entries, List.append_subset.2 ⟨hb.asked, by simpa using hm⟩, fun other ho => ?_,
      fun slot => ?_⟩
    · have hown := hb.own other ho
      by_cases hself : other = h
      · subst hself
        simp_all
      · have hserial : other.serial ≠ h.serial := fun he => hself (hb.eq_of_serial ho hm he)
        simpa [List.count_cons, hserial, Ne.symm hself] using hown
    · have htotal := hb.total slot
      have hothers : ∀ serial, serial ≠ h.serial →
          (serial ∈ roll.marked.filter (· != h.serial) ↔ serial ∈ roll.marked) := fun _ hne => by simp [hne]
      have hlit := visits_lit hb.nodup hm hothers slot
      simp [hmark] at hlit
      simp [htotal, ← hlit]
      omega
  · have hsame : roll.marked.filter (· != h.serial) = roll.marked :=
      List.filter_eq_self.2 fun serial hs => by
        simp only [bne_iff_ne, ne_eq]
        rintro rfl
        exact hmark hs
    rw [Roll.run, if_neg hmark, hsame]
    exact ⟨hb.nodup, hb.marked, hb.entries, hb.asked, hb.own, hb.total⟩

end Roll.Balanced

/-! ## Entries and the queue -/

/-- every entry is in the queue still, was answered by a run, or was skipped -/
structure Roll.Follows (roll : Roll) (t : Tasks U F) (skipped : List Nat) : Prop where
  marked : roll.marked = t.marked
  entries : ∀ slot, visits roll.entries slot =
    t.queue.count slot + visits roll.asked slot + visits roll.extra slot + skipped.count slot

namespace Roll.Follows

variable {roll : Roll} {t : Tasks U F} {skipped : List Nat}

theorem wake (hf : roll.Follows t skipped) (h : Handle) :
    (roll.note (.woken h : TaskEvent U ε)).Follows (t.wake h) skipped := by
  have hmarked := hf.marked
  by_cases hmark : h.serial ∈ roll.marked
  · simpa [Roll.note, Tasks.wake, hmark, ← hmarked] using hf
  · have hwake : t.wake h = { t with queue := t.queue ++ [h.slot], marked := h.serial :: t.marked } := by
      rw [Tasks.wake, if_neg (by simpa [← hmarked] using hmark)]
    rw [hwake, Roll.note, if_neg hmark]
    refine ⟨congrArg _ hmarked, fun slot => ?_⟩
    have hentries := hf.entries slot
    simp only [Roll.enter, visits_append, visits_cons, visits_nil, List.count_append, List.count_singleton, beq_iff_eq]
    omega

theorem wakes (hf : roll.Follows t skipped) (hs : List Handle) :
    ((hs.map (.woken : Handle → TaskEvent U ε)).foldl Roll.note roll).Follows (hs.foldl Tasks.wake t) skipped := by
  induction hs generalizing roll t with
  | nil => exact hf
  | cons h rest ih => exact ih (hf.wake h)

/-- the slot at the head of the queue is taken, and its tenant is run -/
theorem run (hf : roll.Follows t skipped) {h : Handle} (hq : t.queue.head? = some h.slot) :
    (roll.run h).Follows { t with queue := t.queue.tail, marked := t.marked.filter (· != h.serial) } skipped := by
  have hqueue : t.queue = h.slot :: t.queue.tail := List.eq_cons_of_mem_head? hq
  have hcount : ∀ slot, t.queue.count slot = t.queue.tail.count slot + if h.slot = slot then 1 else 0 := by
    intro slot
    conv_lhs => rw [hqueue]
    simp [List.count_cons]
  unfold Roll.run
  split
  all_goals
    refine ⟨by simp [hf.marked], fun slot => ?_⟩
    have hentries := hf.entries slot
    have hslot := hcount slot
    simp only [visits_append, visits_cons, visits_nil]
    omega

/-- the slot at the head of the queue is taken, and nobody lives there -/
theorem skip (hf : roll.Follows t skipped) {slot : Nat} (hq : t.queue.head? = some slot) :
    roll.Follows { t with queue := t.queue.tail } (slot :: skipped) := by
  have hqueue : t.queue = slot :: t.queue.tail := List.eq_cons_of_mem_head? hq
  refine ⟨hf.marked, fun other => ?_⟩
  have hentries := hf.entries other
  rw [hqueue, List.count_cons] at hentries
  simp only [List.count_cons]
  omega

end Roll.Follows

/-! ## Turns -/

/-- what is noted of no run and no request leaves the roll alone -/
theorem foldl_note_of_quiet {events : List (TaskEvent U ε)}
    (hq : ∀ event ∈ events, ∀ roll : Roll, roll.note event = roll) (roll : Roll) :
    events.foldl Roll.note roll = roll := by
  induction events with
  | nil => rfl
  | cons event rest ih =>
    rw [List.foldl_cons, hq event (by simp)]
    exact ih fun event hm => hq event (List.mem_cons_of_mem _ hm)

@[simp] theorem foldl_note_releases (x y : Option (Tasks U F)) (roll : Roll) :
    (releases x y : List (TaskEvent U ε)).foldl Roll.note roll = roll :=
  foldl_note_of_quiet (fun event hm _ => by
    obtain ⟨serial, -, rfl⟩ := List.mem_map.1 hm
    rfl) roll

/-- a turn takes its slot from the queue; if somebody lives there, the mark goes and the run wakes some handles -/
theorem Tasks.turn_queue (r : Runner E F ε) (t : Tasks U F) (env : E) (slot : Nat) :
    t.slots.get? slot = none ∧ (t.turn r env slot).tasks = { t with queue := t.queue.tail } ∧
        t.turnEvents r env slot = [] ∨
      ∃ tenant, ∃ hs : List Handle, ∃ rest : List (TaskEvent U ε), t.slots.get? slot = some tenant ∧
        t.turnEvents r env slot = .ran ⟨slot, tenant.serial⟩ :: hs.map .woken ++ rest ∧
        (∀ event ∈ rest, ∀ roll : Roll, roll.note event = roll) ∧
        let cleared := { t with queue := t.queue.tail, marked := t.marked.filter (· != tenant.serial) }
        (t.turn r env slot).tasks.queue = (hs.foldl Tasks.wake cleared).queue ∧
        (t.turn r env slot).tasks.marked = (hs.foldl Tasks.wake cleared).marked := by
  cases ht : t.slots.get? slot with
  | none =>
    have hturn : t.turn r env slot =
        { tasks := { t with queue := t.queue.tail }, env := (r.note env (.staleWake slot), []) } := by
      simp [Tasks.turn, runSlot, ht, Runner.noting]
    refine .inl ⟨rfl, by rw [hturn], ?_⟩
    have hkept : (releases (some t) (some { t with queue := t.queue.tail }) : List (TaskEvent U ε)) = [] :=
      releases_of_kept (kept_of_slots rfl)
    rw [turnEvents, hturn]
    simpa using hkept
  | some tenant =>
    refine .inr ⟨tenant, (r.run ⟨slot, tenant.serial⟩ env tenant.work).woken,
      (r.run ⟨slot, tenant.serial⟩ env tenant.work).outcome.toList.map (.ended ⟨slot, tenant.serial⟩) ++
        (releases (some t) (some (t.turn r env slot).tasks) ++
          (t.turn r env slot).completed.toList.map fun completed => .returned (some completed)), rfl, ?_, ?_, ?_⟩
    · have hlog : (t.turn r env slot).env.2 = .ran ⟨slot, tenant.serial⟩ ::
          (r.run ⟨slot, tenant.serial⟩ env tenant.work).woken.map .woken ++
          (r.run ⟨slot, tenant.serial⟩ env tenant.work).outcome.toList.map (.ended ⟨slot, tenant.serial⟩) := by
        unfold Tasks.turn runSlot
        rw [ht]
        dsimp only [Runner.noting]
        cases (r.run ⟨slot, tenant.serial⟩ env tenant.work).outcome <;> simp
      rw [turnEvents, hlog]
      simp
    · intro event hm roll
      simp only [List.mem_append, List.mem_map, releases] at hm
      rcases hm with ⟨_, _, rfl⟩ | ⟨_, _, rfl⟩ | ⟨_, _, rfl⟩ <;> rfl
    · unfold Tasks.turn runSlot
      rw [ht]
      dsimp only [Runner.noting]
      cases (r.run ⟨slot, tenant.serial⟩ env tenant.work).outcome <;> exact ⟨rfl, rfl⟩

/-- the books of the queue, over a turn -/
theorem Roll.Follows.turn {roll : Roll} {t : Tasks U F} {skipped : List Nat} (hf : roll.Follows t skipped) {slot : Nat}
    (hq : t.queue.head? = some slot) (r : Runner E F ε) (env : E) :
    ∃ skipped', ((t.turnEvents r env slot).foldl Roll.note roll).Follows (t.turn r env slot).tasks skipped' := by
  rcases t.turn_queue r env slot with
    ⟨-, htasks, hevents⟩ | ⟨tenant, hs, rest, -, hevents, hrest, hqueue, hmarked⟩
  · rw [htasks, hevents]
    exact ⟨slot :: skipped, hf.skip hq⟩
  · have hrun := (hf.run (h := ⟨slot, tenant.serial⟩) hq).wakes (U := U) (ε := ε) hs
    rw [hevents, List.foldl_append, foldl_note_of_quiet hrest, List.foldl_cons]
    exact ⟨skipped, hrun.marked.trans hmarked.symm, fun other => by rw [hqueue]; exact hrun.entries other⟩

/-! ## Sessions -/

variable {r : Runner E F ε} {x : Option (Tasks U F)} {t : Tasks U F} {past : List (TaskEvent U ε)}

theorem Roll.Balanced.wakes {roll : Roll} {known : List Handle} (hb : roll.Balanced known) (hs : List Handle)
    (hk : ∀ h ∈ hs, h ∈ known) :
    ((hs.map (.woken : Handle → TaskEvent U ε)).foldl Roll.note roll).Balanced known := by
  induction hs generalizing roll with
  | nil => exact hb
  | cons h rest ih =>
    refine ih ?_ fun other ho => hk other (List.mem_cons_of_mem _ ho)
    by_cases hmark : h.serial ∈ roll.marked
    · simpa [Roll.note, hmark] using hb
    · simpa [Roll.note, hmark] using hb.enter (hk h (by simp)) hmark

theorem Session.balanced (hs : Session r x past) : (roll past).Balanced (handles past) := by
  induction hs with
  | start => exact .start
  | @step x _ past _ hs hstep ih => cases hstep with
  | @push t work userdata =>
    obtain ⟨hl, hnames⟩ := hs.lawful rfl
    have hnew : (t.push work userdata).value.serial ∉ (handles past).map Handle.serial := fun hm => by
      obtain ⟨h, hh, he⟩ := List.mem_map.1 hm
      obtain ⟨userdata, hp⟩ := mem_handles.1 hh
      exact Nat.ne_of_lt (hnames hp).serial he
    rw [hl.releases_push, roll_append, handles_append]
    exact ih.push hnew
  | @wake _ h userdata hh =>
    have hnone : handles ([.woken h] : List (TaskEvent U ε)) = [] := handles_eq_nil (by simp)
    rw [releases_wake, roll_append, handles_append, hnone, List.append_nil]
    exact ih.wakes (U := U) (ε := ε) [h] fun _ hm => List.mem_singleton.1 hm ▸ mem_handles.2 ⟨userdata, hh⟩
  | @turn t slot env hq hh =>
    rw [roll_append, handles_append, handles_eq_nil ((hs.lawful rfl).1.pushed_notMem_turnEvents r env slot),
      List.append_nil]
    rcases t.turn_queue r env slot with ⟨-, -, hevents⟩ | ⟨tenant, woken, rest, ht, hevents, hrest, -⟩
    · rw [hevents]
      exact ih
    · have hself : ⟨slot, tenant.serial⟩ ∈ handles past :=
        mem_handles.2 ⟨_, hs.accounts.enrolled (lives_some.2 ⟨tenant, ht, rfl, rfl⟩)⟩
      rw [hevents, List.foldl_append, foldl_note_of_quiet hrest, List.foldl_cons]
      refine (ih.run hself).wakes woken fun h hm => mem_handles.2 (hh h ?_)
      simp [hevents, hm]
  | @idle t _ =>
    have hnone : handles ([.returned none] : List (TaskEvent U ε)) = [] := handles_eq_nil (by simp)
    rw [roll_append, handles_append, hnone, List.append_nil]
    exact ih
  | drop =>
    have hnone : handles (.dropped :: releases x none : List (TaskEvent U ε)) = [] :=
      handles_eq_nil (by simp [releases])
    rw [roll_append, handles_append, hnone, List.append_nil, List.foldl_cons, foldl_note_releases]
    exact ih

theorem Session.follows (hs : Session r x past) : ∀ t, x = some t → ∃ skipped, (roll past).Follows t skipped := by
  induction hs with
  | start =>
    rintro _ ⟨⟩
    exact ⟨[], rfl, fun slot => rfl⟩
  | @step _ _ past _ _ hstep ih => cases hstep with
  | @push t work userdata =>
    rintro _ ⟨⟩
    obtain ⟨skipped, hf⟩ := ih t rfl
    rw [roll_append, List.foldl_cons, foldl_note_releases]
    refine ⟨skipped, congrArg _ hf.marked, fun slot => ?_⟩
    have hentries := hf.entries slot
    simp only [Roll.note, Roll.enter, Tasks.push, visits_append, visits_cons, visits_nil, List.count_append,
      List.count_singleton, beq_iff_eq]
    omega
  | @wake _ h userdata _ =>
    intro t' ht'
    obtain ⟨t, rfl, rfl⟩ := Option.map_eq_some_iff.1 ht'
    obtain ⟨skipped, hf⟩ := ih t rfl
    rw [releases_wake, roll_append]
    exact ⟨skipped, hf.wake (ε := ε) h⟩
  | @turn t slot env hq _ =>
    rintro _ ⟨⟩
    obtain ⟨skipped, hf⟩ := ih t rfl
    rw [roll_append]
    exact hf.turn hq r env
  | @idle t _ =>
    rintro _ ⟨⟩
    rw [roll_append]
    exact ih t rfl
  | drop => rintro _ ⟨⟩

/-! ## What coalesces -/

/-- whether somebody lives in the slot and is marked -/
def Tasks.occupiedAndMarked (t : Tasks U F) (slot : Nat) : Bool :=
  (t.slots.get? slot).any (t.marked.contains ·.serial)

/-- a slot's marks are those of its tenant and of tasks that have ended there -/
theorem Session.visits_lit_le (hs : Session r (some t) past) (slot : Nat) :
    visits (lit (handles past) t.marked) slot ≤
      (if t.occupiedAndMarked slot then 1 else 0) + visits (ends past) slot := by
  have ha := hs.accounts
  let marks := (lit (handles past) t.marked).filter (·.slot == slot)
  let own : List Handle := (t.slots.get? slot).toList.filterMap fun tenant =>
    if tenant.serial ∈ t.marked then some ⟨slot, tenant.serial⟩ else none
  have hcount : ∀ hs : List Handle, visits hs slot = (hs.filter (·.slot == slot)).length := fun hs => by
    rw [visits, List.count, List.countP_map, List.countP_eq_length_filter]
    rfl
  have hown : own.length = if t.occupiedAndMarked slot then 1 else 0 := by
    cases ht : t.slots.get? slot with
    | none => simp [own, ht, Tasks.occupiedAndMarked]
    | some tenant => by_cases hm : tenant.serial ∈ t.marked <;> simp [own, ht, Tasks.occupiedAndMarked, hm]
  have hnodup : marks.Nodup := ((List.Nodup.of_map _ hs.balanced.nodup).filter _).filter _
  have hsub : marks ⊆ own ++ (ends past).filter (·.slot == slot) := by
    intro h hm
    obtain ⟨hm, hslot⟩ := List.mem_filter.1 hm
    obtain ⟨hm, hmark⟩ := List.mem_filter.1 hm
    obtain ⟨userdata, hp⟩ := mem_handles.1 hm
    have hslot : h.slot = slot := by simpa using hslot
    by_cases hl : ∃ userdata, Lives (some t) h userdata
    · obtain ⟨userdata, hl⟩ := hl
      obtain ⟨tenant, ht, hserial, -⟩ := lives_some.1 hl
      refine List.mem_append_left _ (List.mem_filterMap.2 ⟨tenant, by simpa [← hslot] using ht, ?_⟩)
      rw [if_pos (by simpa [hserial] using hmark), hserial, ← hslot]
    · obtain ⟨outcome, hended⟩ := ha.ended hp hl
      exact List.mem_append_right _ (List.mem_filter.2 ⟨mem_ends hended, by simp [hslot]⟩)
  rw [hcount, hcount, ← hown, ← List.length_append]
  exact (List.subperm_of_subset hnodup hsub).length_le

/-- handles of one task queue its slot once, and not at all if its mark stands -/
theorem Tasks.count_wakes (t : Tasks U F) {slot : Nat} (serial : Nat) {hs : List Handle}
    (hone : ∀ h ∈ hs, h.slot = slot → h.serial = serial) :
    (hs.foldl Tasks.wake t).queue.count slot ≤ t.queue.count slot + if serial ∈ t.marked then 0 else 1 := by
  induction hs generalizing t with
  | nil => exact Nat.le_add_right _ _
  | cons h rest ih =>
    refine Nat.le_trans (ih (t.wake h) fun other ho => hone other (List.mem_cons_of_mem _ ho)) ?_
    have hserial := hone h (by simp)
    by_cases hmark : h.serial ∈ t.marked
    · simp [Tasks.wake, hmark]
    · by_cases hslot : h.slot = slot
      · have := hserial hslot
        simp_all [Tasks.wake, List.count_append]
      · simp only [Tasks.wake, List.contains_eq_mem, hmark, decide_false, Bool.false_eq_true, if_false,
          List.count_append, List.count_singleton, beq_iff_eq, hslot]
        split <;> split <;> simp_all

/-- a mark is taken away by a run of its task only -/
theorem Roll.mem_marked_foldl {roll : Roll} {serial : Nat} {events : List (TaskEvent U ε)}
    (hm : serial ∈ roll.marked) (hruns : ∀ h, .ran h ∈ events → h.serial ≠ serial) :
    serial ∈ (events.foldl Roll.note roll).marked := by
  induction events generalizing roll with
  | nil => exact hm
  | cons event rest ih =>
    refine ih ?_ fun h hh => hruns h (List.mem_cons_of_mem _ hh)
    cases event with
    | pushed h _ => exact List.mem_cons_of_mem _ hm
    | woken h =>
      simp only [Roll.note]
      split
      · exact hm
      · exact List.mem_cons_of_mem _ hm
    | ran h =>
      have hne := hruns h (by simp)
      simp only [Roll.note, Roll.run]
      split <;> simpa [hm] using Ne.symm hne
    | _ => exact hm

/-- who is woken after the end is marked from then on -/
theorem Session.marked_of_late (hs : Session r (some t) past) {earlier later : List (TaskEvent U ε)} {h : Handle}
    {outcome : Except ε Unit} (he : past = earlier ++ .ended h outcome :: later) (hm : .woken h ∈ later) :
    h.serial ∈ t.marked := by
  obtain ⟨skipped, hf⟩ := hs.follows t rfl
  obtain ⟨before, after, rfl⟩ := List.append_of_mem hm
  have hruns : ∀ h', .ran h' ∈ after → h'.serial ≠ h.serial := fun h' hh =>
    hs.accounts.not_ran he (by simp [hh])
  have hsplit : past = (earlier ++ .ended h outcome :: before) ++ [.woken h] ++ after := by simp [he]
  rw [← hf.marked, hsplit, roll_append]
  refine Roll.mem_marked_foldl ?_ hruns
  rw [roll_append]
  simp only [List.foldl_cons, List.foldl_nil, Roll.note]
  split
  · next hmark => exact hmark
  · simp [Roll.enter]

theorem Session.queued_of_marked (hs : Session r (some t) past) (slot : Nat) :
    (if t.occupiedAndMarked slot then 1 else 0) ≤ t.queue.count slot := by
  split
  · next ho =>
    unfold Tasks.occupiedAndMarked at ho
    cases ht : t.slots.get? slot with
    | none => simp [ht] at ho
    | some tenant => exact List.one_le_count_iff.2 ((hs.lawful rfl).1.queued ht (by simpa [ht] using ho))
  · exact Nat.zero_le _

/-- **Wakes coalesce, and handles of finished tasks cost one entry each.** In every state of the tasks that a session
leads to, a slot is in the queue at most once if its tenant is marked, and once more for each task that has ended in it.
So waking live tasks, whichever and however often, adds at most one entry to a slot. For each task that has ended, its
requests queued its slot at most once more than it was run because of them, in its whole life and after it; after the
first wake that comes after its end a wake does nothing. And of all entries that a slot ever had, each is in the queue
still, was answered by a run that its task had asked for, or led to an extra run or to none; of the last two there are
at most as many as tasks that have ended in the slot. -/
theorem wakes_coalesce (hs : Session r (some t) past) (slot : Nat) :
    t.queue.count slot ≤ (if t.occupiedAndMarked slot then 1 else 0) + visits (ends past) slot ∧
    (∀ handles : List Handle, (∀ h ∈ handles, ∃ userdata, Lives (some t) h userdata) →
      (handles.foldl Tasks.wake t).queue.count slot ≤ t.queue.count slot + 1) ∧
    (∀ h userdata, .pushed h userdata ∈ past → (roll past).entries.count h ≤ (roll past).asked.count h + 1) ∧
    (∀ earlier h outcome later, past = earlier ++ .ended h outcome :: later → .woken h ∈ later → t.wake h = t) ∧
    ∃ skipped,
      visits (roll past).entries slot =
        t.queue.count slot + visits (roll past).asked slot + visits (roll past).extra slot + skipped ∧
      visits (roll past).extra slot + skipped ≤ visits (ends past) slot := by
  have hb := hs.balanced
  obtain ⟨skipped, hf⟩ := hs.follows t rfl
  have htotal := hb.total slot
  have hentries := hf.entries slot
  have hmarks := hs.visits_lit_le slot
  have hqueued := hs.queued_of_marked slot
  rw [hf.marked] at htotal
  refine ⟨by omega, fun handles hlive => ?_, fun h userdata hp => ?_, fun earlier h outcome later he hm => ?_,
    skipped.count slot, hentries, by omega⟩
  · have hone : ∀ h ∈ handles, h.slot = slot → some h.serial = (t.slots.get? slot).map (·.serial) := by
      rintro h hh rfl
      obtain ⟨userdata, hl⟩ := hlive h hh
      obtain ⟨tenant, ht, hserial, -⟩ := lives_some.1 hl
      simp [ht, hserial]
    refine Nat.le_trans (t.count_wakes (((t.slots.get? slot).map (·.serial)).getD 0) fun h hh hslot => ?_) ?_
    · rw [← hone h hh hslot, Option.getD_some]
    · split <;> omega
  · have hown := hb.own h (mem_handles.2 ⟨userdata, hp⟩)
    split at hown <;> omega
  · rw [Tasks.wake, if_pos (by simpa using hs.marked_of_late he hm)]

/-- a slot is queued for its tenant, which is marked, and once more by a handle of the task that lived there before -/
theorem wakes_coalesce_stale :
    let t := (Errands.third.turn Errands.runner () 1).tasks
    let past := Errands.recycled.take 10
    Session Errands.runner (some t) past ∧ t.queue = [0, 0, 1] ∧ t.occupiedAndMarked 0 = true ∧
      visits (ends past) 0 = 1 ∧ t.queue.count 0 ≤ 1 + visits (ends past) 0 ∧ t.wake ⟨0, 0⟩ = t :=
  ⟨Errands.session_stale, rfl, rfl, rfl, (wakes_coalesce Errands.session_stale 0).1,
    (wakes_coalesce Errands.session_stale 0).2.2.2.1 (Errands.recycled.take 3) ⟨0, 0⟩ (.ok ())
      ((Errands.recycled.drop 4).take 6) rfl (by simp [Errands.recycled])⟩

end EventServer
