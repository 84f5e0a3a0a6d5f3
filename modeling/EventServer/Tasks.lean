/-
Cooperative tasks: a first-in first-out queue of slots to run, tasks under recycled slots, and the handles that put a
slot back into the queue.

Every task has a serial number of its own besides its slot. A handle carries both: it queues the slot, unless the mark
of its own serial says that it has done so already. The mark is taken away just before the slot's present tenant is run,
so a handle that outlives its task queues the slot once more at most, and whoever lives there then runs once too often
or not at all. Running a task may wake handles; what else it does is up to the environment that it is run in.
-/
import EventServer.Journal.Noted
import EventServer.Slots

namespace EventServer

/-- what resumes a task: the slot to queue, and the serial whose mark says that it is queued -/
structure Handle where
  slot : Nat
  serial : Nat
  deriving DecidableEq, Repr

/-- what happens to tasks -/
inductive Happening where
  | pushed (h : Handle)
  | woken (h : Handle)
  | ran (h : Handle)
  /-- a task ended in its last run -/
  | ended (h : Handle)
  deriving DecidableEq, Repr

/-- a task in flight: its work and the data that its owner knows it by -/
structure Tenant (U F : Type) where
  serial : Nat
  work : F
  userdata : Option U

structure Completed (U ε : Type) where
  serial : Nat
  userdata : Option U
  outcome : Except ε Unit

/-- the tasks in flight and the queue of slots to run -/
structure Tasks (U F : Type) where
  slots : Slots (Tenant U F)
  queue : List Nat
  /-- the serials whose handles have queued their slot -/
  marked : List Nat
  nextSerial : Nat

/-- what came of running a task once -/
structure Progress (E F ε : Type) where
  env : E
  work : F
  woken : List Handle := []
  outcome : Option (Except ε Unit) := none

/-- how tasks of one kind are run, and where the notes about them go -/
structure Runner (E F ε : Type) where
  run : Handle → E → F → Progress E F ε
  note : E → Note → E

namespace Tasks

variable {U F E ε : Type}

def empty : Tasks U F := ⟨.empty, [], [], 0⟩

def size (t : Tasks U F) : Nat := t.slots.size

def isEmpty (t : Tasks U F) : Bool := t.slots.isEmpty

/-- queues the slot of a handle, unless its mark says that it is queued -/
def wake (t : Tasks U F) (h : Handle) : Tasks U F :=
  if t.marked.contains h.serial then t
  else { t with queue := t.queue ++ [h.slot], marked := h.serial :: t.marked }

/-- enrolls a task in the next slot and queues it -/
def push (t : Tasks U F) (work : F) (userdata : Option U) : Noted (Tasks U F) Handle :=
  let slot := t.slots.nextKey
  let serial := t.nextSerial
  { state :=
      { slots := t.slots.insert ⟨serial, work, userdata⟩
        queue := t.queue ++ [slot]
        marked := serial :: t.marked
        nextSerial := serial + 1 }
    value := ⟨slot, serial⟩
    notes := [.pushed slot] }

/-- the tasks, their environment, a finished task if there is one, and what happened, oldest first -/
structure Polled (U F E ε : Type) where
  tasks : Tasks U F
  env : E
  completed : Option (Completed U ε) := none
  course : List Happening := []

/-- what happens in a run of a task that wakes these handles and maybe ends -/
def courseOf (self : Handle) (woken : List Handle) (ends : Bool) : List Happening :=
  .ran self :: woken.map .woken ++ if ends then [.ended self] else []

/-- runs the tenant of a slot that was taken from the queue -/
def runSlot (r : Runner E F ε) (t : Tasks U F) (env : E) (slot : Nat) : Polled U F E ε :=
  match t.slots.get? slot with
  | none => { tasks := t, env := r.note env (.staleWake slot) }
  | some tenant =>
    let self : Handle := ⟨slot, tenant.serial⟩
    let progress := r.run self env tenant.work
    let cleared := { t with marked := t.marked.filter (· != tenant.serial) }
    let woken := progress.woken.foldl wake cleared
    let course := courseOf self progress.woken progress.outcome.isSome
    match progress.outcome with
    | none =>
      { tasks := { woken with slots := woken.slots.set slot { tenant with work := progress.work } }
        env := progress.env
        course }
    | some outcome =>
      { tasks := { woken with slots := woken.slots.erase slot }
        env := r.note progress.env (.completed slot)
        completed := some ⟨tenant.serial, tenant.userdata, outcome⟩
        course }

/-- takes slots from the queue until a task finishes or the queue is empty; nothing if that takes more than `limit`
slots -/
def poll (r : Runner E F ε) : Nat → Tasks U F → E → Option (Polled U F E ε)
  | 0, t, env => if t.queue.isEmpty then some { tasks := t, env } else none
  | limit + 1, t, env =>
    match t.queue with
    | [] => some { tasks := t, env }
    | slot :: rest =>
      let after := runSlot r { t with queue := rest } env slot
      match after.completed with
      | some _ => some after
      | none => (poll r limit after.tasks after.env).map fun p => { p with course := after.course ++ p.course }

end Tasks

end EventServer
