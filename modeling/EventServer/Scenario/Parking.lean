/-
Sessions with parking slots: numbered slots and numbered handles, which only count how often they are woken.
-/
import EventServer.ParkingSlot
import EventServer.Scenario.Basic

namespace EventServer.Scenario.Parking

inductive Action where
  | store (waker : Nat)
  | wake
  | clear
  | ask
  | drop
  deriving Repr

structure Step where
  slot : Nat
  action : Action
  deriving Repr

structure State where
  slots : List (ParkingSlot Nat) := []
  woken : List Nat := []

structure View where
  result : Bool
  parked : List Bool
  wakers : List (Nat × Nat)
  deriving Repr

/-- what the action does to the slot: the slot after it, the handle it wakes, and its result -/
def Action.apply (slot : ParkingSlot Nat) : Action → ParkingSlot Nat × Option Nat × Bool
  | store waker => let (slot, replaced) := slot.store waker; (slot, none, replaced.isSome)
  | wake => let (slot, handle) := slot.wake; (slot, handle, handle.isSome)
  | clear => let (slot, released) := slot.clear; (slot, none, released)
  | ask => (slot, none, slot.isParked)
  | drop => (.empty, none, false)

def step (s : State) (st : Step) : State × View :=
  let slots := covering .empty st.slot s.slots
  let known := match st.action with
    | .store waker => covering 0 waker s.woken
    | _ => s.woken
  let (slot, handle, result) := st.action.apply ((slots[st.slot]?).getD .empty)
  let after : State :=
    { slots := slots.set st.slot slot
      woken := handle.elim known fun waker => known.modify waker (· + 1) }
  (after,
    { result
      parked := after.slots.map (·.isParked)
      wakers := tally after.woken (after.slots.filterMap (·.handle)) })

def run (steps : List Step) : List View := views step {} steps

end EventServer.Scenario.Parking
