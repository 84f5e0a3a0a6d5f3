/-
Parking slots: where the handle that resumes a waiting task is kept, one for each direction of a connection. A slot
holds at most one handle, and a handle leaves it in one of three ways: it is woken, replaced by a later one, or cleared.
-/

namespace EventServer

/-- at most one parked handle -/
structure ParkingSlot (H : Type) where
  handle : Option H
  deriving Repr

namespace ParkingSlot

variable {H : Type}

def empty : ParkingSlot H := ⟨none⟩

def isParked (s : ParkingSlot H) : Bool := s.handle.isSome

/-- parks a handle; the second part is the handle that it replaces, which is released unwoken -/
def store (s : ParkingSlot H) (handle : H) : ParkingSlot H × Option H := (⟨some handle⟩, s.handle)

/-- empties the slot; the second part is the handle to wake -/
def wake (s : ParkingSlot H) : ParkingSlot H × Option H := (empty, s.handle)

/-- empties the slot and says whether there was a handle, which is released unwoken -/
def clear (s : ParkingSlot H) : ParkingSlot H × Bool := (empty, s.isParked)

end ParkingSlot

end EventServer
