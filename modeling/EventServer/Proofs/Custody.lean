/-
Where parked handles go. A handle that is parked leaves its bay in one of three ways: a later one of the same direction
takes its place, a report for its slot wakes it, or its connection is taken out. Each of them is used up once.

`Connections.moves` says which handles a request moves, and `along moves` is the history of a run. `Occupancy` is what
links history and table: what happened in a bay leads from what was parked there to what is parked there now, whatever
happened elsewhere. Every request keeps to it (`occupancy_after`), hence every run (`occupancy_run`); and what became of
one parking can be read off what happened in the bay since (`Occupancy.fate`), and where a handle that left came from
off what happened there before (`Occupancy.origin`). `handles_used_once` puts this together for any requests on any
host, with the number of handles that are where.
-/
import EventServer.Proofs.Parking
import Mathlib.Algebra.BigOperators.Group.Finset.Piecewise
import Mathlib.Algebra.BigOperators.Group.Finset.Sigma

namespace EventServer

/-- where a handle can be parked: a slot, and a direction of the connection there -/
structure Bay where
  key : Nat
  direction : Direction
  deriving DecidableEq, Repr

/-- how a handle leaves its bay: a later one takes its place, a report wakes it, or its connection is taken out -/
inductive Leave where
  | replaced | woken | released
  deriving DecidableEq, Repr

/-- a handle is parked in a bay, or leaves it -/
inductive Movement (H : Type) where
  | parked (bay : Bay) (handle : H)
  | left (how : Leave) (bay : Bay) (handle : H)
  deriving DecidableEq, Repr

variable {H : Type}

/-- the sum over all values in use, key by key -/
theorem Slots.total_eq_sum {α : Type} (measure : α → Nat) (s : Slots α) {bound : Nat} (hb : s.entries.length ≤ bound) :
    s.total measure = ∑ key ∈ Finset.range bound, ((s.get? key).map measure).getD 0 := by
  have hlist : ∀ (entries : List (Option α)) (start : Nat),
      (listFrom start entries).foldr (fun entry sum => measure entry.2 + sum) 0 =
        ∑ key ∈ Finset.range entries.length, ((entries[key]?.join).map measure).getD 0 := by
    intro entries
    induction entries with
    | nil => exact fun _ => rfl
    | cons entry rest ih =>
      intro start
      rw [List.length_cons, Finset.sum_range_succ']
      cases entry with
      | none => exact ih (start + 1)
      | some value => exact (congrArg (measure value + ·) (ih (start + 1))).trans (Nat.add_comm ..)
  have hrest : ∀ key ∈ Finset.range bound, key ∉ Finset.range s.entries.length →
      ((s.get? key).map measure).getD 0 = 0 := by
    intro key _ hkey
    rw [Finset.mem_range, Nat.not_lt] at hkey
    rw [get?, List.getElem?_eq_none hkey]
    rfl
  exact (hlist s.entries 0).trans (Finset.sum_subset (Finset.range_mono hb) hrest)

namespace Movement

def bay : Movement H → Bay
  | parked bay _ => bay
  | left _ bay _ => bay

def parked? : Movement H → Option H
  | parked _ handle => some handle
  | left .. => none

def woken? : Movement H → Option H
  | left .woken _ handle => some handle
  | _ => none

def leaves (how : Leave) : Movement H → Bool
  | parked .. => false
  | left how' .. => how' == how

/-- whether a handle leaves, in whatever way -/
def isLeft : Movement H → Bool
  | parked .. => false
  | left .. => true

end Movement

/-- what is parked on a connection in a direction -/
def Connection.handle? (conn : Connection H) : Direction → Option H
  | .read => conn.read.handle
  | .write => conn.write.handle

namespace Connections

/-! ## What moves -/

/-- the handle that is parked in a bay -/
def parked? (c : Connections H) (bay : Bay) : Option H := (c.get? bay.key).bind fun conn => conn.handle? bay.direction

/-- whatever is parked in a bay leaves it -/
def vacate (c : Connections H) (how : Leave) (bay : Bay) : List (Movement H) :=
  (c.parked? bay).toList.map (.left how bay)

/-- a call was made with a handle, which is parked if the call would have to wait -/
def parking {α : Type} (c : Connections H) (bay : Bay) (handle : H) : Poll α → List (Movement H)
  | .pending => c.vacate .replaced bay ++ [.parked bay handle]
  | .ready _ => []

/-- the handles that a request moves, in order -/
def moves (c : Connections H) : Request H → List (Movement H)
  | .recv key handle count => c.parking ⟨key, .read⟩ handle (c.recv key handle count).value
  | .send key handle bytes => c.parking ⟨key, .write⟩ handle (c.send key handle bytes).value
  | .fire key r => (if r.heeds .read then c.vacate .woken ⟨key, .read⟩ else []) ++
      if r.heeds .write then c.vacate .woken ⟨key, .write⟩ else []
  | .remove key => c.vacate .released ⟨key, .read⟩ ++ c.vacate .released ⟨key, .write⟩
  | .insert .. | .shutdown _ | .onHost _ => []

/-- the handle that a call was made with, if the call would have to wait -/
def stalled {α : Type} (handle : H) : Poll α → List H
  | .pending => [handle]
  | .ready _ => []

/-- the handle of a request that would have to wait -/
def blocked (c : Connections H) : Request H → List H
  | .recv key handle count => stalled handle (c.recv key handle count).value
  | .send key handle bytes => stalled handle (c.send key handle bytes).value
  | _ => []

/-- the handles that a request gives back to be woken -/
def woken (c : Connections H) : Request H → List H
  | .fire key r => (c.fire key r).value
  | _ => []

/-- what comes of requests one after another -/
def along {β : Type} (f : Connections H → Request H → List β) : Connections H → List (Request H) → List β
  | _, [] => []
  | c, request :: rest => f c request ++ along f (c.after request) rest

/-- what can be read off what comes of each request can be read off what comes of all -/
theorem along_filterMap {β γ : Type} {f : Connections H → Request H → List γ} {g : Connections H → Request H → List β}
    {p : β → Option γ} (hf : ∀ c request, f c request = (g c request).filterMap p) (c : Connections H)
    (requests : List (Request H)) : along f c requests = (along g c requests).filterMap p := by
  induction requests generalizing c with
  | nil => rfl
  | cons request rest ih =>
    rw [along, along, List.filterMap_append, hf, ih]

/-! ## What happens in a bay -/

/-- what happens leads from one occupant of a bay to another: a handle is parked only where none is, and the one that
leaves is the one that was parked -/
inductive Occupancy (bay : Bay) : Option H → List (Movement H) → Option H → Prop where
  | stays (occupant : Option H) : Occupancy bay occupant [] occupant
  | elsewhere {e : Movement H} {rest : List (Movement H)} {occupant last : Option H} :
      e.bay ≠ bay → Occupancy bay occupant rest last → Occupancy bay occupant (e :: rest) last
  | parks {handle : H} {rest : List (Movement H)} {last : Option H} :
      Occupancy bay (some handle) rest last → Occupancy bay none (.parked bay handle :: rest) last
  | leaves {how : Leave} {handle : H} {rest : List (Movement H)} {last : Option H} :
      Occupancy bay none rest last → Occupancy bay (some handle) (.left how bay handle :: rest) last

namespace Occupancy

variable {bay : Bay} {occupant middle last : Option H} {events more : List (Movement H)} {handle : H}

theorem trans (h : Occupancy bay occupant events middle) (h' : Occupancy bay middle more last) :
    Occupancy bay occupant (events ++ more) last := by
  induction h with
  | stays => exact h'
  | elsewhere hne _ ih => exact .elsewhere hne (ih h')
  | parks _ ih => exact .parks (ih h')
  | leaves _ ih => exact .leaves (ih h')

theorem split (h : Occupancy bay occupant (events ++ more) last) :
    ∃ middle, Occupancy bay occupant events middle ∧ Occupancy bay middle more last := by
  induction events generalizing occupant with
  | nil => exact ⟨occupant, .stays occupant, h⟩
  | cons e rest ih =>
    rw [List.cons_append] at h
    cases h with
    | elsewhere hne hrest =>
      obtain ⟨middle, hbefore, hafter⟩ := ih hrest
      exact ⟨middle, .elsewhere hne hbefore, hafter⟩
    | parks hrest =>
      obtain ⟨middle, hbefore, hafter⟩ := ih hrest
      exact ⟨middle, .parks hbefore, hafter⟩
    | leaves hrest =>
      obtain ⟨middle, hbefore, hafter⟩ := ih hrest
      exact ⟨middle, .leaves hbefore, hafter⟩

/-- what happens elsewhere changes nothing here -/
theorem idle (occupant : Option H) (hidle : ∀ e ∈ events, e.bay ≠ bay) : Occupancy bay occupant events occupant := by
  induction events with
  | nil => exact .stays occupant
  | cons e rest ih =>
    exact .elsewhere (hidle e List.mem_cons_self) (ih fun e' hm => hidle e' (List.mem_cons_of_mem e hm))

/-- a parked handle is where it was and nothing happened in its bay, or the first thing that did is that it left -/
theorem fate (h : Occupancy bay (some handle) events last) :
    last = some handle ∧ events.find? (·.bay == bay) = none ∨
      ∃ how, events.find? (·.bay == bay) = some (.left how bay handle) := by
  induction events with
  | nil =>
    cases h with
    | stays => exact .inl ⟨rfl, rfl⟩
  | cons e rest ih =>
    cases h with
    | elsewhere hne hrest =>
      rw [List.find?_cons_of_neg (by simpa using hne)]
      exact ih hrest
    | @leaves how _ _ _ hrest => exact .inr ⟨how, List.find?_cons_of_pos (by simp [Movement.bay])⟩

/-- a handle that is parked was there at first and nothing happened in its bay, or the last thing that did is that it
was parked -/
theorem origin (h : Occupancy bay occupant events last) (hl : last = some handle) :
    occupant = some handle ∧ events.reverse.find? (·.bay == bay) = none ∨
      events.reverse.find? (·.bay == bay) = some (.parked bay handle) := by
  induction h with
  | stays => exact .inl ⟨hl, rfl⟩
  | @elsewhere e rest _ _ hne _ ih =>
    have hnone : [e].find? (·.bay == bay) = none := List.find?_cons_of_neg (by simpa using hne)
    rw [List.reverse_cons, List.find?_append, hnone, Option.or_none]
    exact ih hl
  | @parks parked rest _ _ ih =>
    have hfirst : [Movement.parked bay parked].find? (·.bay == bay) = some (.parked bay parked) :=
      List.find?_cons_of_pos (by simp [Movement.bay])
    rw [List.reverse_cons, List.find?_append, hfirst]
    rcases ih hl with ⟨hsame, hquiet⟩ | hparked
    · rw [hquiet, Option.some.inj hsame]
      exact .inr rfl
    · rw [hparked]
      exact .inr rfl
  | @leaves how parked rest _ _ ih =>
    rw [List.reverse_cons, List.find?_append]
    rcases ih hl with ⟨hsame, -⟩ | hparked
    · cases hsame
    · rw [hparked]
      exact .inr rfl

end Occupancy

variable {c c' : Connections H} {key : Nat} {conn old : Connection H} {bay : Bay}

theorem parked?_of_slots (hs : c'.slots = c.slots) (bay : Bay) : c'.parked? bay = c.parked? bay := by
  rw [parked?, parked?, get?, get?, hs]

theorem parked?_of_set (hg : c.get? key = some old) (hs : c'.slots = c.slots.set key conn) (bay : Bay) :
    c'.parked? bay = if bay.key = key then conn.handle? bay.direction else c.parked? bay := by
  rw [parked?, get?, hs, Slots.get?_set hg]
  split <;> rfl

theorem parked?_of_get? (hg : c.get? key = some conn) (direction : Direction) :
    c.parked? ⟨key, direction⟩ = conn.handle? direction := by
  rw [parked?, hg]
  rfl

theorem parked?_of_none {bay : Bay} (hg : c.get? bay.key = none) : c.parked? bay = none := by
  rw [parked?, hg]
  rfl

/-- what leaves a bay leaves it empty -/
theorem occupancy_vacate (c : Connections H) (how : Leave) (bay : Bay) :
    Occupancy bay (c.parked? bay) (c.vacate how bay) none := by
  unfold vacate
  cases c.parked? bay with
  | none => exact .stays none
  | some handle => exact .leaves (.stays none)

theorem bay_of_vacate {how : Leave} {e : Movement H} (hm : e ∈ c.vacate how bay) : e.bay = bay := by
  obtain ⟨handle, -, rfl⟩ := List.mem_map.1 hm
  rfl

/-- a handle that is parked takes the place of what was there -/
theorem occupancy_parking {α : Type} {result : Poll α} (hpending : result = .pending) {handle : H}
    (hafter : ∀ b, c'.parked? b = if b = bay then some handle else c.parked? b) (b : Bay) :
    Occupancy b (c.parked? b) (c.parking bay handle result) (c'.parked? b) := by
  rw [hafter, hpending]
  by_cases he : b = bay
  · rw [if_pos he, he]
    exact (occupancy_vacate c .replaced bay).trans (.parks (.stays _))
  · rw [if_neg he]
    refine .idle _ fun e hm => ?_
    rcases List.mem_append.1 hm with hm | hm
    · exact bay_of_vacate hm ▸ Ne.symm he
    · rw [List.mem_singleton.1 hm]
      exact Ne.symm he

theorem occupancy_gone (c : Connections H) (how : Leave) (bay : Bay) (gone : Bool) :
    Occupancy bay (c.parked? bay) (if gone then c.vacate how bay else []) (if gone then none else c.parked? bay) := by
  cases gone with
  | false => exact .stays _
  | true => exact occupancy_vacate c how bay

theorem bay_of_gone {how : Leave} {gone : Bool} {e : Movement H} (hm : e ∈ if gone then c.vacate how bay else []) :
    e.bay = bay := by
  cases gone with
  | false => cases hm
  | true => exact bay_of_vacate hm

/-- the bays of a slot are vacated in some directions, and no other bay is -/
theorem occupancy_vacates (how : Leave) (gone : Direction → Bool)
    (hafter : ∀ b, c'.parked? b = if b.key = key then if gone b.direction then none else c.parked? b else c.parked? b)
    (b : Bay) :
    Occupancy b (c.parked? b)
      ((if gone .read then c.vacate how ⟨key, .read⟩ else []) ++ if gone .write then c.vacate how ⟨key, .write⟩ else [])
      (c'.parked? b) := by
  have hone : ∀ direction, direction ≠ b.direction → ∀ e ∈
      (if gone direction then c.vacate how ⟨key, direction⟩ else []), e.bay ≠ b := by
    intro direction hne e hm he
    rw [bay_of_gone hm] at he
    exact hne (congrArg Bay.direction he)
  rw [hafter]
  obtain ⟨k, direction⟩ := b
  by_cases hk : k = key
  · subst hk
    rw [if_pos rfl]
    cases direction with
    | read =>
      have hwrite := hone .write (by simp)
      exact (occupancy_gone c how ⟨k, .read⟩ (gone .read)).trans (.idle _ hwrite)
    | write =>
      have hread := hone .read (by simp)
      exact (Occupancy.idle _ hread).trans (occupancy_gone c how ⟨k, .write⟩ (gone .write))
  · rw [if_neg hk]
    refine .idle _ fun e hm he => hk ?_
    rcases List.mem_append.1 hm with hm | hm
    · rw [bay_of_gone hm] at he
      exact (congrArg Bay.key he).symm
    · rw [bay_of_gone hm] at he
      exact (congrArg Bay.key he).symm

theorem handle?_resumed (conn : Connection H) (r : Readiness) (direction : Direction) :
    (conn.resumed r).handle? direction = if r.heeds direction then none else conn.handle? direction := by
  cases direction with
  | read => cases hr : r.readable || r.closed <;> simp [Connection.resumed, Connection.handle?, Readiness.heeds, hr,
      ParkingSlot.wake, ParkingSlot.empty]
  | write => cases hr : r.writable || r.closed <;> simp [Connection.resumed, Connection.handle?, Readiness.heeds, hr,
      ParkingSlot.wake, ParkingSlot.empty]

/-- a call that does not wait moves nothing -/
theorem parking_of_ready {α : Type} {result : Poll α} (hready : result ≠ .pending) (c : Connections H) (bay : Bay)
    (handle : H) : c.parking bay handle result = [] := by
  cases result with
  | pending => exact absurd rfl hready
  | ready value => rfl

/-- a connection is replaced by one on which a handle is parked in a direction, and the other direction is as it was -/
theorem parked?_stored (hg : c.get? key = some old) (hs : c'.slots = c.slots.set key conn) {direction : Direction}
    {handle : H} (hhandle : ∀ other, conn.handle? other = if other = direction then some handle else old.handle? other)
    (b : Bay) : c'.parked? b = if b = ⟨key, direction⟩ then some handle else c.parked? b := by
  rw [parked?_of_set hg hs]
  obtain ⟨k, other⟩ := b
  by_cases hk : k = key
  · subst hk
    rw [if_pos rfl, parked?_of_get? hg, hhandle]
    simp
  · rw [if_neg hk, if_neg fun he => hk (congrArg Bay.key he)]

/-- nothing is parked on a new connection, and its slot was not in use -/
theorem parked?_insert (ht : c.slots.Tidy) (d : Descriptor) (peer : Address) (b : Bay) :
    (c.insert d peer).state.parked? b = c.parked? b := by
  rcases c.insert_slots d peer with ⟨-, -, hs⟩ | ⟨-, hs⟩
  · exact parked?_of_slots hs b
  · rw [parked?, get?, hs, Slots.get?_insert ht]
    split
    · next hk =>
      rw [parked?_of_none (hk ▸ Slots.get?_nextKey ht)]
      obtain ⟨k, direction⟩ := b
      cases direction <;> rfl
    · rfl

/-- nothing is parked in a slot once its connection is taken out -/
theorem parked?_remove (c : Connections H) (key : Nat) (b : Bay) :
    (c.remove key).state.parked? b = if b.key = key then none else c.parked? b := by
  rw [parked?, get?, remove_slots, Slots.get?_erase]
  split <;> rfl

/-- nothing is parked in the directions that a report resumes -/
theorem parked?_fire (c : Connections H) (key : Nat) (r : Readiness) (b : Bay) :
    (c.fire key r).state.parked? b =
      if b.key = key then if r.heeds b.direction then none else c.parked? b else c.parked? b := by
  rcases c.fire_cases key r with ⟨hg, -, hs⟩ | ⟨conn, armed, hg, -, hs, -⟩
  · rw [hs]
    split
    · next hk => rw [parked?_of_none (hk ▸ hg), ite_self]
    · rfl
  · rw [parked?_of_set hg hs]
    split
    · next hk =>
      obtain ⟨k, direction⟩ := b
      cases hk
      rw [parked?_of_get? hg]
      exact handle?_resumed conn r direction
    · rfl

/-- every request moves in a bay just what it says -/
theorem occupancy_after (ht : c.slots.Tidy) (request : Request H) (b : Bay) :
    Occupancy b (c.parked? b) (c.moves request) ((c.after request).parked? b) := by
  cases request with
  | insert d peer =>
    have hsame : (c.after (.insert d peer)).parked? b = c.parked? b := parked?_insert ht d peer b
    rw [hsame]
    exact .stays _
  | remove key => exact occupancy_vacates .released (fun _ => true) (fun b => c.parked?_remove key b) b
  | fire key r => exact occupancy_vacates .woken r.heeds (fun b => c.parked?_fire key r b) b
  | recv key handle count =>
    rcases c.recv_cases key handle count with ⟨hready, hs⟩ | ⟨conn, hg, hpending, hs⟩
    · have hsame : (c.after (.recv key handle count)).parked? b = c.parked? b := parked?_of_slots hs b
      rw [moves, parking_of_ready hready, hsame]
      exact .stays _
    · have hafter : ∀ b, (c.after (.recv key handle count)).parked? b =
          if b = ⟨key, .read⟩ then some handle else c.parked? b :=
        parked?_stored hg hs fun other => by cases other <;> rfl
      exact occupancy_parking hpending hafter b
  | send key handle bytes =>
    rcases c.send_cases key handle bytes with ⟨hready, hs⟩ | ⟨conn, armed, hg, hpending, hs, -⟩
    · have hsame : (c.after (.send key handle bytes)).parked? b = c.parked? b := parked?_of_slots hs b
      rw [moves, parking_of_ready hready, hsame]
      exact .stays _
    · have hafter : ∀ b, (c.after (.send key handle bytes)).parked? b =
          if b = ⟨key, .write⟩ then some handle else c.parked? b :=
        parked?_stored hg hs fun other => by cases other <;> rfl
      exact occupancy_parking hpending hafter b
  | shutdown key =>
    have hsame : (c.after (.shutdown key)).parked? b = c.parked? b := parked?_of_slots (c.shutdown_slots key) b
    rw [hsame]
    exact .stays _
  | onHost change => exact .stays _

/-- what requests move in a bay leads to what is parked there after them -/
theorem occupancy_run (hc : c.Roomy) (requests : List (Request H)) (b : Bay) :
    Occupancy b (c.parked? b) (along moves c requests) ((requests.foldl after c).parked? b) := by
  induction requests generalizing c with
  | nil => exact .stays _
  | cons request rest ih => exact (occupancy_after hc.tidy request b).trans (ih (hc.after request))

/-! ## How many there are -/

theorem filterMap_vacate {γ : Type} (c : Connections H) (how : Leave) (bay : Bay) (p : Movement H → Option γ) :
    (c.vacate how bay).filterMap p = (c.parked? bay).toList.filterMap fun handle => p (.left how bay handle) := by
  rw [vacate, List.filterMap_map]
  rfl

/-- what a report gives back is what it moves -/
theorem woken_eq_moves (c : Connections H) (request : Request H) :
    c.woken request = (c.moves request).filterMap Movement.woken? := by
  have hparking : ∀ {α : Type} (bay : Bay) (handle : H) (result : Poll α),
      (c.parking bay handle result).filterMap Movement.woken? = [] := by
    intro α bay handle result
    cases result with
    | pending =>
      rw [parking, List.filterMap_append, filterMap_vacate]
      cases c.parked? bay <;> rfl
    | ready value => rfl
  have hreleased : ∀ bay, (c.vacate .released bay).filterMap Movement.woken? = [] := by
    intro bay
    rw [filterMap_vacate]
    cases c.parked? bay <;> rfl
  have hgone : ∀ (gone : Bool) bay, (if gone then c.vacate .woken bay else []).filterMap Movement.woken? =
      if gone then (c.parked? bay).toList else [] := by
    intro gone bay
    cases gone with
    | false => rfl
    | true =>
      rw [if_pos rfl, if_pos rfl, filterMap_vacate]
      cases c.parked? bay <;> rfl
  cases request with
  | fire key r =>
    rw [moves, List.filterMap_append, hgone, hgone]
    rcases c.fire_cases key r with ⟨hg, hvalue, -⟩ | ⟨conn, armed, hg, hvalue, -⟩
    · have hnone : ∀ direction, c.parked? ⟨key, direction⟩ = none := fun _ => parked?_of_none hg
      rw [hnone, hnone]
      simpa [woken] using hvalue
    · rw [parked?_of_get? hg, parked?_of_get? hg]
      exact hvalue
  | recv key handle count => exact (hparking ..).symm
  | send key handle bytes => exact (hparking ..).symm
  | remove key =>
    rw [moves, List.filterMap_append, hreleased, hreleased]
    rfl
  | insert _ _ | shutdown _ | onHost _ => rfl

/-- what would have to wait is parked -/
theorem blocked_eq_moves (c : Connections H) (request : Request H) :
    c.blocked request = (c.moves request).filterMap Movement.parked? := by
  have hvacate : ∀ how bay, (c.vacate how bay).filterMap Movement.parked? = [] := by
    intro how bay
    rw [filterMap_vacate]
    cases c.parked? bay <;> rfl
  have hgone : ∀ (gone : Bool) how bay, (if gone then c.vacate how bay else []).filterMap Movement.parked? = [] := by
    intro gone how bay
    cases gone with
    | false => rfl
    | true => exact hvacate how bay
  have hparking : ∀ {α : Type} (bay : Bay) (handle : H) (result : Poll α),
      (c.parking bay handle result).filterMap Movement.parked? = stalled handle result := by
    intro α bay handle result
    cases result with
    | pending =>
      rw [parking, List.filterMap_append, hvacate]
      rfl
    | ready value => rfl
  cases request with
  | fire key r =>
    rw [moves, List.filterMap_append, hgone, hgone]
    rfl
  | recv key handle count => exact (hparking ..).symm
  | send key handle bytes => exact (hparking ..).symm
  | remove key =>
    rw [moves, List.filterMap_append, hvacate, hvacate]
    rfl
  | insert _ _ | shutdown _ | onHost _ => rfl

/-- in a bay, as many handles are parked as leave, but for those that were there at first and are there at last -/
theorem Occupancy.balance {bay : Bay} {occupant last : Option H} {events : List (Movement H)}
    (h : Occupancy bay occupant events last) :
    events.countP (fun e => e.bay == bay && !e.isLeft) + occupant.toList.length =
      events.countP (fun e => e.bay == bay && e.isLeft) + last.toList.length := by
  induction h with
  | stays => rfl
  | elsewhere hne _ ih => simpa [List.countP_cons, hne] using ih
  | parks _ ih =>
    simp only [List.countP_cons, Movement.bay, Movement.isLeft, Option.toList_some, Option.toList_none,
      List.length_singleton, List.length_nil] at ih ⊢
    simp
    omega
  | leaves _ ih =>
    simp only [List.countP_cons, Movement.bay, Movement.isLeft, Option.toList_some, Option.toList_none,
      List.length_singleton, List.length_nil] at ih ⊢
    simp
    omega

/-- the bays of the slots below a bound -/
def bays (bound : Nat) : Finset Bay := (Finset.range bound ×ˢ {Direction.read, .write}).image fun b => ⟨b.1, b.2⟩

theorem mem_bays {bound : Nat} {b : Bay} : b ∈ bays bound ↔ b.key < bound := by
  obtain ⟨key, direction⟩ := b
  cases direction <;> simp [bays]

theorem sum_bays (bound : Nat) (f : Bay → Nat) :
    ∑ b ∈ bays bound, f b = ∑ key ∈ Finset.range bound, (f ⟨key, .read⟩ + f ⟨key, .write⟩) := by
  rw [bays, Finset.sum_image (by simp), Finset.sum_product]
  exact Finset.sum_congr rfl fun key _ => Finset.sum_pair (by simp)

/-- what happens in all bays is what happens in each -/
theorem sum_countP {events : List (Movement H)} {bound : Nat} (hbound : ∀ e ∈ events, e.bay.key < bound)
    (p : Movement H → Bool) : ∑ b ∈ bays bound, events.countP (fun e => e.bay == b && p e) = events.countP p := by
  induction events with
  | nil => simp
  | cons e rest ih =>
    have hrest := ih fun e' hm => hbound e' (List.mem_cons_of_mem e hm)
    have hmem := mem_bays.2 (hbound e List.mem_cons_self)
    simp only [List.countP_cons, Finset.sum_add_distrib, hrest]
    cases hp : p e with
    | false => simp
    | true =>
      simp only [Bool.and_true, beq_iff_eq, if_true, Finset.sum_ite_eq, hmem]

/-- how many handles are parked -/
def occupied (c : Connections H) : Nat := c.slots.total fun conn => conn.handles.length

theorem occupied_eq_sum {bound : Nat} (hbound : c.slots.entries.length ≤ bound) :
    c.occupied = ∑ b ∈ bays bound, (c.parked? b).toList.length := by
  rw [occupied, Slots.total_eq_sum _ _ hbound, sum_bays]
  refine Finset.sum_congr rfl fun key _ => ?_
  cases hg : c.get? key with
  | none =>
    have hnone : ∀ direction, c.parked? ⟨key, direction⟩ = none := fun _ => parked?_of_none hg
    rw [hnone, hnone, show c.slots.get? key = none from hg]
    rfl
  | some conn =>
    rw [parked?_of_get? hg, parked?_of_get? hg, show c.slots.get? key = some conn from hg]
    exact List.length_append

theorem exists_bound (events : List (Movement H)) (least : Nat) :
    ∃ bound, least ≤ bound ∧ ∀ e ∈ events, e.bay.key < bound := by
  induction events with
  | nil => exact ⟨least, Nat.le_refl _, by simp⟩
  | cons e rest ih =>
    obtain ⟨bound, hleast, hrest⟩ := ih
    refine ⟨max bound (e.bay.key + 1), Nat.le_trans hleast (Nat.le_max_left ..), fun e' hm => ?_⟩
    rcases List.mem_cons.1 hm with rfl | hm
    · exact Nat.le_max_right ..
    · exact Nat.lt_of_lt_of_le (hrest e' hm) (Nat.le_max_left ..)

/-- as many handles are parked as leave, but for those that are parked still -/
theorem balance_run {events : List (Movement H)} (h : ∀ b, Occupancy b none events (c.parked? b)) :
    events.countP (!·.isLeft) = events.countP (·.isLeft) + c.occupied := by
  obtain ⟨bound, hleast, hbound⟩ := exists_bound events c.slots.entries.length
  calc events.countP (!·.isLeft)
      = ∑ b ∈ bays bound, events.countP (fun e => e.bay == b && !e.isLeft) := (sum_countP hbound _).symm
    _ = ∑ b ∈ bays bound,
          (events.countP (fun e => e.bay == b && e.isLeft) + (c.parked? b).toList.length) :=
        Finset.sum_congr rfl fun b _ => (h b).balance
    _ = events.countP (·.isLeft) + c.occupied := by
        rw [Finset.sum_add_distrib, sum_countP hbound, ← occupied_eq_sum hleast]

/-- a handle that leaves is replaced, woken or released -/
theorem countP_isLeft (events : List (Movement H)) : events.countP (·.isLeft) =
    events.countP (Movement.leaves .woken) + events.countP (Movement.leaves .replaced) +
      events.countP (Movement.leaves .released) := by
  induction events with
  | nil => rfl
  | cons e rest ih =>
    simp only [List.countP_cons, ih]
    cases e with
    | parked bay handle => rfl
    | left how bay handle => cases how <;> simp [Movement.isLeft, Movement.leaves] <;> omega

/-! ## What has become of a handle -/

/-- where a handle is that was parked once: still parked, or gone in one of three ways -/
inductive Standing where
  | parked
  | left (how : Leave)
  deriving DecidableEq, Repr

/-- where a handle is that was parked in a bay: still there, with nothing that has happened there since; or it has left,
and that was the first thing that happened there since -/
def Stands (c : Connections H) (bay : Bay) (handle : H) (since : List (Movement H)) : Standing → Prop
  | .parked => since.find? (·.bay == bay) = none ∧ c.parked? bay = some handle
  | .left how => since.find? (·.bay == bay) = some (.left how bay handle)

/-- a history in which every handle is used up once -/
structure Accounted (c : Connections H) (past : List (Movement H)) : Prop where
  /-- a handle that was parked is in just one place -/
  fate : ∀ {earlier later bay handle}, past = earlier ++ .parked bay handle :: later →
    ∃! standing, c.Stands bay handle later standing
  /-- a handle that left was parked in that bay, and that was the last thing that happened there before -/
  origin : ∀ {earlier later how bay handle}, past = earlier ++ .left how bay handle :: later →
    earlier.reverse.find? (·.bay == bay) = some (.parked bay handle)

theorem stands_unique {handle : H} {since : List (Movement H)} {standing standing' : Standing}
    (h : c.Stands bay handle since standing) (h' : c.Stands bay handle since standing') : standing = standing' := by
  cases standing with
  | parked =>
    cases standing' with
    | parked => rfl
    | left how => exact absurd (h.1.symm.trans h') (by simp)
  | left how =>
    cases standing' with
    | parked => exact absurd (h'.1.symm.trans h) (by simp)
    | left how' =>
      have hsame := Option.some.inj ((show since.find? _ = _ from h).symm.trans h')
      cases hsame
      rfl

/-- a handle that left has left for good -/
theorem Stands.more {handle : H} {since : List (Movement H)} {how : Leave} (h : c.Stands bay handle since (.left how))
    (c' : Connections H) (more : List (Movement H)) : c'.Stands bay handle (since ++ more) (.left how) := by
  show (since ++ more).find? _ = _
  rw [List.find?_append, show since.find? _ = _ from h]
  rfl

/-- a history that leads from empty bays to what is parked now is accounted for -/
theorem accounted_of_occupancy {past : List (Movement H)} (h : ∀ b, Occupancy b none past (c.parked? b)) :
    c.Accounted past where
  fate {earlier later bay handle} he := by
    subst he
    obtain ⟨middle, -, hafter⟩ := (h bay).split
    cases hafter with
    | elsewhere hne _ => exact absurd rfl hne
    | parks hafter =>
      rcases hafter.fate with ⟨hlast, hquiet⟩ | ⟨how, hleft⟩
      · have hstands : c.Stands bay handle later .parked := ⟨hquiet, hlast⟩
        exact ⟨.parked, hstands, fun _ h' => stands_unique h' hstands⟩
      · have hstands : c.Stands bay handle later (.left how) := hleft
        exact ⟨.left how, hstands, fun _ h' => stands_unique h' hstands⟩
  origin {earlier later how bay handle} he := by
    subst he
    obtain ⟨middle, hbefore, hafter⟩ := (h bay).split
    cases hafter with
    | elsewhere hne _ => exact absurd rfl hne
    | leaves _ => exact (hbefore.origin rfl).resolve_left fun hnone => by cases hnone.1

/-- **Every handle is used up exactly once.** Any requests were made of a table that was just made, on any host, with
any handles. Each handle that was parked is in just one place: still parked where it was, replaced by a later one of the
same direction, woken by a report for its slot, or released as its connection was taken out; and of the last three it
stays what it is, whatever comes. Whatever left had been parked there once. What all reports gave back is what was woken,
in order; the calls that would have to wait are what was parked; and there were as many of these as were woken, replaced
and released and are still parked. -/
theorem handles_used_once (notifier : Notifier) (armWrites : Bool) (requests : List (Request H)) :
    let first : Connections H := empty notifier armWrites
    let c := requests.foldl after first
    let past := along moves first requests
    c.Accounted past ∧
      (∀ bay handle since how, c.Stands bay handle since (.left how) → ∀ more : List (Request H),
        (more.foldl after c).Stands bay handle (since ++ along moves c more) (.left how)) ∧
      along woken first requests = past.filterMap Movement.woken? ∧
      along blocked first requests = past.filterMap Movement.parked? ∧
      (along blocked first requests).length = (along woken first requests).length +
        past.countP (Movement.leaves .replaced) + past.countP (Movement.leaves .released) +
          c.slots.total fun conn => conn.handles.length := by
  intro first c past
  have hrun : ∀ b, Occupancy b none past (c.parked? b) := occupancy_run (roomy_empty notifier armWrites) requests
  have hwoken : along woken first requests = past.filterMap Movement.woken? :=
    along_filterMap woken_eq_moves first requests
  have hblocked : along blocked first requests = past.filterMap Movement.parked? :=
    along_filterMap blocked_eq_moves first requests
  refine ⟨accounted_of_occupancy hrun, fun bay handle since how h more => h.more _ _, hwoken, hblocked, ?_⟩
  have hparks : (past.filterMap Movement.parked?).length = past.countP (!·.isLeft) := by
    rw [List.length_filterMap_eq_countP]
    exact List.countP_congr fun e _ => by cases e <;> simp [Movement.parked?, Movement.isLeft]
  have hwakes : (past.filterMap Movement.woken?).length = past.countP (Movement.leaves .woken) := by
    rw [List.length_filterMap_eq_countP]
    refine List.countP_congr fun e _ => ?_
    cases e with
    | parked bay handle => simp [Movement.woken?, Movement.leaves]
    | left how bay handle => cases how <;> simp [Movement.woken?, Movement.leaves]
  rw [hwoken, hblocked, hparks, hwakes, balance_run hrun, countP_isLeft]
  rfl

end Connections

namespace Sample

/-- a read is parked and replaced, a write is parked beside it, and the read is woken and parked anew; then the
connection is taken out, and a read is parked on another in the same slot -/
def spent : List (Connections.Request Nat) :=
  [.onHost jammed, .insert 1 ⟨"c0"⟩, .recv 0 1 10, .recv 0 2 10, .send 0 3 [1],
    .fire 0 ⟨.connection 0, true, false, false⟩, .recv 0 4 10, .remove 0, .onHost jammed, .insert 1 ⟨"c1"⟩,
    .recv 0 5 10]

end Sample

namespace Connections

/-- the parked write is accounted for; five handles were parked, and one was woken, one replaced, two released, and one
is parked still -/
theorem handles_used_once_spent : ∃ earlier later,
    along moves (empty { host := {} } true) Sample.spent = earlier ++ .parked ⟨0, .write⟩ 3 :: later ∧
      (∃! standing, (Sample.spent.foldl after (empty { host := {} } true)).Stands ⟨0, .write⟩ 3 later standing) ∧
      (along blocked (empty { host := {} } true) Sample.spent).length = 1 + 1 + 2 + 1 := by
  obtain ⟨hall, -, -, -, hcount⟩ := handles_used_once { host := {} } true Sample.spent
  have hpast : along moves (empty { host := {} } true) Sample.spent =
      [.parked ⟨0, .read⟩ 1, .left .replaced ⟨0, .read⟩ 1, .parked ⟨0, .read⟩ 2] ++ .parked ⟨0, .write⟩ 3 ::
        [.left .woken ⟨0, .read⟩ 2, .parked ⟨0, .read⟩ 4, .left .released ⟨0, .read⟩ 4,
          .left .released ⟨0, .write⟩ 3, .parked ⟨0, .read⟩ 5] := by decide +kernel
  refine ⟨_, _, hpast, hall.fate hpast, hcount.trans ?_⟩
  decide +kernel

end Connections

end EventServer
