/-
Who holds the ends of the host's streams. A descriptor holds the end that it is, and a listener holds the far ends of
the connections that wait at it (`Host.ends`). On a sound host (`Host.Sound`) no end is held twice, every end belongs to
a stream, every descriptor is watched at most once, and what is watched is open and the server's own.

So a far end has one descriptor (`descriptorOf?_eq`), an accepted connection has a descriptor that nobody had before,
and what the clients at the near ends do cannot touch a watch.
-/
import EventServer.Proofs.Stream
import EventServer.Host.Basic

namespace EventServer

namespace Device

/-- the ends that a device is or keeps for later -/
def ends : Device → List (Nat × Side)
  | stream id side => [(id, side)]
  | listener backlog => backlog.map fun arrival => (arrival.stream, .far)
  | _ => []

/-- whether it is what a server watches: a far end, a listener or a source of signals -/
def ours : Device → Bool
  | stream _ .far | listener _ | signalSource _ => true
  | _ => false

end Device

namespace Host

variable {h : Host}

/-- the ends that the host's descriptors hold -/
def ends (h : Host) : List (Nat × Side) := h.devices.flatMap fun device => (device.map Device.ends).getD []

/-- a descriptor is open and what a server watches -/
def Ours (h : Host) (d : Descriptor) : Prop := ∃ device, h.device? d = some device ∧ device.ours

/-- a host that others and a server can share: no end is held twice, the streams are there and sound, and each watch is
the only one on a descriptor of the server's own -/
structure Sound (h : Host) : Prop where
  ends : h.ends.Nodup
  known : ∀ e ∈ h.ends, e.1 < h.streams.length
  streams : ∀ s ∈ h.streams, s.Sound
  watches : (h.watches.map (·.descriptor)).Nodup
  watched : ∀ w ∈ h.watches, h.Ours w.descriptor

/-! ## Looking up devices -/

theorem lt_length_of_device? {d : Descriptor} {device : Device} (hd : h.device? d = some device) :
    d < h.devices.length := by
  refine Nat.lt_of_not_le fun hl => ?_
  simp [device?, List.getElem?_eq_none hl] at hd

theorem getElem?_of_device? {d : Descriptor} {device : Device} (hd : h.device? d = some device) :
    h.devices[d]? = some (some device) := by
  cases he : h.devices[d]? with
  | none => simp [device?, he] at hd
  | some entry => simp_all [device?]

@[simp] theorem device?_opened (device : Device) (d : Descriptor) :
    (h.opened device).1.device? d = if d = h.devices.length then some device else h.device? d := by
  rcases Nat.lt_trichotomy d h.devices.length with hl | rfl | hl
  · simp [opened, device?, List.getElem?_append_left hl, Nat.ne_of_lt hl]
  · simp [opened, device?]
  · have hl' : (h.devices ++ [some device]).length ≤ d := by
      rw [List.length_append]
      exact hl
    simp [opened, device?, Nat.ne_of_gt hl, List.getElem?_eq_none (Nat.le_of_lt hl), List.getElem?_eq_none hl']

theorem device?_setDevice {d : Descriptor} {old : Device} (hd : h.device? d = some old) (device : Option Device)
    (other : Descriptor) : (h.setDevice d device).device? other = if other = d then device else h.device? other := by
  have hl := lt_length_of_device? hd
  by_cases he : other = d
  · subst he
    simp [setDevice, device?, hl]
  · simp [setDevice, device?, he, List.getElem?_set_ne (Ne.symm he)]

/-- what is a server's own stays so, and a far end stays what it is -/
structure Keeps (h h' : Host) : Prop where
  ours : ∀ {d}, h.Ours d → h'.Ours d
  far : ∀ {d id}, h.device? d = some (.stream id .far) → h'.device? d = some (.stream id .far)

theorem Keeps.trans {a b c : Host} (h : Keeps a b) (h' : Keeps b c) : Keeps a c :=
  ⟨h'.ours ∘ h.ours, h'.far ∘ h.far⟩

theorem keeps_of_device? {h' : Host} (hd : ∀ d, h'.device? d = h.device? d) : Keeps h h' :=
  ⟨fun ⟨device, hdev, hours⟩ => ⟨device, (hd _).trans hdev, hours⟩, fun hdev => (hd _).trans hdev⟩

theorem keeps_opened (device : Device) : Keeps h (h.opened device).1 := by
  have hold : ∀ {d old}, h.device? d = some old → (h.opened device).1.device? d = some old := fun hd => by
    rw [device?_opened, if_neg (Nat.ne_of_lt (lt_length_of_device? hd)), hd]
  exact ⟨fun ⟨old, hd, hours⟩ => ⟨old, hold hd, hours⟩, hold⟩

/-- a listener keeps being one whatever waits at it -/
theorem keeps_backlog {listener : Descriptor} {backlog : List Arrival}
    (hl : h.device? listener = some (.listener backlog)) (backlog' : List Arrival) :
    Keeps h (h.setDevice listener (some (.listener backlog'))) := by
  have hdevice := device?_setDevice hl (some (.listener backlog'))
  refine ⟨fun {d} ⟨old, hd, hours⟩ => ?_, fun {d id} hd => ?_⟩
  · by_cases he : d = listener
    · exact ⟨_, by rw [hdevice, if_pos he], rfl⟩
    · exact ⟨old, by rw [hdevice, if_neg he, hd], hours⟩
  · have hne : d ≠ listener := fun he => by rw [he, hl] at hd; cases hd
    rw [hdevice, if_neg hne, hd]

/-! ## Ends -/

theorem ends_opened (device : Device) : (h.opened device).1.ends = h.ends ++ device.ends := by
  simp [opened, ends]

/-- the ends of a device that is open, and what is left of all ends once it is replaced -/
theorem ends_focus {d : Descriptor} {old : Device} (hd : h.device? d = some old) :
    ∃ pre post, h.ends = pre ++ old.ends ++ post ∧
      ∀ device, (h.setDevice d device).ends = pre ++ (device.map Device.ends).getD [] ++ post := by
  have hl := lt_length_of_device? hd
  have he : h.devices[d] = some old := by
    simpa [List.getElem?_eq_getElem hl] using getElem?_of_device? hd
  have split : ∀ x, h.devices.set d x = h.devices.take d ++ x :: h.devices.drop (d + 1) :=
    fun x => List.set_eq_take_append_cons_drop.trans (by simp [hl])
  have whole : h.devices = h.devices.take d ++ some old :: h.devices.drop (d + 1) := by
    rw [← split, ← he, List.set_getElem_self]
  let all (devices : List (Option Device)) := devices.flatMap fun device => (device.map Device.ends).getD []
  refine ⟨all (h.devices.take d), all (h.devices.drop (d + 1)), ?_, fun device => ?_⟩
  · refine (congrArg all whole).trans ?_
    simp [all]
  · simp [ends, setDevice, split, all]

theorem mem_ends_of_mem {d : Descriptor} {device : Device} (hd : h.device? d = some device) {e : Nat × Side}
    (he : e ∈ device.ends) : e ∈ h.ends := by
  obtain ⟨pre, post, hends, -⟩ := ends_focus hd
  simp [hends, he]

theorem mem_ends {d : Descriptor} {id : Nat} {side : Side} (hd : h.device? d = some (.stream id side)) :
    (id, side) ∈ h.ends :=
  mem_ends_of_mem hd (by simp [Device.ends])

/-- no end has two holders -/
theorem Sound.holder (hs : h.Sound) {d d' : Descriptor} {device device' : Device} (hd : h.device? d = some device)
    (hd' : h.device? d' = some device') {e : Nat × Side} (he : e ∈ device.ends) (he' : e ∈ device'.ends) : d = d' := by
  refine Decidable.byContradiction fun hne => ?_
  obtain ⟨pre, post, hends, hset⟩ := ends_focus hd
  -- the second descriptor still holds the end when the first is closed
  have hmem : e ∈ (h.setDevice d none).ends := by
    refine mem_ends_of_mem (d := d') ?_ he'
    rw [device?_setDevice hd, if_neg (Ne.symm hne), hd']
  have hn := hs.ends
  rw [hends] at hn
  rw [hset none] at hmem
  simp only [List.nodup_append, List.mem_append] at hn hmem
  rcases hmem with (hm | hm) | hm
  · exact hn.1.2.2 _ hm _ he rfl
  · simp at hm
  · exact hn.2.2 _ (.inr he) _ hm rfl

/-- no end has two descriptors -/
theorem Sound.once (hs : h.Sound) {d d' : Descriptor} {id : Nat} {side : Side}
    (hd : h.device? d = some (.stream id side)) (hd' : h.device? d' = some (.stream id side)) : d = d' :=
  hs.holder hd hd' (List.mem_singleton_self (id, side)) (List.mem_singleton_self _)

/-- the end of a stream is found under its only descriptor -/
theorem Sound.descriptorOf?_eq (hs : h.Sound) {d : Descriptor} {id : Nat} {side : Side}
    (hd : h.device? d = some (.stream id side)) : h.descriptorOf? id side = some d := by
  have hl := lt_length_of_device? hd
  have he : h.devices[d] = some (.stream id side) := by
    simpa [List.getElem?_eq_getElem hl] using getElem?_of_device? hd
  refine List.findIdx?_eq_some_iff_getElem.2 ⟨hl, by simp [he, Device.isEnd], fun j hj => ?_⟩
  intro hp
  have hj' : j < h.devices.length := Nat.lt_trans hj hl
  cases hdev : h.devices[j] with
  | none => simp [hdev] at hp
  | some device =>
    rw [hdev] at hp
    cases device <;> simp [Device.isEnd] at hp
    obtain ⟨rfl, rfl⟩ := hp
    have : h.device? j = some (.stream id side) := by
      simp [device?, List.getElem?_eq_getElem hj', hdev]
    exact absurd (hs.once this hd) (Nat.ne_of_lt hj)

theorem Sound.known_of_device? (hs : h.Sound) {d : Descriptor} {id : Nat} {side : Side}
    (hd : h.device? d = some (.stream id side)) : id < h.streams.length :=
  hs.known _ (mem_ends hd)

/-- what was never opened is not watched -/
theorem Sound.not_watched (hs : h.Sound) {d : Descriptor} (hd : h.device? d = none) : h.watch? d = none := by
  refine List.find?_eq_none.2 fun w hw he => ?_
  obtain ⟨device, hdev, -⟩ := hs.watched w hw
  rw [beq_iff_eq.1 he, hd] at hdev
  cases hdev

end Host

end EventServer
