/-
Slots: a store that hands out small keys and takes them back. A key names at most one value at a time; a key that was
given back is handed out again before any new one, the last freed first.

`get?` is the view: `get?_insert`, `get?_erase` and `get?_set` say what each operation does to it. For what is counted
or collected over all values, `toList_insert` and `toList_focus` say the same of the list.
-/

namespace EventServer

/-- values under small keys, with the free keys in the order in which they will be used again -/
structure Slots (α : Type) where
  entries : List (Option α)
  free : List Nat
  deriving Repr

namespace Slots

variable {α : Type}

def empty : Slots α := ⟨[], []⟩

def get? (s : Slots α) (key : Nat) : Option α := (s.entries[key]?).join

def nextKey (s : Slots α) : Nat := s.free.headD s.entries.length

def insert (s : Slots α) (value : α) : Slots α :=
  match s.free with
  | key :: rest => ⟨s.entries.set key (some value), rest⟩
  | [] => ⟨s.entries ++ [some value], []⟩

def set (s : Slots α) (key : Nat) (value : α) : Slots α :=
  match s.get? key with
  | some _ => { s with entries := s.entries.set key (some value) }
  | none => s

def erase (s : Slots α) (key : Nat) : Slots α :=
  match s.get? key with
  | some _ => ⟨s.entries.set key none, key :: s.free⟩
  | none => s

def toList (s : Slots α) : List (Nat × α) :=
  s.entries.zipIdx.filterMap fun entry => entry.1.map fun value => (entry.2, value)

def size (s : Slots α) : Nat := s.toList.length

/-- the sum of a measure over the values in use -/
def total (measure : α → Nat) (s : Slots α) : Nat := s.toList.foldr (fun entry sum => measure entry.2 + sum) 0

def isEmpty (s : Slots α) : Bool := s.toList.isEmpty

/-- the free keys are within the store, out of use and all different -/
structure Tidy (s : Slots α) : Prop where
  vacant : ∀ key ∈ s.free, s.entries[key]? = some none
  distinct : s.free.Nodup

theorem tidy_empty : (empty : Slots α).Tidy := ⟨by simp [empty], by simp [empty]⟩

@[simp] theorem get?_empty (key : Nat) : (empty : Slots α).get? key = none := by
  simp [empty, get?]

theorem lt_length_of_get? {s : Slots α} {key : Nat} {value : α} (h : s.get? key = some value) :
    key < s.entries.length := by
  rcases Nat.lt_or_ge key s.entries.length with hl | hl
  · exact hl
  · unfold get? at h
    rw [List.getElem?_eq_none hl] at h
    cases h

theorem Tidy.lt_length {s : Slots α} (h : s.Tidy) {key : Nat} (hk : key ∈ s.free) : key < s.entries.length := by
  rcases Nat.lt_or_ge key s.entries.length with hl | hl
  · exact hl
  · have hv := h.vacant key hk
    rw [List.getElem?_eq_none hl] at hv
    cases hv

/-- the new value is under the next key and no other key changes -/
theorem get?_insert {s : Slots α} (h : s.Tidy) (value : α) (key : Nat) :
    (s.insert value).get? key = if key = s.nextKey then some value else s.get? key := by
  cases hf : s.free with
  | nil =>
    have hn : s.nextKey = s.entries.length := by simp [nextKey, hf]
    rw [hn]
    simp only [insert, hf, get?]
    by_cases he : key = s.entries.length
    · subst he; simp
    · rw [if_neg he]
      rcases Nat.lt_or_ge key s.entries.length with hl | hl
      · rw [List.getElem?_append_left hl]
      · rw [List.getElem?_eq_none (by simp; omega), List.getElem?_eq_none hl]
  | cons k rest =>
    have hn : s.nextKey = k := by simp [nextKey, hf]
    have hl := h.lt_length (by simp [hf] : k ∈ s.free)
    rw [hn]
    simp only [insert, hf, get?, List.getElem?_set]
    by_cases he : key = k
    · subst he; simp [hl]
    · simp [he, Ne.symm he]

/-- the next key was out of use -/
theorem get?_nextKey {s : Slots α} (h : s.Tidy) : s.get? s.nextKey = none := by
  unfold nextKey get?
  cases hf : s.free with
  | nil => simp
  | cons k rest => simp [h.vacant k (by simp [hf])]

/-- the key is out of use and no other key changes -/
theorem get?_erase (s : Slots α) (key other : Nat) :
    (s.erase key).get? other = if other = key then none else s.get? other := by
  unfold erase
  split
  · next v hv =>
    unfold get? at hv ⊢
    simp only [List.getElem?_set]
    by_cases he : key = other
    · subst he; simp; split <;> simp
    · simp [he, Ne.symm he]
  · next hv =>
    split
    · next he => subst he; exact hv
    · rfl

/-- the value under the key is replaced and no other key changes -/
theorem get?_set {s : Slots α} {key : Nat} {old : α} (h : s.get? key = some old) (value : α) (other : Nat) :
    (s.set key value).get? other = if other = key then some value else s.get? other := by
  have hl := lt_length_of_get? h
  unfold set
  rw [h]
  unfold get?
  simp only [List.getElem?_set]
  by_cases he : key = other
  · subst he; simp [hl]
  · simp [he, Ne.symm he]

theorem Tidy.insert {s : Slots α} (h : s.Tidy) (value : α) : (s.insert value).Tidy := by
  unfold Slots.insert
  cases hf : s.free with
  | nil => exact ⟨by simp, by simp⟩
  | cons k rest =>
    have hd := h.distinct
    rw [hf, List.nodup_cons] at hd
    refine ⟨fun key hk => ?_, hd.2⟩
    have hne : k ≠ key := fun he => hd.1 (he ▸ hk)
    simpa [List.getElem?_set, hne] using h.vacant key (by simp [hf, hk])

theorem Tidy.set {s : Slots α} (h : s.Tidy) (key : Nat) (value : α) : (s.set key value).Tidy := by
  unfold Slots.set
  split
  · next v hv =>
    refine ⟨fun k hk => ?_, h.distinct⟩
    have hk' := h.vacant k hk
    have hne : key ≠ k := by
      rintro rfl
      unfold get? at hv
      simp [hk'] at hv
    simpa [List.getElem?_set, hne] using hk'
  · exact h

theorem Tidy.erase {s : Slots α} (h : s.Tidy) (key : Nat) : (s.erase key).Tidy := by
  unfold Slots.erase
  split
  · next v hv =>
    have hfresh : key ∉ s.free := by
      intro hk
      unfold get? at hv
      simp [h.vacant key hk] at hv
    have hl := lt_length_of_get? hv
    refine ⟨fun k hk => ?_, ?_⟩
    · simp only [List.getElem?_set]
      rcases List.mem_cons.1 hk with rfl | hk
      · simp [hl]
      · have hne : key ≠ k := fun he => hfresh (he ▸ hk)
        simpa [hne] using h.vacant k hk
    · exact List.nodup_cons.2 ⟨hfresh, h.distinct⟩
  · exact h

/-! ## The values as a list -/

/-- the values of some entries with their keys, the first of which is `start` -/
def listFrom (start : Nat) (entries : List (Option α)) : List (Nat × α) :=
  (entries.zipIdx start).filterMap fun entry => entry.1.map fun value => (entry.2, value)

theorem listFrom_append (start : Nat) (a b : List (Option α)) :
    listFrom start (a ++ b) = listFrom start a ++ listFrom (start + a.length) b := by
  simp [listFrom, List.zipIdx_append, List.filterMap_append]

theorem toList_eq (s : Slots α) : s.toList = listFrom 0 s.entries := rfl

theorem mem_toList {s : Slots α} {key : Nat} {value : α} : (key, value) ∈ s.toList ↔ s.get? key = some value := by
  simp only [toList, get?, List.mem_filterMap, Option.map_eq_some_iff, Prod.mk.injEq, Prod.exists]
  constructor
  · rintro ⟨entry, index, hm, v, rfl, rfl, rfl⟩
    have := List.mem_zipIdx_iff_getElem?.1 hm
    simp [this]
  · intro h
    cases he : s.entries[key]? with
    | none => simp [he] at h
    | some entry =>
      refine ⟨entry, key, List.mem_zipIdx_iff_getElem?.2 he, value, ?_, rfl, rfl⟩
      simpa [he] using h

theorem keys_listFrom (start : Nat) (entries : List (Option α)) :
    ((listFrom start entries).map (·.1)).Sublist (List.range' start entries.length) := by
  induction entries generalizing start with
  | nil => exact .slnil
  | cons entry rest ih =>
    rw [List.length_cons, List.range'_succ]
    cases entry with
    | none => exact (ih (start + 1)).cons start
    | some value => exact (ih (start + 1)).cons_cons start

/-- no key is in use twice -/
theorem nodup_keys (s : Slots α) : (s.toList.map (·.1)).Nodup := (keys_listFrom 0 s.entries).nodup List.nodup_range'

/-- a value in use, and what the list of values is once it is replaced or taken out -/
theorem toList_focus {s : Slots α} {key : Nat} {old : α} (h : s.get? key = some old) :
    ∃ pre post, s.toList = pre ++ (key, old) :: post ∧ (s.erase key).toList = pre ++ post ∧
      ∀ value, (s.set key value).toList = pre ++ (key, value) :: post := by
  have hl := lt_length_of_get? h
  have he : s.entries[key] = some old := by simpa [get?, hl] using h
  have split : ∀ x, s.entries.set key x = s.entries.take key ++ x :: s.entries.drop (key + 1) :=
    fun x => List.set_eq_take_append_cons_drop.trans (by simp [hl])
  have whole : s.entries = s.entries.take key ++ some old :: s.entries.drop (key + 1) := by
    rw [← split, ← he, List.set_getElem_self]
  have hk : (s.entries.take key).length = key := by simp; omega
  refine ⟨listFrom 0 (s.entries.take key), listFrom (key + 1) (s.entries.drop (key + 1)), ?_, ?_, fun value => ?_⟩
  · rw [toList_eq]
    refine (congrArg (listFrom 0) whole).trans ?_
    rw [listFrom_append, hk]
    simp [listFrom]
  · simp only [erase, h, toList_eq, split, listFrom_append, hk]
    simp [listFrom]
  · simp only [set, h, toList_eq, split, listFrom_append, hk]
    simp [listFrom]

theorem toList_insert {s : Slots α} (h : s.Tidy) (value : α) :
    ∃ pre post, s.toList = pre ++ post ∧ (s.insert value).toList = pre ++ (s.nextKey, value) :: post := by
  cases hf : s.free with
  | nil =>
    refine ⟨s.toList, [], by simp, ?_⟩
    simp only [toList_eq, insert, hf, nextKey, listFrom_append, List.headD_nil]
    simp [listFrom]
  | cons k rest =>
    have hl := h.lt_length (by simp [hf] : k ∈ s.free)
    have he : s.entries[k] = none := by
      have := h.vacant k (by simp [hf])
      simpa [hl] using this
    have split : ∀ x, s.entries.set k x = s.entries.take k ++ x :: s.entries.drop (k + 1) :=
      fun x => List.set_eq_take_append_cons_drop.trans (by simp [hl])
    have whole : s.entries = s.entries.take k ++ none :: s.entries.drop (k + 1) := by
      rw [← split, ← he, List.set_getElem_self]
    have hk : (s.entries.take k).length = k := by simp; omega
    refine ⟨listFrom 0 (s.entries.take k), listFrom (k + 1) (s.entries.drop (k + 1)), ?_, ?_⟩
    · rw [toList_eq]
      refine (congrArg (listFrom 0) whole).trans ?_
      rw [listFrom_append, hk]
      simp [listFrom]
    · have hn : s.nextKey = k := by simp [nextKey, hf]
      simp only [insert, hf, toList_eq, split, listFrom_append, hk, hn]
      simp [listFrom]

theorem nextKey_le {s : Slots α} (h : s.Tidy) : s.nextKey ≤ s.entries.length := by
  cases hf : s.free with
  | nil => simp [nextKey, hf]
  | cons key rest => simpa [nextKey, hf] using Nat.le_of_lt (h.lt_length (by simp [hf] : key ∈ s.free))

/-- the store grows only for a key beyond all others -/
theorem length_insert_le (s : Slots α) (value : α) :
    (s.insert value).entries.length ≤ max s.entries.length (s.nextKey + 1) := by
  unfold insert
  cases hf : s.free with
  | nil => simp [nextKey, hf]
  | cons key rest => exact Nat.le_trans (Nat.le_of_eq List.length_set) (Nat.le_max_left ..)

theorem length_erase (s : Slots α) (key : Nat) : (s.erase key).entries.length = s.entries.length := by
  unfold erase
  split <;> simp

theorem size_insert {s : Slots α} (h : s.Tidy) (value : α) : (s.insert value).size = s.size + 1 := by
  obtain ⟨pre, post, hs, hi⟩ := toList_insert h value
  simp only [size, hs, hi, List.length_append, List.length_cons]
  omega

theorem size_erase {s : Slots α} {key : Nat} {old : α} (h : s.get? key = some old) :
    s.size = (s.erase key).size + 1 := by
  obtain ⟨pre, post, hs, he, -⟩ := toList_focus h
  simp only [size, hs, he, List.length_append, List.length_cons]
  omega

end Slots

end EventServer
