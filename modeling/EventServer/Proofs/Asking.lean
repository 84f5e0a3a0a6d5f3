/-
Requests that ask for nothing but their answer, and how they are read off an input that has come in part.

A reader of the head's grammar takes a word off an input that starts with it, whatever comes behind, and asks for more
where the input is a proper part of the word (`Scan.Takes`); readers that go on where others stopped do the same for the
words put together (`Takes.andThen`). So it is enough to say of each part of a request that its reader takes it.

`Get` is a request with no body whose fields say nothing of how messages follow one another. An input that starts with
all of it is read as its head, and the rest is left (`Get.scan_whole`); of an input that is a part of it nothing is read
(`Get.scan_part`). Wherever it is in full an empty line can be seen (`Get.hasEmptyLine`), so that it is looked for.
-/
import EventServer.Proofs.Attention
import Mathlib.Data.List.TakeWhile

namespace EventServer.Http

variable {α β : Type}

/-! ## Readers -/

namespace Scan

variable {read : Bytes → Scan α} {next : α → Bytes → Scan β} {bytes bytes' : Bytes} {value : α} {value' : β}

/-- a reader takes exactly these bytes off the front and gives this for them; with a part of them it asks for more -/
structure Takes (read : Bytes → Scan α) (bytes : Bytes) (value : α) : Prop where
  whole : ∀ rest, read (bytes ++ rest) = .found value rest
  part : ∀ {start}, start <+: bytes → start.length < bytes.length → read start = .more

theorem takes_nothing (value : α) : Takes (fun rest => found value rest) [] value :=
  ⟨fun _ => rfl, fun _ hshort => absurd hshort (Nat.not_lt_zero _)⟩

/-- one reader goes on where another stopped -/
theorem Takes.andThen (h : Takes read bytes value) (h' : Takes (next value) bytes' value') :
    Takes (fun input => (read input).andThen next) (bytes ++ bytes') value' where
  whole rest := by
    rw [List.append_assoc, h.whole]
    exact h'.whole rest
  part := by
    intro start hstart hshort
    by_cases hfirst : start.length < bytes.length
    · have hpart := List.prefix_of_prefix_length_le hstart (List.prefix_append ..) (Nat.le_of_lt hfirst)
      rw [h.part hpart hfirst]
      rfl
    · have hover := List.prefix_of_prefix_length_le (List.prefix_append ..) hstart (Nat.le_of_not_lt hfirst)
      obtain ⟨start', rfl⟩ := hover
      rw [h.whole]
      rw [List.length_append, List.length_append] at hshort
      exact h'.part ((List.prefix_append_right_inj _).1 hstart) (by omega)

end Scan

open Scan

theorem drop_takeWhile_of_all {p : UInt8 → Bool} {bytes : Bytes} (hall : ∀ b ∈ bytes, p b) (b : UInt8)
    (hb : p b = false) (rest : Bytes) :
    (bytes ++ b :: rest).takeWhile p = bytes ∧ (bytes ++ b :: rest).drop bytes.length = b :: rest := by
  refine ⟨?_, List.drop_left⟩
  rw [List.takeWhile_append_of_pos hall, List.takeWhile_cons_of_neg (by simp [hb]), List.append_nil]

/-- all that there is of a word belongs to it -/
theorem drop_takeWhile_of_part {p : UInt8 → Bool} {start bytes : Bytes} (hall : ∀ b ∈ bytes, p b)
    (hstart : start <+: bytes) : start.takeWhile p = start ∧ start.drop start.length = [] := by
  refine ⟨?_, List.drop_length⟩
  exact List.takeWhile_eq_self_iff.2 fun b hb => hall b (hstart.subset hb)

theorem part_of_snoc {start bytes : Bytes} {b : UInt8} (hstart : start <+: bytes ++ [b])
    (hshort : start.length < (bytes ++ [b]).length) : start <+: bytes := by
  refine List.prefix_of_prefix_length_le hstart (List.prefix_append ..) ?_
  rw [List.length_append, List.length_singleton] at hshort
  omega

/-- the line end that requests are written with -/
def newline : Bytes := [Bytes.cr, Bytes.lf]

theorem takes_lineEnd (otherwise : Defect) : Takes (scanLineEnd otherwise) newline () where
  whole _ := rfl
  part := by
    intro start hstart hshort
    match start, hstart with
    | [], _ => rfl
    | [b], hstart =>
      obtain ⟨rest, hrest⟩ := hstart
      obtain ⟨rfl, -⟩ := List.cons.inj hrest
      rfl
    | b :: c :: rest, _ =>
      simp only [newline, List.length_cons, List.length_nil] at hshort
      omega

theorem takes_method {method : Bytes} (hm : Request.isToken method) :
    Takes scanMethod (method ++ [Bytes.space]) method := by
  obtain ⟨hsome, hall⟩ := Bool.and_eq_true_iff.1 hm
  have hall : ∀ b ∈ method, isTokenByte b := List.all_eq_true.1 hall
  have hspace : isTokenByte Bytes.space = false := by decide +kernel
  refine ⟨fun rest => ?_, fun {start} hstart hshort => ?_⟩
  · obtain ⟨htake, hdrop⟩ := drop_takeWhile_of_all hall Bytes.space hspace rest
    unfold scanMethod
    simp only [List.append_assoc, List.singleton_append, htake, hdrop, hsome, beq_self_eq_true, Bool.and_self, if_true]
  · obtain ⟨htake, hdrop⟩ := drop_takeWhile_of_part hall (part_of_snoc hstart hshort)
    unfold scanMethod
    simp only [htake, hdrop]

theorem takes_target {target : Bytes} (hsome : target ≠ []) (hall : ∀ b ∈ target, isTargetByte b)
    (htext : (Bytes.toText? target).isSome) : Takes scanTarget (target ++ [Bytes.space]) target := by
  have hspace : isTargetByte Bytes.space = false := by decide +kernel
  refine ⟨fun rest => ?_, fun {start} hstart hshort => ?_⟩
  · obtain ⟨htake, hdrop⟩ := drop_takeWhile_of_all hall Bytes.space hspace rest
    unfold scanTarget
    simp only [List.append_assoc, List.singleton_append, htake, hdrop]
    simp [hsome, htext]
  · obtain ⟨htake, hdrop⟩ := drop_takeWhile_of_part hall (part_of_snoc hstart hshort)
    unfold scanTarget
    simp only [htake, hdrop]

theorem takes_version : Takes scanVersion (Bytes.ofText "HTTP/1.1") .http11 where
  whole rest := by
    have hlength : (Bytes.ofText "HTTP/1.1").length = 8 := by decide +kernel
    unfold scanVersion
    rw [if_neg (by rw [List.length_append]; omega), ← hlength, List.take_left, if_pos (beq_self_eq_true _),
      List.drop_left]
  part := by
    intro start hstart hshort
    have hlength : (Bytes.ofText "HTTP/1.1").length = 8 := by decide +kernel
    have hsplit : Bytes.ofText "HTTP/1.1" = Bytes.ofText "HTTP/1." ++ [Bytes.ascii '1'] := by decide +kernel
    have hpart : start <+: Bytes.ofText "HTTP/1." := by
      rw [hsplit] at hstart hshort
      exact part_of_snoc hstart hshort
    unfold scanVersion
    rw [if_pos (by omega), if_pos (List.isPrefixOf_iff_prefix.2 hpart)]

theorem takes_value {value : Bytes} (hall : ∀ b ∈ value, isValueByte b) :
    Takes scanValue (value ++ newline) (Bytes.trim Bytes.isBlank value) := by
  have hcr : isValueByte Bytes.cr = false := by decide +kernel
  have hblank : Bytes.isBlank Bytes.cr = false := by decide +kernel
  have htrimmed : ∀ {start : Bytes}, start <+: value → ∀ b ∈ start.dropWhile Bytes.isBlank, isValueByte b :=
    fun hstart b hb => hall b (hstart.subset ((List.dropWhile_sublist _).subset hb))
  -- the blanks before the value end where the line does, if not before
  have hskip : ∀ (start rest : Bytes), (start ++ Bytes.cr :: rest).dropWhile Bytes.isBlank =
      start.dropWhile Bytes.isBlank ++ Bytes.cr :: rest := by
    intro start rest
    rw [List.dropWhile_append]
    split
    · next hempty =>
      rw [List.isEmpty_iff.1 hempty, List.nil_append, List.dropWhile_cons_of_neg (by simp [hblank])]
    · rfl
  refine ⟨fun rest => ?_, fun {start} hstart hshort => ?_⟩
  · obtain ⟨htake, hdrop⟩ := drop_takeWhile_of_all (htrimmed (List.prefix_refl value)) Bytes.cr hcr (Bytes.lf :: rest)
    unfold scanValue
    simp only [newline, List.append_assoc, List.cons_append, List.nil_append, hskip, htake, hdrop]
    rfl
  · by_cases hvalue : start.length ≤ value.length
    · have hpart := List.prefix_of_prefix_length_le hstart (List.prefix_append ..) hvalue
      obtain ⟨htake, hdrop⟩ := drop_takeWhile_of_part (htrimmed hpart) (List.prefix_refl _)
      unfold scanValue
      simp only [htake, hdrop]
      rfl
    · have hreturn : start = value ++ [Bytes.cr] := by
        refine List.IsPrefix.eq_of_length (List.prefix_of_prefix_length_le hstart ?_ ?_) ?_
        · exact ⟨[Bytes.lf], by simp [newline]⟩
        all_goals
          simp only [newline, List.length_append, List.length_cons, List.length_nil] at hshort ⊢
          omega
      obtain ⟨htake, hdrop⟩ := drop_takeWhile_of_all (htrimmed (List.prefix_refl value)) Bytes.cr hcr []
      unfold scanValue
      rw [hreturn]
      simp only [hskip, htake, hdrop]
      rfl

/-! ## Requests -/

namespace Field

/-- a field as a line of a request; the value is all that stands behind the colon -/
def line (f : Field) : Bytes := f.name ++ Bytes.ascii ':' :: (f.value ++ newline)

/-- a field as it is read from its line -/
def read (f : Field) : Field := ⟨f.name, Bytes.trim Bytes.isBlank f.value⟩

/-- a field that may stand in a head and says nothing of how messages follow one another -/
structure Plain (f : Field) : Prop where
  name : Request.isToken f.name
  short : f.name.length ≤ maxNameLength
  value : ∀ b ∈ f.value, isValueByte b
  silent : ∀ word ∈ ["transfer-encoding", "content-length", "connection", "expect", "upgrade"],
    Bytes.sameIgnoringCase (Bytes.ofText word) f.name = false

variable {f : Field} {fields : List Field}

theorem Plain.not_end (hf : f.Plain) (rest : Bytes) :
    ∃ b bytes, f.line ++ rest = b :: bytes ∧ (b == Bytes.cr || b == Bytes.lf) = false := by
  obtain ⟨hsome, hall⟩ := Bool.and_eq_true_iff.1 hf.name
  cases hn : f.name with
  | nil => simp [hn] at hsome
  | cons b name =>
    refine ⟨b, _, by rw [line, hn]; rfl, ?_⟩
    have htoken : isTokenByte b := List.all_eq_true.1 hall b (by simp [hn])
    by_contra hend
    rw [Bool.not_eq_false, Bool.or_eq_true, beq_iff_eq, beq_iff_eq] at hend
    rcases hend with rfl | rfl
    · exact absurd htoken (by decide +kernel)
    · exact absurd htoken (by decide +kernel)

theorem takes_field (hf : f.Plain) : Scan.Takes scanField f.line f.read := by
  obtain ⟨hsome, hall⟩ := Bool.and_eq_true_iff.1 hf.name
  have hall : ∀ b ∈ f.name, isTokenByte b := List.all_eq_true.1 hall
  have hcolon : isTokenByte (Bytes.ascii ':') = false := by decide +kernel
  -- behind the colon the reader is that of the value
  have hbehind : ∀ rest, scanField (f.name ++ Bytes.ascii ':' :: rest) =
      (scanValue rest).andThen fun value rest => .found ⟨f.name, value⟩ rest := by
    intro rest
    obtain ⟨htake, hdrop⟩ := drop_takeWhile_of_all hall (Bytes.ascii ':') hcolon rest
    unfold scanField
    simp only [htake, hdrop, hsome, beq_self_eq_true, Bool.and_self, if_true]
  refine ⟨fun rest => ?_, fun {start} hstart hshort => ?_⟩
  · rw [line, List.append_assoc, List.cons_append, hbehind, (takes_value hf.value).whole]
    rfl
  · by_cases hname : start.length ≤ f.name.length
    · have hpart := List.prefix_of_prefix_length_le hstart (List.prefix_append ..) hname
      obtain ⟨htake, hdrop⟩ := drop_takeWhile_of_part hall hpart
      unfold scanField
      simp only [htake, hdrop]
    · have hover : f.name ++ [Bytes.ascii ':'] <+: start := by
        refine List.prefix_of_prefix_length_le ⟨f.value ++ newline, by simp [line]⟩ hstart ?_
        rw [List.length_append, List.length_singleton]
        omega
      obtain ⟨start', rfl⟩ := hover
      have hpart : start' <+: f.value ++ newline := by
        refine (List.prefix_append_right_inj (f.name ++ [Bytes.ascii ':'])).1 ?_
        simpa [line] using hstart
      have hless : start'.length < (f.value ++ newline).length := by
        simp only [line, List.length_append, List.length_cons, List.length_nil] at hshort ⊢
        omega
      rw [List.append_assoc, List.singleton_append, hbehind, (takes_value hf.value).part hpart hless]
      rfl

/-- the fields of a head and the empty line behind them -/
def lines (fields : List Field) : Bytes := fields.flatMap line ++ newline

theorem lines_cons (f : Field) (fields : List Field) : lines (f :: fields) = f.line ++ lines fields := by
  rw [lines, List.flatMap_cons, List.append_assoc, lines]

theorem length_le_lines (fields : List Field) : fields.length < (lines fields).length := by
  induction fields with
  | nil => decide
  | cons f rest ih =>
    have hline : 0 < f.line.length := by
      rw [line, List.length_append, List.length_cons]
      omega
    rw [lines_cons, List.length_append, List.length_cons]
    omega

theorem scanFields_nil (room limit : Nat) : scanFields room limit [] = .more := by
  cases limit <;> simp [scanFields]

theorem scanFields_zero (room : Nat) (bytes : Bytes) : scanFields room 0 bytes = .more := by
  cases bytes <;> simp [scanFields]

theorem scanFields_whole (hall : ∀ f ∈ fields, f.Plain) {room limit : Nat} (hroom : fields.length ≤ room)
    (hlimit : fields.length < limit) (rest : Bytes) :
    scanFields room limit (lines fields ++ rest) = .found (fields.map read) rest := by
  induction fields generalizing room limit with
  | nil =>
    obtain ⟨limit, rfl⟩ := Nat.exists_eq_add_one_of_ne_zero (Nat.ne_of_gt hlimit)
    simp [lines, newline, scanFields, scanLineEnd, Scan.andThen, Bytes.cr, Bytes.lf]
  | cons f fields ih =>
    obtain ⟨limit, rfl⟩ := Nat.exists_eq_add_one_of_ne_zero (Nat.ne_of_gt (Nat.zero_lt_of_lt hlimit))
    obtain ⟨room, rfl⟩ := Nat.exists_eq_add_one_of_ne_zero (Nat.ne_of_gt (Nat.lt_of_lt_of_le (Nat.succ_pos _) hroom))
    have hf := hall f List.mem_cons_self
    obtain ⟨b, bytes, hbytes, hend⟩ := hf.not_end (lines fields ++ rest)
    have hfield := (takes_field hf).whole (lines fields ++ rest)
    have hrest := ih (fun g hg => hall g (List.mem_cons_of_mem _ hg)) (Nat.le_of_succ_le_succ hroom)
      (Nat.lt_of_succ_lt_succ hlimit)
    rw [hbytes] at hfield
    rw [lines_cons, List.append_assoc, hbytes, scanFields, hend, if_neg Bool.false_ne_true, hfield]
    simp only [Scan.andThen, hrest, List.map_cons]

theorem scanFields_part (hall : ∀ f ∈ fields, f.Plain) {room limit : Nat} (hroom : fields.length ≤ room)
    {start : Bytes} (hstart : start <+: lines fields) (hshort : start.length < (lines fields).length) :
    scanFields room limit start = .more := by
  induction fields generalizing room limit start with
  | nil =>
    match start, limit with
    | [], limit => exact scanFields_nil room limit
    | start, 0 => exact scanFields_zero room start
    | b :: rest, limit + 1 =>
      have hend := (takes_lineEnd .header).part hstart hshort
      have hb : b = Bytes.cr := (List.cons.inj hstart.choose_spec).1
      rw [scanFields, hb, if_pos (by rfl), ← hb, hend]
      rfl
  | cons f fields ih =>
    have hf := hall f List.mem_cons_self
    obtain ⟨room, rfl⟩ := Nat.exists_eq_add_one_of_ne_zero (Nat.ne_of_gt (Nat.lt_of_lt_of_le (Nat.succ_pos _) hroom))
    rw [lines_cons] at hstart hshort
    match start, limit with
    | [], limit => exact scanFields_nil _ limit
    | start, 0 => exact scanFields_zero _ start
    | b :: start, limit + 1 =>
      obtain ⟨c, bytes, hbytes, hend⟩ := hf.not_end (lines fields)
      have hb : b = c := by
        rw [hbytes] at hstart
        exact (List.cons.inj hstart.choose_spec).1
      rw [scanFields, hb, hend, if_neg Bool.false_ne_true, ← hb]
      by_cases hfirst : (b :: start).length < f.line.length
      · have hpart := List.prefix_of_prefix_length_le hstart (List.prefix_append ..) (Nat.le_of_lt hfirst)
        rw [(takes_field hf).part hpart hfirst]
        rfl
      · obtain ⟨start', hsplit⟩ :=
          List.prefix_of_prefix_length_le (List.prefix_append ..) hstart (Nat.le_of_not_lt hfirst)
        rw [← hsplit] at hstart hshort ⊢
        rw [List.length_append, List.length_append] at hshort
        have hrest : scanFields room limit start' = .more := ih (fun g hg => hall g (List.mem_cons_of_mem _ hg))
          (Nat.le_of_succ_le_succ hroom) ((List.prefix_append_right_inj _).1 hstart) (by omega)
        rw [(takes_field hf).whole]
        simp only [Scan.andThen, hrest]

theorem takes_fields (hall : ∀ f ∈ fields, f.Plain) (hfew : fields.length ≤ maxFields) :
    Scan.Takes (fun rest => scanFields maxFields (rest.length + 1) rest) (lines fields) (fields.map read) := by
  refine ⟨fun rest => scanFields_whole hall hfew ?_ rest, fun hstart hshort => scanFields_part hall hfew hstart hshort⟩
  have hlength := length_le_lines fields
  rw [List.length_append]
  omega

end Field

/-- a field that says nothing of how messages follow one another changes nothing of what the others say -/
theorem Framing.addField_plain (version : Version) (framing : Framing) {f : Field} (hf : f.Plain) :
    framing.addField version f = .ok framing := by
  have hsilent := hf.silent
  simp only [List.forall_mem_cons, List.not_mem_nil, false_implies, implies_true, and_true] at hsilent
  obtain ⟨hencoding, hlength, hconnection, hexpect, hupgrade⟩ := hsilent
  unfold addField
  simp only [hencoding, hlength, hconnection, hexpect, hupgrade, Bool.false_eq_true, if_false]

theorem Framing.addFields_plain (version : Version) {framing : Framing} (hnone : framing.encoding = none)
    {fields : List Field} (hall : ∀ f ∈ fields, f.Plain) : framing.addFields version fields = .ok framing := by
  induction fields with
  | nil => simp [addFields, hnone]
  | cons f rest ih =>
    rw [addFields, addField_plain version framing (hall f List.mem_cons_self)]
    exact ih fun g hg => hall g (List.mem_cons_of_mem _ hg)

theorem Field.plain_read {f : Field} (hf : f.Plain) : f.read.Plain where
  name := hf.name
  short := hf.short
  value b hb := by
    have hsub : f.read.value ⊆ f.value := by
      have hright : ∀ bytes : Bytes, Bytes.trimRight Bytes.isBlank bytes ⊆ bytes := fun bytes b hb => by
        rw [Bytes.trimRight, List.mem_reverse] at hb
        exact List.mem_reverse.1 ((List.dropWhile_sublist _).subset hb)
      exact List.Subset.trans (hright _) (List.dropWhile_sublist _).subset
    exact hf.value b (hsub hb)
  silent := hf.silent

/-- a request that asks for nothing but its answer: it has no body, and it says nothing of how messages follow one
another -/
structure Get where
  target : Bytes
  parsed : Target
  fields : List Field
  parses : Target.parse target = .ok parsed
  visible : ∀ b ∈ target, isTargetByte b
  text : (Bytes.toText? target).isSome
  few : fields.length ≤ maxFields
  plain : ∀ f ∈ fields, f.Plain
  short : (Bytes.ofText "GET " ++ target ++ Bytes.ofText " HTTP/1.1\r\n" ++ Field.lines fields).length ≤ Pace.greatest

namespace Get

def method : Bytes := Bytes.ofText "GET"

/-- the request as it is sent -/
def bytes (g : Get) : Bytes :=
  Bytes.ofText "GET " ++ g.target ++ Bytes.ofText " HTTP/1.1\r\n" ++ Field.lines g.fields

/-- the request as it is read -/
def head (g : Get) : Head where
  request := { method, target := g.parsed, fields := g.fields.map Field.read }
  version := .http11
  framing := { persist := true }
  refers := !Head.isPlainTarget g.target || (g.fields.map Field.read).any fun field => !field.value.isEmpty

variable {g : Get}

theorem target_bounds (g : Get) : g.target ≠ [] ∧ g.target.length ≤ Target.maxLength := by
  have hparses := g.parses
  unfold Target.parse at hparses
  split at hparses
  · cases hparses
  · next hlong =>
    refine ⟨?_, Nat.le_of_not_lt hlong⟩
    rintro hnil
    rw [hnil] at hparses
    cases hparses

theorem bytes_eq (g : Get) : g.bytes =
    (method ++ [Bytes.space]) ++ ((g.target ++ [Bytes.space]) ++ (Bytes.ofText "HTTP/1.1" ++ (newline ++
      (Field.lines g.fields ++ [])))) := by
  have hmethod : Bytes.ofText "GET " = method ++ [Bytes.space] := by decide +kernel
  have hversion : Bytes.ofText " HTTP/1.1\r\n" = [Bytes.space] ++ (Bytes.ofText "HTTP/1.1" ++ newline) := by
    decide +kernel
  rw [bytes, hmethod, hversion]
  simp only [List.append_assoc, List.append_nil]

/-- the lines of a request, as they are read once empty lines before it are skipped -/
theorem takes_lines (g : Get) :
    Scan.Takes (fun input => (scanMethod input).andThen fun method rest => (scanTarget rest).andThen fun target rest =>
      (scanVersion rest).andThen fun version rest => (scanLineEnd .header rest).andThen fun _ rest =>
      (scanFields maxFields (rest.length + 1) rest).andThen fun fields rest =>
        .found ({ method, target, version, fields } : Head.Lines) rest) g.bytes
      { method, target := g.target, version := .http11, fields := g.fields.map Field.read } := by
  rw [bytes_eq]
  refine (takes_method (by decide +kernel)).andThen ?_
  refine (takes_target g.target_bounds.1 g.visible g.text).andThen ?_
  refine takes_version.andThen ?_
  refine (takes_lineEnd .header).andThen ?_
  exact (Field.takes_fields g.plain g.few).andThen (Scan.takes_nothing _)

theorem bytes_cons (g : Get) : ∃ rest, g.bytes = Bytes.ascii 'G' :: rest := by
  have hmethod : Bytes.ofText "GET " = Bytes.ascii 'G' :: Bytes.ofText "ET " := by decide +kernel
  refine ⟨Bytes.ofText "ET " ++ g.target ++ Bytes.ofText " HTTP/1.1\r\n" ++ Field.lines g.fields, ?_⟩
  rw [bytes, hmethod, List.cons_append, List.cons_append, List.cons_append]

/-- no empty line stands before a request -/
theorem length_pos (g : Get) : 0 < g.bytes.length := by
  obtain ⟨rest, hrest⟩ := g.bytes_cons
  rw [hrest]
  exact Nat.succ_pos _

theorem skipEmptyLines_cons (rest : Bytes) :
    skipEmptyLines (Bytes.ascii 'G' :: rest) = .found () (Bytes.ascii 'G' :: rest) := by
  have hfeed : (Bytes.ascii 'G' == Bytes.lf) = false := by decide
  have hreturn : (Bytes.ascii 'G' == Bytes.cr) = false := by decide
  rw [skipEmptyLines.eq_def]
  simp [hfeed, hreturn]

/-- a whole request is found, whatever follows it -/
theorem scan_whole (g : Get) (rest : Bytes) : Head.scan (g.bytes ++ rest) = .head g.head rest := by
  obtain ⟨behind, hbytes⟩ := g.bytes_cons
  have hlines : Head.scanLines (g.bytes ++ rest) =
      .found { method, target := g.target, version := .http11, fields := g.fields.map Field.read } rest := by
    have htakes := g.takes_lines.whole rest
    unfold Head.scanLines
    rw [hbytes, List.cons_append, skipEmptyLines_cons]
    rw [hbytes, List.cons_append] at htakes
    exact htakes
  have hnames : ((g.fields.map Field.read).any fun f => decide (f.name.length > Field.maxNameLength)) = false := by
    rw [List.any_eq_false]
    intro read hread
    obtain ⟨f, hf, rfl⟩ := List.mem_map.1 hread
    exact fun hlong => absurd (g.plain f hf).short (Nat.not_le_of_lt (of_decide_eq_true hlong))
  have hframing : Framing.ofFields method .http11 (g.fields.map Field.read) = .ok { persist := true } := by
    have hupgrades : (method == Bytes.ofText "CONNECT") = false := by decide +kernel
    rw [Framing.ofFields, hupgrades]
    refine Framing.addFields_plain .http11 rfl ?_
    intro read hread
    obtain ⟨f, hf, rfl⟩ := List.mem_map.1 hread
    exact Field.plain_read (g.plain f hf)
  unfold Head.scan
  rw [hlines]
  dsimp only
  rw [if_neg (Nat.not_lt_of_le g.target_bounds.2), hnames, if_neg Bool.false_ne_true, Head.ofLines, g.parses]
  dsimp only
  rw [hframing]
  rfl

/-- a part of a request is not enough -/
theorem scan_part (g : Get) {start : Bytes} (hstart : start <+: g.bytes) (hshort : start.length < g.bytes.length) :
    Head.scan start = .more := by
  have hlines : Head.scanLines start = .more := by
    cases hs : start with
    | nil => rfl
    | cons b rest =>
      obtain ⟨behind, hbytes⟩ := g.bytes_cons
      have hb : b = Bytes.ascii 'G' := by
        rw [hs, hbytes] at hstart
        exact (List.cons.inj hstart.choose_spec).1
      have htakes := g.takes_lines.part hstart hshort
      rw [hs, hb] at htakes
      unfold Head.scanLines
      rw [hb, skipEmptyLines_cons]
      exact htakes
  rw [Head.scan, hlines]

/-- a request ends in an empty line -/
theorem bytes_end (g : Get) : ∃ start, g.bytes = start ++ [Bytes.lf, Bytes.cr, Bytes.lf] := by
  have hlines : ∀ fields : List Field,
      ∃ start, newline ++ Field.lines fields = start ++ [Bytes.lf, Bytes.cr, Bytes.lf] := by
    intro fields
    induction fields with
    | nil => exact ⟨[Bytes.cr], rfl⟩
    | cons f rest ih =>
      obtain ⟨start, hstart⟩ := ih
      refine ⟨newline ++ f.name ++ Bytes.ascii ':' :: f.value ++ start, ?_⟩
      rw [List.append_assoc _ start, ← hstart, Field.lines_cons, Field.line]
      simp only [List.append_assoc, List.cons_append]
  obtain ⟨start, hstart⟩ := hlines g.fields
  refine ⟨(method ++ [Bytes.space]) ++ ((g.target ++ [Bytes.space]) ++ (Bytes.ofText "HTTP/1.1" ++ start)), ?_⟩
  rw [bytes_eq, List.append_nil, hstart]
  simp only [List.append_assoc]

end Get

/-- an empty line is found wherever it is -/
theorem Head.hasEmptyLine_append (start rest : Bytes) :
    Head.hasEmptyLine (start ++ [Bytes.lf, Bytes.cr, Bytes.lf] ++ rest) := by
  induction start with
  | nil => rfl
  | cons b start ih =>
    rw [List.cons_append, List.cons_append, Head.hasEmptyLine, ih, Bool.or_true]

/-- a request is looked for wherever one is, if what was looked at before was a part of it -/
theorem Get.hasEmptyLine (g : Get) {count : Nat} (hcount : count < g.bytes.length) (rest : Bytes) :
    Head.hasEmptyLine ((g.bytes ++ rest).drop (count - 3)) := by
  obtain ⟨start, hstart⟩ := g.bytes_end
  rw [hstart, List.length_append] at hcount
  have hle : count - 3 ≤ start.length := by
    simp only [List.length_cons, List.length_nil] at hcount
    omega
  rw [hstart, List.append_assoc, List.drop_append_of_le_length hle, ← List.append_assoc]
  exact Head.hasEmptyLine_append _ rest

end EventServer.Http
