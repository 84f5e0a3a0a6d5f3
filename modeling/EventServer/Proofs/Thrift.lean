/-
When an exchange may resume itself.

A protocol is `Thrifty` if a poll that ends waiting uses up at least one byte whenever it has the exchange resumed
without its peer; bytes that it only takes over from its transport it holds, and they may be used up later. So the bytes
that can come and those that are held bound how often an exchange resumes itself, and one that is polled without a new
byte parks.

HTTP is thrifty (`thrifty_protocol`). There are two ways in which a poll has itself resumed. A request with a body was
served, and then the request's head was read in this very poll (`Passed`). Or there were sixteen rounds, each of
which found something to read already; `standing` says how many rounds in a row can find that without reading a head,
and there are two of them at most (`ensures_rounds_frugal`).
-/
import EventServer.Proofs.Attention

namespace EventServer.Http

variable {α β X : Type}

/-- what is ensured in two ways is ensured at once -/
theorem Talk.Ensures.and {talk : Talk α} {budget : Nat} {stalled : Bool} {Q R : Nat → Bool → α → Prop}
    (h : talk.Ensures budget stalled Q) (h' : talk.Ensures budget stalled R) :
    talk.Ensures budget stalled fun left stalled' value => Q left stalled' value ∧ R left stalled' value := by
  induction talk generalizing budget stalled with
  | done value => exact ⟨h, h'⟩
  | recv count next ih => exact fun answer ha => ih answer (h answer ha) (h' answer ha)
  | send bytes next ih => exact fun answer => ih answer (h answer) (h' answer)
  | shutdown next ih => exact fun answer => ih answer (h answer) (h' answer)
  | note fact next ih => exact ih h h'

/-- an attentive protocol whose polls use up a byte each time that they have the exchange resumed without its peer: of
the bytes that an exchange held and those that could come, it holds or leaves one less then -/
structure Protocol.Thrifty (p : Protocol X) (arises : X → Prop) : Prop extends p.Attentive arises where
  thrift : ∀ {x} {n budget : Nat}, arises x → budget ≤ n → (p.poll n x).Ensures budget false fun left _ polled =>
    polled.ended = .waiting → p.held polled.exchange + left + polled.roused.toNat ≤ p.held x + budget

/-! ## What is left behind a head and behind a part of a body -/

namespace Scan

variable {scan : Scan α} {count count' : Nat}

/-- no more bytes than so many are left behind what was found -/
def Leaves (scan : Scan α) (count : Nat) : Prop := ∀ value rest, scan = .found value rest → rest.length ≤ count

theorem Leaves.mono (h : scan.Leaves count) (hle : count ≤ count') : scan.Leaves count' :=
  fun value rest he => Nat.le_trans (h value rest he) hle

theorem Leaves.andThen {next : α → Bytes → Scan β} (h : scan.Leaves count)
    (hnext : ∀ value rest, rest.length ≤ count → (next value rest).Leaves count') :
    (scan.andThen next).Leaves count' := by
  cases scan with
  | more => exact fun _ _ he => by cases he
  | found value rest => exact hnext value rest (h value rest rfl)
  | defect d => exact fun _ _ he => by cases he

theorem leaves_found (value : α) {rest : Bytes} (h : rest.length ≤ count) : (found value rest).Leaves count :=
  fun _ _ he => by cases he; exact h

theorem leaves_more : (more : Scan α).Leaves count := fun _ _ he => by cases he

theorem leaves_defect (d : Defect) : (defect d : Scan α).Leaves count := fun _ _ he => by cases he

end Scan

open Scan

theorem leaves_lineEnd (otherwise : Defect) (bytes : Bytes) :
    (scanLineEnd otherwise bytes).Leaves (bytes.length - 1) := by
  unfold scanLineEnd
  split
  · exact leaves_more
  · split
    · exact leaves_found _ (by simp)
    · split
      · split
        · exact leaves_more
        · split
          · exact leaves_found _ (by simp)
          · exact leaves_defect _
      · exact leaves_defect _

theorem leaves_skipEmptyLines (bytes : Bytes) : (skipEmptyLines bytes).Leaves bytes.length := by
  fun_induction skipEmptyLines bytes with
  | case1 => exact leaves_more
  | case2 b rest _ ih => exact ih.mono (by simp)
  | case3 => exact leaves_more
  | case4 b _ _ c rest _ ih =>
    have hle : rest.length ≤ (b :: c :: rest).length := by simp only [List.length_cons]; omega
    exact ih.mono hle
  | case5 => exact leaves_defect _
  | case6 => exact leaves_found _ (Nat.le_refl _)

/-- a byte behind a word is used together with the word -/
theorem length_of_drop {count : Nat} {bytes rest : Bytes} {b : UInt8} (h : bytes.drop count = b :: rest) :
    rest.length ≤ bytes.length - 1 := by
  have hlength := congrArg List.length h
  simp only [List.length_drop, List.length_cons] at hlength
  omega

theorem leaves_method (bytes : Bytes) : (scanMethod bytes).Leaves (bytes.length - 1) := by
  unfold scanMethod
  dsimp only
  split
  · exact leaves_more
  · next hdrop =>
    split
    · exact leaves_found _ (length_of_drop hdrop)
    · exact leaves_defect _

theorem leaves_target (bytes : Bytes) : (scanTarget bytes).Leaves (bytes.length - 1) := by
  unfold scanTarget
  dsimp only
  split
  · exact leaves_more
  · next hdrop =>
    split
    · exact leaves_found _ (length_of_drop hdrop)
    · exact leaves_defect _

theorem leaves_version (bytes : Bytes) : (scanVersion bytes).Leaves bytes.length := by
  have hdrop : (bytes.drop 8).length ≤ bytes.length := by simp
  unfold scanVersion
  split
  · split
    · exact leaves_more
    · exact leaves_defect _
  · split
    · exact leaves_found _ hdrop
    · split
      · exact leaves_found _ hdrop
      · exact leaves_defect _

theorem leaves_field (bytes : Bytes) : (scanField bytes).Leaves (bytes.length - 1) := by
  unfold scanField
  dsimp only
  split
  · exact leaves_more
  · next b rest hdrop =>
    have hrest := length_of_drop hdrop
    split
    · refine Leaves.andThen (?_ : Leaves _ rest.length) fun value rest' hle => leaves_found _ (Nat.le_trans hle hrest)
      unfold scanValue
      refine Leaves.andThen (leaves_lineEnd _ _) fun _ rest' hle => leaves_found _ ?_
      have htext := List.dropWhile_sublist (l := rest) Bytes.isBlank
      have hlength := htext.length_le
      simp only [List.length_drop] at hle
      omega
    · exact leaves_defect _

theorem leaves_fields (room limit : Nat) (bytes : Bytes) : (scanFields room limit bytes).Leaves bytes.length := by
  induction limit generalizing room bytes with
  | zero => cases bytes <;> (unfold scanFields; exact leaves_more)
  | succ limit ih =>
    cases bytes with
    | nil =>
      unfold scanFields
      exact leaves_more
    | cons b bytes =>
      unfold scanFields
      split
      · exact (leaves_lineEnd _ _).andThen fun _ rest hle => leaves_found _ (Nat.le_trans hle (Nat.sub_le ..))
      · refine (leaves_field _).andThen fun field rest hle => ?_
        have hle : rest.length ≤ (b :: bytes).length := Nat.le_trans hle (Nat.sub_le ..)
        cases room with
        | zero => exact leaves_defect _
        | succ room =>
          exact (ih room rest).andThen fun fields rest' hle' => leaves_found _ (Nat.le_trans hle' hle)

namespace Head

theorem leaves_lines (bytes : Bytes) : (scanLines bytes).Leaves (bytes.length - 1) := by
  unfold scanLines
  refine (leaves_skipEmptyLines bytes).andThen fun _ rest hskip => ?_
  refine (leaves_method rest).andThen fun method rest₁ hmethod => ?_
  refine (leaves_target rest₁).andThen fun target rest₂ htarget => ?_
  refine (leaves_version rest₂).andThen fun version rest₃ hversion => ?_
  refine (leaves_lineEnd .header rest₃).andThen fun _ rest₄ hend => ?_
  refine (leaves_fields maxFields (rest₄.length + 1) rest₄).andThen fun fields rest₅ hfields => ?_
  exact leaves_found _ (by omega)

theorem scanLines_nil : scanLines [] = .more := rfl

/-- a head takes at least one byte, and no fault gives one back -/
theorem scan_length (bytes : Bytes) : (∀ head rest, scan bytes = .head head rest → rest.length < bytes.length) ∧
    ∀ defect rest, scan bytes = .broken defect rest → rest.length ≤ bytes.length := by
  have hlines := leaves_lines bytes
  have hnil : bytes.length = 0 → scanLines bytes = .more := fun hl => by
    rw [List.length_eq_zero_iff.1 hl]
    exact scanLines_nil
  unfold scan
  cases hs : scanLines bytes with
  | more => exact ⟨fun _ _ he => (by cases he), fun _ _ he => by cases he⟩
  | defect d => exact ⟨fun _ _ he => (by cases he), fun _ _ he => by cases he; exact Nat.le_refl _⟩
  | found lines rest =>
    have hless : rest.length < bytes.length := by
      have hle := hlines lines rest hs
      have hpositive : bytes.length ≠ 0 := fun hl => by
        rw [hnil hl] at hs
        cases hs
      omega
    dsimp only
    split
    · exact ⟨fun _ _ he => (by cases he), fun _ _ he => by cases he; exact Nat.le_refl _⟩
    · split
      · exact ⟨fun _ _ he => (by cases he), fun _ _ he => by cases he; exact Nat.le_refl _⟩
      · split
        · exact ⟨fun _ _ he => by cases he; exact hless, fun _ _ he => by cases he⟩
        · exact ⟨fun _ _ he => (by cases he), fun _ _ he => by cases he; exact Nat.le_of_lt hless⟩

end Head

theorem Decoder.scanChunked_length (c : ChunkedBody) (bytes : Bytes) :
    (scanChunked c bytes).2.1.length ≤ bytes.length := by
  induction bytes generalizing c with
  | nil => exact Nat.le_refl _
  | cons b rest ih =>
    unfold scanChunked
    split
    · simp
    · split
      · simp
      · next c' _ =>
        split
        · simp
        · exact Nat.le_trans (ih c') (by simp)

/-- a part of a body gives no byte back -/
theorem Decoder.scan_length (decoder : Decoder) (bytes : Bytes) : (decoder.scan bytes).2.1.length ≤ bytes.length := by
  cases decoder with
  | counted remaining =>
    unfold scan
    dsimp only
    split <;> simp
  | chunked body => exact scanChunked_length body bytes

/-- no read adds to the bytes that can come and those that are held -/
theorem Inflow.Pulled.supply {f f' : Inflow} {budget left : Nat} {stalled stalled' : Bool}
    {result : Poll (Except Fault Nat)} (hp : f.Pulled budget stalled left stalled' (f', result)) :
    left + f'.buffer.length = budget + f.buffer.length := by
  cases hp with
  | pending _ hbuf _ => rw [hbuf]
  | failed _ _ hbuf _ => rw [hbuf]
  | read bytes hle _ hbuf _ =>
    rw [hbuf, List.length_append]
    omega

namespace Exchange

open Talk

variable {e e' e'' : Exchange} {budget left left' limit patience : Nat} {stalled : Bool}

/-! ## Steps that read no head -/

/-- the bytes that there are for an exchange: those that can come still and those that it holds -/
def supply (left : Nat) (e : Exchange) : Nat := left + e.inflow.buffer.length

/-- how many rounds an exchange may find something to read in already until it has read a head or reads nothing more -/
def standing (e : Exchange) : Nat :=
  match e.reading with
  | .body _ | .done => 2
  | .head => 1
  | .closed => 0

/-- a step without a head: it uses bytes at most, and there is something to read already only if there was before, or
if the exchange has got on -/
structure Frugal (e : Exchange) (budget left : Nat) (e' : Exchange) : Prop where
  supply : e'.supply left ≤ e.supply budget
  roused : e'.roused = e.roused
  standing : e'.standing ≤ e.standing
  again : e'.again → e.again ∨ e'.standing < e.standing

theorem Frugal.refl (e : Exchange) (budget : Nat) : e.Frugal budget budget e :=
  ⟨Nat.le_refl _, rfl, Nat.le_refl _, .inl⟩

theorem Frugal.trans (h : e.Frugal budget left e') (h' : e'.Frugal left left' e'') : e.Frugal budget left' e'' where
  supply := Nat.le_trans h'.supply h.supply
  roused := h'.roused.trans h.roused
  standing := Nat.le_trans h'.standing h.standing
  again ha := by
    rcases h'.again ha with ha | hless
    · exact (h.again ha).imp_right fun hless => Nat.lt_of_le_of_lt h'.standing hless
    · exact .inr (Nat.lt_of_lt_of_le hless h.standing)

theorem Frugal.mono {budget' : Nat} (h : e.Frugal budget left e') (hle : budget ≤ budget') :
    e.Frugal budget' left e' :=
  ⟨Nat.le_trans h.supply (Nat.add_le_add_right hle _), h.roused, h.standing, h.again⟩

/-- a step that leaves the exchange where it stands, but for bytes that it takes over or uses -/
theorem frugal_of_same (hsupply : e'.supply left ≤ e.supply budget) (hroused : e'.roused = e.roused)
    (hreading : e'.reading = e.reading) (hagain : e'.again = e.again) : e.Frugal budget left e' :=
  ⟨hsupply, hroused, Nat.le_of_eq (by rw [standing, hreading, standing]), fun ha => .inl (hagain ▸ ha)⟩

/-- a step after which nothing more is read -/
theorem frugal_of_closed (hsupply : e'.supply left ≤ e.supply budget) (hroused : e'.roused = e.roused)
    (hreading : e'.reading = .closed) (hagain : e'.again → e.again ∨ 0 < e.standing) : e.Frugal budget left e' := by
  have hstanding : e'.standing = 0 := by rw [standing, hreading]
  exact ⟨hsupply, hroused, hstanding ▸ Nat.zero_le _, hstanding ▸ hagain⟩

/-- looking ahead is of no matter to an exchange that reads no head or is blocked, and finds something to read only
where a head comes next -/
theorem frugal_lookAhead (e : Exchange) : e.lookAhead.Ensures budget stalled fun left _ e' =>
    e'.supply left ≤ e.supply budget ∧ e'.roused = e.roused ∧ e'.standing ≤ e.standing ∧
      (e.reading ≠ .head ∨ e.inflow.blocked → e' = e) := by
  unfold lookAhead
  split
  · exact ⟨Nat.le_refl _, rfl, Nat.le_refl _, fun _ => rfl⟩
  · next hhere =>
    have hskip : ¬ (e.reading ≠ .head ∨ e.inflow.blocked) := by simpa using hhere
    split
    · exact ⟨Nat.le_refl _, rfl, Nat.le_refl _, fun hs => absurd hs hskip⟩
    · refine (ensures_pull e).bind fun left _ _ _ after => ?_
      obtain ⟨e', result⟩ := after
      rintro ⟨f, rfl, hp⟩
      have hsupply := Nat.le_of_eq hp.supply
      cases hp with
      | pending _ _ _ => exact ⟨hsupply, rfl, Nat.le_refl _, fun hs => absurd hs hskip⟩
      | failed _ _ _ _ => exact ⟨hsupply, rfl, Nat.zero_le _, fun hs => absurd hs hskip⟩
      | read bytes _ _ _ _ =>
        cases bytes with
        | nil => exact ⟨hsupply, rfl, Nat.zero_le _, fun hs => absurd hs hskip⟩
        | cons b rest => exact ⟨hsupply, rfl, Nat.le_refl _, fun hs => absurd hs hskip⟩

theorem advance_cases (e : Exchange) : e.advance = e ∨ e.advance = e.close ∨
    e.reading = .done ∧ e.advance = { e with reading := .head, writing := .idle } := by
  unfold advance
  split
  · next hreading _ =>
    split
    · exact .inr (.inr ⟨hreading, rfl⟩)
    · exact .inr (.inl rfl)
  · exact .inr (.inl rfl)
  · exact .inr (.inl rfl)
  · exact .inl rfl

/-- an exchange goes on behind a request, or reads nothing more, or waits for a head -/
theorem frugal_goOn (e : Exchange) : e.goOn.Ensures budget stalled fun left _ e' =>
    e'.supply left ≤ e.supply budget ∧ ((e.reading = .head → e.inflow.blocked) → e.Frugal budget left e') := by
  have hadvance : e.Frugal budget budget e.advance ∧
      (e.advance.reading = .head → e.advance.inflow.blocked = e.inflow.blocked ∧
        (e.reading = .head ∨ e.reading = .done)) := by
    rcases e.advance_cases with he | he | ⟨hdone, he⟩
    · rw [he]
      exact ⟨.refl e budget, fun hr => ⟨rfl, .inl hr⟩⟩
    · rw [he]
      exact ⟨frugal_of_closed (Nat.le_refl _) rfl rfl .inl, fun hr => by cases hr⟩
    · rw [he]
      refine ⟨⟨Nat.le_refl _, rfl, ?_, .inl⟩, fun _ => ⟨rfl, .inr hdone⟩⟩
      simp [standing, hdone]
  obtain ⟨hfrugal, hhead⟩ := hadvance
  refine (frugal_lookAhead e.advance).mono fun left _ _ _ e' ⟨hsupply, hroused, hstanding, hsame⟩ =>
    ⟨Nat.le_trans hsupply hfrugal.supply, fun hblocked => ?_⟩
  by_cases hmoves : e.advance.reading = .head ∧ ¬ e.advance.inflow.blocked
  · -- what is found in front of the next head was behind a request before
    obtain ⟨hb, hfrom⟩ := hhead hmoves.1
    have hdone := hfrom.resolve_left fun hr => hmoves.2 (hb ▸ hblocked hr)
    have hless : e'.standing < e.standing := by
      have hone : e.advance.standing = 1 := by rw [standing, hmoves.1]
      have htwo : e.standing = 2 := by rw [standing, hdone]
      omega
    exact ⟨Nat.le_trans hsupply hfrugal.supply, hroused.trans hfrugal.roused, Nat.le_of_lt hless, fun _ => .inr hless⟩
  · have he := hsame (by simpa [Classical.or_iff_not_imp_left] using hmoves)
    subst he
    exact hfrugal.trans ⟨hsupply, rfl, Nat.le_refl _, .inl⟩

/-- a part of a body is taken from the bytes that there are -/
theorem frugal_takePart (e : Exchange) {old : Decoder} (hbody : e.reading = .body old) (decoder : Decoder) :
    (takePart limit e decoder).Ensures budget stalled fun left _ after =>
      ∃ f decoder, after.1 = { e with inflow := f, reading := .body decoder } ∧
        left + f.buffer.length ≤ e.supply budget := by
  induction limit generalizing e old decoder budget stalled with
  | zero => exact ⟨e.inflow, old, by rw [← hbody], Nat.le_refl _⟩
  | succ limit ih =>
    have hscan := decoder.scan_length e.inflow.buffer
    unfold takePart
    dsimp only
    cases hpart : (decoder.scan e.inflow.buffer).2.2 with
    | some part => exact ⟨_, _, rfl, Nat.add_le_add_left hscan _⟩
    | none =>
      refine (ensures_pull _).bind fun left hl stalled' hs after => ?_
      obtain ⟨e', result⟩ := after
      rintro ⟨f, rfl, hp⟩
      have hsupply : left + f.buffer.length ≤ e.supply budget :=
        Nat.le_trans (Nat.le_of_eq hp.supply) (Nat.add_le_add_left hscan _)
      cases hp with
      | pending _ _ _ => exact ⟨f, _, rfl, hsupply⟩
      | failed _ _ _ _ => exact ⟨f, _, rfl, hsupply⟩
      | read bytes _ _ _ _ =>
        cases bytes with
        | nil => exact ⟨f, _, rfl, hsupply⟩
        | cons b rest =>
          refine (ih { e with inflow := f, reading := .body (decoder.scan e.inflow.buffer).1 } rfl _).mono
            fun left' _ _ _ after => ?_
          rintro ⟨f', decoder', hafter, hle⟩
          exact ⟨f', decoder', hafter, Nat.le_trans hle hsupply⟩

theorem frugal_readBody (e : Exchange) : (e.readBody patience).Ensures budget stalled fun left _ after =>
    e.Frugal budget left after.1 := by
  unfold readBody
  split
  · next decoder hbody =>
    have htwo : e.standing = 2 := by rw [standing, hbody]
    refine (frugal_takePart e hbody decoder).bind fun left _ stalled' _ after => ?_
    obtain ⟨e', part⟩ := after
    rintro ⟨f, decoder', rfl, hsupply⟩
    -- the exchange stands where it stood, or reads nothing more, and goes on from there
    have hgo : ∀ (g : Inflow) (reading : Reading) (part : BodyPart), g.buffer = f.buffer →
        reading = .done ∨ reading = .closed →
        (goOn { e with inflow := g, reading } >>= fun e => pure (e, some part)).Ensures left stalled'
          fun left _ after => e.Frugal budget left after.1 := by
      intro g reading part hbuffer hreading
      have hstart : e.Frugal budget left { e with inflow := g, reading } := by
        refine ⟨by rwa [supply, hbuffer], rfl, ?_, .inl⟩
        rcases hreading with rfl | rfl <;> simp [standing, hbody]
      refine (frugal_goOn _).bind fun left' _ _ _ e'' ⟨_, hfrugal⟩ => hstart.trans (hfrugal fun hr => ?_)
      rcases hreading with rfl | rfl <;> cases hr
    have hstay : e.Frugal budget left { e with inflow := f, reading := .body decoder' } :=
      ⟨hsupply, rfl, Nat.le_of_eq htwo.symm, .inl⟩
    match part with
    | none => exact hstay
    | some .data => exact hstay
    | some .finished => exact hgo (f.share _) .done .finished rfl (.inl rfl)
    | some .broken => exact hgo f .closed .broken rfl (.inr rfl)
  · exact .refl e budget

theorem frugal_settleInlet (e : Exchange) : (e.settleInlet patience).Ensures budget stalled fun left _ e' =>
    e.Frugal budget left e' := by
  unfold settleInlet
  split
  · unfold skipBody
    refine (frugal_readBody { e with inlet := none }).bind fun left _ _ _ after hread => ?_
    obtain ⟨e', part⟩ := after
    have hread : e.Frugal budget left e' := ⟨hread.supply, hread.roused, hread.standing, hread.again⟩
    have hclosed : e'.Frugal left left ({ e' with inflow := e'.inflow.share false }).closeReading :=
      frugal_of_closed (Nat.le_refl _) rfl rfl .inl
    dsimp only
    split
    · exact hread.trans (frugal_of_same (Nat.le_refl _) rfl rfl rfl)
    · exact hread.trans (frugal_of_same (Nat.le_refl _) rfl rfl rfl)
    · exact hread.trans hclosed
    · exact hread.trans hclosed
  · exact frugal_of_same (Nat.le_refl _) rfl rfl rfl
  · exact .refl e budget

/-! ## Heads -/

/-- a head is taken from the bytes that there are, and one that is not there yet leaves the exchange blocked -/
theorem frugal_readHead (e : Exchange) (hlimit : 0 < limit) (hroom : Pace.greatest < e.inflow.buffer.length + limit) :
    (readHead limit e).Ensures budget stalled fun left _ after =>
      ∃ f, after.1 = { e with inflow := f } ∧ left + f.buffer.length ≤ e.supply budget ∧ match after.2 with
        | .waiting => f.blocked = true
        | .head _ => left + f.buffer.length < e.supply budget
        | .failed _ => True := by
  induction limit generalizing e budget stalled with
  | zero => exact absurd hlimit (Nat.lt_irrefl 0)
  | succ limit ih =>
    obtain ⟨hhead, hbroken⟩ := Head.scan_length e.inflow.buffer
    unfold readHead
    dsimp only
    split
    · next head rest hscan =>
      split at hscan
      · have hless := Nat.add_lt_add_left (hhead _ _ hscan) budget
        exact ⟨_, rfl, Nat.le_of_lt hless, hless⟩
      · cases hscan
    · next defect rest hscan =>
      split at hscan
      · exact ⟨_, rfl, Nat.add_le_add_left (hbroken _ _ hscan) budget, trivial⟩
      · cases hscan
    · split
      · exact ⟨e.inflow, rfl, Nat.le_refl _, trivial⟩
      · refine (ensures_pull _).bind fun left hl stalled' hs after => ?_
        obtain ⟨e', result⟩ := after
        rintro ⟨f, rfl, hp⟩
        have hsupply : left + f.buffer.length ≤ e.supply budget := Nat.le_of_eq hp.supply
        cases hp with
        | pending hb _ _ => exact ⟨f, rfl, hsupply, hb⟩
        | failed _ _ _ _ => exact ⟨f, rfl, hsupply, trivial⟩
        | read bytes hle hb hbuf _ =>
          cases bytes with
          | nil => exact ⟨f, rfl, hsupply, trivial⟩
          | cons b rest =>
            have hmany : f.buffer.length = e.inflow.buffer.length + (rest.length + 1) := by
              rw [hbuf, List.length_append, List.length_cons]
            refine (ih { e with inflow := f } (by omega) (by dsimp only; omega)).mono fun left' _ _ _ after => ?_
            rintro ⟨f', hafter, hle', hcases⟩
            refine ⟨f', hafter, Nat.le_trans hle' hsupply, ?_⟩
            obtain ⟨e'', result⟩ := after
            cases result with
            | waiting => exact hcases
            | head head => exact Nat.lt_of_lt_of_le hcases hsupply
            | failed failure => trivial

theorem frugal_refuseHead (o : Options) (e : Exchange) (failure : Failure)
    (hok : (e.refuseHead o failure).2 = .ok ()) : e.Frugal budget budget (e.refuseHead o failure).1 := by
  have hclosed := (refuseHead_spec o e failure hok).1
  have hbuffer := (List.dropWhile_sublist (l := e.inflow.buffer) fun b => b == Bytes.cr || b == Bytes.lf).length_le
  refine frugal_of_closed (Nat.add_le_add_left ?_ budget) ?_ hclosed fun ha => .inl ?_
  · refine Nat.le_trans (Nat.le_of_eq ?_) hbuffer
    unfold refuseHead
    dsimp only
    repeat' split
    all_goals rfl
  · unfold refuseHead
    dsimp only
    repeat' split
    all_goals rfl
  · rw [← ha]
    unfold refuseHead
    dsimp only
    repeat' split
    all_goals rfl

/-- what holds once it was time for a head: one was read, which used a byte up, or none was, and then the exchange is
blocked if it waits for one -/
def Passed (e : Exchange) (budget left : Nat) (e' : Exchange) : Prop :=
  e'.supply left < e.supply budget ∨ e.Frugal budget left e' ∧ e'.call = none ∧
    (∀ decoder, e'.reading ≠ .body decoder) ∧ (e'.reading = .head → e'.inflow.blocked)

theorem frugal_nextHead (o : Options) (hcall : e.call = none) (hbody : ∀ decoder, e.reading ≠ .body decoder) :
    (e.nextHead o).Ensures budget stalled fun left _ after => after.2 = .ok () → e.Passed budget left after.1 := by
  unfold nextHead
  split
  · next hreading => exact fun _ => .inr ⟨.refl e budget, hcall, hbody, fun hr => absurd hr hreading⟩
  · next hreading =>
    have hhead : e.reading = .head := Decidable.not_not.1 hreading
    refine (frugal_readHead e (Nat.succ_pos _) (by omega)).bind fun left hl stalled' hs after => ?_
    obtain ⟨e', result⟩ := after
    rintro ⟨f, rfl, hsupply, hcases⟩
    have hread : e.Frugal budget left { e with inflow := f } := frugal_of_same hsupply rfl rfl rfl
    cases result with
    | waiting => exact fun _ => .inr ⟨hread, hcall, hbody, fun _ => hcases⟩
    | head head => exact fun _ => .inl hcases
    | failed failure =>
      intro hok
      obtain ⟨hclosed, hcall', -⟩ := refuseHead_spec o { e with inflow := f } failure hok
      refine .inr ⟨hread.trans (frugal_refuseHead o _ failure hok), hcall'.trans hcall, fun decoder hr => ?_,
        fun hr => ?_⟩
      · rw [hclosed] at hr
        cases hr
      · rw [hclosed] at hr
        cases hr

/-- a body that follows a head is read from the bytes that there are -/
theorem frugal_fillInlet (e : Exchange) : (e.fillInlet patience).Ensures budget stalled fun left _ e' =>
    e'.supply left ≤ e.supply budget ∧ ((∀ decoder, e.reading ≠ .body decoder) → e' = e) := by
  unfold fillInlet
  split
  · next decoder _ hbody =>
    refine e.frugal_readBody.bind fun left _ _ _ after hread => ?_
    obtain ⟨e', part⟩ := after
    match part with
    | none | some .data | some .finished | some .broken =>
      exact ⟨hread.supply, fun hnone => absurd hbody (hnone decoder)⟩
  · exact ⟨Nat.le_refl _, fun _ => rfl⟩

theorem frugal_lookForEnd (e : Exchange) : e.lookForEnd.Ensures budget stalled fun left _ after => after.2 = .ok () →
    after.1.supply left ≤ e.supply budget ∧
      ∃ f, after.1 = { e with inflow := f } ∧ (e.reading ≠ .done → after.1 = e) := by
  unfold lookForEnd
  split
  · exact fun _ => ⟨Nat.le_refl _, e.inflow, rfl, fun _ => rfl⟩
  · next hhere =>
    obtain ⟨⟨-, hdone⟩, -⟩ : (e.inlet = none ∧ e.reading = .done) ∧ e.inflow.buffer = [] := by simpa using hhere
    refine (ensures_pull e).bind fun left _ _ _ after => ?_
    obtain ⟨e', result⟩ := after
    rintro ⟨f, rfl, hp⟩
    have hsupply := Nat.le_of_eq hp.supply
    cases hp with
    | pending _ _ _ => exact fun _ => ⟨hsupply, f, rfl, fun hr => absurd hdone hr⟩
    | failed _ _ _ _ => exact fun hok => by cases hok
    | read bytes _ _ _ _ =>
      cases bytes with
      | nil => exact fun hok => by cases hok
      | cons b rest => exact fun _ => ⟨hsupply, f, rfl, fun hr => absurd hdone hr⟩

/-- the reads of a round read a head, or they leave the exchange as `Passed` says -/
theorem frugal_readPhase (o : Options) (h : e.Between) (hbudget : budget ≤ patience) :
    (e.readPhase o patience).Ensures budget stalled fun left _ after => after.2 = .ok () →
      e.Passed budget left after.1 := by
  unfold readPhase
  refine ((ensures_settleInlet h hbudget).and e.frugal_settleInlet).bind fun left hl _ _ e₁ ⟨⟨_, hcall, _, hbody⟩,
    hsettled⟩ => (frugal_nextHead o hcall hbody).bind fun left₂ _ _ _ after hpassed => ?_
  obtain ⟨e₂, result⟩ := after
  cases result with
  | error failure => exact fun hok => by cases hok
  | ok =>
    refine e₂.frugal_fillInlet.bind fun left₃ hl₃ _ _ e₃ ⟨hsupply₃, hsame₃⟩ => e₃.frugal_lookForEnd.mono
      fun left₄ _ _ _ after hlooked hok => ?_
    obtain ⟨hsupply₄, f, he₄, hsame₄⟩ := hlooked hok
    rcases hpassed rfl with hless | ⟨hfrugal, hcall₂, hbody₂, hblocked⟩
    · exact .inl (Nat.lt_of_le_of_lt (Nat.le_trans hsupply₄ hsupply₃) (Nat.lt_of_lt_of_le hless hsettled.supply))
    · rw [hsame₃ hbody₂] at hsupply₄ he₄ hsame₄
      refine .inr ⟨hsettled.trans (hfrugal.trans ((frugal_of_same hsupply₄ ?_ ?_ ?_).mono hl₃)), ?_, ?_, fun hr => ?_⟩
      · rw [he₄]
      · rw [he₄]
      · rw [he₄]
      · rw [he₄]
        exact hcall₂
      · rw [he₄]
        exact hbody₂
      · have hhead : e₂.reading = .head := by rwa [he₄] at hr
        rw [hsame₄ (by simp [hhead])]
        exact hblocked hhead

/-! ## Rounds -/

/-- a request that is served leaves the bytes that there are -/
theorem frugal_writePhase (o : Options) (e : Exchange) : (e.writePhase o).Ensures budget stalled fun left _ e' =>
    e'.supply left = e.supply budget ∧ (e.call = none → e' = e) := by
  unfold writePhase
  split
  · exact ⟨rfl, fun _ => rfl⟩
  · next call hcall => exact .reports _ ⟨rfl, fun hnone => by simp [hnone] at hcall⟩

theorem frugal_flush (e : Exchange) : e.flush.Ensures budget stalled fun left _ after => after.2 = .ok () →
    after.1.supply left ≤ e.supply budget ∧
      ((e.reading = .head → e.inflow.blocked) → e.Frugal budget left after.1) := by
  unfold flush
  refine (ensures_writeOut e (Nat.lt_succ_self _)).bind fun left hl stalled' hs after => ?_
  obtain ⟨e', result⟩ := after
  rintro ⟨⟨outbox, rfl⟩, -⟩
  have hwritten : e.Frugal budget left { e with outbox } :=
    frugal_of_same (Nat.add_le_add_right hl _) rfl rfl rfl
  match result with
  | .error failure => exact fun hok => by cases hok
  | .ok false => exact fun _ => ⟨hwritten.supply, fun _ => hwritten⟩
  | .ok true => exact (frugal_goOn _).bind fun left' _ _ _ e'' ⟨hsupply, hfrugal⟩ _ =>
      ⟨Nat.le_trans hsupply hwritten.supply, fun hb => hwritten.trans (hfrugal hb)⟩

/-- **A round is frugal**, unless it reads a head -/
theorem frugal_round (o : Options) (h : e.Between) (hbudget : budget ≤ patience) :
    (e.round o patience).Ensures budget stalled fun left _ after => after.2 = .ok () →
      after.1.supply left < e.supply budget ∨ e.Frugal budget left after.1 := by
  unfold round
  refine (frugal_readPhase o h hbudget).bind fun left _ _ _ after hread => ?_
  obtain ⟨e₁, result⟩ := after
  cases result with
  | error failure => exact fun hok => by cases hok
  | ok =>
    refine (e₁.frugal_writePhase o).bind fun left₂ hl₂ _ _ e₂ ⟨hsupply₂, hsame₂⟩ => e₂.frugal_flush.mono
      fun left₃ _ _ _ after hflushed hok => ?_
    obtain ⟨hsupply₃, hfrugal₃⟩ := hflushed hok
    rcases hread rfl with hless | ⟨hfrugal, hcall, -, hblocked⟩
    · refine .inl (Nat.lt_of_le_of_lt (Nat.le_trans hsupply₃ ?_) hless)
      exact Nat.le_of_eq hsupply₂
    · have he := hsame₂ hcall
      subst he
      exact .inr (hfrugal.trans ((hfrugal₃ hblocked).mono hl₂))

/-! ## A poll -/

/-- rounds that end because there were enough of them have used a byte up, if there were more than may go by without -/
theorem ensures_rounds_frugal (o : Options) (limit : Nat) (h : e.Between) (hbudget : budget ≤ patience) :
    (rounds o patience limit e).Ensures budget stalled fun left _ after => ∀ found, after.2 = .ok found →
      after.1.supply left < e.supply budget ∨ after.1.supply left ≤ e.supply budget ∧ after.1.roused = e.roused ∧
        (found = false → limit ≤ e.standing + e.again.toNat) := by
  induction limit generalizing e budget stalled with
  | zero => exact fun _ _ => .inr ⟨Nat.le_refl _, rfl, fun _ => Nat.zero_le _⟩
  | succ limit ih =>
    unfold rounds
    refine ((ensures_round o h hbudget).and (frugal_round o h hbudget)).bind fun left hl _ _ after hround => ?_
    obtain ⟨e', result⟩ := after
    obtain ⟨hbetween, hfrugal⟩ := hround
    cases result with
    | error failure => exact fun _ hok => by cases hok
    | ok =>
      obtain ⟨hbetween, -⟩ := hbetween rfl
      have hfrugal := hfrugal rfl
      dsimp only at hbetween hfrugal ⊢
      split
      · next hagain =>
        have hnext : Between { e' with again := false } := hbetween.of_same rfl rfl rfl rfl rfl
        refine (ih hnext (Nat.le_trans hl hbudget)).mono fun left' _ _ _ after hrest found hok => ?_
        have hrest := hrest found hok
        have hsupply : supply left { e' with again := false } = e'.supply left := rfl
        rw [hsupply] at hrest
        rcases hfrugal with hless | hfrugal
        · refine .inl ?_
          rcases hrest with hless' | ⟨hle, -⟩
          · exact Nat.lt_trans hless' hless
          · exact Nat.lt_of_le_of_lt hle hless
        · rcases hrest with hless | ⟨hle, hroused, hfew⟩
          · exact .inl (Nat.lt_of_lt_of_le hless hfrugal.supply)
          · refine .inr ⟨Nat.le_trans hle hfrugal.supply, hroused.trans hfrugal.roused, fun hnone => ?_⟩
            have hfew : limit ≤ e'.standing := hfew hnone
            have hstanding := hfrugal.standing
            rcases hfrugal.again hagain with ha | hless
            · rw [ha, Bool.toNat_true]
              omega
            · omega
      · refine fun found hok => ?_
        cases hok
        refine hfrugal.imp_right fun hfrugal => ⟨hfrugal.supply, hfrugal.roused, fun hnone => by cases hnone⟩

theorem standing_le (e : Exchange) : e.standing ≤ 2 := by
  unfold standing
  split <;> decide

/-- **A poll is thrifty**: one that has the exchange resumed without its peer uses up a byte at least -/
theorem ensures_poll_thrifty (o : Options) (h : e.Between) (hbudget : budget ≤ patience) :
    (e.poll o patience).Ensures budget stalled fun left _ after => after.2 = .waiting →
      after.1.supply left + after.1.roused.toNat ≤ e.supply budget := by
  unfold poll
  have hstart : Between { e with roused := false } := h.of_same rfl rfl rfl rfl rfl
  refine (ensures_rounds_frugal o maxRounds hstart hbudget).bind fun left hl stalled' hs after hrounds => ?_
  obtain ⟨e', result⟩ := after
  have hsupply : supply budget { e with roused := false } = e.supply budget := rfl
  rw [hsupply] at hrounds
  -- whether or not the exchange is resumed, a byte was used up if it is
  have hend : ∀ found, result = .ok found → e'.supply left + e'.roused.toNat ≤ e.supply budget := fun found hr => by
    rcases hrounds found hr with hless | ⟨hle, hroused, -⟩
    · have htoNat := Bool.toNat_le e'.roused
      dsimp only at hless
      omega
    · have hroused : e'.roused = false := hroused
      rw [hroused]
      exact hle
  match result with
  | .error failure => exact fun hr => by cases hr
  | .ok false =>
    intro _
    have hless : e'.supply left < e.supply budget := by
      rcases hrounds false rfl with hless | ⟨-, -, hfew⟩
      · exact hless
      · have htwo := standing_le { e with roused := false }
        have hone := Bool.toNat_le e.again
        have hfew : 16 ≤ standing { e with roused := false } + e.again.toNat := hfew rfl
        omega
    exact hless
  | .ok true =>
    dsimp only
    split
    · unfold finish
      split
      · next hoffers => exact fun _ => hend true rfl
      · refine (ensures_writeOut e' (Nat.lt_succ_self _)).bind fun left' hl' _ _ after => ?_
        obtain ⟨e'', result⟩ := after
        rintro ⟨⟨outbox, rfl⟩, -⟩
        have hwritten : supply left' { e' with outbox } + e'.roused.toNat ≤ e.supply budget :=
          Nat.le_trans (Nat.add_le_add_right (Nat.add_le_add_right hl' _) _) (hend true rfl)
        match result with
        | .error failure => exact fun hr => by cases hr
        | .ok false => exact fun _ => hwritten
        | .ok true =>
          intro answer
          match answer with
          | .error fault => exact fun hr => by cases hr
          | .ok () => exact fun _ => hwritten
    · exact fun _ => hend true rfl

end Exchange

/-- **HTTP is thrifty**: an exchange is resumed without its peer only for bytes that it has used up -/
theorem thrifty_protocol (o : Options) : (protocol o).Thrifty Exchange.Between where
  toAttentive := attentive_protocol o
  thrift {e n budget} h hbudget := by
    refine (Exchange.ensures_poll_thrifty o h hbudget).bind fun left _ _ _ after hpoll hended => ?_
    have hsupply := hpoll hended
    simp only [Exchange.supply] at hsupply
    simp only [protocol]
    omega

end EventServer.Http
