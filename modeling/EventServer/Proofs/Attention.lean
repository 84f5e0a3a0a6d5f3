/-
When an exchange may wait.

`Talk.Ensures` is what holds of a talk however its calls are answered: of how many bytes can come still, of whether a
read or a write had to wait (`waits`), and of the value. It goes along `bind` (`Ensures.bind`), and holds of every run
over a transport (`Ensures.run`).

A protocol is `Attentive` if a poll ends waiting only if in the same poll a read or a write had to wait, or if the
exchange is to be resumed without its peer; that is asked of the exchanges that come about only, which are those of an
invariant. HTTP is attentive (`attentive_protocol`). Its invariant is `Between`: what matters in it is that an exchange
which is `blocked` has nothing in its buffer that it could go on with, so that its next round reads (`ensures_round`).
-/
import EventServer.Proofs.Locality

namespace EventServer.Http

variable {α β σ X : Type}

/-- whether a call had to wait -/
def waits : Poll α → Bool
  | .pending => true
  | .ready _ => false

theorem waits_iff {answer : Poll α} : waits answer ↔ answer = .pending := by cases answer <;> simp [waits]

@[simp] theorem or_waits_pending (stalled : Bool) : (stalled || waits (.pending : Poll α)) = true := Bool.or_true _

@[simp] theorem or_waits_ready (stalled : Bool) (value : α) : (stalled || waits (.ready value)) = stalled :=
  Bool.or_false _

namespace Talk

/-- what holds at the end of a talk that starts with so many bytes to come, after a call that had to wait or not: it is
about the bytes that can come still, about whether a call had to wait, and about the value -/
def Ensures : Talk α → Nat → Bool → (Nat → Bool → α → Prop) → Prop
  | done value, budget, stalled, Q => Q budget stalled value
  | recv _ next, budget, stalled, Q => ∀ answer, brought answer ≤ budget →
      (next answer).Ensures (budget - brought answer) (stalled || waits answer) Q
  | send _ next, budget, stalled, Q => ∀ answer, (next answer).Ensures budget (stalled || waits answer) Q
  | shutdown next, budget, stalled, Q => ∀ answer, (next answer).Ensures budget stalled Q
  | note _ next, budget, stalled, Q => next.Ensures budget stalled Q

namespace Ensures

variable {talk : Talk α} {budget : Nat} {stalled : Bool} {Q R : Nat → Bool → α → Prop}

/-- no more bytes come than could, and a call that had to wait is not forgotten -/
theorem bind {f : α → Talk β} {R : Nat → Bool → β → Prop} (h : talk.Ensures budget stalled Q)
    (hf : ∀ left ≤ budget, ∀ stalled' : Bool, (stalled → stalled') → ∀ value, Q left stalled' value →
      (f value).Ensures left stalled' R) : (talk >>= f).Ensures budget stalled R := by
  induction talk generalizing budget stalled with
  | done value => exact hf _ (Nat.le_refl _) _ id value h
  | recv count next ih =>
    intro answer ha
    refine ih _ (h answer ha) fun left hl stalled' hs value => hf left (by omega) stalled' (fun h => hs ?_) value
    rw [h, Bool.true_or]
  | send bytes next ih =>
    intro answer
    refine ih _ (h answer) fun left hl stalled' hs value => hf left hl stalled' (fun h => hs ?_) value
    rw [h, Bool.true_or]
  | shutdown next ih => exact fun answer => ih _ (h answer) hf
  | note fact next ih => exact ih h hf

theorem mono (h : talk.Ensures budget stalled Q)
    (hq : ∀ left ≤ budget, ∀ stalled' : Bool, (stalled → stalled') → ∀ value, Q left stalled' value → R left stalled' value) :
    talk.Ensures budget stalled R := by
  have hbound : (talk >>= done).Ensures budget stalled R := h.bind hq
  rwa [bind_done] at hbound

theorem reports (facts : List Note) (h : talk.Ensures budget stalled Q) :
    (Talk.reports facts talk).Ensures budget stalled Q := by
  induction facts with
  | nil => exact h
  | cons fact rest ih => exact ih

/-- what is ensured of a talk holds of its run over a transport, if no more bytes are there than the budget, and no more
are there afterwards than can come still; the site is as every operation leaves it, given which calls had to wait -/
theorem run (T : Transport σ) {J : Bool → σ → Prop} (due : σ → Nat)
    (hrecv : ∀ {stalled site} count, J stalled site →
      J (stalled || waits (T.recv site count).2) (T.recv site count).1 ∧
        brought (T.recv site count).2 + due (T.recv site count).1 ≤ due site)
    (hsend : ∀ {stalled site} bytes, J stalled site →
      J (stalled || waits (T.send site bytes).2) (T.send site bytes).1 ∧ due (T.send site bytes).1 ≤ due site)
    (hshutdown : ∀ {stalled site}, J stalled site →
      J stalled (T.shutdown site).1 ∧ due (T.shutdown site).1 ≤ due site)
    (hnote : ∀ {stalled site} fact, J stalled site → J stalled (T.note site fact) ∧ due (T.note site fact) ≤ due site)
    (h : talk.Ensures budget stalled Q) {site : σ} (hj : J stalled site) (hd : due site ≤ budget) :
    ∃ left stalled', Q left stalled' (talk.run T site).2 ∧ J stalled' (talk.run T site).1 ∧
      due (talk.run T site).1 ≤ left := by
  induction talk generalizing budget stalled site with
  | done value => exact ⟨budget, stalled, h, hj, hd⟩
  | recv count next ih =>
    obtain ⟨hj', hdue⟩ := hrecv count hj
    exact ih _ (h _ (by omega)) hj' (by omega)
  | send bytes next ih =>
    obtain ⟨hj', hdue⟩ := hsend bytes hj
    exact ih _ (h _) hj' (by omega)
  | shutdown next ih =>
    obtain ⟨hj', hdue⟩ := hshutdown hj
    exact ih _ (h _) hj' (by omega)
  | note fact next ih =>
    obtain ⟨hj', hdue⟩ := hnote fact hj
    exact ih h hj' (by omega)

end Ensures

end Talk

/-- a poll of an exchange that comes about ends waiting only if in the same poll a read or a write had to wait, or if the
exchange is to be resumed without its peer. Which exchanges come about is an invariant of the polls -/
structure Protocol.Attentive (p : Protocol X) (arises : X → Prop) : Prop where
  start : arises p.start
  waits : ∀ {x} (n : Nat), arises x → (p.poll n x).Ensures n false fun _ stalled polled =>
    polled.ended = .waiting → arises polled.exchange ∧ (stalled ∨ polled.roused)

/-! ## What was read -/

/-- an empty line among the last bytes is one among all -/
theorem Head.hasEmptyLine_of_drop {count : Nat} {bytes : Bytes} (h : Head.hasEmptyLine (bytes.drop count)) :
    Head.hasEmptyLine bytes := by
  induction count generalizing bytes with
  | zero => exact h
  | succ count ih =>
    cases bytes with
    | nil => exact h
    | cons b rest =>
      have hrest : Head.hasEmptyLine rest := ih h
      simp [Head.hasEmptyLine, hrest]

namespace Inflow

variable {f : Inflow} {budget : Nat} {stalled : Bool}

/-- the bytes do not hold a whole head -/
def Short (f : Inflow) : Prop := Exchange.mayHoldHead f = true → Head.scan f.buffer = .more

/-- what holds where a head comes next -/
structure Tracked (f : Inflow) : Prop where
  scanned : ∀ count, f.scanned = some count → count ≤ f.buffer.length
  short : f.blocked → f.Short

/-- what holds behind a head -/
structure Clear (f : Inflow) : Prop where
  scanned : f.scanned = none
  empty : f.blocked → f.buffer = []

theorem Clear.tracked (hf : f.Clear) : f.Tracked := by
  refine ⟨fun count hs => ?_, fun hb hm => ?_⟩
  · rw [hf.scanned] at hs
    cases hs
  · simp [Exchange.mayHoldHead, hf.scanned, hf.empty hb] at hm

/-- bytes that were looked at in vain are so again -/
theorem Tracked.short_of_more (hf : f.Tracked)
    (hmore : (if Exchange.mayHoldHead f then Head.scan f.buffer else .more) = .more) {f' : Inflow}
    (hbuffer : f'.buffer = f.buffer)
    (hscanned : f'.scanned = if f.buffer.isEmpty then none else some f.buffer.length) : f'.Short := by
  intro hm
  rw [hbuffer]
  by_cases hold : Exchange.mayHoldHead f = true
  · rwa [if_pos hold] at hmore
  · exfalso
    refine hold ?_
    cases hb : f.buffer with
    | nil => simp [Exchange.mayHoldHead, hscanned, hbuffer, hb] at hm
    | cons b rest =>
      rw [hb] at hscanned hbuffer
      simp only [Exchange.mayHoldHead, hscanned, hbuffer, List.isEmpty_cons, Bool.false_eq_true, if_false] at hm
      cases hs : f.scanned with
      | none => simp [Exchange.mayHoldHead, hs, hb]
      | some count =>
        -- the bytes that are looked at now are the last of those that were looked at then
        have hle := hf.scanned count hs
        have hdrop : (b :: rest).drop ((b :: rest).length - 3) =
            ((b :: rest).drop (count - 3)).drop ((b :: rest).length - 3 - (count - 3)) := by
          rw [List.drop_drop]
          congr 1
          rw [hb] at hle
          omega
        simp only [Exchange.mayHoldHead, hs, hb]
        exact Head.hasEmptyLine_of_drop (hdrop ▸ hm)

/-- what a read comes to -/
inductive Pulled (f : Inflow) (budget : Nat) (stalled : Bool) :
    Nat → Bool → Inflow × Poll (Except Fault Nat) → Prop where
  | pending {f' : Inflow} : f'.blocked = true → f'.buffer = f.buffer → f'.scanned = f.scanned →
      Pulled f budget stalled budget true (f', .pending)
  | failed {f' : Inflow} (fault : Fault) : f'.blocked = false → f'.buffer = f.buffer → f'.scanned = f.scanned →
      Pulled f budget stalled budget stalled (f', .ready (.error fault))
  | read {f' : Inflow} (bytes : Bytes) : bytes.length ≤ budget → f'.blocked = false → f'.buffer = f.buffer ++ bytes →
      f'.scanned = f.scanned → Pulled f budget stalled (budget - bytes.length) stalled (f', .ready (.ok bytes.length))

theorem ensures_pull (f : Inflow) : f.pull.Ensures budget stalled (f.Pulled budget stalled) := by
  intro answer ha
  match answer with
  | .pending =>
    rw [or_waits_pending]
    exact .pending rfl rfl rfl
  | .ready (.error fault) =>
    rw [or_waits_ready]
    exact .failed fault rfl rfl rfl
  | .ready (.ok bytes) =>
    rw [or_waits_ready]
    exact .read bytes ha rfl rfl rfl

end Inflow

namespace Decoder

theorem scanChunked_none {c : ChunkedBody} {bytes : Bytes} (h : (scanChunked c bytes).2.2 = none) :
    (scanChunked c bytes).2.1 = [] := by
  induction bytes generalizing c with
  | nil => rfl
  | cons b rest ih =>
    unfold scanChunked at h ⊢
    split
    · next hplace => simp [hplace] at h
    · next hplace =>
      rw [if_neg hplace] at h
      cases hstep : c.step b with
      | none => simp [hstep] at h
      | some c' =>
        simp only [hstep] at h ⊢
        split
        · next hfinished => simp [hfinished] at h
        · next hfinished =>
          rw [if_neg hfinished] at h
          exact ih h

/-- where no part is found all bytes are used -/
theorem scan_none {decoder : Decoder} {bytes : Bytes} (h : (decoder.scan bytes).2.2 = none) :
    (decoder.scan bytes).2.1 = [] := by
  cases decoder with
  | counted remaining =>
    unfold scan at h ⊢
    dsimp only at h ⊢
    split
    · rfl
    · next hb => simp [hb] at h
  | chunked body => exact scanChunked_none h

theorem scan_nil (decoder : Decoder) : (decoder.scan []).2.2 = none := by cases decoder <;> rfl

end Decoder

namespace Exchange

open Talk

variable {e e' e'' : Exchange} {budget limit patience : Nat} {stalled stalled' : Bool}

/-! ## What holds of an exchange -/

/-- what holds of an exchange at every step of a round -/
structure Sane (e : Exchange) : Prop where
  head : e.reading = .head → e.call = none ∧ e.writing = .idle ∧ e.inflow.Tracked
  behind : e.reading ≠ .head → e.reading ≠ .closed → e.inflow.Clear
  answered : e.call = none → e.reading ≠ .head → e.reading ≠ .closed → e.writing ≠ .idle
  unanswered : e.call ≠ none → e.writing = .idle
  held : ∀ {call decoder}, e.call = some call → e.reading = .body decoder → call.bodied ∧ e.inlet.isSome
  inlet : e.call = none → e.inlet = none ∨ e.inlet = some .dropped

/-- what is answered is no longer in hand -/
theorem Sane.call_of_writing (h : e.Sane) (hw : e.writing ≠ .idle) : e.call = none :=
  Classical.byContradiction fun hc => hw (h.unanswered hc)

/-- what holds of an exchange between two rounds -/
structure Between (e : Exchange) : Prop extends Sane e where
  call : e.call = none
  body : ∀ {decoder}, e.reading = .body decoder → e.inlet = some .dropped

/-- nothing else matters between rounds -/
theorem Between.of_same (h : e.Between) (hreading : e'.reading = e.reading) (hwriting : e'.writing = e.writing)
    (hcall : e'.call = e.call) (hinlet : e'.inlet = e.inlet) (hinflow : e'.inflow = e.inflow) : e'.Between := by
  cases e
  cases e'
  dsimp only at hreading hwriting hcall hinlet hinflow
  subst hreading hwriting hcall hinlet hinflow
  exact ⟨⟨h.head, h.behind, h.answered, h.unanswered, h.held, h.inlet⟩, h.call, h.body⟩

/-- one step of a round: what was to be served is so still, no body is begun, and an exchange is blocked afterwards only
if a call had to wait or if it was blocked before -/
structure Onward (e : Exchange) (stalled : Bool) (e' : Exchange) : Prop where
  sane : e'.Sane
  call : e'.call = e.call
  inlet : e'.inlet = e.inlet
  roused : e'.roused = e.roused
  body : ∀ {decoder}, e'.reading = .body decoder → ∃ decoder, e.reading = .body decoder
  blocked : e'.inflow.blocked → stalled ∨ e.inflow.blocked

theorem Onward.refl (h : e.Sane) (stalled : Bool) : e.Onward stalled e :=
  ⟨h, rfl, rfl, rfl, fun hr => ⟨_, hr⟩, .inr⟩

theorem Onward.trans (h : e.Onward stalled e') (h' : e'.Onward stalled' e'') (hs : stalled → stalled') :
    e.Onward stalled' e'' where
  sane := h'.sane
  call := h'.call.trans h.call
  inlet := h'.inlet.trans h.inlet
  roused := h'.roused.trans h.roused
  body hr := by
    obtain ⟨decoder, hr'⟩ := h'.body hr
    exact h.body hr'
  blocked hb := (h'.blocked hb).elim .inl fun hb' => (h.blocked hb').imp_left hs

/-- an exchange that reads nothing more -/
theorem sane_of_closed (hreading : e.reading = .closed) (hunanswered : e.call ≠ none → e.writing = .idle)
    (hinlet : e.call = none → e.inlet = none ∨ e.inlet = some .dropped) : e.Sane where
  head h := by simp [hreading] at h
  behind _ h := absurd hreading h
  answered _ _ h := absurd hreading h
  unanswered := hunanswered
  held _ h := by simp [hreading] at h
  inlet := hinlet

/-- with no request in hand nothing is against reading nothing more -/
theorem onward_of_closed (h : e.Sane) (hnone : e.call = none) (hreading : e'.reading = .closed)
    (hcall : e'.call = e.call) (hinlet : e'.inlet = e.inlet) (hroused : e'.roused = e.roused)
    (hblocked : e'.inflow.blocked → stalled ∨ e.inflow.blocked) : e.Onward stalled e' where
  sane := sane_of_closed hreading (fun hc => absurd (hcall.trans hnone) hc) fun _ => hinlet ▸ h.inlet hnone
  call := hcall
  inlet := hinlet
  roused := hroused
  body hr := by simp [hreading] at hr
  blocked := hblocked

theorem ensures_pull (e : Exchange) : e.pull.Ensures budget stalled fun left stalled' after =>
    ∃ f, after.1 = { e with inflow := f } ∧ e.inflow.Pulled budget stalled left stalled' (f, after.2) :=
  .bind e.inflow.ensures_pull fun _ _ _ _ (f, _) hp => ⟨f, rfl, hp⟩

/-! ## Going on -/

/-- an exchange goes on to the next head only with its answer complete, and only then is it closed -/
theorem onward_advance (h : e.Sane) (stalled : Bool) : e.Onward stalled e.advance ∧
    (e.call = none → e.advance.reading ≠ .done) ∧ (e.reading = .closed → e.advance.reading = .closed) := by
  -- a complete answer is that to a request which is no longer in hand
  have hclose : e.writing ≠ .idle → e.Onward stalled e.close ∧ (e.call = none → e.close.reading ≠ .done) ∧
      (e.reading = .closed → e.close.reading = .closed) := fun hw =>
    ⟨onward_of_closed h (h.call_of_writing hw) rfl rfl rfl rfl .inr, fun _ hr => (by cases hr), fun _ => rfl⟩
  unfold advance
  split
  · next hreading hwriting =>
    have hclear := h.behind (by simp [hreading]) (by simp [hreading])
    have hcall := h.call_of_writing (by simp [hwriting])
    split
    · refine ⟨⟨⟨fun _ => ⟨hcall, rfl, hclear.tracked⟩, fun hr => absurd rfl hr, fun _ hr => absurd rfl hr,
        fun _ => rfl, fun _ hr => ?_, h.inlet⟩, rfl, rfl, rfl, fun hr => ?_, .inr⟩, fun _ hr => ?_, fun hr => ?_⟩
      · cases hr
      · cases hr
      · cases hr
      · simp [hreading] at hr
    · exact hclose (by simp [hwriting])
  · next hreading hwriting => exact hclose (by simp [hwriting])
  · next hreading hwriting => exact hclose (by simp [hwriting])
  · next hanswered hclosed hdone =>
    refine ⟨.refl h stalled, fun hcall hreading => ?_, id⟩
    have hwriting := h.answered hcall (by simp [hreading]) (by simp [hreading])
    cases hw : e.writing with
    | idle => exact hwriting hw
    | answered => exact hanswered hreading hw
    | closed => exact hdone hreading hw

/-- between requests an exchange finds something to read, or that nothing comes any more, or it has to wait for that -/
theorem ensures_lookAhead (h : e.Sane) : e.lookAhead.Ensures budget stalled fun _ stalled' e' =>
    e.Onward stalled' e' ∧ (e.reading ≠ .head → e'.reading = e.reading) ∧
      (e.reading = .head → stalled' ∨ e'.again ∨ e'.reading = .closed ∨ e.inflow.blocked) := by
  unfold lookAhead
  split
  · next hskip =>
    refine ⟨.refl h stalled, fun _ => rfl, fun hhead => .inr (.inr (.inr ?_))⟩
    simpa [hhead] using hskip
  · next hhere =>
    obtain ⟨hhead, -⟩ : e.reading = .head ∧ e.inflow.blocked = false := by simpa using hhere
    obtain ⟨hcall, hwriting, htracked⟩ := h.head hhead
    -- whatever a read does to the bytes, the exchange waits for a head still
    have hsame : ∀ (f : Inflow) (again : Bool) (stalled' : Bool), f.Tracked → (f.blocked → stalled' ∨ e.inflow.blocked) →
        e.Onward stalled' { e with inflow := f, again } := fun f again stalled' hf hb =>
      ⟨⟨fun _ => ⟨hcall, hwriting, hf⟩, fun hr => absurd hhead hr, fun _ hr => absurd hhead hr, fun _ => hwriting,
        fun hc => by simp [hcall] at hc, h.inlet⟩, rfl, rfl, rfl, fun hr => ⟨_, hr⟩, hb⟩
    split
    · exact ⟨hsame e.inflow true stalled htracked .inr, fun hr => absurd hhead hr, fun _ => .inr (.inl rfl)⟩
    · next hbuffer =>
      have hempty : e.inflow.buffer = [] := by simpa using hbuffer
      have hnothing : ∀ f : Inflow, f.buffer = e.inflow.buffer → f.scanned = e.inflow.scanned → f.Tracked :=
        fun f hb hs => by
          refine ⟨fun count hc => ?_, fun _ hm => ?_⟩
          · rw [hb]
            exact htracked.scanned count (hs ▸ hc)
          · exfalso
            rw [mayHoldHead, hb, hempty] at hm
            cases hsc : f.scanned <;> simp [hsc, Head.hasEmptyLine] at hm
      refine (ensures_pull e).bind fun left hl stalled' hs after => ?_
      obtain ⟨e', result⟩ := after
      rintro ⟨f, rfl, hp⟩
      cases hp with
      | pending hb hbuf hsc =>
        exact ⟨hsame f e.again true (hnothing f hbuf hsc) fun _ => .inl rfl, fun hr => absurd hhead hr,
          fun _ => .inl rfl⟩
      | failed fault hb hbuf hsc =>
        refine ⟨onward_of_closed h hcall rfl rfl rfl rfl fun hb' => ?_, fun hr => absurd hhead hr,
          fun _ => .inr (.inl rfl)⟩
        exact absurd hb' (ne_true_of_eq_false hb)
      | read bytes hle hb hbuf hsc =>
        cases bytes with
        | nil =>
          refine ⟨onward_of_closed h hcall rfl rfl rfl rfl fun hb' => ?_, fun hr => absurd hhead hr,
            fun _ => .inr (.inr (.inl rfl))⟩
          exact absurd hb' (ne_true_of_eq_false hb)
        | cons b rest =>
          refine ⟨hsame f true stalled ⟨fun count hc => ?_, fun hb' => ?_⟩ fun hb' => ?_, fun hr => absurd hhead hr,
            fun _ => .inr (.inl rfl)⟩
          · have hcount := htracked.scanned count (hsc ▸ hc)
            rw [hbuf, List.length_append]
            omega
          · exact absurd hb' (ne_true_of_eq_false hb)
          · exact absurd hb' (ne_true_of_eq_false hb)

/-- an exchange that goes on and has no request in hand has to wait, has something to read, reads nothing more, reads a
body still, or was blocked -/
theorem ensures_goOn (h : e.Sane) : e.goOn.Ensures budget stalled fun _ stalled' e' =>
    e.Onward stalled' e' ∧ (e.call = none → stalled' ∨ e'.again ∨ e'.reading = .closed ∨
      (∃ decoder, e'.reading = .body decoder) ∨ e.inflow.blocked) ∧
      (e.reading = .closed → e'.reading = .closed) := by
  obtain ⟨honward, hdone, hclosed⟩ := onward_advance h stalled
  refine (ensures_lookAhead honward.sane).mono fun left hl stalled' hs e' ⟨hlook, hsame, hhead⟩ => ?_
  refine ⟨honward.trans hlook hs, fun hcall => ?_, fun hr => ?_⟩
  · by_cases hr : e.advance.reading = .head
    · rcases hhead hr with hstalled | hagain | hclosed | hblocked
      · exact .inl hstalled
      · exact .inr (.inl hagain)
      · exact .inr (.inr (.inl hclosed))
      · exact (honward.blocked hblocked).elim (fun hstalled => .inl (hs hstalled)) fun hb =>
          .inr (.inr (.inr (.inr hb)))
    · rw [hsame hr]
      cases hreading : e.advance.reading with
      | head => exact absurd hreading hr
      | body decoder => exact .inr (.inr (.inr (.inl ⟨decoder, rfl⟩)))
      | done => exact absurd hreading (hdone hcall)
      | closed => exact .inr (.inr (.inl rfl))
  · have hr' := hclosed hr
    rw [hsame (by simp [hr']), hr']

/-! ## Reading -/

/-- reading a head ends for want of bytes only if a read had to wait, and a head is found only by an exchange that is not
blocked -/
theorem ensures_readHead (e : Exchange) (hlimit : 0 < limit) (hroom : Pace.greatest < e.inflow.buffer.length + limit)
    (hf : e.inflow.Tracked) : (readHead limit e).Ensures budget stalled fun _ stalled' after =>
      ∃ f, after.1 = { e with inflow := f } ∧ match after.2 with
        | .waiting => stalled' ∧ f.Tracked
        | .head _ => f.scanned = none ∧ f.blocked = false
        | .failed _ => True := by
  induction limit generalizing e budget stalled with
  | zero => exact absurd hlimit (Nat.lt_irrefl 0)
  | succ limit ih =>
    unfold readHead
    dsimp only
    split
    · next head rest hscan =>
      refine ⟨_, rfl, rfl, ?_⟩
      cases hblocked : e.inflow.blocked with
      | false => exact hblocked
      | true =>
        exfalso
        split at hscan
        · next hm =>
          rw [hf.short hblocked hm] at hscan
          cases hscan
        · cases hscan
    · exact ⟨_, rfl, trivial⟩
    · next hmore =>
      split
      · exact ⟨e.inflow, rfl, trivial⟩
      · next hlength =>
        refine (ensures_pull _).bind fun left hl stalled' hs after => ?_
        obtain ⟨e', result⟩ := after
        rintro ⟨f, rfl, hp⟩
        have hscanned : ∀ {f' : Inflow}, f'.scanned = (if e.inflow.buffer.isEmpty then none else
            some e.inflow.buffer.length) → ∀ count, f'.scanned = some count → count = e.inflow.buffer.length := by
          intro f' hs' count hc
          rw [hs'] at hc
          split at hc
          · cases hc
          · exact (Option.some.inj hc).symm
        cases hp with
        | pending hb hbuf hsc =>
          refine ⟨f, rfl, rfl, fun count hc => ?_, fun _ => hf.short_of_more hmore hbuf hsc⟩
          exact Nat.le_of_eq ((hscanned hsc count hc).trans (congrArg List.length hbuf.symm))
        | failed fault hb hbuf hsc => exact ⟨f, rfl, trivial⟩
        | read bytes hle hb hbuf hsc =>
          cases bytes with
          | nil => exact ⟨f, rfl, trivial⟩
          | cons b rest =>
            have hmany : f.buffer.length = e.inflow.buffer.length + (rest.length + 1) := by
              rw [hbuf, List.length_append, List.length_cons]
            refine ih { e with inflow := f } (by omega) (by dsimp only; omega) ⟨fun count hc => ?_, fun hb' => ?_⟩
            · rw [hscanned hsc count hc, hmany]
              omega
            · exact absurd hb' (ne_true_of_eq_false hb)

/-- a part of a body is wanting only if a read had to wait; every read but that one brings a byte, so there are more of
them than bytes only if one has to wait -/
theorem ensures_takePart (e : Exchange) (decoder : Decoder) (hlimit : budget < limit)
    (hempty : e.inflow.blocked → e.inflow.buffer = []) :
    (takePart limit e decoder).Ensures budget stalled fun _ stalled' after =>
      ∃ f decoder, after.1 = { e with inflow := f, reading := .body decoder } ∧ f.scanned = e.inflow.scanned ∧
        match after.2 with
        | none => stalled' ∧ f.buffer = []
        | some _ => f.blocked = false := by
  induction limit generalizing e decoder budget stalled with
  | zero => omega
  | succ limit ih =>
    unfold takePart
    dsimp only
    cases hpart : (decoder.scan e.inflow.buffer).2.2 with
    | some part =>
      refine ⟨_, _, rfl, rfl, ?_⟩
      cases hblocked : e.inflow.blocked with
      | false => exact hblocked
      | true =>
        rw [hempty hblocked, Decoder.scan_nil] at hpart
        cases hpart
    | none =>
      have hused := Decoder.scan_none hpart
      refine (ensures_pull _).bind fun left hl stalled' hs after => ?_
      obtain ⟨e', result⟩ := after
      rintro ⟨f, rfl, hp⟩
      cases hp with
      | pending hb hbuf hsc => exact ⟨f, _, rfl, hsc, rfl, hbuf.trans hused⟩
      | failed fault hb hbuf hsc => exact ⟨f, _, rfl, hsc, hb⟩
      | read bytes hle hb hbuf hsc =>
        cases bytes with
        | nil => exact ⟨f, _, rfl, hsc, hb⟩
        | cons b rest =>
          rw [List.length_cons] at hle
          have hempty' : f.blocked → f.buffer = [] := fun hb' => absurd hb' (ne_true_of_eq_false hb)
          have hleft : budget - (rest.length + 1) < limit := by omega
          refine (ih { e with inflow := f, reading := .body (decoder.scan e.inflow.buffer).1 } _ hleft hempty').mono
            fun left hl stalled' hs after => ?_
          rintro ⟨f', decoder', hafter, hsc', hcases⟩
          exact ⟨f', decoder', hafter, hsc'.trans hsc, hcases⟩

/-- what reading on in a body comes to: the exchange is blocked only if a read had to wait, and behind the end of the
body it reads on elsewhere -/
structure BodyRead (e : Exchange) (stalled : Bool) (after : Exchange × Option BodyPart) : Prop where
  onward : e.Onward stalled after.1
  stalls : after.1.inflow.blocked → stalled
  ends : after.2 = some .finished ∨ after.2 = some .broken → ∀ decoder, after.1.reading ≠ .body decoder

theorem ensures_readBody (h : e.Sane) {decoder : Decoder} (hbody : e.reading = .body decoder)
    (hbudget : budget ≤ patience) :
    (e.readBody patience).Ensures budget stalled fun _ stalled' => e.BodyRead stalled' := by
  have hclear := h.behind (by simp [hbody]) (by simp [hbody])
  unfold readBody
  rw [hbody]
  dsimp only
  refine (ensures_takePart e decoder (by omega) hclear.empty).bind fun left hl stalled' hs after => ?_
  obtain ⟨e', part⟩ := after
  rintro ⟨f, decoder', rfl, hscanned, hcases⟩
  have hscanned : f.scanned = none := hscanned.trans hclear.scanned
  -- whatever is left of the body, the request in hand and the answer are as they were
  have hsane : ∀ (g : Inflow) (reading : Reading), reading ≠ .head → g.Clear →
      Sane { e with inflow := g, reading } := fun g reading hr hg =>
    ⟨fun hr' => absurd hr' hr, fun _ _ => hg, fun hc _ _ => h.answered hc (by simp [hbody]) (by simp [hbody]),
      h.unanswered, fun hc _ => h.held hc hbody, h.inlet⟩
  have hstay : ∀ part, f.buffer = [] ∨ f.blocked = false → (f.blocked → stalled') → part = none ∨ part = some .data →
      e.BodyRead stalled' ({ e with inflow := f, reading := .body decoder' }, part) := by
    intro part hf hst hpart
    refine ⟨⟨hsane f _ (by simp) ⟨hscanned, fun hb => ?_⟩, rfl, rfl, rfl, fun _ => ⟨decoder, hbody⟩,
      fun hb => .inl (hst hb)⟩, hst, fun hends => ?_⟩
    · exact hf.resolve_right (by simp [hb])
    · rcases hpart with rfl | rfl <;> simp at hends
  -- behind the end of the body the exchange goes on
  have hgo : ∀ (g : Inflow) (reading : Reading) (part : BodyPart), g.blocked = false → g.scanned = none →
      reading = .done ∨ reading = .closed →
      (goOn { e with inflow := g, reading } >>= fun e => pure (e, some part)).Ensures left stalled'
        fun _ stalled' => e.BodyRead stalled' := by
    intro g reading part hb hgs hreading
    have hunblocked : ¬ g.blocked = true := by simp [hb]
    have hstart : Onward e stalled' { e with inflow := g, reading } := by
      refine ⟨hsane g reading ?_ ⟨hgs, fun hb' => absurd hb' hunblocked⟩, rfl, rfl, rfl, fun hr => ?_,
        fun hb' => absurd hb' hunblocked⟩
      · rcases hreading with rfl | rfl <;> simp
      · rcases hreading with rfl | rfl <;> cases hr
    refine (ensures_goOn hstart.sane).bind fun left' hl' stalled'' hs' e'' ⟨honward, _, _⟩ => ?_
    refine ⟨hstart.trans honward hs', fun hb' => ?_, fun _ decoder hr => ?_⟩
    · exact (honward.blocked hb').resolve_right hunblocked
    · obtain ⟨decoder', hr'⟩ := honward.body hr
      rcases hreading with rfl | rfl <;> cases hr'
  match part with
  | none =>
    obtain ⟨hst, hbuffer⟩ := hcases
    exact hstay none (.inl hbuffer) (fun _ => hst) (.inl rfl)
  | some .data => exact hstay (some .data) (.inr hcases) (fun hb => by simp [hb] at hcases) (.inr rfl)
  | some .finished => exact hgo _ .done .finished hcases hscanned (.inl rfl)
  | some .broken => exact hgo _ .closed .broken hcases hscanned (.inr rfl)

/-! ## A round -/

/-- a body that nobody wants is read to its end, or nothing more is read; then there is no body -/
theorem ensures_settleInlet (h : e.Between) (hbudget : budget ≤ patience) :
    (e.settleInlet patience).Ensures budget stalled fun _ _ e' =>
      e'.Sane ∧ e'.call = none ∧ e'.inlet = none ∧ ∀ decoder, e'.reading ≠ .body decoder := by
  have hnone : Sane { e with inlet := none } :=
    ⟨h.head, h.behind, h.answered, h.unanswered, fun hc => absurd (h.call.symm.trans hc) (by simp), fun _ => .inl rfl⟩
  unfold settleInlet
  split
  · next decoder hinlet hbody =>
    unfold skipBody
    refine (ensures_readBody hnone hbody hbudget).bind fun left hl stalled' hs after hread => ?_
    obtain ⟨e', part⟩ := after
    have hcall : e'.call = none := hread.onward.call.trans h.call
    have hinlet' : e'.inlet = none := hread.onward.inlet
    have hsane : e'.Sane := hread.onward.sane
    have hclosed : Sane ({ e' with inflow := e'.inflow.share false }).closeReading :=
      sane_of_closed rfl (absurd hcall) fun _ => .inl hinlet'
    have hshared : Sane { e' with inflow := e'.inflow.share false } :=
      ⟨fun hr => ⟨hcall, (hsane.head hr).2.1, ⟨(hsane.head hr).2.2.scanned, (hsane.head hr).2.2.short⟩⟩,
        fun hr hr' => ⟨(hsane.behind hr hr').scanned, (hsane.behind hr hr').empty⟩, hsane.answered, hsane.unanswered,
        hsane.held, hsane.inlet⟩
    dsimp only
    split
    · next hreading => exact ⟨hshared, hcall, hinlet', fun _ hr => by simp [hreading] at hr⟩
    · next hreading => exact ⟨hshared, hcall, hinlet', fun _ hr => by simp [hreading] at hr⟩
    · exact ⟨hclosed, hcall, hinlet', fun _ hr => by cases hr⟩
    · exact ⟨hclosed, hcall, hinlet', fun _ hr => by cases hr⟩
  · next hinlet hbody => exact ⟨hnone, h.call, rfl, fun decoder hr => hbody decoder hr⟩
  · next hready hdropped =>
    have hinlet : e.inlet = none := (h.inlet h.call).resolve_right fun hi => by
      cases hr : e.reading <;> simp_all
    refine ⟨h.toSane, h.call, hinlet, fun decoder hr => ?_⟩
    have := h.body hr
    rw [hinlet] at this
    cases this

/-- what holds once it was time for a head: without a request in hand there is no body, and an exchange is blocked only
if a read had to wait, if it reads nothing more, or if it is behind a request that was served -/
structure Headed (e : Exchange) (stalled : Bool) : Prop where
  sane : e.Sane
  unserved : e.call = none → e.inlet = none ∧ ∀ decoder, e.reading ≠ .body decoder
  blocked : e.inflow.blocked → stalled ∨ e.reading = .closed ∨ e.call = none ∧ e.reading = .done

theorem headed_begin (h : e.Sane) (hreading : e.reading = .head) (head : Head) {f : Inflow} (hscanned : f.scanned = none)
    (hblocked : f.blocked = false) (stalled : Bool) : Headed ({ e with inflow := f }.begin head) stalled := by
  obtain ⟨hcall, hwriting, -⟩ := h.head hreading
  have hunblocked : ¬ f.blocked = true := by simp [hblocked]
  unfold begin
  dsimp only
  refine ⟨⟨fun hr => ?_, fun _ _ => ⟨hscanned, fun hb => absurd hb hunblocked⟩, fun hc => ?_, fun _ => hwriting,
    fun hc hr => ?_, fun hc => ?_⟩, fun hc => ?_, fun hb => absurd hb hunblocked⟩
  · cases hd : Decoder.ofLength head.framing.body <;> simp [hd] at hr
  · cases hc
  · cases hc
    cases hd : Decoder.ofLength head.framing.body <;> simp [hd] at hr ⊢
  · cases hc
  · cases hc

theorem headed_of_closed (hreading : e.reading = .closed) (hcall : e.call = none) (hinlet : e.inlet = none)
    (stalled : Bool) : e.Headed stalled :=
  ⟨sane_of_closed hreading (absurd hcall) fun _ => .inl hinlet, fun _ => ⟨hinlet, fun _ hr => by simp [hreading] at hr⟩,
    fun _ => .inr (.inl hreading)⟩

/-- bytes that are no head are answered, or not; nothing more is read -/
theorem refuseHead_spec (o : Options) (e : Exchange) (failure : Failure)
    (hok : (e.refuseHead o failure).2 = .ok ()) : (e.refuseHead o failure).1.reading = .closed ∧
      (e.refuseHead o failure).1.call = e.call ∧ (e.refuseHead o failure).1.inlet = e.inlet := by
  unfold refuseHead at hok ⊢
  dsimp only at hok ⊢
  split
  · split
    · next hp => simp [hp] at hok
    · split
      · exact ⟨rfl, rfl, rfl⟩
      · next hp _ hs => simp [hp, hs] at hok
  · split
    · exact ⟨rfl, rfl, rfl⟩
    · split
      · next hb hp => simp [hb, hp] at hok
      · next hb hp => simp [hb, hp] at hok

theorem ensures_nextHead (o : Options) (h : e.Sane) (hcall : e.call = none) (hinlet : e.inlet = none)
    (hbody : ∀ decoder, e.reading ≠ .body decoder) :
    (e.nextHead o).Ensures budget stalled fun _ stalled' after => after.2 = .ok () → after.1.Headed stalled' := by
  unfold nextHead
  split
  · next hreading =>
    refine fun _ => ⟨h, fun _ => ⟨hinlet, hbody⟩, fun _ => ?_⟩
    cases hr : e.reading with
    | head => exact absurd hr hreading
    | body decoder => exact absurd hr (hbody decoder)
    | done => exact .inr (.inr ⟨hcall, rfl⟩)
    | closed => exact .inr (.inl rfl)
  · next hreading =>
    have hhead : e.reading = .head := Decidable.not_not.1 hreading
    obtain ⟨-, hwriting, htracked⟩ := h.head hhead
    refine (ensures_readHead e (Nat.succ_pos _) (by omega) htracked).bind fun left hl stalled' hs after => ?_
    obtain ⟨e', result⟩ := after
    rintro ⟨f, rfl, hcases⟩
    cases result with
    | waiting =>
      obtain ⟨hst, hf⟩ := hcases
      refine fun _ => ⟨⟨fun _ => ⟨hcall, hwriting, hf⟩, fun hr => absurd hhead hr, fun _ hr => absurd hhead hr,
        fun _ => hwriting, fun hc => ?_, h.inlet⟩, fun _ => ⟨hinlet, hbody⟩, fun _ => .inl hst⟩
      exact absurd (hcall.symm.trans hc) (by simp)
    | head head => exact fun _ => headed_begin h hhead head hcases.1 hcases.2 stalled'
    | failed failure =>
      intro hok
      obtain ⟨hclosed, hcall', hinlet'⟩ := refuseHead_spec o { e with inflow := f } failure hok
      exact headed_of_closed hclosed (hcall'.trans hcall) (hinlet'.trans hinlet) stalled'

/-- the first part of a body is read before its request is served -/
theorem ensures_fillInlet (h : e.Headed stalled) (hbudget : budget ≤ patience) :
    (e.fillInlet patience).Ensures budget stalled fun _ stalled' e' => e'.Headed stalled' := by
  unfold fillInlet
  split
  · next decoder hinlet hbody =>
    have hcall : e.call ≠ none := fun hc => by
      have hnone := (h.unserved hc).1
      rw [hinlet] at hnone
      cases hnone
    refine (ensures_readBody h.sane hbody hbudget).bind fun left hl stalled' hs after hread => ?_
    obtain ⟨e', part⟩ := after
    have hsane := hread.onward.sane
    have hcall' : e'.call ≠ none := fun hc => hcall (hread.onward.call.symm.trans hc)
    have hset : ∀ inlet : Option Inlet, (∀ decoder, e'.reading = .body decoder → inlet.isSome) →
        Headed { e' with inlet } stalled' := fun inlet hi =>
      ⟨⟨hsane.head, hsane.behind, hsane.answered, hsane.unanswered, fun hc hr => ⟨(hsane.held hc hr).1, hi _ hr⟩,
        fun hc => absurd hc hcall'⟩, fun hc => absurd hc hcall', fun hb => .inl (hread.stalls hb)⟩
    match part with
    | none =>
      refine hset e'.inlet fun decoder _ => ?_
      rw [hread.onward.inlet, hinlet]
      rfl
    | some .data => exact hset (some .waiting) fun _ _ => rfl
    | some .finished => exact hset none fun decoder hr => absurd hr (hread.ends (.inl rfl) decoder)
    | some .broken => exact hset none fun decoder hr => absurd hr (hread.ends (.inr rfl) decoder)
  · exact h

/-- an exchange that is behind a served request and was blocked reads, as there is nothing else to read -/
theorem ensures_lookForEnd (h : e.Headed stalled) : e.lookForEnd.Ensures budget stalled fun _ stalled' after =>
    after.2 = .ok () →
      after.1.Headed stalled' ∧ (after.1.inflow.blocked → stalled' ∨ after.1.reading = .closed) := by
  unfold lookForEnd
  split
  · next hskip =>
    refine fun _ => ⟨h, fun hb => ?_⟩
    rcases h.blocked hb with hst | hclosed | ⟨hcall, hdone⟩
    · exact .inl hst
    · exact .inr hclosed
    · have hinlet := (h.unserved hcall).1
      have hempty := (h.sane.behind (by simp [hdone]) (by simp [hdone])).empty hb
      simp [hinlet, hdone, hempty] at hskip
  · next hhere =>
    obtain ⟨⟨hinlet, hdone⟩, hempty⟩ : (e.inlet = none ∧ e.reading = .done) ∧ e.inflow.buffer = [] := by
      simpa using hhere
    have hclear := h.sane.behind (by simp [hdone]) (by simp [hdone])
    have hset : ∀ (f : Inflow) (stalled' : Bool), f.scanned = e.inflow.scanned → (f.blocked → f.buffer = [] ∧ stalled') →
        Headed { e with inflow := f } stalled' ∧ (f.blocked → stalled' ∨ e.reading = .closed) := by
      intro f stalled' hs hb
      refine ⟨⟨⟨fun hr => ?_, fun _ _ => ⟨hs.trans hclear.scanned, fun hb' => (hb hb').1⟩, h.sane.answered,
        h.sane.unanswered, h.sane.held, h.sane.inlet⟩, h.unserved, fun hb' => .inl (hb hb').2⟩,
        fun hb' => .inl (hb hb').2⟩
      simp [hdone] at hr
    refine (ensures_pull e).bind fun left hl stalled' hs after => ?_
    obtain ⟨e', result⟩ := after
    rintro ⟨f, rfl, hp⟩
    cases hp with
    | pending hb hbuf hsc => exact fun _ => hset f true hsc fun _ => ⟨hbuf.trans hempty, rfl⟩
    | failed fault hb hbuf hsc => exact fun hok => by cases hok
    | read bytes hle hb hbuf hsc =>
      cases bytes with
      | nil => exact fun hok => by cases hok
      | cons b rest => exact fun _ => hset f stalled hsc fun hb' => absurd hb' (ne_true_of_eq_false hb)

/-- after the reads of a round an exchange is blocked only if one of them had to wait, or if it reads nothing more -/
theorem ensures_readPhase (o : Options) (h : e.Between) (hbudget : budget ≤ patience) :
    (e.readPhase o patience).Ensures budget stalled fun _ stalled' after => after.2 = .ok () →
      after.1.Headed stalled' ∧ (after.1.inflow.blocked → stalled' ∨ after.1.reading = .closed) := by
  unfold readPhase
  refine (ensures_settleInlet h hbudget).bind fun left hl _ _ e' ⟨hsane, hcall, hinlet, hbody⟩ => ?_
  refine (ensures_nextHead o hsane hcall hinlet hbody).bind fun left' hl' _ _ after hheaded => ?_
  obtain ⟨e', result⟩ := after
  cases result with
  | error failure => exact fun hok => by cases hok
  | ok =>
    have hfill := ensures_fillInlet (hheaded rfl) (Nat.le_trans (Nat.le_trans hl' hl) hbudget)
    exact hfill.bind fun left'' hl'' _ _ e'' hheaded' => ensures_lookForEnd hheaded'

/-- a request in hand is served; if its body was not read to the end the exchange is resumed for that -/
theorem ensures_writePhase (o : Options) (h : e.Headed stalled)
    (hb : e.inflow.blocked → stalled ∨ e.reading = .closed) :
    (e.writePhase o).Ensures budget stalled fun _ stalled' e' =>
      e'.Between ∧ (e'.inflow.blocked → stalled' ∨ e'.reading = .closed) ∧
        ∀ decoder, e'.reading = .body decoder → e'.roused := by
  unfold writePhase
  split
  · next hcall =>
    obtain ⟨hinlet, hbody⟩ := h.unserved hcall
    exact ⟨⟨h.sane, hcall, fun hr => absurd hr (hbody _)⟩, hb, fun decoder hr => absurd hr (hbody decoder)⟩
  · next call hcall =>
    refine .reports _ ?_
    have hserved : e.reading ≠ .head := fun hr => by
      rw [(h.sane.head hr).1] at hcall
      cases hcall
    refine ⟨⟨⟨fun hr => absurd hr hserved, fun hr hr' => ?_, fun _ _ _ => ?_, fun hc => absurd rfl hc,
      fun hc => ?_, fun _ => ?_⟩, rfl, fun hr => ?_⟩, hb, fun decoder hr => ?_⟩
    · have hclear := h.sane.behind hr hr'
      exact ⟨hclear.scanned, hclear.empty⟩
    · dsimp only [answer]
      split <;> simp
    · cases hc
    · cases e.inlet <;> simp
    · obtain ⟨inlet, hinlet⟩ := Option.isSome_iff_exists.1 (h.sane.held hcall hr).2
      simp [hinlet]
    · have hbodied := (h.sane.held hcall hr).1
      simp [hbodied]

/-- what is to be written is written, unless a write had to wait -/
theorem ensures_writeOut (e : Exchange) (hlimit : e.outbox.length < limit) :
    (writeOut limit e).Ensures budget stalled fun _ stalled' after =>
      (∃ outbox, after.1 = { e with outbox }) ∧ (after.2 = .ok false → stalled') := by
  induction limit generalizing e budget stalled with
  | zero => omega
  | succ limit ih =>
    unfold writeOut
    split
    · exact ⟨⟨e.outbox, rfl⟩, fun hr => by cases hr⟩
    · next hmore =>
      have hpositive : 0 < e.outbox.length := by simpa [List.length_pos_iff] using hmore
      intro answer
      match answer with
      | .pending => exact ⟨⟨e.outbox, rfl⟩, fun _ => Bool.or_true _⟩
      | .ready (.error fault) => exact ⟨⟨e.outbox, rfl⟩, fun hr => by cases hr⟩
      | .ready (.ok 0) => exact ⟨⟨e.outbox, rfl⟩, fun hr => by cases hr⟩
      | .ready (.ok (count + 1)) =>
        rw [or_waits_ready]
        exact ih { e with outbox := e.outbox.drop (count + 1) } (by simp only [List.length_drop]; omega)

/-- why an exchange may stop after a round: a call had to wait, it goes on at once, or it reads nothing more -/
def MayStop (e : Exchange) (stalled : Bool) : Prop := stalled ∨ e.again ∨ e.roused ∨ e.reading = .closed

theorem ensures_flush (h : e.Between) (hb : e.inflow.blocked → stalled ∨ e.reading = .closed)
    (hroused : ∀ decoder, e.reading = .body decoder → e.roused) :
    e.flush.Ensures budget stalled fun _ stalled' after => after.2 = .ok () →
      after.1.Between ∧ after.1.MayStop stalled' := by
  unfold flush
  refine (ensures_writeOut e (Nat.lt_succ_self _)).bind fun left hl stalled' hs after => ?_
  obtain ⟨e', result⟩ := after
  rintro ⟨⟨outbox, rfl⟩, hwaits⟩
  have hbetween : Between { e with outbox } := h.of_same rfl rfl rfl rfl rfl
  match result with
  | .error failure => exact fun hok => by cases hok
  | .ok false => exact fun _ => ⟨hbetween, .inl (hwaits rfl)⟩
  | .ok true =>
    refine (ensures_goOn hbetween.toSane).bind fun left' hl' stalled'' hs' e'' => ?_
    rintro ⟨honward, hcases, hclosed⟩ -
    refine ⟨⟨honward.sane, honward.call.trans h.call, fun hr => ?_⟩, ?_⟩
    · obtain ⟨decoder', hr'⟩ := honward.body hr
      exact honward.inlet.trans (h.body hr')
    · rcases hcases h.call with hst | hagain | hreading | ⟨decoder, hreading⟩ | hblocked
      · exact .inl hst
      · exact .inr (.inl hagain)
      · exact .inr (.inr (.inr hreading))
      · obtain ⟨decoder', hr'⟩ := honward.body hreading
        have hroused' : e''.roused = e.roused := honward.roused
        exact .inr (.inr (.inl (hroused'.trans (hroused decoder' hr'))))
      · exact (hb hblocked).elim (fun hst => .inl (hs' (hs hst))) fun hr => .inr (.inr (.inr (hclosed hr)))

/-- **A round stops for a reason**, and keeps what holds between rounds -/
theorem ensures_round (o : Options) (h : e.Between) (hbudget : budget ≤ patience) :
    (e.round o patience).Ensures budget stalled fun _ stalled' after => after.2 = .ok () →
      after.1.Between ∧ after.1.MayStop stalled' := by
  unfold round
  refine (ensures_readPhase o h hbudget).bind fun left hl stalled' hs after hread => ?_
  obtain ⟨e', result⟩ := after
  cases result with
  | error failure => exact fun hok => by cases hok
  | ok =>
    obtain ⟨hheaded, hb⟩ := hread rfl
    exact (ensures_writePhase o hheaded hb).bind fun left' hl' stalled'' hs' e'' ⟨hbetween, hb', hroused⟩ =>
      ensures_flush hbetween hb' hroused

/-! ## A poll -/

/-- rounds come to an end for a reason, or because there were enough of them -/
theorem ensures_rounds (o : Options) (limit : Nat) (h : e.Between) (hbudget : budget ≤ patience) :
    (rounds o patience limit e).Ensures budget stalled fun _ stalled' after =>
      (∀ found, after.2 = .ok found → after.1.Between) ∧
        (after.2 = .ok true → stalled' ∨ after.1.roused ∨ after.1.reading = .closed) := by
  induction limit generalizing e budget stalled with
  | zero => exact ⟨fun _ _ => h, fun hr => by cases hr⟩
  | succ limit ih =>
    unfold rounds
    refine (ensures_round o h hbudget).bind fun left hl stalled' hs after hround => ?_
    obtain ⟨e', result⟩ := after
    cases result with
    | error failure => exact ⟨fun _ hr => (by cases hr), fun hr => by cases hr⟩
    | ok =>
      obtain ⟨hbetween, hstop⟩ := hround rfl
      dsimp only at hbetween hstop ⊢
      split
      · have hagain : Between { e' with again := false } := hbetween.of_same rfl rfl rfl rfl rfl
        exact ih hagain (Nat.le_trans hl hbudget)
      · next hdone =>
        refine ⟨fun _ _ => hbetween, fun _ => ?_⟩
        rcases hstop with hst | hagain | hroused | hclosed
        · exact .inl hst
        · exact absurd hagain hdone
        · exact .inr (.inl hroused)
        · exact .inr (.inr hclosed)

/-- an exchange that reads nothing more waits only to write -/
theorem ensures_finish (h : e.Between) : e.finish.Ensures budget stalled fun _ stalled' after =>
    after.2 = .waiting → after.1.Between ∧ stalled' := by
  have houtcome : e.outcome ≠ .waiting := by
    unfold outcome
    cases e.failure <;> simp
  unfold finish
  split
  · exact fun hr => absurd hr houtcome
  · refine (ensures_writeOut e (Nat.lt_succ_self _)).bind fun left hl stalled' hs after => ?_
    obtain ⟨e', result⟩ := after
    rintro ⟨⟨outbox, rfl⟩, hwaits⟩
    match result with
    | .error failure => exact fun hr => by cases hr
    | .ok false => exact fun _ => ⟨h.of_same rfl rfl rfl rfl rfl, hwaits rfl⟩
    | .ok true =>
      intro answer
      match answer with
      | .error fault => exact fun hr => by cases hr
      | .ok () => exact fun hr => absurd hr houtcome

theorem between_new : Between {} where
  head _ := ⟨rfl, rfl, fun _ hc => (by cases hc), fun hb => by cases hb⟩
  behind hr := absurd rfl hr
  answered _ hr := absurd rfl hr
  unanswered hc := absurd rfl hc
  held hc := by cases hc
  inlet _ := .inl rfl
  call := rfl
  body hr := by cases hr

/-- **A poll waits for a reason**: a call had to wait, or the exchange is to be resumed without its peer -/
theorem ensures_poll (o : Options) (h : e.Between) (hbudget : budget ≤ patience) :
    (e.poll o patience).Ensures budget stalled fun _ stalled' after => after.2 = .waiting →
      after.1.Between ∧ (stalled' ∨ after.1.roused) := by
  unfold poll
  have hstart : Between { e with roused := false } := h.of_same rfl rfl rfl rfl rfl
  refine (ensures_rounds o maxRounds hstart hbudget).bind fun left hl stalled' hs after => ?_
  obtain ⟨e', result⟩ := after
  rintro ⟨hbetween, hstop⟩
  match result with
  | .error failure => exact fun hr => by cases hr
  | .ok false => exact fun _ => ⟨(hbetween false rfl).of_same rfl rfl rfl rfl rfl, .inr rfl⟩
  | .ok true =>
    dsimp only
    split
    · refine (ensures_finish (hbetween true rfl)).mono fun _ _ _ _ after hfinish hr => ?_
      obtain ⟨hb, hst⟩ := hfinish hr
      exact ⟨hb, .inl hst⟩
    · next hreading =>
      refine fun _ => ⟨hbetween true rfl, ?_⟩
      rcases hstop rfl with hst | hroused | hclosed
      · exact .inl hst
      · exact .inr hroused
      · exact absurd hclosed hreading

end Exchange

/-- **HTTP is attentive**: an exchange waits only for a call that had to wait, or to be resumed without its peer -/
theorem attentive_protocol (o : Options) : (protocol o).Attentive Exchange.Between where
  start := Exchange.between_new
  waits n h := (Exchange.ensures_poll o h (Nat.le_refl n)).bind fun _ _ _ _ _ hpoll hended => hpoll hended

end EventServer.Http
