/-
What an exchange depends on: the answers of its transport, and nothing else.

A poll is told how many bytes can come until its end, at most (`Protocol.poll`). Two talks are the `Same` within a
budget if they say the same for as long as no more bytes come than the budget; over transports that answer alike they
come to the same (`Same.run`). A protocol is `Local` if what it is told makes no difference as long as it is true, and
HTTP is local (`local_protocol`).
-/
import EventServer.Http.Exchange

namespace EventServer.Http

variable {α β σ τ X : Type}

/-- how many bytes an answer brings -/
def brought : Poll (Except Fault Bytes) → Nat
  | .ready (.ok bytes) => bytes.length
  | .ready (.error _) | .pending => 0

namespace Talk

/-- two talks say the same as long as no more bytes than so many come -/
inductive Same : Nat → Talk α → Talk α → Prop where
  | done {budget : Nat} (value : α) : Same budget (.done value) (.done value)
  | recv {budget : Nat} (count : Nat) {next next' : Poll (Except Fault Bytes) → Talk α} :
      (∀ answer, brought answer ≤ budget → Same (budget - brought answer) (next answer) (next' answer)) →
        Same budget (.recv count next) (.recv count next')
  | send {budget : Nat} (bytes : Bytes) {next next' : Poll (Except Fault Nat) → Talk α} :
      (∀ answer, Same budget (next answer) (next' answer)) → Same budget (.send bytes next) (.send bytes next')
  | shutdown {budget : Nat} {next next' : Except Fault Unit → Talk α} :
      (∀ answer, Same budget (next answer) (next' answer)) → Same budget (.shutdown next) (.shutdown next')
  | note {budget : Nat} (fact : Note) {next next' : Talk α} :
      Same budget next next' → Same budget (.note fact next) (.note fact next')

namespace Same

variable {budget : Nat} {talk talk' : Talk α}

theorem refl (budget : Nat) (talk : Talk α) : Same budget talk talk := by
  induction talk generalizing budget with
  | done value => exact .done value
  | recv count next ih => exact .recv count fun answer _ => ih answer _
  | send bytes next ih => exact .send bytes fun answer => ih answer _
  | shutdown next ih => exact .shutdown fun answer => ih answer _
  | note fact next ih => exact .note fact (ih _)

theorem bind (h : Same budget talk talk') {f f' : α → Talk β}
    (hf : ∀ left ≤ budget, ∀ value, Same left (f value) (f' value)) : Same budget (talk >>= f) (talk' >>= f') := by
  induction h with
  | done value => exact hf _ (Nat.le_refl _) value
  | recv count _ ih => exact .recv count fun answer ha => ih answer ha fun left hl => hf left (by omega)
  | send bytes _ ih => exact .send bytes fun answer => ih answer hf
  | shutdown _ ih => exact .shutdown fun answer => ih answer hf
  | note fact _ ih => exact .note fact (ih hf)

/-- the same talks over transports that answer alike come to the same, if no more bytes are there than the budget -/
theorem run (T : Transport σ) (T' : Transport τ) {R : σ → τ → Prop} (due : τ → Nat)
    (hrecv : ∀ {s t} count, R s t → R (T.recv s count).1 (T'.recv t count).1 ∧
      (T.recv s count).2 = (T'.recv t count).2 ∧ brought (T'.recv t count).2 + due (T'.recv t count).1 ≤ due t)
    (hsend : ∀ {s t} bytes, R s t → R (T.send s bytes).1 (T'.send t bytes).1 ∧
      (T.send s bytes).2 = (T'.send t bytes).2 ∧ due (T'.send t bytes).1 ≤ due t)
    (hshutdown : ∀ {s t}, R s t → R (T.shutdown s).1 (T'.shutdown t).1 ∧
      (T.shutdown s).2 = (T'.shutdown t).2 ∧ due (T'.shutdown t).1 ≤ due t)
    (hnote : ∀ {s t} fact, R s t → R (T.note s fact) (T'.note t fact) ∧ due (T'.note t fact) ≤ due t)
    (h : Same budget talk talk') {s : σ} {t : τ} (hr : R s t) (hd : due t ≤ budget) :
    R (talk.run T s).1 (talk'.run T' t).1 ∧ (talk.run T s).2 = (talk'.run T' t).2 := by
  induction h generalizing s t with
  | done value => exact ⟨hr, rfl⟩
  | recv count _ ih =>
    obtain ⟨hr', hvalue, hdue⟩ := hrecv count hr
    simp only [Talk.run, hvalue]
    exact ih _ (by omega) hr' (by omega)
  | send bytes _ ih =>
    obtain ⟨hr', hvalue, hdue⟩ := hsend bytes hr
    simp only [Talk.run, hvalue]
    exact ih _ hr' (by omega)
  | shutdown _ ih =>
    obtain ⟨hr', hvalue, hdue⟩ := hshutdown hr
    simp only [Talk.run, hvalue]
    exact ih _ hr' (by omega)
  | note fact _ ih =>
    obtain ⟨hr', hdue⟩ := hnote fact hr
    exact ih hr' (by omega)

end Same

end Talk

/-- what a poll is told of the bytes that can come makes no difference to it, as long as no more come -/
def Protocol.Local (p : Protocol X) : Prop :=
  ∀ {budget n m : Nat} (x : X), budget ≤ n → budget ≤ m → Talk.Same budget (p.poll n x) (p.poll m x)

/-! ## HTTP -/

namespace Exchange

open Talk

variable {budget n m : Nat}

/-- every read but the last one brings a byte, so more reads than there are bytes are enough -/
theorem same_takePart (e : Exchange) (decoder : Decoder) (hn : budget < n) (hm : budget < m) :
    Same budget (takePart n e decoder) (takePart m e decoder) := by
  induction n generalizing budget m e decoder with
  | zero => omega
  | succ n ih =>
    obtain ⟨m, rfl⟩ : ∃ m', m = m' + 1 := ⟨m - 1, by omega⟩
    unfold takePart
    dsimp only
    cases (decoder.scan e.inflow.buffer).2.2 with
    | some part => exact .refl _ _
    | none =>
      refine .recv _ fun answer ha => ?_
      match answer with
      | .pending => exact .refl _ _
      | .ready (.error fault) => exact .refl _ _
      | .ready (.ok []) => exact .refl _ _
      | .ready (.ok (b :: bytes)) =>
        have hlength : brought (.ready (.ok (b :: bytes))) = bytes.length + 1 := rfl
        exact ih _ _ (by omega) (by omega)

theorem same_readBody (e : Exchange) (hn : budget ≤ n) (hm : budget ≤ m) :
    Same budget (e.readBody n) (e.readBody m) := by
  unfold readBody
  split
  · exact (same_takePart e _ (by omega) (by omega)).bind fun _ _ _ => .refl _ _
  · exact .refl _ _

theorem same_settleInlet (e : Exchange) (hn : budget ≤ n) (hm : budget ≤ m) :
    Same budget (e.settleInlet n) (e.settleInlet m) := by
  unfold settleInlet skipBody
  split
  · exact (same_readBody _ hn hm).bind fun _ _ _ => .refl _ _
  · exact .refl _ _
  · exact .refl _ _

theorem same_fillInlet (e : Exchange) (hn : budget ≤ n) (hm : budget ≤ m) :
    Same budget (e.fillInlet n) (e.fillInlet m) := by
  unfold fillInlet
  split
  · exact (same_readBody _ hn hm).bind fun _ _ _ => .refl _ _
  · exact .refl _ _

theorem same_readPhase (o : Options) (e : Exchange) (hn : budget ≤ n) (hm : budget ≤ m) :
    Same budget (e.readPhase o n) (e.readPhase o m) := by
  unfold readPhase
  refine (same_settleInlet e hn hm).bind fun left hl e => (Same.refl left (e.nextHead o)).bind fun left' hl' read => ?_
  obtain ⟨e, result⟩ := read
  cases result with
  | error failure => exact .refl _ _
  | ok => exact (same_fillInlet e (by omega) (by omega)).bind fun _ _ _ => .refl _ _

theorem same_rounds (o : Options) (limit : Nat) (e : Exchange) (hn : budget ≤ n) (hm : budget ≤ m) :
    Same budget (rounds o n limit e) (rounds o m limit e) := by
  induction limit generalizing budget e with
  | zero => exact .refl _ _
  | succ limit ih =>
    unfold rounds round
    refine .bind (.bind (same_readPhase o e hn hm) fun _ _ _ => .refl _ _) fun left hl turned => ?_
    obtain ⟨e, result⟩ := turned
    cases result with
    | error failure => exact .refl _ _
    | ok =>
      dsimp only
      split
      · exact ih _ (by omega) (by omega)
      · exact .refl _ _

end Exchange

/-- an exchange depends on the answers of its transport alone -/
theorem local_protocol (o : Options) : (protocol o).Local := fun _ hn hm =>
  .bind (.bind (Exchange.same_rounds o _ _ hn hm) fun _ _ _ => .refl _ _) fun _ _ _ => .refl _ _

end EventServer.Http
