/-
What the program's arguments ask for. A port is read digit by digit, and every product and sum on the way must fit
sixteen bits; the value of a run of digits, however long, is a number without a bound (`Nat.ofDigitChars`). The two
agree (`appendDigits_eq_some_iff`): a value only grows as digits follow, so one that is too large once is too large in
the end, and leading zeros, of which there may be any number, never make it so.

`Writes` is the grammar of a port and `Asks` what a list of arguments asks for. A list is accepted exactly if it asks
for a port, and one that is not is refused with its second argument as it was given (`accepted_iff_asks`).
-/
import EventServer.Settings

namespace EventServer.Settings

/-! ## Digits -/

theorem fits?_eq_some_iff {n : Nat} {port : UInt16} : fits? n = some port ↔ n = port.toNat := by
  unfold fits?
  constructor
  · intro h
    split at h
    · next hn =>
      cases h
      exact (UInt16.toNat_ofNat_of_lt' hn).symm
    · cases h
  · rintro rfl
    rw [if_pos port.toNat_lt_size, UInt16.ofNat_toNat]

theorem appendDigit?_eq_some_iff {port next : UInt16} {c : Char} : appendDigit? port c = some next ↔
    c.isDigit ∧ 10 * port.toNat + (c.toNat - '0'.toNat) = next.toNat := by
  unfold appendDigit?
  rw [Option.bind_eq_some_iff]
  constructor
  · rintro ⟨shifted, hshifted, hnext⟩
    split at hnext
    · next hc => exact ⟨hc, by rw [fits?_eq_some_iff.1 hshifted, fits?_eq_some_iff.1 hnext]⟩
    · cases hnext
  · rintro ⟨hc, hnext⟩
    -- ten times the port fits, for with the digit it still does
    have hfits : 10 * port.toNat < UInt16.size := by
      have := next.toNat_lt_size
      omega
    refine ⟨UInt16.ofNat (10 * port.toNat), if_pos hfits, ?_⟩
    rw [if_pos hc, UInt16.toNat_ofNat_of_lt' hfits]
    exact fits?_eq_some_iff.2 hnext

/-- a value only grows as digits follow -/
theorem le_ofDigitChars (digits : List Char) (value : Nat) : value ≤ Nat.ofDigitChars 10 digits value := by
  induction digits generalizing value with
  | nil => exact Nat.le_refl value
  | cons c digits ih =>
    rw [Nat.ofDigitChars_cons]
    have := ih (10 * value + (c.toNat - '0'.toNat))
    omega

/-- digits behind a port make a port exactly if their value fits sixteen bits in the end -/
theorem appendDigits_eq_some_iff {digits : List Char} {start port : UInt16} :
    digits.foldlM appendDigit? start = some port ↔
      (∀ c ∈ digits, c.isDigit) ∧ Nat.ofDigitChars 10 digits start.toNat = port.toNat := by
  induction digits generalizing start with
  | nil =>
    rw [List.foldlM_nil]
    simp [UInt16.toNat_inj]
  | cons c digits ih =>
    rw [List.foldlM_cons, Option.bind_eq_bind, Option.bind_eq_some_iff, Nat.ofDigitChars_cons, List.forall_mem_cons]
    constructor
    · rintro ⟨next, hnext, hrest⟩
      obtain ⟨hc, hvalue⟩ := appendDigit?_eq_some_iff.1 hnext
      obtain ⟨hdigits, hport⟩ := ih.1 hrest
      exact ⟨⟨hc, hdigits⟩, hvalue ▸ hport⟩
    · rintro ⟨⟨hc, hdigits⟩, hport⟩
      have hfits : 10 * start.toNat + (c.toNat - '0'.toNat) < UInt16.size := by
        have := le_ofDigitChars digits (10 * start.toNat + (c.toNat - '0'.toNat))
        have := port.toNat_lt_size
        omega
      have hvalue := UInt16.toNat_ofNat_of_lt' hfits
      exact ⟨_, appendDigit?_eq_some_iff.2 ⟨hc, hvalue.symm⟩, ih.2 ⟨hdigits, hvalue.symm ▸ hport⟩⟩

/-! ## A port -/

/-- a text writes a port: a plus sign or none, and then digits, one at least, whose value the port is -/
def Writes (text : List Char) (port : UInt16) : Prop :=
  ∃ sign digits, text = sign ++ digits ∧ (sign = [] ∨ sign = ['+']) ∧ digits ≠ [] ∧ (∀ c ∈ digits, c.isDigit) ∧
    Nat.ofDigitChars 10 digits 0 = port.toNat

theorem unsigned_append {sign digits : List Char} (hsign : sign = [] ∨ sign = ['+'])
    (hdigits : ∀ c ∈ digits, c.isDigit) : unsigned (sign ++ digits) = digits := by
  rcases hsign with rfl | rfl
  · rw [List.nil_append]
    unfold unsigned
    split
    · exact absurd (hdigits '+' List.mem_cons_self) (by decide)
    · rfl
  · rfl

theorem exists_sign (text : List Char) : ∃ sign, text = sign ++ unsigned text ∧ (sign = [] ∨ sign = ['+']) := by
  unfold unsigned
  split
  · exact ⟨['+'], rfl, .inr rfl⟩
  · exact ⟨[], rfl, .inl rfl⟩

theorem parsePort_eq_some_iff {text : String} {port : UInt16} :
    parsePort text = some port ↔ Writes text.toList port := by
  have hread : parsePort text = some port ↔
      unsigned text.toList ≠ [] ∧ (unsigned text.toList).foldlM appendDigit? 0 = some port := by
    unfold parsePort
    cases unsigned text.toList <;> simp
  rw [hread, appendDigits_eq_some_iff]
  constructor
  · rintro ⟨hne, hdigits, hport⟩
    obtain ⟨sign, htext, hsign⟩ := exists_sign text.toList
    exact ⟨sign, _, htext, hsign, hne, hdigits, hport⟩
  · rintro ⟨sign, digits, htext, hsign, hne, hdigits, hport⟩
    rw [htext, unsigned_append hsign hdigits]
    exact ⟨hne, hdigits, hport⟩

example : ["+00065535", "65536", "++1", "+", "", "-0", "٣"].map parsePort =
    [some 65535, none, none, none, none, none, none] := by decide

/-- any number of zeros, behind a plus sign or none, may stand before the decimal text of a port -/
theorem writes_text (port : UInt16) (zeros : Nat) {sign : String} (hsign : sign = "" ∨ sign = "+") :
    Writes (sign ++ String.ofList (List.replicate zeros '0') ++ toString port.toNat).toList port := by
  refine ⟨sign.toList, List.replicate zeros '0' ++ Nat.toDigits 10 port.toNat, ?_, ?_, ?_, ?_, ?_⟩
  · simp
  · rcases hsign with rfl | rfl
    · exact .inl rfl
    · exact .inr rfl
  · simp [Nat.toDigits_ne_nil]
  · intro c hc
    rcases List.mem_append.1 hc with hc | hc
    · rw [List.eq_of_mem_replicate hc]
      rfl
    · exact Nat.isDigit_of_mem_toDigits (by decide) (by decide) hc
  · rw [Nat.ofDigitChars_append, Nat.ofDigitChars_replicate_zero, Nat.mul_zero, Nat.ofDigitChars_ten_toDigits]

/-! ## A list of arguments -/

/-- a list asks for the default port if it is too short to name one, and for the one that its second text writes -/
inductive Asks (arguments : List String) : UInt16 → Prop
  | unsaid (short : arguments.length < 2) : Asks arguments default.port
  | said {given : String} {port : UInt16} (second : arguments[1]? = some given) (writes : Writes given.toList port) :
    Asks arguments port

variable {arguments : List String}

/-- the first argument is the host and the second decides -/
theorem ofArguments_eq (arguments : List String) : ofArguments arguments =
    match arguments[1]? with
    | none => .ok { default with host := arguments.head?.getD default.host }
    | some given =>
      match parsePort given with
      | some port => .ok { default with host := arguments.head?.getD default.host, port }
      | none => .error (.badPort given) :=
  match arguments with
  | [] | [_] | _ :: _ :: _ => rfl

/-- what follows the second argument makes no difference -/
theorem ofArguments_take (arguments : List String) : ofArguments (arguments.take 2) = ofArguments arguments :=
  match arguments with
  | [] | [_] | _ :: _ :: _ => rfl

theorem asks_iff_of_second {given : String} (hsecond : arguments[1]? = some given) {port : UInt16} :
    Asks arguments port ↔ parsePort given = some port := by
  rw [parsePort_eq_some_iff]
  constructor
  · rintro (hshort | ⟨hgiven, hwrites⟩)
    · rw [List.getElem?_eq_none (by omega)] at hsecond
      cases hsecond
    · cases hsecond.symm.trans hgiven
      exact hwrites
  · exact .said hsecond

theorem ofArguments_eq_ok_iff {settings : Settings} : ofArguments arguments = .ok settings ↔
    ∃ port, Asks arguments port ∧ settings = { default with host := arguments.head?.getD default.host, port } := by
  rw [ofArguments_eq]
  cases hsecond : arguments[1]? with
  | none =>
    constructor
    · rintro ⟨⟩
      have hlength := List.getElem?_eq_none_iff.1 hsecond
      exact ⟨_, .unsaid (by omega), rfl⟩
    · rintro ⟨_, _ | ⟨hgiven, -⟩, rfl⟩
      · rfl
      · cases hsecond.symm.trans hgiven
  | some given =>
    simp only [asks_iff_of_second hsecond]
    cases parsePort given with
    | none => simp
    | some port => simp [eq_comm]

/-- what is refused names a text that writes no port -/
theorem ofArguments_eq_error_iff {failure : SetupFailure} : ofArguments arguments = .error failure ↔
    ∃ given, arguments[1]? = some given ∧ (∀ port, ¬ Writes given.toList port) ∧ failure = .badPort given := by
  rw [ofArguments_eq]
  cases hsecond : arguments[1]? with
  | none => simp
  | some given =>
    simp only [← parsePort_eq_some_iff]
    cases hport : parsePort given with
    | none => simp [hport, eq_comm]
    | some port => simp [hport]

/-- **the arguments are read by their grammar**: a list is accepted exactly if it is too short to name a port or its
second argument writes one, with the host and the port that it names and the defaults besides; any other is refused
with its second argument as it was given; what follows the second makes no difference, and the decimal text of every
port is read as that port, whatever zeros and sign stand before it -/
theorem accepted_iff_asks (arguments : List String) :
    (∀ settings, ofArguments arguments = .ok settings ↔
      ∃ port, Asks arguments port ∧
        settings = { default with host := arguments.head?.getD default.host, port }) ∧
    (∀ failure, ofArguments arguments = .error failure ↔
      ∃ given, arguments[1]? = some given ∧ (∀ port, ¬ Writes given.toList port) ∧ failure = .badPort given) ∧
    ofArguments (arguments.take 2) = ofArguments arguments ∧
    ∀ host port zeros sign rest, sign = "" ∨ sign = "+" →
      ofArguments (host :: (sign ++ String.ofList (List.replicate zeros '0') ++ toString port.toNat) :: rest) =
        .ok { default with host, port } := by
  refine ⟨fun _ => ofArguments_eq_ok_iff, fun _ => ofArguments_eq_error_iff,
    ofArguments_take arguments, fun host port zeros sign rest hsign => ?_⟩
  exact ofArguments_eq_ok_iff.2 ⟨port, .said rfl (writes_text port zeros hsign), rfl⟩

end EventServer.Settings
