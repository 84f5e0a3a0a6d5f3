/-
What a quoted text keeps. A reader of quoted text is in one of four places (`Reading`): between characters, behind a
backslash, behind the letter that announces a code point, or within its digits. Read so, what is written for a character
gives that character and leaves off where the next one starts (`unescape?_escape`), whatever table decides which
characters are written by their code points; so the text comes back whole (`unquote?_quotedBy`), be it one that looks
like an escape itself.

Nothing that breaks a line is in what is written for a character, if the table has all that breaks a line
(`not_breaks_of_mem_escape`). Hence a port that is refused makes a message of one line that tells it from every other
(`refusal_unforgeable`). A journal shows such words as they are (`spelled_eq_self`), so the message is all that is kept
of a start that is refused (`launch_of_refused`).
-/
import EventServer.CommandLine
import EventServer.Proofs.Arguments

namespace EventServer.Text

/-! ## Reading -/

/-- where a reader of quoted text is -/
inductive Reading where
  | between
  /-- behind a backslash -/
  | escaped
  /-- behind the letter that announces a code point -/
  | announced
  /-- within the digits of a code point, and what those so far give -/
  | within (code : Nat)

/-- the character that a backslash and a letter stand for -/
def named? : Char → Option Char
  | '"' => some '"'
  | '\\' => some '\\'
  | '0' => some '\x00'
  | 't' => some '\t'
  | 'n' => some '\n'
  | 'r' => some '\r'
  | _ => none

/-- the characters up to the closing quotation mark, which must be the end -/
def unescape? : Reading → List Char → Option (List Char)
  | _, [] => none
  | .between, c :: rest =>
    if c = '"' then if rest.isEmpty then some [] else none
    else if c = '\\' then unescape? .escaped rest
    else (unescape? .between rest).map (c :: ·)
  | .escaped, c :: rest =>
    if c = 'u' then unescape? .announced rest
    else (named? c).bind fun named => (unescape? .between rest).map (named :: ·)
  | .announced, c :: rest => if c = '\x7b' then unescape? (.within 0) rest else none
  | .within code, c :: rest =>
    if c = '\x7d' then (unescape? .between rest).map (Char.ofNat code :: ·)
    else (digit? c).bind fun digit => unescape? (.within (16 * code + digit)) rest

/-- the text that stands between quotation marks -/
def unquote? : List Char → Option String
  | '"' :: rest => (unescape? .between rest).map String.ofList
  | _ => none

/-- a character is written by a letter of its own, by its code point, or as it is -/
theorem escape_cases (hidden : Char → Bool) (c : Char) :
    (∃ letter, escape hidden c = ['\\', letter] ∧ named? letter = some c) ∨
    escape hidden c = ['\\', 'u', '\x7b'] ++ hexDigits c.toNat ++ ['\x7d'] ∨
    (escape hidden c = [c] ∧ c ≠ '"' ∧ c ≠ '\\' ∧ hidden c = false) := by
  unfold escape
  split
  · next h => subst h; exact .inl ⟨_, rfl, rfl⟩
  split
  · next h => subst h; exact .inl ⟨_, rfl, rfl⟩
  split
  · next h => subst h; exact .inl ⟨_, rfl, rfl⟩
  split
  · next h => subst h; exact .inl ⟨_, rfl, rfl⟩
  split
  · next h => subst h; exact .inl ⟨_, rfl, rfl⟩
  split
  · next h => subst h; exact .inl ⟨_, rfl, rfl⟩
  split
  · exact .inr (.inl rfl)
  · next hquote hslash _ _ _ _ hshown => exact .inr (.inr ⟨rfl, hquote, hslash, by simpa using hshown⟩)

/-- what holds of the sixteen digits holds of every digit of a number -/
theorem forall_mem_hexDigits {P : Char → Prop} (hdigit : ∀ d < 16, P (Nat.digitChar d)) (n : Nat) :
    ∀ c ∈ hexDigits n, P c := by
  induction n using Nat.strongRecOn with
  | ind n ih =>
    rw [hexDigits, Nat.toDigits_eq_if (by decide)]
    split
    · next hn => simpa using hdigit n hn
    · intro c hc
      rcases List.mem_append.1 hc with hc | hc
      · exact ih (n / 16) (by omega) c hc
      · exact List.mem_singleton.1 hc ▸ hdigit (n % 16) (Nat.mod_lt n (by decide))

theorem digit?_digitChar : ∀ d < 16, digit? (Nat.digitChar d) = some d ∧ Nat.digitChar d ≠ '\x7d' := by decide

/-- the digits of a number give the number -/
theorem unescape?_hexDigits (n : Nat) (rest : List Char) :
    unescape? (.within 0) (hexDigits n ++ rest) = unescape? (.within n) rest := by
  have hlast : ∀ code d tail, d < 16 → unescape? (.within code) (Nat.digitChar d :: tail) =
      unescape? (.within (16 * code + d)) tail := by
    intro code d tail hd
    obtain ⟨hvalue, hne⟩ := digit?_digitChar d hd
    simp [unescape?, hvalue, hne]
  -- by induction on the number: its last digit comes behind those of a sixteenth of it
  induction n using Nat.strongRecOn generalizing rest with
  | ind n ih =>
    rw [hexDigits, Nat.toDigits_eq_if (by decide)]
    split
    · next hn => simpa using hlast 0 n rest hn
    · have hfront := ih (n / 16) (by omega) (Nat.digitChar (n % 16) :: rest)
      rw [hexDigits] at hfront
      rw [List.append_assoc, List.singleton_append, hfront, hlast _ _ _ (Nat.mod_lt n (by decide)), Nat.div_add_mod]

/-- what is written for a character is read as that character -/
theorem unescape?_escape (hidden : Char → Bool) (c : Char) (rest : List Char) :
    unescape? .between (escape hidden c ++ rest) = (unescape? .between rest).map (c :: ·) := by
  rcases escape_cases hidden c with ⟨letter, he, hnamed⟩ | he | ⟨he, hquote, hslash, -⟩
  · have hu : letter ≠ 'u' := by
      rintro rfl
      cases hnamed
    simp [he, unescape?, hu, hnamed]
  · have hcode : unescape? .between (escape hidden c ++ rest) =
        unescape? (.within 0) (hexDigits c.toNat ++ '\x7d' :: rest) := by
      simp [he, unescape?]
    rw [hcode, unescape?_hexDigits]
    simp [unescape?]
  · simp [he, unescape?, hquote, hslash]

theorem unescape?_flatMap (hidden : Char → Bool) (cs : List Char) :
    unescape? .between (cs.flatMap (escape hidden) ++ ['"']) = some cs := by
  induction cs with
  | nil => rfl
  | cons c cs ih => rw [List.flatMap_cons, List.append_assoc, unescape?_escape, ih, Option.map_some]

/-- a quoted text is read as the text -/
theorem unquote?_quotedBy (hidden : Char → Bool) (s : String) : unquote? (quotedBy hidden s).toList = some s := by
  have hread := unescape?_flatMap hidden s.toList
  simp [quotedBy, unquote?, hread]

/-! ## Showing -/

/-- what one line holds none of: the control characters, and the two separators that end a line as well -/
def breaks (c : Char) : Bool :=
  c.toNat < 0x20 || (0x7f ≤ c.toNat && c.toNat ≤ 0x9f) || c.toNat == 0x2028 || c.toNat == 0x2029

theorem breaks_iff {c : Char} : breaks c ↔
    c.toNat < 0x20 ∨ (0x7f ≤ c.toNat ∧ c.toNat ≤ 0x9f) ∨ c.toNat = 0x2028 ∨ c.toNat = 0x2029 := by
  simp [breaks, or_assoc]

theorem unprintable_of_breaks {c : Char} (h : breaks c) : unprintable c := by
  have hseparator : c.toNat = 0x2028 ∨ c.toNat = 0x2029 → unprintable c := fun h =>
    List.any_eq_true.2 ⟨(0x2028, 0x202F), by decide, by simp; omega⟩
  rcases breaks_iff.1 h with h | h | h
  · exact unprintable_of_control (.inl h)
  · exact unprintable_of_control (.inr h)
  · exact hseparator h

/-- nothing that is written for a character breaks a line, if the table has all that does -/
theorem not_breaks_of_mem_escape {hidden : Char → Bool} (hhidden : ∀ c, breaks c → hidden c) (c : Char) :
    ∀ x ∈ escape hidden c, breaks x = false := by
  rcases escape_cases hidden c with ⟨letter, he, hnamed⟩ | he | ⟨he, -, -, hshown⟩
  · have hletter : breaks letter = false := by
      unfold named? at hnamed
      split at hnamed <;> first | rfl | cases hnamed
    intro x hx
    rw [he] at hx
    rcases List.mem_cons.1 hx with rfl | hx
    · rfl
    · exact List.mem_singleton.1 hx ▸ hletter
  · have hopening : ∀ x ∈ ['\\', 'u', '\x7b'], breaks x = false := by
      simp only [List.forall_mem_cons]
      exact ⟨rfl, rfl, rfl, List.forall_mem_nil _⟩
    have hdigits : ∀ x ∈ hexDigits c.toNat, breaks x = false := forall_mem_hexDigits (by decide) c.toNat
    intro x hx
    rw [he] at hx
    rcases List.mem_append.1 hx with hx | hx
    · exact (List.mem_append.1 hx).elim (hopening x) (hdigits x)
    · exact List.mem_singleton.1 hx ▸ rfl
  · intro x hx
    rw [he, List.mem_singleton] at hx
    rw [hx]
    exact Bool.eq_false_iff.2 fun hbreaks => Bool.eq_false_iff.1 hshown (hhidden c hbreaks)

/-- a text is one line -/
def OneLine (s : String) : Prop := ∀ c ∈ s.toList, breaks c = false

theorem oneLine_iff {s : String} : OneLine s ↔ s.toList.all (!breaks ·) := by
  simp [OneLine]

theorem oneLine_append {s t : String} (hs : OneLine s) (ht : OneLine t) : OneLine (s ++ t) := by
  intro c hc
  rw [String.toList_append, List.mem_append] at hc
  exact hc.elim (hs c) (ht c)

theorem oneLine_quotedBy {hidden : Char → Bool} (hhidden : ∀ c, breaks c → hidden c) (s : String) :
    OneLine (quotedBy hidden s) := by
  intro c hc
  simp only [quotedBy, String.toList_ofList, List.cons_append, List.mem_cons, List.mem_append, List.mem_flatMap,
    List.not_mem_nil, or_false] at hc
  rcases hc with rfl | ⟨x, -, hx⟩ | rfl
  · rfl
  · exact not_breaks_of_mem_escape hhidden x c hx
  · rfl

/-- a journal shows one line as it is -/
theorem spelled_eq_self {s : String} (hs : OneLine s) : spelled s = s := by
  have hspell : ∀ c, breaks c = false → spell c = [c] := by
    intro c hc
    have hsteering : steering.all breaks := rfl
    have hcode : ¬ (0x80 ≤ c.toNat ∧ c.toNat ≤ 0x9F) := fun h =>
      Bool.eq_false_iff.1 hc (breaks_iff.2 (.inr (.inl ⟨by omega, h.2⟩)))
    unfold spell
    rw [if_neg, if_neg]
    · simpa using hcode
    · exact fun h => Bool.eq_false_iff.1 hc (List.all_eq_true.1 hsteering c (List.contains_iff_mem.1 h))
  have hall : ∀ cs : List Char, (∀ c ∈ cs, breaks c = false) → cs.flatMap spell = cs := by
    intro cs hcs
    induction cs with
    | nil => rfl
    | cons c cs ih =>
      obtain ⟨hc, hrest⟩ := List.forall_mem_cons.1 hcs
      rw [List.flatMap_cons, hspell c hc, ih hrest, List.singleton_append]
  rw [spelled, hall _ hs, String.ofList_toList]

end EventServer.Text

namespace EventServer.Settings

open Text

/-- the words before the text that a refusal quotes -/
def refusal : String := "invalid port "

/-- the text that a refusal quotes -/
def refused? (message : String) : Option String := unquote? (message.toList.drop refusal.length)

/-- a message is one line, and the text it quotes can be read from it -/
structure Tells (message given : String) : Prop where
  oneLine : OneLine message
  reads : refused? message = some given

theorem tells_quotedBy {hidden : Char → Bool} (hhidden : ∀ c, breaks c → hidden c) (given : String) :
    Tells (refusal ++ quotedBy hidden given) given where
  oneLine := oneLine_append (oneLine_iff.2 (by decide)) (oneLine_quotedBy hhidden given)
  reads := by
    rw [refused?, String.toList_append]
    exact unquote?_quotedBy hidden given

/-- what is said of a text that writes no port -/
theorem tells_badPort (given : String) : Tells (SetupFailure.badPort given).text given :=
  tells_quotedBy (fun _ => unprintable_of_breaks) given

/-- the line that a journal keeps of a refusal is its message behind words that no argument has a part in -/
theorem line_badPort (given : String) :
    (Entry.plain (.badArguments (.badPort given))).line =
      "ERROR hyper_epoll: " ++ (SetupFailure.badPort given).text := by
  have hshown := spelled_eq_self (tells_badPort given).oneLine
  have hnote : (Entry.plain (.badArguments (.badPort given))).note.text = (SetupFailure.badPort given).text := rfl
  unfold Entry.line
  rw [hnote, hshown]
  rfl

/-- a start that is refused keeps a journal of one entry, whatever the host and the settings of the journal, and that is
one line: the message behind words that no argument has a part in -/
theorem launch_of_refused {arguments : List String} {failure : SetupFailure}
    (h : ofArguments arguments = .error failure) {setting : Option String} {filter : Filter}
    (hfilter : Filter.ofSetting setting = some filter) (host : Host) (options : Http.Options) :
    CommandLine.launch host options setting (arguments.map some) = .misused [.plain (.badArguments failure)] ∧
      OneLine (Entry.plain (.badArguments failure)).line ∧
      (Entry.plain (.badArguments failure)).line = "ERROR hyper_epoll: " ++ failure.text := by
  have hread : CommandLine.readArguments (arguments.map some) = some (arguments.take 2) := by
    simp [CommandLine.readArguments, ← List.map_take]
  have hrefused : ofArguments (arguments.take 2) = .error failure := by rw [← h, ofArguments_take]
  obtain ⟨given, -, -, rfl⟩ := ofArguments_eq_error_iff.1 h
  have hline := line_badPort given
  refine ⟨by simp only [CommandLine.launch, hfilter, hread, hrefused], ?_, hline⟩
  rw [hline]
  exact oneLine_append (oneLine_iff.2 (by decide)) (tells_badPort given).oneLine

/-- **a refusal cannot be forged**: the message about a list of arguments that is refused is one line from which the
refused argument can be read back, so that two messages are the same only if the refused arguments are; and so it is
with every table of what is not shown that has all that breaks a line -/
theorem refusal_unforgeable {arguments : List String} {failure : SetupFailure}
    (h : ofArguments arguments = .error failure) :
    ∃ given, arguments[1]? = some given ∧ Tells failure.text given ∧
      (∀ hidden, (∀ c, breaks c → hidden c) → Tells (refusal ++ quotedBy hidden given) given) ∧
      ∀ others refused, ofArguments others = .error refused → refused.text = failure.text →
        others[1]? = some given := by
  obtain ⟨given, hgiven, -, rfl⟩ := ofArguments_eq_error_iff.1 h
  have htells := tells_badPort given
  refine ⟨given, hgiven, htells, fun _ hhidden => tells_quotedBy hhidden given, ?_⟩
  intro others refused hrefused hsame
  obtain ⟨other, hother, -, rfl⟩ := ofArguments_eq_error_iff.1 hrefused
  have hreads : some other = some given := by
    rw [← (tells_badPort other).reads, hsame, htells.reads]
  rw [hother, hreads]

namespace Sample

/-- a port that would end the line and the quotation, and that looks like an escape -/
def forged : String := "8\n\"\\u\x7b41\x7d\x7f"

end Sample

/-- such a port is refused in one line, and can be read from it -/
theorem forged_is_told :
    ofArguments ["0.0.0.0", Sample.forged, "8080"] = .error (.badPort Sample.forged) ∧
      (SetupFailure.badPort Sample.forged).text = "invalid port \"8\\n\\\"\\\\u\x7b41\x7d\\u\x7b7f\x7d\"" ∧
      Tells (SetupFailure.badPort Sample.forged).text Sample.forged := by
  have hrefused : ofArguments ["0.0.0.0", Sample.forged, "8080"] = .error (.badPort Sample.forged) := rfl
  obtain ⟨given, hgiven, htells, -⟩ := refusal_unforgeable hrefused
  cases hgiven
  exact ⟨hrefused, by decide +kernel, htells⟩

end EventServer.Settings
