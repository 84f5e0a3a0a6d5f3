/-
Tokens: what a watched descriptor is, in the word that the host keeps beside it. Word 0 is the listener, 1 the signal
source and every later one a connection's slot, so the two last slots of the sixty-four bit range have no word.
-/

namespace EventServer

inductive Token where
  | listener
  | signals
  | connection (slot : Nat)
  deriving DecidableEq, Repr

namespace Token

/-- the first word that stands for a connection -/
def base : Nat := 2

/-- the word that stands for the token, if its slot is small enough to have one -/
def word? : Token → Option UInt64
  | listener => some 0
  | signals => some 1
  | connection slot => if base + slot < UInt64.size then some (UInt64.ofNat (base + slot)) else none

/-- the token that a word stands for -/
def ofWord (word : UInt64) : Token :=
  if word = 0 then listener else if word = 1 then signals else connection (word.toNat - base)

def text : Token → String
  | listener => "Listener"
  | signals => "Signal"
  | connection slot => "Connection(" ++ toString slot ++ ")"

/-- a word leads back to the token it stands for -/
theorem ofWord_word? {t : Token} {w : UInt64} (h : t.word? = some w) : ofWord w = t := by
  cases t with
  | listener => simp [word?] at h; subst h; rfl
  | signals => simp [word?] at h; subst h; rfl
  | connection slot =>
    simp only [word?] at h
    split at h
    · next hs =>
      simp only [Option.some.injEq] at h
      subst h
      have hn : (UInt64.ofNat (base + slot)).toNat = base + slot := UInt64.toNat_ofNat_of_lt' hs
      have h0 : UInt64.ofNat (base + slot) ≠ 0 := by
        intro he
        have := congrArg UInt64.toNat he
        rw [hn] at this
        simp [base] at this
      have h1 : UInt64.ofNat (base + slot) ≠ 1 := by
        intro he
        have := congrArg UInt64.toNat he
        rw [hn] at this
        simp [base] at this
        omega
      rw [ofWord, if_neg h0, if_neg h1, hn, Nat.add_sub_cancel_left]
    · cases h

end Token

end EventServer
