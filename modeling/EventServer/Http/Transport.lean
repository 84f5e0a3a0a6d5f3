/-
Transports: the way in which an exchange reads, writes and reports, whatever it runs over.

An exchange never holds its transport. What it does in one go is a talk (`Talk`): a tree of calls, each with what
follows on every answer, and a value at the end. A transport is a set of operations on a site, which is whatever they
act upon, and `Talk.run` carries a talk out over one; so an exchange can depend on nothing but the answers it gets.
-/
import EventServer.Fault
import EventServer.Journal.Note
import EventServer.Poll
import EventServer.Text.Bytes

namespace EventServer.Http

/-- the operations of an exchange on the site that it runs at -/
structure Transport (σ : Type) where
  /-- reads up to so many bytes; no bytes at all mean that no more will come -/
  recv : σ → Nat → σ × Poll (Except Fault Bytes)
  send : σ → Bytes → σ × Poll (Except Fault Nat)
  shutdown : σ → σ × Except Fault Unit
  note : σ → Note → σ

/-- calls one after another, each with what follows on its answer, and a value at the end -/
inductive Talk (α : Type) where
  | done (value : α)
  | recv (count : Nat) (next : Poll (Except Fault Bytes) → Talk α)
  | send (bytes : Bytes) (next : Poll (Except Fault Nat) → Talk α)
  | shutdown (next : Except Fault Unit → Talk α)
  | note (note : Note) (next : Talk α)

namespace Talk

variable {α β σ : Type}

/-- goes on behind a talk with its value -/
def bind : Talk α → (α → Talk β) → Talk β
  | done value, f => f value
  | recv count next, f => recv count fun answer => (next answer).bind f
  | send bytes next, f => send bytes fun answer => (next answer).bind f
  | shutdown next, f => shutdown fun answer => (next answer).bind f
  | note fact next, f => note fact (next.bind f)

instance : Monad Talk where
  pure := done
  bind := bind

/-- going on with the value alone adds nothing to a talk -/
theorem bind_done (talk : Talk α) : talk >>= done = talk := by
  induction talk with
  | done value => rfl
  | recv count next ih => exact congrArg (recv count) (funext ih)
  | send bytes next ih => exact congrArg (send bytes) (funext ih)
  | shutdown next ih => exact congrArg shutdown (funext ih)
  | note fact next ih => exact congrArg (note fact) ih

def reports : List Note → Talk α → Talk α
  | [], talk => talk
  | fact :: facts, talk => note fact (reports facts talk)

/-- carries the talk out over a transport: the site after it, and its value -/
def run (T : Transport σ) : Talk α → σ → σ × α
  | done value, site => (site, value)
  | recv count next, site => (next (T.recv site count).2).run T (T.recv site count).1
  | send bytes next, site => (next (T.send site bytes).2).run T (T.send site bytes).1
  | shutdown next, site => (next (T.shutdown site).2).run T (T.shutdown site).1
  | note fact next, site => next.run T (T.note site fact)

end Talk

end EventServer.Http
