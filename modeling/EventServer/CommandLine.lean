/-
The command line: from arguments to a running server, and from a signal to the end of the program. Whatever the reason,
the program ends with status 1.
-/
import EventServer.Http.Exchange
import EventServer.Journal.Filter
import EventServer.Server

namespace EventServer.CommandLine

def usage : String := "Usage: hyper-epoll [host] [port]"

def exitStatus : UInt8 := 1

/-- the arguments that count, if all of them are text -/
def readArguments (arguments : List (Option String)) : Option (List String) :=
  let counted := arguments.take 2
  if counted.all Option.isSome then some (counted.filterMap id) else none

/-- what came of starting the program -/
inductive Launch where
  /-- an argument that counts is no text, or the journal's filter breaks off within a character -/
  | unreadable
  | misused (journal : Journal)
  | failed (journal : Journal)
  | running (server : Server Http.Exchange) (journal : Journal)

/-- starts the program in a host; the setting is that of the journal's filter -/
def launch (h : Host) (options : Http.Options) (setting : Option String) (arguments : List (Option String)) : Launch :=
  match Filter.ofSetting setting, readArguments arguments with
  | none, _ | _, none => .unreadable
  | some _, some texts =>
    match Settings.ofArguments texts with
    | .error failure => .misused [.plain (.badArguments failure)]
    | .ok settings =>
      let bound := Server.bind h settings (Http.protocol options)
      let journal := bound.notes.map Entry.plain
      match bound.server with
      | .error failure => .failed (journal ++ [.plain (.setupFailed failure)])
      | .ok server => .running server journal

/-- what is reported when a signal has stopped the server -/
def farewell (server : Server Http.Exchange) (signal : ShutdownSignal) : Journal :=
  .plain (.shutDownBy signal) :: server.release.journal

/-- signals that do nothing to the program, or stop it for a while, or that it survives once -/
def survivable : List Int := [7, 11, 13, 17, 18, 19, 20, 21, 22, 23, 28]

/-- signals that end the program unless they are held back -/
def isFatal (number : Int) : Bool := 1 ≤ number && number ≤ 64 && !survivable.contains number

end EventServer.CommandLine
