/-
The program: it is started with the arguments, serves what standard input holds as one client's bytes, and stops as on a
termination signal. The journal goes to standard output, what the client got follows it, and complaints go to standard
error.
-/
import EventServer.Http.Date
import EventServer.Scenario.Serving
import Std.Time.DateTime.Timestamp

namespace EventServer.Main

def filterVariable : String := "RUST_LOG"

def termination : Int := ShutdownSignal.terminate.number

/-- what the client does; without bytes nobody connects -/
def session (input : Bytes) : List Scenario.Serving.Step :=
  if input.isEmpty then [] else [.connect, .send 0 input, .shut 0, .eof 0]

/-- what the client got -/
def received (results : List Scenario.Serving.Result) : Bytes :=
  results.flatMap fun
    | .read bytes _ => bytes
    | _ => []

/-- runs the program once and gives its status -/
def run (arguments : List String) : IO UInt32 := do
  let input ← (← IO.getStdin).readBinToEnd
  let now ← Std.Time.Timestamp.now
  let setting ← IO.getEnv filterVariable
  let options := ⟨Http.Date.text now.toSecondsSinceUnixEpoch.val.toNat⟩
  match Scenario.Serving.runProgram {} options setting (arguments.map some) (session input.toList) termination with
  | .error _ => return 1
  | .ok view =>
    let output ← IO.getStdout
    for line in Filter.linesOfSetting setting view.journal do
      output.putStrLn line
    output.write ⟨(received view.results).toArray⟩
    for complaint in view.complaints do
      IO.eprintln complaint
    return match view.exit with
      | .status status => status.toUInt32
      | .broken | .killed _ | .running => 1

end EventServer.Main

def main (arguments : List String) : IO UInt32 := EventServer.Main.run arguments
