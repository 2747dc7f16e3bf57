import Chaincode.Call
import Chaincode.CommandLine

/-!
# The program

Fetches what a run needs from the system, and prints what comes of it. The program has no network of
its own: it reaches no peer and takes up no address.
-/

namespace Chaincode

/-- The variables that the program was started with. -/
def systemEnvironment : IO Environment := do
  let values ← Settings.variableNames.filterMapM fun name => do
    return (← IO.getEnv name).map (name, ·)
  return .ofList values

/-- The error number of a failure, where it has one. -/
def systemFault : IO.Error → SystemFault
  | .alreadyExists _ code _ | .interrupted _ code _ | .noFileOrDirectory _ code _
  | .invalidArgument _ code _ | .permissionDenied _ code _ | .resourceExhausted _ code _
  | .inappropriateType _ code _ | .noSuchThing _ code _ | .otherError code _
  | .resourceBusy code _ | .resourceVanished code _ | .unsupportedOperation code _
  | .hardwareFault code _ | .unsatisfiedConstraints code _ | .illegalOperation code _
  | .protocolError code _ | .timeExpired code _ => .errno code.toInt32.toInt.natAbs
  | .unexpectedEof => .plain .unexpectedEnd
  | .userError message => .message message

/-- Does the system have anything under a path? -/
def systemHas (path : String) : IO Bool := do
  try
    let _ ← IO.FS.realPath path
    return true
  catch _ => return false

/-- The content of a file of the system. -/
def systemRead (path : String) : IO (Except SystemFault Bytes) := do
  try
    return .ok (← IO.FS.readBinFile path).toList
  catch e => return .error (systemFault e)

/-- What the system answers for some paths. -/
def systemFiles (paths : List String) : IO Files := do
  let answers ← paths.mapM fun path => do return (path, ← systemHas path, ← systemRead path)
  let answer (path : String) : Bool × Except SystemFault Bytes :=
    ((answers.find? (·.1 = path)).map (·.2)).getD (false, .error .noSuchFile)
  return { has := fun path => (answer path).1, read := fun path => (answer path).2 }

end Chaincode

open Chaincode in
def main (args : List String) : IO UInt32 := do
  let env ← systemEnvironment
  let config := (CommandLine.configPath? env args).toList
  let credentials := CommandLine.credentialPaths (← systemFiles config) env args
  let files ← systemFiles (config ++ credentials)
  let outcome := CommandLine.run (.unreachable : Network Call) files env args
  (← IO.getStdout).putStr outcome.output
  (← IO.getStderr).putStr outcome.errors
  return (outcome.exitCode?.getD 0).toUInt32
