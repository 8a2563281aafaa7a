import Arson.Cli.Command
/-! # The executable

Reads the command line, the standard input and `RUST_LOG`, runs the command on the real file
system, and writes its two output streams; the exit status is the command's.
-/
namespace Arson.Cli

/-- The operating system's number of an input/output fault. -/
def faultCode : IO.Error → Nat
  | .alreadyExists _ c _ | .otherError c _ | .resourceBusy c _ | .resourceVanished c _
  | .unsupportedOperation c _ | .hardwareFault c _ | .unsatisfiedConstraints c _
  | .illegalOperation c _ | .protocolError c _ | .timeExpired c _ | .interrupted _ c _
  | .noFileOrDirectory _ c _ | .invalidArgument _ c _ | .permissionDenied _ c _
  | .resourceExhausted _ c _ | .inappropriateType _ c _ | .noSuchThing _ c _ => c.toNat
  | .unexpectedEof | .userError _ => 5

instance : FileAccess IO where
  readFile p := do
    try return .ok (← IO.FS.readFile p)
    catch e => return .error (osFault (faultCode e))
  writeFile p c := do
    try
      IO.FS.writeFile p c
      return .ok ()
    catch e => return .error (osFault (faultCode e))

/-- Reads a stream to its end. -/
partial def readAll (s : IO.FS.Stream) (acc : String) : IO String := do
  let line ← s.getLine
  if line.isEmpty then return acc else readAll s (acc ++ line)

end Arson.Cli

open Arson.Cli in
def main (args : List String) : IO UInt32 := do
  let input ← readAll (← IO.getStdin) ""
  let logSpec ← IO.getEnv "RUST_LOG"
  let out ← runCommand args input logSpec
  let stdout ← IO.getStdout
  stdout.putStr out.stdout
  stdout.flush
  let stderr ← IO.getStderr
  stderr.putStr out.stderr
  stderr.flush
  return out.status.toUInt32
