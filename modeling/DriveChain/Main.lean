import DriveChain.CommandLine

/-!
# The program

Reads the environment, the standard input and files, and prints what comes of the run.
-/

namespace DriveChain

namespace CommandLine

/-- What is printed for those who ask for help. -/
def usage : String :=
  "Usage: " ++ programName ++ " [-n NETWORK] [--log-format FORMAT] COMMAND\n\n" ++
  "  address PUBLIC_KEY | address --parse ADDRESS\n" ++
  "  mosaic-id --owner PUBLIC_KEY [--nonce NUMBER]\n" ++
  "  namespace-id NAME [--path] | namespace-id --well-known\n" ++
  "  decode INPUT\n" ++
  "  decode-drives FILE [-w WORKERS]\n"

/-- The whole of a stream. -/
partial def readAll (stream : IO.FS.Stream) (read : ByteArray) : IO ByteArray := do
  let chunk ← stream.read 65536
  if chunk.isEmpty then return read else readAll stream (read ++ chunk)

/-- The bytes of a file, if it can be read. -/
def readFile? (name : String) : IO (Option (List UInt8)) := do
  try
    let bytes ← IO.FS.readBinFile name
    return some bytes.toList
  catch _ => return none

/-- The environment, the standard input and the files of the process. -/
def surroundings : IO (Surroundings IO) := do
  let network ← IO.getEnv "SIRIUS_NETWORK"
  let format ← IO.getEnv "SIRIUS_LOG_FORMAT"
  let workers ← IO.getEnv "SIRIUS_PAGE_WORKERS"
  return {
    setting? := fun name =>
      match name with
      | "SIRIUS_NETWORK" => network
      | "SIRIUS_LOG_FORMAT" => format
      | "SIRIUS_PAGE_WORKERS" => workers
      | _ => none
    stdin := do return (← readAll (← IO.getStdin) .empty).toList
    file? := readFile? }

end CommandLine

end DriveChain

open DriveChain.CommandLine in
/-- Runs the command line with the given arguments; the answer is the exit code. -/
def main (arguments : List String) : IO UInt32 := do
  let outcome ← run (← surroundings) arguments
  match outcome with
  | .printed text => IO.print text
  | .helped => IO.print usage
  | .refused => IO.eprint usage
  | .failed failure => IO.eprint failure.report
  return outcome.code
