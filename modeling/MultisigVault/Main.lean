import MultisigVault.CommandLine.Run

/-!
# The command line program

Reads the arguments and the environment, then the files that the command names.
Runs it and prints either what it writes or why it failed.
-/

namespace MultisigVault.CommandLine

def usage : String :=
  "usage: vault-message [--config PATH] [--program-id KEY] [--multisig KEY] [--vault-index N]\n" ++
  "         compile --instructions PATH [--tables PATH] [--vault KEY]\n" ++
  "       | decode MESSAGE\n" ++
  "       | resolve MESSAGE (--transaction KEY | --transaction-index N) [--tables PATH]\n" ++
  "           [--ephemeral-signers N] [--vault KEY]\n" ++
  "       | derive [--transaction-index N [--ephemeral-signers N]]\n"

/-- The paths that running a command may read. -/
def Invocation.paths (invocation : Invocation) : List String :=
  invocation.settings.config.getD defaultConfigPath ::
    match invocation.command with
    | .compile options => options.instructions :: options.tables.toList
    | .resolve options => options.tables.toList
    | .decode _ | .derive _ => []

/-- Why a path could not be read, given whether it leads anywhere. -/
def readFailure (isPresent : Bool) : IO.Error → FileError
  | .noFileOrDirectory .. => .notFound
  | .inappropriateType .. => if isPresent then .isDirectory else .notDirectory
  | failure => if isPresent then .other (toString failure) else .unreachable (toString failure)

/-- Reads a path of the file system.  If that fails, following the path tells whether it leads
anywhere. -/
def readPathBytes (path : String) : IO (Except FileError Bytes) := do
  try
    return .ok (← IO.FS.readBinFile path).data.toList
  catch failure =>
    let followed ← (IO.FS.realPath path).toBaseIO
    return .error (readFailure followed.isOk failure)

end MultisigVault.CommandLine

open MultisigVault.CommandLine in
def main (arguments : List String) : IO UInt32 := do
  match Invocation.ofArguments arguments (← IO.getEnv programVariable) with
  | none =>
      IO.eprint usage
      return 2
  | some invocation =>
      let contents ← invocation.paths.mapM fun path => do
        return (path, ← readPathBytes path)
      match run (fun path => (contents.lookup path).getD (.error .notFound)) invocation with
      | .ok output =>
          IO.print output
          return 0
      | .error error =>
          IO.eprintln ("Error: " ++ error.message)
          if error.cause ≠ error.message then
            IO.eprintln ("Caused by: " ++ error.cause)
          return 1
