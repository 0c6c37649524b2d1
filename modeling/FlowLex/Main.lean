import FlowLex.Program

/-!
# Command-line entry

Connects a run with the files, the standard streams and the environment of
the process.
-/

open FlowLex

/-- The error of the operating system behind a failure to read. -/
def systemError : IO.Error → Program.SystemError
  | .noFileOrDirectory .. => .notFound
  | .permissionDenied .. => .permissionDenied
  | .inappropriateType .. => .isDirectory
  | error => ⟨5, "Uncategorized", toString error⟩

def readBytes (read : IO ByteArray) :
    IO (Except Program.SystemError ByteArray) := do
  try
    return .ok (← read)
  catch error =>
    return .error (systemError error)

def processInputs : Program.Inputs IO where
  file path := readBytes (IO.FS.readBinFile path)
  standard := readBytes do (← IO.getStdin).readBinToEnd

def main (arguments : List String) : IO UInt32 := do
  let formatValue ← IO.getEnv "FLOWSCRIPT_FORMAT"
  let result ← Program.run processInputs arguments formatValue
  IO.print result.output
  IO.eprint result.complaint
  return result.status.toUInt32
