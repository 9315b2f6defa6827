import ApiDocs.CommandLine.Run

/-!
The program: reads the files that its arguments name, runs, and prints the outcome.
-/

namespace ApiDocs.CommandLine

def ReadError.ofIO : IO.Error → ReadError
  | .noFileOrDirectory .. => .notFound
  | .permissionDenied .. => .denied
  | .inappropriateType .. => .isDirectory
  | error => .other (toString error)

def readText (path : String) : IO (Except ReadError String) := do
  try
    let bytes ← IO.FS.readBinFile path
    return match String.fromUTF8? bytes with
      | some text => .ok text
      | none => .error .notText
  catch error => return .error (.ofIO error)

/-- The readers of this library, which do not tell where a text goes wrong. -/
def readers : Readers where
  compiler := Pattern.compile
  programCause _ := "no text of a program"
  settingsCause _ := "no text of settings"

/-- A run that a fault keeps from its end has no code of its own, and gets one that is not in use. -/
def Ending.code : Ending → UInt32
  | exit code => code
  | fault _ => 255

end ApiDocs.CommandLine

open ApiDocs CommandLine in
def main (args : List String) : IO UInt32 := do
  let texts ← (paths args).mapM fun path => return (path, ← readText path)
  let files : Files := fun path => (texts.lookup path).getD (.error .notFound)
  let outcome := run readers files args
  for line in outcome.log do
    IO.eprintln (line.toJson.write .compact)
  unless outcome.stderr.isEmpty do
    IO.eprintln outcome.stderr
  IO.print outcome.stdout
  return outcome.ending.code
