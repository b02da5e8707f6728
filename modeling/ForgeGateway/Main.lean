import ForgeGateway.Program

/-! # The program

The outer layer: it reads the files that the settings name, prints what is logged, and ends
with the status that the library gives. The records are lines of JSON on standard output. What
carries connections is outside of this library; once everything is in order the program waits
until its input ends. -/

namespace ForgeGateway.Program

/-- What a file holds, if it is a text that can be read. -/
def readText (path : String) : IO (Option String) := do
  try
    let text ← IO.FS.readFile path
    return some text
  catch _ => return none

def printRecord (r : Record) : IO Unit := IO.println r.report.toText

/-- Says why the program ends. -/
def printFault (f : Fault) : IO Unit := do
  if f = .usage .help then IO.print CommandLine.helpText
  match f.line? with
  | some line => IO.eprintln line
  | none => pure ()
  match f with
  | .usage .help => pure ()
  | .usage _ => IO.eprintln CommandLine.hintText
  | _ => pure ()

def runWith (args : List String) : IO UInt32 := do
  let s ← start readText none args
  s.records.forM printRecord
  match s.outcome with
  | .error f =>
    printFault f
    return f.exitStatus.toUInt32
  | .ok _ =>
    let input ← IO.getStdin
    let _ ← input.readToEnd
    printRecord stopped
    return 0

end ForgeGateway.Program

def main (args : List String) : IO UInt32 := ForgeGateway.Program.runWith args
