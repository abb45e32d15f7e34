import SelectiveTrace.CommandLine.Outcome

/-! The command line as a program: it takes the files that a run looks at onto a disk of its own, and
prints what the run comes to. -/
open SelectiveTrace

namespace SelectiveTrace.CommandLine

def take (disk : Disk) (file : Path) : IO Disk := do
  try
    return disk.place file (← IO.FS.readBinFile file.text)
  catch e =>
    match e with
    | .inappropriateType .. => return disk.makeDirectories (disk.spelledNames file)
    | _ => return disk

def report (o : Outcome) : IO UInt32 := do
  IO.print o.output
  IO.eprint o.errors
  return .ofNat o.exit

end SelectiveTrace.CommandLine

def main (args : List String) : IO UInt32 := do
  let setting ← IO.getEnv "FRAMETRACE_CONFIG"
  let disk : Disk := { current := ⟨toString (← IO.currentDir)⟩ }
  let disk ← (setting.map SelectiveTrace.Path.mk).toList.foldlM CommandLine.take disk
  let disk ← (CommandLine.filesOf setting args { disk }).foldlM CommandLine.take disk
  CommandLine.report (CommandLine.run setting args { disk })
