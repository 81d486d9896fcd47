import SourceBaseline.CommandLine
import SourceBaseline.Host.Description

/-!
# The program

The program reads the description of a host from standard input, carries out the command in its
arguments and prints the result. If `--save` and a file stand in front of the arguments, the
description is written there as the command leaves the host.
-/

set_option autoImplicit false

namespace SourceBaseline

def Printout.show (printout : Printout) : IO UInt32 := do
  IO.print printout.stdout
  IO.eprint printout.stderr
  pure printout.code.toUInt32

/-- Carry out what some arguments ask for on a host that is described on standard input, and save
the description. -/
def runDescribed (arguments : List String) (save : HostDescription → Host → IO Unit) :
    IO UInt32 := do
  match HostDescription.ofText? (← (← IO.getStdin).readToEnd) with
  | some description =>
      let (printout, host) := (runArguments arguments description.grammar).run description.host
      save description host
      printout.show
  | none => Printout.show ⟨2, "", "the description of the host cannot be read\n"⟩

end SourceBaseline

open SourceBaseline in
def main (arguments : List String) : IO UInt32 :=
  match arguments with
  | "--save" :: file :: rest =>
      runDescribed rest fun description host => IO.FS.writeFile file (description.text host)
  | _ => runDescribed arguments fun _ _ => pure ()
