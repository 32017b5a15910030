import KeyOrder.CommandLine

/-!
# The program

Reads the standard input and the file that the arguments name, runs the command line and prints
what it gives.
-/

namespace KeyOrder

/-- A text from a string of code points that holds no surrogates. -/
def toPrintable (s : CodePoints) : String := String.ofList (s.map Char.ofNat)

/-- Reads a stream to its end. -/
partial def readAll (stream : IO.FS.Stream) (read : String) : IO String := do
  let line ← stream.getLine
  if line.isEmpty then return read else readAll stream (read ++ line)

end KeyOrder

open KeyOrder in
/-- The command line program. -/
def main (args : List String) : IO UInt32 := do
  let args := args.map codePoints
  let file? ← match CommandLine.request args with
    | .run s =>
      match s.source with
      | some f =>
        if f = codePoints "-" then pure none
        else
          try pure (some (← IO.FS.readFile (toPrintable f)).toList)
          catch _ => pure none
      | none => pure none
    | _ => pure none
  let stdin ← IO.getStdin
  let terminal ← stdin.isTty
  let reads := match CommandLine.request args with
    | .run s => s.source.isNone && !terminal || s.source == some (codePoints "-")
    | _ => false
  let input ← if reads then readAll stdin "" else pure ""
  match CommandLine.run ⟨input.toList, terminal, fun _ => file?⟩ args with
  | .ok .usageError =>
    IO.eprintln "Usage: sort-keys-fix [OPTIONS]"
    return 2
  | .ok (.printed p) =>
    IO.print (toPrintable p.output)
    IO.eprint (toPrintable p.errors)
    return p.exit.toUInt32
  | .error f =>
    IO.eprintln (toPrintable ((f.message?).getD (codePoints "invalid syntax")))
    return 1
