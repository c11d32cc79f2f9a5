import PkgRecipe.Program
import PkgRecipe.Yaml.Document

/-! The command line. The build file is what standard input holds, under the name that the arguments
give it; the recipe goes to standard output. There is no shell and no download here. -/

namespace PkgRecipe

partial def readAll (stream : IO.FS.Stream) (read : List UInt8) : IO (List UInt8) := do
  let block ← stream.read 65536
  if block.isEmpty then return read else readAll stream (read ++ block.toList)

def plainHost : Program.Host where
  release := .late
  yaml := Yaml.plainReader
  terminal _ message := .ok (message ++ ['\n'])
  home := .ofText "/home".toList

end PkgRecipe

open PkgRecipe

def main (arguments : List String) : IO UInt32 := do
  let words := arguments.map String.toList
  let tree : Files.Tree ←
    match CommandLine.Options.ofArguments plainHost.release words with
    | .ok o => do
        let bytes ← readAll (← IO.getStdin) []
        pure (Files.Tree.place {} o.buildFile.parts (.file bytes))
    | .error _ => pure {}
  let outcome := Program.run plainHost words tree { processReplies := [], downloadReplies := [] }
  IO.eprint (String.ofList outcome.complaint)
  IO.print (String.ofList outcome.output)
  for (_, bytes) in outcome.tree.newFiles tree do
    (← IO.getStdout).write (ByteArray.mk bytes.toArray)
  match outcome.ending with
  | .exit code => return code.toUInt32
  | .escaped failure =>
      IO.eprintln (String.ofList failure.message)
      return 1
