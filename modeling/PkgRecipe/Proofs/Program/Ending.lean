import PkgRecipe.Proofs.Program.Output
import PkgRecipe.Proofs.Settings.LayerOrder

namespace PkgRecipe.Program

open CommandLine (Options)

section Failing

variable {status : StatusCallback} {o : Options} {s : Settings} {tree : Files.Tree}
  {outside after : Outside} {failure : Failure}

end Failing

end PkgRecipe.Program
