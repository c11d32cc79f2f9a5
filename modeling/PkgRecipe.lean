import PkgRecipe.Main
import PkgRecipe.Proofs.Shell.Declaring
import PkgRecipe.Proofs.Shell.Expansion
import PkgRecipe.Proofs.Shell.Grouping
import PkgRecipe.Proofs.Shell.Words
import PkgRecipe.Proofs.Shell.Script
import PkgRecipe.Proofs.Ruby.Reading
import PkgRecipe.Proofs.Recipe.InterpolatedLiteral
import PkgRecipe.Proofs.Recipe.DigestLine
import PkgRecipe.Proofs.Shell.Quotation
import PkgRecipe.Proofs.Recipe.CommentLine
import PkgRecipe.Proofs.Recipe.Blocks
import PkgRecipe.Proofs.Settings.Layers
import PkgRecipe.Proofs.Recipe.Segments
import PkgRecipe.Proofs.Recipe.TableSubstitution
import PkgRecipe.Proofs.Recipe.PackageName
import PkgRecipe.Proofs.Recipe.VariableLine
import PkgRecipe.Proofs.Recipe.Processes
import PkgRecipe.Proofs.Files.Tree
import PkgRecipe.Proofs.Recipe.Failing
import PkgRecipe.Proofs.Program.Output
import PkgRecipe.Proofs.Program.Ending
import PkgRecipe.Proofs.Recipe.PackageVariable
import PkgRecipe.Proofs.Program.Formatting
import PkgRecipe.Proofs.Recipe.ReferenceFree
import PkgRecipe.Proofs.Shell.Limited
import PkgRecipe.Proofs.Settings.LastMention
import PkgRecipe.Proofs.Ruby.Literal
import PkgRecipe.Proofs.Shell.AssociativeText
import PkgRecipe.Proofs.Shell.QuotedBody
import PkgRecipe.Proofs.Recipe.ValueLiteral
import PkgRecipe.Proofs.Recipe.Spacing
import PkgRecipe.Proofs.Shell.AssignedName
import PkgRecipe.Proofs.Shell.FirstLine
import PkgRecipe.Proofs.Recipe.RecipeLines
import PkgRecipe.Proofs.Data.Nulls
import PkgRecipe.Proofs.Recipe.MethodLine
import PkgRecipe.Proofs.Recipe.LookBack
import PkgRecipe.Proofs.Recipe.SpecialParameter
import PkgRecipe.Proofs.Recipe.Download
