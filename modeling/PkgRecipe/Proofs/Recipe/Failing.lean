import PkgRecipe.Proofs.Recipe.Processes

namespace PkgRecipe

namespace Recipe

/-- A failure of a statement that is not foreseen, with what it comes from. -/
inductive Lapse (settings : Settings) (processes : List (List (List Char)))
    (replies : List ProcessReply) : Failure → Prop where
  /-- The shell that cannot be found has no name. -/
  | shell (wordless : Shell.commandWords settings.shell.command = .ok []) :
      Lapse settings processes replies .shellUnnamed
  /-- A null character cannot be handed over to a process. -/
  | argument {arguments : List (List Char)} (process : arguments ∈ processes)
      (holds : ∃ argument ∈ arguments, '\x00' ∈ argument) :
      Lapse settings processes replies .nullCharacter
  /-- What a process prints is no text. -/
  | output {fault : Text.Utf8.Fault} (printed : .undecodable fault ∈ replies) :
      Lapse settings processes replies (.undecodable fault)
  /-- An integer variable is declared with too many digits. -/
  | integer {output complaint : List Char} {d : Shell.Declaration} {digits : Nat}
      (printed : .ended 0 output complaint ∈ replies)
      (declared : Shell.Declaration.ofOutput output = .ok d)
      (integer : d.attributes.integer = true) (long : Ruby.integer d.scalar = .error digits) :
      Lapse settings processes replies (.oversized digits)

theorem Lapse.mono {settings : Settings} {processes more : List (List (List Char))}
    {replies all : List ProcessReply} {failure : Failure}
    (lapse : Lapse settings processes replies failure)
    (among : ∀ arguments ∈ processes, arguments ∈ more) (among' : ∀ reply ∈ replies, reply ∈ all) :
    Lapse settings more all failure := by
  cases lapse with
  | shell wordless => exact .shell wordless
  | argument process holds => exact .argument (among _ process) holds
  | output printed => exact .output (among' _ printed)
  | integer printed declared integer long =>
      exact .integer (among' _ printed) declared integer long

namespace Converter

/-- The statements of a file that are converted: those that are closed before it can be read no
further. -/
def fileStatements (bytes : List UInt8) : List Shell.Statement :=
  match Files.readLines bytes with
  | (lines, none) => Shell.statements lines
  | (lines, some _) => (Shell.statements lines).filter (·.complete)

def closeFile (c : Converter) (bytes : List UInt8) : Work (List Char) :=
  match (Files.readLines bytes).2 with
  | none => c.finish
  | some fault => throw (.undecodable fault)

theorem recipeOfBytes_apply (c : Converter) (bytes : List UInt8) (o : Outside) :
    c.recipeOfBytes bytes o =
      match ((fileStatements bytes).forM c.write) ⟨{}, o⟩ with
      | (.ok _, desk) => ((c.closeFile bytes desk).1, (c.closeFile bytes desk).2.outside)
      | (.error failure, desk) => (.error failure, desk.outside) := by
  have run (ss : List Shell.Statement) (last : Work (List Char)) :
      fromEmpty (ss.forM c.write >>= fun _ => last) o =
        match (ss.forM c.write) ⟨{}, o⟩ with
        | (.ok _, desk) => ((last desk).1, (last desk).2.outside)
        | (.error failure, desk) => (.error failure, desk.outside) := by
    simp only [fromEmpty, Work.bind_apply]
    rcases (ss.forM c.write) ⟨{}, o⟩ with ⟨failure | _, desk⟩
    · rfl
    · rfl
  unfold recipeOfBytes fileStatements closeFile
  rcases Files.readLines bytes with ⟨lines, _ | fault⟩
  · exact run _ _
  · exact run _ _

section Run

variable {settings : Settings} {status? : Option StatusCallback} {c : Converter}
  {command : List (List Char)} {failure : Failure}

end Run

end Converter

end Recipe

end PkgRecipe
