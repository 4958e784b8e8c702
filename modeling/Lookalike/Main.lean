-- The command line: the files below the working directory are read into a tree,
-- the order is carried out on the tree, and what has changed is written back. The
-- tree is all there is, so a path from the root is followed from its top, too.
import Lookalike.Commands

namespace Lookalike.Main

/-! ## The tree of files -/

/-- What is in a directory, in the order of names. -/
partial def folderOf (entries : List IO.FS.DirEntry) : IO Folder := do
  let sorted := entries.mergeSort fun a b => (compare a.fileName b.fileName).isLE
  sorted.foldlM (fun f e => do
    if ← e.path.isDir then
      return f.put e.fileName (.dir (← folderOf (← e.path.readDir).toList))
    else return f.put e.fileName (.file (← IO.FS.readBinFile e.path).toList)) .empty

def writeBack (old new : Folder) : IO Unit :=
  (new.entries ⟨""⟩).forM fun (path, content) =>
    match content with
    | none => if old.isDir path then pure () else IO.FS.createDirAll path.text
    | some bytes =>
      if (old.read path).toOption = some bytes then pure ()
      else IO.FS.writeBinFile path.text (ByteArray.mk bytes.toArray)

/-! ## Orders -/

/-- The variables that are set. -/
def environment : IO (List (String × String)) :=
  Settings.variableNames.filterMapM fun name => do
    return (← IO.getEnv name).map fun value => (name, value)

/-- Carry out an order on the files; the result is 1 if it fails. -/
def carryOut (o : CommandLine.Order) : IO UInt32 := do
  let old ← folderOf (← (← IO.currentDir).readDir).toList
  let (result, world) := (ExceptT.run (o.run (← environment))).run ⟨old, ""⟩
  IO.print world.printed
  writeBack old world.files
  match result with
  | .ok () => return 0
  | .error f => do
    IO.eprintln ("Error: " ++ f.message)
    return 1

def refuse : CommandLine.Refusal → IO UInt32
  | .help => do
    IO.println "Usage: binclone [OPTIONS] <init|table|index|build|query> [ARGUMENTS]"
    return 0
  | .version => do
    IO.println CommandLine.versionText
    return 0
  | _ => do
    IO.eprintln "error: the command line was not understood; try --help"
    return 2

end Lookalike.Main

/-- Carry out the order of the command line. -/
def main (args : List String) : IO UInt32 :=
  match Lookalike.CommandLine.Order.read args with
  | .ok o => Lookalike.Main.carryOut o
  | .error r => Lookalike.Main.refuse r
