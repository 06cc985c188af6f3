import Std.Time
import SupplyGauge.CommandLine.Program
/-! # The executable

Reads those parts of the file system that a run can look at into a tree, runs the
program on it, and writes what the program printed and the files that it changed.
The executable has no network of its own, so a session with a broker is refused.
-/

namespace SupplyGauge.Main

open Files (Location Node Path Tree)

def locationOf (home : Location) (path : Path) : Location :=
  match path.anchor with
  | .relative => home ++ path.names
  | _ => path.names

def textOf (l : Location) : String := "/" ++ String.intercalate "/" l

/-- What the file system has at a location, directories down to a depth. Entries that cannot be
read are left out. -/
def entriesAt : Nat → Location → IO (List (Location × Node))
  | depth, l => do
    let here := (← IO.currentDir) / textOf l
    if ← here.isDir then
      match depth with
      | 0 => return [(l, .directory)]
      | depth + 1 =>
        let inside ← (← here.readDir).toList.mapM fun e => do
          try entriesAt depth (l ++ [e.fileName]) catch _ => return []
        return (l, .directory) :: inside.flatten
    else if ← here.pathExists then
      return [(l, .file (← IO.FS.readBinFile here).toList)]
    else return []

def addView (t : Tree) (path : Path) (depth : Nat) : IO Tree := do
  let l := locationOf t.home path
  let above := (List.range (l.length - 1)).map fun n => l.take (n + 1)
  let mut found := []
  for a in above do
    found := found ++ (← try entriesAt 0 a catch _ => pure [])
  found := found ++ (← try entriesAt depth l catch _ => pure [])
  return { t with nodes := t.nodes ++ found.filter fun (m, _) => !t.nodes.any (·.1 == m) }

/-- Depth of attribute files below the device class. -/
def deviceDepth : Nat := 2

/-- The part of the file system that a run with options can look at. -/
def viewFor (o : CommandLine.Options) (t : Tree) : IO Tree := do
  let config := Path.ofString
    ((CommandLine.given o.config).getD CommandLine.defaultConfigPath)
  let t ← addView t config 0
  let settings := match (Config.Loader.fresh.loadFile t config).1 with
    | .ok s => s
    | .error _ => {}
  let t ← addView t (Supply.classDirectory (.ofString settings.supply.sysfs)) deviceDepth
  let setup := o.setup.withFileOf settings.logging
  match setup.filePath with
  | .text log => addView t (Path.ofString log).parent 1
  | _ => return t

def writeChanges (before after : Tree) : IO Unit :=
  for (l, n) in after.nodes do
    if before.node? l != some n then
      match n with
      | .directory => IO.FS.createDirAll (textOf l)
      | .file content => IO.FS.writeBinFile (textOf l) ⟨content.toArray⟩
      | .link _ => pure ()

/-- The broker as it is without a network. Three attempts fit into the time for which the daemon
waits, and there are some to spare. -/
def noNetwork : Mqtt.Script :=
  { entering := List.replicate 8 (some ⟨.protocol, "no network"⟩) }

/-- Moment of a run as log lines show it. -/
def currentStamp : IO Log.Stamp := do
  let now ← Std.Time.PlainDateTime.now
  return ⟨now.format "uuuu-MM-dd HH:mm:ss", "(no trace)"⟩

/-- Eight hexadecimal digits from the clock. -/
def clockDigits : IO String := do
  return String.ofList (Text.hex 8 (← IO.monoNanosNow))

/-- Runs the program with the words of the command line. -/
def run (words : List String) : IO UInt32 := do
  let home := (Path.ofString (← IO.currentDir).toString).names
  let start := Tree.empty home
  let files ← match CommandLine.Request.ofWords words with
    | .ok (.run o) => viewFor o start
    | _ => pure start
  let surroundings : CommandLine.Surroundings := {
    isTerminal := ← (← IO.getStderr).isTty
    stamp := ← currentStamp
    script := noNetwork
    steps := []
    limit := .ofInt 3600
    digits := ← clockDigits }
  let (exit, session) := CommandLine.run words surroundings files
  writeChanges files session.paper.files
  IO.print session.printed
  IO.eprint session.paper.console
  match exit with
  | .status n | .early n => return n.toUInt32
  | .failed f =>
    IO.eprintln f.message
    return 1

end SupplyGauge.Main

def main (words : List String) : IO UInt32 := SupplyGauge.Main.run words
