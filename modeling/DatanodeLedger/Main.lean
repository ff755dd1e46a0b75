import DatanodeLedger.CommandLine.Run
import Std.Time.DateTime.Timestamp

/-! The program: it gathers what a run depends on, and prints what comes of it. -/
namespace DatanodeLedger.CommandLine

private def assignment? (entry : String) : Option (String × String) :=
  match entry.splitOn "=" with
  | name :: value :: rest => some (name, "=".intercalate (value :: rest))
  | _ => none

private def environment : IO (List (String × String)) := do
  let listing ← IO.FS.readFile "/proc/self/environ"
  pure ((listing.splitOn "\x00").filterMap assignment?)

/-- The files that can be read, with their contents. -/
private def readable (paths : List String) : IO (List (String × String)) :=
  paths.filterMapM fun (path : String) => do
    try
      let content ← IO.FS.readFile path
      pure (some (path, content))
    catch _ => pure none

private def surroundings (args : List String) : IO Surroundings := do
  let paths := match Invocation.parse args with
    | .ok i => i.candidates
    | .error _ => []
  let now ← Std.Time.Timestamp.now
  pure { environment := ← environment
         files := ← readable paths
         seed := UInt64.ofNat (← IO.rand 0 (UInt64.size - 1))
         clock := now.toMillisecondsSinceUnixEpoch.toInt }

end DatanodeLedger.CommandLine

open DatanodeLedger in
def main (args : List String) : IO UInt32 := do
  let outcome := CommandLine.run (← CommandLine.surroundings args) args
  IO.print outcome.output
  IO.eprint outcome.errors
  pure outcome.exit.toUInt32
