import DatanodeLedger.CommandLine.Options

/-! The help of the program. Terms and their explanations stand in two columns. -/
namespace DatanodeLedger.CommandLine

/-- What help is asked for. -/
inductive Topic where
  | program
  | verb (verb : Verb)
  | help
  deriving DecidableEq, Repr

private def columns (rows : List (String × String)) : String :=
  let width := (rows.map fun row => row.1.length).foldl max 0
  String.join (rows.map fun (term, explanation) =>
    "  " ++ term ++ String.ofList (List.replicate (width - term.length) ' ') ++ "  " ++ explanation
      ++ "\n")

private def flagRow (f : Flag) : String × String :=
  ("    --" ++ f.name ++ " <" ++ String.ofList (f.name.toList.map Char.toUpper) ++ ">",
   f.help ++ match f.standard with
     | some value => " [default: " ++ value ++ "]"
     | none => "")

private def helpRow : String × String := ("-h, --help", "Print help")

private def helpAbout : String := "Print this message or the help of the given subcommand(s)"

private def page (about usage : String) (sections : List (String × List (String × String))) :
    String :=
  about ++ "\n\nUsage: " ++ program ++ " " ++ usage ++ "\n"
    ++ String.join (sections.map fun (title, rows) => "\n" ++ title ++ ":\n" ++ columns rows)

def Topic.page : Topic → String
  | .program =>
    CommandLine.page about "[OPTIONS] <COMMAND>"
      [("Commands", Verb.all.map (fun v => (v.name, v.about)) ++ [("help", helpAbout)]),
       ("Options", [flagRow config, helpRow, ("-V, --version", "Print version")])]
  | .verb v =>
    CommandLine.page v.about (v.name ++ " [OPTIONS]")
      [("Options", v.flags.map flagRow ++ [helpRow])]
  | .help =>
    CommandLine.page helpAbout "help [COMMAND]..."
      [("Arguments", [("[COMMAND]...", "Print help for the subcommand(s)")])]

end DatanodeLedger.CommandLine
