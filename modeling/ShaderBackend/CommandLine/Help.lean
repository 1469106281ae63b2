import ShaderBackend.Text.Basic

/-!
What the program says about itself. A help text has the purpose, the form of the arguments, and a
table for each kind of them, whose descriptions start in one column.
-/

namespace ShaderBackend.CommandLine

/-- What help is asked about. -/
inductive HelpTopic where
  | program
  | build
  | inspect
  | help
  deriving DecidableEq, Repr

/-- A row of a table: how a thing is written, and what it is for. -/
structure HelpRow where
  form : Text
  purpose : Text

/-- A row with its purpose two blanks after the longest form. -/
def HelpRow.line (width : Nat) (r : HelpRow) : Text :=
  "  " ++ r.form ++ List.replicate (width + 2 - r.form.length) ' ' ++ r.purpose

structure HelpTable where
  title : Text
  rows : List HelpRow

def HelpTable.lines (t : HelpTable) : List Text :=
  let width := (t.rows.map (·.form.length)).foldl max 0
  [] :: (t.title ++ ":") :: t.rows.map (·.line width)

namespace HelpTopic

def ofCommand? (command : Text) : Option HelpTopic :=
  if command = "build" then some build
  else if command = "inspect" then some inspect
  else if command = "help" then some help
  else none

def purpose : HelpTopic → Text
  | program => "Shader back-end: slot assignment, code finishing and DKSH modules"
  | build => "Compile a TGSI program into a DKSH module"
  | inspect => "Print the contents of a DKSH module"
  | help => "Print this message or the help of the given subcommand(s)"

def usage : HelpTopic → Text
  | program => "dkshc <COMMAND>"
  | build => "dkshc build [OPTIONS] --stage <STAGE> <INPUT>"
  | inspect => "dkshc inspect [OPTIONS] <INPUT>"
  | help => "dkshc help [COMMAND]..."

def helpRow : HelpRow :=
  ⟨"-h, --help", "Print help"⟩

def tables : HelpTopic → List HelpTable
  | program =>
    [⟨"Commands",
        [⟨"build", purpose build⟩, ⟨"inspect", purpose inspect⟩, ⟨"help", purpose help⟩]⟩,
      ⟨"Options", [helpRow, ⟨"-V, --version", "Print version"⟩]⟩]
  | build =>
    [⟨"Arguments", [⟨"<INPUT>", "Input TGSI text file"⟩]⟩,
      ⟨"Options",
        [⟨"    --stage <STAGE>", "Pipeline stage (vert, tess_ctrl, tess_eval, geom, frag, comp)"⟩,
          ⟨"-o, --output <OUTPUT>", "Output module (default: <input>.dksh)"⟩,
          ⟨"    --tgsi <PATH>", "Write the canonical TGSI token dump to this file"⟩,
          ⟨"    --raw <PATH>",
            "Write the unpadded code returned by the code generator to this file"⟩,
          ⟨"    --target <TARGET>", "GPU target (default: gm20b) [default: gm20b]"⟩,
          ⟨"-O <OPT_LEVEL>", "Optimization level passed to the code generator [default: 3]"⟩,
          ⟨"    --codegen <CMD>", "Code generator command line (overrides the target's)"⟩,
          ⟨"    --slots", "Print the assigned varying slots"⟩,
          helpRow]⟩]
  | inspect =>
    [⟨"Arguments", [⟨"<INPUT>", "DKSH module to inspect"⟩]⟩,
      ⟨"Options", [⟨"    --full", "Show the full content hash"⟩, helpRow]⟩]
  | help => [⟨"Arguments", [⟨"[COMMAND]...", "Print help for the subcommand(s)"⟩]⟩]

def text (topic : HelpTopic) : Text :=
  Text.unlines (topic.purpose :: [] :: ("Usage: " ++ topic.usage) ::
    topic.tables.flatMap HelpTable.lines)

end HelpTopic

end ShaderBackend.CommandLine
