/-
  Daybook/CommandLine/HelpPage.lean
  =================================
  **Help pages.**  A page says what it is about, how the command is written, and
  then lists commands, files and options, each list in two columns.
-/
import Daybook.CommandLine.Option

namespace Daybook.CommandLine

/-! ### Lists in two columns -/

/-- A list: its heading, and names with descriptions. -/
structure HelpList where
  heading : String
  rows : List (String × String)

def HelpList.width (list : HelpList) : Nat :=
  (list.rows.map fun row => row.1.length).foldl max 0

/-- The list as text: two spaces in front of each name, and at least two after it. -/
def HelpList.text (list : HelpList) : String :=
  let rows := list.rows.map fun (name, description) =>
    let gap := String.ofList (List.replicate (list.width - name.length + 2) ' ')
    "  " ++ name ++ gap ++ description ++ "\n"
  list.heading ++ ":\n" ++ String.join rows

/-! ### Pages -/

namespace Key

/-- An option as lists name it: its letter or the room for one, its long name, its value. -/
def label (key : Key) : String :=
  let letter := match key.letter? with
    | some c => String.ofList ['-', c, ',', ' ']
    | none => "    "
  letter ++ "--" ++ key.long ++
    if key.takesValue then " <" ++ key.long.toUpper ++ ">" else ""

end Key

namespace Topic

def about : Topic → String
  | program => "Daily activity log converter CLI"
  | convert => "Convert log files into daily records"
  | validate => "Validate daily records from a JSON file"
  | rules => "Print the effective category rules as JSON"
  | help => "Print this message or the help of the given subcommand(s)"

def usage : Topic → String
  | program => "tl [OPTIONS] [COMMAND]"
  | convert => "tl convert [OPTIONS] <FILES>..."
  | validate => "tl validate [OPTIONS] <FILE>"
  | rules => "tl rules [OPTIONS]"
  | help => "tl help [COMMAND]..."

def arguments : Topic → List (String × String)
  | convert => [("<FILES>...", "Log files to convert")]
  | validate => [("<FILE>", "JSON array of daily records")]
  | help => [("[COMMAND]...", "Print help for the subcommand(s)")]
  | program | rules => []

/-- The lists of a page, those that are empty left out. -/
def lists (topic : Topic) : List HelpList :=
  [{ heading := "Commands"
     rows :=
      if topic = program then commands.map fun command => (command.name, command.about) else [] },
   { heading := "Arguments", rows := topic.arguments },
   { heading := "Options", rows := topic.keys.map fun key => (key.label, key.description) }].filter
    fun list => !list.rows.isEmpty

def page (topic : Topic) : String :=
  topic.about ++ "\n\nUsage: " ++ topic.usage ++ "\n" ++
    String.join (topic.lists.map fun list => "\n" ++ list.text)

end Topic

def versionText : String := "tl 0.1.0\n"

end Daybook.CommandLine
