/-
  Daybook/CommandLine/Option.lean
  ===============================
  **The options of the program.**  Each option has a long name and perhaps a
  letter; some take a value.  A command knows its own options and those of the
  whole program.
-/

namespace Daybook.CommandLine

/-! ### Options -/

inductive Key where
  | verbose
  | config
  | json
  | report
  | mode
  | help
  | version
deriving DecidableEq, Repr

namespace Key

def long : Key → String
  | verbose => "verbose"
  | config => "config"
  | json => "json"
  | report => "report"
  | mode => "mode"
  | help => "help"
  | version => "version"

def letter? : Key → Option Char
  | verbose => some 'v'
  | config => some 'c'
  | help => some 'h'
  | version => some 'V'
  | json | report | mode => none

def takesValue : Key → Bool
  | config | report | mode => true
  | verbose | json | help | version => false

/-- The line of an option in a help page. -/
def description : Key → String
  | verbose => "Enable verbose output"
  | config => "Path to config file"
  | json => "Print the records as JSON grouped by month"
  | report => "Append the diagnostics report to this file"
  | mode => "Logical validation mode (none, continuity, full)"
  | help => "Print help"
  | version => "Print version"

end Key

/-! ### Commands -/

/-- What a command line can ask help about. -/
inductive Topic where
  | program
  | convert
  | validate
  | rules
  | help
deriving DecidableEq, Repr

namespace Topic

/-- The commands, in the order of the help page. -/
def commands : List Topic := [convert, validate, rules, help]

def name : Topic → String
  | program => "tl"
  | convert => "convert"
  | validate => "validate"
  | rules => "rules"
  | help => "help"

def ofName? (s : String) : Option Topic := commands.find? fun topic => topic.name == s

/-- The options that are known, in the order of the help page. -/
def keys : Topic → List Key
  | program => [.verbose, .config, .help, .version]
  | convert => [.json, .verbose, .config, .report, .mode, .help]
  | validate => [.mode, .verbose, .config, .help]
  | rules => [.verbose, .config, .help]
  | help => []

/-- How many files are named. -/
inductive Operands where
  | none
  | one
  | several
deriving DecidableEq, Repr

/-- The files that a command wants named. -/
def operands : Topic → Operands
  | convert => .several
  | validate => .one
  | program | rules | help => .none

end Topic

end Daybook.CommandLine
