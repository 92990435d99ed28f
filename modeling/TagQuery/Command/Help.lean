import TagQuery.Command.Invocation

/-! The help texts, laid out from the descriptions of the commands. -/
namespace TagQuery.Command

def programName : Text := "tagscope".toList

def programVersion : Text := "0.1.0".toList

def programAbout : Text := "Command-line interface for Tagscope".toList

/-- The variable of the environment that may name a file of settings. -/
def settingsVariable : Text := "TAGSCOPE_CONFIG".toList

def helpAbout : Text := "Print this message or the help of the given subcommand(s)".toList

def Parameter.label (option : Parameter) : Text :=
  let start :=
    match option.letter with
    | none => "    ".toList
    | some letter => ['-', letter, ',', ' ']
  let ending :=
    if option.value.isSome then " <".toList ++ option.name.toList.map Char.toUpper ++ ['>']
    else if option.repeatable then "...".toList
    else []
  start ++ "--".toList ++ option.name.toList ++ ending

/-- What an option does, and for the file of settings the variable that may name it. -/
def Parameter.explanation (environment : Option Text) (option : Parameter) : Text :=
  option.about.toList ++
    if option = settingsOption then
      " [env: ".toList ++ settingsVariable ++ ['='] ++ environment.getD [] ++ [']']
    else []

/-- The key by which options of one rank are ordered. -/
def Parameter.rankKey (option : Parameter) : Text :=
  match option.letter with
  | some letter => [letter, '0']
  | none => option.name.toList

/-- The options of a command in the order in which help lists them: by their rank among the options
of the command or of the program, and those of one rank by their keys. -/
def ranked : List Parameter → List Parameter → List Parameter
  | [], own => own
  | common, [] => common
  | c :: common, o :: own =>
    if (compare c.rankKey o.rankKey).isLE then c :: o :: ranked common own
    else o :: c :: ranked common own

def table (rows : List (Text × Text)) : Text :=
  let width := (rows.map fun row => row.1.length).foldl max 0
  rows.flatMap fun (label, about) =>
    "  ".toList ++ label ++ List.replicate (width - label.length) ' ' ++ "  ".toList ++ about ++
      ['\n']

def part (heading : String) (rows : List (Text × Text)) : Text :=
  if rows.isEmpty then [] else ['\n'] ++ heading.toList ++ ":\n".toList ++ table rows

def usage (words : List Text) : Text :=
  "\nUsage: ".toList ++ Text.joinWith [' '] (programName :: words) ++ ['\n']

def optionRows (environment : Option Text) (options : List Parameter) : List (Text × Text) :=
  options.map fun option => (option.label, option.explanation environment)

def operandLabel (operand : Parameter) : Text := ['<'] ++ operand.name.toList ++ ['>']

def commandRows : List (Text × Text) :=
  verbs.map (fun verb => (verb.name.toList, verb.about.toList)) ++ [("help".toList, helpAbout)]

def Topic.text (environment : Option Text) : Topic → Text
  | .program =>
    programAbout ++ ['\n'] ++ usage ["[OPTIONS]".toList, "<COMMAND>".toList] ++
      part "Commands" commandRows ++
      part "Options" (optionRows environment (commonOptions ++ [helpOption, versionOption]))
  | .verb described =>
    described.about.toList ++ ['\n'] ++
      usage ([described.name.toList, "[OPTIONS]".toList] ++ described.operands.map operandLabel) ++
      part "Arguments" (described.operands.map fun o => (operandLabel o, o.about.toList)) ++
      part "Options"
        (optionRows environment (ranked commonOptions described.options ++ [helpOption]))
  | .help =>
    helpAbout ++ ['\n'] ++ usage ["help".toList, "[COMMAND]".toList] ++
      part "Commands" commandRows

end TagQuery.Command
