import TagQuery.Command.Grammar

/-! The commands of the program, and what a command line asks for. -/
namespace TagQuery.Command

/-- A command: its names, what it does, and what may be given to it. -/
structure Verb where
  name : String
  shortName : Option String := none
  about : String
  options : List Parameter := []
  operands : List Parameter := []
  deriving DecidableEq, Repr

def settingsOption : Parameter :=
  { name := "config", letter := some 'c', value := some .path,
    about := "Path to configuration file" }

def verboseOption : Parameter :=
  { name := "verbose", letter := some 'v', repeatable := true,
    about := "Verbosity level (-v, -vv, -vvv)" }

def quietOption : Parameter :=
  { name := "quiet", letter := some 'q', about := "Suppress all output except errors" }

def helpOption : Parameter :=
  { name := "help", letter := some 'h', about := "Print help" }

def versionOption : Parameter :=
  { name := "version", letter := some 'V', about := "Print version" }

def scopeOption : Parameter :=
  { name := "scope", letter := some 's', value := some .text, repeatable := true,
    about := "Directory to search in (repeatable; defaults to [scope] directories)" }

def outputOption : Parameter :=
  { name := "output", letter := some 'o', value := some .format,
    about := "Output format (text, json) [default: text]" }

/-- The number of tags that are shown where no limit is given. -/
def usualTagLimit : Nat := 20

def importVerb : Verb :=
  { name := "import"
    about := "Load tagged items from a JSON file (\"-\" for stdin)"
    options := [{ name := "replace", about := "Remove every stored item first" }]
    operands := [
      { name := "FILE", value := some .path
        about := "JSON array of \x7b\"id\", \"location\", \"tags\"\x7d records" }] }

def queryVerb : Verb :=
  { name := "query"
    shortName := some "q"
    about := "Find items matching a tag query"
    options := [
      scopeOption,
      { name := "limit", letter := some 'l', value := some .number
        about := "Maximum number of results to show (0 = all)" },
      outputOption]
    operands := [
      { name := "QUERY", value := some .text
        about := "Query, e.g. \"cat AND (dog OR bird) AND NOT outdoors\"" }] }

def parseVerb : Verb :=
  { name := "parse"
    about := "Parse a query and print its canonical form"
    operands := [{ name := "QUERY", value := some .text, about := "Query to parse" }] }

def tagsVerb : Verb :=
  { name := "tags"
    about := "List tags used in scope, most common first"
    options := [
      { name := "prefix", letter := some 'p', value := some .text
        about := "Only tags starting with this text [default: ]" },
      scopeOption,
      { name := "limit", letter := some 'l', value := some .number
        about := "Maximum number of tags to show (0 = all) [default: 20]" }] }

def statusVerb : Verb :=
  { name := "status", about := "Show database status and statistics" }

def verbs : List Verb := [importVerb, queryVerb, parseVerb, tagsVerb, statusVerb]

def verb? (name : String) : Option Verb :=
  verbs.find? fun verb => verb.name == name || verb.shortName == some name

/-- The options that may be given before a command and after it. -/
def commonOptions : List Parameter := [settingsOption, verboseOption, quietOption]

def programLevel : Level where
  options := commonOptions ++ [helpOption, versionOption]
  commands := verbs.flatMap (fun verb => verb.name :: verb.shortName.toList) ++ ["help"]

def Verb.level (verb : Verb) : Level where
  options := commonOptions ++ verb.options ++ [helpOption]
  operands := verb.operands

inductive Action where
  | load (file : Text) (replace : Bool)
  | query (text : Text) (directories : List Text) (limit : Option Nat) (format : Format)
  | parse (text : Text)
  | tags (start : Text) (directories : List Text) (limit : Nat)
  | status
  deriving DecidableEq, Repr

/-- What a command line asks for, and the file of settings that it names. -/
structure Invocation where
  settingsFile : Option Text
  action : Action
  deriving DecidableEq, Repr

inductive Topic where
  | program
  | verb (verb : Verb)
  | help
  deriving DecidableEq, Repr

/-- A command line that asks for no action. -/
inductive Refusal where
  | misuse
  | help (topic : Topic)
  | version
  deriving DecidableEq, Repr

def Refusal.ofStop (topic : Topic) : Stop → Refusal
  | .misuse => .misuse
  | .help => .help topic
  | .version => .version

def Verb.action? (verb : Verb) (given : List Given) : Option Action :=
  if verb = importVerb then
    (lastValue? given "FILE").map fun file => .load file (lastValue? given "replace").isSome
  else if verb = queryVerb then
    (lastValue? given "QUERY").map fun text =>
      .query text (values given "scope") ((lastValue? given "limit").bind number?)
        (((lastValue? given "output").bind format?).getD .text)
  else if verb = parseVerb then (lastValue? given "QUERY").map .parse
  else if verb = tagsVerb then
    some (.tags ((lastValue? given "prefix").getD []) (values given "scope")
      (((lastValue? given "limit").bind number?).getD usualTagLimit))
  else some .status

/-- What was given at a level, once everything has been read. Where no file of settings was named,
the environment may name one, with the same rule for its form. -/
def complete (environment : Option Text) (progress : Progress) : Except Stop (List Given) :=
  match progress.settle with
  | .error stop => .error stop
  | .ok settled =>
    match lastValue? settled.given settingsOption.name, environment with
    | none, some [] => .error .misuse
    | _, _ => .ok settled.given

def topic? : List Text → Option Topic
  | [] => some .program
  | [name] =>
    if name = "help".toList then some .help else (verb? (String.ofList name)).map .verb
  | _ => none

def Verb.read (verb : Verb) (environment : Option Text) (arguments : List Text) :
    Except Refusal (List Given × Action) :=
  match verb.level.start arguments with
  | .error stop => .error (.ofStop (.verb verb) stop)
  | .ok (progress, _) =>
    match complete environment progress with
    | .error stop => .error (.ofStop (.verb verb) stop)
    | .ok given =>
      match verb.action? given with
      | none => .error .misuse
      | some action => .ok (given, action)

/-- Reads a command line. A file of settings named after the command goes before one named earlier,
and both go before one that the environment names. -/
def Invocation.read (environment : Option Text) (arguments : List Text) :
    Except Refusal Invocation :=
  match programLevel.start arguments with
  | .error stop => .error (.ofStop .program stop)
  | .ok (_, none) => .error .misuse
  | .ok (progress, some named) =>
    match verb? named.command with
    | none =>
      match topic? named.rest with
      | none => .error .misuse
      | some topic => .error (.help topic)
    | some verb =>
      match verb.read environment named.rest with
      | .error refusal => .error refusal
      | .ok (inner, action) =>
        match complete environment progress with
        | .error stop => .error (.ofStop .program stop)
        | .ok outer =>
          let chosen :=
            (lastValue? inner settingsOption.name).or (lastValue? outer settingsOption.name)
          .ok ⟨chosen.or environment, action⟩

example : (Invocation.read none (["-vc", "x.toml", "q", "-l5", "--scope=/a", "a b", "-s", "b"].map
    String.toList)).toOption = some ⟨some "x.toml".toList,
      .query "a b".toList ["/a".toList, "b".toList] (some 5) .text⟩ := by decide +kernel
example : (Invocation.read none (["parse", "-q", "--", "-a"].map String.toList)).toOption =
    some ⟨none, .parse "-a".toList⟩ := by decide +kernel

end TagQuery.Command
