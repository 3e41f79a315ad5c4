import Archetype.Artifact.CompiledScript
import Archetype.CommandLine.Options
import Archetype.CommandLine.ScriptPath
import Archetype.Generation.Run
import Archetype.Input.Interactive
import Archetype.Library.Directory
import Archetype.Model.Json
import Archetype.Scope.Display
import Archetype.Script.Display

/-!
One run of the command line, as a function of what is known of the outside: the arguments, what
reading and writing files gave, and the lines typed so far. It either finishes or says what it
needs next; whoever runs it finds that out and starts again.
-/

namespace Archetype.CommandLine

structure Session where
  arguments : List String
  readings : List (String × Except FileFailure String) := []
  writings : List (String × Except FileFailure PUnit) := []
  lines : List String := []
  /-- Are these all the lines there are? -/
  closed : Bool := false
  /-- How many invocations may be nested. -/
  limit : Nat := 1000
  /-- The first construction number. -/
  next : NodeId := ⟨0⟩

/-- Something that a run needs: what a file says, a file written, a line typed, or a higher limit on
nested invocations. -/
inductive Query where
  | read (path : String)
  | write (path : String) (bytes : List UInt8)
  | line
  | limit

structure Console where
  stdout : String := ""
  stderr : String := ""
  lines : List String := []
  /-- Was a line asked for when none was left? -/
  starved : Bool := false

/-- How a run ends: with an exit code, or with a query. -/
inductive Ending where
  | exit (code : Nat)
  | query (query : Query)

abbrev Command := ExceptT Ending (StateM Console)

def print (text : String) : Command PUnit :=
  modify fun console => { console with stdout := console.stdout ++ text }

def printError (text : String) : Command PUnit :=
  modify fun console => { console with stderr := console.stderr ++ text }

def fail (message : String) : Command α := do
  printError ("\nError: " ++ message ++ "\n")
  throw (.exit 1)

def orFail (result : Except ε α) (message : ε → String) : Command α :=
  match result with
  | .ok a => pure a
  | .error error => fail (message error)

/-- What a question looks like: the help, the options by position, then the label and the default on
the line of the answer. -/
def questionText (request : InputRequest) : String :=
  let help := match request.help with
    | some help => "  " ++ help ++ "\n"
    | none => ""
  let options := request.options.zipIdx.map fun (option, i) =>
    "  " ++ toString (i + 1) ++ ") " ++ option.label.getD option.value ++ "\n"
  let default := match request.default with
    | some value => " [default: " ++ value.text ++ "]"
    | none => ""
  help ++ "".intercalate options ++ "> " ++ request.displayLabel ++ default ++ ": "

def prompter (closed : Bool) : Prompter Console where
  ask request := do
    modify fun console => { console with stdout := console.stdout ++ questionText request }
    match (← get).lines with
    | line :: rest =>
        modify fun console => { console with lines := rest }
        return line
    | [] =>
        if !closed then modify fun console => { console with starved := true }
        throw (.prompt "standard input closed")
  reject _ invalid :=
    modify fun console => { console with
      stderr := console.stderr ++ "  Invalid answer: " ++ invalid.message ++ "\n" }

def fileText (session : Session) (path : String) : Command (Except FileFailure String) :=
  match session.readings.lookup path with
  | some reading => pure reading
  | none => throw (.query (.read path))

def fileWritten (session : Session) (path : String) (bytes : List UInt8) :
    Command (Except FileFailure PUnit) :=
  match session.writings.lookup path with
  | some writing => pure writing
  | none => throw (.query (.write path bytes))

def readConfig (session : Session) : Option String → Command RunConfig
  | none => pure {}
  | some path => do
      match ← fileText session path with
      | .error failure => fail (RunError.config (.unreadable path failure)).message
      | .ok text => orFail (RunConfig.ofText text) RunError.message

def readLibrary (session : Session) (base identity : String) : Command (Library × NodeId) :=
  let directory : Directory := { base, read := fun path => session.readings.lookup path }
  match directory.library session.readings.length [identity] session.next with
  | .ok result => pure result
  | .error path => throw (.query (.read path))

/-- The compiler switches of the configuration and the options together. -/
def compileOptions (options : Options) (config : RunConfig) : Option CompileOptions :=
  if options.compile || options.obfuscate || options.emitCompiled.isSome then
    let base := config.compile.getD {}
    some { base with obfuscate := base.obfuscate || options.obfuscate }
  else config.compile

def emitCompiled (session : Session) (library : Library) (script : Script) (next : NodeId)
    (switches : CompileOptions) (path : String) : Command PUnit := do
  let (root, _) ← orFail (compile switches (fun _ => true) library script next)
    fun error => "Compilation failed: " ++ error.message
  let compiled : CompiledScript := ⟨script.identity, switches.obfuscate, root⟩
  match ← fileWritten session path compiled.toBytes with
  | .error failure =>
      fail ("Could not save compiled script: " ++ (ArtifactError.notCreated path failure).message)
  | .ok _ => printError ("Compiled script written to " ++ path ++ "\n")

/-- External values written as a path and a value with an equals sign between them. -/
def readDefines : List String → Command ValueTable
  | [] => pure []
  | define :: rest => do
      match Text.cutFirst? '=' define.toList with
      | none => fail ("Expected PATH=VALUE, found '" ++ define ++ "'")
      | some (path, value) =>
          let more ← readDefines rest
          return more ++ [(.ofList (Text.trimmed path), .string (.ofList value))]

def resolver (session : Session) (interactive : Bool) : Resolver Console :=
  if interactive then
    Resolver.interactive (prompter session.closed) (session.lines.length + 1)
  else Resolver.batch

/-- Runs the generator; it prints questions while it runs. -/
def generate (session : Session) (generator : Generator) (interactive : Bool) (next : NodeId) :
    Command Report := do
  let some (result, console, _) := generator.run (resolver session interactive)
      (fun _ _ => pure ()) session.limit next (← get) PUnit.unit
    | throw (.query .limit)
  set console
  if console.starved then throw (.query .line)
  orFail result fun error => "Generation failed: " ++ error.message

def planJson (report : Report) : Json :=
  .object [
    ("model", report.model.toJson),
    ("outputs", .array (report.outputs.map fun output => .object [
      ("src", .string output.src),
      ("target", .string output.target),
      ("template", .bool output.template)]))]

def runScript (session : Session) (options : Options) (scriptPath : String) : Command PUnit := do
  let config ← readConfig session options.config
  let base := config.scriptDir.getD (ScriptFile.directory scriptPath)
  let some identity := ScriptFile.identity? scriptPath | fail "Script path has no file name"
  let (library, next) ← readLibrary session base identity
  let script ← orFail (library.load identity) fun error =>
    "Failed to load script: " ++ error.message
  let switches := compileOptions options config
  match options.emitCompiled, switches with
  | some path, some switches => emitCompiled session library script next switches path
  | _, _ => pure ()
  let generator : Generator := { script, library }
  let generator ← orFail (generator.configure config) RunError.message
  let defines ← readDefines options.defines
  let generator := { generator with
    externals := defines ++ generator.externals
    options := switches <|> generator.options }
  let report ← generate session generator (options.interactive || config.interactive) next
  if options.printAst then printError (report.root.display ++ "\n")
  if options.printScope then printError (report.scope.display ++ "\n")
  print ((planJson report).pretty ++ "\n")

def perform (session : Session) : Command PUnit :=
  match Request.ofArguments session.arguments with
  | .help => print help
  | .version => print "archetype 0.1.0\n"
  | .misuse => do
      printError (usage ++ "\n\nFor more information, try '--help'.\n")
      throw (.exit 2)
  | .run options scriptPath => runScript session options scriptPath

/-- A run as far as what is known takes it: how it ends, and what it printed. -/
def run (session : Session) : Ending × Console :=
  let (result, console) := perform session { lines := session.lines }
  match result with
  | .ok _ => (.exit 0, console)
  | .error ending => (ending, console)

end Archetype.CommandLine
