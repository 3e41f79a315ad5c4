import Archetype.Text.Fields

/-!
The command line: one script path, and options before or after it. Options may be written long or
short, with their value attached or following; only definitions may repeat.
-/

namespace Archetype.CommandLine

structure Options where
  scriptPath : Option String := none
  config : Option String := none
  defines : List String := []
  interactive : Bool := false
  compile : Bool := false
  obfuscate : Bool := false
  printScope : Bool := false
  printAst : Bool := false
  emitCompiled : Option String := none
  deriving DecidableEq

inductive Request where
  | run (options : Options) (scriptPath : String)
  | help
  | version
  | misuse
  deriving DecidableEq

/-- An option: a switch, one that takes a value, or one that answers at once. -/
inductive Flag where
  | config
  | define
  | interactive
  | compile
  | obfuscate
  | printScope
  | printAst
  | emitCompiled
  | help
  | version
  deriving DecidableEq

def Flag.ofLong? : String → Option Flag
  | "config" => some .config
  | "interactive" => some .interactive
  | "compile" => some .compile
  | "obfuscate" => some .obfuscate
  | "print-scope" => some .printScope
  | "print-ast" => some .printAst
  | "emit-compiled" => some .emitCompiled
  | "help" => some .help
  | "version" => some .version
  | _ => none

def Flag.ofShort? : Char → Option Flag
  | 'c' => some .config
  | 'D' => some .define
  | 'i' => some .interactive
  | 'h' => some .help
  | 'V' => some .version
  | _ => none

def Flag.takesValue : Flag → Bool
  | .config | .define | .emitCompiled => true
  | _ => false

/-- Why reading stops before the end of the arguments. -/
inductive Stop where
  | help
  | version
  | misuse

/-- Turns a switch on. None may be given twice. -/
def Options.turnOn (options : Options) : Flag → Except Stop Options
  | .interactive =>
      if options.interactive then .error .misuse else .ok { options with interactive := true }
  | .compile => if options.compile then .error .misuse else .ok { options with compile := true }
  | .obfuscate =>
      if options.obfuscate then .error .misuse else .ok { options with obfuscate := true }
  | .printScope =>
      if options.printScope then .error .misuse else .ok { options with printScope := true }
  | .printAst => if options.printAst then .error .misuse else .ok { options with printAst := true }
  | .help => .error .help
  | .version => .error .version
  | .config | .define | .emitCompiled => .error .misuse

/-- Gives an option its value. Only definitions may be given twice. -/
def Options.give (options : Options) (value : String) : Flag → Except Stop Options
  | .config =>
      if options.config.isSome then .error .misuse else .ok { options with config := some value }
  | .define => .ok { options with defines := options.defines ++ [value] }
  | .emitCompiled =>
      if options.emitCompiled.isSome then .error .misuse
      else .ok { options with emitCompiled := some value }
  | _ => .error .misuse

def Options.positional (options : Options) (value : String) : Except Stop Options :=
  if options.scriptPath.isSome then .error .misuse
  else .ok { options with scriptPath := some value }

/-- What a group of short options leaves open: nothing, or the value of its last option. -/
def Options.short (options : Options) : List Char → Except Stop (Options × Option Flag)
  | [] => .ok (options, none)
  | c :: rest =>
      match Flag.ofShort? c with
      | none => .error .misuse
      | some flag =>
          if flag.takesValue then
            match rest with
            | [] => .ok (options, some flag)
            | '=' :: value => (options.give (.ofList value) flag).map (·, none)
            | value => (options.give (.ofList value) flag).map (·, none)
          else
            match options.turnOn flag with
            | .ok options => options.short rest
            | .error stop => .error stop

def Options.long (options : Options) (name : List Char) : Except Stop (Options × Option Flag) :=
  match Text.cutFirst? '=' name with
  | some (name, value) =>
      match Flag.ofLong? (.ofList name) with
      | none => .error .misuse
      | some flag => (options.give (.ofList value) flag).map (·, none)
  | none =>
      match Flag.ofLong? (.ofList name) with
      | none => .error .misuse
      | some flag =>
          if flag.takesValue then .ok (options, some flag)
          else (options.turnOn flag).map (·, none)

def isValue (argument : List Char) : Bool :=
  match argument with
  | ['-'] => true
  | '-' :: _ => false
  | _ => true

/-- Reads arguments. An option may wait for its value; after two hyphens everything is
positional. -/
def Options.read (options : Options) (waiting : Option Flag) (onlyPositional : Bool) :
    List String → Except Stop Options
  | [] => if waiting.isSome then .error .misuse else .ok options
  | argument :: rest =>
      match waiting with
      | some flag =>
          if isValue argument.toList then do
            let options ← options.give argument flag
            options.read none onlyPositional rest
          else .error .misuse
      | none =>
          if onlyPositional then do
            let options ← options.positional argument
            options.read none true rest
          else
            match argument.toList with
            | ['-', '-'] => options.read none true rest
            | '-' :: '-' :: name => do
                let (options, waiting) ← options.long name
                options.read waiting false rest
            | ['-'] => do
                let options ← options.positional argument
                options.read none false rest
            | '-' :: group => do
                let (options, waiting) ← options.short group
                options.read waiting false rest
            | _ => do
                let options ← options.positional argument
                options.read none false rest

def Request.ofArguments (arguments : List String) : Request :=
  match Options.read {} none false arguments with
  | .error .help => .help
  | .error .version => .version
  | .error .misuse => .misuse
  | .ok options =>
      match options.scriptPath with
      | some scriptPath => .run options scriptPath
      | none => .misuse

def usage : String :=
  "Usage: archetype [OPTIONS] <SCRIPT_PATH>"

def help : String := "\n".intercalate [
  "Generates a project skeleton from an archetype script",
  "",
  usage,
  "",
  "Arguments:",
  "  <SCRIPT_PATH>  Path to the main script JSON document",
  "",
  "Options:",
  "  -c, --config <CONFIG>       Path to a run configuration JSON file",
  "  -D <PATH=VALUE>             External input value, as `path=value`; may be repeated",
  "  -i, --interactive           Prompt for inputs that have no external value or preset",
  "      --compile               Flatten the call graph before running",
  "      --obfuscate             Replace method names with numeric ids (implies --compile)",
  "      --print-scope           Print the scope tree after the run",
  "      --print-ast             Print the walked script tree",
  "      --emit-compiled <FILE>  Write the compiled script to this file (implies --compile)",
  "  -h, --help                  Print help",
  "  -V, --version               Print version",
  ""]

end Archetype.CommandLine
