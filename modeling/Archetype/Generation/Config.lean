import Archetype.Flatten.Compile
import Archetype.Generation.Inputs
import Archetype.Json.Reading

/-!
Run configurations: caller values, defaults and switches, written as a JSON object. Every field may
be left out.
-/

namespace Archetype

structure RunConfig where
  externals : List (String × Json) := []
  defaults : List (String × Json) := []
  interactive : Bool := false
  compile : Option CompileOptions := none
  /-- The directory that sourced scripts are loaded from. -/
  scriptDir : Option String := none

namespace RunConfig

open Json (Raw Fault)

def readOptions (depth : Nat) (tree : Raw) : Except Fault CompileOptions := do
  let _ ← Raw.enter depth
  match ← tree.fields ["obfuscate", "inline_single_use"] with
  | [obfuscate, inlineSingleUse] => do
      let obfuscate ← Raw.field (·.truth) (.ok false) obfuscate
      let inlineSingleUse ← Raw.field (·.truth) (.ok true) inlineSingleUse
      .ok { obfuscate, inlineSingleUse }
  | _ => .error (.expected "a record")

def read (depth : Nat) (tree : Raw) : Except Fault RunConfig := do
  let depth ← Raw.enter depth
  match ← tree.fields ["externals", "defaults", "interactive", "compile", "script_dir"] with
  | [externals, defaults, interactive, compile, scriptDir] => do
      let externals ← Raw.field (·.table depth) (.ok []) externals
      let defaults ← Raw.field (·.table depth) (.ok []) defaults
      let interactive ← Raw.field (·.truth) (.ok false) interactive
      let compile ← Raw.field (·.nullable (readOptions depth)) (.ok none) compile
      let scriptDir ← Raw.field (·.nullable (·.text)) (.ok none) scriptDir
      .ok { externals, defaults, interactive, compile, scriptDir }
  | _ => .error (.expected "a record")

def ofText (text : String) : Except RunError RunConfig :=
  match Raw.ofText text >>= read Raw.nestingLimit with
  | .ok config => .ok config
  | .error fault => .error (.config (.malformed fault))

def values (table : List (String × Json)) : Except RunError ValueTable :=
  table.mapM fun (path, raw) =>
    match Value.ofJson? raw with
    | some value => .ok (path, value)
    | none => .error (.config (.unsupportedValue path raw.compact))

def externalValues (config : RunConfig) : Except RunError ValueTable := values config.externals

def defaultValues (config : RunConfig) : Except RunError ValueTable := values config.defaults

end RunConfig

end Archetype
