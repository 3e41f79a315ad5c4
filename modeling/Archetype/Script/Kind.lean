import Archetype.Value

/-!
The kinds of script nodes, and the kinds of scopes that they open while a script is walked.
-/

namespace Archetype

inductive NodeKind where
  | script
  | step
  | inputText
  | inputBoolean
  | inputEnum
  | inputList
  | option
  | preset
  | var
  | condition
  | invokeSource
  | invokeCall
  | method
  | modelValue
  | modelList
  | modelMap
  | output
  deriving DecidableEq

inductive FrameKind where
  | root
  | step
  | input
  | invocation
  | value
  deriving DecidableEq

namespace NodeKind

def all : List NodeKind :=
  [.script, .step, .inputText, .inputBoolean, .inputEnum, .inputList, .option, .preset, .var,
   .condition, .invokeSource, .invokeCall, .method, .modelValue, .modelList, .modelMap, .output]

theorem mem_all (kind : NodeKind) : kind ∈ all := by
  cases kind <;> decide

/-- The name of a kind in script documents. -/
def name : NodeKind → String
  | .script => "script"
  | .step => "step"
  | .inputText => "input_text"
  | .inputBoolean => "input_boolean"
  | .inputEnum => "input_enum"
  | .inputList => "input_list"
  | .option => "option"
  | .preset => "preset"
  | .var => "variable"
  | .condition => "condition"
  | .invokeSource => "invoke_source"
  | .invokeCall => "invoke_call"
  | .method => "method"
  | .modelValue => "model_value"
  | .modelList => "model_list"
  | .modelMap => "model_map"
  | .output => "output"

/-- The name of a kind in diagnostics and printed trees. -/
def label : NodeKind → String
  | .script => "SCRIPT"
  | .step => "STEP"
  | .inputText => "INPUT_TEXT"
  | .inputBoolean => "INPUT_BOOLEAN"
  | .inputEnum => "INPUT_ENUM"
  | .inputList => "INPUT_LIST"
  | .option => "OPTION"
  | .preset => "PRESET"
  | .var => "VARIABLE"
  | .condition => "CONDITION"
  | .invokeSource => "INVOKE_SOURCE"
  | .invokeCall => "INVOKE_CALL"
  | .method => "METHOD"
  | .modelValue => "MODEL_VALUE"
  | .modelList => "MODEL_LIST"
  | .modelMap => "MODEL_MAP"
  | .output => "OUTPUT"

def ofName? (s : String) : Option NodeKind :=
  all.find? (·.name = s)

def isInput : NodeKind → Bool
  | .inputText | .inputBoolean | .inputEnum | .inputList => true
  | _ => false

/-- The type of value an input of this kind resolves to. -/
def inputType? : NodeKind → Option ValueType
  | .inputText | .inputEnum => some .string
  | .inputBoolean => some .boolean
  | .inputList => some .list
  | _ => none

/-- The scope that a node of this kind opens under its own name. The body of a method gets its
scope from the call. -/
def frame? : NodeKind → Option FrameKind
  | .step => some .step
  | .inputText | .inputBoolean | .inputEnum | .inputList => some .input
  | .method => some .invocation
  | _ => none

def isModel : NodeKind → Bool
  | .modelValue | .modelList | .modelMap => true
  | _ => false

def takesOptions : NodeKind → Bool
  | .inputEnum | .inputList => true
  | _ => false

/-- The kinds that group bindings when they have no name of their own. -/
def isBinding : NodeKind → Bool
  | .preset | .var => true
  | _ => false

/-- The kinds that pruning removes once nothing is left below them. Bindings only qualify as
groups, and invocations are judged by their target. -/
def prunableIfEmpty : NodeKind → Bool
  | .step | .inputEnum | .inputList | .preset | .var | .invokeSource | .invokeCall | .method => true
  | _ => false

end NodeKind

def FrameKind.name : FrameKind → String
  | .root => "Root"
  | .step => "Step"
  | .input => "Input"
  | .invocation => "Invocation"
  | .value => "Value"

/-- The scopes that relative lookups see through. -/
def FrameKind.isTransparent : FrameKind → Bool
  | .step | .invocation => true
  | _ => false

end Archetype
