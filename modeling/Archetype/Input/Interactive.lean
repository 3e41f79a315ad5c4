import Archetype.Input.Resolver
import Archetype.Value.Reading

/-!
Resolving inputs by asking until an answer is acceptable. An empty answer keeps the default or
skips an optional input; an option may be given by its value or by its position, counted from one.
-/

namespace Archetype

inductive InvalidAnswer where
  | valueRequired
  | notYesOrNo
  | unknownOption (answer : String)
  deriving DecidableEq

def InvalidAnswer.message : InvalidAnswer → String
  | .valueRequired => "a value is required"
  | .notYesOrNo => "answer yes or no"
  | .unknownOption answer => "'" ++ answer ++ "' is not a valid option"

/-- Someone who answers questions: `ask` shows a request and gives the raw answer, and `reject`
says why an answer was not accepted. -/
structure Prompter (π : Type) where
  ask : InputRequest → Bounded π String
  reject : InputRequest → InvalidAnswer → Bounded π Unit

namespace InputRequest

/-- The option of that value, or else at that position. -/
def select (request : InputRequest) (answer : List Char) : Except InvalidAnswer String :=
  if request.hasOption (.ofList answer) then .ok (.ofList answer)
  else
    match Text.readPosition? answer with
    | some (i + 1) =>
        match request.options[i]? with
        | some option => .ok option.value
        | none => .error (.unknownOption (.ofList answer))
    | _ => .error (.unknownOption (.ofList answer))

def selectAll (request : InputRequest) (answer : List Char) : Except InvalidAnswer (List String) :=
  (((Text.fields ',' answer).map Text.trimmed).filter (· ≠ [])).mapM request.select

def readAnswer (request : InputRequest) (answer : List Char) : Except InvalidAnswer Resolution :=
  if answer = [] then
    match request.unattended with
    | .unresolved => .error .valueRequired
    | resolution => .ok resolution
  else
    match request.kind with
    | .inputBoolean =>
        match Value.readTruth? (.ofList answer) with
        | some b => .ok (.value (.bool b))
        | none => .error .notYesOrNo
    | .inputEnum => (request.select answer).map fun s => .value (.string s)
    | .inputList => (request.selectAll answer).map fun items => .value (.list items)
    | _ => .ok (.value (.string (.ofList answer)))

end InputRequest

/-- Asks until an answer is acceptable, at most so many times. -/
def Prompter.resolve (prompter : Prompter π) (request : InputRequest) :
    Nat → Bounded π Resolution
  | 0 => Bounded.outOfBounds
  | attempts + 1 => do
      let answer ← prompter.ask request
      match request.readAnswer (Text.trimmed answer.toList) with
      | .ok resolution => pure resolution
      | .error invalid => do
          prompter.reject request invalid
          prompter.resolve request attempts

def Resolver.interactive (prompter : Prompter π) (attempts : Nat) : Resolver π :=
  fun request _ => prompter.resolve request attempts

end Archetype
