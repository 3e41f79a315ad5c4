import Archetype.Proofs.Generation.BoundValues
import Archetype.Proofs.Walk.Entered
import Archetype.Proofs.Walk.Noting

/-!
Inputs once they are resolved. The value in effect is one that the first input of its scope accepts,
as long as no preset and no variable of that scope bound it; inputs that share a scope are resolved
once.
-/

namespace Archetype

open Visit (Gives)

/-- If a value is in effect, then no preset and no variable of the scope bound it. -/
def ScopeTree.Undeclared (tree : ScopeTree) (past : List Event) (id : ScopeId) : Prop :=
  ∀ place, (tree.node id).inEffect = some place → ¬tree.DeclaredAt past id place

theorem ScopeTree.BoundBy.takes {tree : ScopeTree} {past : List Event} (bound : tree.BoundBy past)
    {id : ScopeId} (undeclared : tree.Undeclared past id) {value : Value}
    (found : (tree.node id).value? = some value) :
    ∃ first, firstInput? (entries past) id = some first ∧ first.Takes value := by
  obtain ⟨v, effective, rfl⟩ := Option.map_eq_some_iff.1 found
  obtain ⟨place, inEffect, there⟩ := Option.bind_eq_some_iff.1 effective
  exact (bound.accounted id place v there).resolve_right (undeclared place inEffect)

namespace Inputs

variable {externals defaults : ValueTable} {resolver : Resolver ρ} {library : Library}

/-- Whenever the inputs of a script are resolved, the value in effect in the scope of an input that
was walked is one that the first input there accepts, or null for a choice, unless a preset or a
variable of that scope bound it. -/
theorem effective_value_accepted {limit : Nat} {root : Node} {s s' : ρ} {tree : ScopeTree}
    (root_built : root.Built) (library_built : ∀ script ∈ library.scripts, script.root.Built)
    (resolves : Gives (resolveInputs externals defaults resolver library limit root) ({}, s) ()
      (tree, s')) :
    (∃ trace, Walked (visitor externals defaults resolver) library (Methods.declare [] root) [root]
      ({}, s) trace (tree, s')) ∧
    ∀ trace, Walked (visitor externals defaults resolver) library (Methods.declare [] root) [root]
        ({}, s) trace (tree, s') →
      ∀ node id, (node, id) ∈ entries trace → node.kind.isInput = true →
        tree.Undeclared trace id →
        ∃ first, firstInput? (entries trace) id = some first ∧
          ∀ value, (tree.node id).value? = some value →
            first.Accepts value ∨ first.kind = .inputEnum ∧ value = .null := by
  obtain ⟨_, walked, walk, complete⟩ := Visit.gives_bind.1 resolves
  obtain ⟨_, _, scope, resolved⟩ := Visit.gives_bind.1 complete
  obtain ⟨rfl, rfl⟩ := Visit.gives_scope.1 scope
  obtain ⟨-, rfl⟩ := Visit.gives_ofExcept.1 resolved
  refine ⟨exists_walked walk, fun trace walked node id entered input undeclared => ?_⟩
  have built := walked.built root_built library_built
  have bound := boundBy_walked walked .init (fun visit member => (built visit member).check) .init
  obtain ⟨first, isFirst⟩ := exists_firstInput? entered input
  refine ⟨first, isFirst, fun value found => ?_⟩
  obtain ⟨other, isOther, takes⟩ := bound.takes undeclared found
  obtain rfl := Option.some.inj (isFirst.symm.trans isOther)
  exact takes

/-! Scripts with choices of a color. -/

def colorOption (value : String) : Node where
  id := ⟨1⟩
  declaration := { kind := .option, attributes := .ofList [("value", .string value)] }
  expression := none
  children := []

/-- A choice with one option. -/
def colorChoice (value : String) (attributes : List (String × Value)) : Node where
  id := ⟨2⟩
  declaration :=
    { kind := .inputEnum, attributes := .ofList (("name", .string "color") :: attributes) }
  expression := none
  children := [colorOption value]

def colorInput (value : String) : Node := colorChoice value [("default", .string value)]

def redBinding (kind : NodeKind) : Node where
  id := ⟨3⟩
  declaration :=
    { kind, attributes := .ofList [("name", .string "color"), ("value", .string "red")] }
  expression := none
  children := []

def colorStep (children : List Node) : Node where
  id := ⟨4⟩
  declaration := { kind := .step, attributes := .ofList [("name", .string "s")] }
  expression := none
  children := children

def colorScript (children : List Node) : Node where
  id := ⟨5⟩
  declaration := { kind := .script }
  expression := none
  children := children

abbrev WalkedAlone (externals : ValueTable) (root : Node) (trace : List Event) (tree : ScopeTree) :
    Prop :=
  Walked (visitor externals [] Resolver.batch) .empty (Methods.declare [] root) [root] ({}, ())
    trace (tree, ())

/-- The preset and the input share a scope. -/
def presetBeside : Node := colorScript [redBinding .preset, colorInput "blue"]

def colorScope : ScopeNode where
  name := "color"
  parent := some 0
  frame := .value
  variants := [⟨.preset, .string "red"⟩]
  inEffect := some 0

def presetBound : ScopeTree where
  nodes := #[{ children := [1], index := [("color", 1)] }, colorScope]

def externalBound : ScopeTree where
  nodes :=
    #[{ children := [1], index := [("color", 1)] },
      { colorScope with
        frame := .input
        variants :=
          [⟨.preset, .string "red"⟩, ⟨.default, .string "blue"⟩, ⟨.external, .string "blue"⟩]
        inEffect := some 2
        visited := true }]

/-- An external value over a preset of the same scope is checked. -/
theorem effective_value_accepted_of_external : ∃ trace,
    WalkedAlone [("color", .string "blue")] presetBeside trace externalBound ∧
      externalBound.DeclaredAt trace 1 0 ∧ externalBound.Undeclared trace 1 ∧
      (externalBound.node 1).value? = some (.string "blue") ∧
      (colorInput "blue").Accepts (.string "blue") := by
  have input : (colorInput "blue").role = .block (some ("color", .input)) := rfl
  have option : (colorOption "blue").role = .block none := rfl
  have root : presetBeside.role = .block none := rfl
  have preset : (redBinding .preset).role = .block none := rfl
  have binds : Gives
      ((visitor [("color", .string "blue")] [] Resolver.batch).enter (redBinding .preset))
      ({}, ()) () (presetBound, ()) := by
    unfold Gives
    decide +kernel
  have takes : Gives
      ((visitor [("color", .string "blue")] [] Resolver.batch).enter (colorInput "blue"))
      (presetBound.opened (some ("color", .input)), ()) ()
      ({ externalBound with frames := [1] }, ()) := by
    unfold Gives
    decide +kernel
  have walked : WalkedAlone [("color", .string "blue")] presetBeside _ externalBound :=
    .block root rfl (.block preset binds .nil rfl
      (.block input takes (.block option rfl .nil rfl .nil) rfl .nil)) rfl .nil
  have built : presetBeside.Built := by
    unfold Node.Built
    decide +kernel
  have resolves : Gives (resolveInputs [("color", .string "blue")] [] Resolver.batch .empty 1
      presetBeside) ({}, ()) () (externalBound, ()) := by
    unfold Gives
    decide +kernel
  let trace : List Event :=
    [.entered presetBeside {}, .entered (redBinding .preset) {},
      .entered (colorInput "blue") (presetBound.opened (some ("color", .input))),
      .entered (colorOption "blue") { externalBound with frames := [1] }]
  have undeclared : externalBound.Undeclared trace 1 := by
    rintro place ⟨⟩ ⟨binding, before, entered, declares, next⟩
    simp only [trace, List.mem_cons, Event.entered.injEq, List.not_mem_nil, or_false] at entered
    obtain ⟨rfl, rfl⟩ | ⟨rfl, rfl⟩ | ⟨rfl, rfl⟩ | ⟨rfl, rfl⟩ := entered
    · cases declares.binds
    -- The preset was the first to bind the scope, and the third value is in effect.
    · cases next
    · cases declares.binds
    · cases declares.binds
  have declared : externalBound.DeclaredAt trace 1 0 :=
    ⟨redBinding .preset, {}, by simp [trace], ⟨rfl, rfl, rfl, rfl⟩, rfl⟩
  have visits : entries trace = [(presetBeside, 0), (redBinding .preset, 0),
    (colorInput "blue", 1), (colorOption "blue", 1)] := rfl
  obtain ⟨first, isFirst, accepts⟩ := (effective_value_accepted built
    (fun _ member => absurd member List.not_mem_nil) resolves).2 trace walked (colorInput "blue") 1
    (by simp [visits]) rfl undeclared
  obtain rfl : colorInput "blue" = first := Option.some.inj isFirst
  refine ⟨trace, walked, declared, undeclared, rfl, ?_⟩
  exact (accepts _ rfl).resolve_right nofun

/-! Values in effect that inputs of their scope do not accept. -/

/-- The inputs of the built script are resolved, and one that was walked does not accept the value
in effect in its scope. -/
def LeavesUnaccepted (externals : ValueTable) (root : Node) : Prop :=
  root.Built ∧ ∃ tree trace node id value,
    Gives (resolveInputs externals [] Resolver.batch .empty 1 root) ({}, ()) () (tree, ()) ∧
    WalkedAlone externals root trace tree ∧ (node, id) ∈ entries trace ∧
    node.kind.isInput = true ∧ (tree.node id).value? = some value ∧ ¬node.Accepts value

def refusesSome (tree : ScopeTree) (notes : List (Node × ScopeId)) : Bool :=
  notes.any fun (node, id) => decide (node.kind = .inputEnum) &&
    (tree.node id).value?.any fun value => node.optionValues.all (value ≠ .string ·)

theorem exists_not_accepts {tree : ScopeTree} {notes : List (Node × ScopeId)}
    (refuses : refusesSome tree notes = true) :
    ∃ node id value, (node, id) ∈ notes ∧ node.kind.isInput = true ∧
      (tree.node id).value? = some value ∧ ¬node.Accepts value := by
  obtain ⟨⟨node, id⟩, member, refused⟩ := List.any_eq_true.1 refuses
  obtain ⟨kind, unlisted⟩ := Bool.and_eq_true_iff.1 refused
  have kind : node.kind = .inputEnum := of_decide_eq_true kind
  obtain ⟨value, found, unlisted⟩ := (Option.any_eq_true _ _).1 unlisted
  refine ⟨node, id, value, member, by rw [kind]; rfl, found, fun accepts => ?_⟩
  obtain ⟨s, listed, same⟩ := accepts.choice kind
  exact of_decide_eq_true (List.all_eq_true.1 unlisted s listed) same

/-- Inputs that are resolved as by a walk that notes what it enters. -/
theorem leavesUnaccepted_of_notes {externals : ValueTable} {root : Node} (built : root.Built)
    (evaluated : (walk (visitor externals [] Resolver.batch).noting .empty 1 [] root
      ({}, (), [])).any fun (walked, tree, _, notes) =>
        walked.isOk && refusesSome tree notes &&
          (resolveInputs externals [] Resolver.batch .empty 1 root ({}, ())).any
            fun (resolved, tree', _) => resolved.isOk && tree' = tree) :
    LeavesUnaccepted externals root := by
  obtain ⟨⟨walked, tree, _, notes⟩, walks, evaluated⟩ := (Option.any_eq_true _ _).1 evaluated
  simp only [Bool.and_eq_true] at evaluated
  obtain ⟨⟨done, refuses⟩, evaluated⟩ := evaluated
  obtain ⟨⟨outcome, tree', _⟩, resolves, evaluated⟩ := (Option.any_eq_true _ _).1 evaluated
  simp only [Bool.and_eq_true, decide_eq_true_eq] at evaluated
  obtain ⟨done', rfl⟩ := evaluated
  cases walked with
  | error error => cases done
  | ok =>
      cases outcome with
      | error error => cases done'
      | ok =>
          obtain ⟨trace, walked, rfl⟩ := exists_walked_noted walks
          obtain ⟨node, id, value, unaccepted⟩ := exists_not_accepts refuses
          exact ⟨built, tree', trace, node, id, value, resolves, walked, unaccepted⟩

/-- The second input of a scope is passed over; a preset and a variable in the scope of an input are
not checked, whether they come before it or after it; and null passes the check of a choice. -/
theorem unaccepted_values_in_effect :
    LeavesUnaccepted [] (colorScript
      [redBinding .preset, colorStep [colorInput "red", colorInput "blue"]]) ∧
    LeavesUnaccepted [] presetBeside ∧
    LeavesUnaccepted [] (colorScript [colorInput "blue", redBinding .preset]) ∧
    LeavesUnaccepted [] (colorScript
      [redBinding .var, colorChoice "blue" [("optional", .bool true)]]) ∧
    LeavesUnaccepted [] (colorScript [colorInput "blue", redBinding .var]) ∧
    LeavesUnaccepted [("color", .null)] (colorScript [colorInput "blue"]) := by
  refine ⟨leavesUnaccepted_of_notes ?_ (by decide +kernel),
    leavesUnaccepted_of_notes ?_ (by decide +kernel),
    leavesUnaccepted_of_notes ?_ (by decide +kernel),
    leavesUnaccepted_of_notes ?_ (by decide +kernel),
    leavesUnaccepted_of_notes ?_ (by decide +kernel),
    leavesUnaccepted_of_notes ?_ (by decide +kernel)⟩
  all_goals
    unfold Node.Built
    decide +kernel

end Inputs

end Archetype
