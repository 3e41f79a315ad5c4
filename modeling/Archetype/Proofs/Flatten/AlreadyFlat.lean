import Archetype.Proofs.Flatten.DeadNodes
import Archetype.Proofs.Flatten.Recompiling

/-!
Scripts that are flat as they are written: without invocations and methods, and without conditions
and blocks that flattening would simplify. They are finished trees, so compiling one makes the same
tree again, whatever the library holds.
-/

namespace Archetype

/-- A node that leaves nothing to flatten: it is no invocation and no method, something is below it
if it is a step or a container, and if it is a condition, its expression is folded and undecided. -/
structure Node.AlreadyFlat (node : Node) : Prop where
  kind : node.kind ∉ [.invokeSource, .invokeCall, .method]
  filled : node.kind = .step ∨ node.declaration.isContainer = true → node.children ≠ []
  condition : node.kind = .condition → ∀ e ∈ node.expression,
    e.fold = e ∧ ∀ b, e ≠ .literal (.bool b)

namespace Node

instance (node : Node) : Decidable node.AlreadyFlat :=
  decidable_of_iff
    (node.kind ∉ [.invokeSource, .invokeCall, .method] ∧
      (node.kind = .step ∨ node.declaration.isContainer = true → node.children ≠ []) ∧
      (node.kind = .condition → ∀ e ∈ node.expression,
        e.fold = e ∧ ∀ b, e ≠ .literal (.bool b)))
    ⟨fun ⟨kind, filled, condition⟩ => ⟨kind, filled, condition⟩,
      fun ⟨kind, filled, condition⟩ => ⟨kind, filled, condition⟩⟩

namespace AlreadyFlat

variable {node : Node} (flat : node.AlreadyFlat)
include flat

theorem not_source : node.kind ≠ .invokeSource := fun kind => flat.kind (by simp [kind])

theorem not_call : node.kind ≠ .invokeCall := fun kind => flat.kind (by simp [kind])

theorem not_method : node.kind ≠ .method := fun kind => flat.kind (by simp [kind])

theorem steady (checked : node.Checked) : node.Steady where
  checked := checked
  flat := ⟨flat.not_method, flat.not_source⟩
  call kind := absurd kind flat.not_call
  condition kind := by
    cases expression : node.expression with
    | none => simp [constant?, expression, Rebuild.foldedDeclaration]
    | some e =>
        obtain ⟨folded, undecided⟩ := flat.condition kind e expression
        refine ⟨?_, by rw [Rebuild.foldedDeclaration, if_pos folded]⟩
        rw [constant?, expression, Option.bind_some, Expression.constant?, folded]
        split
        · next b => exact absurd rfl (undecided b)
        · rfl

theorem alive (checked : node.Checked) (live : List String) : node.isDead live = false := by
  rw [Bool.eq_false_iff]
  intro dead
  rcases (isDead_iff checked live).1 dead with ⟨step | method | container, empty⟩ | ⟨call, -⟩
  · exact flat.filled (.inl step) empty
  · exact flat.not_method method
  · exact flat.filled (.inr container) empty
  · exact flat.not_call call

end AlreadyFlat

end Node

theorem Discovers.of_uncalled {seen : List String} : ∀ {nodes : List Node},
    (∀ node ∈ Node.preorderAll nodes, node.kind ≠ .invokeCall) → Discovers seen nodes []
  | [], _ => .nil
  | ⟨_, _, _, _⟩ :: _, uncalled =>
      have ⟨here, below, later⟩ := Node.forall_preorderAll_cons.1 uncalled
      .other here (of_uncalled below) (of_uncalled later)

variable {root : Node}

theorem Node.methods_of_flat (flat : ∀ node ∈ preorderAll root.children, node.AlreadyFlat) :
    root.methods = [] :=
  List.filter_eq_nil_iff.2 fun child member method =>
    (flat child (subset_preorderAll _ member)).not_method (of_decide_eq_true method)

theorem Node.body_of_flat (flat : ∀ node ∈ preorderAll root.children, node.AlreadyFlat) :
    root.body = root.children :=
  List.filter_eq_self.2 fun child member =>
    decide_eq_true (flat child (subset_preorderAll _ member)).not_method

theorem Node.finished_of_flat (rooted : root.kind = .script) (built : root.Built)
    (flat : ∀ node ∈ preorderAll root.children, node.AlreadyFlat) : root.Finished := by
  have methods := methods_of_flat flat
  have body := body_of_flat flat
  have below : ∀ node ∈ preorderAll root.children, node.Checked := fun node member =>
    built node (mem_preorder.2 (.inr member))
  have other : ∀ node ∈ root.preorder, node.kind ∉ [.invokeSource, .invokeCall, .method] := by
    intro node member
    rcases mem_preorder.1 member with rfl | member
    · rw [rooted]
      decide
    · exact (flat node member).kind
  have steady : ∀ node ∈ preorderAll root.body, node.Steady := fun node member =>
    (flat node (body ▸ member)).steady (below node (body ▸ member))
  constructor
  case closed => exact {
    script := rooted
    unsourced := fun node member kind => other node member (by simp [kind])
    leading := ⟨root.children, by rw [methods, List.nil_append]⟩
    nowhere := fun child inside node member =>
      (flat node (preorderAll_subset inside member)).not_method
    named := by simp [methods]
    distinct := by simp [methods]
    filled := by simp [methods]
    answered := fun node member kind => absurd (by simp [kind]) (other node member) }
  case clean => exact fun node member => (flat node member).alive (below node member) _
  case checked => exact built.check
  case methods => simp [methods]
  case body => exact steady
  case ordered =>
    rw [methods, body]
    exact .of_uncalled fun node member => (flat node member).not_call
  case settled => exact ⟨[], .nil, .nil, by simp [methods]⟩

/-- A built script in which nothing is left to flatten compiles to itself, up to construction
numbers, whether or not bodies may take the place of their invocations. -/
theorem compiling_flat_script_changes_nothing (library : Library) {script : Script}
    (rooted : script.root.kind = .script) (built : script.root.Built)
    (flat : ∀ node ∈ script.root.preorder, node.AlreadyFlat) (inline : Bool) (next : NodeId) :
    ∃ tree last, compile { obfuscate := false, inlineSingleUse := inline } (fun _ => true) library
      script next = .ok (tree, last) ∧ tree.same script.root = true := by
  have below : ∀ node ∈ Node.preorderAll script.root.children, node.AlreadyFlat :=
    fun node member => flat node (Node.mem_preorder.2 (.inr member))
  have finished := Node.finished_of_flat rooted built below
  have keeps : script.root.KeepsCalls := by
    intro _ _ _ _ method declared
    rw [Node.methods_of_flat below] at declared
    cases declared
  obtain ⟨table, scanned, rescanned⟩ := CallTable.ofScript_rescanned finished library
  obtain ⟨children, between, rebuilt, same⟩ :=
    Rebuild.script_repeats finished rescanned (fun _ => keeps) next
  obtain ⟨tree, last, finishes, twins⟩ := finished.finishTree_renumbered
    (show ({ obfuscate := false, inlineSingleUse := inline } : CompileOptions).obfuscate = false
      from rfl) same between
  refine ⟨tree, last, compile_eq_ok.2 ⟨table, children, between, scanned, rebuilt, finishes⟩, ?_⟩
  have alike := twins.sameAll
  rwa [Node.sameAll, Node.sameAll, Bool.and_true] at alike

theorem eq_ok_of_toOption {ε α : Type} {x : Except ε α} {a : α} (found : x.toOption = some a) :
    x = .ok a := by
  cases x with
  | error _ => cases found
  | ok _ => exact congrArg _ (Option.some.inj found)

/-- A script with a step around a choice, a condition that asks about the choice, and a group of
bindings. -/
def choosingScript : Script where
  identity := "c"
  root := .bare 20 .script []
    [.bare 10 .step [("name", .string "s")]
      [.bare 9 .inputEnum [("name", .string "lang")]
        [.bare 7 .option [("value", .string "java")] [],
          .bare 8 .option [("value", .string "kotlin")] []]],
      { id := ⟨12⟩
        declaration := { kind := .condition
                         attributes := .ofList [("expression", .string "$\x7blang\x7d == 'java'")] }
        expression := some (.compare .equal (.var "lang") (.literal (.string "java")))
        children := [.bare 11 .var [("name", .string "jdk"), ("value", .string "21")] []] },
      .bare 14 .preset []
        [.bare 13 .preset [("name", .string "x"), ("value", .string "1")] []],
      .bare 15 .output [("src", .string "pom.tpl"), ("target", .string "pom.xml")] []]

theorem compiling_choosing_script_changes_nothing :
    (∀ node ∈ choosingScript.root.preorder, node.Checked ∧ node.AlreadyFlat) ∧ ∃ tree last,
      compile {} (fun _ => true) (.ofScripts []) choosingScript ⟨30⟩ = .ok (tree, last) ∧
        tree.same choosingScript.root = true := by
  have passes : ∀ node ∈ choosingScript.root.preorder,
      (node.declaration.check node.children).toOption = some node.expression := by
    decide +kernel
  have checked : ∀ node ∈ choosingScript.root.preorder, node.Checked := fun node member =>
    eq_ok_of_toOption (passes node member)
  have flat : ∀ node ∈ choosingScript.root.preorder, node.AlreadyFlat := by decide +kernel
  exact ⟨fun node member => ⟨checked node member, flat node member⟩,
    compiling_flat_script_changes_nothing (.ofScripts []) rfl checked flat true ⟨30⟩⟩

end Archetype
