import Archetype.Generation.Run
import Archetype.Proofs.Flatten.Closed
import Archetype.Proofs.Flatten.Sites

/-!
Runs over a script and over the tree it is flattened into. Without inlining and without constant
conditions to fold, both succeed or both fail, and on success they differ in nothing but the names
of the frames that invocations are walked in.
-/

namespace Archetype

def CompileOptions.plain : CompileOptions := { obfuscate := false, inlineSingleUse := false }

def unpruned (library : Library) (script : Script) : Fresh CompileError Node := fun next => do
  let table ← CallTable.ofScript library (fun _ => true) false script
  let (children, next) ← Rebuild.script table (fun _ => true) false script next
  (script.root.declaration.build children next).mapError .construction

/-- What is asked of a script and of the scripts that it can source. -/
structure Flattenable (script : Script) (scripts : List Script) : Prop where
  /-- The script has a root of its own kind. -/
  root : script.root.kind = .script
  /-- Every node passed the checks that building it makes. -/
  built : ∀ s ∈ script :: scripts, ∀ node ∈ s.root.preorder,
    node.declaration.check node.children = .ok node.expression
  /-- Distinct scripts have distinct identities. -/
  identities : ∀ s ∈ script :: scripts, ∀ t ∈ script :: scripts, s.identity = t.identity → s = t
  /-- The methods of a script have distinct names. -/
  methods : ∀ s ∈ script :: scripts, (s.root.methods.filterMap (·.name?)).Nodup
  /-- Invocations have construction numbers of their own. -/
  ids : DistinctIds (script :: scripts)
  /-- There is no number sign in a name or in a path that is looked up. -/
  unmarked : ∀ s ∈ script :: scripts, ∀ node ∈ s.root.preorder, node.Plain
  /-- Folding changes no condition. -/
  unfolded : ∀ s ∈ script :: scripts, ∀ node ∈ s.root.preorder,
    ∀ e, node.expression = some e → e.fold = e

/-- The same scopes in the same order, which may differ in the names of invocations. -/
structure ScopeTree.SameButInvocations (a b : ScopeTree) : Prop where
  frames : b.frames = a.frames
  size : b.size = a.size
  node : ∀ id, b.node id = { a.node id with name := (b.node id).name, index := (b.node id).index }
  name : ∀ id, (a.node id).frame ≠ .invocation → (b.node id).name = (a.node id).name
  index : ∀ id, List.Forall₂ (fun entry entry' : String × ScopeId => entry'.2 = entry.2 ∧
    ((a.node entry.2).frame ≠ .invocation → entry'.1 = entry.1)) (a.node id).index (b.node id).index

namespace Flattenable

variable {script : Script} {scripts : List Script}

theorem of_pair {other : Script} (root : script.root.kind = .script)
    (built : ∀ s ∈ [script, other], ∀ node ∈ s.root.preorder,
      node.declaration.check node.children = .ok node.expression)
    (identities : script.identity ≠ other.identity)
    (methods : ∀ s ∈ [script, other], (s.root.methods.filterMap (·.name?)).Nodup)
    (ids : ((Node.invocations script.root.children ++
      Node.invocations other.root.children).map (·.id)).Nodup)
    (unmarked : ∀ s ∈ [script, other], ∀ node ∈ s.root.preorder, node.Plain)
    (unfolded : ∀ s ∈ [script, other], ∀ node ∈ s.root.preorder,
      ∀ e ∈ node.expression, e.fold = e) : Flattenable script [other] := by
  rw [List.map_append] at ids
  obtain ⟨here, there, apart⟩ := List.nodup_append.1 ids
  have apart : ∀ node ∈ Node.invocations script.root.children,
      ∀ node' ∈ Node.invocations other.root.children, node.id ≠ node'.id :=
    fun _ member _ member' => apart _ (List.mem_map_of_mem member) _ (List.mem_map_of_mem member')
  refine ⟨root, built, fun s known t known' same => ?_, methods, ⟨?_, ?_⟩, unmarked, unfolded⟩
  · simp only [List.mem_cons, List.not_mem_nil, or_false] at known known'
    rcases known with rfl | rfl <;> rcases known' with rfl | rfl
    · rfl
    · exact absurd same identities
    · exact absurd same.symm identities
    · rfl
  · simpa using ⟨here, there⟩
  · intro s known t known' node inside node' inside' same
    simp only [List.mem_cons, List.not_mem_nil, or_false] at known known'
    rcases known with rfl | rfl <;> rcases known' with rfl | rfl
    · rfl
    · exact absurd same (apart node inside node' inside')
    · exact absurd same.symm (apart node' inside' node inside)
    · rfl

theorem regular (flattenable : Flattenable script scripts) {s : Script}
    (known : s ∈ script :: scripts) {node : Node} (member : node ∈ s.root.preorder) :
    node.Regular :=
  { flattenable.unmarked s known node member with
    check := flattenable.built s known node member
    unfolded := flattenable.unfolded s known node member }

theorem orderly (flattenable : Flattenable script scripts) : Orderly (script :: scripts) where
  regular s known node member := flattenable.regular known (by
    rw [Node.preorder_eq]
    exact List.mem_cons_of_mem _ member)
  distinct := flattenable.methods

theorem atHand (flattenable : Flattenable script scripts) :
    AtHand (.ofScripts scripts) (script :: scripts) where
  distinct := flattenable.identities
  loads src target loaded := by
    unfold Library.load Library.ofScripts at loaded
    split at loaded
    · next result found =>
        subst loaded
        obtain ⟨before, after, split, -⟩ := List.lookup_eq_some_iff.1 found
        have member : (src, Except.ok target) ∈
            scripts.map fun script => (script.identity, (.ok script : Except RunError Script)) := by
          simp only at split
          rw [split]
          simp
        obtain ⟨s, known, same⟩ := List.mem_map.1 member
        cases same
        exact List.mem_cons_of_mem _ known
    · cases loaded

end Flattenable

theorem finishTree_of_alive {options : CompileOptions} (shown : options.obfuscate = false)
    {root : Declaration} {children : List Node} {tree : Node} {next after after' : NodeId}
    (built : root.build children next = .ok (tree, after))
    (alive : Prune.node tree.liveMethods tree after = .ok (none, after')) :
    finishTree options root children next = .ok (tree, after') := by
  have pruned : tree.prune after = .ok (tree, after') := by
    rw [Node.prune, Node.preorder_eq, List.length_cons, Prune.rounds]
    exact Stateful.bind_eq_ok.2 ⟨_, _, alive, rfl⟩
  refine Stateful.bind_eq_ok.2
    ⟨tree, after, built, Stateful.bind_eq_ok.2 ⟨tree, after', pruned, ?_⟩⟩
  rw [shown]
  rfl

/-- Flattening a script gives a tree of which pruning removed nothing. -/
structure FlattensTo (library : Library) (script : Script) (next : NodeId) (compiled : Node) :
    Prop where
  compiles : ∃ next', compile .plain (fun _ => true) library script next = .ok (compiled, next')
  kept : ∃ next', unpruned library script next = .ok (compiled, next')
  /-- The calls have construction numbers of their own. -/
  ids : ((Node.invocations compiled.children).map (·.id)).Nodup

namespace FlattensTo

variable {library : Library} {script : Script} {next : NodeId} {compiled : Node}

theorem exists_run_of_unpruned {after : NodeId}
    (kept : unpruned library script next = .ok (compiled, after)) :
    ∃ table children between, CallTable.ofScript library (fun _ => true) false script = .ok table ∧
      Rebuild.script table (fun _ => true) false script next = .ok (children, between) ∧
      script.root.declaration.build children between = .ok (compiled, after) := by
  unfold unpruned at kept
  cases scanned : CallTable.ofScript library (fun _ => true) false script with
  | error error => simp [scanned, bind, Except.bind] at kept
  | ok table =>
      simp only [scanned, bind, Except.bind] at kept
      cases rebuilt : Rebuild.script table (fun _ => true) false script next with
      | error error => simp [rebuilt] at kept
      | ok pair =>
          obtain ⟨children, between⟩ := pair
          simp only [rebuilt] at kept
          cases built : script.root.declaration.build children between with
          | error error =>
              rw [built] at kept
              cases kept
          | ok pair =>
              rw [built] at kept
              cases kept
              exact ⟨table, children, between, rfl, rebuilt, built⟩

theorem exists_parts (flattens : FlattensTo library script next compiled) :
    ∃ table slots body, CallTable.ofScript library (fun _ => true) false script = .ok table ∧
      compiled.declaration = script.root.declaration ∧
      compiled.declaration.check compiled.children = .ok compiled.expression ∧
      compiled.children = slots.filterMap (·.2) ++ body ∧
      Rebuild.Slots.Sound table (fun _ => true) slots ∧ (∀ name, (name, none) ∉ slots) ∧
      Rebuild.RebuiltAs table (fun _ => true) (Rebuild.Slots.names slots) script script.root.body
        body := by
  obtain ⟨_, kept⟩ := flattens.kept
  obtain ⟨table, children, between, scanned, rebuilt, built⟩ := exists_run_of_unpruned kept
  obtain ⟨declaration, rfl, check⟩ := Declaration.build_eq_ok built
  obtain ⟨slots, body, split, sound, complete, rebuilt⟩ := Rebuild.script_eq_ok rebuilt
  exact ⟨table, slots, body, scanned, declaration, check, split, sound, complete, rebuilt⟩

theorem of_unpruned {after after' : NodeId}
    (kept : unpruned library script next = .ok (compiled, after))
    (alive : Prune.node compiled.liveMethods compiled after = .ok (none, after'))
    (ids : ((Node.invocations compiled.children).map (·.id)).Nodup) :
    FlattensTo library script next compiled where
  compiles := by
    obtain ⟨table, children, between, scanned, rebuilt, built⟩ := exists_run_of_unpruned kept
    exact ⟨after', compile_eq_ok.2 ⟨table, children, between, scanned, rebuilt,
      finishTree_of_alive rfl built alive⟩⟩
  kept := ⟨after, kept⟩
  ids := ids

/-- Whether a script can be flattened without anything to prune is evaluated. -/
theorem exists_of_unpruned
    (evaluated : (unpruned library script next).toOption.any fun pair =>
      (Prune.node pair.1.liveMethods pair.1 pair.2).toOption.any (·.1.isNone) &&
        decide ((Node.invocations pair.1.children).map (·.id)).Nodup) :
    ∃ compiled, FlattensTo library script next compiled := by
  obtain ⟨⟨compiled, after⟩, kept, evaluated⟩ := Stateful.exists_ok_of_any evaluated
  simp only [Bool.and_eq_true, decide_eq_true_eq] at evaluated
  obtain ⟨alive, ids⟩ := evaluated
  obtain ⟨⟨pruned, after'⟩, alive, none⟩ := Stateful.exists_ok_of_any alive
  obtain rfl := Option.isNone_iff_eq_none.1 none
  exact ⟨compiled, of_unpruned kept alive ids⟩

theorem twin {scripts : List Script} (flattenable : Flattenable script scripts)
    (declaration : compiled.declaration = script.root.declaration)
    (check : compiled.declaration.check compiled.children = .ok compiled.expression) :
    script.root.Twin compiled where
  declaration := declaration
  expression := by
    have built := flattenable.built script (List.mem_cons_self ..) script.root (by
      rw [Node.preorder_eq]
      exact List.mem_cons_self ..)
    have parsed := (Declaration.check_eq_ok built).2
    have parsed' := (Declaration.check_eq_ok check).2
    rw [declaration, parsed] at parsed'
    exact (Except.ok.inj parsed').symm
  options := by
    have built := flattenable.built script (List.mem_cons_self ..) script.root (by
      rw [Node.preorder_eq]
      exact List.mem_cons_self ..)
    have none : ∀ {node : Node}, node.kind = .script →
        node.declaration.check node.children = .ok node.expression → node.options = [] := by
      intro node kind built
      refine List.filter_eq_nil_iff.2 fun option member isOption => ?_
      have takes := Declaration.takesOptions_of_option built member (by simpa using isOption)
      rw [← Node.kind, kind] at takes
      cases takes
    rw [none flattenable.root built,
      none ((congrArg Declaration.kind declaration).trans flattenable.root) check]

/-- A walk of the script goes like the walk of the tree it is flattened into. -/
theorem exists_alike_walk {scripts : List Script} (flattenable : Flattenable script scripts)
    (flattens : FlattensTo (.ofScripts scripts) script next compiled) :
    ∃ ρ : Renaming, ∀ {σ : Type} {visitor : Visitor σ}, visitor.Respects ρ → visitor.Idles →
      ∀ limit, Visit.Alike ρ (walk visitor (.ofScripts scripts) limit [] script.root)
        (walk visitor (.ofScripts scripts) limit [] compiled) := by
  obtain ⟨table, slots, body, scanned, declaration, check, children, sound, complete, rebuilt⟩ :=
    flattens.exists_parts
  have known : script ∈ script :: scripts := List.mem_cons_self ..
  have tableSound := CallTable.sound_of_ofScript flattenable.atHand known scanned
  obtain ⟨sites, ρ, flat, rebuilt⟩ := Rebuild.exists_flat flattenable.ids known tableSound sound
    complete rebuilt children flattens.ids
  refine ⟨ρ, fun {σ visitor} respects idles limit => ?_⟩
  have same := twin flattenable declaration check
  have role : script.root.role = .block none := by
    simp only [Node.role, flattenable.root, NodeKind.frame?]
  have here : script.root.Regular := flattenable.regular known (by
    rw [Node.preorder_eq]
    exact List.mem_cons_self ..)
  unfold walk
  rw [Walk.node_eq, Walk.node_eq, same.role_eq]
  simp only [role]
  refine Walk.alike_around respects same here.toPlain ?_
  rw [children, Walk.nodes_append, Walk.nodes_of_declarations fun node member =>
    (sound.exists_name member).1, pure_bind]
  exact flat.alike_nodes flattenable.atHand flattenable.orderly tableSound (fun _ => rfl) respects
    idles (flat.alike_bodies flattenable.atHand flattenable.orderly tableSound (fun _ => rfl)
      respects idles limit) known
    (Methods.covers_declare (flattenable.methods script known) [])
    (flattenable.orderly.regular script known) rebuilt.of_body

end FlattensTo

structure Report.Agrees (report report' : Report) : Prop where
  inputValues : report'.inputValues = report.inputValues
  model : report'.model = report.model
  outputs : report'.outputs = report.outputs
  scope : report.scope.SameButInvocations report'.scope

/-- Outcomes of runs that both succeed, both fail or both run out of bounds; on success the reports
agree, and the resolver and the renderer are left in the same states. -/
inductive AgreeingRuns : Option (Except ε Report × α) → Option (Except ε Report × α) → Prop
  | outOfBounds : AgreeingRuns none none
  | failed : AgreeingRuns (some (.error error, states)) (some (.error error', states'))
  | succeeded (agrees : report.Agrees report') :
      AgreeingRuns (some (.ok report, states)) (some (.ok report', states))

theorem AgreeingRuns.mapError {ε δ α : Type} {first second : Option (Except ε Report × α)}
    (f : ε → δ)
    (agreeing : AgreeingRuns first second) :
    AgreeingRuns (first >>= fun (result, states) => some (result.mapError f, states))
      (second >>= fun (result, states) => some (result.mapError f, states)) := by
  cases agreeing with
  | outOfBounds => exact .outOfBounds
  | failed => exact .failed
  | succeeded agrees => exact .succeeded agrees

namespace ScopeTree.Renamed

variable {ρ : Renaming} {a b : ScopeTree}

theorem sameButInvocations (renamed : Renamed ρ a b) : a.SameButInvocations b where
  frames := renamed.frames
  size := renamed.size
  node id := by
    rw [renamed.node]
    rfl
  name id frame := by
    rw [renamed.name]
    exact renamed.keeps_of_frame frame
  index id := by
    rw [renamed.node, ScopeNode.rename, List.forall₂_map_right_iff, List.forall₂_same]
    exact fun entry member => ⟨rfl, fun frame =>
      ρ.keeps _ fun hash => frame (renamed.indexed id entry member hash)⟩

end ScopeTree.Renamed

theorem Report.agrees_of_renamed {ρ : Renaming} {root root' : Node} {a b : ScopeTree}
    {model : Model} {outputs : List OutputFile} (renamed : ScopeTree.Renamed ρ a b) :
    Report.Agrees { root, scope := a, model, outputs }
      { root := root', scope := b, model, outputs } where
  inputValues := by
    simp only [Report.inputValues, renamed.size, renamed.frame, renamed.value?, renamed.inputPath]
  model := rfl
  outputs := rfl
  scope := renamed.sameButInvocations

namespace Generator

variable {ρ : Renaming} {generator : Generator} {resolver : Resolver α} {renderer : Renderer τ}

theorem agreeing_passes {root root' : Node} {limit : Nat}
    (inputs : Visit.Alike ρ
      (resolveInputs generator.externals generator.defaults resolver generator.library limit root)
      (resolveInputs generator.externals generator.defaults resolver generator.library limit root'))
    (model : Visit.Alike ρ (walk Assembly.visitor generator.library limit [] root)
      (walk Assembly.visitor generator.library limit [] root'))
    (outputs : Visit.Alike ρ (walk Outputs.visitor generator.library limit [] root)
      (walk Outputs.visitor generator.library limit [] root'))
    (resolving : α) (rendering : τ) :
    AgreeingRuns (generator.passes resolver renderer limit root resolving rendering)
      (generator.passes resolver renderer limit root' resolving rendering) := by
  have first := inputs _ _ resolving ScopeTree.Renamed.init
  unfold passes assembleModel collectOutputs
  generalize resolveInputs generator.externals generator.defaults resolver generator.library limit
    root ({}, resolving) = outcome at first ⊢
  generalize resolveInputs generator.externals generator.defaults resolver generator.library limit
    root' ({}, resolving) = outcome' at first ⊢
  cases first with
  | outOfBounds => exact .outOfBounds
  | error => exact .failed
  | @ok a b _ value _ s renamed =>
      have second := model _ _ {} renamed
      simp only [Option.bind_eq_bind, Option.bind_some, Option.pure_def]
      generalize walk Assembly.visitor generator.library limit [] root (a, {}) = outcome at second ⊢
      generalize walk Assembly.visitor generator.library limit [] root' (b, {}) = outcome'
        at second ⊢
      cases second with
      | outOfBounds => exact .outOfBounds
      | error => exact .failed
      | @ok a b _ value _ s renamed =>
          have third := outputs _ _ [] renamed
          simp only [Option.bind_some, Except.map]
          generalize walk Outputs.visitor generator.library limit [] root (a, []) = outcome
            at third ⊢
          generalize walk Outputs.visitor generator.library limit [] root' (b, []) = outcome'
            at third ⊢
          cases third with
          | outOfBounds => exact .outOfBounds
          | error => exact .failed
          | @ok a b _ value _ s renamed =>
              simp only [Option.bind_some]
              rcases renderer _ _ rendering with ⟨result, rendered⟩
              cases result with
              | error error => exact .failed
              | ok _ => exact .succeeded (Report.agrees_of_renamed renamed)

def interpreted (generator : Generator) : Generator := { generator with options := none }

def flattened (generator : Generator) : Generator :=
  { generator with options := some .plain, filter := fun _ => true }

theorem agreeing_runs {scripts : List Script} (library : generator.library = .ofScripts scripts)
    (flattenable : Flattenable generator.script scripts) {next : NodeId} {compiled : Node}
    (flattens : FlattensTo generator.library generator.script next compiled)
    (externalKeys : ∀ entry ∈ generator.externals, '#' ∉ entry.1.toList)
    (defaultKeys : ∀ entry ∈ generator.defaults, '#' ∉ entry.1.toList)
    (blind : ∀ request a b s, resolver request a s = resolver request b s)
    (limit : Nat) (resolving : α) (rendering : τ) :
    AgreeingRuns (generator.interpreted.run resolver renderer limit next resolving rendering)
      (generator.flattened.run resolver renderer limit next resolving rendering) := by
  rw [library] at flattens
  obtain ⟨ρ, alike⟩ := flattens.exists_alike_walk flattenable
  have inputs : Visit.Alike ρ (resolveInputs generator.externals generator.defaults resolver
      (.ofScripts scripts) limit generator.script.root) (resolveInputs generator.externals
      generator.defaults resolver (.ofScripts scripts) limit compiled) :=
    Visit.alike_bind (alike (Inputs.respects_visitor externalKeys defaultKeys blind)
      Inputs.idles_visitor limit) fun _ => Visit.alike_scope_bind fun a b s renamed =>
        Visit.alike_ofExcept renamed.requireResolved a b s renamed
  have model := alike Assembly.respects_visitor Assembly.idles_visitor limit
  have outputs := alike Outputs.respects_visitor Outputs.idles_visitor limit
  rw [← library] at inputs model outputs
  have passes := @agreeing_passes _ _ _ _ _ renderer _ _ _ inputs model outputs resolving rendering
  obtain ⟨next', compiles⟩ := flattens.compiles
  rw [← library] at compiles
  have source : generator.interpreted.tree next = .ok generator.script.root := rfl
  have flat : generator.flattened.tree next = .ok compiled := by
    simp only [tree, flattened, compiles, Except.map]
  simp only [run, source, flat]
  exact passes.mapError GenerationError.run

/-- Flattening is a simulation. Within any limit on nested invocations the run over a script
succeeds exactly if the run over the tree it is flattened into does. On success both give the same
input values, the same model and the same plan, leave the resolver and the renderer in the same
states, and have the same scopes but for the names of invocations. -/
theorem flattened_run_agrees {scripts : List Script}
    (library : generator.library = .ofScripts scripts)
    (flattenable : Flattenable generator.script scripts) {next : NodeId} {compiled : Node}
    (flattens : FlattensTo generator.library generator.script next compiled)
    (externalKeys : ∀ entry ∈ generator.externals, '#' ∉ entry.1.toList)
    (defaultKeys : ∀ entry ∈ generator.defaults, '#' ∉ entry.1.toList)
    (blind : ∀ request a b s, resolver request a s = resolver request b s)
    (limit : Nat) (resolving : α) (rendering : τ) :
    ((∃ report states, generator.interpreted.run resolver renderer limit next resolving rendering =
        some (.ok report, states)) ↔
      ∃ report states, generator.flattened.run resolver renderer limit next resolving rendering =
        some (.ok report, states)) ∧
    ∀ report states report' states',
      generator.interpreted.run resolver renderer limit next resolving rendering =
          some (.ok report, states) →
        generator.flattened.run resolver renderer limit next resolving rendering =
            some (.ok report', states') →
          report.Agrees report' ∧ states' = states := by
  have agreeing := @agreeing_runs _ _ generator resolver renderer _ library flattenable _ _ flattens
    externalKeys defaultKeys blind limit resolving rendering
  generalize generator.interpreted.run resolver renderer limit next resolving rendering = source
    at agreeing ⊢
  generalize generator.flattened.run resolver renderer limit next resolving rendering = flat
    at agreeing ⊢
  cases agreeing with
  | outOfBounds => simp
  | failed => simp
  | succeeded agrees =>
      refine ⟨⟨fun _ => ⟨_, _, rfl⟩, fun _ => ⟨_, _, rfl⟩⟩, ?_⟩
      rintro report states report' states' ⟨rfl, rfl⟩ ⟨rfl, rfl⟩
      exact ⟨agrees, rfl⟩

/-! A run of two scripts. -/

def leaf (id : UInt64) (kind : NodeKind) (attributes : List (String × Value)) : Node where
  id := ⟨id⟩
  declaration := { kind, attributes := .ofList attributes }
  expression := none
  children := []

def sourcedScript : Script where
  identity := "b"
  root :=
    { id := ⟨5⟩
      declaration := { kind := .script }
      expression := none
      children :=
        [leaf 1 .inputText [("name", .string "y"), ("default", .string "d")],
          { id := ⟨3⟩
            declaration := { kind := .method, attributes := .ofList [("name", .string "m")] }
            expression := none
            children := [leaf 2 .var [("name", .string "x"), ("value", .string "1")]] },
          leaf 4 .invokeCall [("name", .string "m")]] }

/-- A script that sources the other one, and an output below a condition on its variable. -/
def sourcing : Generator where
  library := .ofScripts [sourcedScript]
  script := .ofRoot
    { id := ⟨9⟩
      declaration := { kind := .script }
      expression := none
      children :=
        [leaf 6 .invokeSource [("src", .string "b")],
          { id := ⟨8⟩
            declaration :=
              { kind := .condition
                attributes := .ofList [("expression", .string "$\x7bx\x7d == '1'")] }
            expression := some (.compare .equal (.var "x") (.literal (.string "1")))
            children :=
              [leaf 7 .output [("src", .string "o"), ("target", .string "$\x7by\x7d")]] }] }

theorem flattenable_sourcing : Flattenable sourcing.script [sourcedScript] :=
  .of_pair rfl (by decide +kernel) (by decide +kernel) (by decide +kernel) (by decide +kernel)
    (by decide +kernel) (by decide +kernel)

def unattended (generator : Generator) : Option (Except GenerationError Report × Unit × Unit) :=
  generator.run .batch (fun _ _ => pure ()) 5 ⟨20⟩ () ()

/-- The two scripts give the same plan, walked as they are or flattened. -/
theorem flattened_run_agrees_of_two_scripts : ∃ report report',
    unattended sourcing.interpreted = some (.ok report, (), ()) ∧
      unattended sourcing.flattened = some (.ok report', (), ()) ∧ report.Agrees report' := by
  obtain ⟨compiled, flattens⟩ : ∃ compiled, FlattensTo sourcing.library sourcing.script ⟨20⟩
      compiled := FlattensTo.exists_of_unpruned (by decide +kernel)
  obtain ⟨succeed, agree⟩ := @flattened_run_agrees _ _ sourcing .batch (fun _ _ => pure ()) _ rfl
    flattenable_sourcing _ _ flattens (by simp [sourcing]) (by simp [sourcing])
    (fun _ _ _ _ => rfl) 5 () ()
  have ends : (unattended sourcing.interpreted).any (·.1.toOption.isSome) := by decide +kernel
  cases outcome : unattended sourcing.interpreted with
  | none => simp [outcome] at ends
  | some pair =>
      obtain ⟨result, states⟩ := pair
      cases result with
      | error error => simp [outcome, Except.toOption] at ends
      | ok report =>
          obtain ⟨report', states', outcome'⟩ := succeed.1 ⟨report, states, outcome⟩
          exact ⟨report, report', rfl, outcome', (agree _ _ _ _ outcome outcome').1⟩

end Generator

end Archetype
