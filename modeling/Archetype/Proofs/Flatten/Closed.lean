import Archetype.Proofs.Flatten.Pruning
import Archetype.Proofs.Flatten.Rebuilding
import Archetype.Proofs.Walk.Failures
import Archetype.Proofs.Walk.Methods

/-!
Compiled trees are closed: they source nothing, and whatever they call is one of their methods. The
walk of a closed tree needs no library.
-/

namespace Archetype

/-- A tree that needs nothing from outside. Its methods come first, none is declared further below,
they have distinct names and something in them, and every call is of one of them. -/
structure Node.Closed (root : Node) : Prop where
  script : root.kind = .script
  unsourced : ∀ node ∈ root.preorder, node.kind ≠ .invokeSource
  leading : ∃ body, root.children = root.methods ++ body
  nowhere : ∀ child ∈ root.children, ∀ node ∈ preorderAll child.children, node.kind ≠ .method
  named : ∀ method ∈ root.methods, ∃ name, method.name? = some name
  distinct : (root.methods.filterMap (·.name?)).Nodup
  filled : ∀ method ∈ root.methods, method.children ≠ []
  answered : ∀ node ∈ root.preorder, node.kind = .invokeCall →
    ∃ method ∈ root.methods, ∃ name, method.name? = some name ∧ node.name? = some name

theorem compile_eq_ok {options : CompileOptions} {filter : Node → Bool} {library : Library}
    {script : Script} {next next' : NodeId} {tree : Node} :
    compile options filter library script next = .ok (tree, next') ↔ ∃ table children between,
      CallTable.ofScript library filter options.obfuscate script = .ok table ∧
      Rebuild.script table filter options.inlineSingleUse script next = .ok (children, between) ∧
      finishTree options script.root.declaration children between = .ok (tree, next') := by
  unfold compile
  constructor
  · intro compiles
    cases scanned : CallTable.ofScript library filter options.obfuscate script with
    | error error => simp [scanned, bind, Except.bind] at compiles
    | ok table =>
        simp only [scanned, bind, Except.bind] at compiles
        cases rebuilt : Rebuild.script table filter options.inlineSingleUse script next with
        | error error => simp [rebuilt] at compiles
        | ok pair =>
            obtain ⟨children, between⟩ := pair
            simp only [rebuilt] at compiles
            cases finished : finishTree options script.root.declaration children between with
            | error error =>
                rw [finished] at compiles
                cases compiles
            | ok pair =>
                rw [finished] at compiles
                cases compiles
                exact ⟨table, children, between, rfl, rebuilt, finished⟩
  · rintro ⟨table, children, between, scanned, rebuilt, finished⟩
    simp only [scanned, rebuilt, finished, bind, Except.bind]
    rfl

/-- What is not dead in a clean tree: methods have something in them, and calls are of methods. -/
theorem Node.Clean.live {root : Node} (clean : root.Clean) {node : Node}
    (member : node ∈ preorderAll root.children) :
    (node.kind = .method → node.children ≠ []) ∧
      (node.kind = .invokeCall →
        ∃ method ∈ root.methods, ∃ name, method.name? = some name ∧ node.name? = some name) := by
  have alive := clean node member
  simp only [isDead, Bool.or_eq_false_iff] at alive
  constructor
  · intro kind empty
    simp [isPrunableIfEmpty, kind, empty, NodeKind.prunableIfEmpty] at alive
  · intro kind
    have live : node.name?.any (· ∈ root.liveMethods) = true := by simpa [kind] using alive.2
    obtain ⟨name, named, among⟩ := (Option.any_eq_true _ _).1 live
    obtain ⟨method, inside, named'⟩ := List.mem_filterMap.1 (of_decide_eq_true among)
    exact ⟨method, (List.mem_filter.1 inside).1, name, named', named⟩

namespace Rebuild

variable {table : CallTable} {filter : Node → Bool} {inline : Bool}

theorem MethodOf.kind {names : List String} {body : SharedBody} {method : Node}
    (made : MethodOf table filter inline names body method) : method.kind = .method := by
  rw [Node.kind, made.declaration]

theorem MethodOf.name {names : List String} {body : SharedBody} {method : Node}
    (made : MethodOf table filter inline names body method) :
    method.name? = some body.canonical := by
  rw [Node.name?, made.declaration]
  rfl

theorem Slots.Flat.method {slots : Slots} (flat : slots.Flat table filter inline) {method : Node}
    (member : method ∈ slots.filterMap (·.2)) :
    method.kind = .method ∧ (∃ name, method.name? = some name) ∧
      ∀ node ∈ Node.preorderAll method.children, node.kind.Flat := by
  obtain ⟨⟨name, slot⟩, inside, complete⟩ := List.mem_filterMap.1 member
  simp only at complete
  subst complete
  obtain ⟨body, -, -, made⟩ := flat.complete name method inside
  obtain ⟨_, flattened⟩ := made.flattened
  exact ⟨made.kind, ⟨_, made.name⟩, flattened.flat⟩

theorem Slots.Flat.nodup_names {slots : Slots} (flat : slots.Flat table filter inline)
    (complete : ∀ name, (name, none) ∉ slots) :
    ((slots.filterMap (·.2)).filterMap (·.name?)).Nodup := by
  rw [Slots.filterMap_name? complete fun name method member => ?_]
  · exact flat.distinct
  · obtain ⟨body, -, rfl, made⟩ := flat.complete name method member
    exact made.name

end Rebuild

/-- A tree that was compiled with a call table: what is left of its methods, and of the flattened
body of the script after them. -/
structure Compiled (table : CallTable) (filter : Node → Bool) (inline : Bool) (script : Script)
    (slots : Rebuild.Slots) (body : List Node) (tree : Node) : Prop where
  flat : slots.Flat table filter inline
  complete : ∀ name, (name, none) ∉ slots
  flattened : ∃ left, Flattened table filter inline slots.names script
    (Node.allFrameNames script.root.body) script.root.body body left
  kind : tree.kind = script.root.kind
  split : tree.children = tree.methods ++ tree.body
  methods : Thinned (fun _ => True) (slots.filterMap (·.2)) tree.methods
  body : Thinned (fun _ => True) body tree.body
  clean : tree.Clean

theorem Node.kind_of_mem_methods {root method : Node} (declared : method ∈ root.methods) :
    method.kind = .method :=
  of_decide_eq_true (List.mem_filter.1 declared).2

/-- Methods and other nodes after them, told apart. -/
theorem Node.parts_eq {tree : Node} {methods rest : List Node}
    (split : tree.children = methods ++ rest) (declared : ∀ method ∈ methods, method.kind = .method)
    (other : ∀ node ∈ rest, node.kind ≠ .method) : tree.methods = methods ∧ tree.body = rest := by
  constructor
  · rw [Node.methods, split, List.filter_append,
      List.filter_eq_self.2 fun method member => by simpa using declared method member,
      List.filter_eq_nil_iff.2 fun node member => by simpa using other node member,
      List.append_nil]
  · rw [Node.body, split, List.filter_append,
      List.filter_eq_nil_iff.2 fun method member => by simpa using declared method member,
      List.filter_eq_self.2 fun node member => by simpa using other node member, List.nil_append]

/-- What is left of complete methods, and of flattened nodes after them, is the methods of the tree
and its body. -/
theorem Flattened.parts_eq {table : CallTable} {filter : Node → Bool} {inline : Bool}
    {script : Script} {slots : Rebuild.Slots} {names taken left : List String}
    {nodes body methods rest : List Node} {tree : Node}
    (flattened : Flattened table filter inline names script taken nodes body left)
    (flat : slots.Flat table filter inline) (split : tree.children = methods ++ rest)
    (thinnedMethods : Thinned (fun _ => True) (slots.filterMap (·.2)) methods)
    (thinnedRest : Thinned (fun _ => True) body rest) :
    tree.methods = methods ∧ tree.body = rest := by
  refine Node.parts_eq split (fun method member => ?_) fun node member => ?_
  · obtain ⟨made, inside, kind, -⟩ := thinnedMethods.exists_top method member
    exact kind.trans (flat.method inside).1
  · exact (thinnedRest.forall_kind flattened.flat node (Node.subset_preorderAll rest member)).1

theorem exists_compiled {options : CompileOptions} {filter : Node → Bool} {library : Library}
    {script : Script} {next next' : NodeId} {tree : Node}
    (compiles : compile options filter library script next = .ok (tree, next')) :
    ∃ table slots body, CallTable.ofScript library filter options.obfuscate script = .ok table ∧
      Compiled table filter options.inlineSingleUse script slots body tree := by
  obtain ⟨table, children, between, scanned, rebuilt, finished⟩ := compile_eq_ok.1 compiles
  obtain ⟨slots, body, rfl, flat, complete, ⟨left, flattened⟩, -⟩ :=
    Rebuild.script_flattens rebuilt
  obtain ⟨kind, thinned, clean⟩ := finishTree_eq_ok finished
  obtain ⟨methods, rest, split, thinnedMethods, thinnedRest⟩ := thinned.of_append
  obtain ⟨methods_eq, body_eq⟩ := flattened.parts_eq flat split thinnedMethods thinnedRest
  exact ⟨table, slots, body, scanned,
    { flat, complete
      flattened := ⟨left, flattened⟩
      kind
      split := by rw [methods_eq, body_eq, split]
      methods := methods_eq ▸ thinnedMethods
      body := body_eq ▸ thinnedRest
      clean }⟩

namespace Compiled

variable {table : CallTable} {filter : Node → Bool} {inline : Bool} {script : Script}
  {slots : Rebuild.Slots} {body : List Node} {tree : Node}
  (compiled : Compiled table filter inline script slots body tree)
include compiled

/-- A method of the tree is what is left of a method made from a shared body. -/
theorem exists_methodOf {method : Node} (member : method ∈ tree.methods) :
    ∃ shared made, table.body? shared.callee = some shared ∧
      Rebuild.MethodOf table filter inline slots.names shared made ∧
      method.name? = some shared.canonical ∧
      Thinned (fun _ => True) made.children method.children := by
  obtain ⟨made, inside, kind, name, below⟩ := compiled.methods.exists_top method member
  obtain ⟨⟨slot, _⟩, there, complete⟩ := List.mem_filterMap.1 inside
  simp only at complete
  subst complete
  obtain ⟨shared, known, -, of⟩ := compiled.flat.complete slot made there
  have unscripted : made.kind ≠ .script := by
    rw [of.kind]
    exact NodeKind.noConfusion
  exact ⟨shared, made, known, of, (name unscripted).trans of.name, below⟩

theorem flat_below : ∀ child ∈ tree.children, ∀ node ∈ Node.preorderAll child.children,
    node.kind.Flat := by
  intro child member node inside
  rw [compiled.split] at member
  rcases List.mem_append.1 member with member | member
  · obtain ⟨shared, made, -, of, -, below⟩ := compiled.exists_methodOf member
    obtain ⟨_, flattened⟩ := of.flattened
    exact below.forall_kind flattened.flat node inside
  · obtain ⟨_, flattened⟩ := compiled.flattened
    exact compiled.body.forall_kind flattened.flat node (Node.preorderAll_subset member inside)

theorem unsourced (rooted : script.root.kind = .script) :
    ∀ node ∈ tree.preorder, node.kind ≠ .invokeSource := by
  intro node member
  rcases Node.mem_preorder.1 member with rfl | member
  · rw [compiled.kind, rooted]
    exact NodeKind.noConfusion
  obtain ⟨child, top, member⟩ := Node.mem_preorderAll.1 member
  rcases Node.mem_preorder.1 member with rfl | below
  · rw [compiled.split] at top
    rcases List.mem_append.1 top with declared | top
    · rw [Node.kind_of_mem_methods declared]
      exact NodeKind.noConfusion
    · obtain ⟨_, flattened⟩ := compiled.flattened
      exact (compiled.body.forall_kind flattened.flat node (Node.subset_preorderAll _ top)).2
  · exact (compiled.flat_below child top node below).2

theorem distinct : (tree.methods.filterMap (·.name?)).Nodup := by
  have unscripted : ∀ method ∈ slots.filterMap (·.2), method.kind ≠ .script := by
    intro method member
    rw [(compiled.flat.method member).1]
    exact NodeKind.noConfusion
  have sub := (compiled.methods.names_sublist unscripted).filterMap id
  simp only [List.filterMap_map, Function.id_comp] at sub
  exact (compiled.flat.nodup_names compiled.complete).sublist sub

theorem closed (rooted : script.root.kind = .script) : tree.Closed where
  script := compiled.kind.trans rooted
  unsourced := compiled.unsourced rooted
  leading := ⟨tree.body, compiled.split⟩
  nowhere child member node inside := (compiled.flat_below child member node inside).1
  named method member := by
    obtain ⟨shared, -, -, -, named, -⟩ := compiled.exists_methodOf member
    exact ⟨_, named⟩
  distinct := compiled.distinct
  filled method member :=
    (compiled.clean.live (Node.subset_preorderAll _ (List.mem_filter.1 member).1)).1
      (Node.kind_of_mem_methods member)
  answered node member call := by
    rcases Node.mem_preorder.1 member with rfl | below
    · exact absurd (call.symm.trans (compiled.kind.trans rooted)) NodeKind.noConfusion
    · exact (compiled.clean.live below).2 call

end Compiled

/-! Walks of closed trees. -/

theorem Node.preorderAll_method {root method : Node} (declared : method ∈ root.methods) :
    preorderAll method.children ⊆ root.preorder := fun _ inside =>
  mem_preorder.2 (.inr (preorderAll_subset (List.mem_filter.1 declared).1 inside))

namespace Node.Closed

variable {root : Node} (closed : root.Closed)
include closed

theorem unsourced_role {node : Node} (member : node ∈ root.preorder) : node.role ≠ .source :=
  fun role => closed.unsourced node member (Node.role_eq_source.1 role)

theorem exists_method {node : Node} (member : node ∈ root.preorder) (role : node.role = .call)
    (methods : Methods) : ∃ method ∈ root.methods, method.name? = some node.target ∧
      (methods.declare root).lookup node.target = some method := by
  obtain ⟨method, declared, name, named, same⟩ :=
    closed.answered node member (Node.role_eq_call.1 role)
  rw [Node.target, same, Option.getD_some]
  exact ⟨method, declared, named,
    Methods.lookup_foldl_of_mem closed.distinct declared named methods⟩

/-- The walk fails only as the visitor or a condition does, or because a bound is too low. -/
theorem never_bodies {visitor : Visitor σ} {error : RunError} (never : visitor.Never (some error))
    (unevaluated : ¬error.IsEvaluation) (library : Library) (methods : Methods) (limit : Nat) :
    ∀ list, Node.preorderAll list ⊆ root.preorder → Visit.Never (some error)
      (Walk.bodies visitor library limit (methods.declare root) list) := by
  induction limit with
  | zero => exact fun _ _ _ fails => by cases fails
  | succ limit ih =>
      intro list inside
      refine Walk.never_nodes never (fun _ same => Option.some.inj same ▸ unevaluated) list
        (fun node member => closed.unsourced_role (inside member)) fun node member role => ?_
      obtain ⟨method, declared, -, found⟩ := closed.exists_method (inside member) role methods
      exact ⟨method, found, ih method.children (Node.preorderAll_method declared)⟩

theorem bodies_eq (visitor : Visitor σ) (library library' : Library) (methods : Methods)
    (limit : Nat) : ∀ list, Node.preorderAll list ⊆ root.preorder →
      Walk.bodies visitor library limit (methods.declare root) list =
        Walk.bodies visitor library' limit (methods.declare root) list := by
  induction limit with
  | zero => exact fun _ _ => rfl
  | succ limit ih =>
      intro list inside
      refine Walk.nodes_of_unsourced list
        (fun node member => closed.unsourced_role (inside member)) fun node member role method => ?_
      obtain ⟨method', declared, -, found'⟩ := closed.exists_method (inside member) role methods
      intro found
      obtain rfl := Option.some.inj (found'.symm.trans found)
      exact ih method'.children (Node.preorderAll_method declared)

theorem walk_eq (visitor : Visitor σ) (library : Library) (limit : Nat) (methods : Methods) :
    walk visitor library limit methods root = Walk.around visitor root
      (Walk.bodies visitor library (limit + 1) (methods.declare root) root.children) := by
  have role : root.role = .block none := by
    simp only [Node.role, closed.script, NodeKind.frame?]
  rw [walk, Walk.node_eq]
  simp only [role]
  rfl

end Node.Closed

/-- Every compiled tree is closed; so its walk needs no library, and it never comes to a call that
leads nowhere. -/
theorem compiled_tree_closed {options : CompileOptions} {filter : Node → Bool} {library : Library}
    {script : Script} {next next' : NodeId} {tree : Node} (rooted : script.root.kind = .script)
    (compiles : compile options filter library script next = .ok (tree, next')) :
    tree.Closed ∧
    (∀ (σ : Type) (visitor : Visitor σ) (library' : Library) (limit : Nat) (methods : Methods),
      walk visitor library' limit methods tree = walk visitor .empty limit methods tree) ∧
    ∀ (σ : Type) (visitor : Visitor σ) (target : String),
      visitor.Never (some (.unresolvedInvocation target)) →
        ∀ (library' : Library) (limit : Nat) (methods : Methods),
          Visit.Never (some (.unresolvedInvocation target))
            (walk visitor library' limit methods tree) := by
  obtain ⟨_, _, _, -, compiled⟩ := exists_compiled compiles
  have closed := compiled.closed rooted
  have inside : Node.preorderAll tree.children ⊆ tree.preorder := fun _ member =>
    Node.mem_preorder.2 (.inr member)
  refine ⟨closed, fun σ visitor library' limit methods => ?_,
    fun σ visitor target never library' limit methods => ?_⟩
  · rw [closed.walk_eq, closed.walk_eq,
      closed.bodies_eq visitor library' .empty methods _ _ inside]
  · rw [closed.walk_eq]
    exact Walk.never_around never
      (closed.never_bodies never id library' methods _ _ inside)

/-! A script that sources one script twice and another one that comes to nothing. -/

def Node.bare (id : UInt64) (kind : NodeKind) (attributes : List (String × Value))
    (children : List Node) : Node where
  id := ⟨id⟩
  declaration := { kind, attributes := .ofList attributes }
  expression := none
  children := children

def askingScript : Script where
  identity := "b"
  root := .bare 3 .script [] [.bare 2 .step [("name", .string "s")]
    [.bare 1 .inputText [("name", .string "y"), ("default", .string "d")] []]]

def emptyScript : Script where
  identity := "c"
  root := .bare 5 .script [] [.bare 4 .step [("name", .string "s")] []]

def sourcingScript : Script where
  identity := "a"
  root := .bare 10 .script []
    [.bare 6 .invokeSource [("src", .string "b")] [],
      .bare 8 .step [("name", .string "s")] [.bare 7 .invokeSource [("src", .string "c")] []],
      .bare 9 .invokeSource [("src", .string "b")] []]

/-- The script that is sourced twice becomes a method, and nothing is left of the empty one. -/
theorem compiled_tree_closed_of_two_sources : ∃ tree next',
    compile {} (fun _ => true) (.ofScripts [askingScript, emptyScript]) sourcingScript ⟨20⟩ =
      .ok (tree, next') ∧
    tree.Closed ∧ tree.methods.map (·.name?) = [some "b"] ∧ tree.children.length = 3 ∧
    Visit.Never (some (.unresolvedInvocation "b"))
      (walk ({} : Visitor Unit) .empty 1 [] tree) := by
  have evaluated : (compile {} (fun _ => true) (.ofScripts [askingScript, emptyScript])
      sourcingScript ⟨20⟩).toOption.any fun pair =>
        decide (pair.1.methods.map (·.name?) = [some "b"]) && pair.1.children.length = 3 := by
    decide +kernel
  obtain ⟨⟨tree, next'⟩, compiles, evaluated⟩ := Stateful.exists_ok_of_any evaluated
  simp only [Bool.and_eq_true, decide_eq_true_eq] at evaluated
  obtain ⟨closed, -, never⟩ := compiled_tree_closed rfl compiles
  have silent : Visitor.Never (some (.unresolvedInvocation "b")) ({} : Visitor Unit) :=
    ⟨fun _ => Visit.never_pure (), fun _ => Visit.never_pure ()⟩
  exact ⟨tree, next', compiles, closed, evaluated.1, evaluated.2,
    never Unit {} "b" silent .empty 1 []⟩

end Archetype
