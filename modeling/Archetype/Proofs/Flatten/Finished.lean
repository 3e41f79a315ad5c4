import Archetype.Proofs.Expression.Normal
import Archetype.Proofs.Expression.RoundTrip
import Archetype.Proofs.Flatten.Recursion

/-!
Finished trees, in which nothing is left to flatten: calls name methods and nothing else, no
condition can be folded or decided, and methods come in the order in which they are first called.
Compiling makes finished trees.
-/

namespace Archetype

structure Node.Steady (node : Node) : Prop where
  checked : node.Checked
  flat : node.kind.Flat
  call : node.kind = .invokeCall → node.declaration =
    { kind := .invokeCall, attributes := .ofList [("name", .string node.target)],
      location := node.location }
  condition : node.kind = .condition → node.constant? = none ∧
    Rebuild.foldedDeclaration node.declaration node.expression = node.declaration

theorem Node.Checked.parse {node : Node} (checked : node.Checked) :
    node.declaration.parseExpression = .ok node.expression :=
  (Declaration.check_eq_ok checked).2

/-- Checking parses the expression, so that the declaration determines it. -/
theorem Node.Checked.expression_eq {node twin : Node} (checked : node.Checked)
    (twinChecked : twin.Checked) (same : twin.declaration = node.declaration) :
    twin.expression = node.expression := by
  have parsed := twinChecked.parse
  rw [same, checked.parse] at parsed
  exact (Except.ok.inj parsed).symm

/-- Whether a node is steady depends on its declaration, as long as it passes its checks. -/
theorem Node.Steady.of_declaration {node twin : Node} (steady : node.Steady)
    (declaration : twin.declaration = node.declaration)
    (checked : node.Checked → twin.Checked) : twin.Steady := by
  have checked := checked steady.checked
  have expression := steady.checked.expression_eq checked declaration
  have kind : twin.kind = node.kind := congrArg Declaration.kind declaration
  refine ⟨checked, kind ▸ steady.flat, fun call => ?_, fun condition => ?_⟩
  · simp only [target, Node.name?, Node.location, declaration]
    exact steady.call (kind ▸ call)
  · simp only [constant?, expression, declaration]
    exact steady.condition (kind ▸ condition)

theorem Node.Steady.of_folded {node twin : Node} (kind : node.kind = .condition)
    (checked : node.Checked) (constant : node.constant? = none)
    (declaration : twin.declaration =
      Rebuild.foldedDeclaration node.declaration node.expression)
    (twinChecked : twin.Checked) : twin.Steady := by
  have twinKind : twin.kind = .condition := by
    rw [Node.kind, declaration, Rebuild.foldedDeclaration_kind, ← Node.kind, kind]
  refine ⟨twinChecked, ?_, fun call => ?_, fun _ => ?_⟩
  · rw [twinKind]
    exact ⟨NodeKind.noConfusion, NodeKind.noConfusion⟩
  · rw [twinKind] at call
    cases call
  have read := twinChecked.parse
  have source := checked.parse
  cases e : node.expression with
  | none =>
      have same : twin.declaration = node.declaration := by
        rw [declaration, e]
        rfl
      rw [e] at source
      rw [same, source] at read
      rw [constant?, ← Except.ok.inj read]
      exact ⟨rfl, rfl⟩
  | some expression =>
      rw [e] at source
      rw [declaration, e, Rebuild.parseExpression_foldedDeclaration source] at read
      simp only [constant?, e, Option.bind_some] at constant
      rw [constant?, ← Except.ok.inj read, Option.bind_some, Expression.constant?_fold]
      exact ⟨constant, by rw [Rebuild.foldedDeclaration, if_pos expression.fold_fold]⟩

theorem Flattened.steady {table : CallTable} {filter : Node → Bool} {inline : Bool}
    {names taken left : List String} {script : Script} {nodes result : List Node}
    (bodies : ∀ body ∈ table.bodies, ∀ node ∈ Node.preorderAll body.nodes, node.Checked)
    (flattened : Flattened table filter inline names script taken nodes result left)
    (checked : ∀ node ∈ Node.preorderAll nodes, node.Checked) :
    ∀ node ∈ Node.preorderAll result, node.Steady := by
  induction flattened with
  | nil => simp [Node.preorderAll]
  | rejected _ _ ih => exact ih (Node.forall_preorderAll_cons.1 checked).2.2
  | declaration _ _ ih => exact ih (Node.forall_preorderAll_cons.1 checked).2.2
  | never _ _ _ ih => exact ih (Node.forall_preorderAll_cons.1 checked).2.2
  | emptied _ _ _ _ ih => exact ih (Node.forall_preorderAll_cons.1 checked).2.2
  | always _ _ _ _ _ ihBelow ih =>
      obtain ⟨-, below, later⟩ := Node.forall_preorderAll_cons.1 checked
      rw [Node.preorderAll_append]
      exact List.forall_mem_append.2 ⟨ihBelow below, ih later⟩
  | condition _ role constant declaration check _ _ ihBelow ih =>
      obtain ⟨here, below, later⟩ := Node.forall_preorderAll_cons.1 checked
      rw [Node.forall_preorderAll_cons]
      exact ⟨.of_folded (Node.role_eq_condition role) here constant declaration check,
        ihBelow below, ih later⟩
  | call _ _ _ declaration check childless _ _ ih =>
      rw [Node.forall_preorderAll_cons, childless]
      refine ⟨⟨check, ?_, fun _ => ?_, fun condition => ?_⟩, by simp [Node.preorderAll],
        ih (Node.forall_preorderAll_cons.1 checked).2.2⟩
      · rw [Node.kind, declaration]
        exact ⟨NodeKind.noConfusion, NodeKind.noConfusion⟩
      · simp only [Node.target, Node.name?, Node.location, declaration]
        rfl
      · rw [Node.kind, declaration] at condition
        cases condition
  | inlined _ _ _ reached _ _ _ _ _ ihBelow ih =>
      rw [Node.preorderAll_append]
      exact List.forall_mem_append.2
        ⟨ihBelow (bodies _ (CallTable.mem_of_reached? reached)),
          ih (Node.forall_preorderAll_cons.1 checked).2.2⟩
  | @block node _ _ _ _ _ _ _ twin _ role declaration check _ _ ihBelow ih =>
      obtain ⟨here, below, later⟩ := Node.forall_preorderAll_cons.1 checked
      rw [Node.forall_preorderAll_cons]
      have kind : twin.kind = node.kind := congrArg Declaration.kind declaration
      refine ⟨⟨check, ?_, fun call => ?_, fun condition => ?_⟩, ihBelow below, ih later⟩
      · rw [kind]
        constructor <;> intro kind <;> simp [Node.role, kind] at role
      · rw [kind] at call
        simp [Node.role, call] at role
      · rw [kind] at condition
        simp [Node.role, condition] at role

def Node.Calls (root : Node) (caller callee : String) : Prop :=
  ∃ method ∈ root.methods, method.name? = some caller ∧
    ∃ call ∈ preorderAll method.children, call.kind = .invokeCall ∧ call.name? = some callee

structure Node.SteadyMethod (method : Node) : Prop where
  checked : method.Checked
  declaration : ∃ name, ScopePath.sanitize name = name ∧ method.declaration =
    { kind := .method, attributes := .ofList [("name", .string name)] }
  body : ∀ node ∈ preorderAll method.children, node.Steady

/-- A tree that has nothing left to flatten. No method comes back to itself: each calls only those
after it in some list of them all. -/
structure Node.Finished (root : Node) : Prop where
  closed : root.Closed
  clean : root.Clean
  checked : root.Checked
  methods : ∀ method ∈ root.methods, method.SteadyMethod
  body : ∀ node ∈ preorderAll root.body, node.Steady
  ordered : Discovers [] root.body root.methods
  settled : ∃ names, Settled root.Calls names ∧ names.Nodup ∧
    ∀ name, name ∈ names ↔ ∃ method ∈ root.methods, method.name? = some name

/-! Where nodes that flattening starts from pass their checks. -/

theorem Drawn.checked {scripts : List Script} {callee : Callee} {script : Script}
    {nodes : List Node} (drawn : Drawn scripts callee script nodes)
    (built : ∀ known ∈ scripts, known.root.Built) :
    ∀ node ∈ Node.preorderAll nodes, node.Checked := by
  have below : ∀ {node : Node}, node.Built → ∀ other ∈ Node.preorderAll node.children,
      other.Checked := fun built other member => built other (Node.mem_preorder.2 (.inr member))
  cases drawn with
  | script known =>
      intro node member
      obtain ⟨child, inside, member⟩ := Node.mem_preorderAll.1 member
      exact below (built _ known) node
        (Node.mem_preorderAll.2 ⟨child, (List.mem_filter.1 inside).1, member⟩)
  | method known declared named =>
      exact below ((built _ known).child (List.mem_filter.1 declared).1)

theorem Node.Checked.not_losesOptions {node : Node} (checked : node.Checked) :
    ¬node.LosesOptions fun _ => true := by
  intro loses
  obtain ⟨option, member, kind⟩ := Declaration.exists_option checked loses.1
  cases loses.2 option member kind

theorem Node.strandedAll_of_checked : ∀ {nodes : List Node},
    (∀ node ∈ preorderAll nodes, node.Checked) → strandedAll (fun _ => true) nodes = []
  | [], _ => rfl
  | ⟨id, d, e, children⟩ :: rest, checked => by
      obtain ⟨here, inside, later⟩ := forall_preorderAll_cons.1 checked
      have below := strandedAll_of_checked inside
      rw [strandedAll_cons, strandedAll_of_checked later, List.append_nil, stranded_eq, if_pos rfl,
        if_neg here.not_losesOptions, below]
      cases role (⟨id, d, e, children⟩ : Node) <;> simp

/-! Compiled trees. -/

theorem Node.map_target {methods : List Node}
    (named : ∀ method ∈ methods, ∃ name, method.name? = some name) :
    methods.map (·.target) = methods.filterMap (·.name?) := by
  induction methods with
  | nil => rfl
  | cons method rest ih =>
      obtain ⟨⟨name, here⟩, later⟩ := List.forall_mem_cons.1 named
      rw [List.map_cons, List.filterMap_cons_some here, ih later, Node.target_of_name? here]

namespace Node.Closed

variable {root : Node} (closed : root.Closed)
include closed

theorem nodup_targets : (root.methods.map (·.target)).Nodup :=
  Node.map_target closed.named ▸ closed.distinct

theorem method_eq {method other : Node} (declared : method ∈ root.methods)
    (declared' : other ∈ root.methods) (same : other.target = method.target) : other = method :=
  List.inj_on_of_nodup_map closed.nodup_targets declared' declared same

theorem target_mem_liveMethods {method : Node} (declared : method ∈ root.methods) :
    method.target ∈ root.liveMethods := by
  obtain ⟨name, named⟩ := closed.named method declared
  rw [Node.target_of_name? named]
  refine List.mem_filterMap.2 ⟨method, List.mem_filter.2 ⟨declared, ?_⟩, named⟩
  simpa using closed.filled method declared

theorem allLive {nodes : List Node} (inside : preorderAll nodes ⊆ root.preorder) :
    AllLive root.liveMethods nodes := by
  intro node member kind
  obtain ⟨method, declared, name, named, named'⟩ := closed.answered node (inside member) kind
  rw [Node.target_of_name? named', ← Node.target_of_name? named]
  exact closed.target_mem_liveMethods declared

end Node.Closed

namespace Compiled

variable {library : Library} {filter : Node → Bool} {scripts : List Script} {script : Script}
  {table : CallTable} {done callees : List Callee} {inline : Bool} {slots : Rebuild.Slots}
  {body : List Node} {tree : Node}

theorem settled_names (compiled : Compiled table filter inline script slots body tree)
    (closed : tree.Closed) (explored : table.Explored library filter scripts script done)
    (settled : Settled (Invokes library filter scripts) callees) (distinct : callees.Nodup) :
    ∃ names, Settled tree.Calls names ∧ names.Nodup ∧ ∀ name, name ∈ names ↔
      (∃ method ∈ tree.methods, method.name? = some name) ∧
        ∃ shared, table.body? shared.callee = some shared ∧ shared.callee ∈ callees ∧
          shared.canonical = name := by
  induction settled with
  | nil => exact ⟨[], .nil, .nil, by simp⟩
  | @cons callee rest later settled ih =>
      obtain ⟨fresh, distinct⟩ := List.nodup_cons.1 distinct
      obtain ⟨names, settledNames, distinctNames, same⟩ := ih distinct
      -- Bodies whose methods were pruned away are left out of the order.
      by_cases declared : ∃ method ∈ tree.methods, ∃ shared,
          table.body? shared.callee = some shared ∧ shared.callee = callee ∧
            method.name? = some shared.canonical
      · obtain ⟨method, member, shared, known, rfl, named⟩ := declared
        have inTable := List.mem_of_find?_eq_some known
        refine ⟨shared.canonical :: names, .cons ?_ settledNames,
          List.nodup_cons.2 ⟨?_, distinctNames⟩, fun name => ?_⟩
        · rintro next ⟨other, member', named', call, below, kind, target⟩
          obtain ⟨reached, there, among, target'⟩ := compiled.calls explored
            (.cons later settled) member' inTable (List.mem_cons_self ..) named' call below kind
          have inside : call ∈ tree.preorder := Node.preorderAll_method member' below
          obtain ⟨called, declared, _, namedCalled, sameName⟩ := closed.answered call inside kind
          rw [sameName] at target target'
          cases target
          cases target'
          obtain ⟨again, _, known', -, named'', -⟩ := compiled.exists_methodOf declared
          obtain rfl := explored.body_eq (List.mem_of_find?_eq_some known') there
            (Option.some.inj (named''.symm.trans namedCalled))
          exact (same _).2 ⟨⟨called, declared, namedCalled⟩, again, known', among, rfl⟩
        · intro member'
          obtain ⟨-, other, known', among, sameName⟩ := (same _).1 member'
          obtain rfl := explored.body_eq (List.mem_of_find?_eq_some known') inTable sameName
          exact fresh among
        · rw [List.mem_cons, same]
          constructor
          · rintro (rfl | ⟨there, other, known', among, sameName⟩)
            · exact ⟨⟨method, member, named⟩, shared, known, List.mem_cons_self .., rfl⟩
            · exact ⟨there, other, known', List.mem_cons_of_mem _ among, sameName⟩
          · rintro ⟨there, other, known', among, sameName⟩
            rcases List.mem_cons.1 among with here | among
            · rw [here, known] at known'
              cases known'
              exact .inl sameName.symm
            · exact .inr ⟨there, other, known', among, sameName⟩
      · refine ⟨names, settledNames, distinctNames, fun name => (same name).trans ?_⟩
        constructor
        · rintro ⟨there, other, known', among, sameName⟩
          exact ⟨there, other, known', List.mem_cons_of_mem _ among, sameName⟩
        · rintro ⟨⟨method, member, named⟩, other, known', among, rfl⟩
          refine ⟨⟨method, member, named⟩, other, known', ?_, rfl⟩
          exact (List.mem_cons.1 among).resolve_left fun here =>
            declared ⟨method, member, other, known', here, named⟩

theorem settled (compiled : Compiled table filter inline script slots body tree)
    (closed : tree.Closed) (explored : table.Explored library filter scripts script done) :
    ∃ names, Settled tree.Calls names ∧ names.Nodup ∧
      ∀ name, name ∈ names ↔ ∃ method ∈ tree.methods, method.name? = some name := by
  obtain ⟨names, settled, distinct, same⟩ :=
    compiled.settled_names closed explored explored.settled explored.distinct
  refine ⟨names, settled, distinct, fun name => (same name).trans (and_iff_left_of_imp ?_)⟩
  rintro ⟨method, declared, named⟩
  obtain ⟨shared, _, known, -, named', -⟩ := compiled.exists_methodOf declared
  refine ⟨shared, known, (explored.entered _).2 ⟨shared, List.mem_of_find?_eq_some known, rfl⟩, ?_⟩
  exact Option.some.inj (named'.symm.trans named)

/-- What pruning leaves of the methods, when it leaves those that the tree has. -/
theorem surviving (compiled : Compiled table filter inline script slots body tree)
    (closed : tree.Closed)
    (pruned : Pruned tree.liveMethods (slots.filterMap (·.2)) tree.methods) :
    Surviving tree.liveMethods (slots.filterMap (·.2)) tree.methods := by
  have named : ∀ method ∈ slots.filterMap (·.2), ∃ name, method.name? = some name :=
    fun method member => (compiled.flat.method member).2.1
  have distinct := compiled.flat.nodup_names compiled.complete
  rw [← Node.map_target named] at distinct
  refine .of_pruned pruned (fun method member => (compiled.flat.method member).1) distinct
    (fun method member => closed.target_mem_liveMethods member) (fun method _ live => ?_)
    fun method member => closed.allLive (Node.preorderAll_method member)
  obtain ⟨other, member, named⟩ := List.mem_filterMap.1 live
  exact List.mem_map.2 ⟨other, (List.mem_filter.1 member).1, Node.target_of_name? named⟩

theorem ordered (compiled : Compiled table filter inline script slots body tree)
    (closed : tree.Closed)
    (methods : Pruned tree.liveMethods (slots.filterMap (·.2)) tree.methods)
    (rest : Pruned tree.liveMethods body tree.body)
    (discovers : Discovers [] body (slots.filterMap (·.2))) :
    Discovers [] tree.body tree.methods := by
  refine discovers.pruned rest (closed.allLive fun node member => ?_)
    (compiled.surviving closed methods)
  refine Node.mem_preorder.2 (.inr ?_)
  rw [compiled.split, Node.preorderAll_append]
  exact List.mem_append_right _ member

end Compiled

theorem exists_compiled_of_plain {table : CallTable} {filter : Node → Bool} {inline : Bool}
    {options : CompileOptions} (plain : options.obfuscate = false) {script : Script}
    {children : List Node} {tree : Node} {next between next' : NodeId}
    (rebuilt : Rebuild.script table filter inline script next = .ok (children, between))
    (finished : finishTree options script.root.declaration children between = .ok (tree, next')) :
    ∃ slots body, Compiled table filter inline script slots body tree ∧
      Pruned tree.liveMethods (slots.filterMap (·.2)) tree.methods ∧
      Pruned tree.liveMethods body tree.body ∧
      ((∀ body ∈ table.bodies, Node.strandedAll filter body.nodes = []) →
        Node.strandedAll filter script.root.body = [] →
          Discovers [] body (slots.filterMap (·.2))) := by
  obtain ⟨slots, body, rfl, flat, complete, ⟨left, flattened⟩, discovers⟩ :=
    Rebuild.script_flattens rebuilt
  obtain ⟨declaration, -, pruned, clean⟩ := finishTree_plain_eq_ok plain finished
  obtain ⟨methods, rest, split, prunedMethods, prunedRest⟩ := pruned.of_append
  obtain ⟨rfl, rfl⟩ := flattened.parts_eq flat split prunedMethods.thinned prunedRest.thinned
  exact ⟨slots, body,
    { flat, complete
      flattened := ⟨left, flattened⟩
      kind := congrArg Declaration.kind declaration
      split
      methods := prunedMethods.thinned
      body := prunedRest.thinned
      clean },
    prunedMethods, prunedRest, discovers⟩

theorem Rebuild.Slots.Flat.steady_of_pruned {table : CallTable} {filter : Node → Bool}
    {inline : Bool} {slots : Slots} {live : List String} {kept : List Node}
    (flat : slots.Flat table filter inline)
    (sanitized : ∀ body ∈ table.bodies, ScopePath.sanitize body.canonical = body.canonical)
    (bodies : ∀ body ∈ table.bodies, ∀ node ∈ Node.preorderAll body.nodes, node.Checked)
    (pruned : Pruned live (slots.filterMap (·.2)) kept) :
    ∀ method ∈ kept, method.SteadyMethod := by
  intro method member
  obtain ⟨made, there, declaration, checked, below⟩ := pruned.exists_top method member
  obtain ⟨⟨name, slot⟩, filled, rfl⟩ := List.mem_filterMap.1 there
  obtain ⟨shared, known, rfl, of⟩ := flat.complete name made filled
  obtain ⟨_, flattened⟩ := of.flattened
  have inTable := List.mem_of_find?_eq_some known
  refine ⟨checked of.checked, ⟨shared.canonical, sanitized shared inTable,
    declaration.trans of.declaration⟩, fun node member => ?_⟩
  obtain ⟨old, inside, same, checked, -⟩ := below.exists_of_mem node member
  exact (flattened.steady bodies (bodies shared inTable) old inside).of_declaration same checked

/-- A tree that was compiled from scripts whose nodes pass their checks, with all its names, is
finished. -/
theorem compiled_tree_finished {options : CompileOptions} (plain : options.obfuscate = false)
    {library : Library} {script : Script} (rooted : script.root.kind = .script)
    (distinct : DistinctScripts (script :: library.scripts))
    (built : ∀ known ∈ script :: library.scripts, known.root.Built) {next next' : NodeId}
    {tree : Node} (compiles : compile options (fun _ => true) library script next =
      .ok (tree, next')) : tree.Finished := by
  obtain ⟨table, children, between, scanned, rebuilt, finished⟩ := compile_eq_ok.1 compiles
  obtain ⟨-, checked, -, clean⟩ := finishTree_plain_eq_ok plain finished
  obtain ⟨slots, body, compiled, prunedMethods, prunedRest, discovers⟩ :=
    exists_compiled_of_plain plain rebuilt finished
  have closed := compiled.closed rooted
  have known : script ∈ script :: library.scripts := List.mem_cons_self ..
  have atHand := distinct.atHand
  have sound := CallTable.sound_of_ofScript atHand known (plain ▸ scanned)
  have explored := @CallTable.ofScript_explored _ (fun _ => true) options.obfuscate _ distinct
  rw [scanned] at explored
  obtain ⟨done, explored⟩ := explored
  have bodies : ∀ body ∈ table.bodies, ∀ node ∈ Node.preorderAll body.nodes, node.Checked :=
    fun body member => (sound.drawn body member).checked built
  have own := (Drawn.script known).checked built
  refine ⟨closed, clean, checked,
    compiled.flat.steady_of_pruned sound.sanitized bodies prunedMethods,
    fun node member => ?_, ?_, compiled.settled closed explored⟩
  · obtain ⟨_, flattened⟩ := compiled.flattened
    obtain ⟨old, inside, same, checked, -⟩ := prunedRest.exists_of_mem node member
    exact (flattened.steady bodies own old inside).of_declaration same checked
  · exact compiled.ordered closed prunedMethods prunedRest (discovers
      (fun body member => Node.strandedAll_of_checked (bodies body member))
      (Node.strandedAll_of_checked own))

end Archetype
