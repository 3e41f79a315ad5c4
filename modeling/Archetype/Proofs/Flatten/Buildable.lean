import Archetype.Proofs.Flatten.Fitting
import Archetype.Proofs.Flatten.Obfuscation
import Archetype.Proofs.Flatten.Recompiling

/-!
When compiling never fails as building does: every node that is built anew passes its checks, while
the script is rebuilt, when it is pruned and when its names are hidden.
-/

namespace Archetype

open Stateful

namespace Rebuild

def Safe (work : Rebuild α) (s : State) : Prop :=
  Ensures work s (fun _ _ => True) fun error => error.isConstruction = false

variable {table : CallTable} {filter : Node → Bool} {inline : Bool}
  {rebuildNodes : Script → List Node → Rebuild (List Node)}

theorem safe_build {d : Declaration} {children : List Node} {e : Option Expression}
    (check : d.check children = .ok e) (s : State) : Safe (build d children) s :=
  (ensures_build check s).imp (fun _ _ _ => trivial) fun _ => False.elim

theorem safe_inScope {list : List Node} {work : Rebuild (List Node)} (inner : ∀ s, Safe work s)
    (s : State) : Safe (inScope list work) s := by
  unfold inScope
  refine ensures_get_bind (ensures_modify_bind (ensures_bind (inner _) fun _ _ _ => ?_))
  exact ensures_modify_bind (ensures_pure trivial)

theorem safe_reserve (names : List String) (s : State) : Safe (reserve names) s := by
  unfold reserve
  refine ensures_get_bind ?_
  split
  · exact ensures_pure trivial
  · exact ensures_set_bind (ensures_pure trivial)

section Bodies

variable (logs : Logs table filter inline rebuildNodes)
  (bodies : ∀ body ∈ table.bodies, FittingBody filter body.nodes)
  (inner : ∀ body ∈ table.bodies, ∀ s, Safe (rebuildNodes body.script body.nodes) s)
include logs bodies inner

theorem safe_emit {body : SharedBody} (known : body ∈ table.bodies) (s : State) :
    Safe (emit rebuildNodes body) s := by
  unfold emit
  refine ensures_get_bind ?_
  split
  · exact ensures_pure trivial
  refine ensures_modify_bind (ensures_bind_of_ok (safe_inScope (inner body known) _) ?_)
  intro children outer rebuilt
  obtain ⟨_, walked, -⟩ := inScope_eq_ok_iff.1 rebuilt
  obtain ⟨_, logged⟩ := logs walked
  obtain ⟨-, -, flattened⟩ := logged.flattens
  have check := Declaration.check_generated (.inl rfl) body.canonical none
    (flattened.placed bodies ((bodies body known).allFitBelow_top (.inr rfl)))
  exact ensures_bind (safe_build check outer) fun _ _ _ => ensures_modify trivial

theorem safe_call {body : SharedBody} (known : body ∈ table.bodies) (location : Option Location)
    (s : State) :
    Safe (emit rebuildNodes body >>= fun _ =>
      build { kind := .invokeCall, attributes := .ofList [("name", .string body.canonical)],
              location := location } [] >>= fun call => pure [call]) s := by
  refine ensures_bind (safe_emit logs bodies inner known s) fun _ emitted _ => ?_
  have check := @Declaration.check_generated [] .invokeCall (.inr rfl) body.canonical location nofun
  exact ensures_bind (safe_build check emitted) fun _ _ _ => ensures_pure trivial

theorem safe_invoke (location : Option Location) (target : String) (script : Script)
    (callee : Callee) (s : State) :
    Safe (invoke table inline rebuildNodes location target script callee) s := by
  unfold invoke
  cases found : table.body? callee with
  | none => exact ensures_throw rfl
  | some body =>
      have known := List.mem_of_find?_eq_some found
      have call := safe_call logs bodies inner known location
      simp only
      split
      · refine ensures_bind (safe_reserve _ s) fun inlined between _ => ?_
        cases inlined with
        | true => exact inner body known between
        | false => exact call between
      · exact call s

omit inner in
/-- A node is built again only if it has room for its children. -/
theorem safe_block (script : Script) {node : Node} (checked : node.Checked)
    (fits : node.Fits filter) (fit : Node.AllFit filter node.children)
    (below : ∀ s, Safe (nodes table filter inline rebuildNodes script node.children) s)
    (s : State) :
    Safe ((if node.kind.frame?.isSome then
        inScope node.children (nodes table filter inline rebuildNodes script node.children)
      else nodes table filter inline rebuildNodes script node.children) >>= fun rebuilt =>
        if node.kind.takesOptions && !rebuilt.any (·.kind = .option) then pure []
        else build node.declaration rebuilt >>= fun twin => pure [twin]) s := by
  refine ensures_bind_of_ok (Q := fun _ _ => True) ?_ fun result between walked => ?_
  · split
    · exact safe_inScope below s
    · exact below s
  obtain ⟨names, taken, left, flattened⟩ : ∃ names taken left,
      Flattened table filter inline names script taken node.children result left := by
    split at walked
    · obtain ⟨_, walked, -⟩ := inScope_eq_ok_iff.1 walked
      obtain ⟨_, logged⟩ := exists_log_nodes logs script _ walked
      exact ⟨_, _, _, logged.flattens.flattened⟩
    · obtain ⟨_, logged⟩ := exists_log_nodes logs script _ walked
      exact ⟨_, _, _, logged.flattens.flattened⟩
  split
  · exact ensures_pure trivial
  · next keeps =>
      have room := flattened.accommodates bodies fits fit fun takes => by simpa [takes] using keeps
      exact ensures_bind (safe_build (room.check checked) between) fun _ _ _ => ensures_pure trivial

theorem safe_nodes (script : Script) : ∀ list : List Node, Node.AllFit filter list →
    ∀ s, Safe (nodes table filter inline rebuildNodes script list) s
  | [], _, s => ensures_pure trivial
  | ⟨id, d, e, children⟩ :: rest, fit, s => by
      have below := safe_nodes script children
      have later := safe_nodes script rest
      generalize hnode : (⟨id, d, e, children⟩ : Node) = node at fit ⊢
      rw [← show node.children = children from hnode ▸ rfl] at below
      obtain ⟨⟨checked, fits⟩, fitBelow, fitLater⟩ := fit.of_cons
      rw [nodes]
      refine ensures_bind (Q := fun _ _ => True) ?_ fun _ _ _ =>
        ensures_bind (later fitLater _) fun _ _ _ => ensures_pure trivial
      rw [node_eq]
      split
      · next accepts =>
          cases role : node.role with
          | declaration => exact ensures_pure trivial
          | condition =>
              simp only
              cases node.constant? with
              | some truth =>
                  cases truth with
                  | true => exact below fitBelow s
                  | false => exact ensures_pure trivial
              | none =>
                  refine ensures_bind_of_ok (below fitBelow s) fun children between walked => ?_
                  obtain ⟨_, logged⟩ := exists_log_nodes logs script _ walked
                  obtain ⟨-, -, flattened⟩ := logged.flattens
                  obtain ⟨_, check⟩ := Declaration.check_folded (Node.role_eq_condition role)
                    checked (flattened.placed bodies (fits accepts).below)
                  exact ensures_bind (safe_build check between) fun _ _ _ => ensures_pure trivial
          | source =>
              simp only
              cases table.identity? node.origin with
              | none => exact ensures_throw rfl
              | some identity => exact safe_invoke logs bodies inner _ _ _ _ s
          | call => exact safe_invoke logs bodies inner _ _ _ _ s
          | block frame =>
              exact safe_block logs bodies script checked (fits accepts) fitBelow
                (below fitBelow) s
      · exact ensures_pure trivial
termination_by list => sizeOf list

end Bodies

theorem safe_rebuildNodes (bodies : ∀ body ∈ table.bodies, FittingBody filter body.nodes)
    (limit : Nat) : ∀ (script : Script) (nodes : List Node), Node.AllFit filter nodes →
      ∀ s, Safe (Rebuild.rebuildNodes table filter inline limit script nodes) s := by
  induction limit with
  | zero => exact fun _ _ _ _ => ensures_throw rfl
  | succ limit ih =>
      intro script nodes fit
      exact safe_nodes (logs_rebuildNodes limit) bodies
        (fun body member => ih body.script body.nodes (bodies body member).fit) script nodes fit

end Rebuild

/-! Pruning. -/

namespace Prune

variable {live : List String}

theorem exists_option {list : List Node} {result : Option (List Node)} {s s' : NodeId}
    (gives : Prune.nodes live list s = .ok (result, s')) {option : Node} (member : option ∈ list)
    (kind : option.kind = .option) :
    ∃ twin ∈ result.getD list, twin.declaration = option.declaration := by
  induction list generalizing result s with
  | nil => cases member
  | cons first rest ih =>
      rw [Prune.nodes] at gives
      split at gives
      · next dead =>
          rw [bind_eq_ok] at gives
          obtain ⟨kept, between, later, gives⟩ := gives
          obtain ⟨rfl, rfl⟩ := pure_eq_ok.1 gives
          rcases List.mem_cons.1 member with rfl | member
          · simp [Node.isDead, Node.isPrunableIfEmpty, kind, NodeKind.prunableIfEmpty] at dead
          · exact ih later member
      · simp only [bind_eq_ok] at gives
        obtain ⟨pruned, between, here, kept, after, later, gives⟩ := gives
        split at gives
        · obtain ⟨rfl, rfl⟩ := pure_eq_ok.1 gives
          exact ⟨option, member, rfl⟩
        · obtain ⟨rfl, rfl⟩ := pure_eq_ok.1 gives
          rcases List.mem_cons.1 member with rfl | member
          · refine ⟨_, List.mem_cons_self .., ?_⟩
            cases pruned with
            | none => rfl
            | some twin => exact ((node_eq_ok here).2 twin rfl).1
          · obtain ⟨twin, inside, same⟩ := ih later member
            exact ⟨twin, List.mem_cons_of_mem _ inside, same⟩

/-- A declaration has room for what a round leaves of the children that it has room for. -/
theorem accommodates {d : Declaration} {children kept : List Node} {s s' : NodeId}
    (room : d.Accommodates children)
    (gives : Prune.nodes live children s = .ok (some kept, s')) : d.Accommodates kept where
  placed child member := by
    obtain ⟨old, inside, same, -⟩ := (nodes_eq_ok gives).1.pruned.exists_top child member
    exact same ▸ room.placed old inside
  offered takes := by
    obtain ⟨option, member, kind⟩ := room.offered takes
    obtain ⟨twin, inside, same⟩ := exists_option gives member kind
    exact ⟨twin, inside, (congrArg Declaration.kind same).trans kind⟩
  picked takes value picked := by
    obtain ⟨option, member, kind, chosen⟩ := room.picked takes value picked
    obtain ⟨twin, inside, same⟩ := exists_option gives member kind
    exact ⟨twin, inside, (congrArg Declaration.kind same).trans kind, same ▸ chosen⟩

mutual
theorem ensures_node : ∀ (node : Node) (s : NodeId), (∀ below ∈ node.preorder, below.Checked) →
    Ensures (Prune.node live node) s (fun _ _ => True) fun _ => False
  | ⟨id, d, e, children⟩, s, checked => by
      have inside : ∀ below ∈ Node.preorderAll children, below.Checked := fun below member =>
        checked below (List.mem_cons_of_mem _ member)
      have here : d.check children = .ok e := checked _ (List.mem_cons_self ..)
      rw [Prune.node]
      refine ensures_bind_of_ok (ensures_nodes children s inside) fun result between gives => ?_
      cases result with
      | none => exact ensures_pure trivial
      | some kept =>
          have room := accommodates (Declaration.accommodates_of_check here) gives
          refine ensures_bind (Q := fun _ _ => True) ?_ fun _ _ _ => ensures_pure trivial
          unfold Ensures Declaration.build
          rw [room.check here]
          trivial

theorem ensures_nodes : ∀ (list : List Node) (s : NodeId),
    (∀ below ∈ Node.preorderAll list, below.Checked) →
    Ensures (Prune.nodes live list) s (fun _ _ => True) fun _ => False
  | [], s, _ => ensures_pure trivial
  | first :: rest, s, checked => by
      have here : ∀ below ∈ first.preorder, below.Checked := fun below member =>
        checked below (List.mem_append_left _ member)
      have later := fun s => ensures_nodes rest s fun below member =>
        checked below (List.mem_append_right _ member)
      rw [Prune.nodes]
      split
      · exact ensures_bind (later s) fun _ _ _ => ensures_pure trivial
      · refine ensures_bind (ensures_node first s here) fun _ between _ => ?_
        refine ensures_bind (later between) fun _ _ _ => ?_
        split
        · exact ensures_pure trivial
        · exact ensures_pure trivial
end

theorem built_of_round {root fewer : Node} {s s' : NodeId} (built : root.Built)
    (round : Prune.node live root s = .ok (some fewer, s')) : fewer.Built := by
  obtain ⟨below, rebuilt⟩ := node_eq_ok round
  intro node member
  rcases Node.mem_preorder.1 member with rfl | member
  · exact (rebuilt node rfl).2
  · obtain ⟨old, inside, -, passes, -⟩ := below.1.pruned.exists_of_mem node member
    exact passes (built old (Node.mem_preorder.2 (.inr inside)))

theorem ensures_rounds (n : Nat) {root : Node} (built : root.Built) (s : NodeId) :
    Ensures (rounds n root) s (fun pruned _ => pruned.Built) fun _ => False := by
  induction n generalizing root s with
  | zero => exact ensures_pure built
  | succ n ih =>
      rw [rounds]
      refine ensures_bind_of_ok (ensures_node root s built) fun result between round => ?_
      cases result with
      | none => exact ensures_pure built
      | some fewer => exact ih (built_of_round built round) between

end Prune

namespace Rebuild

variable {table : CallTable} {filter : Node → Bool} {inline : Bool} {script : Script}
  {next : NodeId}

theorem script_ne_construction (bodies : ∀ body ∈ table.bodies, FittingBody filter body.nodes)
    (fit : Node.AllFit filter script.root.body) {error : CompileError}
    (fails : Rebuild.script table filter inline script next = .error error) :
    error.isConstruction ≠ true := by
  have safe : Safe (inScope script.root.body (rebuildNodes table filter inline
      (table.bodies.length + 1) script script.root.body)) { next } :=
    safe_inScope (safe_rebuildNodes bodies _ script _ fit) { next }
  unfold Rebuild.script at fails
  cases outcome : inScope script.root.body (rebuildNodes table filter inline
      (table.bodies.length + 1) script script.root.body) { next } with
  | ok pair =>
      rw [StateT.run, outcome] at fails
      cases fails
  | error other =>
      rw [StateT.run, outcome] at fails
      cases fails
      exact ne_true_of_eq_false (safe.of_error outcome)

/-- The root of a script has room for what the script is rebuilt into, and that is valid. -/
theorem script_valid (bodies : ∀ body ∈ table.bodies, FittingBody filter body.nodes)
    (own : FittingBody filter script.root.body) (rooted : script.root.kind = .script)
    (built : script.root.Built) {children : List Node} {next' : NodeId}
    (gives : Rebuild.script table filter inline script next = .ok (children, next')) :
    (∃ e, script.root.declaration.check children = .ok e) ∧
      ∀ node ∈ Node.preorderAll children, node.Checked := by
  have rooted : script.root.declaration.kind = .script := rooted
  have all : ∀ body ∈ table.bodies, ∀ node ∈ Node.preorderAll body.nodes, node.Checked :=
    fun body member node inside => ((bodies body member).fit node inside).1
  obtain ⟨slots, body, rfl, flat, -, ⟨left, flattened⟩, -⟩ := script_flattens gives
  have methods : ∀ method ∈ slots.filterMap (·.2), method.kind = .method ∧ method.Checked ∧
      ∀ node ∈ Node.preorderAll method.children, node.Checked := by
    intro method member
    obtain ⟨⟨name, slot⟩, inside, complete⟩ := List.mem_filterMap.1 member
    simp only at complete
    subst complete
    obtain ⟨shared, found, -, made⟩ := flat.complete name method inside
    obtain ⟨_, below⟩ := made.flattened
    refine ⟨made.kind, made.checked, fun node inside => ?_⟩
    exact (below.steady all (all shared (List.mem_of_find?_eq_some found)) node inside).checked
  constructor
  · refine ⟨_, (Declaration.Accommodates.of_placed ?_ ?_).check built.check⟩
    · rw [rooted]
      rfl
    · refine List.forall_mem_append.2 ⟨fun method member => ?_, ?_⟩
      · have kind : method.declaration.kind = .method := (methods method member).1
        simp [Declaration.childFault?, Declaration.needsName, NodeKind.isModel, rooted, kind]
      · exact flattened.placed bodies (own.allFitBelow_top (.inl rooted))
  · rw [Node.preorderAll_append]
    refine List.forall_mem_append.2 ⟨fun node member => ?_, fun node member => ?_⟩
    · obtain ⟨method, declared, inside⟩ := Node.mem_preorderAll.1 member
      rcases Node.mem_preorder.1 inside with rfl | inside
      · exact (methods node declared).2.1
      · exact (methods method declared).2.2 node inside
    · exact (flattened.steady all (fun node inside => (own.fit node inside).1) node member).checked

end Rebuild

/-- Nodes that pass their checks are finished without fail below a root that has room for them. -/
theorem ensures_finishTree (options : CompileOptions) {root : Declaration} {children : List Node}
    {e : Option Expression} (check : root.check children = .ok e)
    (checked : ∀ node ∈ Node.preorderAll children, node.Checked) (s : NodeId) :
    Ensures (finishTree options root children) s (fun _ _ => True) fun _ => False := by
  unfold finishTree
  refine ensures_bind_of_ok (Q := fun _ _ => True) ?_ fun rebuilt between build => ?_
  · unfold Ensures Declaration.build
    rw [check]
    trivial
  obtain ⟨-, rfl, passes⟩ := Declaration.build_eq_ok build
  have all : ∀ node ∈ rebuilt.preorder, node.Checked := by
    intro node member
    rcases Node.mem_preorder.1 member with rfl | member
    · exact passes
    · exact checked node member
  refine ensures_bind (Prune.ensures_rounds _ all between) fun pruned after checked => ?_
  split
  · obtain ⟨hidden, last, gives, -⟩ := pruned.anonymize_of_checked after checked
    unfold Ensures
    rw [gives]
    trivial
  · exact ensures_pure trivial

/-- A script never fails to compile because a node cannot be built, if it and the scripts at hand
were built of valid nodes and what is left of these fits. -/
theorem compile_builds_valid_nodes {options : CompileOptions} {filter : Node → Bool}
    {library : Library} {script : Script}
    (rooted : ∀ known ∈ script :: library.scripts, known.root.kind = .script)
    (built : ∀ known ∈ script :: library.scripts, known.root.Built)
    (fits : ∀ known ∈ script :: library.scripts, known.Fits filter) (next : NodeId)
    (error : NodeError) :
    compile options filter library script next ≠ .error (.construction error) := by
  intro fails
  have scan := CallTable.ofScript_shares library filter options.obfuscate script
  unfold compile at fails
  cases scanned : CallTable.ofScript library filter options.obfuscate script with
  | error other =>
      simp only [scanned, bind, Except.bind] at scan fails
      cases fails
      cases scan
  | ok table =>
      simp only [scanned, bind, Except.bind] at scan fails
      have bodies : ∀ body ∈ table.bodies, FittingBody filter body.nodes := by
        intro body member
        obtain ⟨source, known, shares⟩ := scan body member
        exact (fits source known).fittingBody (rooted source known) (built source known) shares
      have known : script ∈ script :: library.scripts := List.mem_cons_self ..
      have own := (fits script known).fittingBody (rooted script known) (built script known) .body
      cases rebuilt : Rebuild.script table filter options.inlineSingleUse script next with
      | error other =>
          simp only [rebuilt] at fails
          cases fails
          exact Rebuild.script_ne_construction bodies own.fit rebuilt rfl
      | ok pair =>
          obtain ⟨children, between⟩ := pair
          simp only [rebuilt] at fails
          obtain ⟨⟨e, check⟩, checked⟩ := Rebuild.script_valid bodies own (rooted script known)
            (built script known) rebuilt
          have finishes := ensures_finishTree options check checked between
          cases finished : finishTree options script.root.declaration children between with
          | error other => exact finishes.of_error finished
          | ok pair =>
              rw [finished] at fails
              cases fails

def Node.always (id : UInt64) (children : List Node) : Node where
  id := ⟨id⟩
  declaration := { kind := .condition, attributes := .ofList [("expression", .string "true")] }
  expression := some (.literal (.bool true))
  children := children

def offeringScript : Script where
  identity := "a"
  root := .bare 9 .script []
    [.always 2 [.bare 1 .modelValue [("name", .string "x"), ("value", .string "1")] []],
      .bare 5 .inputEnum [("name", .string "e"), ("default", .string "p")]
        [.bare 3 .option [("value", .string "p")] [], .bare 4 .option [("value", .string "q")] []],
      .bare 6 .invokeSource [("src", .string "b")] []]

/-- The condition gives way to the value, and the option that the default chooses stays. -/
theorem compile_builds_valid_nodes_of_rejected_option :
    let filter := fun node : Node => decide (node.declaration.value? ≠ some (.string "q"))
    let library := Library.ofScripts [askingScript]
    (∀ known ∈ offeringScript :: library.scripts, known.root.kind = .script) ∧
    (∀ known ∈ offeringScript :: library.scripts, known.root.Built) ∧
    (∀ known ∈ offeringScript :: library.scripts, known.Fits filter) ∧
    ∀ options next error,
      compile options filter library offeringScript next ≠ .error (.construction error) := by
  intro filter library
  have rooted : ∀ known ∈ offeringScript :: library.scripts, known.root.kind = .script := by
    decide +kernel
  have built : ∀ known ∈ offeringScript :: library.scripts, known.root.Built := by
    unfold Node.Built
    decide +kernel
  have fits : ∀ known ∈ offeringScript :: library.scripts, known.Fits filter := by
    decide +kernel
  exact ⟨rooted, built, fits, fun options next error =>
    compile_builds_valid_nodes rooted built fits next error⟩

/-- A list whose entries stand in a condition: two calls of one method, which are no model nodes. -/
def calledListScript : Script where
  identity := "a"
  root := .bare 7 .script []
    [.bare 2 .method [("name", .string "m")]
        [.bare 1 .modelValue [("name", .string "x"), ("value", .string "1")] []],
      .bare 6 .modelList [("name", .string "l")]
        [.always 5 [.bare 3 .invokeCall [("name", .string "m")] [],
          .bare 4 .invokeCall [("name", .string "m")] []]]]

/-- The condition gives way to calls that may not stand in the list. -/
theorem listed_calls_not_rebuilt :
    calledListScript.root.kind = .script ∧ calledListScript.root.Built ∧
    compile {} (fun _ => true) .empty calledListScript ⟨20⟩ =
      .error (.construction (.invalidChild .modelList .invokeCall .foreignToModel)) := by
  refine ⟨rfl, ?_, ?_⟩
  · unfold Node.Built
    decide +kernel
  · have evaluated : (match compile {} (fun _ => true) .empty calledListScript ⟨20⟩ with
        | .ok _ => false
        | .error error => decide (error =
            .construction (.invalidChild .modelList .invokeCall .foreignToModel))) = true := by
      decide +kernel
    split at evaluated
    · cases evaluated
    · next error fails => rw [fails, of_decide_eq_true evaluated]

end Archetype
