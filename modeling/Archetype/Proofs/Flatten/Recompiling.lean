import Archetype.Proofs.Flatten.Renumbered
import Archetype.Proofs.Flatten.Rescanning

/-!
Compiling a compiled tree once more. As long as no call can give way to the body of its method,
nothing changes but construction numbers.
-/

namespace Archetype

open Stateful

mutual
def Node.calledHere : Node → List String
  | ⟨_, d, _, children⟩ =>
      match d.kind with
      | .invokeCall => [d.name?.getD ""]
      | kind => if kind.frame?.isSome then [] else Node.allCalledHere children

def Node.allCalledHere : List Node → List String
  | [] => []
  | node :: rest => node.calledHere ++ Node.allCalledHere rest
end

namespace Node

theorem calledHere_eq (node : Node) : node.calledHere =
    match node.role with
    | .call => [node.target]
    | _ => if node.kind.frame?.isSome then [] else allCalledHere node.children := by
  obtain ⟨id, d, e, children⟩ := node
  unfold calledHere role
  simp only [Node.kind, Node.name?, Node.target]
  cases d.kind <;> simp only [NodeKind.frame?] <;> cases d.name? <;> rfl

/-- The nodes that are walked in one scope, for every scope: the body of the root and whatever
stands below a node with a frame or in a method. -/
def scopes (root : Node) : List (List Node) :=
  root.body :: ((preorderAll root.children).filter (·.kind.frame?.isSome)).map (·.children)

/-- A tree in which no call can give way to the body of its method: wherever a method is called for
the only time, it binds something in the scope of the call or opens a frame that is there. -/
def KeepsCalls (root : Node) : Prop :=
  ∀ scope ∈ root.scopes, ∀ name ∈ allCalledHere scope, ∀ method ∈ root.methods,
    method.name? = some name → (called root.children).count name = 1 →
      method.children.all (·.bindsNothing) = true →
        ∃ frame ∈ allFrameNames method.children, frame ∈ allFrameNames scope

instance (root : Node) : Decidable root.KeepsCalls :=
  inferInstanceAs (Decidable (∀ scope ∈ root.scopes, ∀ name ∈ allCalledHere scope,
    ∀ method ∈ root.methods, method.name? = some name → (called root.children).count name = 1 →
      method.children.all (·.bindsNothing) = true →
        ∃ frame ∈ allFrameNames method.children, frame ∈ allFrameNames scope))

end Node

namespace Rebuild

/-- No call that the nodes make in their scope gives way to a body where the frames are taken. -/
def Stays (table : CallTable) (inline : Bool) (script : Script) (nodes : List Node)
    (taken : List String) : Prop :=
  inline = true → ∀ name ∈ Node.allCalledHere nodes, ∀ body,
    table.body? (.method script.identity name) = some body → body.count = 1 →
      body.isInlinable = true → ∃ frame ∈ Node.allFrameNames body.nodes, frame ∈ taken

def State.Own (script : Script) (s : State) : Prop :=
  ∀ name made, (name, some made) ∈ s.methods → ∃ method ∈ script.root.methods,
    method.name? = some name ∧ Renumbered [method] [made]

structure Repeats (script : Script) (nodes : List Node) (s : State) (result : List Node)
    (s' : State) : Prop where
  result : Renumbered nodes result
  taken : s'.taken = s.taken
  own : s.Own script → s'.Own script

variable {table : CallTable} {inline : Bool} {script : Script} {nodes : List Node}
  {taken : List String}

theorem Stays.of_cons {node : Node} (stays : Stays table inline script (node :: nodes) taken) :
    Stays table inline script [node] taken ∧ Stays table inline script nodes taken := by
  refine ⟨fun inlines name member => ?_, fun inlines name member => ?_⟩
  · rw [Node.allCalledHere, Node.allCalledHere, List.append_nil] at member
    exact stays inlines name (List.mem_append_left _ member)
  · exact stays inlines name (List.mem_append_right _ member)

theorem Stays.below {node : Node} (stays : Stays table inline script [node] taken)
    (plain : node.role ≠ .call) (frameless : node.kind.frame?.isSome = false) :
    Stays table inline script node.children taken := by
  refine fun inlines name member => stays inlines name ?_
  rw [Node.allCalledHere, Node.allCalledHere, List.append_nil, Node.calledHere_eq]
  split
  · next call => exact absurd call plain
  · simpa [frameless] using member

theorem Repeats.cons {node : Node} {result result' : List Node} {a b c : State}
    (first : Repeats script [node] a result b) (rest : Repeats script nodes b result' c) :
    Repeats script (node :: nodes) a (result ++ result') c where
  result := first.result.append rest.result
  taken := rest.taken.trans first.taken
  own own := rest.own (first.own own)

/-! Building and scopes. -/

theorem ensures_build {d : Declaration} {children : List Node} {e : Option Expression}
    (check : d.check children = .ok e) (s : State) :
    Ensures (build d children) s (fun node s' => node.declaration = d ∧ node.children = children ∧
      node.expression = e ∧ s'.methods = s.methods ∧ s'.taken = s.taken) fun _ => False := by
  unfold Ensures build Declaration.build
  rw [check]
  exact ⟨rfl, rfl, rfl, rfl, rfl⟩

theorem ensures_inScope {list : List Node} {work : Rebuild (List Node)} {s : State}
    (inner : Ensures work { s with taken := Node.allFrameNames list }
      (fun result s' => Repeats script nodes { s with taken := Node.allFrameNames list } result s')
      fun _ => False) :
    Ensures (inScope list work) s (fun result s' => Repeats script nodes s result s')
      fun _ => False := by
  unfold inScope
  refine ensures_get_bind (ensures_modify_bind (ensures_bind inner fun result s' repeats => ?_))
  exact ensures_modify_bind (ensures_pure ⟨repeats.result, rfl, repeats.own⟩)

/-! Calls. -/

variable {rebuildNodes : Script → List Node → Rebuild (List Node)}

def RepeatsAlone (rebuildNodes : Script → List Node → Rebuild (List Node)) (script : Script)
    (nodes : List Node) : Prop :=
  ∀ s, s.taken = Node.allFrameNames nodes → Ensures (rebuildNodes script nodes) s
    (fun result s' => Repeats script nodes s result s') fun _ => False

structure IsBodyOf (script : Script) (body : SharedBody) (method : Node) : Prop where
  declared : method ∈ script.root.methods
  named : method.name? = some body.canonical
  owner : body.script = script
  nodes : body.nodes = method.children

theorem ensures_emit (finished : script.root.Finished) {body : SharedBody} {method : Node}
    (is : IsBodyOf script body method)
    (inner : RepeatsAlone rebuildNodes script method.children) (s : State) :
    Ensures (emit rebuildNodes body) s
      (fun _ s' => s'.taken = s.taken ∧ (s.Own script → s'.Own script)) fun _ => False := by
  unfold emit
  refine ensures_get_bind ?_
  split
  · exact ensures_pure ⟨rfl, id⟩
  refine ensures_modify_bind ?_
  rw [is.owner, is.nodes]
  refine ensures_bind (ensures_inScope (inner _ rfl)) fun children outer repeats => ?_
  have checked := (finished.methods method is.declared).checked
  have declaration := (finished.method_declaration is.declared is.named).2
  have check : Declaration.check
      { kind := .method, attributes := .ofList [("name", .string body.canonical)] } children =
        .ok method.expression := by
    rw [← declaration, Declaration.check_congr repeats.result.declarations]
    exact checked
  refine ensures_bind (ensures_build check outer) ?_
  rintro made built ⟨declared, below, expression, methods, taken⟩
  refine ensures_modify ⟨taken.trans repeats.taken, fun own other made' member => ?_⟩
  have reserved : State.Own script
      { s with methods := s.methods ++ [(body.canonical, none)] } := by
    intro other made member
    rcases List.mem_append.1 member with member | member
    · exact own other made member
    · simp at member
  rcases Slots.mem_fill member with ⟨rfl, same⟩ | ⟨-, member⟩
  · cases same
    refine ⟨method, is.declared, is.named,
      .cons (declared.trans declaration.symm) expression ?_ .nil⟩
    rw [below]
    exact repeats.result
  · exact repeats.own reserved other made' (methods ▸ member)

theorem ensures_call (finished : script.root.Finished) {node : Node} (steady : node.Steady)
    (role : node.role = .call) {body : SharedBody} {method : Node}
    (is : IsBodyOf script body method) (target : node.target = body.canonical)
    (inner : RepeatsAlone rebuildNodes script method.children) (s : State) :
    Ensures (emit rebuildNodes body >>= fun _ =>
      build { kind := .invokeCall, attributes := .ofList [("name", .string body.canonical)],
              location := node.location } [] >>= fun call => pure [call] : Rebuild (List Node)) s
      (fun result s' => Repeats script [node] s result s') fun _ => False := by
  refine ensures_bind (ensures_emit finished is inner s) ?_
  rintro _ emitted ⟨taken, own⟩
  have kind := Node.role_eq_call.1 role
  have declaration := steady.call kind
  rw [target] at declaration
  have childless := Declaration.childless_of_call steady.checked kind
  have check : Declaration.check
      { kind := .invokeCall, attributes := .ofList [("name", .string body.canonical)],
        location := node.location } [] = .ok node.expression := by
    rw [← declaration, ← childless]
    exact steady.checked
  refine ensures_bind (ensures_build check emitted) ?_
  rintro call built ⟨declared, below, expression, methods, taken'⟩
  refine ensures_pure ⟨.cons (declared.trans declaration.symm) expression ?_ .nil,
    taken'.trans taken, fun owned => ?_⟩
  · rw [below, childless]
    exact .nil
  · unfold State.Own
    rw [methods]
    exact own owned

theorem ensures_reserve {names : List String} {s : State} (taken : ∃ name ∈ names, name ∈ s.taken) :
    Ensures (reserve names) s (fun free s' => free = false ∧ s' = s) fun _ => False := by
  unfold reserve
  refine ensures_get_bind ?_
  rw [if_pos (by simpa using taken)]
  exact ensures_pure ⟨rfl, rfl⟩

theorem ensures_invoke (finished : script.root.Finished) {node : Node} (steady : node.Steady)
    (role : node.role = .call) {body : SharedBody} {method : Node}
    (is : IsBodyOf script body method)
    (found : table.body? (.method script.identity node.target) = some body)
    (target : node.target = body.canonical)
    (inner : RepeatsAlone rebuildNodes script method.children)
    {s : State} (stays : Stays table inline script [node] s.taken) :
    Ensures (invoke table inline rebuildNodes node.location node.target script
      (.method script.identity node.target)) s
      (fun result s' => Repeats script [node] s result s') fun _ => False := by
  have call := ensures_call finished steady role is target inner s
  unfold invoke
  simp only [found]
  split
  · next may =>
      simp only [Bool.and_eq_true, decide_eq_true_eq] at may
      obtain ⟨⟨inlines, single⟩, closed⟩ := may
      have here : node.target ∈ Node.allCalledHere [node] := by
        rw [Node.allCalledHere, Node.calledHere_eq, role]
        exact List.mem_append_left _ (List.mem_singleton_self _)
      refine ensures_bind (ensures_reserve (stays inlines _ here body found single closed)) ?_
      rintro _ _ ⟨rfl, rfl⟩
      exact call
  · exact call

/-! Nodes. -/

theorem ensures_around {node : Node} (steady : node.Steady) {rebuilt : List Node}
    {s between : State} (repeats : Repeats script node.children s rebuilt between) :
    Ensures (build node.declaration rebuilt >>= fun twin => pure [twin] : Rebuild (List Node))
      between (fun result s' => Repeats script [node] s result s') fun _ => False := by
  have check : node.declaration.check rebuilt = .ok node.expression := by
    rw [Declaration.check_congr repeats.result.declarations]
    exact steady.checked
  refine ensures_bind (ensures_build check between) ?_
  rintro twin built ⟨declared, children, expression, methods, taken⟩
  refine ensures_pure ⟨.cons declared expression (children ▸ repeats.result) .nil,
    taken.trans repeats.taken, fun own => ?_⟩
  unfold State.Own
  rw [methods]
  exact repeats.own own

theorem ensures_block {node : Node} (steady : node.Steady) {s : State}
    (below : ∀ s', (s'.taken = if node.kind.frame?.isSome then Node.allFrameNames node.children
        else s.taken) →
      Ensures (Rebuild.nodes table (fun _ => true) inline rebuildNodes script node.children) s'
        (fun result s'' => Repeats script node.children s' result s'') fun _ => False) :
    Ensures ((if node.kind.frame?.isSome then inScope node.children
        (Rebuild.nodes table (fun _ => true) inline rebuildNodes script node.children)
      else Rebuild.nodes table (fun _ => true) inline rebuildNodes script node.children) >>=
        fun rebuilt =>
          if node.kind.takesOptions && !rebuilt.any (·.kind = .option) then pure []
          else build node.declaration rebuilt >>= fun twin => pure [twin] : Rebuild (List Node)) s
      (fun result s' => Repeats script [node] s result s') fun _ => False := by
  refine ensures_bind (Q := fun result s' => Repeats script node.children s result s') ?_ ?_
  · split
    · next framed =>
        exact ensures_inScope (below _ (by rw [if_pos framed]))
    · next frameless =>
        exact below s (by rw [if_neg frameless])
  · intro rebuilt between repeats
    have keeps : (node.kind.takesOptions && !rebuilt.any (·.kind = .option)) = false := by
      cases takes : node.kind.takesOptions with
      | false => rfl
      | true =>
          obtain ⟨option, member, kind⟩ := Declaration.exists_option steady.checked takes
          have there : option.declaration ∈ rebuilt.map (·.declaration) :=
            repeats.result.declarations ▸ List.mem_map_of_mem member
          obtain ⟨twin, inside, same⟩ := List.mem_map.1 there
          have any : rebuilt.any (·.kind = .option) = true :=
            List.any_eq_true.2 ⟨twin, inside, by simpa [Node.kind, same] using kind⟩
          rw [any]
          rfl
    rw [keeps]
    exact ensures_around steady repeats

/-- Steady nodes are rebuilt as they are, if the bodies of what they call are. -/
theorem ensures_nodes (finished : script.root.Finished) : ∀ list : List Node,
    (∀ node ∈ Node.preorderAll list, node.Steady) →
    (∀ name ∈ Node.called list, ∃ body method, IsBodyOf script body method ∧
      body.canonical = name ∧ table.body? (.method script.identity name) = some body ∧
      RepeatsAlone rebuildNodes script method.children) →
    (∀ node ∈ Node.preorderAll list, node.kind.frame?.isSome = true →
      Stays table inline script node.children (Node.allFrameNames node.children)) →
    ∀ s, Stays table inline script list s.taken →
      Ensures (Rebuild.nodes table (fun _ => true) inline rebuildNodes script list) s
        (fun result s' => Repeats script list s result s') fun _ => False
  | [], _, _, _, s, _ => ensures_pure ⟨.nil, rfl, id⟩
  | ⟨id, d, e, children⟩ :: rest, steady, inner, framed, s, stays => by
      have below := ensures_nodes finished children
      have later := ensures_nodes finished rest
      generalize hnode : (⟨id, d, e, children⟩ : Node) = node at steady inner framed stays ⊢
      rw [← show node.children = children from hnode ▸ rfl] at below
      obtain ⟨here, steadyBelow, steadyLater⟩ := Node.forall_preorderAll_cons.1 steady
      obtain ⟨framedHere, framedBelow, framedLater⟩ := Node.forall_preorderAll_cons.1 framed
      rw [Node.called_cons] at inner
      simp only [List.forall_mem_append] at inner
      obtain ⟨innerHere, innerBelow, innerLater⟩ := inner
      obtain ⟨staysHere, staysLater⟩ := stays.of_cons
      have below := below steadyBelow innerBelow framedBelow
      refine ensures_bind (Q := fun result s' => Repeats script [node] s result s') ?_ ?_
      · rw [node_eq, if_pos rfl]
        cases role : node.role with
        | declaration => exact absurd (Node.role_eq_declaration.1 role) here.flat.1
        | source => exact absurd (Node.role_eq_source.1 role) here.flat.2
        | condition =>
            have kind := Node.role_eq_condition role
            obtain ⟨constant, folded⟩ := here.condition kind
            simp only [constant, folded]
            refine ensures_bind (below s (staysHere.below (by simp [role])
              (by simp [kind, NodeKind.frame?]))) fun rebuilt between repeats => ?_
            exact ensures_around here repeats
        | block frame =>
            refine ensures_block here fun s' taken => below s' ?_
            rw [taken]
            split
            · next opens => exact framedHere opens
            · next frameless => exact staysHere.below (by simp [role]) (by simpa using frameless)
        | call =>
            have invokes : node.isInvocation = true := by simp [Node.isInvocation_eq, role]
            rw [invokes, if_pos rfl] at innerHere
            obtain ⟨body, method, is, canonical, found, inner⟩ :=
              innerHere node.target (List.mem_singleton_self _)
            exact ensures_invoke finished here role is found canonical.symm inner staysHere
      · intro result between first
        refine ensures_bind (later steadyLater innerLater framedLater between
          (first.taken ▸ staysLater)) fun result' last second => ?_
        exact ensures_pure (first.cons second)
termination_by list => sizeOf list

theorem stays_of_scope (rescanned : table.Rescanned script)
    (keeps : inline = true → script.root.KeepsCalls) {scope : List Node}
    (member : scope ∈ script.root.scopes) :
    Stays table inline script scope (Node.allFrameNames scope) := by
  intro inlines name called body found single closed
  have inTable := List.mem_of_find?_eq_some found
  obtain ⟨method, declared, named, callee, -, nodes⟩ := rescanned.own.bodies body inTable
  rw [CallTable.callee_eq_of_body? found] at callee
  rw [SharedBody.isInlinable, nodes] at closed
  rw [nodes]
  refine keeps inlines scope member name called method declared ?_ ?_ closed
  · rw [named, (Callee.method.inj callee).2]
  · rw [(Callee.method.inj callee).2, ← rescanned.counted body inTable, single]

theorem ensures_rebuildNodes (finished : script.root.Finished) (rescanned : table.Rescanned script)
    (keeps : inline = true → script.root.KeepsCalls) (limit : Nat) :
    ∀ {names : List String} {list : List Node}, Settled script.root.Calls names →
      names.length < limit →
      (∀ name ∈ names, ∃ method ∈ script.root.methods, method.name? = some name) →
      Node.preorderAll list ⊆ Node.preorderAll script.root.children →
      (∀ node ∈ Node.preorderAll list, node.Steady) → Node.called list ⊆ names →
      ∀ s, Stays table inline script list s.taken →
        Ensures (Rebuild.rebuildNodes table (fun _ => true) inline limit script list) s
          (fun result s' => Repeats script list s result s') fun _ => False := by
  -- Each level down uses up one of the names at least, so there is always room for one more.
  induction limit with
  | zero => exact fun _ room => absurd room (Nat.not_lt_zero _)
  | succ limit ih =>
      intro names list settled room there inside steady within
      have framed : ∀ node ∈ Node.preorderAll script.root.children,
          node.kind.frame?.isSome = true →
            Stays table inline script node.children (Node.allFrameNames node.children) :=
        fun node member opens => stays_of_scope rescanned keeps (List.mem_cons_of_mem _
          (List.mem_map_of_mem (List.mem_filter.2 ⟨member, opens⟩)))
      refine ensures_nodes finished list steady (fun name member => ?_) fun node member =>
        framed node (inside member)
      obtain ⟨method, declared, named⟩ := there name (within member)
      have complete := rescanned.complete method declared
      rw [Node.target_of_name? named] at complete
      obtain ⟨body, inTable, rfl⟩ := List.mem_map.1 complete
      obtain ⟨method', declared', named', callee, owner, nodes⟩ :=
        rescanned.own.bodies body inTable
      refine ⟨body, method', ⟨declared', named', owner, nodes⟩, rfl,
        rescanned.own.body?_eq inTable, fun s taken => ?_⟩
      obtain ⟨before, after, rfl⟩ := List.append_of_mem (within member)
      have steadyBody := (finished.methods method' declared').body
      obtain ⟨settled, within⟩ := finished.called_subset settled declared' named'
      have top := List.mem_filter.1 declared'
      refine ih settled ?_ (fun other member' => ?_) (Node.preorderAll_subset top.1) steadyBody
        within s ?_
      · rw [List.length_append, List.length_cons] at room
        omega
      · exact there other (List.mem_append_right _ (List.mem_cons_of_mem _ member'))
      · rw [taken]
        refine framed method' (Node.subset_preorderAll _ top.1) ?_
        rw [Node.kind_of_mem_methods declared']
        rfl

/-- A finished tree is rebuilt into the same methods and the same nodes after them. -/
theorem script_repeats (finished : script.root.Finished) (rescanned : table.Rescanned script)
    (keeps : inline = true → script.root.KeepsCalls) (next : NodeId) :
    ∃ children next', Rebuild.script table (fun _ => true) inline script next =
      .ok (children, next') ∧ Renumbered script.root.children children := by
  have closed := finished.closed
  obtain ⟨names, settled, distinct, there, few, within⟩ := finished.exists_order
  have room : names.length < table.bodies.length + 1 := by
    have complete : script.root.methods.map (·.target) ⊆ table.names := by
      intro name member
      obtain ⟨method, declared, rfl⟩ := List.mem_map.1 member
      exact rescanned.complete method declared
    have few := distinct.length_le_of_subset (List.Subset.trans few complete)
    rw [CallTable.names, List.length_map] at few
    omega
  have inside : Node.preorderAll script.root.body ⊆ Node.preorderAll script.root.children := by
    rw [closed.split, Node.preorderAll_append]
    exact List.subset_append_right _ _
  have rebuilt : Ensures (inScope script.root.body (Rebuild.rebuildNodes table (fun _ => true)
      inline (table.bodies.length + 1) script script.root.body)) { next }
      (fun result s' => Repeats script script.root.body { next } result s') fun _ => False :=
    ensures_inScope (ensures_rebuildNodes finished rescanned keeps _ settled room there inside
      finished.body within _ (stays_of_scope rescanned keeps (List.mem_cons_self ..)))
  unfold Rebuild.script
  cases outcome : inScope script.root.body (Rebuild.rebuildNodes table (fun _ => true) inline
      (table.bodies.length + 1) script script.root.body) { next } with
  | error error => exact absurd (rebuilt.of_error outcome) id
  | ok pair =>
      obtain ⟨body, s'⟩ := pair
      have repeats := rebuilt.of_ok outcome
      rw [StateT.run, outcome]
      refine ⟨_, _, rfl, ?_⟩
      -- Both lists of methods are in the order of first calls, and those of one name are the same.
      obtain ⟨_, walked, rfl⟩ := inScope_eq_ok_iff.1 outcome
      obtain ⟨log, logged⟩ := logs_rebuildNodes _ walked
      obtain ⟨-, -, -, discovers⟩ := logged.body_flattens
      have discovers := discovers (fun body member => Node.strandedAll_of_checked (by
          obtain ⟨method, declared, -, -, -, nodes⟩ := rescanned.own.bodies body member
          rw [nodes]
          exact fun node below => ((finished.methods method declared).body node below).checked))
        (Node.strandedAll_of_checked fun node below => (finished.body node below).checked)
      have own := repeats.own fun _ _ member => absurd member List.not_mem_nil
      rw [closed.split]
      refine (finished.ordered.renumbered discovers repeats.result
        fun method declared other member named => ?_).append repeats.result
      obtain ⟨⟨name, slot⟩, there, rfl⟩ := List.mem_filterMap.1 member
      obtain ⟨method', declared', named', twins⟩ := own name other there
      have same : method'.target = method.target :=
        (List.cons.inj twins.targets).1.symm.trans (congrArg (Option.getD · "") named)
      rw [← closed.method_eq declared declared' same]
      exact twins

end Rebuild

theorem Node.Finished.finishTree_renumbered {root : Node} (finished : root.Finished)
    {options : CompileOptions} (plain : options.obfuscate = false) {children : List Node}
    (same : Renumbered root.children children) (next : NodeId) :
    ∃ again last, finishTree options root.declaration children next = .ok (again, last) ∧
      Renumbered [root] [again] := by
  have check : root.declaration.check children = .ok root.expression := by
    rw [Declaration.check_congr same.declarations]
    exact finished.checked
  let again : Node := ⟨next, root.declaration, root.expression, children⟩
  have clean : again.Clean := finished.clean.of_thinned same.thinned
  refine ⟨again, next.next, ?_, .cons rfl rfl same .nil⟩
  unfold finishTree
  refine bind_eq_ok.2 ⟨again, next.next, ?_, bind_eq_ok.2 ⟨again, next.next, clean.prune_eq _, ?_⟩⟩
  · rw [Declaration.build, check]
    rfl
  · rw [plain]
    rfl

/-- A tree that was compiled with all its names compiles to itself, up to construction numbers, if
no call in it can give way to the body of its method. -/
theorem recompiling_changes_nothing {options : CompileOptions} (plain : options.obfuscate = false)
    {library : Library} {script : Script} (rooted : script.root.kind = .script)
    (distinct : DistinctScripts (script :: library.scripts))
    (built : ∀ known ∈ script :: library.scripts, known.root.Built) {next next' : NodeId}
    {tree : Node}
    (compiles : compile options (fun _ => true) library script next = .ok (tree, next'))
    {inline : Bool} (keeps : inline = true → tree.KeepsCalls) (later : NodeId) :
    ∃ again last, compile { inlineSingleUse := inline } (fun _ => true) library
        { script with root := tree } later = .ok (again, last) ∧ again.same tree = true := by
  have finished : ({ script with root := tree } : Script).root.Finished :=
    compiled_tree_finished plain rooted distinct built compiles
  obtain ⟨table, scanned, rescanned⟩ := CallTable.ofScript_rescanned finished library
  obtain ⟨children, between, rebuilt, same⟩ :=
    Rebuild.script_repeats finished rescanned keeps later
  obtain ⟨again, last, finishes, twins⟩ := finished.finishTree_renumbered
    (show ({ inlineSingleUse := inline } : CompileOptions).obfuscate = false from rfl) same between
  refine ⟨again, last, compile_eq_ok.2 ⟨table, children, between, scanned, rebuilt, finishes⟩, ?_⟩
  · have alike := twins.sameAll
    rw [Node.sameAll, Node.sameAll, Bool.and_true] at alike
    exact alike

/-- A step of its own beside the invocation of the script that asks in such a step. -/
def besideStep (children : List Node) : Script where
  identity := "a"
  root := .bare 10 .script [] [.bare 8 .step [("name", .string "s")] children,
    .bare 9 .invokeSource [("src", .string "b")] []]

abbrev compiledBeside (children : List Node) : Except CompileError (Node × NodeId) :=
  compile {} (fun _ => true) (.ofScripts [askingScript]) (besideStep children) ⟨20⟩

/-- As long as there is something in the step, the script that is invoked once stays a method. -/
theorem recompiling_changes_nothing_beside_input : ∃ tree next again last,
    compiledBeside [.bare 7 .inputText [("name", .string "z"), ("default", .string "d")] []] =
      .ok (tree, next) ∧
    tree.methods.map (·.name?) = [some "b"] ∧ tree.KeepsCalls ∧
    compile {} (fun _ => true) (.ofScripts [askingScript]) { identity := "a", root := tree } ⟨20⟩ =
      .ok (again, last) ∧ again.same tree = true := by
  let children := [Node.bare 7 .inputText [("name", .string "z"), ("default", .string "d")] []]
  have built : ∀ known ∈ besideStep children :: (Library.ofScripts [askingScript]).scripts,
      known.root.Built := by
    unfold Node.Built
    decide +kernel
  have evaluated : (compiledBeside children).toOption.any fun pair =>
      decide (pair.1.methods.map (·.name?) = [some "b"]) && decide pair.1.KeepsCalls := by
    decide +kernel
  obtain ⟨⟨tree, next⟩, compiles, evaluated⟩ := Stateful.exists_ok_of_any evaluated
  simp only [Bool.and_eq_true, decide_eq_true_eq] at evaluated
  obtain ⟨named, keeps⟩ := evaluated
  obtain ⟨again, last, compiles', same⟩ := @recompiling_changes_nothing {} rfl _ _ rfl
    (.of_nodup (by decide)) built _ _ _ compiles true (fun _ => keeps) ⟨20⟩
  exact ⟨tree, next, again, last, compiles, named, keeps, compiles', same⟩

/-- A step without anything in it takes the name of the frame all the same, and is gone when the
tree is compiled again: nothing keeps the invocation from giving way to the body then. -/
theorem recompiling_inlines_beside_empty_step : ∃ tree next again last,
    compiledBeside [] = .ok (tree, next) ∧
    compile {} (fun _ => true) (.ofScripts [askingScript]) { identity := "a", root := tree } ⟨20⟩ =
      .ok (again, last) ∧ again.same tree = false := by
  have evaluated : (compiledBeside []).toOption.any fun pair =>
      (compile {} (fun _ => true) (.ofScripts [askingScript]) { identity := "a", root := pair.1 }
        ⟨20⟩).toOption.any fun again => !again.1.same pair.1 := by
    decide +kernel
  obtain ⟨⟨tree, next⟩, compiles, evaluated⟩ := Stateful.exists_ok_of_any evaluated
  obtain ⟨⟨again, last⟩, compiles', differs⟩ := Stateful.exists_ok_of_any evaluated
  exact ⟨tree, next, again, last, compiles, compiles', Bool.not_eq_true' _ ▸ differs⟩

end Archetype
