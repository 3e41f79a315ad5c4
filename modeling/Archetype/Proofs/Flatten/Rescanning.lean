import Archetype.Proofs.Flatten.Finished

/-!
Scanning a finished tree once more. It never fails, every method is one body under its own name, and
as many invocations of it are counted as there are calls in the tree.
-/

namespace Archetype

open Stateful

namespace Node

def called (nodes : List Node) : List String :=
  (invocations nodes).map (·.target)

@[simp] theorem called_nil : called [] = [] := rfl

@[simp] theorem called_append (nodes more : List Node) :
    called (nodes ++ more) = called nodes ++ called more := by
  simp only [called, invocations_append, List.map_append]

theorem called_cons (node : Node) (nodes : List Node) :
    called (node :: nodes) =
      (if node.isInvocation then [node.target] else []) ++
        (called node.children ++ called nodes) := by
  simp only [called, invocations_cons, List.map_append]
  split <;> rfl

theorem Steady.name?_eq {node : Node} (steady : node.Steady) (call : node.kind = .invokeCall) :
    node.name? = some node.target := by
  rw [Node.name?, steady.call call]
  rfl

theorem exists_call_of_called {nodes : List Node} (steady : ∀ node ∈ preorderAll nodes, node.Steady)
    {name : String} (member : name ∈ called nodes) :
    ∃ call ∈ preorderAll nodes, call.kind = .invokeCall ∧ call.name? = some name := by
  obtain ⟨call, inside, rfl⟩ := List.mem_map.1 member
  obtain ⟨inside, invokes⟩ := List.mem_filter.1 inside
  have steady := steady call inside
  have kind : call.kind = .invokeCall := by
    simpa [isInvocation, steady.flat.2] using invokes
  exact ⟨call, inside, kind, steady.name?_eq kind⟩

end Node

namespace Node.Closed

variable {root : Node} (closed : root.Closed)
include closed

theorem split : root.children = root.methods ++ root.body := by
  obtain ⟨rest, split⟩ := closed.leading
  have none : rest.filter (·.kind = .method) = [] := by
    have kept : root.methods.filter (·.kind = .method) = root.methods :=
      List.filter_eq_self.2 fun _ member => (List.mem_filter.1 member).2
    have methods : root.methods = root.methods ++ rest.filter (·.kind = .method) := by
      conv_lhs => rw [Node.methods, split, List.filter_append, kept]
    exact List.self_eq_append_right.1 methods
  have other : ∀ node ∈ rest, node.kind ≠ .method := fun node member kind =>
    List.filter_eq_nil_iff.1 none node member (by simpa using kind)
  rwa [(Node.parts_eq split (fun _ => Node.kind_of_mem_methods) other).2]

theorem called_children : called root.children =
    (root.methods.flatMap fun method => called method.children) ++ called root.body := by
  have methods : ∀ methods : List Node, (∀ method ∈ methods, method.kind = .method) →
      called methods = methods.flatMap fun method => called method.children := by
    intro methods declared
    induction methods with
    | nil => rfl
    | cons method rest ih =>
        obtain ⟨here, later⟩ := List.forall_mem_cons.1 declared
        rw [called_cons, ih later, List.flatMap_cons]
        simp [isInvocation, here]
  rw [closed.split, called_append, methods _ fun _ => Node.kind_of_mem_methods]

end Node.Closed

namespace Node.Finished

variable {root : Node} (finished : root.Finished)
include finished

/-- The methods of a finished tree in an order in which each calls only those after it. -/
theorem exists_order : ∃ names, Settled root.Calls names ∧ names.Nodup ∧
    (∀ name ∈ names, ∃ method ∈ root.methods, method.name? = some name) ∧
      names ⊆ root.methods.map (·.target) ∧ called root.body ⊆ names := by
  have closed := finished.closed
  obtain ⟨names, settled, distinct, same⟩ := finished.settled
  refine ⟨names, settled, distinct, fun name => (same name).1, fun name member => ?_,
    fun name member => ?_⟩
  · obtain ⟨method, declared, named⟩ := (same name).1 member
    exact List.mem_map.2 ⟨method, declared, target_of_name? named⟩
  · obtain ⟨call, below, kind, named⟩ := exists_call_of_called finished.body member
    have inside : call ∈ preorderAll root.children := by
      rw [closed.split, preorderAll_append]
      exact List.mem_append_right _ below
    obtain ⟨method, declared, name', declares, named'⟩ :=
      closed.answered call (mem_preorder.2 (.inr inside)) kind
    cases named.symm.trans named'
    exact (same name).2 ⟨method, declared, declares⟩

theorem method_declaration {method : Node} {name : String} (declared : method ∈ root.methods)
    (named : method.name? = some name) : ScopePath.sanitize name = name ∧ method.declaration =
      { kind := .method, attributes := .ofList [("name", .string name)] } := by
  obtain ⟨name', clean, declaration⟩ := (finished.methods method declared).declaration
  have named' : method.name? = some name' := by
    rw [Node.name?, declaration]
    rfl
  cases named.symm.trans named'
  exact ⟨clean, declaration⟩

theorem called_subset {before after : List String} {method : Node} {name : String}
    (settled : Settled root.Calls (before ++ name :: after)) (declared : method ∈ root.methods)
    (named : method.name? = some name) :
    Settled root.Calls after ∧ called method.children ⊆ after := by
  have steady := (finished.methods method declared).body
  cases settled.of_append with
  | cons later settled =>
      refine ⟨settled, fun other member => ?_⟩
      obtain ⟨call, below, kind, target⟩ := exists_call_of_called steady member
      exact later other ⟨method, declared, named, call, below, kind, target⟩

end Node.Finished

namespace CallTable

def names (table : CallTable) : List String := table.bodies.map (·.canonical)

def called (table : CallTable) : List String :=
  table.bodies.flatMap fun body => Node.called body.nodes

def countOf (table : CallTable) (callee : Callee) : Nat :=
  ((table.body? callee).map (·.count)).getD 0

structure Own (script : Script) (table : CallTable) : Prop where
  bodies : ∀ body ∈ table.bodies, ∃ method ∈ script.root.methods,
    method.name? = some body.canonical ∧ body.callee = .method script.identity body.canonical ∧
      body.script = script ∧ body.nodes = method.children
  distinct : table.names.Nodup

variable {table : CallTable} {script : Script} {callee : Callee} {name : String}

theorem body?_recount (callee other : Callee) :
    (table.recount callee).body? other = (table.body? other).map fun body =>
      if body.callee = callee then { body with count := body.count + 1 } else body := by
  rw [body?, recount, List.find?_map]
  congr 2
  funext body
  simp only [Function.comp_apply]
  split <;> rfl

theorem countOf_recount {body : SharedBody} (found : table.body? callee = some body)
    (other : Callee) :
    (table.recount callee).countOf other =
      table.countOf other + if other = callee then 1 else 0 := by
  rw [countOf, countOf, body?_recount]
  cases known : table.body? other with
  | none =>
      have differ : other ≠ callee := by
        rintro rfl
        cases known.symm.trans found
      simp [differ]
  | some body =>
      rw [← callee_eq_of_body? known]
      simp only [Option.map_some, Option.getD_some]
      split <;> rfl

theorem names_recount (callee : Callee) : (table.recount callee).names = table.names := by
  simp only [names, recount, List.map_map]
  refine List.map_congr_left fun body _ => ?_
  simp only [Function.comp_apply]
  split <;> rfl

theorem called_recount (callee : Callee) : (table.recount callee).called = table.called := by
  simp only [called, recount, List.flatMap_map]
  refine List.flatMap_congr fun body _ => ?_
  split <;> rfl

theorem countOf_add {new : SharedBody} (absent : table.body? new.callee = none) (other : Callee) :
    CallTable.countOf { table with bodies := table.bodies ++ [new] } other =
      table.countOf other + if other = new.callee then new.count else 0 := by
  unfold countOf body? at *
  rw [List.find?_append]
  by_cases same : other = new.callee
  · subst same
    rw [absent]
    simp
  · have differ : new.callee ≠ other := fun eq => same eq.symm
    simp [same, differ]

end CallTable

namespace Scan

structure State.Own (script : Script) (s : State) : Prop where
  table : s.table.Own script
  used : s.used ⊆ s.table.names
  declared : ∀ method ∈ script.root.methods,
    s.declared.lookup (script.identity, method.target) = some method

/-- What a scan does that comes to calls of the names: they are entered and counted, and so is all
that new bodies call. -/
structure Tallies (script : Script) (names : List String) (before after : State) : Prop where
  own : after.Own script
  kept : before.table.names ⊆ after.table.names
  entered : names ⊆ after.table.names
  closed : ∀ method ∈ script.root.methods, method.target ∈ after.table.names →
    method.target ∈ before.table.names ∨ Node.called method.children ⊆ after.table.names
  counted : ∀ name, after.table.countOf (.method script.identity name) +
      before.table.called.count name =
    before.table.countOf (.method script.identity name) + names.count name +
      after.table.called.count name

variable {library : Library} {script : Script} {stack : List Callee} {names more : List String}

namespace Tallies

theorem nil {s : State} (own : s.Own script) : Tallies script [] s s where
  own := own
  kept := List.Subset.refl _
  entered := List.nil_subset _
  closed _ _ there := .inl there
  counted _ := by simp

theorem append {a b c : State} (first : Tallies script names a b)
    (second : Tallies script more b c) : Tallies script (names ++ more) a c where
  own := second.own
  kept := List.Subset.trans first.kept second.kept
  entered := List.append_subset.2 ⟨List.Subset.trans first.entered second.kept, second.entered⟩
  closed method declared there := by
    rcases second.closed method declared there with there | called
    · exact (first.closed method declared there).imp_right fun called =>
        List.Subset.trans called second.kept
    · exact .inr called
  counted name := by
    have here := first.counted name
    have later := second.counted name
    rw [List.count_append]
    omega

theorem enter {a b c : State} {method : Node} {new : SharedBody} (closed : script.root.Closed)
    (declared : method ∈ script.root.methods) (target : method.target = new.canonical)
    (nodes : new.nodes = method.children)
    (callee : new.callee = .method script.identity new.canonical) (once : new.count = 1)
    (absent : a.table.body? new.callee = none)
    (table : b.table = { a.table with bodies := a.table.bodies ++ [new] })
    (inner : Tallies script (Node.called method.children) b c) :
    Tallies script [new.canonical] a c where
  own := inner.own
  kept name member := by
    refine inner.kept ?_
    rw [table, CallTable.names, List.map_append]
    exact List.mem_append_left _ member
  entered := by
    refine List.cons_subset.2 ⟨inner.kept ?_, List.nil_subset _⟩
    simp [table, CallTable.names]
  closed other declared' there := by
    rcases inner.closed other declared' there with there | called
    · rw [table, CallTable.names, List.map_append, List.mem_append] at there
      rcases there with there | here
      · exact .inl there
      · refine .inr ?_
        have same : other.target = method.target := by simpa [target] using here
        rw [closed.method_eq declared declared' same]
        exact inner.entered
    · exact .inr called
  counted name := by
    have counted := inner.counted name
    have called : b.table.called = a.table.called ++ Node.called method.children := by
      simp [table, CallTable.called, nodes]
    have count : b.table.countOf (.method script.identity name) =
        a.table.countOf (.method script.identity name) + [new.canonical].count name := by
      rw [table, CallTable.countOf_add absent, once, callee, List.count_singleton]
      simp only [Callee.method.injEq, true_and, beq_iff_eq, @eq_comm _ name]
    rw [called, List.count_append, count] at counted
    omega

end Tallies

theorem State.Own.not_mem_names {s : State} (own : s.Own script) {name : String}
    (absent : s.table.body? (.method script.identity name) = none) : name ∉ s.table.names := by
  intro there
  obtain ⟨body, member, rfl⟩ := List.mem_map.1 there
  obtain ⟨_, _, _, callee, -⟩ := own.table.bodies body member
  exact List.find?_eq_none.1 absent body member (decide_eq_true callee)

theorem nameBody_own {s : State} (own : s.Own script) {name : String}
    (clean : ScopePath.sanitize name = name)
    (absent : s.table.body? (.method script.identity name) = none) :
    nameBody false name s = .ok (name, { s with used := name :: s.used }) := by
  have free : name ∉ s.used := fun taken => own.not_mem_names absent (own.used taken)
  have named : freshName s.used (ScopePath.sanitize name) = name := by
    rw [clean, freshName_of_not_mem free]
  simp only [nameBody, Bool.false_eq_true, if_false, bind_eq_ok]
  exact ⟨s, s, rfl, _, _, rfl, by rw [named]; rfl⟩

theorem State.Own.add {s : State} (own : s.Own script) {method : Node} {name : String}
    (declared : method ∈ script.root.methods) (named : method.name? = some name)
    (absent : s.table.body? (.method script.identity name) = none) :
    State.Own script
      { s with
        used := name :: s.used
        table := { s.table with bodies := s.table.bodies ++
          [⟨.method script.identity name, name, 1, script, method.children⟩] } } where
  table := by
    refine ⟨fun body member => ?_, ?_⟩
    · rcases List.mem_append.1 member with member | member
      · exact own.table.bodies body member
      · rw [List.mem_singleton.1 member]
        exact ⟨method, declared, named, rfl, rfl, rfl⟩
    · rw [CallTable.names, List.map_append, List.map_singleton]
      refine List.nodup_append.2
        ⟨own.table.distinct, List.nodup_cons.2 ⟨List.not_mem_nil, .nil⟩, ?_⟩
      rintro other member _ single rfl
      rw [List.mem_singleton.1 single] at member
      exact own.not_mem_names absent member
  used := by
    rw [CallTable.names, List.map_append, List.map_singleton]
    refine List.cons_subset.2 ⟨List.mem_append_right _ (List.mem_singleton_self _), ?_⟩
    exact List.subset_append_of_subset_left _ own.used
  declared := own.declared

theorem State.Own.recount {s : State} (own : s.Own script) (callee : Callee) :
    State.Own script { s with table := s.table.recount callee } := by
  have names := s.table.names_recount callee
  refine ⟨⟨fun body member => ?_, names ▸ own.table.distinct⟩, names ▸ own.used, own.declared⟩
  obtain ⟨count, old⟩ := mem_recount member
  have there := own.table.bodies _ old
  exact there

theorem Tallies.recount {s : State} (own : s.Own script) {body : SharedBody}
    (found : s.table.body? (.method script.identity body.canonical) = some body) :
    Tallies script [body.canonical] s
      { s with table := s.table.recount (.method script.identity body.canonical) } := by
  have names := s.table.names_recount (.method script.identity body.canonical)
  refine ⟨own.recount _, names ▸ List.Subset.refl _, ?_, fun _ _ there => .inl (names ▸ there),
    fun name => ?_⟩
  · refine List.cons_subset.2 ⟨names ▸ ?_, List.nil_subset _⟩
    exact List.mem_map_of_mem (List.mem_of_find?_eq_some found)
  · simp only [CallTable.countOf_recount found, CallTable.called_recount, List.count_singleton,
      Callee.method.injEq, true_and, beq_iff_eq, @eq_comm _ name]

variable {scanNodes : List Callee → Script → List Node → Scan Unit}

theorem ensures_enter_own (finished : script.root.Finished) {method : Node} {name : String}
    (declared : method ∈ script.root.methods) (named : method.name? = some name)
    (free : Callee.method script.identity name ∉ stack)
    (inner : ∀ s, s.Own script →
      Ensures (scanNodes (.method script.identity name :: stack) script method.children) s
        (fun _ s' => Tallies script (Node.called method.children) s s') fun _ => False)
    {s : State} (own : s.Own script) :
    Ensures (enter false stack scanNodes (.method script.identity name) name script method.children)
      s (fun _ s' => Tallies script [name] s s') fun _ => False := by
  unfold enter
  rw [if_neg free]
  refine ensures_get_bind ?_
  cases found : s.table.body? (.method script.identity name) with
  | some body =>
      refine ensures_modify ?_
      obtain ⟨_, _, _, callee, -⟩ := own.table.bodies body (List.mem_of_find?_eq_some found)
      rw [CallTable.callee_eq_of_body? found] at callee
      obtain rfl : name = body.canonical := (Callee.method.inj callee).2
      exact Tallies.recount own found
  | none =>
      have clean := (finished.method_declaration declared named).1
      refine ensures_bind (Q := fun name' s' => name' = name ∧
        s' = { s with used := name :: s.used }) ?_ ?_
      · unfold Ensures
        rw [nameBody_own own clean found]
        exact ⟨rfl, rfl⟩
      rintro _ _ ⟨rfl, rfl⟩
      refine ensures_modify_bind ((inner _ (own.add declared named found)).imp ?_ fun _ => id)
      intro _ s' tallies
      exact tallies.enter finished.closed declared (Node.target_of_name? named) rfl rfl rfl found
        rfl

/-- A scan of steady nodes enters and counts what they call. -/
theorem ensures_nodes_own (finished : script.root.Finished) (stack : List Callee) :
    ∀ list : List Node, (∀ node ∈ Node.preorderAll list, node.Steady) →
      (∀ name ∈ Node.called list, ∃ method ∈ script.root.methods, method.name? = some name ∧
        Callee.method script.identity name ∉ stack ∧ ∀ s, s.Own script →
          Ensures (scanNodes (.method script.identity name :: stack) script method.children) s
            (fun _ s' => Tallies script (Node.called method.children) s s') fun _ => False) →
      ∀ s, s.Own script → Ensures (Scan.nodes library (fun _ => true)
        (enter false stack scanNodes) script list) s
          (fun _ s' => Tallies script (Node.called list) s s') fun _ => False
  | [], _, _, s, own => ensures_pure (.nil own)
  | ⟨id, d, e, children⟩ :: rest, steady, inner, s, own => by
      have below := ensures_nodes_own finished stack children
      have later := ensures_nodes_own finished stack rest
      generalize hnode : (⟨id, d, e, children⟩ : Node) = node at steady inner ⊢
      rw [← show node.children = children from hnode ▸ rfl] at below
      obtain ⟨here, steadyBelow, steadyLater⟩ := Node.forall_preorderAll_cons.1 steady
      rw [Node.called_cons] at inner ⊢
      simp only [List.forall_mem_append] at inner
      obtain ⟨innerHere, innerBelow, innerLater⟩ := inner
      rw [← List.append_assoc]
      refine ensures_bind (Q := fun _ s' => Tallies script
        ((if node.isInvocation then [node.target] else []) ++ Node.called node.children) s s') ?_ ?_
      · have below := below steadyBelow innerBelow s own
        rw [node_eq, if_pos rfl]
        cases role : node.role with
        | declaration => exact absurd (Node.role_eq_declaration.1 role) here.flat.1
        | source => exact absurd (Node.role_eq_source.1 role) here.flat.2
        | condition =>
            have constant := (here.condition (Node.role_eq_condition role)).1
            simp only [Node.isInvocation_eq, role, constant]
            exact below
        | block frame =>
            simp only [Node.isInvocation_eq, role]
            exact below
        | call =>
            have childless := Declaration.childless_of_call here.checked (Node.role_eq_call.1 role)
            have invokes : node.isInvocation = true := by simp [Node.isInvocation_eq, role]
            rw [invokes, if_pos rfl] at innerHere ⊢
            obtain ⟨method, declared, named, free, inner⟩ :=
              innerHere node.target (List.mem_singleton_self _)
            rw [childless, Node.called_nil, List.append_nil]
            refine ensures_get_bind ?_
            rw [← Node.target_of_name? named, own.declared method declared,
              Node.target_of_name? named]
            exact ensures_enter_own finished declared named free inner own
      · intro _ s' first
        exact (later steadyLater innerLater s' first.own).imp
          (fun _ _ second => first.append second) fun _ fails => fails
termination_by list => sizeOf list

theorem ensures_scanNodes_own (finished : script.root.Finished) (limit : Nat) :
    ∀ {names : List String} {stack : List Callee} {list : List Node},
      Settled script.root.Calls names → names.Nodup → names.length < limit →
      (∀ name ∈ names, Callee.method script.identity name ∉ stack ∧
        ∃ method ∈ script.root.methods, method.name? = some name) →
      (∀ node ∈ Node.preorderAll list, node.Steady) → Node.called list ⊆ names →
      ∀ s, s.Own script → Ensures (Scan.scanNodes library (fun _ => true) false limit stack script
        list) s (fun _ s' => Tallies script (Node.called list) s s') fun _ => False := by
  -- The names on the stack are not among those left, so no call is taken for a recursion.
  induction limit with
  | zero => exact fun _ _ room => absurd room (Nat.not_lt_zero _)
  | succ limit ih =>
      intro names stack list settled distinct room there steady within
      refine ensures_nodes_own finished stack list steady fun name member => ?_
      obtain ⟨free, method, declared, named⟩ := there name (within member)
      refine ⟨method, declared, named, free, ?_⟩
      obtain ⟨before, after, rfl⟩ := List.append_of_mem (within member)
      have steadyBody := (finished.methods method declared).body
      obtain ⟨fresh, distinct⟩ := List.nodup_cons.1 (List.nodup_append.1 distinct).2.1
      obtain ⟨settled, within⟩ := finished.called_subset settled declared named
      refine ih settled distinct ?_ (fun other member' => ?_) steadyBody within
      · rw [List.length_append, List.length_cons] at room
        omega
      · obtain ⟨unstacked, declared⟩ :=
          there other (List.mem_append_right _ (List.mem_cons_of_mem _ member'))
        refine ⟨fun stacked => ?_, declared⟩
        rcases List.mem_cons.1 stacked with same | stacked
        · exact fresh ((Callee.method.inj same).2 ▸ member')
        · exact unstacked stacked

theorem nodes_of_methods {filter : Node → Bool}
    {invoke : Callee → String → Script → List Node → Scan Unit} {methods rest : List Node}
    (declared : ∀ method ∈ methods, method.kind = .method) :
    Scan.nodes library filter invoke script (methods ++ rest) =
      Scan.nodes library filter invoke script rest := by
  induction methods with
  | nil => rfl
  | cons method others ih =>
      obtain ⟨here, later⟩ := List.forall_mem_cons.1 declared
      rw [List.cons_append, Scan.nodes, ih later, node_eq, Node.role_eq_declaration.2 here]
      split <;> rfl

end Scan

structure CallTable.Rescanned (script : Script) (table : CallTable) : Prop where
  own : table.Own script
  complete : ∀ method ∈ script.root.methods, method.target ∈ table.names
  counted : ∀ body ∈ table.bodies,
    body.count = (Node.called script.root.children).count body.canonical

/-- What holds of all that nodes call, and of what the methods call of which it holds, holds of the
methods that the nodes are the first to call. -/
theorem Discovers.forall_target {p : String → Prop} {seen : List String}
    {nodes methods : List Node} (discovers : Discovers seen nodes methods)
    (called : ∀ name ∈ Node.called nodes, p name)
    (closed : ∀ method ∈ methods, p method.target →
      ∀ name ∈ Node.called method.children, p name) : ∀ method ∈ methods, p method.target := by
  induction discovers with
  | nil => simp
  | known _ _ _ _ ih =>
      rw [Node.called_cons] at called
      simp only [List.forall_mem_append] at called
      exact ih called.2.2 closed
  | fresh call named _ declared _ _ ihInside ih =>
      rw [Node.called_cons] at called
      simp only [List.forall_mem_append, Node.isInvocation, call, decide_true, Bool.true_or,
        if_true, List.mem_singleton, forall_eq] at called
      obtain ⟨here, -, later⟩ := called
      obtain ⟨closedHere, closedLater⟩ := List.forall_mem_cons.1 closed
      obtain ⟨closedInner, closedLater⟩ := List.forall_mem_append.1 closedLater
      rw [Node.target_of_name? named, ← Node.target_of_name? declared] at here
      rw [List.forall_mem_cons, List.forall_mem_append]
      exact ⟨here, ihInside (closedHere here) closedInner, ih later closedLater⟩
  | other _ _ _ ihBelow ih =>
      rw [Node.called_cons] at called
      simp only [List.forall_mem_append] at called
      obtain ⟨closedBelow, closedLater⟩ := List.forall_mem_append.1 closed
      exact List.forall_mem_append.2 ⟨ihBelow called.2.1 closedBelow, ih called.2.2 closedLater⟩

namespace CallTable.Own

variable {script : Script} {table : CallTable} (own : table.Own script)
include own

theorem body?_eq {body : SharedBody} (member : body ∈ table.bodies) :
    table.body? (.method script.identity body.canonical) = some body := by
  obtain ⟨_, _, _, callee, -⟩ := own.bodies body member
  cases found : table.body? (.method script.identity body.canonical) with
  | none => exact absurd (decide_eq_true callee) (List.find?_eq_none.1 found body member)
  | some other =>
      have there := List.mem_of_find?_eq_some found
      obtain ⟨_, _, _, callee', -⟩ := own.bodies other there
      rw [callee_eq_of_body? found] at callee'
      rw [List.inj_on_of_nodup_map own.distinct member there (Callee.method.inj callee').2]

theorem countOf_eq {body : SharedBody} (member : body ∈ table.bodies) :
    table.countOf (.method script.identity body.canonical) = body.count := by
  rw [countOf, own.body?_eq member, Option.map_some, Option.getD_some]

theorem perm_called (closed : script.root.Closed)
    (complete : ∀ method ∈ script.root.methods, method.target ∈ table.names) :
    table.called.Perm (script.root.methods.flatMap fun method => Node.called method.children) := by
  let calls (name : String) : List String :=
    ((script.root.methods.find? (·.target = name)).map (Node.called ·.children)).getD []
  have calls_eq : ∀ method ∈ script.root.methods,
      calls method.target = Node.called method.children := by
    intro method declared
    cases found : script.root.methods.find? (·.target = method.target) with
    | none => simpa using List.find?_eq_none.1 found method declared
    | some other =>
        have same : other.target = method.target := by simpa using List.find?_some found
        obtain rfl := closed.method_eq declared (List.mem_of_find?_eq_some found) same
        simp [calls, found]
  have bodies : table.called = table.names.flatMap calls := by
    rw [called, names, List.flatMap_map]
    refine List.flatMap_congr fun body member => ?_
    obtain ⟨method, declared, named, -, -, nodes⟩ := own.bodies body member
    rw [nodes, ← calls_eq method declared, Node.target_of_name? named]
  have methods : script.root.methods.flatMap (Node.called ·.children) =
      (script.root.methods.map (·.target)).flatMap calls := by
    rw [List.flatMap_map]
    exact List.flatMap_congr fun method declared => (calls_eq method declared).symm
  rw [bodies, methods]
  refine List.Perm.flatMap_right _
    ((List.perm_ext_iff_of_nodup own.distinct closed.nodup_targets).2 fun name => ?_)
  constructor
  · intro member
    obtain ⟨body, there, rfl⟩ := List.mem_map.1 member
    obtain ⟨method, declared, named, -⟩ := own.bodies body there
    exact List.mem_map.2 ⟨method, declared, Node.target_of_name? named⟩
  · intro member
    obtain ⟨method, declared, rfl⟩ := List.mem_map.1 member
    exact complete method declared

end CallTable.Own

namespace Scan

variable {script : Script}

/-- Once the methods of a closed tree are declared, a scan of it can start. -/
theorem State.own_of_declares (closed : script.root.Closed) {s : State} (table : s.table = {})
    (used : s.used = []) (declares : s.Declares [script])
    (notes : s.Notes script script.root.methods) : s.Own script := by
  refine ⟨⟨by simp [table], by simp [table, CallTable.names]⟩, by simp [used], ?_⟩
  intro method declared
  obtain ⟨name, named⟩ := closed.named method declared
  rw [Node.target_of_name? named]
  cases found : s.declared.lookup (script.identity, name) with
  | none => exact absurd found (notes method declared name named)
  | some other =>
      obtain ⟨_, known, -, first⟩ := declares _ _ _ found
      rw [List.mem_singleton.1 known] at first
      have named' : other.name? = some name := by simpa using List.find?_some first
      refine congrArg some (closed.method_eq declared (List.mem_of_find?_eq_some first) ?_)
      rw [Node.target_of_name? named, Node.target_of_name? named']

/-- A scan of a finished tree enters and counts what its body calls. -/
theorem ensures_scan_own (finished : script.root.Finished) (library : Library) :
    Ensures (do
        declareMethods script
        scanNodes library (fun _ => true) false (nestingBound library script) [] script
          script.root.children : Scan Unit) {}
      (fun _ s => ∃ start : State, start.table = {} ∧
        Tallies script (Node.called script.root.body) start s) fun _ => False := by
  have closed := finished.closed
  obtain ⟨names, settled, distinct, there, few, within⟩ := finished.exists_order
  have room : names.length < nestingBound library script := by
    have bound := length_all_lt library script
    have few := distinct.length_le_of_subset few
    rw [length_all_cons] at bound
    rw [List.length_map] at few
    omega
  refine ensures_bind (ensures_declareMethods (List.mem_singleton_self script)
    (fun _ _ _ found => by cases found) _) ?_
  rintro _ s ⟨table, used, declares, notes⟩
  obtain ⟨limit, bound⟩ := Nat.exists_eq_succ_of_ne_zero (Nat.ne_zero_of_lt room)
  rw [bound] at room ⊢
  have body := @ensures_scanNodes_own library script finished (limit + 1) names []
    script.root.body settled distinct room
    (fun name member => ⟨List.not_mem_nil, there name member⟩) finished.body within s
    (State.own_of_declares closed table used declares notes)
  rw [scanNodes, closed.split, nodes_of_methods fun _ => Node.kind_of_mem_methods]
  exact body.imp (fun _ _ tallies => ⟨s, table, tallies⟩) fun _ => id

theorem Tallies.rescanned (finished : script.root.Finished) {start after : State}
    (fresh : start.table = {})
    (tallies : Tallies script (Node.called script.root.body) start after) :
    after.table.Rescanned script := by
  have complete : ∀ method ∈ script.root.methods, method.target ∈ after.table.names := by
    refine finished.ordered.forall_target (fun _ member => tallies.entered member)
      fun method declared there => ?_
    rcases tallies.closed method declared there with old | called
    · simp [fresh, CallTable.names] at old
    · exact fun _ member => called member
  refine ⟨tallies.own.table, complete, fun body member => ?_⟩
  have counted := tallies.counted body.canonical
  rw [tallies.own.table.countOf_eq member,
    (tallies.own.table.perm_called finished.closed complete).count_eq, fresh] at counted
  rw [finished.closed.called_children, List.count_append]
  simp only [CallTable.called, CallTable.countOf, CallTable.body?, List.flatMap_nil,
    List.count_nil, List.find?_nil, Option.map_none, Option.getD_none] at counted
  omega

end Scan

/-- Scanning a finished tree never fails. -/
theorem CallTable.ofScript_rescanned {script : Script} (finished : script.root.Finished)
    (library : Library) : ∃ table, CallTable.ofScript library (fun _ => true) false script =
      .ok table ∧ table.Rescanned script := by
  have scanned := Scan.ensures_scan_own finished library
  unfold CallTable.ofScript
  simp only
  generalize (do
    Scan.declareMethods script
    Scan.scanNodes library (fun _ => true) false (Scan.nestingBound library script) [] script
      script.root.children : Scan Unit) = scan at scanned ⊢
  cases outcome : scan.run {} with
  | error error => exact absurd (scanned.of_error outcome) id
  | ok pair =>
      obtain ⟨⟨⟩, after⟩ := pair
      obtain ⟨start, fresh, tallies⟩ := scanned.of_ok outcome
      exact ⟨after.table, rfl, tallies.rescanned finished fresh⟩

end Archetype
