import Archetype.Proofs.Flatten.Closed
import Archetype.Proofs.Flatten.Exploring
import Archetype.Proofs.Flatten.Straight

/-!
Recursion is found where there is any, and only there. Once the scan has settled the bodies, one
body fewer is left to go into inside each of them, so neither rebuilding nor a walk of the compiled
tree nests them without end.
-/

namespace Archetype

open Stateful

def CompileError.Unnested : CompileError → Prop
  | .recursiveInvocation _ => False
  | .nestedTooDeeply => False
  | _ => True

namespace CallTable.Explored

variable {library : Library} {filter : Node → Bool} {scripts : List Script} {script : Script}
  {table : CallTable} {done callees : List Callee}

theorem invokes (explored : table.Explored library filter scripts script done) {body : SharedBody}
    (member : body ∈ table.bodies) {callee : Callee}
    (leads : Leads library filter body.script body.nodes callee) :
    Invokes library filter scripts body.callee callee :=
  ⟨body.script, body.nodes, explored.bodies body member, leads⟩

theorem callee?_of_reached? (explored : table.Explored library filter scripts script done)
    {caller : Script} {node : Node} {body : SharedBody}
    (reached : table.reached? caller node = some body) :
    node.callee? library caller = some body.callee :=
  CallTable.callee?_of_reached? explored.sources reached

theorem body_eq (explored : table.Explored library filter scripts script done)
    {body other : SharedBody} (member : body ∈ table.bodies) (member' : other ∈ table.bodies)
    (same : body.canonical = other.canonical) : body = other :=
  List.inj_on_of_nodup_map explored.names member member' same

theorem length_done_le (explored : table.Explored library filter scripts script done) :
    done.length ≤ table.bodies.length := by
  have few : done ⊆ table.bodies.map (·.callee) := fun callee member =>
    List.mem_map.2 ((explored.entered callee).1 member)
  simpa using explored.distinct.length_le_of_subset few

theorem acyclic (explored : table.Explored library filter scripts script done) {callee : Callee}
    (comes : Comes library filter scripts script callee) :
    ¬Recurs library filter scripts callee := by
  obtain ⟨first, leads, steps⟩ := comes
  exact explored.settled.acyclic explored.distinct
    (explored.settled.closed_star (explored.leads first leads) steps)

end CallTable.Explored

theorem Rebuild.unnested_of_script {library : Library} {filter : Node → Bool}
    {scripts : List Script} {root : Script} {table : CallTable} {done : List Callee} {inline : Bool}
    {next : NodeId} {error : CompileError}
    (explored : table.Explored library filter scripts root done)
    (fails : Rebuild.script table filter inline root next = .error error) : error.Unnested := by
  have leads : ∀ {caller : Script} {nodes : List Node}, ∀ node ∈ Node.reachedAll filter nodes,
      ∀ body, table.reached? caller node = some body →
        Leads library filter caller nodes body.callee := fun node member body reached =>
    ⟨node, Node.reaches_of_mem member, explored.callee?_of_reached? reached⟩
  refine may_of_script (fun _ => trivial) (fun _ _ _ _ _ _ => trivial) (explored.settled.imp ?_)
    explored.length_done_le (fun _ _ _ _ => trivial) (fun node member body reached => ?_) fails
  · rintro caller - callee ⟨body, known, rfl, node, below, next, reached, rfl⟩
    exact explored.invokes known (leads node below next reached)
  · exact explored.leads _ (leads node member body reached).of_filter

/-! Walks of the compiled tree. -/

/-- Every call in flattened nodes is of a body that they lead to, or that one of those comes to. -/
theorem Flattened.calls {library : Library} {filter : Node → Bool} {scripts : List Script}
    {root script : Script} {table : CallTable} {done callees : List Callee} {inline : Bool}
    {names taken left : List String} {nodes result : List Node}
    (explored : table.Explored library filter scripts root done)
    (settled : Settled (Invokes library filter scripts) callees)
    (flattened : Flattened table filter inline names script taken nodes result left)
    (within : ∀ callee, Leads library filter script nodes callee → callee ∈ callees) :
    ∀ node ∈ Node.preorderAll result, node.kind = .invokeCall → ∃ body ∈ table.bodies,
      body.callee ∈ callees ∧ node.name? = some body.canonical := by
  induction flattened with
  | nil => simp [Node.preorderAll]
  | rejected _ _ ih => exact ih fun callee leads => within callee (leads_cons.2 (.inr leads))
  | declaration _ _ ih => exact ih fun callee leads => within callee (leads_cons.2 (.inr leads))
  | never _ _ _ ih => exact ih fun callee leads => within callee (leads_cons.2 (.inr leads))
  | emptied _ _ _ _ ih => exact ih fun callee leads => within callee (leads_cons.2 (.inr leads))
  | always accepts role constant _ _ ihBelow ih =>
      rw [Node.preorderAll_append]
      refine List.forall_mem_append.2 ⟨ihBelow fun callee leads => ?_,
        ih fun callee leads => within callee (leads_cons.2 (.inr leads))⟩
      refine within callee (leads_cons.2 (.inl (leads_single.2 ⟨accepts, ?_⟩)))
      simpa [role, constant] using leads
  | condition accepts role constant declaration _ _ _ ihBelow ih =>
      rw [Node.preorderAll_cons, List.forall_mem_cons, List.forall_mem_append]
      refine ⟨fun kind => ?_, ihBelow fun callee leads => ?_,
        ih fun callee leads => within callee (leads_cons.2 (.inr leads))⟩
      · rw [Node.kind, declaration, Rebuild.foldedDeclaration_kind, ← Node.kind,
          Node.role_eq_condition role] at kind
        cases kind
      · refine within callee (leads_cons.2 (.inl (leads_single.2 ⟨accepts, ?_⟩)))
        simpa [role, constant] using leads
  | call accepts invokes reached declaration _ childless _ _ ih =>
      rw [Node.preorderAll_cons, childless, List.forall_mem_cons, List.forall_mem_append]
      refine ⟨fun _ => ⟨_, CallTable.mem_of_reached? reached, ?_, ?_⟩, by simp [Node.preorderAll],
        ih fun callee leads => within callee (leads_cons.2 (.inr leads))⟩
      · exact within _ ⟨_, .here accepts invokes, explored.callee?_of_reached? reached⟩
      · rw [Node.name?, declaration]
        rfl
  | inlined _ accepts invokes reached _ _ _ _ _ ihBelow ih =>
      rw [Node.preorderAll_append]
      refine List.forall_mem_append.2 ⟨ihBelow fun callee leads => ?_,
        ih fun callee leads => within callee (leads_cons.2 (.inr leads))⟩
      have here := within _ ⟨_, .here accepts invokes, explored.callee?_of_reached? reached⟩
      exact settled.closed here (explored.invokes (CallTable.mem_of_reached? reached) leads)
  | block accepts role declaration _ _ _ ihBelow ih =>
      rw [Node.preorderAll_cons, List.forall_mem_cons, List.forall_mem_append]
      refine ⟨fun kind => ?_, ihBelow fun callee leads => ?_,
        ih fun callee leads => within callee (leads_cons.2 (.inr leads))⟩
      · rw [Node.kind, declaration, ← Node.kind, ← Node.role_eq_call, role] at kind
        cases kind
      · refine within callee (leads_cons.2 (.inl (leads_single.2 ⟨accepts, ?_⟩)))
        simpa [role] using leads

namespace Compiled

variable {library : Library} {filter : Node → Bool} {scripts : List Script} {script : Script}
  {table : CallTable} {done : List Callee} {inline : Bool} {slots : Rebuild.Slots}
  {body : List Node} {tree : Node} {σ : Type} {visitor : Visitor σ}

/-- The method under the name of a shared body calls nothing but what that body invokes. -/
theorem calls (compiled : Compiled table filter inline script slots body tree)
    (explored : table.Explored library filter scripts script done) {first : Callee}
    {callees : List Callee} (settled : Settled (Invokes library filter scripts) (first :: callees))
    {method : Node} (declared : method ∈ tree.methods) {shared : SharedBody}
    (member : shared ∈ table.bodies) (inside : shared.callee ∈ first :: callees)
    (named : method.name? = some shared.canonical) :
    ∀ node ∈ Node.preorderAll method.children, node.kind = .invokeCall → ∃ body ∈ table.bodies,
      body.callee ∈ callees ∧ node.name? = some body.canonical := by
  intro node below kind
  obtain ⟨shared', made, known, of, named', thinned⟩ := compiled.exists_methodOf declared
  obtain rfl := explored.body_eq member (List.mem_of_find?_eq_some known)
    (Option.some.inj (named.symm.trans named'))
  obtain ⟨old, below, same, name, -⟩ := thinned.exists_of_mem node below
  obtain ⟨left, flattened⟩ := of.flattened
  cases settled with
  | cons later settled =>
      obtain ⟨called, there, among, target⟩ := flattened.calls explored settled
        (fun callee leads => (Settled.cons later settled).mem_rest inside
          (explored.invokes member leads)) old below (same ▸ kind)
      refine ⟨called, there, among, (name ?_).trans target⟩
      rw [← same, kind]
      exact NodeKind.noConfusion

/-- With room for all bodies that are left, a walk never runs out of it. -/
theorem never_out_of_bounds (compiled : Compiled table filter inline script slots body tree)
    (closed : tree.Closed) (explored : table.Explored library filter scripts script done)
    (never : visitor.Never none) (library' : Library) (methods : Methods) (limit : Nat) :
    ∀ (callees : List Callee) (list : List Node), Settled (Invokes library filter scripts) callees →
      callees.length < limit → Node.preorderAll list ⊆ tree.preorder →
      (∀ node ∈ Node.preorderAll list, node.kind = .invokeCall → ∃ body ∈ table.bodies,
        body.callee ∈ callees ∧ node.name? = some body.canonical) →
      Visit.Never none (Walk.bodies visitor library' limit (methods.declare tree) list) := by
  induction limit with
  | zero => exact fun _ _ _ room => absurd room (Nat.not_lt_zero _)
  | succ limit ih =>
      intro callees list settled room inside calls
      refine Walk.never_nodes never (fun _ absurd => by cases absurd) list
        (fun node member => closed.unsourced_role (inside member)) fun node member role => ?_
      obtain ⟨method, declared, named, found⟩ := closed.exists_method (inside member) role methods
      obtain ⟨shared, known, among, target⟩ := calls node member (Node.role_eq_call.1 role)
      have named : method.name? = some shared.canonical := by
        rw [named, Node.target, target, Option.getD_some]
      refine ⟨method, found, ?_⟩
      cases callees with
      | nil => cases among
      | cons first rest =>
          have calls := compiled.calls explored settled declared known among named
          cases settled with
          | cons _ settled =>
              exact ih rest method.children settled (Nat.lt_of_succ_lt_succ room)
                (Node.preorderAll_method declared) calls

theorem never_walk (compiled : Compiled table filter inline script slots body tree)
    (closed : tree.Closed) (explored : table.Explored library filter scripts script done)
    (never : visitor.Never none) (library' : Library) (methods : Methods) {limit : Nat}
    (room : done.length ≤ limit) : Visit.Never none (walk visitor library' limit methods tree) := by
  rw [closed.walk_eq]
  have inside : Node.preorderAll tree.children ⊆ tree.preorder := fun _ member =>
    Node.mem_preorder.2 (.inr member)
  refine Walk.never_around never (compiled.never_out_of_bounds closed explored never library'
    methods _ done _ explored.settled (Nat.lt_succ_of_le room) inside fun node member kind => ?_)
  obtain ⟨method, declared, name, named, same⟩ := closed.answered node (inside member) kind
  obtain ⟨shared, made, known, -, named', -⟩ := compiled.exists_methodOf declared
  have known := List.mem_of_find?_eq_some known
  refine ⟨shared, known, (explored.entered _).2 ⟨shared, known, rfl⟩, ?_⟩
  rw [same, ← named, named']

end Compiled

/-- Why compiling fails that does not end in a tree. -/
theorem error_of_compile {options : CompileOptions} {filter : Node → Bool} {library : Library}
    {script : Script} {next : NodeId} {error : CompileError}
    (distinct : DistinctScripts (script :: library.scripts))
    (fails : compile options filter library script next = .error error) :
    error.Unnested ∨ Scan.Fault library filter (script :: library.scripts) []
      (Leads library filter script script.root.children) error := by
  have explores := @CallTable.ofScript_explored _ filter options.obfuscate _ distinct
  unfold compile at fails
  cases scanned : CallTable.ofScript library filter options.obfuscate script with
  | error fault =>
      simp only [scanned, bind, Except.bind, Except.error.injEq] at fails explores
      exact .inr (fails ▸ explores)
  | ok table =>
      simp only [scanned, bind, Except.bind] at fails explores
      obtain ⟨done, explored⟩ := explores
      cases rebuilt : Rebuild.script table filter options.inlineSingleUse script next with
      | error fault =>
          simp only [rebuilt, Except.error.injEq] at fails
          exact .inl (fails ▸ Rebuild.unnested_of_script explored rebuilt)
      | ok pair =>
          obtain ⟨children, between⟩ := pair
          simp only [rebuilt] at fails
          cases finished : finishTree options script.root.declaration children between with
          | ok pair =>
              rw [finished] at fails
              cases fails
          | error fault =>
              rw [finished] at fails
              cases fails
              exact .inl trivial

/-- Compiling ends in a tree only if no body that the script comes to recurs; then every walk of the
tree ends. It reports only bodies that recur, and no bound on bodies inside bodies is ever hit. -/
theorem recursion_found {options : CompileOptions} {filter : Node → Bool} {library : Library}
    {script : Script} (rooted : script.root.kind = .script)
    (distinct : DistinctScripts (script :: library.scripts)) (next : NodeId) :
    CallTable.ofScript library filter options.obfuscate script ≠ .error .nestedTooDeeply ∧
    compile options filter library script next ≠ .error .nestedTooDeeply ∧
    (∀ tree next', compile options filter library script next = .ok (tree, next') →
      (∀ callee, Comes library filter (script :: library.scripts) script callee →
        ¬Recurs library filter (script :: library.scripts) callee) ∧
      ∃ bound, ∀ (σ : Type) (visitor : Visitor σ), visitor.Never none →
        ∀ (library' : Library) (methods : Methods) (limit : Nat), bound ≤ limit →
          Visit.Never none (walk visitor library' limit methods tree)) ∧
    (∀ callee, Comes library filter (script :: library.scripts) script callee →
      Recurs library filter (script :: library.scripts) callee →
        ∃ error, compile options filter library script next = .error error) ∧
    ∀ callee, compile options filter library script next = .error (.recursiveInvocation callee) →
      Comes library filter (script :: library.scripts) script callee ∧
        Recurs library filter (script :: library.scripts) callee := by
  have explores := @CallTable.ofScript_explored _ filter options.obfuscate _ distinct
  have acyclic : ∀ tree next', compile options filter library script next = .ok (tree, next') →
      ∀ callee, Comes library filter (script :: library.scripts) script callee →
        ¬Recurs library filter (script :: library.scripts) callee := by
    intro tree next' compiles callee comes
    obtain ⟨table, _, _, scanned, -⟩ := exists_compiled compiles
    rw [scanned] at explores
    obtain ⟨done, explored⟩ := explores
    exact explored.acyclic comes
  refine ⟨fun fails => ?_, fun fails => ?_,
    fun tree next' compiles => ⟨acyclic tree next' compiles, ?_⟩,
    fun callee comes recurs => ?_, fun callee fails => ?_⟩
  · rw [fails] at explores
    exact explores.bounded rfl
  · rcases error_of_compile distinct fails with unnested | fault
    · exact unnested
    · exact fault.bounded rfl
  · obtain ⟨table, slots, body, scanned, compiled⟩ := exists_compiled compiles
    rw [scanned] at explores
    obtain ⟨done, explored⟩ := explores
    exact ⟨done.length, fun σ visitor never library' methods limit room =>
      compiled.never_walk (compiled.closed rooted) explored never library' methods room⟩
  · cases compiles : compile options filter library script next with
    | error error => exact ⟨error, rfl⟩
    | ok pair => exact absurd recurs (acyclic pair.1 pair.2 compiles callee comes)
  · rcases error_of_compile distinct fails with unnested | fault
    · exact unnested.elim
    · obtain ⟨first, leads, steps, stacked | recurs⟩ := fault.recursive callee rfl
      · cases stacked
      · exact ⟨⟨first, leads, steps⟩, recurs⟩

/-! A script that sources one that calls a method that sources the first again. -/

def chasingScript : Script where
  identity := "a"
  root := .bare 2 .script [] [.bare 1 .invokeSource [("src", .string "b")] []]

def chasedScript : Script where
  identity := "b"
  root := .bare 6 .script []
    [.bare 4 .method [("name", .string "m")] [.bare 3 .invokeSource [("src", .string "a")] []],
      .bare 5 .invokeCall [("name", .string "m")] []]

/-- The two scripts and the method recur and are found to; walks of what was compiled from scripts
that do not recur end. -/
theorem recursion_found_of_chase :
    (let library : Library := .ofScripts [chasingScript, chasedScript]
     let scripts := chasingScript :: library.scripts
     compile {} (fun _ => true) library chasingScript ⟨20⟩ =
        .error (.recursiveInvocation (.script "b")) ∧
      Comes library (fun _ => true) scripts chasingScript (.script "b") ∧
        Recurs library (fun _ => true) scripts (.script "b")) ∧
    ∃ tree next' bound,
      compile {} (fun _ => true) (.ofScripts [askingScript, emptyScript]) sourcingScript ⟨20⟩ =
        .ok (tree, next') ∧
      Visit.Never none (walk ({} : Visitor Unit) .empty bound [] tree) := by
  constructor
  · have evaluated : (match compile {} (fun _ => true) (.ofScripts [chasingScript, chasedScript])
        chasingScript ⟨20⟩ with
      | .ok _ => false
      | .error error => decide (error = .recursiveInvocation (.script "b"))) = true := by
      decide +kernel
    have distinct : DistinctScripts [chasingScript, chasingScript, chasedScript] := by
      have distinct : DistinctScripts [chasingScript, chasedScript] := .of_nodup (by decide)
      intro script known other known'
      simp only [List.mem_cons, or_self_left] at known known'
      exact distinct script (by simpa using known) other (by simpa using known')
    intro library scripts
    cases compiles : compile {} (fun _ => true) library chasingScript ⟨20⟩ with
    | ok pair => simp [library, compiles] at evaluated
    | error error =>
        have same : error = .recursiveInvocation (.script "b") := by
          simpa [library, compiles] using evaluated
        subst same
        obtain ⟨-, -, -, -, only⟩ := @recursion_found {} (fun _ => true) library chasingScript rfl
          distinct ⟨20⟩
        exact ⟨rfl, only _ compiles⟩
  · have evaluated : (compile {} (fun _ => true) (.ofScripts [askingScript, emptyScript])
        sourcingScript ⟨20⟩).isOk = true := by
      decide +kernel
    cases compiles : compile {} (fun _ => true) (.ofScripts [askingScript, emptyScript])
        sourcingScript ⟨20⟩ with
    | error error => simp [compiles, Except.isOk, Except.toBool] at evaluated
    | ok pair =>
        obtain ⟨tree, next'⟩ := pair
        obtain ⟨-, -, ends, -⟩ := @recursion_found {} (fun _ => true)
          (.ofScripts [askingScript, emptyScript]) sourcingScript rfl
          (.of_nodup (by decide)) ⟨20⟩
        obtain ⟨-, bound, ends⟩ := ends tree next' compiles
        have silent : Visitor.Never none ({} : Visitor Unit) :=
          ⟨fun _ => Visit.never_pure (), fun _ => Visit.never_pure ()⟩
        exact ⟨tree, next', bound, rfl, ends Unit {} silent .empty [] bound (Nat.le_refl _)⟩

end Archetype
