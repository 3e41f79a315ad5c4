import Archetype.Proofs.Flatten.Frames
import Archetype.Proofs.Flatten.Relabelled

/-!
Rebuilding in lockstep. Scripts that differ in names alone are rebuilt into nodes that correspond
one by one: a method or a call of one side stands for that of the other side which has the other
name of the same body.
-/

namespace Archetype

/-- Two declarations of rebuilt nodes that correspond: the names of methods and calls do, and the
text under "name" of a script may be anything. -/
structure Declaration.Paired (names : String → String → Prop) (d twin : Declaration) : Prop where
  kind : twin.kind = d.kind
  declared : match d.kind with
    | .script => d.attributes.SameButName twin.attributes
    | .method | .invokeCall => ∃ name name', names name name' ∧
        d.attributes = .ofList [("name", .string name)] ∧
        twin.attributes = .ofList [("name", .string name')]
    | _ => twin.attributes = d.attributes

structure Node.Paired (names : String → String → Prop) (node twin : Node) : Prop where
  declaration : node.declaration.Paired names twin.declaration
  expression : twin.expression = node.expression
  checked : node.Checked
  checked' : twin.Checked

variable {names : String → String → Prop}

namespace Declaration.Paired

variable {d twin : Declaration} {children twins : List Node}

theorem sameButName (paired : d.Paired names twin) :
    d.attributes.SameButName twin.attributes := by
  have declared := paired.declared
  split at declared
  · exact declared
  · obtain ⟨name, name', -, here, there⟩ := declared
    rw [here, there]
    exact .names name name'
  · obtain ⟨name, name', -, here, there⟩ := declared
    rw [here, there]
    exact .names name name'
  · rw [declared]
    exact .refl _

theorem check_eq (paired : d.Paired names twin)
    (below : Matched (Node.Paired names) children twins) :
    twin.check twins = d.check children := by
  rw [check_eq_of_sameButName paired.kind paired.sameButName]
  exact check_eq_of_children ((Matched.forall₂_iff.1 below).imp fun child other here =>
    have declaration := (Matched.single_iff.1 here).1.declaration
    .of_sameButName declaration.kind declaration.sameButName)

theorem build (paired : d.Paired names twin) (below : Matched (Node.Paired names) children twins)
    (next next' : NodeId) :
    Corresponds Eq (fun built built' => Matched (Node.Paired names) [built.1] [built'.1])
      (d.build children next) (twin.build twins next') := by
  have same := paired.check_eq below
  unfold Declaration.build
  cases checked : d.check children with
  | error error =>
      rw [checked] at same
      rw [same]
      exact .error rfl
  | ok expression =>
      rw [checked] at same
      rw [same]
      exact .ok (.cons ⟨paired, rfl, checked, same⟩ below .nil)

end Declaration.Paired

theorem Node.Paired.name {node twin : Node} (paired : node.Paired names twin)
    (kind : node.kind = .method ∨ node.kind = .invokeCall) :
    Option.Rel names node.name? twin.name? := by
  have declared := paired.declaration.declared
  have found : ∃ name name', names name name' ∧
      node.declaration.attributes = .ofList [("name", .string name)] ∧
      twin.declaration.attributes = .ofList [("name", .string name')] := by
    rcases kind with kind | kind
    · rwa [show node.declaration.kind = .method from kind] at declared
    · rwa [show node.declaration.kind = .invokeCall from kind] at declared
  obtain ⟨name, name', related, here, there⟩ := found
  have read : ∀ name, Attributes.string? (.ofList [("name", .string name)]) "name" = some name :=
    fun _ => rfl
  rw [Node.name?, Node.name?, Declaration.name?, Declaration.name?, here, there, read, read]
  exact .some related

/-! What rebuilding reads off the nodes of scripts. -/

variable {ρ : Relabelling} {owner : String} {nodes nodes' : List Node}

theorem Node.Relabelled.declaration {node twin : Node} (same : node.Relabelled ρ owner twin)
    (method : node.kind ≠ .method) (invocation : node.isInvocation = false) :
    node.declaration.Paired names twin.declaration where
  kind := same.kind
  declared := by
    simp only [Node.isInvocation, Bool.or_eq_false_iff, decide_eq_false_iff_not] at invocation
    have declared := same.declared
    have attributes := fun script =>
      same.attributes script method invocation.1 invocation.2
    split
    · next script => rwa [show node.kind = .script from script] at declared
    · next other => exact absurd other method
    · next other => exact absurd other invocation.1
    · next script _ _ => exact attributes script

theorem Declaration.Paired.folded {d twin : Declaration} (paired : d.Paired names twin)
    (condition : d.kind = .condition) (e : Option Expression) :
    (Rebuild.foldedDeclaration d e).Paired names (Rebuild.foldedDeclaration twin e) := by
  have attributes : twin.attributes = d.attributes := by
    have declared := paired.declared
    rwa [condition] at declared
  cases e with
  | none => exact paired
  | some e =>
      unfold Rebuild.foldedDeclaration
      simp only
      split
      · exact paired
      · refine ⟨paired.kind, ?_⟩
        rw [show ({ d with attributes := d.attributes.insert "expression" (.string e.fold.text) } :
          Declaration).kind = .condition from condition]
        rw [attributes]

theorem Matched.allFrameNames_eq (same : Matched (Node.Relabelled ρ owner) nodes nodes') :
    Node.allFrameNames nodes' = Node.allFrameNames nodes := by
  induction same with
  | nil => rfl
  | @cons node twin _ _ here _ _ below rest =>
      rw [Node.allFrameNames, Node.allFrameNames, rest, Node.frameNames_eq, Node.frameNames_eq,
        here.role_eq, below]

theorem Node.bindsNothing_eq (node : Node) : node.bindsNothing =
    match node.kind with
    | .inputText | .inputBoolean | .inputEnum | .inputList | .preset | .var => false
    | .script | .condition => node.children.all (·.bindsNothing)
    | _ => true := by
  have all : ∀ nodes : List Node,
      bindsNothing.allBindNothing nodes = nodes.all (·.bindsNothing) := by
    intro nodes
    induction nodes with
    | nil => rfl
    | cons first rest ih => rw [bindsNothing.allBindNothing, List.all_cons, ih]
  obtain ⟨id, ⟨kind, attributes, location⟩, e, children⟩ := node
  cases kind <;> simp only [bindsNothing, all]

theorem Matched.bindNothing_eq (same : Matched (Node.Relabelled ρ owner) nodes nodes') :
    nodes'.all (·.bindsNothing) = nodes.all (·.bindsNothing) := by
  induction same with
  | nil => rfl
  | @cons node twin _ _ here _ _ below rest =>
      rw [List.all_cons, List.all_cons, rest, Node.bindsNothing_eq, Node.bindsNothing_eq, here.kind,
        below]

structure CallTable.Paired (ρ : Relabelling) (names : String → String → Prop)
    (table twin : CallTable) : Prop where
  bodies : List.Forall₂ (fun body body' => SharedBody.Relabelled ρ body body' ∧
    names body.canonical body'.canonical) table.bodies twin.bodies
  relabelled : table.Relabelled ρ twin
  unique : Relator.BiUnique names

theorem CallTable.Paired.body? {table twin : CallTable} (tables : table.Paired ρ names twin)
    {callee callee' : Callee} (related : Callee.Relabelled ρ callee callee') :
    Option.Rel (fun body body' => SharedBody.Relabelled ρ body body' ∧
      names body.canonical body'.canonical) (table.body? callee) (twin.body? callee') := by
  refine find?_forall₂ (fun body body' here => ?_) tables.bodies
  exact decide_eq_decide.2 (Relator.rel_eq (Callee.biUnique ρ) here.1.callee related)

namespace Rebuild

structure State.Paired (names : String → String → Prop) (s s' : State) : Prop where
  methods : List.Forall₂ (fun slot slot' => names slot.1 slot'.1 ∧
    Option.Rel (fun method method' => Matched (Node.Paired names) [method] [method'])
      slot.2 slot'.2) s.methods s'.methods
  taken : s'.taken = s.taken

/-- Two rebuilds side by side: both fail, or both come to values and states that correspond. -/
abbrev Alongside (ρ : Relabelling) (names : String → String → Prop) {α : Type}
    (values : α → α → Prop) (work work' : Rebuild α) : Prop :=
  Lockstep (CompileError.Relabelled ρ) (State.Paired names) values work work'

theorem alongside_build {d twin : Declaration} {children twins : List Node}
    (paired : d.Paired names twin) (below : Matched (Node.Paired names) children twins) :
    Alongside ρ names (fun node other => Matched (Node.Paired names) [node] [other])
      (build d children) (build twin twins) := by
  intro s s' start
  have built := paired.build below s.next s'.next
  unfold build
  generalize d.build children s.next = left, twin.build twins s'.next = right at built
  cases built with
  | ok related => exact .ok ⟨related, start.methods, start.taken⟩
  | @error error _ same =>
      subst same
      exact .error (.construction error)

theorem alongside_inScope {work work' : Rebuild (List Node)}
    (frames : Node.allFrameNames nodes' = Node.allFrameNames nodes)
    (inner : Alongside ρ names (Matched (Node.Paired names)) work work') :
    Alongside ρ names (Matched (Node.Paired names)) (inScope nodes work)
      (inScope nodes' work') := by
  unfold inScope
  rw [frames]
  refine .bind .get fun outer outer' before => ?_
  refine .andThen (.modify fun _ _ start => ⟨start.methods, rfl⟩) ?_
  refine .bind inner fun rebuilt rebuilt' same => ?_
  exact .andThen (.modify fun _ _ start => ⟨start.methods, before.taken⟩) (.pure same)

theorem alongside_reserve (taken : List String) :
    Alongside ρ names Eq (reserve taken) (reserve taken) := by
  unfold reserve
  refine .bind .get fun s s' start => ?_
  rw [start.taken]
  split
  · exact .pure rfl
  · exact .andThen (.set ⟨start.methods, rfl⟩) (.pure rfl)

/-! Nodes of one role. -/

section Nodes

variable {node other : Node} (here : node.Relabelled ρ owner other)
  {work work' : Rebuild (List Node)}
  (below : Alongside ρ names (Matched (Node.Paired names)) work work')
include here below

theorem alongside_condition (role : node.role = .condition) :
    Alongside ρ names (Matched (Node.Paired names))
      (match node.constant? with
        | some true => work
        | some false => pure []
        | none => do
            let children ← work
            return [← build (foldedDeclaration node.declaration node.expression) children])
      (match node.constant? with
        | some true => work'
        | some false => pure []
        | none => do
            let children ← work'
            return [← build (foldedDeclaration other.declaration other.expression) children]) := by
  have kind := Node.role_eq_condition role
  have paired : node.declaration.Paired names other.declaration :=
    here.declaration (by simp [kind]) (by simp [Node.isInvocation_eq, role])
  split
  · exact below
  · exact .pure .nil
  · refine .bind below fun _ _ rebuilt => ?_
    rw [here.expression]
    exact .bind (alongside_build (paired.folded kind node.expression) rebuilt)
      fun _ _ made => .pure made

theorem alongside_block {frame : Option (String × FrameKind)} (role : node.role = .block frame)
    (children : Matched (Node.Relabelled ρ owner) node.children other.children) :
    Alongside ρ names (Matched (Node.Paired names))
      ((if node.kind.frame?.isSome then inScope node.children work else work) >>= fun rebuilt =>
        if node.kind.takesOptions && !rebuilt.any (·.kind = .option) then pure []
        else build node.declaration rebuilt >>= fun twin => pure [twin])
      ((if other.kind.frame?.isSome then inScope other.children work' else work') >>= fun rebuilt =>
        if other.kind.takesOptions && !rebuilt.any (·.kind = .option) then pure []
        else build other.declaration rebuilt >>= fun twin => pure [twin]) := by
  have method : node.kind ≠ .method := fun kind =>
    Role.noConfusion (role.symm.trans (Node.role_eq_declaration.2 kind))
  have paired : node.declaration.Paired names other.declaration :=
    here.declaration method (by simp [Node.isInvocation_eq, role])
  have framed : Alongside ρ names (Matched (Node.Paired names))
      (if node.kind.frame?.isSome then inScope node.children work else work)
      (if node.kind.frame?.isSome then inScope other.children work' else work') := by
    split
    · exact alongside_inScope children.allFrameNames_eq below
    · exact below
  rw [here.kind]
  refine .bind framed fun rebuilt rebuilt' made => ?_
  have options : rebuilt.any (·.kind = .option) = rebuilt'.any (·.kind = .option) :=
    made.any_eq fun _ _ twins => by simp only [Node.kind, twins.declaration.kind]
  rw [options]
  split
  · exact .pure .nil
  · exact .bind (alongside_build paired made) fun _ _ built => .pure built

end Nodes

def AlongsideBodies (ρ : Relabelling) (names : String → String → Prop)
    (rebuildNodes rebuildNodes' : Script → List Node → Rebuild (List Node)) : Prop :=
  ∀ {script twin nodes nodes'}, script.Relabelled ρ twin →
    Matched (Node.Relabelled ρ script.identity) nodes nodes' →
    Alongside ρ names (Matched (Node.Paired names)) (rebuildNodes script nodes)
      (rebuildNodes' twin nodes')

section Bodies

variable {rebuildNodes rebuildNodes' : Script → List Node → Rebuild (List Node)}
  (bodies : AlongsideBodies ρ names rebuildNodes rebuildNodes') (unique : Relator.BiUnique names)
include bodies unique

theorem alongside_emit {body body' : SharedBody} (same : SharedBody.Relabelled ρ body body')
    (named : names body.canonical body'.canonical) :
    Alongside ρ names (fun _ _ => True) (emit rebuildNodes body) (emit rebuildNodes' body') := by
  unfold emit
  refine .bind .get fun s s' start => ?_
  have found := lookup_forall₂ body.canonical body'.canonical (fun slot slot' here => by
    rw [Bool.eq_iff_iff, beq_iff_eq, beq_iff_eq]
    exact Relator.rel_eq unique named here.1) start.methods
  have there : (s'.methods.lookup body'.canonical).isSome =
      (s.methods.lookup body.canonical).isSome := by
    generalize s.methods.lookup body.canonical = left,
      s'.methods.lookup body'.canonical = right at found
    cases found <;> rfl
  rw [there]
  split
  · exact .pure trivial
  refine .andThen (.modify fun _ _ start => ⟨List.rel_append start.methods
    (.cons ⟨named, .none⟩ .nil), start.taken⟩) ?_
  refine .bind (alongside_inScope same.nodes.allFrameNames_eq (bodies same.script same.nodes))
    fun children children' below => ?_
  refine .bind (alongside_build ⟨rfl, _, _, named, rfl, rfl⟩ below) fun method method' made => ?_
  refine .modify fun _ _ start => ⟨List.rel_map (fun slot slot' here => ?_) start.methods,
    start.taken⟩
  have hit := Relator.rel_eq unique here.1 named
  by_cases own : slot.1 = body.canonical
  · simp only [own, hit.1 own, if_true]
    exact ⟨named, .some made⟩
  · simp only [own, mt hit.2 own, if_false]
    exact here

theorem alongside_call {body body' : SharedBody} (same : SharedBody.Relabelled ρ body body')
    (named : names body.canonical body'.canonical) (location location' : Option Location) :
    Alongside ρ names (Matched (Node.Paired names))
      (do
        emit rebuildNodes body
        let attributes := .ofList [("name", .string body.canonical)]
        return [← build { kind := .invokeCall, attributes, location } []])
      (do
        emit rebuildNodes' body'
        let attributes := .ofList [("name", .string body'.canonical)]
        return [← build { kind := .invokeCall, attributes, location := location' } []]) := by
  refine .andThen (alongside_emit bodies unique same named) ?_
  refine .bind (alongside_build ⟨rfl, _, _, named, rfl, rfl⟩ .nil) fun call call' made => ?_
  exact .pure made

theorem alongside_invoke {table table' : CallTable} (tables : table.Paired ρ names table')
    (inline : Bool) {script twin : Script} {target target' : String} {callee callee' : Callee}
    {location location' : Option Location} (callees : Callee.Relabelled ρ callee callee')
    (unknown : CompileError.Relabelled ρ (.unresolvedInvocation target script.identity)
      (.unresolvedInvocation target' twin.identity)) :
    Alongside ρ names (Matched (Node.Paired names))
      (invoke table inline rebuildNodes location target script callee)
      (invoke table' inline rebuildNodes' location' target' twin callee') := by
  have found := tables.body? callees
  unfold invoke
  generalize table.body? callee = left, table'.body? callee' = right at found
  cases found with
  | none => exact .throw unknown
  | @some body body' here =>
      obtain ⟨same, named⟩ := here
      have inlinable : body'.isInlinable = body.isInlinable := same.nodes.bindNothing_eq
      have called := alongside_call bodies unique same named location location'
      have inlined : Alongside ρ names (Matched (Node.Paired names)) _ _ :=
        bodies same.script same.nodes
      simp only [same.count, inlinable, same.nodes.allFrameNames_eq]
      split
      · refine .bind (alongside_reserve _) fun reserved reserved' agreed => ?_
        subst agreed
        split
        · exact inlined
        · exact called
      · exact called

theorem alongside_source {table table' : CallTable} (tables : table.Paired ρ names table')
    (inline : Bool) {script twin : Script} (scripts : script.Relabelled ρ twin) {node other : Node}
    (here : node.Relabelled ρ script.identity other) (role : node.role = .source) :
    Alongside ρ names (Matched (Node.Paired names))
      (match table.identity? node.origin with
        | none => throw (.unresolvedInvocation node.origin script.identity)
        | some identity =>
            invoke table inline rebuildNodes node.location node.origin script (.script identity))
      (match table'.identity? other.origin with
        | none => throw (.unresolvedInvocation other.origin twin.identity)
        | some identity =>
            invoke table' inline rebuildNodes' other.location other.origin twin
              (.script identity)) := by
  have named := here.origin (Node.role_eq_source.1 role)
  have found := tables.relabelled.identity? named
  generalize table.identity? node.origin = left, table'.identity? other.origin = right at found
  cases found with
  | none => exact .throw (.source scripts.identity named)
  | some identity =>
      exact alongside_invoke bodies unique tables inline (.script identity)
        (.source scripts.identity named)

theorem alongside_nodes {table table' : CallTable} (tables : table.Paired ρ names table')
    (inline : Bool) {filter filter' : Node → Bool}
    (accepts : ∀ node other, ρ.alike node other → filter node = filter' other)
    {script twin : Script} (scripts : script.Relabelled ρ twin)
    (same : Matched (Node.Relabelled ρ script.identity) nodes nodes') :
    Alongside ρ names (Matched (Node.Paired names))
      (Rebuild.nodes table filter inline rebuildNodes script nodes)
      (Rebuild.nodes table' filter' inline rebuildNodes' twin nodes') := by
  induction same with
  | nil => exact .pure .nil
  | @cons node other rest rest' here children _ below later =>
      refine .bind (show Alongside ρ names (Matched (Node.Paired names)) _ _ from ?_)
        fun _ _ first => .bind later fun _ _ more => .pure (first.append more)
      rw [node_eq, node_eq, accepts node other here.alike, here.role_eq, here.constant?_eq]
      split
      · cases role : node.role with
        | declaration => exact .pure .nil
        | condition => exact alongside_condition here below role
        | source => exact alongside_source bodies unique tables inline scripts here role
        | call =>
            have named := here.target (Node.role_eq_call.1 role)
            exact alongside_invoke bodies unique tables inline (.method scripts.identity named)
              (.call scripts.identity named)
        | block frame => exact alongside_block here below role children
      · exact .pure .nil

end Bodies

theorem alongside_rebuildNodes {table table' : CallTable} (tables : table.Paired ρ names table')
    (inline : Bool) {filter filter' : Node → Bool}
    (accepts : ∀ node other, ρ.alike node other → filter node = filter' other) (limit : Nat) :
    AlongsideBodies ρ names (rebuildNodes table filter inline limit)
      (rebuildNodes table' filter' inline limit) := by
  induction limit with
  | zero => exact fun _ _ => .throw .nestedTooDeeply
  | succ limit ih => exact fun scripts same =>
      alongside_nodes ih tables.unique tables inline accepts scripts same

/-- The methods and the body that scripts are rebuilt into correspond. -/
theorem script_corresponds {table table' : CallTable} (tables : table.Paired ρ names table')
    (inline : Bool) {filter filter' : Node → Bool}
    (accepts : ∀ node other, ρ.alike node other → filter node = filter' other)
    {script twin : Script} (scripts : script.Relabelled ρ twin) (next next' : NodeId) :
    Corresponds (CompileError.Relabelled ρ)
      (fun rebuilt rebuilt' => Matched (Node.Paired names) rebuilt.1 rebuilt'.1)
      (Rebuild.script table filter inline script next)
      (Rebuild.script table' filter' inline twin next') := by
  have start : State.Paired names { next } { next := next' } := ⟨.nil, rfl⟩
  have limit : table'.bodies.length = table.bodies.length := tables.bodies.length_eq.symm
  unfold Rebuild.script
  rw [limit]
  refine (alongside_inScope scripts.body.allFrameNames_eq
    (alongside_rebuildNodes tables inline accepts _ scripts scripts.body) _ _ start).bind
    fun rebuilt rebuilt' both => .ok ?_
  have methods : List.Forall₂ (fun method method' => Matched (Node.Paired names) [method] [method'])
      (rebuilt.2.methods.filterMap (·.2)) (rebuilt'.2.methods.filterMap (·.2)) :=
    List.rel_filterMap (fun _ _ here => here.2) both.2.methods
  exact (Matched.forall₂_iff.2 methods).append both.1

end Rebuild

end Archetype
