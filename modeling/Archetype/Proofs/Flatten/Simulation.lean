import Archetype.Proofs.Flatten.Scanning
import Archetype.Proofs.Generation.AlikeVisitors
import Archetype.Proofs.Script.Checking
import Archetype.Proofs.Walk.Methods

/-!
Walking rebuilt nodes against walking the nodes they come from. The walk of the source follows
invocations through the library and the methods of the script at hand; the walk of the rebuilt nodes
follows calls through one flat list of methods. Both go alike, body by body.
-/

namespace Archetype

/-- A node as it is built, without number signs and with nothing to fold. -/
structure Node.Regular (node : Node) : Prop extends node.Plain where
  check : node.declaration.check node.children = .ok node.expression
  unfolded : ∀ e, node.expression = some e → e.fold = e

def Node.calledFrame (library : Library) (node : Node) : String :=
  match node.role with
  | .source =>
      match library.load node.origin with
      | .ok target => invocationFrame target.identity node.id
      | .error _ => invocationFrame "" node.id
  | _ => invocationFrame node.target node.id

def Methods.Covers (methods : Methods) (script : Script) : Prop :=
  ∀ method ∈ script.root.methods, ∀ name, method.name? = some name →
    methods.lookup name = some method

theorem Methods.covers_declare {script : Script}
    (distinct : (script.root.methods.filterMap (·.name?)).Nodup) (base : Methods) :
    (base.declare script.root).Covers script :=
  fun _ declared _ named => lookup_foldl_of_mem distinct declared named base

def Node.AllRegular (nodes : List Node) : Prop := ∀ node ∈ Node.preorderAll nodes, node.Regular

theorem Node.allRegular_cons {node : Node} {nodes : List Node} :
    Node.AllRegular (node :: nodes) ↔
      node.Regular ∧ Node.AllRegular node.children ∧ Node.AllRegular nodes := by
  simp only [Node.AllRegular, Node.preorderAll_cons, List.forall_mem_cons, List.forall_mem_append]

/-! What rebuilding keeps. -/

theorem Node.Regular.expression_of_constant {node : Node} (regular : node.Regular) {truth : Bool}
    (constant : node.constant? = some truth) : node.expression = some (.literal (.bool truth)) := by
  obtain ⟨e, parsed, folds⟩ := Option.bind_eq_some_iff.1 constant
  rw [Expression.constant?, regular.unfolded e parsed] at folds
  split at folds
  · cases folds
    exact parsed
  · cases folds

theorem Node.Regular.holdsIn_of_constant {node : Node} (regular : node.Regular) {truth : Bool}
    (constant : node.constant? = some truth) (tree : ScopeTree) :
    node.holdsIn tree = .ok truth := by
  rw [Node.holdsIn, regular.expression_of_constant constant]
  rfl

theorem Node.Regular.foldedDeclaration_eq {node : Node} (regular : node.Regular) :
    Rebuild.foldedDeclaration node.declaration node.expression = node.declaration := by
  unfold Rebuild.foldedDeclaration
  split
  · rfl
  · next e parsed => rw [if_pos (regular.unfolded e parsed)]

namespace Node

def optionsAmong (nodes : List Node) : List Declaration :=
  (nodes.filter (·.kind = .option)).map (·.declaration)

@[simp] theorem optionsAmong_append (nodes more : List Node) :
    optionsAmong (nodes ++ more) = optionsAmong nodes ++ optionsAmong more := by
  simp only [optionsAmong, List.filter_append, List.map_append]

theorem optionsAmong_cons_of_ne {node : Node} {nodes : List Node} (other : node.kind ≠ .option) :
    optionsAmong (node :: nodes) = optionsAmong nodes := by
  rw [optionsAmong, List.filter_cons_of_neg (by simpa using other), optionsAmong]

/-- Nodes of one declaration are both options or neither. -/
theorem optionsAmong_cons_congr {node twin : Node} {nodes more : List Node}
    (declaration : twin.declaration = node.declaration)
    (later : optionsAmong more = optionsAmong nodes) :
    optionsAmong (twin :: more) = optionsAmong (node :: nodes) := by
  have same : twin.kind = node.kind := congrArg Declaration.kind declaration
  by_cases kind : node.kind = .option
  · simp only [optionsAmong] at later ⊢
    rw [List.filter_cons_of_pos (by simpa using same.trans kind),
      List.filter_cons_of_pos (by simpa using kind), List.map_cons, List.map_cons, later,
      declaration]
  · rw [optionsAmong_cons_of_ne (same ▸ kind), optionsAmong_cons_of_ne kind, later]

theorem optionsAmong_eq_nil {nodes : List Node} :
    optionsAmong nodes = [] ↔ ∀ node ∈ nodes, node.kind ≠ .option := by
  simp [optionsAmong, List.filter_eq_nil_iff]

/-- An option is a block without a frame. -/
theorem kind_ne_option {node : Node} (role : node.role ≠ .block none) : node.kind ≠ .option := by
  intro kind
  exact role (by simp only [Node.role, kind, NodeKind.frame?])

theorem kind_ne_option_of_isInvocation {node : Node} (invokes : node.isInvocation = true) :
    node.kind ≠ .option :=
  kind_ne_option fun role => by simp [isInvocation_eq, role] at invokes

theorem Regular.optionsAmong_eq_nil {node : Node} (regular : node.Regular)
    (takes : node.kind.takesOptions = false) : optionsAmong node.children = [] := by
  refine Node.optionsAmong_eq_nil.2 fun option member kind => ?_
  exact Bool.false_ne_true
    (takes.symm.trans (Declaration.takesOptions_of_option regular.check member kind))

/-- A node is a twin of one that it shares the declaration and the options with. -/
theorem Regular.twin {node twin : Node} (regular : node.Regular)
    (declaration : twin.declaration = node.declaration)
    (check : twin.declaration.check twin.children = .ok twin.expression)
    (options : optionsAmong twin.children = optionsAmong node.children) : node.Twin twin where
  declaration := declaration
  expression := by
    have parsed := (Declaration.check_eq_ok regular.check).2
    have parsed' := (Declaration.check_eq_ok check).2
    rw [declaration, parsed] at parsed'
    exact (Except.ok.inj parsed').symm
  options := by
    have same := congrArg (List.map fun d : Declaration => (⟨(d.value?.map Value.text).getD "",
      d.label?, d.help?⟩ : InputOption)) options
    rw [optionsAmong, optionsAmong, List.map_map, List.map_map] at same
    exact same

end Node

/-- Rebuilding keeps the options among nodes, in order. -/
theorem Rebuilt.optionsAmong_eq {table : CallTable} {filter : Node → Bool}
    {sites : Node → Node → Prop} {script : Script} (accepts : ∀ node, filter node = true)
    (rebuilt : Rebuilt table filter sites script nodes result) (regular : Node.AllRegular nodes) :
    Node.optionsAmong result = Node.optionsAmong nodes := by
  induction rebuilt with
  | nil => rfl
  | rejected rejects _ _ => simp [accepts] at rejects
  | declaration role _ ih =>
      rw [Node.optionsAmong_cons_of_ne (Node.kind_ne_option (by simp [role]))]
      exact ih (Node.allRegular_cons.1 regular).2.2
  | never role _ _ ih =>
      rw [Node.optionsAmong_cons_of_ne (Node.kind_ne_option (by simp [role]))]
      exact ih (Node.allRegular_cons.1 regular).2.2
  | always role _ _ _ ihBelow ih =>
      obtain ⟨here, below, later⟩ := Node.allRegular_cons.1 regular
      -- A condition has no options below it, so none take its place.
      have none := here.optionsAmong_eq_nil (by rw [Node.role_eq_condition role]; rfl)
      rw [Node.optionsAmong_cons_of_ne (Node.kind_ne_option (by simp [role])),
        Node.optionsAmong_append, ihBelow below, none, ih later, List.nil_append]
  | condition _ _ declaration _ _ _ _ ih =>
      obtain ⟨here, -, later⟩ := Node.allRegular_cons.1 regular
      exact Node.optionsAmong_cons_congr (declaration.trans here.foldedDeclaration_eq) (ih later)
  | @invocation _ _ twin _ _ invokes _ declaration _ _ _ ih =>
      have twin : twin.kind ≠ .option := by simp [Node.kind, declaration]
      rw [Node.optionsAmong_cons_of_ne twin,
        Node.optionsAmong_cons_of_ne (Node.kind_ne_option_of_isInvocation invokes)]
      exact ih (Node.allRegular_cons.1 regular).2.2
  | emptied _ takes optionless _ _ =>
      obtain ⟨here, -, -⟩ := Node.allRegular_cons.1 regular
      obtain ⟨option, member, kind⟩ := Declaration.exists_option here.check takes
      cases (accepts option).symm.trans (optionless option member kind)
  | block _ declaration _ _ _ _ ih =>
      exact Node.optionsAmong_cons_congr declaration (ih (Node.allRegular_cons.1 regular).2.2)

namespace Walk

variable {visitor : Visitor σ} {library : Library} {body : Methods → List Node → Visit σ Unit}
  {methods : Methods}

theorem nodes_append (first second : List Node) :
    nodes visitor library body methods (first ++ second) =
      nodes visitor library body methods first >>= fun _ =>
        nodes visitor library body methods second := by
  induction first with
  | nil => simp [nodes]
  | cons node rest ih => simp only [List.cons_append, nodes, ih, bind_assoc]

theorem nodes_of_declarations {list : List Node} (declared : ∀ node ∈ list, node.kind = .method) :
    nodes visitor library body methods list = pure () := by
  induction list with
  | nil => rfl
  | cons node rest ih =>
      have role : node.role = .declaration := by
        simp only [Node.role, declared node (List.mem_cons_self ..)]
      rw [nodes, node_eq]
      simp only [role, pure_bind]
      exact ih fun node member => declared node (List.mem_cons_of_mem _ member)

theorem around_of_idle (idles : visitor.Idles) {node : Node} (idle : node.kind.isIdle = true)
    (work : Visit σ Unit) : around visitor node work = work := by
  unfold around
  rw [idles.enter idle, idles.leave idle]
  simp

/-- A condition that is constant gives way to what is below it, or to nothing. -/
theorem node_of_constant (idles : visitor.Idles) {node : Node} (regular : node.Regular)
    (role : node.role = .condition) {truth : Bool} (constant : node.constant? = some truth) :
    Walk.node visitor library body methods node =
      if truth then nodes visitor library body methods node.children else pure () := by
  have decided : (holds node : Visit σ Bool) = pure truth := by
    rw [holds_eq]
    funext c
    simp only [regular.holdsIn_of_constant constant]
    rfl
  have idle : node.kind.isIdle = true := by
    rw [Node.role_eq_condition role]
    rfl
  rw [node_eq]
  simp only [role, decided, pure_bind, around_of_idle idles idle]

theorem alike_around {ρ : Renaming} (respects : visitor.Respects ρ) {node twin : Node}
    (same : node.Twin twin) (plain : node.Plain) {work work' : Visit σ Unit}
    (inner : Visit.Alike ρ work work') :
    Visit.Alike ρ (around visitor node work) (around visitor twin work') :=
  Visit.alike_bind (respects.enter same plain) fun _ =>
    Visit.alike_bind inner fun _ => respects.leave same plain

theorem alike_holds {ρ : Renaming} {node twin : Node} (same : node.Twin twin)
    (plain : node.Plain) : Visit.Alike ρ (holds node : Visit σ Bool) (holds twin) := by
  rw [holds_eq, holds_eq]
  refine Visit.alike_scope_bind fun a b s renamed => ?_
  refine Visit.alike_ofExcept ?_ a b s renamed
  unfold Node.holdsIn
  rw [same.expression]
  cases parsed : node.expression with
  | none => rfl
  | some e => exact renamed.holdsIn (plain.condition e parsed)

end Walk

theorem Node.Twin.role_eq {node twin : Node} (same : node.Twin twin) : twin.role = node.role := by
  simp only [Node.role, Node.kind, Node.name?, same.declaration]

theorem Node.isIdle_of_isInvocation {node : Node} (invokes : node.isInvocation = true) :
    node.kind.isIdle = true := by
  unfold Node.isInvocation at invokes
  cases kind : node.kind <;> simp_all [NodeKind.isIdle]

structure Orderly (scripts : List Script) : Prop where
  regular : ∀ script ∈ scripts, Node.AllRegular script.root.children
  distinct : ∀ script ∈ scripts, (script.root.methods.filterMap (·.name?)).Nodup

namespace CallTable.Sound

variable {library : Library} {scripts : List Script} {root script : Script} {table : CallTable}
  {body : SharedBody}

theorem of_source (sound : table.Sound library scripts root) (atHand : AtHand library scripts)
    {src identity : String} (sourced : table.identity? src = some identity)
    (reached : table.body? (.script identity) = some body) :
    library.load src = .ok body.script ∧ body.script ∈ scripts ∧
      body.nodes = body.script.root.body := by
  obtain ⟨before, after, split, -⟩ := List.lookup_eq_some_iff.1 sourced
  obtain ⟨target, loaded, owner⟩ := sound.sources src identity (by rw [split]; simp)
  have drawn := sound.drawn body (List.mem_of_find?_eq_some reached)
  rw [show body.callee = .script identity by simpa using List.find?_some reached] at drawn
  obtain ⟨known, owner', nodes⟩ := drawn.of_script
  have same := atHand.distinct _ (atHand.loads _ _ loaded) _ known (owner.trans owner'.symm)
  exact ⟨same ▸ loaded, known, nodes⟩

theorem of_call (sound : table.Sound library scripts root) (atHand : AtHand library scripts)
    (known : script ∈ scripts) {name : String}
    (reached : table.body? (.method script.identity name) = some body) :
    body.script = script ∧ ∃ method ∈ script.root.methods, method.name? = some name ∧
      body.nodes = method.children := by
  have drawn := sound.drawn body (List.mem_of_find?_eq_some reached)
  rw [show body.callee = .method script.identity name by simpa using List.find?_some reached]
    at drawn
  obtain ⟨known', owner, declared⟩ := drawn.of_method
  have same := atHand.distinct _ known' _ known owner
  exact ⟨same, same ▸ declared⟩

/-- An invocation goes into a frame of its own, where the nodes of the body are walked that it leads
to; those of a script with its methods among them. -/
theorem exists_entered (sound : table.Sound library scripts root) (atHand : AtHand library scripts)
    (orderly : Orderly scripts) {visitor : Visitor σ} (idles : visitor.Idles)
    {inner : Methods → List Node → Visit σ Unit} (known : script ∈ scripts) {methods : Methods}
    (covers : methods.Covers script) {node : Node}
    (reached : table.reached? script node = some body) :
    ∃ methods' list, body.script ∈ scripts ∧ methods'.Covers body.script ∧
      Node.preorderAll list ⊆ Node.preorderAll body.script.root.children ∧
      (body.nodes = list ∨ body.nodes = list.filter (·.kind ≠ .method)) ∧
      Walk.node visitor library inner methods node =
        Visit.within (node.calledFrame library) .invocation (inner methods' list) := by
  have idle := Node.isIdle_of_isInvocation (CallTable.isInvocation_of_reached? reached)
  rw [Walk.node_eq]
  cases role : node.role with
  | source =>
      simp only [CallTable.reached?, role] at reached
      obtain ⟨identity, sourced, known'⟩ := Option.bind_eq_some_iff.1 reached
      obtain ⟨loaded, owned, nodes⟩ := sound.of_source atHand sourced known'
      refine ⟨methods.declare body.script.root, body.script.root.children, owned,
        Methods.covers_declare (orderly.distinct _ owned) _, List.Subset.refl _, .inr nodes, ?_⟩
      simp only [Walk.source_eq, Node.calledFrame, role, loaded, Walk.around_of_idle idles idle]
  | call =>
      simp only [CallTable.reached?, role] at reached
      obtain ⟨owner, method, declared, named, nodes⟩ := sound.of_call atHand known reached
      have member := List.mem_filter.1 declared
      have idle' : method.kind.isIdle = true := by
        rw [show method.kind = .method by simpa using member.2]
        rfl
      refine ⟨methods, method.children, owner ▸ known, owner ▸ covers, ?_, .inl nodes, ?_⟩
      · rw [owner]
        exact Node.preorderAll_subset member.1
      · simp only [Walk.call_eq, Node.calledFrame, role, covers method declared _ named,
          Walk.around_of_idle idles idle, Walk.around_of_idle idles idle']
  | _ => simp [CallTable.reached?, role] at reached

end CallTable.Sound

/-- A flat list of methods stands for the scripts: every call at a site finds the method that the
body of its invocation was rebuilt into, and goes into a frame of the new name. -/
structure Flat (library : Library) (scripts : List Script) (table : CallTable)
    (filter : Node → Bool) (sites : Node → Node → Prop) (ρ : Renaming) (flat : Methods) :
    Prop where
  found : ∀ {node twin body}, sites node twin → body ∈ table.bodies →
    body.canonical = twin.target → ∃ method, flat.lookup twin.target = some method ∧
      method.kind = .method ∧ Rebuilt table filter sites body.script body.nodes method.children
  frame : ∀ {node twin}, sites node twin →
    ρ.apply (node.calledFrame library) = invocationFrame twin.target twin.id

namespace Flat

variable {library : Library} {scripts : List Script} {table : CallTable} {filter : Node → Bool}
  {sites : Node → Node → Prop} {ρ : Renaming} {flat : Methods} {root : Script}
  {visitor : Visitor σ} {inner : Methods → List Node → Visit σ Unit}

def Follows (scripts : List Script) (table : CallTable) (filter : Node → Bool)
    (sites : Node → Node → Prop) (ρ : Renaming) (flat : Methods)
    (inner : Methods → List Node → Visit σ Unit) : Prop :=
  ∀ {script methods list list'}, script ∈ scripts → methods.Covers script →
    Node.AllRegular list → Rebuilt table filter sites script list list' →
      Visit.Alike ρ (inner methods list) (inner flat list')

theorem call_eq {twin method : Node} (idles : visitor.Idles)
    (declared : method.kind = .method) (found : flat.lookup twin.target = some method) :
    Walk.call visitor inner flat twin =
      Walk.around visitor twin
        (Visit.within (invocationFrame twin.target twin.id) .invocation
          (inner flat method.children)) := by
  have idle : method.kind.isIdle = true := by rw [declared]; rfl
  rw [Node.target] at found
  simp only [Walk.call, found, Walk.around_of_idle idles idle, Node.target]

/-- An invocation goes like the call that takes its place. -/
theorem alike_invocation (flattens : Flat library scripts table filter sites ρ flat)
    (atHand : AtHand library scripts) (orderly : Orderly scripts)
    (sound : table.Sound library scripts root) (idles : visitor.Idles)
    (follows : Follows scripts table filter sites ρ flat inner) {script : Script}
    (known : script ∈ scripts) {methods : Methods} (covers : methods.Covers script)
    {node twin : Node} {body : SharedBody} (reached : table.reached? script node = some body)
    (declaration : twin.declaration =
      { kind := .invokeCall, attributes := .ofList [("name", .string body.canonical)],
        location := node.location })
    (site : sites node twin) :
    Visit.Alike ρ (Walk.node visitor library inner methods node)
      (Walk.node visitor library inner flat twin) := by
  have role : twin.role = .call := by simp only [Node.role, Node.kind, declaration]
  have target : body.canonical = twin.target := by
    simp only [Node.target, Node.name?, declaration]
    rfl
  obtain ⟨method, found, declared, rebuilt⟩ :=
    flattens.found site (CallTable.mem_of_reached? reached) target
  have frame := flattens.frame site
  have idle : twin.kind.isIdle = true := by
    rw [Node.kind, declaration]
    rfl
  obtain ⟨methods', list, owned, covers', inside, nodes, entered⟩ :=
    sound.exists_entered atHand orderly idles known covers reached
  rw [entered, Walk.node_eq twin]
  simp only [role]
  rw [call_eq idles declared found, Walk.around_of_idle idles idle, ← frame]
  refine Visit.alike_within (fun _ => rfl) (follows owned covers'
    (fun _ below => orderly.regular _ owned _ (inside below)) ?_)
  rcases nodes with nodes | nodes
  · exact nodes ▸ rebuilt
  · rw [nodes] at rebuilt
    exact rebuilt.of_body

/-- Nodes go like the nodes they are rebuilt into, if the bodies of their invocations do. -/
theorem alike_nodes (flattens : Flat library scripts table filter sites ρ flat)
    (atHand : AtHand library scripts) (orderly : Orderly scripts)
    (sound : table.Sound library scripts root) (accepts : ∀ node, filter node = true)
    (respects : visitor.Respects ρ) (idles : visitor.Idles)
    (follows : Follows scripts table filter sites ρ flat inner) :
    Follows scripts table filter sites ρ flat (Walk.nodes visitor library inner) := by
  intro script methods list list' known covers regular rebuilt
  induction rebuilt with
  | nil => exact Visit.alike_pure ()
  | rejected rejects _ _ => simp [accepts] at rejects
  | declaration role _ ih =>
      obtain ⟨-, -, later⟩ := Node.allRegular_cons.1 regular
      rw [Walk.nodes, Walk.node_eq]
      simp only [role, pure_bind]
      exact ih later
  | never role constant _ ih =>
      obtain ⟨here, -, later⟩ := Node.allRegular_cons.1 regular
      rw [Walk.nodes, Walk.node_of_constant idles here role constant]
      simp only [Bool.false_eq_true, if_false, pure_bind]
      exact ih later
  | always role constant _ _ ihBelow ih =>
      obtain ⟨here, below, later⟩ := Node.allRegular_cons.1 regular
      rw [Walk.nodes, Walk.node_of_constant idles here role constant, if_pos rfl, Walk.nodes_append]
      exact Visit.alike_bind (ihBelow below) fun _ => ih later
  | condition role constant declaration check rebuilt _ ihBelow ih =>
      obtain ⟨here, below, later⟩ := Node.allRegular_cons.1 regular
      have same := here.twin (declaration.trans here.foldedDeclaration_eq) check
        (rebuilt.optionsAmong_eq accepts below)
      rw [Walk.nodes, Walk.nodes]
      refine Visit.alike_bind ?_ fun _ => ih later
      rw [Walk.node_eq, Walk.node_eq, same.role_eq]
      simp only [role]
      refine Visit.alike_bind (Walk.alike_holds same here.toPlain) fun truth => ?_
      cases truth with
      | false => exact Visit.alike_pure ()
      | true => exact Walk.alike_around respects same here.toPlain (ihBelow below)
  | invocation _ reached declaration _ site _ ih =>
      obtain ⟨-, -, later⟩ := Node.allRegular_cons.1 regular
      rw [Walk.nodes, Walk.nodes]
      exact Visit.alike_bind (flattens.alike_invocation atHand orderly sound idles follows known
        covers reached declaration site) fun _ => ih later
  | emptied _ takes optionless _ _ =>
      obtain ⟨here, -, -⟩ := Node.allRegular_cons.1 regular
      obtain ⟨option, member, kind⟩ := Declaration.exists_option here.check takes
      cases (accepts option).symm.trans (optionless option member kind)
  | block role declaration check rebuilt _ ihBelow ih =>
      obtain ⟨here, below, later⟩ := Node.allRegular_cons.1 regular
      have same := here.twin declaration check (rebuilt.optionsAmong_eq accepts below)
      rw [Walk.nodes, Walk.nodes]
      refine Visit.alike_bind ?_ fun _ => ih later
      rw [Walk.node_eq, Walk.node_eq, same.role_eq]
      simp only [role]
      refine Visit.alike_inFrame (fun name kind opened => ?_)
        (Walk.alike_around respects same here.toPlain (ihBelow below))
      exact here.name name (Node.eq_of_role_block (opened ▸ role)).2

theorem alike_bodies (flattens : Flat library scripts table filter sites ρ flat)
    (atHand : AtHand library scripts) (orderly : Orderly scripts)
    (sound : table.Sound library scripts root) (accepts : ∀ node, filter node = true)
    (respects : visitor.Respects ρ) (idles : visitor.Idles) (limit : Nat) :
    Follows scripts table filter sites ρ flat (Walk.bodies visitor library limit) := by
  induction limit with
  | zero => exact fun _ _ _ _ => Visit.alike_outOfBounds
  | succ limit ih =>
      exact flattens.alike_nodes atHand orderly sound accepts respects idles ih

end Flat

end Archetype
