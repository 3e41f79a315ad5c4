import Archetype.Proofs.Flatten.CallGraph

/-!
The invocations that flattening nodes comes to, as a list. Scanning nodes is a loop over them. Some
of them may be lost together with an input that has no options left.
-/

namespace Archetype

namespace Node

variable (filter : Node → Bool)

mutual
/-- The invocations that flattening a node comes to, in order. -/
def reached : Node → List Node
  | ⟨id, d, e, children⟩ =>
      let this : Node := ⟨id, d, e, children⟩
      if filter this then
        match this.role with
        | .declaration => []
        | .condition => if this.constant? = some false then [] else reachedAll children
        | .source => [this]
        | .call => [this]
        | .block _ => reachedAll children
      else []

def reachedAll : List Node → List Node
  | [] => []
  | node :: rest => reached node ++ reachedAll rest
end

variable {filter}

theorem reached_eq (node : Node) :
    reached filter node =
      if filter node then
        match node.role with
        | .declaration => []
        | .condition => if node.constant? = some false then [] else reachedAll filter node.children
        | .source => [node]
        | .call => [node]
        | .block _ => reachedAll filter node.children
      else [] := by
  obtain ⟨id, d, e, children⟩ := node
  rw [reached]

@[simp] theorem reachedAll_nil : reachedAll filter [] = [] := rfl

@[simp] theorem reachedAll_cons (node : Node) (nodes : List Node) :
    reachedAll filter (node :: nodes) = reached filter node ++ reachedAll filter nodes := rfl

theorem reaches_of_mem : ∀ {nodes : List Node} {invocation : Node},
    invocation ∈ reachedAll filter nodes → Reaches filter nodes invocation
  | [], _, member => by cases member
  | ⟨id, d, e, children⟩ :: rest, invocation, member => by
      have below := @reaches_of_mem children invocation
      have later := @reaches_of_mem rest invocation
      generalize hnode : (⟨id, d, e, children⟩ : Node) = node at member ⊢
      rw [← show node.children = children from hnode ▸ rfl] at below
      rw [reachedAll_cons, reached_eq] at member
      rcases List.mem_append.1 member with here | after
      · split at here
        · next accepts =>
            cases role : node.role with
            | declaration => simp [role] at here
            | condition =>
                simp only [role] at here
                split at here
                · cases here
                · next constant => exact .condition accepts role constant (below here)
            | source =>
                simp only [role, List.mem_singleton] at here
                subst here
                exact .here accepts (by simp [isInvocation_eq, role])
            | call =>
                simp only [role, List.mem_singleton] at here
                subst here
                exact .here accepts (by simp [isInvocation_eq, role])
            | block frame =>
                simp only [role] at here
                exact .block accepts role (below here)
        · cases here
      · exact .later (later after)
termination_by nodes => sizeOf nodes

theorem isInvocation_of_reached {nodes : List Node} {invocation : Node}
    (member : invocation ∈ reachedAll filter nodes) : invocation.isInvocation = true := by
  have reaches := reaches_of_mem member
  clear member
  induction reaches with
  | here _ invokes => exact invokes
  | condition _ _ _ _ ih => exact ih
  | block _ _ _ ih => exact ih
  | later _ ih => exact ih

theorem reachedAll_body (nodes : List Node) :
    reachedAll filter (nodes.filter (·.kind ≠ .method)) = reachedAll filter nodes := by
  induction nodes with
  | nil => rfl
  | cons node rest ih =>
      rw [List.filter_cons, reachedAll_cons]
      split
      · rw [reachedAll_cons, ih]
      · next declared =>
          have kind : node.kind = .method := by simpa using declared
          have role : node.role = .declaration := by simp only [role, kind]
          rw [ih, reached_eq]
          simp [role]

def callees (library : Library) (filter : Node → Bool) (script : Script) (nodes : List Node) :
    List Callee :=
  (reachedAll filter nodes).filterMap (·.callee? library script)

section Callees

variable {library : Library} {script : Script} {node : Node} {nodes : List Node}

theorem callees_cons : callees library filter script (node :: nodes) =
    (node.reached filter).filterMap (·.callee? library script) ++
      callees library filter script nodes := by
  rw [callees, reachedAll_cons, List.filterMap_append, callees]

theorem callees_of_rejected (rejects : filter node = false) :
    callees library filter script (node :: nodes) = callees library filter script nodes := by
  simp [callees_cons, reached_eq, rejects]

theorem callees_of_declaration (role : node.role = .declaration) :
    callees library filter script (node :: nodes) = callees library filter script nodes := by
  simp [callees_cons, reached_eq, role]

theorem callees_of_never (role : node.role = .condition) (constant : node.constant? = some false) :
    callees library filter script (node :: nodes) = callees library filter script nodes := by
  simp [callees_cons, reached_eq, role, constant]

theorem callees_of_condition (accepts : filter node = true) (role : node.role = .condition)
    (constant : node.constant? ≠ some false) : callees library filter script (node :: nodes) =
      callees library filter script node.children ++ callees library filter script nodes := by
  simp [reached_eq, accepts, role, constant, callees]

theorem callees_of_block {frame : Option (String × FrameKind)} (accepts : filter node = true)
    (role : node.role = .block frame) : callees library filter script (node :: nodes) =
      callees library filter script node.children ++ callees library filter script nodes := by
  simp [reached_eq, accepts, role, callees]

theorem callees_of_leads {callee : Callee} (accepts : filter node = true)
    (leads : node.callee? library script = some callee) :
    callees library filter script (node :: nodes) =
      callee :: callees library filter script nodes := by
  cases role : node.role with
  | source => simp [callees_cons, reached_eq, accepts, role, leads]
  | call => simp [callees_cons, reached_eq, accepts, role, leads]
  | declaration => simp [callee?, role] at leads
  | condition => simp [callee?, role] at leads
  | block frame => simp [callee?, role] at leads

end Callees

/-! An input goes when the filter rejects all its options, and the calls below it go along. -/

/-- The filter leaves a node without options that needs some. -/
def LosesOptions (filter : Node → Bool) (node : Node) : Prop :=
  node.kind.takesOptions = true ∧
    ∀ option ∈ node.children, option.kind = .option → filter option = false

instance (filter : Node → Bool) : DecidablePred (LosesOptions filter) :=
  fun node => inferInstanceAs (Decidable (_ ∧ ∀ option ∈ node.children, _ → _))

variable (filter)

mutual
/-- The invocations that flattening a node comes to below inputs that lose their options. -/
def stranded : Node → List Node
  | ⟨id, d, e, children⟩ =>
      let this : Node := ⟨id, d, e, children⟩
      if filter this then
        match this.role with
        | .condition => if this.constant? = some false then [] else strandedAll children
        | .block _ =>
            if this.LosesOptions filter then reachedAll filter children else strandedAll children
        | _ => []
      else []

def strandedAll : List Node → List Node
  | [] => []
  | node :: rest => stranded node ++ strandedAll rest
end

variable {filter}

theorem stranded_eq (node : Node) :
    stranded filter node =
      if filter node then
        match node.role with
        | .condition => if node.constant? = some false then [] else strandedAll filter node.children
        | .block _ =>
            if node.LosesOptions filter then reachedAll filter node.children
            else strandedAll filter node.children
        | _ => []
      else [] := by
  obtain ⟨id, d, e, children⟩ := node
  rw [stranded]

@[simp] theorem strandedAll_nil : strandedAll filter [] = [] := rfl

@[simp] theorem strandedAll_cons (node : Node) (nodes : List Node) :
    strandedAll filter (node :: nodes) = stranded filter node ++ strandedAll filter nodes := rfl

theorem strandedAll_subset : ∀ nodes : List Node,
    strandedAll filter nodes ⊆ reachedAll filter nodes
  | [] => List.Subset.refl _
  | ⟨id, d, e, children⟩ :: rest => by
      have below := strandedAll_subset children
      have later := strandedAll_subset rest
      generalize hnode : (⟨id, d, e, children⟩ : Node) = node
      rw [← show node.children = children from hnode ▸ rfl] at below
      rw [strandedAll_cons, reachedAll_cons]
      refine List.append_subset.2 ⟨List.Subset.trans ?_ (List.subset_append_left _ _),
        List.Subset.trans later (List.subset_append_right _ _)⟩
      rw [stranded_eq, reached_eq]
      split
      · cases node.role with
        | condition =>
            simp only
            split
            · exact List.Subset.refl _
            · exact below
        | block frame =>
            simp only
            split
            · exact List.Subset.refl _
            · exact below
        | declaration => exact List.Subset.refl _
        | source => exact List.nil_subset _
        | call => exact List.nil_subset _
      · exact List.Subset.refl _
termination_by nodes => sizeOf nodes

section Stranded

variable {node : Node}

theorem strandedAll_children_of_condition (accepts : filter node = true)
    (role : node.role = .condition) (constant : node.constant? ≠ some false)
    (none : strandedAll filter [node] = []) :
    strandedAll filter node.children = [] := by
  simpa [stranded_eq, accepts, role, constant] using none

theorem reachedAll_children_of_losesOptions {frame : Option (String × FrameKind)}
    (accepts : filter node = true) (role : node.role = .block frame)
    (loses : node.LosesOptions filter) (none : strandedAll filter [node] = []) :
    reachedAll filter node.children = [] := by
  simpa [stranded_eq, accepts, role, loses] using none

theorem strandedAll_children_of_block {frame : Option (String × FrameKind)}
    (accepts : filter node = true) (role : node.role = .block frame)
    (none : strandedAll filter [node] = []) : strandedAll filter node.children = [] := by
  by_cases loses : node.LosesOptions filter
  · have unreached := reachedAll_children_of_losesOptions accepts role loses none
    exact List.eq_nil_of_subset_nil (unreached ▸ strandedAll_subset node.children)
  · simpa [stranded_eq, accepts, role, loses] using none

end Stranded

end Node

namespace CallTable

def Sourced (library : Library) (table : CallTable) : Prop :=
  ∀ src identity, (src, identity) ∈ table.sources →
    ∃ target, library.load src = .ok target ∧ target.identity = identity

theorem Sourced.exists_loaded {library : Library} {table : CallTable} {src identity : String}
    (sourced : table.Sourced library) (known : table.identity? src = some identity) :
    ∃ target, library.load src = .ok target ∧ target.identity = identity := by
  obtain ⟨before, after, split, -⟩ := List.lookup_eq_some_iff.1 known
  exact sourced src identity (split ▸ List.mem_append_right _ (List.mem_cons_self ..))

theorem callee?_of_reached? {library : Library} {table : CallTable} {script : Script}
    {node : Node} {body : SharedBody} (sourced : table.Sourced library)
    (reached : table.reached? script node = some body) :
    node.callee? library script = some body.callee := by
  unfold CallTable.reached? at reached
  split at reached
  · next role =>
      obtain ⟨identity, known, found⟩ := Option.bind_eq_some_iff.1 reached
      obtain ⟨target, loads, rfl⟩ := sourced.exists_loaded known
      simp [Node.callee?, role, loads, Except.toOption, CallTable.callee_eq_of_body? found]
  · next role => simp [Node.callee?, role, CallTable.callee_eq_of_body? reached]
  · cases reached

end CallTable

namespace Scan

variable {library : Library} {filter : Node → Bool}
  {invoke : Callee → String → Script → List Node → Scan Unit}

def visit (library : Library) (invoke : Callee → String → Script → List Node → Scan Unit)
    (script : Script) (node : Node) : Scan Unit :=
  match node.role with
  | .source => source library invoke node.origin
  | .call => call invoke script node.target
  | _ => pure ()

theorem nodes_eq_forM (script : Script) : ∀ list : List Node,
    Scan.nodes library filter invoke script list =
      (Node.reachedAll filter list).forM (visit library invoke script)
  | [] => rfl
  | ⟨id, d, e, children⟩ :: rest => by
      have below := nodes_eq_forM script children
      have later := nodes_eq_forM script rest
      generalize hnode : (⟨id, d, e, children⟩ : Node) = node
      rw [← show node.children = children from hnode ▸ rfl] at below
      rw [Scan.nodes, later, Node.reachedAll_cons, List.forM_eq_forM, List.forM_append]
      suffices here : Scan.node library filter invoke script node =
          (node.reached filter).forM (visit library invoke script) by
        rw [here]
        rfl
      rw [node_eq, Node.reached_eq]
      split
      · cases role : node.role with
        | declaration => rfl
        | condition =>
            simp only
            split
            · rfl
            · exact below
        | source => simp [visit, role]
        | call => simp [visit, role]
        | block frame => exact below
      · rfl
termination_by list => sizeOf list

end Scan

end Archetype
