import Archetype.Proofs.Scope.FullPaths
import Archetype.Proofs.Walk.Extension
import Archetype.Proofs.Walk.Standing
import Archetype.Proofs.Walk.Tracking

/-!
Where the frames of invocations are. A walk that keeps track stops at an invocation right before it
enters its frame, so the stop tells which scope is entered. The names of the open frames lead to the
current scope all along, and later growth moves no scope; so all scopes that invocations enter are
found in the last tree, each at the end of the names of the frames that were open.
-/

namespace Archetype

open Visit (Gives)

/-- A scope is where its names lead, so no two scopes have the same. -/
theorem ScopeTree.route_injective {tree : ScopeTree} (wf : tree.WellFormed) {id other : ScopeId}
    (inside : id < tree.size) (inside' : other < tree.size)
    (same : tree.route id = tree.route other) : id = other := by
  have leads := ScopeTree.follow?_route wf inside
  rw [same, ScopeTree.follow?_route wf inside'] at leads
  exact (Option.some.inj leads).symm

def Stop.entered (library : Library) (stop : Stop) : ScopeId :=
  (stop.tree.push (stop.node.calledFrame library) .invocation).1

def Stop.sites (stop : Stop) : List CallSite := callSites (stop.node :: stop.around)

def Stop.chain (stop : Stop) : List Node := stop.sites.map (·.node)

/-- The stop is at a place that a walk comes to, and if it is at an invocation, then the tree has
its scope and the one that it enters where the open frames lead. -/
structure Stop.Placed (library : Library) (main : Node) (tree : ScopeTree) (stop : Stop) :
    Prop where
  stands : Stands library main stop.around stop.node
  scope : stop.node.isInvocation = true → stop.scope < tree.size ∧
    tree.route stop.scope = openFrames library stop.around
  entered : stop.node.isInvocation = true → stop.entered library < tree.size ∧
    tree.route (stop.entered library) = openFrames library (stop.node :: stop.around)

variable {library : Library} {main node : Node} {tree tree' later : ScopeTree} {stop stop' : Stop}
  {around : List Node}

theorem Stop.Placed.mono (placed : stop.Placed library main tree) (wf : tree.WellFormed)
    (grows : tree.Grows later) : stop.Placed library main later where
  stands := placed.stands
  scope invokes := by
    obtain ⟨inside, route⟩ := placed.scope invokes
    exact ⟨Nat.lt_of_lt_of_le inside grows.size, (ScopeTree.route_of_grows wf grows inside).trans
      route⟩
  entered invokes := by
    obtain ⟨inside, route⟩ := placed.entered invokes
    exact ⟨Nat.lt_of_lt_of_le inside grows.size, (ScopeTree.route_of_grows wf grows inside).trans
      route⟩

theorem Stop.Placed.of_plain (stands : Stands library main around node)
    (plain : node.isInvocation = false) (tree tree' : ScopeTree) :
    Stop.Placed library main tree ⟨node, around, tree'⟩ where
  stands := stands
  scope invokes := by simp [plain] at invokes
  entered invokes := by simp [plain] at invokes

theorem Stop.Placed.of_push (stands : Stands library main around node)
    (invokes : node.isInvocation = true) (wf : tree.WellFormed)
    (route : tree.route tree.current = openFrames library around) :
    Stop.Placed library main (tree.push (node.calledFrame library) .invocation).2
      ⟨node, around, tree⟩ where
  stands := stands
  scope _ :=
    have grows : tree.Grows (tree.push (node.calledFrame library) .invocation).2 :=
      ScopeTree.grows_push _ _
    ⟨Nat.lt_of_lt_of_le wf.current_lt grows.size,
      (ScopeTree.route_of_grows wf grows wf.current_lt).trans route⟩
  entered _ := by
    have grows : tree.Grows (tree.push (node.calledFrame library) .invocation).2 :=
      ScopeTree.grows_push _ _
    have pushed := ScopeTree.route_push wf (ScopeTree.Grows.refl
      (tree.push (node.calledFrame library) .invocation).2)
    rw [ScopeTree.route_of_grows wf grows wf.current_lt, route,
      ← openFrames_cons_site invokes] at pushed
    exact ⟨(wf.push (node.calledFrame library) .invocation).current_lt, pushed⟩

/-! Work that keeps all stops placed, however it ends. -/

/-- What work leaves behind that started with the tree and inside the open nodes: a tree that has
grown from the first one and has the scopes of all stops. It is the tree at the end unless the work
failed. -/
def Settles (library : Library) (main : Node) (around : List Node) (tree : ScopeTree)
    (result : Except RunError Unit) (tree' : ScopeTree) (track : Track) : Prop :=
  ∃ known : ScopeTree, known.WellFormed ∧ tree.Grows known ∧
    (∀ stop ∈ track.stops, stop.Placed library main known) ∧
    (result = .ok () → known = tree' ∧ tree'.frames = tree.frames ∧ track.around = around)

def Places (library : Library) (main : Node) (route : List String) (around : List Node)
    (work : Visit (σ × Track) Unit) : Prop :=
  ∀ ⦃tree s stops result tree' s' track⦄,
    work (tree, s, ⟨around, stops⟩) = some (result, tree', s', track) →
    tree.WellFormed → tree.route tree.current = route →
    (∀ stop ∈ stops, stop.Placed library main tree) →
    Settles library main around tree result tree' track

def Visitor.Quiet (visitor : Visitor σ) : Prop :=
  ∀ node : Node, node.isInvocation = true → ∀ c, visitor.enter node c = some (.ok (), c)

namespace Places

variable {route : List String} {work next : Visit (σ × Track) Unit} {visitor : Visitor σ}

theorem pure : Places library main route around (Pure.pure () : Visit (σ × Track) Unit) := by
  intro tree s stops result tree' s' track ended wf _ placed
  cases ended
  exact ⟨tree, wf, .refl tree, placed, fun _ => ⟨rfl, rfl, rfl⟩⟩

theorem throw (error : RunError) :
    Places library main route around (MonadExcept.throw error : Visit (σ × Track) Unit) := by
  intro tree s stops result tree' s' track ended wf _ placed
  cases ended
  exact ⟨tree, wf, .refl tree, placed, nofun⟩

theorem outOfBounds :
    Places library main route around (Bounded.outOfBounds : Visit (σ × Track) Unit) := by
  intro tree s stops result tree' s' track ended
  cases ended

theorem bind (first : Places library main route around work)
    (rest : Places library main route around next) :
    Places library main route around (work >>= fun _ => next) := by
  intro tree s stops result tree' s' track ended wf leads placed
  rw [Visit.bind_eq] at ended
  obtain ⟨⟨outcome, between, s₁, track₁⟩, worked, remaining⟩ := Option.bind_eq_some_iff.1 ended
  obtain ⟨known, shaped, grows, placed₁, success⟩ := first worked wf leads placed
  cases outcome with
  | error error =>
      cases remaining
      exact ⟨known, shaped, grows, placed₁, nofun⟩
  | ok =>
      obtain ⟨rfl, frames, rfl⟩ := success rfl
      have current : known.current = tree.current := by simp only [ScopeTree.current, frames]
      have leads₁ : known.route known.current = route := by
        rw [current, ScopeTree.route_of_grows wf grows wf.current_lt, leads]
      obtain ⟨final, shaped', grows', placed', success'⟩ := rest remaining shaped leads₁ placed₁
      refine ⟨final, shaped', grows.trans grows', placed', fun succeeds => ?_⟩
      obtain ⟨same, frames', around'⟩ := success' succeeds
      exact ⟨same, frames'.trans frames, around'⟩

theorem condition (node : Node) (inner : Places library main route around work) :
    Places library main route around (do if ← Walk.holds node then work) := by
  intro tree s stops result tree' s' track ended
  exact Visit.condition_ends node ended (fun error fails => throw error fails)
    (fun passes => pure passes) fun works => inner works

theorem of_within {name : String} {frame : FrameKind}
    (inner : Places library main (route ++ [name]) around work) {s s' : σ} {stops : List Stop}
    {result : Except RunError Unit} {track : Track}
    (ended : Visit.within name frame work (tree, s, ⟨around, stops⟩) =
      some (result, tree', s', track))
    (wf : tree.WellFormed) (leads : tree.route tree.current = route)
    (placed : ∀ stop ∈ stops, stop.Placed library main (tree.push name frame).2) :
    Settles library main around tree result tree' track := by
  rw [Visit.within_eq] at ended
  obtain ⟨⟨outcome, inside, s₁, track₁⟩, worked, same⟩ := Option.bind_eq_some_iff.1 ended
  cases same
  have grows : tree.Grows (tree.push name frame).2 := ScopeTree.grows_push name frame
  have leads' : (tree.push name frame).2.route (tree.push name frame).2.current =
      route ++ [name] := by
    rw [ScopeTree.route_push wf (.refl _), ScopeTree.route_of_grows wf grows wf.current_lt, leads]
  obtain ⟨known, shaped, grows', placed', success⟩ := inner worked (wf.push name frame) leads'
    placed
  have closed : known.Grows (known.leaveTo tree.frames.length) :=
    (ScopeTree.Grows.refl known).of_nodes rfl rfl
  refine ⟨known.leaveTo tree.frames.length, shaped.leaveTo _, (grows.trans grows').trans closed,
    fun stop member => (placed' stop member).mono shaped closed, fun succeeds => ?_⟩
  obtain ⟨rfl, frames, rfl⟩ := success succeeds
  have extended : (tree.push name frame).2.Extends known := ⟨shaped, grows', frames⟩
  exact ⟨rfl, extended.leave.frames, rfl⟩

theorem within {name : String} {frame : FrameKind}
    (inner : Places library main (route ++ [name]) around work) :
    Places library main route around (Visit.within name frame work) := by
  intro tree s stops result tree' s' track ended wf leads placed
  exact of_within inner ended wf leads fun stop member =>
    (placed stop member).mono wf (ScopeTree.grows_push name frame)

theorem of_around (extending : visitor.Extends) {s s' : σ} {stops : List Stop}
    {result : Except RunError Unit} {track : Track}
    (ended : Walk.around visitor.tracking node work (tree, s, ⟨around, stops⟩) =
      some (result, tree', s', track))
    (failing : ∀ error c, visitor.enter node (tree, s) = some (.error error, c) →
      Settles library main around tree (.error error) c.1
        ⟨node :: around, stops ++ [⟨node, around, tree⟩]⟩)
    (inner : ∀ {tree₁ s₁ outcome tree₂ s₂ track₂},
      Gives (visitor.enter node) (tree, s) () (tree₁, s₁) →
      work (tree₁, s₁, ⟨node :: around, stops ++ [⟨node, around, tree⟩]⟩) =
        some (outcome, tree₂, s₂, track₂) →
      Settles library main (node :: around) tree outcome tree₂ track₂) :
    Settles library main around tree result tree' track := by
  cases Visitor.ends_of_around ended with
  | refused refuses => exact failing _ _ refuses
  | failed entered fails =>
      obtain ⟨known, shaped, grows, placed, -⟩ := inner entered fails
      exact ⟨known, shaped, grows, placed, nofun⟩
  | left entered works leaves =>
      obtain ⟨known, shaped, grows, placed, success⟩ := inner entered works
      obtain ⟨rfl, frames, closed⟩ := success rfl
      refine ⟨known, shaped, grows, placed, fun succeeds => ?_⟩
      cases succeeds
      obtain rfl : tree' = known := extending.leave leaves
      exact ⟨rfl, frames, congrArg List.tail closed⟩

theorem visiting (extending : visitor.Extends) (stands : Stands library main around node)
    (plain : node.isInvocation = false) (inner : Places library main route (node :: around) work) :
    Places library main route around (Walk.around visitor.tracking node work) := by
  intro tree s stops result tree' s' track ended wf leads placed
  have stopped : ∀ known : ScopeTree, tree.Grows known →
      ∀ stop ∈ stops ++ [⟨node, around, tree⟩], stop.Placed library main known := fun known grows =>
    List.forall_mem_append.2 ⟨fun stop member => (placed stop member).mono wf grows,
      List.forall_mem_singleton.2 (.of_plain stands plain known tree)⟩
  refine of_around extending ended (fun error c _ => ?_) fun entered worked => ?_
  · exact ⟨tree, wf, .refl tree, stopped tree (.refl tree), nofun⟩
  · have extended := extending.enter entered wf
    have leads' := (ScopeTree.route_of_grows wf extended.grows wf.current_lt).trans leads
    rw [← extended.current] at leads'
    obtain ⟨known, shaped, grows, placed', success⟩ := inner worked extended.wellFormed leads'
      (stopped _ extended.grows)
    refine ⟨known, shaped, extended.grows.trans grows, placed', fun succeeds => ?_⟩
    obtain ⟨same, frames, around'⟩ := success succeeds
    exact ⟨same, frames.trans extended.frames, around'⟩

theorem invoking (extending : visitor.Extends) (quiet : visitor.Quiet)
    (stands : Stands library main around node) (invokes : node.isInvocation = true)
    (inner : Places library main (openFrames library (node :: around)) (node :: around) work) :
    Places library main (openFrames library around) around (Walk.around visitor.tracking node
      (Visit.within (node.calledFrame library) .invocation work)) := by
  intro tree s stops result tree' s' track ended wf leads placed
  rw [openFrames_cons_site invokes] at inner
  refine of_around extending ended (fun error c fails => ?_) fun entered worked => ?_
  · rw [quiet node invokes] at fails
    cases fails
  · have entered : some (Except.ok (), tree, s) = some (.ok (), _) :=
      (quiet node invokes (tree, s)).symm.trans entered
    cases entered
    refine of_within inner worked wf leads (List.forall_mem_append.2
      ⟨fun stop member => (placed stop member).mono wf (ScopeTree.grows_push _ _), ?_⟩)
    exact List.forall_mem_singleton.2 (.of_push stands invokes wf leads)

/-! The walk, by the role of each node. -/

def OfMethods (library : Library) (main : Node) (methods : Methods) : Prop :=
  ∀ entry ∈ methods, ∃ root, library.Reaches main root ∧ entry.2 ∈ root.methods

theorem ofMethods_declare {methods : Methods} {root : Node}
    (declared : OfMethods library main methods) (known : library.Reaches main root) :
    OfMethods library main (methods.declare root) :=
  Methods.forall_declare (P := fun method => ∃ root, library.Reaches main root ∧
    method ∈ root.methods) declared fun _ member => ⟨root, known, member⟩

/-- Walks of nodes that stand inside open nodes place their stops. -/
theorem lifts (extending : visitor.Extends) (quiet : visitor.Quiet) :
    Walk.Lifts visitor.tracking library
      (fun _ methods node work => OfMethods library main methods → ∀ around,
        Stands library main around node → Places library main (openFrames library around) around
          work)
      (fun _ methods list work => OfMethods library main methods → ∀ around,
        (∀ node ∈ list, Stands library main around node) →
          Places library main (openFrames library around) around work) where
  outOfBounds _ _ _ := outOfBounds
  nil _ _ _ := pure
  cons first rest declared around stand := by
    obtain ⟨here, later⟩ := List.forall_mem_cons.1 stand
    exact bind (first declared around here) (rest declared around later)
  declaration _ _ _ _ := pure
  condition {_ _ node _} role below declared around stands := by
    have plain : node.isInvocation = false := by simp [Node.isInvocation_eq, role]
    have own : node.ownFrame? library = none := by simp only [Node.ownFrame?, role]
    have below := below declared (node :: around) fun child member => stands.down plain member
    rw [openFrames, List.filterMap_cons_none own] at below
    exact condition node (visiting extending stands plain below)
  block {_ _ node frame _} role below declared around stands := by
    have plain : node.isInvocation = false := by simp [Node.isInvocation_eq, role]
    have below := below declared (node :: around) fun child member => stands.down plain member
    cases frame with
    | none =>
        have own : node.ownFrame? library = none := by
          simp only [Node.ownFrame?, role, Option.map_none]
        rw [openFrames, List.filterMap_cons_none own] at below
        exact visiting extending stands plain below
    | some frame =>
        have own : node.ownFrame? library = some frame.1 := by
          simp only [Node.ownFrame?, role, Option.map_some]
        rw [openFrames, List.filterMap_cons_some own, List.reverse_cons] at below
        exact within (visiting extending stands plain below)
  unresolved _ _ _ _ _ := throw _
  call {_ _ node method _} role found body declared around stands := by
    have invokes : node.isInvocation = true := by simp [Node.isInvocation_eq, role]
    have frame : node.calledFrame library = invocationFrame node.target node.id := by
      simp only [Node.calledFrame, role]
    obtain ⟨before, after, split, -⟩ := List.lookup_eq_some_iff.1 found
    obtain ⟨root, known, member⟩ :=
      declared (_, method) (split ▸ List.mem_append_right _ (List.mem_cons_self ..))
    obtain ⟨inside, kind⟩ := List.mem_filter.1 member
    have kind : method.kind = .method := of_decide_eq_true kind
    have plain : method.isInvocation = false := by simp [Node.isInvocation, kind]
    have frameless : openFrames library (method :: node :: around) =
        openFrames library (node :: around) := by
      have own : method.ownFrame? library = none := by
        simp only [Node.ownFrame?, Node.role_eq_declaration.2 kind]
      rw [openFrames, List.filterMap_cons_none own]
      rfl
    have stands' := stands.invoked invokes known inside
    rw [← frame]
    refine invoking extending quiet stands invokes (visiting extending stands' plain ?_)
    rw [← frameless]
    exact body declared _ fun child member => stands'.down plain member
  unloaded _ _ _ _ _ := throw _
  source {_ _ node script _} role loaded body declared around stands := by
    have invokes : node.isInvocation = true := by simp [Node.isInvocation_eq, role]
    have frame : node.calledFrame library = invocationFrame script.identity node.id := by
      simp only [Node.calledFrame, role, loaded]
    have known : library.Reaches main script.root := .inr ⟨_, script, loaded, rfl⟩
    rw [← frame]
    exact invoking extending quiet stands invokes
      (body (ofMethods_declare declared known) _ fun child member =>
        stands.invoked invokes known member)

end Places

variable {visitor : Visitor σ}

theorem places_walk (extending : visitor.Extends) (quiet : visitor.Quiet) (library : Library)
    (limit : Nat) (main : Node) :
    Places library main [] [] (walk visitor.tracking library limit [] main) :=
  have declared : Places.OfMethods library main (Methods.declare [] main) :=
    Places.ofMethods_declare (fun _ member => absurd member List.not_mem_nil) (.inl rfl)
  (Places.lifts extending quiet).walk limit [] main declared [] .main

def Visitor.stops (visitor : Visitor σ) (library : Library) (limit : Nat) (main : Node)
    (c : ScopeTree × σ) : List Stop :=
  match walk visitor.tracking library limit [] main (c.1, c.2, {}) with
  | some (_, _, _, track) => track.stops
  | none => []

/-- A walk from the root of a tree leaves all its stops placed, whether it fails or not. -/
theorem Visitor.stops_placed (extending : visitor.Extends) (quiet : visitor.Quiet)
    (library : Library) (limit : Nat) (main : Node) (wf : tree.WellFormed)
    (closed : tree.frames = []) (s : σ) :
    ∃ known : ScopeTree, known.WellFormed ∧ tree.Grows known ∧
      (∀ stop ∈ visitor.stops library limit main (tree, s), stop.Placed library main known) ∧
      ∀ tree' s', walk visitor library limit [] main (tree, s) = some (.ok (), tree', s') →
        known = tree' ∧ tree'.frames = [] := by
  have current : tree.current = ScopeTree.root := by simp only [ScopeTree.current, closed]; rfl
  have leads : tree.route tree.current = [] := by rw [current, ScopeTree.route_root wf]
  cases tracked : walk visitor.tracking library limit [] main (tree, s, {}) with
  | none =>
      have nothing : visitor.stops library limit main (tree, s) = [] := by
        simp only [stops, tracked]
      rw [nothing]
      refine ⟨tree, wf, .refl tree, List.forall_mem_nil _, fun tree' s' walks => ?_⟩
      obtain ⟨track, walks⟩ := exists_track walks {}
      rw [tracked] at walks
      cases walks
  | some outcome =>
      obtain ⟨result, tree₁, s₁, track⟩ := outcome
      have stopped : visitor.stops library limit main (tree, s) = track.stops := by
        simp only [stops, tracked]
      rw [stopped]
      obtain ⟨known, shaped, grows, placed, success⟩ :=
        places_walk extending quiet library limit main tracked wf leads
          (List.forall_mem_nil _)
      refine ⟨known, shaped, grows, placed, fun tree' s' walks => ?_⟩
      obtain ⟨track', walks⟩ := exists_track walks {}
      rw [tracked] at walks
      cases walks
      obtain ⟨same, frames, -⟩ := success rfl
      exact ⟨same, frames.trans closed⟩

end Archetype
