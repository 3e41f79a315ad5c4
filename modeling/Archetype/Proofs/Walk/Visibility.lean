import Archetype.Proofs.Walk.Balanced
import Archetype.Proofs.Walk.Methods
import Archetype.Proofs.Walk.Outcome
import Archetype.Proofs.Walk.Table

/-!
Which methods a walk can call, and where. The table of a walker shows a method of the innermost
script that declares one of the name, among the sourced scripts around, the root of the walk and the
roots that the walker walked before; and it is put back when a sourced script ends, also when it
fails.
-/

namespace Archetype

def Node.lastMethod? (root : Node) (name : String) : Option Node :=
  (root.methods.filter (·.name? = some name)).getLast?

namespace Methods

/-- The table shows the methods of the script roots, and of two that declare a name those of the
first. -/
def Shows (methods : Methods) (roots : List Node) : Prop :=
  ∀ name, methods.lookup name = roots.findSome? (·.lastMethod? name)

variable {methods : Methods} {roots : List Node}

theorem Shows.declare (shows : methods.Shows roots) (root : Node) :
    (methods.declare root).Shows (root :: roots) := by
  intro name
  have added : (methods.declare root).lookup name =
      (root.lastMethod? name).or (methods.lookup name) := by
    rw [declare_eq]
    exact lookup_foldl root.methods methods name
  rw [added, shows name, List.findSome?_cons]
  cases root.lastMethod? name <;> rfl

theorem Shows.kind_of_lookup (shows : methods.Shows roots) {name : String} {method : Node}
    (found : methods.lookup name = some method) : method.kind = .method := by
  rw [shows name] at found
  obtain ⟨root, -, last⟩ := List.exists_of_findSome?_eq_some found
  have declared : method ∈ root.methods := (List.mem_filter.1 (List.mem_of_getLast? last)).1
  exact of_decide_eq_true (List.mem_filter.1 declared).2

/-- The table of a walker that walked some roots, the latest of them first. -/
def ofRoots : List Node → Methods
  | [] => []
  | root :: earlier => (ofRoots earlier).declare root

theorem shows_ofRoots (roots : List Node) : (ofRoots roots).Shows roots := by
  induction roots with
  | nil => exact fun _ => rfl
  | cons root earlier ih => exact ih.declare root

end Methods

def Node.sourcedRoot? (library : Library) (node : Node) : Option Node :=
  match node.kind with
  | .invokeSource => (library.load node.origin).toOption.map (·.root)
  | _ => none

/-- The roots of the scripts around a place, the innermost first: of those that the nodes around it
source, and of those that are around all of them. -/
def rootsAround (library : Library) (roots around : List Node) : List Node :=
  around.filterMap (·.sourcedRoot? library) ++ roots

section Around

variable {library : Library} {roots around : List Node} {node : Node}

theorem rootsAround_of_source {script : Script} (role : node.role = .source)
    (loaded : library.load node.origin = .ok script) :
    rootsAround library roots (node :: around) =
      script.root :: rootsAround library roots around := by
  have sourced : node.sourcedRoot? library = some script.root := by
    simp only [Node.sourcedRoot?, Node.role_eq_source.1 role, loaded, Except.toOption,
      Option.map_some]
  unfold rootsAround
  rw [List.filterMap_cons_some sourced, List.cons_append]

theorem rootsAround_of_role_ne (role : node.role ≠ .source) :
    rootsAround library roots (node :: around) = rootsAround library roots around := by
  have none : node.sourcedRoot? library = none := by
    unfold Node.sourcedRoot?
    split
    · next kind => exact absurd (Node.role_eq_source.2 kind) role
    · rfl
  unfold rootsAround
  rw [List.filterMap_cons_none none]

end Around

/-! The walk that is watched: it keeps the nodes that its visitor entered and did not leave yet, and
notes the table of methods before and after each piece of work. Where the walk runs out of bounds it
is cut with an error, so that as much is seen of a walk without end as the bounds allow. -/

/-- What is seen of work at a node: of the walk of it, or of what the visitor does there. -/
structure Sighting where
  node : Node
  /-- The nodes that are entered and not left, the innermost first. -/
  around : List Node
  /-- The table of methods when the work starts. -/
  before : Methods
  /-- The table of methods when the work ends, successfully or not. -/
  after : Methods

structure Watch where
  around : List Node := []
  sightings : List Sighting := []

abbrev Watching (σ : Type) := Visit ((σ × Watch) × Methods)

namespace Visit

def unseeing (work : Visit σ Unit) (cut : RunError) : Watching σ Unit :=
  fun (tree, (s, watch), methods) =>
    match work (tree, s) with
    | none => some (.error cut, tree, (s, watch), methods)
    | some (result, tree, s) => some (result, tree, (s, watch), methods)

/-- The work, with a sighting of it when it ends. Nodes that it entered and did not leave, as it
failed, are left then. -/
def sighted (node : Node) (work : Watching σ Unit) : Watching σ Unit :=
  fun (tree, (s, watch), methods) =>
    (work (tree, (s, watch), methods)).map fun (result, tree, (s, inner), after) =>
      let sighting : Sighting := ⟨node, watch.around, methods, after⟩
      (result, tree, (s, ⟨watch.around, inner.sightings ++ [sighting]⟩), after)

def surround (change : List Node → List Node) : Watching σ Unit :=
  modify fun (tree, (s, watch), methods) =>
    (tree, (s, { watch with around := change watch.around }), methods)

end Visit

def Visitor.watched (visitor : Visitor σ) (cut : RunError) : Visitor ((σ × Watch) × Methods) where
  enter node := do
    Visit.sighted node ((visitor.enter node).unseeing cut)
    Visit.surround (node :: ·)
  leave node := do
    Visit.surround List.tail
    Visit.sighted node ((visitor.leave node).unseeing cut)

namespace Watcher

variable (visitor : Visitor ((σ × Watch) × Methods)) (library : Library)

mutual
def node (body : List Node → Watching σ Unit) : Node → Watching σ Unit
  | ⟨id, d, e, children⟩ =>
      let this : Node := ⟨id, d, e, children⟩
      Visit.sighted this <|
        match this.role with
        | .declaration => pure ()
        | .condition => do
            if ← Walk.holds this then Walk.around visitor this (nodes body children)
        | .call => Walker.call visitor body this
        | .source => Walker.source visitor library body this
        | .block frame => Visit.inFrame frame (Walk.around visitor this (nodes body children))

def nodes (body : List Node → Watching σ Unit) : List Node → Watching σ Unit
  | [] => pure ()
  | first :: rest => do
      node body first
      nodes body rest
end

theorem node_eq (body : List Node → Watching σ Unit) (this : Node) :
    node visitor library body this =
      Visit.sighted this
        (match this.role with
        | .declaration => pure ()
        | .condition => do
            if ← Walk.holds this then
              Walk.around visitor this (nodes visitor library body this.children)
        | .call => Walker.call visitor body this
        | .source => Walker.source visitor library body this
        | .block frame =>
            Visit.inFrame frame
              (Walk.around visitor this (nodes visitor library body this.children))) := by
  obtain ⟨id, d, e, children⟩ := this
  rw [node]

def bodies (cut : RunError) : Nat → List Node → Watching σ Unit
  | 0, _ => throw cut
  | limit + 1, list => nodes visitor library (bodies cut limit) list

def walk (cut : RunError) (limit : Nat) (root : Node) : Watching σ Unit := do
  modify fun (tree, s, methods) => (tree, s, methods.declare root)
  node visitor library (bodies visitor library cut limit) root

end Watcher

def Sighting.Fits (library : Library) (roots : List Node) (sighting : Sighting) : Prop :=
  sighting.before.Shows (rootsAround library roots sighting.around) ∧
    sighting.after = sighting.before

/-- Outcomes of plain and of watched work: all the same but for the watch, and an error where the
plain work runs out of bounds. The table is as before, what is seen fits, and the nodes around are
as before, unless the work fails. -/
inductive WatchedOutcome (library : Library) (roots : List Node) (cut : RunError)
    (around : List Node) (methods : Methods) (sightings : List Sighting) :
    Option (Except RunError Unit × (ScopeTree × σ)) →
      Option (Except RunError Unit × (ScopeTree × (σ × Watch) × Methods)) → Prop
  | outOfBounds {tree : ScopeTree} {s : σ} {around' : List Node} {made : List Sighting}
      (fit : ∀ sighting ∈ made, sighting.Fits library roots) :
      WatchedOutcome library roots cut around methods sightings none
        (some (.error cut, (tree, (s, ⟨around', sightings ++ made⟩), methods)))
  | ended {tree : ScopeTree} {s : σ} {result : Except RunError Unit} {around' : List Node}
      {made : List Sighting} (left : result = .ok () → around' = around)
      (fit : ∀ sighting ∈ made, sighting.Fits library roots) :
      WatchedOutcome library roots cut around methods sightings (some (result, (tree, s)))
        (some (result, (tree, (s, ⟨around', sightings ++ made⟩), methods)))

namespace WatchedOutcome

variable {library : Library} {roots : List Node} {cut : RunError} {around : List Node}
  {methods : Methods} {sightings : List Sighting} {tree : ScopeTree} {s : σ}

theorem cut_unseen : WatchedOutcome library roots cut around methods sightings none
    (some (.error cut, (tree, (s, ⟨around, sightings⟩), methods))) := by
  have outcome : WatchedOutcome library roots cut around methods sightings none
      (some (.error cut, (tree, (s, ⟨around, sightings ++ []⟩), methods))) := .outOfBounds nofun
  rwa [List.append_nil] at outcome

theorem ended_unseen (result : Except RunError Unit) :
    WatchedOutcome library roots cut around methods sightings (some (result, (tree, s)))
      (some (result, (tree, (s, ⟨around, sightings⟩), methods))) := by
  have outcome : WatchedOutcome library roots cut around methods sightings
      (some (result, (tree, s)))
      (some (result, (tree, (s, ⟨around, sightings ++ []⟩), methods))) :=
    .ended (fun _ => rfl) nofun
  rwa [List.append_nil] at outcome

end WatchedOutcome

def Watches (library : Library) (roots : List Node) (cut : RunError) (around : List Node)
    (methods : Methods) (work : Visit σ Unit) (watched : Watching σ Unit) : Prop :=
  ∀ tree s sightings, WatchedOutcome library roots cut around methods sightings (work (tree, s))
    (watched (tree, (s, ⟨around, sightings⟩), methods))

namespace Watches

variable {library : Library} {roots : List Node} {cut : RunError} {around : List Node}
  {methods : Methods} {work : Visit σ Unit} {watched : Watching σ Unit}

theorem pure :
    Watches library roots cut around methods (Pure.pure () : Visit σ Unit) (Pure.pure ()) :=
  fun _ _ _ => .ended_unseen (.ok ())

theorem throw (error : RunError) :
    Watches library roots cut around methods (MonadExcept.throw error : Visit σ Unit)
      (MonadExcept.throw error) :=
  fun _ _ _ => .ended_unseen (.error error)

theorem unseeing (work : Visit σ Unit) :
    Watches library roots cut around methods work (work.unseeing cut) := by
  intro tree s sightings
  have beside : work.unseeing cut (tree, (s, ⟨around, sightings⟩), methods) =
      match work (tree, s) with
      | none => some (.error cut, (tree, (s, ⟨around, sightings⟩), methods))
      | some (result, tree', s') =>
          some (result, (tree', (s', ⟨around, sightings⟩), methods)) := rfl
  rw [beside]
  cases work (tree, s) with
  | none => exact .cut_unseen
  | some outcome => exact .ended_unseen outcome.1

theorem bind {next : Visit σ Unit} {next' : Watching σ Unit}
    (first : Watches library roots cut around methods work watched)
    (rest : Watches library roots cut around methods next next') :
    Watches library roots cut around methods (work >>= fun _ => next)
      (watched >>= fun _ => next') := by
  intro tree s sightings
  have outcome := first tree s sightings
  rw [Visit.bind_eq, Visit.bind_eq]
  generalize work (tree, s) = plain at outcome ⊢
  generalize watched (tree, (s, ⟨around, sightings⟩), methods) = seen at outcome ⊢
  cases outcome with
  | outOfBounds fit => exact .outOfBounds fit
  | @ended tree' s' result around' made left fit =>
      cases result with
      | error error => exact .ended nofun fit
      | ok =>
          obtain rfl := left rfl
          simp only [Option.bind_some]
          have further := rest tree' s' (sightings ++ made)
          generalize next (tree', s') = plain at further ⊢
          generalize next' (tree', (s', ⟨around', sightings ++ made⟩), methods) = seen at further ⊢
          cases further with
          | outOfBounds fit' =>
              rw [List.append_assoc]
              exact .outOfBounds (List.forall_mem_append.2 ⟨fit, fit'⟩)
          | ended left' fit' =>
              rw [List.append_assoc]
              exact .ended left' (List.forall_mem_append.2 ⟨fit, fit'⟩)

theorem sighted (node : Node) (shows : methods.Shows (rootsAround library roots around))
    (inner : Watches library roots cut around methods work watched) :
    Watches library roots cut around methods work (Visit.sighted node watched) := by
  intro tree s sightings
  have outcome := inner tree s sightings
  have unfolded : Visit.sighted node watched (tree, (s, ⟨around, sightings⟩), methods) =
      (watched (tree, (s, ⟨around, sightings⟩), methods)).map
        fun (result, tree, (s, watch), after) =>
          let sighting : Sighting := ⟨node, around, methods, after⟩
          (result, tree, (s, ⟨around, watch.sightings ++ [sighting]⟩), after) := rfl
  rw [unfolded]
  generalize work (tree, s) = plain at outcome ⊢
  generalize watched (tree, (s, ⟨around, sightings⟩), methods) = seen at outcome ⊢
  have here : ∀ sighting ∈ [(⟨node, around, methods, methods⟩ : Sighting)],
      sighting.Fits library roots := List.forall_mem_singleton.2 ⟨shows, rfl⟩
  cases outcome with
  | outOfBounds fit =>
      simp only [Option.map_some]
      rw [List.append_assoc]
      exact .outOfBounds (List.forall_mem_append.2 ⟨fit, here⟩)
  | ended left fit =>
      simp only [Option.map_some]
      rw [List.append_assoc]
      exact .ended (fun _ => rfl) (List.forall_mem_append.2 ⟨fit, here⟩)

theorem inside (node : Node)
    (inner : Watches library roots cut (node :: around) methods work watched) :
    Watches library roots cut around methods work (do
      Visit.surround (node :: ·)
      watched
      Visit.surround List.tail) := by
  intro tree s sightings
  have outcome := inner tree s sightings
  have unfolded :
      (do Visit.surround (node :: ·); watched; Visit.surround List.tail : Watching σ Unit)
        (tree, (s, ⟨around, sightings⟩), methods) =
      (watched >>= fun _ => Visit.surround List.tail)
        (tree, (s, ⟨node :: around, sightings⟩), methods) := rfl
  rw [unfolded, Visit.bind_eq]
  generalize work (tree, s) = plain at outcome ⊢
  generalize watched (tree, (s, ⟨node :: around, sightings⟩), methods) = seen at outcome ⊢
  cases outcome with
  | outOfBounds fit => exact .outOfBounds fit
  | @ended tree' s' result around' made left fit =>
      cases result with
      | error error => exact .ended nofun fit
      | ok =>
          obtain rfl := left rfl
          exact .ended (fun _ => rfl) fit

theorem visited (visitor : Visitor σ) (node : Node)
    (shows : methods.Shows (rootsAround library roots around))
    (inner : Watches library roots cut (node :: around) methods work watched) :
    Watches library roots cut around methods (Walk.around visitor node work)
      (Walk.around (visitor.watched cut) node watched) := by
  have regrouped : Walk.around (visitor.watched cut) node watched = (do
      Visit.sighted node ((visitor.enter node).unseeing cut)
      (do Visit.surround (node :: ·); watched; Visit.surround List.tail)
      Visit.sighted node ((visitor.leave node).unseeing cut)) := by
    simp only [Walk.around, Visitor.watched, bind_assoc]
  rw [regrouped]
  exact bind (sighted node shows (unseeing _))
    (bind (inside node inner) (sighted node shows (unseeing _)))

theorem within {name : String} {frame : FrameKind}
    (inner : Watches library roots cut around methods work watched) :
    Watches library roots cut around methods (Visit.within name frame work)
      (Visit.within name frame watched) := by
  intro tree s sightings
  have outcome := inner (tree.push name frame).2 s sightings
  rw [Visit.within_eq, Visit.within_eq]
  simp only
  generalize work ((tree.push name frame).2, s) = plain at outcome ⊢
  generalize watched ((tree.push name frame).2, (s, ⟨around, sightings⟩), methods) = seen
    at outcome ⊢
  cases outcome with
  | outOfBounds fit => exact .outOfBounds fit
  | ended left fit => exact .ended left fit

theorem inFrame {frame : Option (String × FrameKind)}
    (inner : Watches library roots cut around methods work watched) :
    Watches library roots cut around methods (Visit.inFrame frame work)
      (Visit.inFrame frame watched) := by
  cases frame with
  | none => exact inner
  | some frame => exact inner.within

theorem condition (node : Node) (inner : Watches library roots cut around methods work watched) :
    Watches library roots cut around methods (do if ← Walk.holds node then work)
      (do if ← Walk.holds node then watched) := by
  intro tree s sightings
  exact Visit.condition_alike node rfl (fun error => throw error tree s sightings)
    (pure tree s sightings) (inner tree s sightings)

/-- The table is put back after work with the methods of a script in it, also when that fails. -/
theorem declaring {root : Node}
    (inner : Watches library roots cut around (methods.declare root) work watched) :
    Watches library roots cut around methods work (Walker.declaring root watched) := by
  intro tree s sightings
  have outcome := inner tree s sightings
  rw [Walker.declaring_eq]
  generalize work (tree, s) = plain at outcome ⊢
  generalize watched (tree, (s, ⟨around, sightings⟩), methods.declare root) = seen at outcome ⊢
  cases outcome with
  | outOfBounds fit => exact .outOfBounds fit
  | ended left fit => exact .ended left fit

/-- Walks are watched wherever the table shows the scripts around. -/
theorem lifts (visitor : Visitor σ) : Walk.Lifts visitor library
    (fun limit methods node work => ∀ around, methods.Shows (rootsAround library roots around) →
      Watches library roots cut around methods work
        (Watcher.node (visitor.watched cut) library
          (Watcher.bodies (visitor.watched cut) library cut limit) node))
    (fun limit methods list work => ∀ around, methods.Shows (rootsAround library roots around) →
      Watches library roots cut around methods work
        (Watcher.bodies (visitor.watched cut) library cut limit list)) where
  outOfBounds _ _ _ _ _ := .cut_unseen
  nil _ _ := pure
  cons first rest around shows := bind (first around shows) (rest around shows)
  declaration {_ _ node} role around shows := by
    rw [Watcher.node_eq, role]
    exact sighted node shows pure
  condition {_ methods node _} role below around shows := by
    have inside : methods.Shows (rootsAround library roots (node :: around)) := by
      rwa [rootsAround_of_role_ne (by simp [role])]
    rw [Watcher.node_eq, role]
    exact sighted node shows (condition node (visited visitor node shows (below _ inside)))
  block {_ methods node _ _} role below around shows := by
    have inside : methods.Shows (rootsAround library roots (node :: around)) := by
      rwa [rootsAround_of_role_ne (by simp [role])]
    rw [Watcher.node_eq, role]
    exact sighted node shows (inFrame (visited visitor node shows (below _ inside)))
  unresolved {_ _ node} role found around shows := by
    rw [Watcher.node_eq, role]
    refine sighted node shows fun tree s sightings => ?_
    simp only [Walker.call_eq, found]
    exact throw _ tree s sightings
  call {_ methods node method _} role found body around shows := by
    -- Neither the call nor the method sources a script.
    have atCall : methods.Shows (rootsAround library roots (node :: around)) := by
      rwa [rootsAround_of_role_ne (by simp [role])]
    have declares : method.role = .declaration :=
      Node.role_eq_declaration.2 (shows.kind_of_lookup found)
    have atMethod : methods.Shows (rootsAround library roots (method :: node :: around)) := by
      rwa [rootsAround_of_role_ne (by simp [declares])]
    rw [Watcher.node_eq, role]
    refine sighted node shows fun tree s sightings => ?_
    simp only [Walker.call_eq, found]
    exact visited visitor node shows (within (visited visitor method atCall (body _ atMethod)))
      tree s sightings
  unloaded {_ _ node _} role loaded around shows := by
    simp only [Watcher.node_eq, role, Walker.source, loaded]
    exact sighted node shows (throw _)
  source {_ methods node script _} role loaded body around shows := by
    have inScript : (methods.declare script.root).Shows
        (rootsAround library roots (node :: around)) := by
      rw [rootsAround_of_source role loaded]
      exact shows.declare script.root
    simp only [Watcher.node_eq, role, Walker.source, loaded]
    exact sighted node shows (visited visitor node shows (declaring (within (body _ inScript))))

theorem walk (visitor : Visitor σ) (library : Library) (cut : RunError) (limit : Nat)
    (earlier : List Node) (root : Node) :
    Watches library (root :: earlier) cut [] (.ofRoots (root :: earlier))
      (Archetype.walk visitor library limit (.ofRoots earlier) root)
      (Watcher.node (visitor.watched cut) library
        (Watcher.bodies (visitor.watched cut) library cut limit) root) :=
  (lifts visitor).walk limit (.ofRoots earlier) root [] (Methods.shows_ofRoots (root :: earlier))

end Watches

/-- At each piece of work in a walk the table of the walker shows a method of the innermost script
that declares one of the name, among the scripts that are sourced around, the root and the roots
that the walker walked before; and the work leaves the table as it was, whether it succeeds or
fails. A walk that ends within the limit is watched to its end, and any other until its invocations
are nested deeper. -/
theorem table_follows_sources (visitor : Visitor σ) (library : Library) (cut : RunError)
    (limit : Nat) (earlier : List Node) (root : Node) (tree : ScopeTree) (s : σ) :
    ∃ result tree' s' watch,
      Watcher.walk (visitor.watched cut) library cut limit root (tree, (s, {}), .ofRoots earlier) =
        some (result, (tree', (s', watch), .ofRoots (root :: earlier))) ∧
      (∀ sighting ∈ watch.sightings, sighting.Fits library (root :: earlier)) ∧
      (walk visitor library limit (.ofRoots earlier) root (tree, s) = some (result, (tree', s')) ∨
        walk visitor library limit (.ofRoots earlier) root (tree, s) = none ∧
          result = .error cut) := by
  have outcome := Watches.walk visitor library cut limit earlier root tree s []
  have declared : Watcher.walk (visitor.watched cut) library cut limit root
        (tree, (s, {}), .ofRoots earlier) =
      Watcher.node (visitor.watched cut) library
        (Watcher.bodies (visitor.watched cut) library cut limit) root
        (tree, (s, {}), .ofRoots (root :: earlier)) := rfl
  rw [declared]
  generalize walk visitor library limit _ root _ = plain at outcome ⊢
  generalize Watcher.node _ library _ root _ = seen at outcome ⊢
  cases outcome with
  | outOfBounds fit => exact ⟨_, _, _, _, rfl, fit, .inr ⟨rfl, rfl⟩⟩
  | ended left fit => exact ⟨_, _, _, _, rfl, fit, .inl rfl⟩

def overlaidScript : Script where
  identity := "a"
  root :=
    let method : Node := ⟨⟨5⟩, ⟨.method, .ofList [("name", .string "m")], none⟩, none, []⟩
    let source : Node := ⟨⟨6⟩, ⟨.invokeSource, .ofList [("src", .string "b")], none⟩, none, []⟩
    let call : Node := ⟨⟨7⟩, ⟨.invokeCall, .ofList [("name", .string "m")], none⟩, none, []⟩
    ⟨⟨8⟩, ⟨.script, .empty, none⟩, none, [method, source, call]⟩

/-- Inside the sourced script its own method is called, which fails; the method of the root is in
the table afterwards. -/
example :
    (Watcher.walk ((Visitor.refusing "inner").watched (.output "cut"))
      (.ofScripts [steppingScript]) (.output "cut") 5 overlaidScript.root
      ({}, ((), {}), [])).any fun (_, _, (_, watch), methods) =>
        ((watch.sightings.filter (·.node.id = ⟨1⟩)).map fun sighting =>
            (sighting.before.lookup "m").map (·.id)) = [some ⟨2⟩, some ⟨2⟩] &&
          (methods.lookup "m").map (·.id) = some ⟨5⟩ := by
  decide +kernel

def strayScript : Script where
  identity := "c"
  root :=
    let call : Node := ⟨⟨9⟩, ⟨.invokeCall, .ofList [("name", .string "m")], none⟩, none, []⟩
    ⟨⟨10⟩, ⟨.script, .empty, none⟩, none, [call]⟩

/-- The methods of a root stay for the next walk of the same walker: the table shows one that no
script around declares, neither the root nor any that is sourced. -/
theorem table_keeps_earlier_roots :
    let cut : RunError := .output "cut"
    let visitor : Visitor ((Unit × Watch) × Methods) := Visitor.watched {} cut
    ∃ c c', Watcher.walk visitor .empty cut 2 steppingScript.root ({}, ((), {}), []) =
        some (.ok (), c) ∧
      Watcher.walk visitor .empty cut 2 strayScript.root ({}, ((), {}), c.2.2) =
        some (.ok (), c') ∧
      ∃ sighting ∈ c'.2.1.2.sightings,
        ¬sighting.before.Shows (rootsAround .empty [strayScript.root] sighting.around) := by
  intro cut visitor
  have evaluated : (Watcher.walk visitor .empty cut 2 steppingScript.root ({}, ((), {}), [])).any
      fun (result, c) => result.isOk &&
        (Watcher.walk visitor .empty cut 2 strayScript.root ({}, ((), {}), c.2.2)).any
          fun (result, c') => result.isOk && c'.2.1.2.sightings.any fun sighting =>
            (sighting.before.lookup "m").isSome &&
              ((rootsAround .empty [strayScript.root] sighting.around).findSome?
                (·.lastMethod? "m")).isNone := by
    decide +kernel
  obtain ⟨⟨result, c⟩, walked, evaluated⟩ := (Option.any_eq_true _ _).1 evaluated
  obtain ⟨done, evaluated⟩ := Bool.and_eq_true_iff.1 evaluated
  obtain ⟨⟨result', c'⟩, walked', evaluated⟩ := (Option.any_eq_true _ _).1 evaluated
  obtain ⟨done', evaluated⟩ := Bool.and_eq_true_iff.1 evaluated
  obtain ⟨sighting, member, evaluated⟩ := List.any_eq_true.1 evaluated
  obtain ⟨found, absent⟩ := Bool.and_eq_true_iff.1 evaluated
  cases result with
  | error => cases done
  | ok =>
      cases result' with
      | error => cases done'
      | ok =>
          refine ⟨c, c', walked, walked', sighting, member, fun shows => ?_⟩
          rw [shows "m", Option.isNone_iff_eq_none.1 absent] at found
          cases found

end Archetype
