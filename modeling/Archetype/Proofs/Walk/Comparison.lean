import Archetype.Proofs.Walk.Extension

/-!
Comparing a walk with a later one of the same nodes that only looks at the scopes the first one left
behind. Both go on in step until a condition is decided differently; as long as they are in step,
the later walk enters no frame that is not there already.
-/

namespace Archetype

open Visit (Gives)

/-- The traces of a walk and of a later one over settled scopes: alike to the end, or else up to a
condition that they decide differently. -/
inductive Compared (settled : Array ScopeNode) : (alike : Bool) → List Event → List Event → Prop
  | nil : Compared settled true [] []
  | decided {node : Node} {tree : ScopeTree} {truth : Bool}
      (holds : node.holdsIn ⟨settled, tree.frames⟩ = .ok truth)
      (rest : Compared settled alike first second) :
      Compared settled alike (.decided node tree truth :: first)
        (.decided node ⟨settled, tree.frames⟩ truth :: second)
  | entered {node : Node} {tree tree' : ScopeTree} (current : tree'.current = tree.current)
      (rest : Compared settled alike first second) :
      Compared settled alike (.entered node tree :: first) (.entered node tree' :: second)
  | split {node : Node} {tree : ScopeTree} {truth : Bool} :
      Compared settled false (.decided node tree truth :: first)
      (.decided node ⟨settled, tree.frames⟩ (!truth) :: second)

namespace Compared

variable {settled : Array ScopeNode} {first second more more' : List Event}

theorem append (start : Compared settled true first second)
    (rest : Compared settled alike more more') :
    Compared settled alike (first ++ more) (second ++ more') := by
  generalize goal : true = whole at start
  induction start with
  | nil => exact rest
  | decided holds _ ih => exact .decided holds (ih goal)
  | entered current _ ih => exact .entered current (ih goal)
  | split => cases goal

theorem append_of_split (start : Compared settled false first second) (more more' : List Event) :
    Compared settled false (first ++ more) (second ++ more') := by
  generalize goal : false = whole at start
  induction start with
  | nil => cases goal
  | decided holds _ ih => exact .decided holds (ih goal)
  | entered current _ ih => exact .entered current (ih goal)
  | split => exact .split

theorem entries_eq (alike : Compared settled true first second) :
    entries first = entries second := by
  generalize goal : true = whole at alike
  induction alike with
  | nil => rfl
  | decided holds _ ih => exact ih goal
  | entered current _ ih => rw [entries_entered, entries_entered, current, ih goal]
  | split => cases goal

theorem holdsIn (alike : Compared settled true first second) {node : Node} {tree : ScopeTree}
    {truth : Bool} (decision : .decided node tree truth ∈ first) :
    node.holdsIn ⟨settled, tree.frames⟩ = .ok truth := by
  generalize goal : true = whole at alike
  induction alike with
  | nil => cases decision
  | decided holds _ ih =>
      cases decision with
      | head => exact holds
      | tail _ later => exact ih later goal
  | entered _ _ ih =>
      cases decision with
      | tail _ later => exact ih later goal
  | split => cases goal

/-- What comes after a part of the walks that may have split them is compared if it did not. -/
theorem andThen {settled' settled'' : Prop}
    (start : (Compared settled true first second ∧ settled') ∨ Compared settled false first second)
    (rest : settled' →
      (Compared settled true more more' ∧ settled'') ∨ Compared settled false more more') :
    (Compared settled true (first ++ more) (second ++ more') ∧ settled'') ∨
      Compared settled false (first ++ more) (second ++ more') := by
  rcases start with ⟨alike, reached⟩ | split
  · exact (rest reached).imp (fun more => ⟨alike.append more.1, more.2⟩) alike.append
  · exact .inr (split.append_of_split _ _)

theorem deciding {node : Node} {tree : ScopeTree} {truth : Bool} {settled' : Prop}
    (holds : node.holdsIn ⟨settled, tree.frames⟩ = .ok truth)
    (rest : (Compared settled true first second ∧ settled') ∨ Compared settled false first second) :
    (Compared settled true (.decided node tree truth :: first)
        (.decided node ⟨settled, tree.frames⟩ truth :: second) ∧ settled') ∨
      Compared settled false (.decided node tree truth :: first)
        (.decided node ⟨settled, tree.frames⟩ truth :: second) :=
  rest.imp (fun alike => ⟨.decided holds alike.1, alike.2⟩) (.decided holds)

theorem entering {node : Node} {tree tree' : ScopeTree} {settled' : Prop}
    (current : tree'.current = tree.current)
    (rest : (Compared settled true first second ∧ settled') ∨ Compared settled false first second) :
    (Compared settled true (.entered node tree :: first) (.entered node tree' :: second) ∧
        settled') ∨
      Compared settled false (.entered node tree :: first) (.entered node tree' :: second) :=
  rest.imp (fun alike => ⟨.entered current alike.1, alike.2⟩) (.entered current)

end Compared

namespace ScopeTree

variable {tree tree' later : ScopeTree}

/-! A tree with the scopes that are there at last and the frames of an earlier one. -/

theorem settled_of_extends {other other' : ScopeTree} (extends' : tree.Extends tree')
    (same : other' = other) (start : other = ⟨later.nodes, tree.frames⟩) :
    other' = ⟨later.nodes, tree'.frames⟩ := by
  rw [same, start, extends'.frames]

theorem settled_opened (wf : tree.WellFormed) {frame : Option (String × FrameKind)}
    (block : ∀ name kind, frame = some (name, kind) → kind ≠ .value)
    (grows : (tree.opened frame).Grows later) {other : ScopeTree}
    (start : other = ⟨later.nodes, tree.frames⟩) :
    other.opened frame = ⟨later.nodes, (tree.opened frame).frames⟩ := by
  rw [start]
  cases frame with
  | none => rfl
  | some frame => exact congrArg Prod.snd (push_of_grows wf (block _ _ rfl) grows)

@[simp] theorem nodes_closed (inner : ScopeTree) (frame : Option (String × FrameKind)) :
    (tree.closed inner frame).nodes = inner.nodes := by
  cases frame <;> rfl

theorem settled_closed {frame : Option (String × FrameKind)} {other inner : ScopeTree}
    (start : other = ⟨later.nodes, tree.frames⟩)
    (settled : inner = ⟨later.nodes, (tree.opened frame).frames⟩) :
    other.closed inner frame = ⟨later.nodes, tree.frames⟩ := by
  rw [start, settled]
  cases frame with
  | none => rfl
  | some frame =>
      have back : (leaveTo ⟨later.nodes, (tree.push frame.1 frame.2).2.frames⟩
          tree.frames.length).frames = tree.frames := frames_leaveTo_of_push rfl
      exact congrArg (ScopeTree.mk later.nodes) back

end ScopeTree

theorem Node.bodyFrame_ne_value {node : Node} {target name : String} {frame : FrameKind}
    (opened : node.bodyFrame target = some (name, frame)) : frame ≠ .value := by
  cases opened
  decide

open ScopeTree (settled_of_extends settled_opened settled_closed nodes_closed)

/-- A later walk of the nodes, over the scopes that are there at last, is in step with the first one
to the end, and then it has changed no scope, or it decides a condition differently. -/
structure Follows (reader : Visitor τ) (library : Library) (methods : Methods) (nodes : List Node)
    (tree : ScopeTree) (trace : List Event) (after : ScopeTree) : Prop where
  compared : ∀ {later : ScopeTree} {d d' : ScopeTree × τ} {trace' : List Event}, after.Grows later →
    d.1 = ⟨later.nodes, tree.frames⟩ → Walked reader library methods nodes d trace' d' →
      (Compared later.nodes true trace trace' ∧ d'.1 = ⟨later.nodes, tree.frames⟩) ∨
        Compared later.nodes false trace trace'

namespace Follows

variable {reader : Visitor τ} {library : Library} {methods : Methods} {node : Node}
  {nodes : List Node} {tree inner left after : ScopeTree} {trace more : List Event}

theorem nil : Follows reader library methods [] tree [] tree := by
  refine ⟨fun {later d d' trace'} grows start again => ?_⟩
  cases again
  exact .inl ⟨.nil, start⟩

theorem declaration (role : node.role = .declaration)
    (rest : Follows reader library methods nodes tree trace after) :
    Follows reader library methods (node :: nodes) tree trace after := by
  refine ⟨fun {later d d' trace'} grows start again => ?_⟩
  cases again with
  | declaration role' again => exact rest.compared grows start again
  | _ => simp_all

theorem untaken (role : node.role = .condition)
    (rest : Follows reader library methods nodes tree trace after) :
    Follows reader library methods (node :: nodes) tree (.decided node tree false :: trace)
      after := by
  refine ⟨fun {later d d' trace'} grows start again => ?_⟩
  cases again with
  | untaken role' holds' again =>
      have step := holds'
      rw [start] at step ⊢
      exact Compared.deciding step (rest.compared grows start again)
  | taken role' holds' enter' below' leave' again =>
      rw [start]
      exact .inr .split
  | _ => simp_all

theorem taken (reads : reader.Reads) (role : node.role = .condition)
    (entered : tree.Extends inner) (worked : inner.Extends left) (finished : left.Extends after)
    (below : Follows reader library methods node.children inner trace left)
    (rest : Follows reader library methods nodes left more after) :
    Follows reader library methods (node :: nodes) tree
      (.decided node tree true :: .entered node tree :: (trace ++ more)) after := by
  refine ⟨fun {later d d' trace'} grows start again => ?_⟩
  cases again with
  | untaken role' holds' again =>
      rw [start]
      exact .inr .split
  | taken role' holds' enter' below' leave' again =>
      have startBelow := settled_of_extends entered (reads.enter enter') start
      have sameBelow := below.compared (finished.grows.trans grows) startBelow below'
      have same := Compared.andThen sameBelow fun settled =>
        rest.compared grows (settled_of_extends worked (reads.leave leave') settled) again
      rw [worked.frames, entered.frames] at same
      have step := holds'
      rw [start] at step ⊢
      exact Compared.deciding step (Compared.entering rfl same)
  | _ => simp_all

/-- What is settled at the end of a walk is so inside a frame that the walk has left. -/
theorem grows_inside {frame : Option (String × FrameKind)} {later : ScopeTree}
    (finished : (tree.closed inner frame).Extends after) (grows : after.Grows later) :
    inner.Grows later :=
  (finished.grows.trans grows).of_nodes (ScopeTree.nodes_closed _ frame).symm rfl

theorem block (reads : reader.Reads) {frame : Option (String × FrameKind)}
    (role : node.role = .block frame) (wf : tree.WellFormed)
    (entered : (tree.opened frame).Extends inner) (worked : inner.Extends left)
    (finished : (tree.closed left frame).Extends after)
    (below : Follows reader library methods node.children inner trace left)
    (rest : Follows reader library methods nodes (tree.closed left frame) more after) :
    Follows reader library methods (node :: nodes) tree
      (.entered node (tree.opened frame) :: (trace ++ more)) after := by
  refine ⟨fun {later d d' trace'} grows start again => ?_⟩
  have closed := (entered.trans worked).closed
  have grown := grows_inside finished grows
  cases again with
  | block role' enter' below' leave' again =>
      obtain rfl := Role.block.inj (role.symm.trans role')
      have reopened := settled_opened wf (fun _ _ eq => Node.frame_ne_value (eq ▸ role))
        ((entered.trans worked).grows.trans grown) start
      have startBelow := settled_of_extends entered (reads.enter enter') reopened
      have same := Compared.andThen (below.compared grown startBelow below') fun settled => by
        have startRest := (reads.leave leave').trans settled
        rw [entered.frames] at startRest
        refine rest.compared grows ?_ again
        rw [closed.frames]
        exact settled_closed start startRest
      rw [closed.frames] at same
      rw [reopened]
      exact Compared.entering rfl same
  | _ => simp_all

theorem call (reads : reader.Reads) {method : Node} {entry : ScopeTree} (role : node.role = .call)
    (found : methods.lookup node.target = some method) (entered : tree.Extends entry)
    (inside : (entry.opened (node.bodyFrame node.target)).Extends inner)
    (worked : inner.Extends left)
    (finished : (entry.closed left (node.bodyFrame node.target)).Extends after)
    (below : Follows reader library methods method.children inner trace left)
    (rest : Follows reader library methods nodes
      (entry.closed left (node.bodyFrame node.target)) more after) :
    Follows reader library methods (node :: nodes) tree
      (.entered node tree :: .entered method (entry.opened (node.bodyFrame node.target)) ::
        (trace ++ more)) after := by
  refine ⟨fun {later d d' trace'} grows start again => ?_⟩
  have closed := (inside.trans worked).closed
  have grown := grows_inside finished grows
  cases again with
  | call role' found' enter' enterMethod' below' leaveMethod' leave' again =>
      obtain rfl := Option.some.inj (found.symm.trans found')
      have startEntered := settled_of_extends entered (reads.enter enter') start
      have reopened := settled_opened entered.wellFormed
        (fun _ _ eq => Node.bodyFrame_ne_value eq) ((inside.trans worked).grows.trans grown)
        startEntered
      have startBelow := settled_of_extends inside (reads.enter enterMethod') reopened
      have same := Compared.andThen (below.compared grown startBelow below') fun settled => by
        have startLeave := (reads.leave leaveMethod').trans settled
        rw [inside.frames] at startLeave
        refine rest.compared grows ?_ again
        rw [reads.leave leave', closed.frames]
        exact settled_closed startEntered startLeave
      rw [closed.frames, entered.frames] at same
      have here : d.1.current = _ := congrArg ScopeTree.current start
      rw [reopened]
      exact Compared.entering here (Compared.entering rfl same)
  | _ => simp_all

theorem source (reads : reader.Reads) {script : Script} {entry : ScopeTree}
    (role : node.role = .source) (found : library.load node.origin = .ok script)
    (entered : tree.Extends entry)
    (worked : (entry.opened (node.bodyFrame script.identity)).Extends left)
    (finished : (entry.closed left (node.bodyFrame script.identity)).Extends after)
    (below : Follows reader library (methods.declare script.root) script.root.children
      (entry.opened (node.bodyFrame script.identity)) trace left)
    (rest : Follows reader library methods nodes
      (entry.closed left (node.bodyFrame script.identity)) more after) :
    Follows reader library methods (node :: nodes) tree
      (.entered node tree :: (trace ++ more)) after := by
  refine ⟨fun {later d d' trace'} grows start again => ?_⟩
  have grown := grows_inside finished grows
  cases again with
  | source role' found' enter' below' leave' again =>
      obtain rfl := Except.ok.inj (found.symm.trans found')
      have startEntered := settled_of_extends entered (reads.enter enter') start
      have reopened := settled_opened entered.wellFormed
        (fun _ _ eq => Node.bodyFrame_ne_value eq) (worked.grows.trans grown) startEntered
      have same := Compared.andThen (below.compared grown reopened below') fun settled => by
        refine rest.compared grows ?_ again
        rw [reads.leave leave', worked.closed.frames]
        exact settled_closed startEntered settled
      rw [worked.closed.frames, entered.frames] at same
      have here : d.1.current = _ := congrArg ScopeTree.current start
      exact Compared.entering here same
  | _ => simp_all

end Follows

variable {visitor : Visitor σ} {reader : Visitor τ} {library : Library}

theorem Visitor.Reads.follows (reads : reader.Reads) :
    Walked.Lifts visitor library (Follows reader library) where
  nil := .nil
  declaration := .declaration
  untaken := .untaken
  taken role enters worked finished below rest :=
    .taken reads role enters.extended worked finished below rest
  block role wf enters worked finished below rest :=
    .block reads role wf enters.extended worked finished below rest
  call role found enters entersMethod worked finished below rest :=
    .call reads role found enters.extended entersMethod.extended worked finished below rest
  source role found enters worked finished below rest :=
    .source reads role found enters.extended worked finished below rest

/-- Either the later walk is in step to the end, and then it has changed no scope, or a condition is
decided differently. -/
theorem Walked.compare (extending : visitor.Extends) (reads : reader.Reads)
    (walked : Walked visitor library methods list c trace c') (wf : c.1.WellFormed)
    {later : ScopeTree} (grows : c'.1.Grows later) {d d' : ScopeTree × τ}
    (start : d.1 = ⟨later.nodes, c.1.frames⟩)
    (again : Walked reader library methods list d trace' d') :
    (Compared later.nodes true trace trace' ∧ d'.1 = ⟨later.nodes, c.1.frames⟩) ∨
      Compared later.nodes false trace trace' :=
  (walked.lift extending reads.follows wf).compared grows start again

end Archetype
