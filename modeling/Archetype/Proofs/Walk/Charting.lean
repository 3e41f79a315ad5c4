import Archetype.Proofs.Scope.InputNames
import Archetype.Proofs.Walk.Extension
import Archetype.Proofs.Walk.Methods
import Archetype.Proofs.Walk.Tracking

/-!
The inputs around the stops of a walk. A scope keeps the kind of the first block that enters it; as
long as no scope is entered by an input and by another block, the inputs that lead to the current
scope are those that are open.
-/

namespace Archetype

open Visit (Gives)

def Node.inputName? (node : Node) : Option String :=
  if node.kind.isInput then node.name? else none

/-- The names of the inputs among open nodes, the outermost first. -/
def inputsAmong (around : List Node) : List String :=
  (around.filterMap Node.inputName?).reverse

theorem inputsAmong_cons (node : Node) (around : List Node) :
    inputsAmong (node :: around) = inputsAmong around ++ node.inputName?.toList := by
  unfold inputsAmong
  cases named : node.inputName? <;> simp [named]

/-- A node adds an input to the open ones if it opens the frame of one. -/
theorem Node.inputName?_eq (node : Node) :
    node.inputName? =
      match node.role with
      | .block (some (name, .input)) => some name
      | _ => none := by
  unfold Node.inputName? Node.role
  cases node.kind <;> simp only [NodeKind.isInput, NodeKind.frame?] <;> cases node.name? <;> rfl

def Stop.Sound (stop : Stop) : Prop :=
  stop.tree.inputNames stop.scope = inputsAmong (stop.node :: stop.around)

structure OpenedFrame where
  around : ScopeId
  name : String
  kind : FrameKind
  deriving DecidableEq

def Stop.opens? (library : Library) (stop : Stop) : Option OpenedFrame :=
  match stop.node.role with
  | .block (some (name, kind)) =>
      (stop.tree.node stop.scope).parent.map fun around => ⟨around, name, kind⟩
  | .call => some ⟨stop.scope, invocationFrame stop.node.target stop.node.id, .invocation⟩
  | .source =>
      match library.load stop.node.origin with
      | .ok script => some ⟨stop.scope, invocationFrame script.identity stop.node.id, .invocation⟩
      | .error _ => none
  | _ => none

/-- Of the frames of one name with the same scope around, all are those of inputs or none is. -/
def InputsApart (library : Library) (stops : List Stop) : Prop :=
  ∀ first ∈ stops, ∀ second ∈ stops, ∀ frame ∈ first.opens? library,
    ∀ frame' ∈ second.opens? library, frame.around = frame'.around → frame.name = frame'.name →
      (frame.kind = .input ↔ frame'.kind = .input)

instance (library : Library) (stops : List Stop) : Decidable (InputsApart library stops) := by
  unfold InputsApart
  infer_instance

def Opened (library : Library) (tree : ScopeTree) (stops : List Stop) : Prop :=
  ∀ id < tree.size, id ≠ ScopeTree.root → (tree.node id).frame ≠ .value →
    ∃ stop ∈ stops, ∃ around, (tree.node id).parent = some around ∧
      stop.opens? library = some ⟨around, (tree.node id).name, (tree.node id).frame⟩

structure Charted (library : Library) (around : List Node) (tree : ScopeTree)
    (stops : List Stop) : Prop where
  wellFormed : tree.WellFormed
  enclosed : tree.Enclosed tree.current
  opened : Opened library tree stops
  names : tree.inputNames tree.current = inputsAmong around
  sound : ∀ stop ∈ stops, stop.Sound

variable {library : Library} {around : List Node} {tree tree' : ScopeTree}
  {stops stops' : List Stop}

theorem InputsApart.mono (apart : InputsApart library stops') (fewer : stops <+: stops') :
    InputsApart library stops :=
  fun first member second member' =>
    apart first (fewer.subset member) second (fewer.subset member')

theorem Opened.mono (opened : Opened library tree stops) (more : stops <+: stops') :
    Opened library tree stops' := by
  intro id bounded inner block
  obtain ⟨stop, member, rest⟩ := opened id bounded inner block
  exact ⟨stop, more.subset member, rest⟩

/-- Scopes that are added for values alone open nothing. -/
theorem Opened.of_addsValues (opened : Opened library tree stops) (grows : tree.Grows tree')
    (adds : tree.AddsValues tree') : Opened library tree' stops := by
  intro id bounded inner block
  obtain ⟨old, same⟩ := adds id bounded block
  obtain ⟨stop, member, outer, parent, opens⟩ := opened id old inner (same ▸ block)
  have kept := grows.node id old
  exact ⟨stop, member, outer, kept.parent.trans parent, by rw [kept.name, ← same, opens]⟩

namespace Charted

theorem of_extends (charted : Charted library around tree stops) (extend : tree.Extends tree')
    (opened : Opened library tree' stops') (sound : ∀ stop ∈ stops', stop.Sound) :
    Charted library around tree' stops' := by
  obtain ⟨enclosed, names⟩ :=
    charted.enclosed.of_grows extend.grows charted.wellFormed.current_lt
  rw [← extend.current] at enclosed names
  refine ⟨extend.wellFormed, enclosed, opened, names.trans ?_, sound⟩
  rw [extend.current]
  exact charted.names

theorem stop (charted : Charted library around tree stops) {node : Node}
    (plain : node.inputName? = none) :
    Charted library (node :: around) tree (stops ++ [⟨node, around, tree⟩]) := by
  have names : tree.inputNames tree.current = inputsAmong (node :: around) := by
    rw [inputsAmong_cons, plain, charted.names]
    simp
  exact {
    charted with
    opened := charted.opened.mono (List.prefix_append _ _)
    names := names
    sound := List.forall_mem_append.2 ⟨charted.sound, List.forall_mem_singleton.2 names⟩ }

/-- Entering a scope that has no kind of a block gives it the kind of the frame, which a stop
opens. -/
theorem opened_push (charted : Charted library around tree stops) {name : String}
    {frame : FrameKind} (more : stops <+: stops')
    (announced : ∃ stop ∈ stops', stop.opens? library = some ⟨tree.current, name, frame⟩) :
    Opened library (tree.push name frame).2 stops' := by
  have wf := charted.wellFormed
  intro id bounded inner block
  by_cases old : id < tree.size ∧ (tree.node id).frame ≠ .value
  · have kept := (ScopeTree.grows_push name frame).node id old.1
    obtain ⟨stop, member, outer, parent, opens⟩ := charted.opened id old.1 inner old.2
    exact ⟨stop, more.subset member, outer, kept.parent.trans parent,
      by rw [kept.name, kept.frame old.2, opens]⟩
  · obtain rfl : id = (tree.push name frame).2.current := by
      by_contra other
      obtain ⟨before, same⟩ := ScopeTree.frame_push_of_ne name frame bounded other
      exact old ⟨before, same ▸ block⟩
    obtain ⟨stop, member, opens⟩ := announced
    refine ⟨stop, member, tree.current, ScopeTree.parent_push wf name frame, ?_⟩
    rw [ScopeTree.name_push wf, opens, ScopeTree.frame_push_of_value wf name frame fun before =>
      not_not.1 fun isBlock => old ⟨before, isBlock⟩]

theorem push (charted : Charted library around tree stops) {name : String} {frame : FrameKind}
    (block : frame ≠ .value) (more : stops <+: stops') (apart : InputsApart library stops')
    (announced : ∃ stop ∈ stops', stop.opens? library = some ⟨tree.current, name, frame⟩)
    {inside : List Node}
    (names : inputsAmong inside = inputsAmong around ++ if frame = .input then [name] else [])
    (sound : (tree.push name frame).2.inputNames (tree.push name frame).2.current =
      inputsAmong inside → ∀ stop ∈ stops', stop.Sound) :
    Charted library inside (tree.push name frame).2 stops' := by
  have wf := charted.wellFormed
  have link := ScopeTree.parent_push wf name frame
  have opened := charted.opened_push more announced
  -- Whichever stop gave the scope its kind, it opened a frame of this name around the same scope.
  have kind : ((tree.push name frame).2.node (tree.push name frame).2.current).frame = .input ↔
      frame = .input := by
    have inner : (tree.push name frame).2.current ≠ ScopeTree.root := fun top => by
      rw [top, (wf.push name frame).root_parent] at link
      cases link
    obtain ⟨earlier, member, outer, parent, opens⟩ := opened _ (wf.push name frame).current_lt
      inner (ScopeTree.frame_push wf name block)
    obtain ⟨stop, member', opens'⟩ := announced
    rw [ScopeTree.name_push wf, ← Option.some.inj (link.symm.trans parent)] at opens
    exact apart earlier member stop member' _ opens _ opens' rfl rfl
  obtain ⟨enclosed, entered⟩ := ScopeTree.inputNames_push wf charted.enclosed name block
  simp only [kind, charted.names, ← names] at entered
  exact ⟨wf.push name frame, enclosed, opened, entered, sound entered⟩

end Charted

structure Visitor.AddsValues (visitor : Visitor σ) : Prop extends visitor.Extends where
  values : ∀ {node c c'}, Gives (visitor.enter node) c () c' → c.1.AddsValues c'.1

/-- How work ends that was started in a tree: all stops are sound, and if it succeeds, the tree has
grown and each scope of a block is accounted for. -/
structure Arrives (library : Library) (before : ScopeTree) (result : Except RunError Unit)
    (after : ScopeTree) (stops : List Stop) : Prop where
  sound : ∀ stop ∈ stops, stop.Sound
  grown : result = .ok () → before.Extends after
  opened : result = .ok () → Opened library after stops

/-- Work that closes the nodes it opens and, where inputs stay apart from other blocks, keeps to the
chart, given what is announced beforehand. -/
def Charts (library : Library) (announced : ScopeTree → List Stop → Prop) (around : List Node)
    (work : Visit (σ × Track) Unit) : Prop :=
  ∀ ⦃tree s stops result tree' s' track⦄,
    work (tree, s, ⟨around, stops⟩) = some (result, tree', s', track) →
    stops <+: track.stops ∧ (result = .ok () → track.around = around) ∧
      (InputsApart library track.stops → announced tree stops →
        Charted library around tree stops → Arrives library tree result tree' track.stops)

namespace Charts

variable {announced : ScopeTree → List Stop → Prop} {work next : Visit (σ × Track) Unit}

theorem pure : Charts library announced around (Pure.pure () : Visit (σ × Track) Unit) := by
  intro tree s stops result tree' s' track ended
  cases ended
  exact ⟨List.prefix_rfl, fun _ => rfl, fun _ _ charted =>
    ⟨charted.sound, fun _ => .refl charted.wellFormed, fun _ => charted.opened⟩⟩

theorem throw (error : RunError) :
    Charts library announced around (MonadExcept.throw error : Visit (σ × Track) Unit) := by
  intro tree s stops result tree' s' track ended
  cases ended
  exact ⟨List.prefix_rfl, nofun, fun _ _ charted => ⟨charted.sound, nofun, nofun⟩⟩

theorem outOfBounds :
    Charts library announced around (Bounded.outOfBounds : Visit (σ × Track) Unit) := by
  intro tree s stops result tree' s' track ended
  cases ended

theorem bind (first : Charts library announced around work)
    (rest : Charts library (fun _ _ => True) around next) :
    Charts library announced around (work >>= fun _ => next) := by
  intro tree s stops result tree' s' track ended
  rw [Visit.bind_eq] at ended
  obtain ⟨⟨outcome, between, s₁, ⟨around₁, stops₁⟩⟩, worked, remaining⟩ :=
    Option.bind_eq_some_iff.1 ended
  obtain ⟨more, closed, arrives⟩ := first worked
  cases outcome with
  | error error =>
      cases remaining
      exact ⟨more, nofun, fun apart told charted =>
        ⟨(arrives apart told charted).sound, nofun, nofun⟩⟩
  | ok =>
      obtain rfl := closed rfl
      obtain ⟨more', closed', arrives'⟩ := rest remaining
      refine ⟨more.trans more', closed', fun apart told charted => ?_⟩
      obtain ⟨sound, extended, opened⟩ := arrives (apart.mono more') told charted
      obtain ⟨sound', extended', opened'⟩ := arrives' apart trivial
        (charted.of_extends (extended rfl) (opened rfl) sound)
      exact ⟨sound', fun success => (extended rfl).trans (extended' success), opened'⟩

theorem condition (node : Node) (inner : Charts library announced around work) :
    Charts library announced around (do if ← Walk.holds node then work) := by
  intro tree s stops result tree' s' track ended
  exact Visit.condition_ends node ended (fun error fails => throw error fails)
    (fun passes => pure passes) fun works => inner works

theorem of_stop {visitor : Visitor σ} (adds : visitor.AddsValues) {node : Node}
    (inner : Charts library announced (node :: around) work) {tree tree' : ScopeTree} {s s' : σ}
    {stops : List Stop} {result : Except RunError Unit} {track : Track}
    (ended : Walk.around visitor.tracking node work (tree, s, ⟨around, stops⟩) =
      some (result, tree', s', track)) :
    stops ++ [⟨node, around, tree⟩] <+: track.stops ∧
      (result = .ok () → track.around = around) ∧
      (InputsApart library track.stops →
        (∀ inside : ScopeTree, inside.current = tree.current →
          announced inside (stops ++ [⟨node, around, tree⟩])) →
        Charted library (node :: around) tree (stops ++ [⟨node, around, tree⟩]) →
        Arrives library tree result tree' track.stops) := by
  -- What the work inside ends with, seen from where the node was entered.
  have inside : ∀ {tree₁ s₁ outcome tree₂ s₂ track₂},
      Gives (visitor.enter node) (tree, s) () (tree₁, s₁) →
      work (tree₁, s₁, ⟨node :: around, stops ++ [⟨node, around, tree⟩]⟩) =
        some (outcome, tree₂, s₂, track₂) →
      InputsApart library track₂.stops →
      (∀ inside : ScopeTree, inside.current = tree.current →
        announced inside (stops ++ [⟨node, around, tree⟩])) →
      Charted library (node :: around) tree (stops ++ [⟨node, around, tree⟩]) →
      Arrives library tree outcome tree₂ track₂.stops := by
    intro tree₁ s₁ outcome tree₂ s₂ track₂ entered worked apart told charted
    have extended := adds.enter entered charted.wellFormed
    have opened := charted.opened.of_addsValues extended.grows (adds.values entered)
    obtain ⟨sound, extended', opened'⟩ := (inner worked).2.2 apart (told _ extended.current)
      (charted.of_extends extended opened charted.sound)
    exact ⟨sound, fun success => extended.trans (extended' success), opened'⟩
  cases Visitor.ends_of_around ended with
  | refused => exact ⟨List.prefix_rfl, nofun, fun _ _ charted => ⟨charted.sound, nofun, nofun⟩⟩
  | failed entered fails => exact ⟨(inner fails).1, nofun, inside entered fails⟩
  | @left _ _ tree₂ _ _ _ _ _ entered works leaves =>
      obtain ⟨more, closed, -⟩ := inner works
      refine ⟨more, fun _ => congrArg List.tail (closed rfl), fun apart told charted => ?_⟩
      obtain ⟨sound, extended, opened⟩ := inside entered works apart told charted
      cases result with
      | error error => exact ⟨sound, nofun, nofun⟩
      | ok =>
          have kept : tree' = tree₂ := adds.leave leaves
          exact ⟨sound, fun _ => kept ▸ extended rfl, fun _ => kept ▸ opened rfl⟩

variable {visitor : Visitor σ}

theorem visiting (adds : visitor.AddsValues) {node : Node} (plain : node.inputName? = none)
    (told : ∀ tree inside stops, inside.current = tree.current →
      announced inside (stops ++ [⟨node, around, tree⟩]))
    (inner : Charts library announced (node :: around) work) :
    Charts library (fun _ _ => True) around (Walk.around visitor.tracking node work) := by
  intro tree s stops result tree' s' track ended
  obtain ⟨more, closed, arrives⟩ := of_stop adds inner ended
  refine ⟨(List.prefix_append _ _).trans more, closed, fun apart _ charted => ?_⟩
  exact arrives apart (fun inside same => told tree inside stops same) (charted.stop plain)

theorem leave {name : String} {frame : FrameKind} {result : Except RunError Unit}
    (arrives : Arrives library (tree.push name frame).2 result tree' stops) :
    Arrives library tree result (tree'.leaveTo tree.frames.length) stops where
  sound := arrives.sound
  grown success := (arrives.grown success).leave
  opened := arrives.opened

theorem within {name : String} (inner : Charts library (fun _ _ => True) around work) :
    Charts library
      (fun tree stops => ∃ stop ∈ stops,
        stop.opens? library = some ⟨tree.current, name, .invocation⟩)
      around (Visit.within name .invocation work) := by
  intro tree s stops result tree' s' track ended
  rw [Visit.within_eq] at ended
  obtain ⟨⟨_, inside, _⟩, worked, same⟩ := Option.bind_eq_some_iff.1 ended
  cases same
  obtain ⟨more, closed, arrives⟩ := inner worked
  refine ⟨more, closed, fun apart told charted => leave (arrives apart trivial ?_)⟩
  have names : inputsAmong around =
      inputsAmong around ++ if FrameKind.invocation = .input then [name] else [] := by simp
  exact charted.push (by decide) List.prefix_rfl (apart.mono more) told names
    fun _ => charted.sound

theorem block (adds : visitor.AddsValues) {node : Node} {name : String} {frame : FrameKind}
    (role : node.role = .block (some (name, frame)))
    (inner : Charts library (fun _ _ => True) (node :: around) work) :
    Charts library (fun _ _ => True) around
      (Visit.within name frame (Walk.around visitor.tracking node work)) := by
  intro tree s stops result tree' s' track ended
  rw [Visit.within_eq] at ended
  obtain ⟨⟨_, inside, _⟩, worked, same⟩ := Option.bind_eq_some_iff.1 ended
  cases same
  obtain ⟨more, closed, arrives⟩ := of_stop adds inner worked
  refine ⟨(List.prefix_append _ _).trans more, closed, fun apart _ charted => ?_⟩
  have opens : Stop.opens? library ⟨node, around, (tree.push name frame).2⟩ =
      some ⟨tree.current, name, frame⟩ := by
    simp only [Stop.opens?, role, Stop.scope, ScopeTree.parent_push charted.wellFormed]
    rfl
  have names : inputsAmong (node :: around) =
      inputsAmong around ++ if frame = .input then [name] else [] := by
    rw [inputsAmong_cons, node.inputName?_eq, role]
    cases frame <;> rfl
  refine leave (arrives apart (fun _ _ => trivial) ?_)
  refine charted.push (Node.frame_ne_value role) (List.prefix_append _ _) (apart.mono more)
    ⟨_, List.mem_append_right _ (List.mem_cons_self ..), opens⟩ names fun entered => ?_
  exact List.forall_mem_append.2 ⟨charted.sound, List.forall_mem_singleton.2 entered⟩

/-- Walks under a table of methods keep to the chart. -/
theorem lifts (adds : visitor.AddsValues) : Walk.Lifts visitor.tracking library
    (fun _ methods _ work =>
      methods.Declared → ∀ around, Charts library (fun _ _ => True) around work)
    (fun _ methods _ work =>
      methods.Declared → ∀ around, Charts library (fun _ _ => True) around work) where
  outOfBounds _ _ := outOfBounds
  nil _ _ := pure
  cons first rest declared around := bind (first declared around) (rest declared around)
  declaration _ _ _ := pure
  condition {_ _ node _} role below declared around :=
    condition node (visiting adds (by rw [node.inputName?_eq, role]) (fun _ _ _ _ => trivial)
      (below declared _))
  block {_ _ node frame _} role below declared around := by
    cases frame with
    | none =>
        exact visiting adds (by rw [node.inputName?_eq, role]) (fun _ _ _ _ => trivial)
          (below declared _)
    | some frame => exact block adds role (below declared _)
  unresolved _ _ _ _ := throw _
  call {_ _ node method _} role found body declared around := by
    have plain : method.inputName? = none := by
      simp [Node.inputName?, declared.kind_of_lookup found, NodeKind.isInput]
    refine visiting adds (by rw [node.inputName?_eq, role]) (fun tree inside stops same => ?_)
      (within (visiting adds plain (fun _ _ _ _ => trivial) (body declared _)))
    refine ⟨_, List.mem_append_right _ (List.mem_cons_self ..), ?_⟩
    simp only [Stop.opens?, role, Stop.scope, same]
  unloaded _ _ _ _ := throw _
  source {_ _ node script _} role loaded body declared around := by
    refine visiting adds (by rw [node.inputName?_eq, role]) (fun tree inside stops same => ?_)
      (within (body (declared.declare script.root) _))
    refine ⟨_, List.mem_append_right _ (List.mem_cons_self ..), ?_⟩
    simp only [Stop.opens?, role, loaded, Stop.scope, same]

end Charts

theorem charts_walk {visitor : Visitor σ} (adds : visitor.AddsValues) (library : Library)
    (limit : Nat) (root : Node) :
    Charts library (fun _ _ => True) [] (walk visitor.tracking library limit [] root) :=
  (Charts.lifts adds).walk limit [] root (Methods.declared_of_root root) []

theorem charted_init : Charted library [] {} [] where
  wellFormed := .init
  enclosed := by
    intro a member
    obtain rfl := Nat.le_zero.1 (ScopeTree.le_of_mem_ancestry member)
    decide
  opened id bounded inner := absurd (Nat.lt_one_iff.1 bounded) inner
  names := by decide +kernel
  sound := nofun

end Archetype
