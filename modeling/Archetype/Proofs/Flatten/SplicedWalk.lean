import Archetype.Proofs.Flatten.Spliced
import Archetype.Proofs.Generation.CollapsingVisitors

/-!
Walking rebuilt nodes against walking the nodes they come from, where some bodies take the place of
their invocations. Where the walk of the source follows such an invocation, it goes on inside a
frame that dissolves, and one body deeper; the walk of the rebuilt nodes just goes on. So the one
may run out of bounds where the other does not, but not the other way round.
-/

namespace Archetype

open ScopeTree (Inside Lasts lasts_inside)

namespace Walk

variable {visitor : Visitor σ} {δ : Dissolving} {uses : NameUses} {home : String}
  {node twin : Node} (same : node.Twin twin) (plain : node.Plain) (goes : node.GoesBy uses)
include same plain goes

theorem collapses_around (collapses : visitor.Collapses δ uses) (settles : node.Settles δ home)
    {work work' : Visit σ Unit} (inner : Visit.Collapses δ uses (Inside home) work work') :
    Visit.Collapses δ uses (Inside home) (around visitor node work) (around visitor twin work') :=
  Visit.collapses_bind (lasts_inside home) (collapses.enter same plain goes settles) fun _ =>
    Visit.collapses_bind (lasts_inside home) inner fun _ => collapses.leave same

theorem collapses_holds :
    Visit.Collapses δ uses (Inside home) (holds node : Visit σ Bool) (holds twin) := by
  rw [holds_eq, holds_eq]
  refine Visit.collapses_scope_bind (Visit.extending_of_looking
    (Visit.looking_bind Visit.looking_scope fun _ => Visit.looking_ofExcept _))
    fun a b s collapsed _ dissolves => Visit.meets_ofExcept ?_ collapsed
  have twins : twin.holdsIn b = node.holdsIn b := by simp only [Node.holdsIn, same.expression]
  rw [twins]
  exact collapsed.holdsIn dissolves plain goes

end Walk

namespace Node

/-- Where a frame goes, the nodes walked in it declare nothing there. -/
def Undeclaring (δ : Dissolving) (home : String) (nodes : List Node) : Prop :=
  δ.gone home = true → anyDeclares nodes = false

variable {δ : Dissolving} {home : String} {node : Node} {nodes : List Node}

theorem undeclaring_of_stays (stays : δ.gone home = false) : Undeclaring δ home nodes :=
  fun gone => Bool.noConfusion (gone.symm.trans stays)

theorem undeclaring_cons : Undeclaring δ home (node :: nodes) ↔
    (δ.gone home = true → node.declares = false) ∧ Undeclaring δ home nodes := by
  simp only [Undeclaring, anyDeclares, Bool.or_eq_false_iff]
  exact forall_and

theorem preorderAll_cons_subset {list : List Node} : preorderAll (node :: nodes) ⊆ list ↔
    node ∈ list ∧ preorderAll node.children ⊆ list ∧ preorderAll nodes ⊆ list := by
  rw [preorderAll_cons, List.cons_subset, List.append_subset]

theorem settles_of_condition (role : node.role = .condition) : node.Settles δ home := by
  intro settles
  rw [role_eq_condition role] at settles
  simp [NodeKind.isInput] at settles

theorem undeclaring_children_of_condition (role : node.role = .condition)
    (undeclaring : δ.gone home = true → node.declares = false) :
    Undeclaring δ home node.children := by
  intro gone
  have none := undeclaring gone
  rw [declares_eq, role] at none
  exact none

/-- Inside its own frame a node is where that stays, and elsewhere where the node itself is. -/
theorem undeclaring_children_of_block {frame : Option (String × FrameKind)}
    (role : node.role = .block frame) (plain : node.Plain)
    (undeclaring : δ.gone home = true → node.declares = false) :
    Undeclaring δ (Visit.homeIn frame home) node.children := by
  cases frame with
  | some frame => exact undeclaring_of_stays (δ.stays (plain.name _ (eq_of_role_block role).2))
  | none =>
      intro gone
      have none := undeclaring gone
      rw [declares_eq, role] at none
      exact (Bool.or_eq_false_iff.1 none).2

theorem Regular.settles {frame : Option (String × FrameKind)} (regular : node.Regular)
    (role : node.role = .block frame)
    (undeclaring : δ.gone home = true → node.declares = false) :
    node.Settles δ (Visit.homeIn frame home) := by
  cases frame with
  | some frame => exact fun _ => δ.stays (regular.toPlain.name _ (eq_of_role_block role).2)
  | none =>
      rintro (input | kind)
      · -- An input has a name, and so it has a frame.
        obtain ⟨name, named⟩ := Declaration.exists_name regular.check (by
          revert input
          unfold Node.kind NodeKind.isInput Declaration.required
          cases node.declaration.kind <;> simp)
        have named : node.name? = some name := named
        unfold Node.role at role
        revert input role
        cases node.kind <;> simp [NodeKind.isInput, NodeKind.frame?, named]
      · rw [Bool.eq_false_iff]
        intro gone
        have none := undeclaring gone
        rw [declares_eq, role] at none
        simp [kind] at none

end Node

namespace Splice

variable {library : Library} {scripts : List Script} {table : CallTable}
  {sites : Node → Node → Prop} {inlines : SharedBody → Prop} {δ : Dissolving} {uses : NameUses}
  {flat : Methods} {root : Script} {visitor : Visitor σ}
  {inner inner' : Methods → List Node → Visit σ Unit}

def Follows (scripts : List Script) (table : CallTable) (sites : Node → Node → Prop)
    (inlines : SharedBody → Prop) (δ : Dissolving) (uses : NameUses)
    (inner : Methods → List Node → Visit σ Unit) (flat : List Node → Visit σ Unit) : Prop :=
  ∀ {script methods list list' home}, script ∈ scripts → methods.Covers script →
    Node.preorderAll list ⊆ Node.preorderAll script.root.children →
    Node.Undeclaring δ home list → Spliced table sites inlines script list list' →
      Visit.Collapses δ uses (Inside home) (inner methods list) (flat list')

section Walks

variable (splice : Splice library scripts table sites inlines δ flat)
  (atHand : AtHand library scripts) (orderly : Orderly scripts)
  (sound : table.Sound library scripts root) (idles : visitor.Idles)
include splice atHand orderly sound idles

/-- An invocation that stays comes to the same as the call that takes its place. -/
theorem collapses_invocation
    (follows : Follows scripts table sites inlines δ uses inner (inner' flat)) {script : Script}
    (known : script ∈ scripts) {methods : Methods} (covers : methods.Covers script)
    {node twin : Node} {body : SharedBody} {home : String}
    (reached : table.reached? script node = some body)
    (declaration : twin.declaration = body.call node.location) (site : sites node twin) :
    Visit.Collapses δ uses (Inside home) (Walk.node visitor library inner methods node)
      (Walk.node visitor library inner' flat twin) := by
  have role : twin.role = .call := by simp only [Node.role, Node.kind, declaration]
  have target : body.canonical = twin.target := by
    simp only [Node.target, Node.name?, declaration]
    rfl
  obtain ⟨method, found, declared, spliced⟩ :=
    splice.found site (CallTable.mem_of_reached? reached) target
  obtain ⟨frame, stays⟩ := splice.frame site
  have idle : twin.kind.isIdle = true := by
    rw [Node.kind, declaration]
    rfl
  obtain ⟨methods', list, owned, covers', inside, nodes, entered⟩ :=
    sound.exists_entered atHand orderly idles known covers reached
  rw [entered, Walk.node_eq twin]
  simp only [role]
  rw [Flat.call_eq idles declared found, Walk.around_of_idle idles idle, ← frame]
  refine Visit.collapses_within stays FrameKind.noConfusion (fun _ => rfl) (follows owned covers'
    inside (Node.undeclaring_of_stays stays) ?_)
  rcases nodes with nodes | nodes
  · exact nodes ▸ spliced
  · rw [nodes] at spliced
    exact spliced.of_body

/-- An invocation comes to the same as the body that takes its place. -/
theorem collapses_inlined {second : List Node → Visit σ Unit}
    (follows : Follows scripts table sites inlines δ uses inner second) {script : Script}
    (known : script ∈ scripts) {methods : Methods} (covers : methods.Covers script) {node : Node}
    {body : SharedBody} {home : String} {result : List Node}
    (member : node ∈ Node.preorderAll script.root.children)
    (reached : table.reached? script node = some body) (gives : inlines body)
    (spliced : Spliced table sites inlines body.script body.nodes result) :
    Visit.Collapses δ uses (Inside home) (Walk.node visitor library inner methods node)
      (second result) := by
  obtain ⟨methods', list, owned, covers', inside, nodes, entered⟩ :=
    sound.exists_entered atHand orderly idles known covers reached
  have gone := splice.gone known
    (List.mem_filter.2 ⟨member, CallTable.isInvocation_of_reached? reached⟩) reached gives
  have undeclaring := splice.settles (CallTable.mem_of_reached? reached) gives
  rw [entered]
  refine Visit.collapses_within_gone gone ?_
  rcases nodes with nodes | nodes
  · rw [nodes] at spliced undeclaring
    exact follows owned covers' inside (fun _ => undeclaring) spliced
  · rw [nodes] at spliced undeclaring
    rw [Node.anyDeclares_body] at undeclaring
    exact follows owned covers' inside (fun _ => undeclaring) spliced.of_body

variable (bodies : table.Regular)
  (goes : ∀ script ∈ scripts, ∀ node ∈ Node.preorderAll script.root.children, node.GoesBy uses)
  (collapses : visitor.Collapses δ uses)
include bodies goes collapses

/-- Nodes come to the same as what they are rebuilt into, if the bodies of their invocations do:
those that are called, and those that are walked in place. -/
theorem collapses_nodes
    (called : Follows scripts table sites inlines δ uses inner (inner' flat))
    (placed : Follows scripts table sites inlines δ uses inner
      (Walk.nodes visitor library inner' flat)) :
    Follows scripts table sites inlines δ uses (Walk.nodes visitor library inner)
      (Walk.nodes visitor library inner' flat) := by
  intro script methods list list' home known covers inside undeclaring spliced
  induction spliced generalizing home with
  | nil => exact Visit.collapses_pure ()
  | declaration role _ ih =>
      obtain ⟨-, -, later⟩ := Node.preorderAll_cons_subset.1 inside
      rw [Walk.nodes, Walk.node_eq]
      simp only [role, pure_bind]
      exact ih known covers later (Node.undeclaring_cons.1 undeclaring).2
  | never role constant _ ih =>
      obtain ⟨here, -, later⟩ := Node.preorderAll_cons_subset.1 inside
      rw [Walk.nodes, Walk.node_of_constant idles (orderly.regular _ known _ here) role constant]
      simp only [Bool.false_eq_true, if_false, pure_bind]
      exact ih known covers later (Node.undeclaring_cons.1 undeclaring).2
  | always role constant _ _ ihBelow ih =>
      obtain ⟨here, below, later⟩ := Node.preorderAll_cons_subset.1 inside
      obtain ⟨none, undeclaring⟩ := Node.undeclaring_cons.1 undeclaring
      rw [Walk.nodes, Walk.node_of_constant idles (orderly.regular _ known _ here) role constant,
        if_pos rfl, Walk.nodes_append]
      exact Visit.collapses_bind (lasts_inside home)
        (ihBelow known covers below (Node.undeclaring_children_of_condition role none))
        fun _ => ih known covers later undeclaring
  | condition role constant declaration check spliced _ ihBelow ih =>
      obtain ⟨here, below, later⟩ := Node.preorderAll_cons_subset.1 inside
      obtain ⟨none, undeclaring⟩ := Node.undeclaring_cons.1 undeclaring
      have regular := orderly.regular _ known _ here
      have leads := goes _ known _ here
      have same := regular.twin (declaration.trans regular.foldedDeclaration_eq) check
        (spliced.optionsAmong_eq bodies fun _ member => orderly.regular _ known _ (below member))
      rw [Walk.nodes, Walk.nodes]
      refine Visit.collapses_bind (lasts_inside home) ?_ fun _ => ih known covers later undeclaring
      rw [Walk.node_eq, Walk.node_eq, same.role_eq]
      simp only [role]
      refine Visit.collapses_bind (lasts_inside home)
        (Walk.collapses_holds same regular.toPlain leads) fun truth => ?_
      cases truth with
      | false => exact Visit.collapses_pure ()
      | true =>
          exact Walk.collapses_around same regular.toPlain leads collapses
            (Node.settles_of_condition role)
            (ihBelow known covers below (Node.undeclaring_children_of_condition role none))
  | invocation reached declaration _ site _ ih =>
      obtain ⟨-, -, later⟩ := Node.preorderAll_cons_subset.1 inside
      rw [Walk.nodes, Walk.nodes]
      exact Visit.collapses_bind (lasts_inside home) (splice.collapses_invocation atHand orderly
        sound idles called known covers reached declaration site)
        fun _ => ih known covers later (Node.undeclaring_cons.1 undeclaring).2
  | inlined reached gives spliced _ _ ih =>
      obtain ⟨here, -, later⟩ := Node.preorderAll_cons_subset.1 inside
      rw [Walk.nodes, Walk.nodes_append]
      exact Visit.collapses_bind (lasts_inside home) (splice.collapses_inlined atHand orderly sound
        idles placed known covers here reached gives spliced)
        fun _ => ih known covers later (Node.undeclaring_cons.1 undeclaring).2
  | block role declaration check spliced _ ihBelow ih =>
      obtain ⟨here, below, later⟩ := Node.preorderAll_cons_subset.1 inside
      obtain ⟨none, undeclaring⟩ := Node.undeclaring_cons.1 undeclaring
      have regular := orderly.regular _ known _ here
      have same := regular.twin declaration check
        (spliced.optionsAmong_eq bodies fun _ member => orderly.regular _ known _ (below member))
      rw [Walk.nodes, Walk.nodes]
      refine Visit.collapses_bind (lasts_inside home) ?_ fun _ => ih known covers later undeclaring
      rw [Walk.node_eq, Walk.node_eq, same.role_eq]
      simp only [role]
      refine Visit.collapses_inFrame (fun name kind opened => ?_)
        (Walk.collapses_around same regular.toPlain (goes _ known _ here) collapses
          (regular.settles role none) (ihBelow known covers below
            (Node.undeclaring_children_of_block role regular.toPlain none)))
      subst opened
      exact ⟨regular.toPlain.name name (Node.eq_of_role_block role).2, Node.frame_ne_value role⟩

theorem collapses_bodies (limit : Nat) : ∀ limit', limit ≤ limit' →
    Follows scripts table sites inlines δ uses
      (Walk.nodes visitor library (Walk.bodies visitor library limit))
      (Walk.nodes visitor library (Walk.bodies visitor library limit') flat) := by
  induction limit with
  | zero =>
      intro limit' _
      exact splice.collapses_nodes atHand orderly sound idles bodies goes collapses
        (fun _ _ _ _ _ => Visit.collapses_outOfBounds _)
        fun _ _ _ _ _ => Visit.collapses_outOfBounds _
  | succ limit ih =>
      intro limit' le
      obtain ⟨limit', rfl⟩ : ∃ other, limit' = other + 1 := ⟨limit' - 1, by omega⟩
      exact splice.collapses_nodes atHand orderly sound idles bodies goes collapses
        (ih limit' (by omega)) (ih (limit' + 1) (by omega))

end Walks

end Splice

end Archetype
