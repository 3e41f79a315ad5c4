import Archetype.Proofs.Flatten.Fitting
import Archetype.Proofs.Flatten.Origins
import Archetype.Proofs.Flatten.Sites

/-!
Where a walk may stand: at a node, inside nodes that are open around it. The open nodes fall into
call sites, each of them an invocation and the way down to it from the root of its script, and the
names of the open frames are those of the call sites put together. Each call site ends in a frame
that tells its construction number, so where the numbers are distinct the frames tell the sites.
-/

namespace Archetype

/-! The way down to an invocation. -/

namespace Node.Way

variable {root node site site' : Node} {path above above' : List Node}

theorem mem (way : root.Way (node :: above)) : node ∈ preorderAll root.children := by
  generalize whole : node :: above = path at way
  induction way generalizing node above with
  | child member =>
      cases whole
      exact subset_preorderAll _ member
  | down _ member ih =>
      cases whole
      exact mem_preorderAll_of_child (ih rfl) member

theorem mem_invocations (way : root.Way (site :: above)) (invokes : site.isInvocation = true) :
    site ∈ invocations root.children :=
  List.mem_filter.2 ⟨way.mem, invokes⟩

/-- A way goes through one child of the root and may go on inside it. -/
theorem split_top (way : root.Way path) : ∃ top ∈ root.children,
    path = [top] ∨ ∃ inner, top.Way inner ∧ path = inner ++ [top] := by
  induction way with
  | @child node member => exact ⟨node, member, .inl rfl⟩
  | @down parent above node way member ih =>
      obtain ⟨top, inside, here | ⟨inner, deeper, split⟩⟩ := ih
      · cases here
        exact ⟨parent, inside, .inr ⟨[node], .child member, rfl⟩⟩
      · refine ⟨top, inside, .inr ⟨node :: inner, ?_, by rw [split, List.cons_append]⟩⟩
        cases deeper with
        | child member' =>
            cases split
            exact .down (.child member') member
        | down deeper member' =>
            cases split
            exact .down (.down deeper member') member

/-- Seen from the child that a way goes through, it ends there or goes on inside. -/
theorem split_site (way : root.Way (site :: above)) : ∃ top ∈ root.children,
    (site = top ∧ above = []) ∨ ∃ inner, top.Way (site :: inner) ∧ above = inner ++ [top] := by
  obtain ⟨top, inside, here | ⟨inner, deeper, split⟩⟩ := way.split_top
  · cases here
    exact ⟨site, inside, .inl ⟨rfl, rfl⟩⟩
  · cases deeper with
    | child member =>
        cases split
        exact ⟨top, inside, .inr ⟨[], .child member, rfl⟩⟩
    | down deeper member =>
        cases split
        exact ⟨top, inside, .inr ⟨_, .down deeper member, rfl⟩⟩

theorem id_ne_of_below {top : Node} (distinct : ((invocations root.children).map (·.id)).Nodup)
    (inside : top ∈ root.children) (invokes : top.isInvocation = true)
    (below : site ∈ invocations top.children) : top.id ≠ site.id := by
  have here := distinct.sublist
    ((invocations_sublist (List.singleton_sublist.2 inside)).map (·.id))
  rw [invocations_cons, if_pos invokes, invocations_nil, List.append_nil, List.singleton_append,
    List.map_cons, List.nodup_cons] at here
  intro same
  exact here.1 (same ▸ List.mem_map_of_mem below)

/-- Where no two invocations have the same number, there is one way down to each. -/
theorem above_eq (distinct : ((invocations root.children).map (·.id)).Nodup)
    (way : root.Way (site :: above)) (way' : root.Way (site' :: above'))
    (invokes : site.isInvocation = true) (invokes' : site'.isInvocation = true)
    (same : site.id = site'.id) : above = above' := by
  induction size : above.length using Nat.strongRecOn generalizing root above above' with
  | ind n ih =>
  obtain ⟨top, inside, first⟩ := way.split_site
  obtain ⟨top', inside', second⟩ := way'.split_site
  have within : ∀ {top site : Node} {above : List Node}, site.isInvocation = true →
      (site = top ∧ above = [] ∨ ∃ inner, top.Way (site :: inner) ∧ above = inner ++ [top]) →
        site ∈ invocations [top] := by
    rintro top site above invokes (⟨rfl, -⟩ | ⟨inner, deeper, -⟩)
    · simp [invocations_cons, invokes]
    · exact (invocations_children_sublist top).subset (deeper.mem_invocations invokes)
  obtain rfl : top = top' := eq_of_invocation_id distinct inside inside' (within invokes first)
    (within invokes' second) same
  rcases first with ⟨rfl, rfl⟩ | ⟨inner, deeper, rfl⟩
  · rcases second with ⟨-, rfl⟩ | ⟨inner', deeper', -⟩
    · rfl
    · exact absurd same
        (id_ne_of_below distinct inside invokes (deeper'.mem_invocations invokes'))
  · rcases second with ⟨rfl, -⟩ | ⟨inner', deeper', rfl⟩
    · exact absurd same.symm
        (id_ne_of_below distinct inside invokes' (deeper.mem_invocations invokes))
    · have below := distinct.sublist (((invocations_children_sublist top).trans
        (invocations_sublist (List.singleton_sublist.2 inside))).map (·.id))
      have shorter : inner.length < n := by
        rw [← size, List.length_append]
        exact Nat.lt_succ_self _
      rw [ih inner.length shorter below deeper deeper' rfl]

end Node.Way

/-! Where a walk stands. -/

def Library.Reaches (library : Library) (main root : Node) : Prop :=
  root = main ∨ ∃ src script, library.load src = .ok script ∧ script.root = root

/-- A node and the nodes that are open around it, the innermost first. Inside the innermost open
invocation, if there is one, the node stands in a script that the walk may come to, and otherwise
it stands in the main root. -/
inductive Stands (library : Library) (main : Node) : List Node → Node → Prop
  | main : Stands library main [] main
  | top (plain : main.isInvocation = false) (way : main.Way (node :: above))
      (blocks : ∀ passed ∈ above, passed.isInvocation = false) :
      Stands library main (above ++ [main]) node
  | inside (outer : Stands library main around site) (invokes : site.isInvocation = true)
      (known : library.Reaches main root) (way : root.Way (node :: above))
      (blocks : ∀ passed ∈ above, passed.isInvocation = false) :
      Stands library main (above ++ site :: around) node

namespace Stands

variable {library : Library} {main node child site root : Node} {around : List Node}

theorem down (stands : Stands library main around node) (plain : node.isInvocation = false)
    (member : child ∈ node.children) : Stands library main (node :: around) child := by
  have more : ∀ {above : List Node}, (∀ passed ∈ above, passed.isInvocation = false) →
      ∀ passed ∈ node :: above, passed.isInvocation = false := fun blocks =>
    List.forall_mem_cons.2 ⟨plain, blocks⟩
  cases stands with
  | main =>
      have blocks : ∀ passed ∈ ([] : List Node), passed.isInvocation = false := nofun
      exact .top plain (.child member) blocks
  | top plain' way blocks => exact .top plain' (.down way member) (more blocks)
  | inside outer invokes known way blocks =>
      exact .inside outer invokes known (.down way member) (more blocks)

theorem invoked (stands : Stands library main around site) (invokes : site.isInvocation = true)
    (known : library.Reaches main root) (member : child ∈ root.children) :
    Stands library main (site :: around) child :=
  have blocks : ∀ passed ∈ ([] : List Node), passed.isInvocation = false := nofun
  .inside stands invokes known (.child member) blocks

end Stands

/-! The frames and the call sites that are open. -/

def Node.ownFrame? (library : Library) (node : Node) : Option String :=
  match node.role with
  | .block frame => frame.map (·.1)
  | .call | .source => some (node.calledFrame library)
  | _ => none

def openFrames (library : Library) (around : List Node) : List String :=
  (around.filterMap (·.ownFrame? library)).reverse

/-- An invocation in its place: the nodes above it in its script, the root left out and the
innermost first. -/
@[ext]
structure CallSite where
  node : Node
  above : List Node
  invokes : node.isInvocation = true

/-- The nodes that are open inside the innermost invocation. The main root, which is the last of
all, is left out. -/
def sinceInvoked (around : List Node) : List Node :=
  around.dropLast.takeWhile fun node => !node.isInvocation

def callSites : List Node → List CallSite
  | [] => []
  | node :: around =>
      if invokes : node.isInvocation then
        ⟨node, sinceInvoked around, invokes⟩ :: callSites around
      else callSites around

/-- Call sites of one construction number are the same, between two lists. -/
def SitesAgree (sites sites' : List CallSite) : Prop :=
  ∀ site ∈ sites, ∀ site' ∈ sites', site.node.id = site'.node.id → site = site'

namespace SitesAgree

variable {site site' : CallSite} {outer outer' : List CallSite}

theorem head (agree : SitesAgree (site :: outer) (site' :: outer'))
    (same : site.node.id = site'.node.id) : site = site' :=
  agree site (List.mem_cons_self ..) site' (List.mem_cons_self ..) same

theorem tail (agree : SitesAgree (site :: outer) (site' :: outer')) : SitesAgree outer outer' :=
  fun other member other' member' =>
    agree other (List.mem_cons_of_mem _ member) other' (List.mem_cons_of_mem _ member')

end SitesAgree

section

variable {library : Library} {main node site site' : Node} {around around' above : List Node}

theorem openFrames_append (above around : List Node) : openFrames library (above ++ around) =
    openFrames library around ++ openFrames library above := by
  rw [openFrames, List.filterMap_append, List.reverse_append]
  rfl

theorem Node.ownFrame?_of_invokes (invokes : site.isInvocation = true) :
    site.ownFrame? library = some (site.calledFrame library) := by
  unfold ownFrame?
  rw [isInvocation_eq, Bool.or_eq_true, decide_eq_true_eq, decide_eq_true_eq] at invokes
  rcases invokes with role | role <;> rw [role]

theorem openFrames_cons_site (invokes : site.isInvocation = true) (around : List Node) :
    openFrames library (site :: around) =
      openFrames library around ++ [site.calledFrame library] := by
  rw [openFrames, List.filterMap_cons_some (Node.ownFrame?_of_invokes invokes), List.reverse_cons]
  rfl

theorem sinceInvoked_main (blocks : ∀ passed ∈ above, passed.isInvocation = false) :
    sinceInvoked (above ++ [main]) = above := by
  rw [sinceInvoked, List.dropLast_concat]
  exact List.takeWhile_eq_self_iff.2 fun passed member => by simp [blocks passed member]

theorem sinceInvoked_inside (blocks : ∀ passed ∈ above, passed.isInvocation = false)
    (invokes : site.isInvocation = true) (around : List Node) :
    sinceInvoked (above ++ site :: around) = above := by
  rw [sinceInvoked, List.dropLast_append_of_ne_nil (List.cons_ne_nil site around),
    List.takeWhile_append_of_pos fun passed member => by simp [blocks passed member]]
  cases around <;> simp [invokes]

theorem callSites_cons_site (invokes : site.isInvocation = true) (around : List Node) :
    callSites (site :: around) = ⟨site, sinceInvoked around, invokes⟩ :: callSites around :=
  dif_pos invokes

theorem callSites_cons_plain (plain : node.isInvocation = false) (around : List Node) :
    callSites (node :: around) = callSites around := by
  simp [callSites, plain]

theorem callSites_append (blocks : ∀ passed ∈ above, passed.isInvocation = false)
    (around : List Node) : callSites (above ++ around) = callSites around := by
  induction above with
  | nil => rfl
  | cons passed above ih =>
      obtain ⟨plain, blocks⟩ := List.forall_mem_cons.1 blocks
      rw [List.cons_append, callSites_cons_plain plain, ih blocks]

end

/-! The frames of call sites. -/

namespace CallSite

def frames (library : Library) : List CallSite → List String
  | [] => []
  | site :: outer => frames library outer ++ openFrames library (site.node :: site.above)

variable {library : Library} {site site' : CallSite} {outer sites sites' : List CallSite}

theorem frames_cons (library : Library) (site : CallSite) (outer : List CallSite) :
    frames library (site :: outer) = frames library outer ++ openFrames library site.above ++
      [site.node.calledFrame library] := by
  rw [frames, openFrames_cons_site site.invokes, List.append_assoc]

theorem frames_ne_nil (library : Library) (site : CallSite) (outer : List CallSite) :
    frames library (site :: outer) ≠ [] := by
  rw [frames_cons]
  exact List.append_ne_nil_of_right_ne_nil _ (List.cons_ne_nil _ _)

theorem frames_injective (agree : SitesAgree sites sites')
    (same : frames library sites = frames library sites') : sites = sites' := by
  induction sites generalizing sites' with
  | nil =>
      cases sites' with
      | nil => rfl
      | cons site' outer' => exact absurd same.symm (frames_ne_nil library site' outer')
  | cons site outer ih =>
      cases sites' with
      | nil => exact absurd same (frames_ne_nil library site outer)
      | cons site' outer' =>
          rw [frames_cons, frames_cons] at same
          obtain ⟨before, last⟩ := List.append_inj' same rfl
          obtain rfl := agree.head (Node.id_eq_of_calledFrame (List.singleton_inj.1 last))
          rw [ih agree.tail (List.append_cancel_right before)]

theorem eq_of_nodes (agree : SitesAgree sites sites')
    (same : sites.map (·.node) = sites'.map (·.node)) : sites = sites' := by
  induction sites generalizing sites' with
  | nil => exact (List.map_eq_nil_iff.1 same.symm).symm
  | cons site outer ih =>
      obtain ⟨site', outer', rfl, node, nodes⟩ := List.map_eq_cons_iff.1 same.symm
      obtain rfl := agree.head (congrArg Node.id node.symm)
      rw [ih agree.tail nodes.symm]

end CallSite

def rootFrames (library : Library) (main : Node) : List String :=
  if main.isInvocation then [] else openFrames library [main]

namespace Stands

variable {library : Library} {main root node node' site site' : Node}
  {around around' above : List Node}

theorem callSites_top (plain : main.isInvocation = false) (invokes : site.isInvocation = true)
    (blocks : ∀ passed ∈ above, passed.isInvocation = false) :
    callSites (site :: (above ++ [main])) = [⟨site, above, invokes⟩] := by
  rw [callSites_cons_site invokes, callSites_append blocks, callSites_cons_plain plain]
  simp only [sinceInvoked_main blocks]
  rfl

theorem callSites_inside (invokes : site.isInvocation = true) (next : node.isInvocation = true)
    (blocks : ∀ passed ∈ above, passed.isInvocation = false) :
    callSites (node :: (above ++ site :: around)) =
      ⟨node, above, next⟩ :: callSites (site :: around) := by
  rw [callSites_cons_site next, callSites_append blocks]
  simp only [sinceInvoked_inside blocks invokes]

/-- The open frames at an invocation are those of the call sites, inside that of the main root. -/
theorem openFrames_eq (stands : Stands library main around site)
    (invokes : site.isInvocation = true) : openFrames library (site :: around) =
      rootFrames library main ++ CallSite.frames library (callSites (site :: around)) := by
  -- By induction on the invocations that are open around the site.
  induction stands with
  | main =>
      rw [rootFrames, if_pos invokes, callSites_cons_site invokes]
      rfl
  | @top site above plain way blocks =>
      rw [rootFrames, if_neg (Bool.not_eq_true _ ▸ plain), callSites_top plain invokes blocks,
        ← List.cons_append, openFrames_append]
      rfl
  | @inside outer next root site above stands invokes' known way blocks ih =>
      rw [callSites_inside invokes' invokes blocks, ← List.cons_append, openFrames_append,
        ih invokes', List.append_assoc]
      rfl

/-- The frames that are open say as much as the invocations that are, where numbers tell the call
sites. -/
theorem openFrames_eq_iff (stands : Stands library main around site)
    (stands' : Stands library main around' site') (invokes : site.isInvocation = true)
    (invokes' : site'.isInvocation = true)
    (agree : SitesAgree (callSites (site :: around)) (callSites (site' :: around'))) :
    openFrames library (site :: around) = openFrames library (site' :: around') ↔
      (callSites (site :: around)).map (·.node) = (callSites (site' :: around')).map (·.node) := by
  rw [stands.openFrames_eq invokes, stands'.openFrames_eq invokes', List.append_cancel_left_eq]
  constructor
  · intro same
    rw [CallSite.frames_injective agree same]
  · intro same
    rw [CallSite.eq_of_nodes agree same]

end Stands

/-! Construction numbers in the scripts. -/

/-- The places of invocations in the scripts have construction numbers of their own: no two places
in a script share one, and scripts with invocations of one number are the same. -/
structure Library.NumbersSites (library : Library) (main : Node) : Prop where
  within : ∀ root, library.Reaches main root →
    ((Node.invocations root.children).map (·.id)).Nodup
  across : ∀ root, library.Reaches main root → ∀ other, library.Reaches main other →
    ∀ site ∈ Node.invocations root.children, ∀ site' ∈ Node.invocations other.children,
      site.id = site'.id → root = other

namespace Stands

variable {library : Library} {main node node' : Node} {around around' : List Node}

/-- Each open call site is where it says in a script that the walk may come to. -/
theorem exists_way (stands : Stands library main around node) (plain : main.isInvocation = false) :
    ∀ site ∈ callSites (node :: around),
      ∃ root, library.Reaches main root ∧ root.Way (site.node :: site.above) := by
  induction stands with
  | main =>
      rw [callSites_cons_plain plain]
      nofun
  | @top node above _ way blocks =>
      cases invokes : node.isInvocation with
      | false =>
          rw [callSites_cons_plain invokes, callSites_append blocks, callSites_cons_plain plain]
          nofun
      | true =>
          rw [callSites_top plain invokes blocks]
          exact List.forall_mem_singleton.2 ⟨main, .inl rfl, way⟩
  | @inside outer next root node above _ invokes' known way blocks ih =>
      cases invokes : node.isInvocation with
      | false => rwa [callSites_cons_plain invokes, callSites_append blocks]
      | true =>
          rw [callSites_inside invokes' invokes blocks]
          exact List.forall_mem_cons.2 ⟨⟨root, known, way⟩, ih⟩

/-- Where places in the scripts have numbers of their own, so have the call sites of a walk. -/
theorem sitesAgree (stands : Stands library main around node)
    (stands' : Stands library main around' node') (plain : main.isInvocation = false)
    (numbers : library.NumbersSites main) :
    SitesAgree (callSites (node :: around)) (callSites (node' :: around')) := by
  intro site member site' member' same
  obtain ⟨root, known, way⟩ := stands.exists_way plain site member
  obtain ⟨root', known', way'⟩ := stands'.exists_way plain site' member'
  have inside := way.mem_invocations site.invokes
  have inside' := way'.mem_invocations site'.invokes
  obtain rfl := numbers.across root known root' known' _ inside _ inside' same
  have within := numbers.within root known
  exact CallSite.ext (List.inj_on_of_nodup_map within inside inside' same)
    (way.above_eq within way' site.invokes site'.invokes same)

end Stands

end Archetype
