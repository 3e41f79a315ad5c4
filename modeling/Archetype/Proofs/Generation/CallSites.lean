import Archetype.Proofs.Generation.Endings
import Archetype.Proofs.Generation.Passes
import Archetype.Proofs.Walk.Pushing

/-!
The scopes of invocations in a run. Over all three passes, two invocations enter the same scope
exactly if they are the same node in the same scope; where each invocation has a place of its own,
exactly if the chains of invocations that lead to them are the same.
-/

namespace Archetype

/-! The visitors of the passes do nothing where they enter an invocation. -/

theorem Node.kind_of_invokes {node : Node} (invokes : node.isInvocation = true) :
    node.kind = .invokeCall ∨ node.kind = .invokeSource := by
  simpa [isInvocation] using invokes

theorem Inputs.visitor_quiet {externals defaults : ValueTable} {resolver : Resolver ρ} :
    (visitor externals defaults resolver).Quiet := by
  intro node invokes c
  rcases Node.kind_of_invokes invokes with kind | kind <;>
    simp [visitor, kind, NodeKind.isInput] <;> rfl

theorem Assembly.visitor_quiet : Assembly.visitor.Quiet := by
  intro node invokes c
  rcases Node.kind_of_invokes invokes with kind | kind <;>
    simp [visitor, kind, NodeKind.isInput] <;> rfl

theorem Outputs.visitor_quiet : Outputs.visitor.Quiet := by
  intro node invokes c
  rcases Node.kind_of_invokes invokes with kind | kind <;> simp [visitor, kind] <;> rfl

namespace Generator

/-- The stops of the passes over a tree, as far as the run comes. -/
def stops (generator : Generator) (resolver : Resolver ρ) (limit : Nat) (root : Node)
    (resolving : ρ) : List Stop :=
  (Inputs.visitor generator.externals generator.defaults resolver).stops generator.library limit
      root ({}, resolving) ++
    match resolveInputs generator.externals generator.defaults resolver generator.library limit
        root ({}, resolving) with
    | some (.ok (), resolved, _) =>
        Assembly.visitor.stops generator.library limit root (resolved, {}) ++
          match assembleModel generator.library limit root resolved with
          | some (.ok _, assembled) =>
              Outputs.visitor.stops generator.library limit root (assembled, [])
          | _ => []
    | _ => []

/-- The stops at invocations, at each of which the frame of the invocation is entered. -/
def pushes (generator : Generator) (resolver : Resolver ρ) (limit : Nat) (root : Node)
    (resolving : ρ) : List Stop :=
  (generator.stops resolver limit root resolving).filter (·.node.isInvocation)

variable {generator : Generator} {resolver : Resolver ρ} {limit : Nat} {root : Node}
  {resolving : ρ}

/-- The scopes of all stops are found in one tree. -/
theorem stops_placed (generator : Generator) (resolver : Resolver ρ) (limit : Nat) (root : Node)
    (resolving : ρ) : ∃ known : ScopeTree, known.WellFormed ∧
      ∀ stop ∈ generator.stops resolver limit root resolving,
        stop.Placed generator.library root known := by
  obtain ⟨tree₁, wf₁, -, placed₁, ends₁⟩ := Visitor.stops_placed Inputs.visitor_extends
    Inputs.visitor_quiet generator.library limit root .init rfl resolving
  unfold stops
  split
  · next resolved _ resolves =>
    obtain ⟨rfl, closed₁⟩ := ends₁ _ _ (walk_of_resolveInputs resolves)
    obtain ⟨tree₂, wf₂, grows₂, placed₂, ends₂⟩ := Visitor.stops_placed
      Assembly.visitor_reads.extends Assembly.visitor_quiet generator.library limit root wf₁
      closed₁ {}
    split
    · next model assembled assembles =>
      obtain ⟨assembling, walks⟩ := walk_of_assembleModel assembles
      obtain ⟨rfl, closed₂⟩ := ends₂ _ _ walks
      obtain ⟨tree₃, wf₃, grows₃, placed₃, -⟩ := Visitor.stops_placed
        Outputs.visitor_reads.extends Outputs.visitor_quiet generator.library limit root wf₂
        closed₂ []
      refine ⟨tree₃, wf₃, List.forall_mem_append.2 ⟨fun stop member => ?_,
        List.forall_mem_append.2 ⟨fun stop member => ?_, placed₃⟩⟩⟩
      · exact (placed₁ stop member).mono wf₁ (grows₂.trans grows₃)
      · exact (placed₂ stop member).mono wf₂ grows₃
    · refine ⟨tree₂, wf₂, List.forall_mem_append.2 ⟨fun stop member => ?_, ?_⟩⟩
      · exact (placed₁ stop member).mono wf₁ grows₂
      · rwa [List.append_nil]
  · rw [List.append_nil]
    exact ⟨tree₁, wf₁, placed₁⟩

/-- Distinct invocations among pushes have distinct construction numbers. The same node may be in
more than one place. -/
def DistinctInvocations (pushes : List Stop) : Prop :=
  ∀ first ∈ pushes, ∀ second ∈ pushes, first.node.id = second.node.id → first.node = second.node

def DistinctSites (pushes : List Stop) : Prop :=
  ∀ first ∈ pushes, ∀ second ∈ pushes, SitesAgree first.sites second.sites

theorem DistinctSites.invocations
    (distinct : DistinctSites (generator.pushes resolver limit root resolving)) :
    DistinctInvocations (generator.pushes resolver limit root resolving) := by
  have own : ∀ push ∈ generator.pushes resolver limit root resolving,
      ∃ site ∈ push.sites, site.node = push.node := by
    intro push member
    have invokes := (List.mem_filter.1 member).2
    rw [Stop.sites, callSites_cons_site invokes]
    exact ⟨_, List.mem_cons_self .., rfl⟩
  intro first member second member' same
  obtain ⟨site, inside, node⟩ := own first member
  obtain ⟨site', inside', node'⟩ := own second member'
  rw [← node, ← node'] at same ⊢
  rw [distinct first member second member' site inside site' inside' same]

/-- Where places in the scripts at hand have numbers of their own, so have the call sites of every
run. -/
theorem distinctSites_of_numbers (plain : root.isInvocation = false)
    (numbers : generator.library.NumbersSites root) :
    DistinctSites (generator.pushes resolver limit root resolving) := by
  obtain ⟨known, -, placed⟩ := generator.stops_placed resolver limit root resolving
  have stands : ∀ push ∈ generator.pushes resolver limit root resolving,
      Stands generator.library root push.around push.node := fun push member =>
    (placed push (List.mem_filter.1 member).1).stands
  exact fun first member second member' =>
    (stands first member).sitesAgree (stands second member') plain numbers

/-- Invocation frames never alias. If distinct invocations of a run have distinct construction
numbers, two of them enter the same scope, in whichever passes, exactly if they are the same node in
the same scope. If moreover no invocation is in two places, it is the same scope exactly if the same
chain of invocations leads there. -/
theorem call_sites_never_alias (generator : Generator) (resolver : Resolver ρ) (limit : Nat)
    (root : Node) (resolving : ρ)
    (distinct : DistinctInvocations (generator.pushes resolver limit root resolving)) :
    ∀ first ∈ generator.pushes resolver limit root resolving,
      ∀ second ∈ generator.pushes resolver limit root resolving,
        (first.entered generator.library = second.entered generator.library ↔
          first.node = second.node ∧ first.scope = second.scope) ∧
        (DistinctSites (generator.pushes resolver limit root resolving) →
          (first.entered generator.library = second.entered generator.library ↔
            first.chain = second.chain)) := by
  obtain ⟨known, wf, placed⟩ := generator.stops_placed resolver limit root resolving
  intro first member second member'
  obtain ⟨stopped, invokes⟩ := List.mem_filter.1 member
  obtain ⟨stopped', invokes'⟩ := List.mem_filter.1 member'
  have here := placed first stopped
  have there := placed second stopped'
  obtain ⟨inside, route⟩ := here.entered invokes
  obtain ⟨inside', route'⟩ := there.entered invokes'
  obtain ⟨scopeInside, scopeRoute⟩ := here.scope invokes
  obtain ⟨scopeInside', scopeRoute'⟩ := there.scope invokes'
  -- Scopes are the same exactly if the same names of frames lead to them.
  have entered : first.entered generator.library = second.entered generator.library ↔
      openFrames generator.library (first.node :: first.around) =
        openFrames generator.library (second.node :: second.around) := by
    rw [← route, ← route']
    exact ⟨congrArg _, ScopeTree.route_injective wf inside inside'⟩
  have scope : first.scope = second.scope ↔ openFrames generator.library first.around =
      openFrames generator.library second.around := by
    rw [← scopeRoute, ← scopeRoute']
    exact ⟨congrArg _, ScopeTree.route_injective wf scopeInside scopeInside'⟩
  refine ⟨?_, fun sites => ?_⟩
  · rw [entered, scope, openFrames_cons_site invokes, openFrames_cons_site invokes']
    constructor
    · intro same
      obtain ⟨frames, last⟩ := List.append_inj' same rfl
      have ids := Node.id_eq_of_calledFrame (List.singleton_inj.1 last)
      exact ⟨distinct first member second member' ids, frames⟩
    · rintro ⟨node, frames⟩
      rw [node, frames]
  · rw [entered]
    exact here.stands.openFrames_eq_iff there.stands invokes invokes'
      (sites first member second member')

def clashingSource : Script where
  identity := "a/b"
  root := .bare 31 .script []
    [.bare 30 .inputText [("name", .string "y"), ("default", .string "d")] []]

/-- Two methods whose names become the same, called from the root, from inside each other and from
inside a step that has the name of a frame, and a source whose frame goes by that name too. -/
def clashingCalls : Generator where
  script := .ofRoot <| .bare 20 .script []
    [.bare 11 .method [("name", .string "a b")]
      [.bare 1 .inputText [("name", .string "x"), ("default", .string "d")] []],
      .bare 12 .method [("name", .string "a_b")] [.bare 2 .invokeCall [("name", .string "a b")] []],
      .bare 3 .invokeCall [("name", .string "a b")] [],
      .bare 4 .invokeCall [("name", .string "a_b")] [],
      .bare 6 .step [("name", .string "a_b#3")] [.bare 5 .invokeCall [("name", .string "a_b")] []],
      .bare 7 .invokeSource [("src", .string "a/b")] []]
  library := .ofScripts [clashingSource]

theorem reaches_clashingCalls {root : Node}
    (known : clashingCalls.library.Reaches clashingCalls.script.root root) :
    root ∈ [clashingCalls.script.root, clashingSource.root] := by
  rcases known with rfl | ⟨src, script, loads, rfl⟩
  · exact List.mem_cons_self ..
  · have member : script ∈ [clashingSource] := Library.mem_scripts loads
    rw [List.mem_singleton.1 member]
    exact List.mem_cons_of_mem _ (List.mem_cons_self ..)

theorem numbersSites_clashingCalls :
    clashingCalls.library.NumbersSites clashingCalls.script.root := by
  have within : ∀ root ∈ [clashingCalls.script.root, clashingSource.root],
      ((Node.invocations root.children).map (·.id)).Nodup := by decide +kernel
  have apart : Node.invocations clashingSource.root.children = [] := by rfl
  constructor
  case within => exact fun root known => within root (reaches_clashingCalls known)
  case across =>
    intro root known other known' site member site' member' _
    have known := reaches_clashingCalls known
    have known' := reaches_clashingCalls known'
    simp only [List.mem_cons, List.not_mem_nil, or_false] at known known'
    rcases known with rfl | rfl
    · rcases known' with rfl | rfl
      · rfl
      · rw [apart] at member'
        cases member'
    · rw [apart] at member
      cases member

/-- Six invocations enter six scopes, the same in each of the passes. -/
theorem call_sites_never_alias_of_clashing_names :
    let pushes := clashingCalls.pushes .batch 4 clashingCalls.script.root ()
    DistinctInvocations pushes ∧ DistinctSites pushes ∧
      pushes.map (fun push =>
          (push.node.id.number, push.scope, push.entered clashingCalls.library)) =
        (List.replicate 3
          [(3, 0, 1), (4, 0, 3), (2, 3, 4), (5, 1, 6), (2, 6, 7), (7, 0, 9)]).flatten ∧
      ∀ first ∈ pushes, ∀ second ∈ pushes,
        (first.entered clashingCalls.library = second.entered clashingCalls.library ↔
          first.node = second.node ∧ first.scope = second.scope) ∧
        (first.entered clashingCalls.library = second.entered clashingCalls.library ↔
          first.chain = second.chain) := by
  intro pushes
  have sites : DistinctSites pushes := distinctSites_of_numbers rfl numbersSites_clashingCalls
  refine ⟨sites.invocations, sites, by decide +kernel, fun first member second member' => ?_⟩
  obtain ⟨same, alike⟩ := call_sites_never_alias clashingCalls .batch 4 clashingCalls.script.root ()
    sites.invocations first member second member'
  exact ⟨same, alike sites⟩

end Generator

end Archetype
