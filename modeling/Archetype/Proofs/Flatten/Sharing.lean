import Archetype.Proofs.Flatten.Exploring

/-!
Where shared bodies come from, whatever they are named after and whether or not scripts share
identities: each is the body of a script at hand or of a method that one of them declares. A scan
builds no nodes, so it does not fail as building does.
-/

namespace Archetype

open Stateful

inductive Script.Shares (script : Script) : List Node → Prop
  | body : script.Shares script.root.body
  | method (declared : method ∈ script.root.methods) : script.Shares method.children

def CompileError.isConstruction : CompileError → Bool
  | .construction _ => true
  | _ => false

namespace Scan

structure State.Shares (scripts : List Script) (s : State) : Prop where
  bodies : ∀ body ∈ s.table.bodies, ∃ script ∈ scripts, script.Shares body.nodes
  declared : ∀ entry ∈ s.declared, ∃ script ∈ scripts, entry.2 ∈ script.root.methods

def KeepsShares (scripts : List Script) (work : Scan Unit) : Prop :=
  ∀ s : State, s.Shares scripts →
    Ensures work s (fun _ s' => s'.Shares scripts) fun error => error.isConstruction = false

variable {library : Library} {filter : Node → Bool} {scripts : List Script} {hideNames : Bool}
  {script : Script} {nodes : List Node}

namespace KeepsShares

theorem idle : KeepsShares scripts (pure ()) := fun _ shares => ensures_pure shares

theorem bind {first second : Scan Unit} (left : KeepsShares scripts first)
    (right : KeepsShares scripts second) :
    KeepsShares scripts (first >>= fun _ => second) :=
  fun s shares => ensures_bind (left s shares) fun _ between kept => right between kept

end KeepsShares

theorem State.Shares.recount {s : State} (shares : s.Shares scripts) (callee : Callee) :
    State.Shares scripts { s with table := s.table.recount callee } where
  bodies body member := by
    obtain ⟨count, old⟩ := mem_recount member
    have known := shares.bodies _ old
    exact known
  declared := shares.declared

theorem State.Shares.add {s : State} (shares : s.Shares scripts) {new : SharedBody}
    (known : ∃ script ∈ scripts, script.Shares new.nodes) :
    State.Shares scripts
      { s with table := { s.table with bodies := s.table.bodies ++ [new] } } where
  bodies body member := by
    rcases List.mem_append.1 member with member | member
    · exact shares.bodies body member
    · rw [List.mem_singleton.1 member]
      exact known
  declared := shares.declared

theorem keepsShares_noteMethod (known : script ∈ scripts) {method : Node}
    (declared : method ∈ script.root.methods) : KeepsShares scripts (noteMethod script method) := by
  intro s shares
  unfold noteMethod
  cases method.name? with
  | none => exact ensures_pure shares
  | some name =>
      refine ensures_modify ?_
      cases there : s.declared.lookup (script.identity, name) with
      | some first =>
          simp only [there]
          exact shares
      | none =>
          simp only [there]
          exact { shares with
            declared := List.forall_mem_cons.2 ⟨⟨script, known, declared⟩, shares.declared⟩ }

theorem keepsShares_declareMethods (known : script ∈ scripts) :
    KeepsShares scripts (declareMethods script) := by
  suffices all : ∀ methods : List Node, (∀ method ∈ methods, method ∈ script.root.methods) →
      KeepsShares scripts (methods.forM (noteMethod script)) from all _ fun _ member => member
  intro methods
  induction methods with
  | nil => exact fun _ => .idle
  | cons method rest ih =>
      intro declared
      obtain ⟨here, later⟩ := List.forall_mem_cons.1 declared
      exact .bind (keepsShares_noteMethod known here) (ih later)

theorem ensures_nameBody_shares (base : String) {s : State} (shares : s.Shares scripts) :
    Ensures (nameBody hideNames base) s (fun _ s' => s'.Shares scripts)
      fun error => error.isConstruction = false := by
  unfold nameBody
  refine ensures_get_bind ?_
  cases hideNames with
  | true => exact ensures_pure shares
  | false => exact ensures_set_bind (ensures_pure ⟨shares.bodies, shares.declared⟩)

variable {stack : List Callee} {scanNodes : List Callee → Script → List Node → Scan Unit}

theorem keepsShares_enter
    (inner : ∀ stack script nodes, script ∈ scripts →
      KeepsShares scripts (scanNodes stack script nodes))
    (known : script ∈ scripts) (shared : ∃ script ∈ scripts, script.Shares nodes)
    (callee : Callee) (base : String) :
    KeepsShares scripts (enter hideNames stack scanNodes callee base script nodes) := by
  intro s shares
  unfold enter
  by_cases member : callee ∈ stack
  · simp only [member, if_true]
    exact ensures_throw_bind rfl
  simp only [member, if_false]
  refine ensures_get_bind ?_
  cases s.table.body? callee with
  | some other => exact ensures_modify (shares.recount callee)
  | none =>
      refine ensures_bind (ensures_nameBody_shares base shares) fun canonical named shares => ?_
      refine ensures_modify_bind ?_
      have added := @State.Shares.add _ _ shares ⟨callee, canonical, 1, script, nodes⟩ shared
      have below := inner (callee :: stack) script nodes known
      cases callee with
      | script identity => exact (keepsShares_declareMethods known).bind below _ added
      | method owner name => exact below _ added

theorem keepsShares_source
    (inner : ∀ stack script nodes, script ∈ scripts →
      KeepsShares scripts (scanNodes stack script nodes))
    (loads : ∀ src target, library.load src = .ok target → target ∈ scripts) (src : String) :
    KeepsShares scripts (source library (enter hideNames stack scanNodes) src) := by
  intro s shares
  unfold source
  cases loaded : library.load src with
  | error error => exact ensures_throw rfl
  | ok target =>
      have known := loads src target loaded
      refine ensures_modify_bind ?_
      exact keepsShares_enter inner known ⟨target, known, .body⟩ _ _ _
        ⟨shares.bodies, shares.declared⟩

theorem keepsShares_call
    (inner : ∀ stack script nodes, script ∈ scripts →
      KeepsShares scripts (scanNodes stack script nodes))
    (known : script ∈ scripts) (name : String) :
    KeepsShares scripts (call (enter hideNames stack scanNodes) script name) := by
  intro s shares
  unfold call
  refine ensures_get_bind ?_
  cases found : s.declared.lookup (script.identity, name) with
  | none => exact ensures_throw rfl
  | some method =>
      -- The method may be one of another script with the same identity.
      obtain ⟨before, after, split, -⟩ := List.lookup_eq_some_iff.1 found
      obtain ⟨owner, owned, declared⟩ := shares.declared ((script.identity, name), method)
        (split ▸ List.mem_append_right _ (List.mem_cons_self ..))
      exact keepsShares_enter inner known ⟨owner, owned, .method declared⟩ _ _ s shares

theorem keepsShares_scanNodes
    (loads : ∀ src target, library.load src = .ok target → target ∈ scripts) (limit : Nat) :
    ∀ stack script nodes, script ∈ scripts →
      KeepsShares scripts (Scan.scanNodes library filter hideNames limit stack script nodes) := by
  induction limit with
  | zero => exact fun _ _ _ _ _ _ => ensures_throw rfl
  | succ limit ih =>
      intro stack script nodes known
      exact nodes_of_invocations .idle .bind (keepsShares_source ih loads)
        (keepsShares_call ih known) nodes

end Scan

open Scan in
/-- All bodies of a call table are the scripts' own, and a scan that fails has built nothing. -/
theorem CallTable.ofScript_shares (library : Library) (filter : Node → Bool) (hideNames : Bool)
    (script : Script) :
    match CallTable.ofScript library filter hideNames script with
    | .ok table => ∀ body ∈ table.bodies,
        ∃ source ∈ script :: library.scripts, source.Shares body.nodes
    | .error error => error.isConstruction = false := by
  have known : script ∈ script :: library.scripts := List.mem_cons_self ..
  have loads : ∀ src target, library.load src = .ok target → target ∈ script :: library.scripts :=
    fun _ _ loads => List.mem_cons_of_mem _ (Library.mem_scripts loads)
  have scanned := (keepsShares_declareMethods known).bind
    (@keepsShares_scanNodes _ filter _ hideNames loads (nestingBound library script) [] script
      script.root.children known) {} ⟨nofun, nofun⟩
  unfold CallTable.ofScript
  simp only
  generalize (do
    declareMethods script
    Scan.scanNodes library filter hideNames (nestingBound library script) [] script
      script.root.children : Scan Unit) = scan at scanned
  cases outcome : scan.run {} with
  | ok pair => exact (scanned.of_ok outcome).bodies
  | error error => exact scanned.of_error outcome

end Archetype
