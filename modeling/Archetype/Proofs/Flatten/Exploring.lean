import Archetype.Proofs.Flatten.CallGraph
import Archetype.Proofs.Walk.Entered

/-!
The scan as a depth-first search of the graph of bodies. Bodies that are scanned to the end are
settled, those still being scanned are on the stack, and a body that is invoked while it is on the
stack lies on a cycle.
-/

namespace Archetype

open Relation (ReflTransGen TransGen)
open Stateful

namespace Scan

def State.Named (s : State) : Bool → Prop
  | false => (s.table.bodies.map (·.canonical)).Nodup ∧
      ∀ body ∈ s.table.bodies, body.canonical ∈ s.used
  | true => s.table.bodies.map (·.canonical) = (List.range s.table.bodies.length).map toString

/-- The methods at hand are declared by the scripts, each as the first of its name. -/
def State.Declares (scripts : List Script) (s : State) : Prop :=
  ∀ identity name method, s.declared.lookup (identity, name) = some method →
    ∃ script ∈ scripts, script.identity = identity ∧
      script.root.methods.find? (·.name? = some name) = some method

structure State.Explored (library : Library) (filter : Node → Bool) (scripts : List Script)
    (hideNames : Bool) (stack done : List Callee) (s : State) : Prop where
  bodies : ∀ body ∈ s.table.bodies, body.callee.body? scripts = some (body.script, body.nodes)
  sources : ∀ src identity, (src, identity) ∈ s.table.sources →
    ∃ target, library.load src = .ok target ∧ target.identity = identity
  declares : s.Declares scripts
  named : s.Named hideNames
  entered : ∀ callee, callee ∈ stack ++ done ↔ ∃ body ∈ s.table.bodies, body.callee = callee
  distinct : (stack ++ done).Nodup
  settled : Settled (Invokes library filter scripts) done

/-- An error of a search: if it reports a body, then one that is reached, and that is on the stack
or on a cycle. -/
structure Fault (library : Library) (filter : Node → Bool) (scripts : List Script)
    (stack : List Callee) (leads : Callee → Prop) (error : CompileError) : Prop where
  bounded : error ≠ .nestedTooDeeply
  recursive : ∀ callee, error = .recursiveInvocation callee → ∃ first, leads first ∧
    ReflTransGen (Invokes library filter scripts) first callee ∧
      (callee ∈ stack ∨ TransGen (Invokes library filter scripts) callee callee)

/-- Work that searches all that is led to, and is done with it in the end. -/
def Explores (library : Library) (filter : Node → Bool) (scripts : List Script) (hideNames : Bool)
    (stack : List Callee) (leads : Callee → Prop) (work : Scan Unit) : Prop :=
  ∀ s done, s.Explored library filter scripts hideNames stack done →
    Ensures work s
      (fun _ s' => ∃ done', s'.Explored library filter scripts hideNames stack done' ∧
        done ⊆ done' ∧ ∀ callee, leads callee → callee ∈ done')
      (Fault library filter scripts stack leads)

variable {library : Library} {filter : Node → Bool} {scripts : List Script} {hideNames : Bool}
  {stack done : List Callee} {script : Script} {nodes : List Node}

/-! Names. -/

theorem State.Named.nodup {s : State} (named : s.Named hideNames) :
    (s.table.bodies.map (·.canonical)).Nodup := by
  cases hideNames with
  | false => exact named.1
  | true =>
      rw [show s.table.bodies.map (·.canonical) = _ from named]
      exact List.pairwise_map.2 (List.nodup_range.imp fun differ same =>
        differ (toString_injective same))

theorem State.Named.congr {s s' : State} (named : s.Named hideNames) (table : s'.table = s.table)
    (used : s'.used = s.used) : s'.Named hideNames := by
  cases hideNames <;> simpa only [State.Named, table, used] using named

theorem State.Named.recount {s : State} (named : s.Named hideNames) (callee : Callee) :
    State.Named { s with table := s.table.recount callee } hideNames := by
  have same : (s.table.recount callee).bodies.map (·.canonical) =
      s.table.bodies.map (·.canonical) := by
    simp only [CallTable.recount, List.map_map]
    refine List.map_congr_left fun body _ => ?_
    simp only [Function.comp_apply]
    split <;> rfl
  cases hideNames with
  | true =>
      have length : (s.table.recount callee).bodies.length = s.table.bodies.length := by
        simp [CallTable.recount]
      simp only [State.Named, same, length]
      exact named
  | false =>
      refine ⟨same ▸ named.1, fun body member => ?_⟩
      obtain ⟨count, old⟩ := mem_recount member
      have used := named.2 _ old
      exact used

theorem ensures_nameBody {base : String} {s : State} (named : s.Named hideNames)
    (may : CompileError → Prop) :
    Ensures (nameBody hideNames base) s
      (fun name s' => s'.table = s.table ∧ s'.declared = s.declared ∧
        ∀ body : SharedBody, body.canonical = name → State.Named
          { s' with table := { s'.table with bodies := s'.table.bodies ++ [body] } } hideNames)
      may := by
  unfold nameBody
  refine ensures_get_bind ?_
  cases hideNames with
  | true =>
      refine ensures_pure ⟨rfl, rfl, fun body numbered => ?_⟩
      have named : s.table.bodies.map (·.canonical) = _ := named
      simp only [State.Named, List.map_append, List.map_singleton, numbered, named,
        List.length_append, List.length_singleton, List.range_succ]
  | false =>
      obtain ⟨distinct, used⟩ := named
      refine ensures_set_bind (ensures_pure ⟨rfl, rfl, fun body fresh => ⟨?_, ?_⟩⟩)
      · rw [List.map_append, List.map_singleton]
        refine List.nodup_append.2 ⟨distinct, List.nodup_cons.2 ⟨List.not_mem_nil, .nil⟩, ?_⟩
        rintro name member _ single rfl
        obtain ⟨other, inside, same⟩ := List.mem_map.1 member
        have taken := used other inside
        rw [same, List.mem_singleton.1 single, fresh] at taken
        exact freshName_not_mem _ _ taken
      · intro other member
        rcases List.mem_append.1 member with member | member
        · exact List.mem_cons_of_mem _ (used other member)
        · rw [List.mem_singleton.1 member, fresh]
          exact List.mem_cons_self ..

/-! Methods. -/

def noteMethod (script : Script) (method : Node) : Scan Unit :=
  match method.name? with
  | none => pure ()
  | some name => modify fun state =>
      let key := (script.identity, name)
      match state.declared.lookup key with
      | some _ => state
      | none => { state with declared := (key, method) :: state.declared }

def State.Notes (script : Script) (methods : List Node) (s : State) : Prop :=
  ∀ method ∈ methods, ∀ name, method.name? = some name →
    s.declared.lookup (script.identity, name) ≠ none

/-- A name that is not noted after the methods before it is a first one. -/
theorem ensures_noteMethod (known : script ∈ scripts) {passed rest : List Node} {method : Node}
    (split : script.root.methods = passed ++ method :: rest) {s : State}
    (correct : s.Declares scripts) (noted : s.Notes script passed) (may : CompileError → Prop) :
    Ensures (noteMethod script method) s
      (fun _ s' => s'.table = s.table ∧ s'.used = s.used ∧ s'.Declares scripts ∧
        s'.Notes script (passed ++ [method])) may := by
  unfold noteMethod
  cases named : method.name? with
  | none =>
      refine ensures_pure ⟨rfl, rfl, correct, fun other member name named' => ?_⟩
      rcases List.mem_append.1 member with member | member
      · exact noted other member name named'
      · rw [List.mem_singleton.1 member, named] at named'
        cases named'
  | some name =>
      refine ensures_modify ?_
      cases there : s.declared.lookup (script.identity, name) with
      | some first =>
          simp only [there]
          refine ⟨trivial, trivial, correct, fun other member name' named' => ?_⟩
          rcases List.mem_append.1 member with member | member
          · exact noted other member name' named'
          · rw [List.mem_singleton.1 member, named] at named'
            cases named'
            simp [there]
      | none =>
          simp only [there]
          have first : script.root.methods.find? (·.name? = some name) = some method := by
            rw [split, List.find?_append]
            have fresh : passed.find? (·.name? = some name) = none :=
              List.find?_eq_none.2 fun other member same =>
                noted other member name (by simpa using same) there
            rw [fresh, List.find?_cons_of_pos (by simpa using named)]
            rfl
          refine ⟨trivial, trivial, fun identity name' method' found => ?_,
            fun other member name' named' => ?_⟩
          · rw [List.lookup_cons] at found
            split at found
            · next same =>
                obtain ⟨rfl, rfl⟩ := Prod.mk.inj (eq_of_beq same)
                cases found
                exact ⟨script, known, rfl, first⟩
            · exact correct identity name' method' found
          · rw [List.lookup_cons]
            split
            · simp
            · next other' =>
                rcases List.mem_append.1 member with member | member
                · exact noted other member name' named'
                · rw [List.mem_singleton.1 member, named] at named'
                  cases named'
                  simp at other'

theorem ensures_noteMethods (known : script ∈ scripts) {rest : List Node}
    (may : CompileError → Prop) :
    ∀ {passed : List Node} {s : State}, script.root.methods = passed ++ rest →
      s.Declares scripts → s.Notes script passed →
      Ensures (rest.forM (noteMethod script)) s
        (fun _ s' => s'.table = s.table ∧ s'.used = s.used ∧ s'.Declares scripts ∧
          s'.Notes script script.root.methods) may := by
  induction rest with
  | nil =>
      intro passed s split correct noted
      rw [List.append_nil] at split
      exact ensures_pure ⟨rfl, rfl, correct, split ▸ noted⟩
  | cons method rest ih =>
      intro passed s split correct noted
      refine ensures_bind (ensures_noteMethod known split correct noted may) ?_
      rintro _ s' ⟨table, used, correct, noted⟩
      rw [← table, ← used]
      exact ih (by rw [split, List.append_assoc, List.singleton_append]) correct noted

theorem ensures_declareMethods (known : script ∈ scripts) {s : State} (correct : s.Declares scripts)
    (may : CompileError → Prop) :
    Ensures (declareMethods script) s
      (fun _ s' => s'.table = s.table ∧ s'.used = s.used ∧ s'.Declares scripts ∧
        s'.Notes script script.root.methods) may :=
  ensures_noteMethods known may (List.nil_append _).symm correct fun _ member =>
    absurd member List.not_mem_nil

/-! Putting searches together. -/

namespace Fault

variable {leads more : Callee → Prop} {error : CompileError}

theorem mono (subset : ∀ callee, leads callee → more callee)
    (fault : Fault library filter scripts stack leads error) :
    Fault library filter scripts stack more error where
  bounded := fault.bounded
  recursive callee same := by
    obtain ⟨first, led, steps, cyclic⟩ := fault.recursive callee same
    exact ⟨first, subset first led, steps, cyclic⟩

theorem of_other (bounded : error ≠ .nestedTooDeeply)
    (other : ∀ callee, error ≠ .recursiveInvocation callee) :
    Fault library filter scripts stack leads error :=
  ⟨bounded, fun callee same => absurd same (other callee)⟩

/-- An error inside a body: what is reported is on the stack, or on a cycle through the body. -/
theorem of_inner {callee : Callee} (led : leads callee)
    (inner : Fault library filter scripts (callee :: stack)
      (Invokes library filter scripts callee) error) :
    Fault library filter scripts stack leads error where
  bounded := inner.bounded
  recursive reported same := by
    obtain ⟨first, step, steps, cyclic⟩ := inner.recursive reported same
    refine ⟨callee, led, .head step steps, ?_⟩
    rcases cyclic with member | cycle
    · rcases List.mem_cons.1 member with rfl | member
      · exact .inr (.head' step steps)
      · exact .inl member
    · exact .inr cycle

end Fault

namespace Explores

variable {leads more : Callee → Prop} {work : Scan Unit}

theorem idle : Explores library filter scripts hideNames stack (fun _ => False) (pure ()) :=
  fun _ done explored => ensures_pure ⟨done, explored, List.Subset.refl _, fun _ => False.elim⟩

theorem of_iff (same : ∀ callee, more callee ↔ leads callee)
    (explores : Explores library filter scripts hideNames stack leads work) :
    Explores library filter scripts hideNames stack more work := by
  intro s done explored
  refine (explores s done explored).imp ?_ fun _ fault => fault.mono fun c => (same c).2
  rintro _ s' ⟨done', explored', larger, led⟩
  exact ⟨done', explored', larger, fun callee here => led callee ((same callee).1 here)⟩

theorem bind {next : Scan Unit} (first : Explores library filter scripts hideNames stack leads work)
    (rest : Explores library filter scripts hideNames stack more next) :
    Explores library filter scripts hideNames stack (fun callee => leads callee ∨ more callee)
      (work >>= fun _ => next) := by
  intro s done explored
  refine ensures_bind ((first s done explored).imp (fun _ _ good => good) fun _ fault =>
    fault.mono fun _ => .inl) ?_
  rintro _ s' ⟨done', explored', larger, led⟩
  refine (rest s' done' explored').imp ?_ fun _ fault => fault.mono fun _ => .inr
  rintro _ s'' ⟨done'', explored'', larger', led'⟩
  exact ⟨done'', explored'', List.Subset.trans larger larger', fun callee here =>
    here.elim (fun here => larger' (led callee here)) (led' callee)⟩

end Explores

/-! Bodies. -/

theorem State.Explored.recount {s : State}
    (explored : s.Explored library filter scripts hideNames stack done) (callee : Callee) :
    State.Explored library filter scripts hideNames stack done
      { s with table := s.table.recount callee } where
  bodies body member := by
    obtain ⟨count, old⟩ := mem_recount member
    have found := explored.bodies _ old
    exact found
  sources := explored.sources
  declares := explored.declares
  named := explored.named.recount callee
  entered other := by
    rw [explored.entered other]
    constructor
    · rintro ⟨body, member, rfl⟩
      refine ⟨_, List.mem_map_of_mem member, ?_⟩
      split <;> rfl
    · rintro ⟨body, member, rfl⟩
      obtain ⟨count, old⟩ := mem_recount member
      exact ⟨_, old, rfl⟩
  distinct := explored.distinct
  settled := explored.settled

theorem State.Explored.push {s s' : State} {callee : Callee} {new : SharedBody}
    (explored : s.Explored library filter scripts hideNames stack done)
    (absent : s.table.body? callee = none) (callee_eq : new.callee = callee)
    (known : callee.body? scripts = some (new.script, new.nodes))
    (bodies : s'.table.bodies = s.table.bodies ++ [new])
    (sources : s'.table.sources = s.table.sources) (declares : s'.Declares scripts)
    (named : s'.Named hideNames) :
    s'.Explored library filter scripts hideNames (callee :: stack) done where
  bodies body member := by
    rw [bodies] at member
    rcases List.mem_append.1 member with old | here
    · exact explored.bodies body old
    · rw [List.mem_singleton.1 here, callee_eq, known]
  sources := sources ▸ explored.sources
  declares := declares
  named := named
  entered other := by
    rw [List.cons_append, List.mem_cons, explored.entered other, bodies]
    simp only [List.mem_append, List.mem_singleton]
    constructor
    · rintro (rfl | ⟨body, member, rfl⟩)
      · exact ⟨new, .inr rfl, callee_eq⟩
      · exact ⟨body, .inl member, rfl⟩
    · rintro ⟨body, member | rfl, rfl⟩
      · exact .inr ⟨body, member, rfl⟩
      · exact .inl callee_eq
  distinct := by
    refine List.nodup_cons.2 ⟨fun member => ?_, explored.distinct⟩
    obtain ⟨body, member, same⟩ := (explored.entered callee).1 member
    exact List.find?_eq_none.1 absent body member (decide_eq_true same)
  settled := explored.settled

theorem State.Explored.pop {s : State} {callee : Callee}
    (explored : s.Explored library filter scripts hideNames (callee :: stack) done)
    (invoked : ∀ next, Invokes library filter scripts callee next → next ∈ done) :
    s.Explored library filter scripts hideNames stack (callee :: done) :=
  { explored with
    entered := fun other => by
      rw [← explored.entered other]
      simp only [List.cons_append, List.mem_cons, List.mem_append]
      exact or_left_comm
    distinct := List.perm_middle.nodup_iff.2 explored.distinct
    settled := .cons invoked explored.settled }

variable {scanNodes : List Callee → Script → List Node → Scan Unit}

theorem explores_enter {callee : Callee} {base : String} (known : script ∈ scripts)
    (body : callee.body? scripts = some (script, nodes))
    (inner : Explores library filter scripts hideNames (callee :: stack)
      (Leads library filter script nodes) (scanNodes (callee :: stack) script nodes)) :
    Explores library filter scripts hideNames stack (· = callee)
      (enter hideNames stack scanNodes callee base script nodes) := by
  intro s done explored
  have invokes : ∀ next, Invokes library filter scripts callee next ↔
      Leads library filter script nodes next := by
    intro next
    constructor
    · rintro ⟨script', nodes', found, leads⟩
      obtain ⟨rfl, rfl⟩ := Prod.mk.inj (Option.some.inj (body.symm.trans found))
      exact leads
    · exact fun leads => ⟨script, nodes, body, leads⟩
  have finish : ∀ s', s'.Explored library filter scripts hideNames (callee :: stack) done →
      Ensures (scanNodes (callee :: stack) script nodes) s'
        (fun _ s'' => ∃ done', s''.Explored library filter scripts hideNames stack done' ∧
          done ⊆ done' ∧ ∀ other, other = callee → other ∈ done')
        (Fault library filter scripts stack (· = callee)) := by
    intro s' pushed
    refine (inner s' done pushed).imp ?_ fun _ fault =>
      .of_inner rfl (fault.mono fun next leads => (invokes next).2 leads)
    rintro _ s'' ⟨done', explored', larger, led⟩
    refine ⟨callee :: done', explored'.pop fun next step => led next ((invokes next).1 step),
      List.subset_cons_of_subset _ larger, ?_⟩
    rintro _ rfl
    exact List.mem_cons_self ..
  unfold enter
  by_cases member : callee ∈ stack
  · simp only [member, if_true]
    refine ensures_throw_bind ⟨CompileError.noConfusion, fun reported same => ?_⟩
    cases same
    exact ⟨callee, rfl, .refl, .inl member⟩
  simp only [member, if_false]
  refine ensures_get_bind ?_
  cases found : s.table.body? callee with
  | some other =>
      refine ensures_modify ⟨done, explored.recount callee, List.Subset.refl _, ?_⟩
      have same := List.find?_some found
      have entered := (explored.entered callee).2
        ⟨other, List.mem_of_find?_eq_some found, of_decide_eq_true same⟩
      rintro _ rfl
      exact (List.mem_append.1 entered).resolve_left member
  | none =>
      refine ensures_bind (ensures_nameBody explored.named _) ?_
      rintro canonical named ⟨table, declared, fresh⟩
      refine ensures_modify_bind ?_
      have declares : ∀ table', State.Declares scripts { named with table := table' } := by
        intro table' identity name method noted
        simp only [declared] at noted
        exact explored.declares identity name method noted
      have pushed := fun s' bodies sources declares named' =>
        @State.Explored.push _ _ _ _ _ _ s s' callee ⟨callee, canonical, 1, script, nodes⟩
          explored found rfl body bodies sources declares named'
      cases callee with
      | script identity =>
          refine ensures_bind (ensures_declareMethods known (declares _) _) ?_
          rintro _ s' ⟨table', used, declares', -⟩
          exact finish s' (pushed s' (by rw [table', table]) (by rw [table', table]) declares'
            ((fresh _ rfl).congr table' used))
      | method owner name =>
          exact finish _ (pushed _ (by rw [table]) (by rw [table]) (declares _) (fresh _ rfl))

/-! Nodes. -/

theorem explores_source (atHand : AtHand library scripts) (script : Script) {node : Node}
    (role : node.role = .source)
    (inner : ∀ {callee script nodes}, script ∈ scripts →
      Explores library filter scripts hideNames (callee :: stack)
        (Leads library filter script nodes) (scanNodes (callee :: stack) script nodes)) :
    Explores library filter scripts hideNames stack
      (fun callee => node.callee? library script = some callee)
      (source library (enter hideNames stack scanNodes) node.origin) := by
  unfold source
  cases loaded : library.load node.origin with
  | error error =>
      exact fun _ _ _ => ensures_throw (.of_other CompileError.noConfusion fun _ =>
        CompileError.noConfusion)
  | ok target =>
      intro s done explored
      refine ensures_modify_bind ?_
      have known := atHand.loads _ _ loaded
      have leads : node.callee? library script = some (.script target.identity) := by
        simp [Node.callee?, role, loaded, Except.toOption]
      have entered := @explores_enter _ _ _ hideNames stack _ _ _ _ target.name known
        (Callee.body?_script atHand.distinct known) (inner known)
      refine entered.of_iff (fun callee => ?_) _ done { explored with sources := ?_ }
      · rw [leads, Option.some.injEq, eq_comm]
      · intro src identity member
        rcases List.mem_cons.1 member with same | member
        · cases same
          exact ⟨target, loaded, rfl⟩
        · exact explored.sources _ _ member

theorem explores_call (atHand : AtHand library scripts) (known : script ∈ scripts) {node : Node}
    (role : node.role = .call)
    (inner : ∀ {callee script nodes}, script ∈ scripts →
      Explores library filter scripts hideNames (callee :: stack)
        (Leads library filter script nodes) (scanNodes (callee :: stack) script nodes)) :
    Explores library filter scripts hideNames stack
      (fun callee => node.callee? library script = some callee)
      (call (enter hideNames stack scanNodes) script node.target) := by
  intro s done explored
  unfold call
  refine ensures_get_bind ?_
  cases found : s.declared.lookup (script.identity, node.target) with
  | none =>
      exact ensures_throw (.of_other CompileError.noConfusion fun _ => CompileError.noConfusion)
  | some method =>
      obtain ⟨owner, owned, identity, first⟩ := explored.declares _ _ _ found
      obtain rfl := atHand.distinct _ owned _ known identity
      have leads : node.callee? library owner = some (.method owner.identity node.target) := by
        simp [Node.callee?, role]
      have entered := @explores_enter _ _ _ hideNames stack _ _ _ _ node.target known
        (Callee.body?_method atHand.distinct known first) (inner known)
      refine entered.of_iff (fun callee => ?_) s done explored
      rw [leads, Option.some.injEq, eq_comm]

theorem explores_nodes (atHand : AtHand library scripts) (known : script ∈ scripts)
    (inner : ∀ {callee script nodes}, script ∈ scripts →
      Explores library filter scripts hideNames (callee :: stack)
        (Leads library filter script nodes) (scanNodes (callee :: stack) script nodes)) :
    ∀ list : List Node, Explores library filter scripts hideNames stack
      (Leads library filter script list)
      (Scan.nodes library filter (enter hideNames stack scanNodes) script list)
  | [] => Explores.idle.of_iff fun _ => iff_of_false not_leads_nil id
  | ⟨id, d, e, children⟩ :: rest => by
      have below := explores_nodes atHand known inner children
      have later := explores_nodes atHand known inner rest
      generalize hnode : (⟨id, d, e, children⟩ : Node) = node
      rw [← show node.children = children from hnode ▸ rfl] at below
      refine (Explores.bind ?_ later).of_iff fun _ => leads_cons
      rw [node_eq]
      split
      · next accepts =>
          cases role : node.role with
          | declaration =>
              exact Explores.idle.of_iff fun _ => by simp [leads_single, role]
          | condition =>
              simp only
              split
              · next never =>
                  exact Explores.idle.of_iff fun _ => by simp [leads_single, role, never]
              · next constant =>
                  exact below.of_iff fun _ => by simp [leads_single, role, accepts, constant]
          | source =>
              exact (explores_source atHand script role inner).of_iff fun _ => by
                simp [leads_single, role, accepts]
          | call =>
              exact (explores_call atHand known role inner).of_iff fun _ => by
                simp [leads_single, role, accepts]
          | block frame =>
              exact below.of_iff fun _ => by simp [leads_single, role, accepts]
      · next rejects => exact Explores.idle.of_iff fun _ => by simp [leads_single, rejects]
termination_by list => sizeOf list

/-- A search with room for all bodies never runs out of it: the stack holds distinct bodies. -/
theorem explores_scanNodes (atHand : AtHand library scripts) (limit : Nat) :
    ∀ {stack script nodes}, script ∈ scripts →
      (Callee.all scripts).length < limit + stack.length →
      Explores library filter scripts hideNames stack (Leads library filter script nodes)
        (Scan.scanNodes library filter hideNames limit stack script nodes) := by
  induction limit with
  | zero =>
      intro stack script nodes _ room s done explored
      have few : stack ⊆ Callee.all scripts := by
        intro callee member
        obtain ⟨body, inside, rfl⟩ := (explored.entered callee).1 (List.mem_append_left _ member)
        exact Callee.mem_all (explored.bodies body inside)
      have distinct := (List.nodup_append.1 explored.distinct).1
      have length := distinct.length_le_of_subset few
      omega
  | succ limit ih =>
      intro stack script nodes known room
      refine explores_nodes atHand known (fun known => ih known ?_) nodes
      rw [List.length_cons]
      omega

end Scan

/-- A script and those that can be loaded are at hand if no two of them share an identity. -/
theorem DistinctScripts.atHand {library : Library} {script : Script}
    (distinct : DistinctScripts (script :: library.scripts)) :
    AtHand library (script :: library.scripts) :=
  ⟨distinct, fun _ _ loads => List.mem_cons_of_mem _ (Library.mem_scripts loads)⟩

/-- What a search of a script comes to: the bodies of the table are settled, and the script leads to
no other. -/
structure CallTable.Explored (library : Library) (filter : Node → Bool) (scripts : List Script)
    (script : Script) (table : CallTable) (done : List Callee) : Prop where
  bodies : ∀ body ∈ table.bodies, body.callee.body? scripts = some (body.script, body.nodes)
  sources : ∀ src identity, (src, identity) ∈ table.sources →
    ∃ target, library.load src = .ok target ∧ target.identity = identity
  names : (table.bodies.map (·.canonical)).Nodup
  entered : ∀ callee, callee ∈ done ↔ ∃ body ∈ table.bodies, body.callee = callee
  distinct : done.Nodup
  settled : Settled (Invokes library filter scripts) done
  leads : ∀ callee, Leads library filter script script.root.children callee → callee ∈ done

open Scan in
theorem CallTable.ofScript_explored {library : Library} {filter : Node → Bool}
    {hideNames : Bool} {script : Script}
    (distinct : DistinctScripts (script :: library.scripts)) :
    match CallTable.ofScript library filter hideNames script with
    | .ok table => ∃ done, table.Explored library filter (script :: library.scripts) script done
    | .error error => Fault library filter (script :: library.scripts) []
        (Leads library filter script script.root.children) error := by
  have atHand := distinct.atHand
  have known : script ∈ script :: library.scripts := List.mem_cons_self ..
  have searched : Ensures (do
        declareMethods script
        Scan.scanNodes library filter hideNames (nestingBound library script) [] script
          script.root.children : Scan Unit) {}
      (fun _ s => ∃ done,
        s.Explored library filter (script :: library.scripts) hideNames [] done ∧
          ∀ callee, Leads library filter script script.root.children callee → callee ∈ done)
      (Fault library filter (script :: library.scripts) []
        (Leads library filter script script.root.children)) := by
    refine ensures_bind (ensures_declareMethods known (fun _ _ _ found => by cases found) _) ?_
    rintro _ s ⟨table, used, declares, -⟩
    have start : s.Explored library filter (script :: library.scripts) hideNames [] [] :=
      { bodies := by simp [table]
        sources := by simp [table]
        declares
        named := by cases hideNames <;> simp [State.Named, table]
        entered := by simp [table]
        distinct := .nil
        settled := .nil }
    refine (explores_scanNodes atHand _ known (length_all_lt library script) s [] start).imp ?_
      fun _ fault => fault
    rintro _ s' ⟨done, explored, -, led⟩
    exact ⟨done, explored, led⟩
  unfold CallTable.ofScript
  simp only
  generalize (do
    declareMethods script
    Scan.scanNodes library filter hideNames (nestingBound library script) [] script
      script.root.children : Scan Unit) = scan at searched ⊢
  cases outcome : scan.run {} with
  | error error => exact searched.of_error outcome
  | ok pair =>
      obtain ⟨done, explored, led⟩ := searched.of_ok outcome
      exact ⟨done, explored.bodies, explored.sources, explored.named.nodup,
        explored.entered, explored.distinct, explored.settled, led⟩

end Archetype
