import Archetype.Proofs.Flatten.Rebuilt
import Archetype.Proofs.Naming
import Archetype.Proofs.Stateful

/-!
What scanning makes of a script: every shared body is the body of a script or of a method, under a
name of its own, and no body is reached from inside itself.
-/

namespace Archetype

open Stateful

def Node.callee? (library : Library) (script : Script) (node : Node) : Option Callee :=
  match node.role with
  | .source => (library.load node.origin).toOption.map fun target => .script target.identity
  | .call => some (.method script.identity node.target)
  | _ => none

inductive Reaches (filter : Node → Bool) : List Node → Node → Prop
  | here (accepts : filter node = true) (invokes : node.isInvocation = true) :
      Reaches filter (node :: nodes) node
  | condition (accepts : filter node = true) (role : node.role = .condition)
      (constant : node.constant? ≠ some false)
      (below : Reaches filter node.children invocation) :
      Reaches filter (node :: nodes) invocation
  | block (accepts : filter node = true) (role : node.role = .block frame)
      (below : Reaches filter node.children invocation) :
      Reaches filter (node :: nodes) invocation
  | later (rest : Reaches filter nodes invocation) : Reaches filter (node :: nodes) invocation

theorem Reaches.of_body {filter : Node → Bool} {nodes : List Node} {invocation : Node}
    (reaches : Reaches filter nodes invocation) :
    Reaches filter (nodes.filter (·.kind ≠ .method)) invocation := by
  have kept : ∀ {node : Node} {rest : List Node}, node.role ≠ .declaration →
      (node :: rest).filter (·.kind ≠ .method) = node :: rest.filter (·.kind ≠ .method) := by
    intro node rest other
    refine List.filter_cons_of_pos ?_
    simp only [ne_eq, decide_not, Bool.not_eq_eq_eq_not, Bool.not_true, decide_eq_false_iff_not]
    intro kind
    exact other (by simp only [Node.role, kind])
  induction reaches with
  | here accepts invokes =>
      rw [kept fun role => by simp [Node.isInvocation_eq, role] at invokes]
      exact .here accepts invokes
  | condition accepts role constant below _ =>
      rw [kept (by simp [role])]
      exact .condition accepts role constant below
  | block accepts role below _ =>
      rw [kept (by simp [role])]
      exact .block accepts role below
  | later _ ih =>
      rw [List.filter_cons]
      split
      · exact .later ih
      · exact ih

theorem Reaches.of_single {filter : Node → Bool} {node invocation : Node}
    (reaches : Reaches filter [node] invocation) : filter node = true ∧
      (node.isInvocation = true ∧ invocation = node ∨
        (node.role = .condition ∧ node.constant? ≠ some false ∨ ∃ frame, node.role = .block frame) ∧
          Reaches filter node.children invocation) := by
  cases reaches with
  | here accepts invokes => exact ⟨accepts, .inl ⟨invokes, rfl⟩⟩
  | condition accepts role constant below => exact ⟨accepts, .inr ⟨.inl ⟨role, constant⟩, below⟩⟩
  | block accepts role below => exact ⟨accepts, .inr ⟨.inr ⟨_, role⟩, below⟩⟩
  | later reaches => cases reaches

/-- The scripts at hand: no two share an identity, and every script that can be loaded is there. -/
structure AtHand (library : Library) (scripts : List Script) : Prop where
  distinct : ∀ script ∈ scripts, ∀ other ∈ scripts,
    script.identity = other.identity → script = other
  loads : ∀ src target, library.load src = .ok target → target ∈ scripts

inductive Drawn (scripts : List Script) : Callee → Script → List Node → Prop
  | script (known : script ∈ scripts) :
      Drawn scripts (.script script.identity) script script.root.body
  | method (known : script ∈ scripts) (declared : method ∈ script.root.methods)
      (named : method.name? = some name) :
      Drawn scripts (.method script.identity name) script method.children

theorem Drawn.of_script {scripts : List Script} {identity : String} {script : Script}
    {nodes : List Node} (drawn : Drawn scripts (.script identity) script nodes) :
    script ∈ scripts ∧ script.identity = identity ∧ nodes = script.root.body := by
  cases drawn with
  | script known => exact ⟨known, rfl, rfl⟩

theorem Drawn.of_method {scripts : List Script} {owner name : String} {script : Script}
    {nodes : List Node} (drawn : Drawn scripts (.method owner name) script nodes) :
    script ∈ scripts ∧ script.identity = owner ∧
      ∃ method ∈ script.root.methods, method.name? = some name ∧ nodes = method.children := by
  cases drawn with
  | method known declared named => exact ⟨known, rfl, _, declared, named, rfl⟩

def SharedBody.Avoids (library : Library) (filter : Node → Bool) (body : SharedBody)
    (callee : Callee) : Prop :=
  ∀ invocation, Reaches filter body.nodes invocation →
    invocation.callee? library body.script ≠ some callee

namespace Scan

structure State.Sound (library : Library) (scripts : List Script) (s : State) : Prop where
  drawn : ∀ body ∈ s.table.bodies, Drawn scripts body.callee body.script body.nodes
  sources : ∀ src identity, (src, identity) ∈ s.table.sources →
    ∃ target, library.load src = .ok target ∧ target.identity = identity
  declared : ∀ identity name method, ((identity, name), method) ∈ s.declared →
    ∃ script ∈ scripts, script.identity = identity ∧ method ∈ script.root.methods ∧
      method.name? = some name
  used : ∀ body ∈ s.table.bodies, body.canonical ∈ s.used
  distinct : (s.table.bodies.map (·.canonical)).Nodup
  sanitized : ∀ body ∈ s.table.bodies, ScopePath.sanitize body.canonical = body.canonical

/-- What entering a body from a stack of bodies does: it is not on the stack, and a body that is
added leads neither to it nor to the stack. -/
structure Entered (library : Library) (filter : Node → Bool) (scripts : List Script)
    (stack : List Callee) (callee : Callee) (before after : State) : Prop where
  sound : before.Sound library scripts → after.Sound library scripts
  free : callee ∉ stack
  adds : ∀ body ∈ after.table.bodies, (∃ count, { body with count } ∈ before.table.bodies) ∨
    ∀ other ∈ callee :: stack, body.Avoids library filter other

structure Scanned (library : Library) (filter : Node → Bool) (scripts : List Script)
    (stack : List Callee) (script : Script) (nodes : List Node) (before after : State) :
    Prop where
  sound : before.Sound library scripts → after.Sound library scripts
  free : ∀ invocation callee, Reaches filter nodes invocation →
    invocation.callee? library script = some callee → callee ∉ stack
  adds : ∀ body ∈ after.table.bodies, (∃ count, { body with count } ∈ before.table.bodies) ∨
    ∃ invocation callee, Reaches filter nodes invocation ∧
      invocation.callee? library script = some callee ∧
      ∀ other ∈ callee :: stack, body.Avoids library filter other

variable {library : Library} {filter : Node → Bool} {scripts : List Script} {stack : List Callee}
  {script : Script} {nodes : List Node}

namespace Scanned

theorem idle {s : State} (silent : ∀ invocation, ¬Reaches filter nodes invocation) :
    Scanned library filter scripts stack script nodes s s where
  sound sound := sound
  free invocation _ reaches := absurd reaches (silent invocation)
  adds body member := .inl ⟨body.count, member⟩

theorem of_iff {nodes' : List Node} {before after : State}
    (same : ∀ invocation, Reaches filter nodes' invocation ↔ Reaches filter nodes invocation)
    (scanned : Scanned library filter scripts stack script nodes before after) :
    Scanned library filter scripts stack script nodes' before after where
  sound := scanned.sound
  free invocation callee reaches := scanned.free invocation callee ((same invocation).1 reaches)
  adds body member :=
    (scanned.adds body member).imp_right fun ⟨invocation, callee, reaches, rest⟩ =>
      ⟨invocation, callee, (same invocation).2 reaches, rest⟩

theorem cons {node : Node} {before between after : State}
    (first : Scanned library filter scripts stack script [node] before between)
    (rest : Scanned library filter scripts stack script nodes between after) :
    Scanned library filter scripts stack script (node :: nodes) before after where
  sound sound := rest.sound (first.sound sound)
  free invocation callee reaches leads := by
    cases reaches with
    | here accepts invokes => exact first.free _ _ (.here accepts invokes) leads
    | condition accepts role constant below =>
        exact first.free _ _ (.condition accepts role constant below) leads
    | block accepts role below => exact first.free _ _ (.block accepts role below) leads
    | later reaches => exact rest.free _ _ reaches leads
  adds body member := by
    have first_of : ∀ {invocation}, Reaches filter [node] invocation →
        Reaches filter (node :: nodes) invocation := by
      intro invocation reaches
      cases reaches with
      | here accepts invokes => exact .here accepts invokes
      | condition accepts role constant below => exact .condition accepts role constant below
      | block accepts role below => exact .block accepts role below
      | later reaches => cases reaches
    rcases rest.adds body member with ⟨count, old⟩ | ⟨invocation, callee, reaches, avoids⟩
    · rcases first.adds _ old with older | ⟨invocation, callee, reaches, leads, avoids⟩
      · exact .inl older
      · exact .inr ⟨invocation, callee, first_of reaches, leads, avoids⟩
    · exact .inr ⟨invocation, callee, .later reaches, avoids⟩

theorem of_entered {node : Node} {callee : Callee} {before after : State}
    (accepts : filter node = true) (invokes : node.isInvocation = true)
    (leads : node.callee? library script = some callee)
    (entered : Entered library filter scripts stack callee before after) :
    Scanned library filter scripts stack script [node] before after where
  sound := entered.sound
  free invocation other reaches leads' := by
    cases reaches with
    | here _ _ =>
        cases leads.symm.trans leads'
        exact entered.free
    | condition _ role _ _ => simp [Node.isInvocation_eq, role] at invokes
    | block _ role _ => simp [Node.isInvocation_eq, role] at invokes
    | later reaches => cases reaches
  adds body member := (entered.adds body member).imp_right fun avoids =>
    ⟨node, callee, .here accepts invokes, leads, avoids⟩

end Scanned

/-! Names and methods. -/

theorem nameBody_eq_ok {base name : String} {s s' : State}
    (gives : nameBody false base s = .ok (name, s')) :
    name ∉ s.used ∧ ScopePath.sanitize name = name ∧ s' = { s with used := name :: s.used } := by
  simp only [nameBody, Bool.false_eq_true, if_false, bind_eq_ok] at gives
  obtain ⟨_, here, got, _, named, put, gives⟩ := gives
  obtain ⟨rfl, rfl⟩ := get_eq_ok.1 got
  obtain rfl := set_eq_ok.1 put
  obtain ⟨rfl, rfl⟩ := pure_eq_ok.1 gives
  exact ⟨freshName_not_mem _ _, sanitize_freshName _ _, rfl⟩

theorem State.Sound.declare {s : State} (sound : s.Sound library scripts)
    (known : script ∈ scripts) {method : Node} (declared : method ∈ script.root.methods)
    {name : String} (named : method.name? = some name) :
    State.Sound library scripts
      { s with declared := ((script.identity, name), method) :: s.declared } :=
  { sound with
    declared := by
      intro identity other method' member
      rcases List.mem_cons.1 member with same | member
      · cases same
        exact ⟨script, known, rfl, declared, named⟩
      · exact sound.declared _ _ _ member }

theorem declareMethods_eq_ok (known : script ∈ scripts) {s s' : State}
    (gives : declareMethods script s = .ok ((), s')) :
    (s.Sound library scripts → s'.Sound library scripts) ∧ s'.table = s.table := by
  unfold declareMethods at gives
  generalize listed : script.root.methods = methods at gives
  have declared : ∀ method ∈ methods, method ∈ script.root.methods :=
    fun _ member => listed ▸ member
  clear listed
  induction methods generalizing s with
  | nil =>
      obtain ⟨-, rfl⟩ := pure_eq_ok.1 gives
      exact ⟨id, rfl⟩
  | cons method rest ih =>
      obtain ⟨_, between, first, later⟩ := bind_eq_ok.1 gives
      obtain ⟨sound, table⟩ := ih later fun _ member => declared _ (List.mem_cons_of_mem _ member)
      suffices step : (s.Sound library scripts → between.Sound library scripts) ∧
          between.table = s.table from ⟨sound ∘ step.1, table.trans step.2⟩
      cases named : method.name? with
      | none =>
          simp only [named] at first
          obtain ⟨-, rfl⟩ := pure_eq_ok.1 first
          exact ⟨id, rfl⟩
      | some name =>
          simp only [named, modify_eq_ok] at first
          split at first
          · subst first
            exact ⟨id, rfl⟩
          · subst first
            exact ⟨fun sound => sound.declare known (declared _ (List.mem_cons_self ..)) named, rfl⟩

/-! Entering a body. -/

theorem mem_recount {table : CallTable} {callee : Callee} {body : SharedBody}
    (member : body ∈ (table.recount callee).bodies) :
    ∃ count, { body with count } ∈ table.bodies := by
  obtain ⟨old, inside, rfl⟩ := List.mem_map.1 member
  split
  · exact ⟨old.count, inside⟩
  · exact ⟨old.count, inside⟩

theorem State.Sound.recount {s : State} (sound : s.Sound library scripts) (callee : Callee) :
    State.Sound library scripts { s with table := s.table.recount callee } where
  drawn body member := by
    obtain ⟨count, old⟩ := mem_recount member
    have drawn := sound.drawn _ old
    exact drawn
  sources := sound.sources
  declared := sound.declared
  used body member := by
    obtain ⟨count, old⟩ := mem_recount member
    have used := sound.used _ old
    exact used
  distinct := by
    have same : (s.table.recount callee).bodies.map (·.canonical) =
        s.table.bodies.map (·.canonical) := by
      simp only [CallTable.recount, List.map_map]
      refine List.map_congr_left fun body _ => ?_
      simp only [Function.comp_apply]
      split <;> rfl
    rw [same]
    exact sound.distinct
  sanitized body member := by
    obtain ⟨count, old⟩ := mem_recount member
    have clean := sound.sanitized _ old
    exact clean

theorem State.Sound.add {s : State} (sound : s.Sound library scripts) {body : SharedBody}
    (drawn : Drawn scripts body.callee body.script body.nodes) (fresh : body.canonical ∉ s.used)
    (clean : ScopePath.sanitize body.canonical = body.canonical) :
    State.Sound library scripts
      { s with
        used := body.canonical :: s.used
        table := { s.table with bodies := s.table.bodies ++ [body] } } where
  drawn other member := by
    rcases List.mem_append.1 member with member | member
    · exact sound.drawn _ member
    · rw [List.mem_singleton.1 member]
      exact drawn
  sources := sound.sources
  declared := sound.declared
  used other member := by
    rcases List.mem_append.1 member with member | member
    · exact List.mem_cons_of_mem _ (sound.used _ member)
    · rw [List.mem_singleton.1 member]
      exact List.mem_cons_self ..
  distinct := by
    rw [List.map_append, List.map_singleton]
    refine List.nodup_append.2 ⟨sound.distinct, List.nodup_cons.2 ⟨List.not_mem_nil, .nil⟩, ?_⟩
    rintro name member _ single rfl
    obtain ⟨other, inside, same⟩ := List.mem_map.1 member
    have taken := sound.used other inside
    rw [same, List.mem_singleton.1 single] at taken
    exact fresh taken
  sanitized other member := by
    rcases List.mem_append.1 member with member | member
    · exact sound.sanitized _ member
    · rw [List.mem_singleton.1 member]
      exact clean

def Scans (library : Library) (filter : Node → Bool) (scripts : List Script)
    (scanNodes : List Callee → Script → List Node → Scan Unit) : Prop :=
  ∀ {stack script nodes s s'}, script ∈ scripts → scanNodes stack script nodes s = .ok ((), s') →
    Scanned library filter scripts stack script nodes s s'

variable {scanNodes : List Callee → Script → List Node → Scan Unit}

/-- A new body avoids what its scan came to no body of. -/
theorem Entered.of_scanned {callee : Callee} {before put after : State} {new : SharedBody}
    (free : callee ∉ stack) (sound : before.Sound library scripts → put.Sound library scripts)
    (bodies : put.table.bodies = before.table.bodies ++ [new])
    (scanned : Scanned library filter scripts (callee :: stack) new.script new.nodes put after) :
    Entered library filter scripts stack callee before after where
  sound := scanned.sound ∘ sound
  free := free
  adds body member := by
    rcases scanned.adds body member with ⟨count, old⟩ | ⟨_, _, _, _, avoids⟩
    · rw [bodies] at old
      rcases List.mem_append.1 old with older | here
      · exact .inl ⟨count, older⟩
      · refine .inr fun other avoided invocation reaches leads => ?_
        obtain rfl := List.mem_singleton.1 here
        exact scanned.free _ _ reaches leads avoided
    · exact .inr fun other avoided => avoids other (List.mem_cons_of_mem _ avoided)

theorem enter_eq_ok (scans : Scans library filter scripts scanNodes) (known : script ∈ scripts)
    {callee : Callee} {base : String} {s s' : State}
    (drawn : s.Sound library scripts → Drawn scripts callee script nodes)
    (gives : enter false stack scanNodes callee base script nodes s = .ok ((), s')) :
    Entered library filter scripts stack callee s s' := by
  unfold enter at gives
  split at gives
  · rw [bind_eq_ok] at gives
    obtain ⟨_, _, fails, -⟩ := gives
    exact absurd fails throw_ne_ok
  · next free =>
      rw [bind_eq_ok] at gives
      obtain ⟨_, here, got, gives⟩ := gives
      obtain ⟨rfl, rfl⟩ := get_eq_ok.1 got
      cases found : here.table.body? callee with
      | some body =>
        simp only [found, modify_eq_ok] at gives
        subst gives
        exact ⟨fun sound => sound.recount callee, free,
          fun body member => .inl (mem_recount member)⟩
      | none =>
        simp only [found] at gives
        rw [bind_eq_ok] at gives
        obtain ⟨canonical, named, name, gives⟩ := gives
        obtain ⟨fresh, clean, rfl⟩ := nameBody_eq_ok name
        rw [bind_eq_ok] at gives
        obtain ⟨_, put, adds, gives⟩ := gives
        have adds := modify_eq_ok.1 adds
        have sound : here.Sound library scripts → put.Sound library scripts := by
          intro sound
          have added := @State.Sound.add _ _ _ sound ⟨callee, canonical, 1, script, nodes⟩
            (drawn sound) fresh clean
          rw [adds]
          exact added
        have bodies : put.table.bodies =
            here.table.bodies ++ [⟨callee, canonical, 1, script, nodes⟩] := by rw [adds]
        cases callee with
        | script identity =>
            simp only [bind_eq_ok] at gives
            obtain ⟨_, declared, declare, gives⟩ := gives
            obtain ⟨sound', table⟩ := @declareMethods_eq_ok library _ _ known _ _ declare
            exact .of_scanned free (sound' ∘ sound) (by rw [table, bodies]) (scans known gives)
        | method owner name => exact .of_scanned free sound bodies (scans known gives)

/-! Nodes. -/

theorem node_eq {invoke : Callee → String → Script → List Node → Scan Unit} (node : Node) :
    Scan.node library filter invoke script node =
      if filter node then
        match node.role with
        | .declaration => pure ()
        | .condition =>
            if node.constant? = some false then pure ()
            else Scan.nodes library filter invoke script node.children
        | .source => source library invoke node.origin
        | .call => call invoke script node.target
        | .block _ => Scan.nodes library filter invoke script node.children
      else pure () := by
  obtain ⟨id, d, e, children⟩ := node
  unfold Scan.node Node.role
  simp only [Node.kind, Node.name?, Node.target]
  cases d.kind <;> simp only [NodeKind.frame?] <;> cases d.name? <;> rfl

/-- Scanning nodes is scanning invocations one after another, so it is what these are. -/
theorem nodes_of_invocations {invoke : Callee → String → Script → List Node → Scan Unit}
    {P : Scan Unit → Prop} (idle : P (pure ()))
    (bind : ∀ {first second}, P first → P second → P (first >>= fun _ => second))
    (source : ∀ src, P (source library invoke src))
    (call : ∀ name, P (call invoke script name)) :
    ∀ list : List Node, P (Scan.nodes library filter invoke script list)
  | [] => idle
  | ⟨id, d, e, children⟩ :: rest => by
      have below := nodes_of_invocations idle bind source call children
      have later := nodes_of_invocations idle bind source call rest
      generalize hnode : (⟨id, d, e, children⟩ : Node) = node
      rw [← show node.children = children from hnode ▸ rfl] at below
      rw [Scan.nodes]
      refine bind ?_ later
      rw [node_eq]
      split
      · cases node.role with
        | declaration => exact idle
        | condition =>
            simp only
            split
            · exact idle
            · exact below
        | source => exact source _
        | call => exact call _
        | block frame => exact below
      · exact idle
termination_by list => sizeOf list

theorem State.Sound.addSource {s : State} (sound : s.Sound library scripts) {src : String}
    {target : Script} (loaded : library.load src = .ok target) :
    State.Sound library scripts
      { s with table := { s.table with sources := (src, target.identity) :: s.table.sources } } :=
  { sound with
    sources := by
      intro other identity member
      rcases List.mem_cons.1 member with same | member
      · cases same
        exact ⟨target, loaded, rfl⟩
      · exact sound.sources _ _ member }

theorem source_eq_ok (atHand : AtHand library scripts)
    (scans : Scans library filter scripts scanNodes) {node : Node} (role : node.role = .source)
    {s s' : State}
    (gives : source library (enter false stack scanNodes) node.origin s = .ok ((), s')) :
    ∃ callee, node.callee? library script = some callee ∧
      Entered library filter scripts stack callee s s' := by
  unfold source at gives
  cases loaded : library.load node.origin with
  | error error =>
      simp only [loaded] at gives
      exact absurd gives throw_ne_ok
  | ok target =>
      simp only [loaded] at gives
      rw [bind_eq_ok] at gives
      obtain ⟨_, between, sourced, gives⟩ := gives
      have sourced := modify_eq_ok.1 sourced
      have known := atHand.loads _ _ loaded
      have entered := enter_eq_ok scans known (fun _ => .script known) gives
      refine ⟨.script target.identity, ?_, ?_, entered.free, ?_⟩
      · simp [Node.callee?, role, loaded, Except.toOption]
      · exact fun sound => entered.sound (sourced ▸ sound.addSource loaded)
      · have bodies : between.table.bodies = s.table.bodies := by rw [sourced]
        rw [← bodies]
        exact entered.adds

theorem call_eq_ok (atHand : AtHand library scripts)
    (scans : Scans library filter scripts scanNodes) (known : script ∈ scripts) {node : Node}
    (role : node.role = .call) {s s' : State}
    (gives : call (enter false stack scanNodes) script node.target s = .ok ((), s')) :
    ∃ callee, node.callee? library script = some callee ∧
      Entered library filter scripts stack callee s s' := by
  unfold call at gives
  rw [bind_eq_ok] at gives
  obtain ⟨_, here, got, gives⟩ := gives
  obtain ⟨rfl, rfl⟩ := get_eq_ok.1 got
  cases found : here.declared.lookup (script.identity, node.target) with
  | none =>
      simp only [found] at gives
      exact absurd gives throw_ne_ok
  | some method =>
      simp only [found] at gives
      refine ⟨.method script.identity node.target, by simp [Node.callee?, role],
        enter_eq_ok scans known (fun sound => ?_) gives⟩
      obtain ⟨before, after, split, -⟩ := List.lookup_eq_some_iff.1 found
      obtain ⟨owner, owned, identity, declared, named⟩ :=
        sound.declared _ _ _ (split ▸ List.mem_append_right _ (List.mem_cons_self ..))
      obtain rfl := atHand.distinct _ owned _ known identity
      exact .method known declared named

theorem nodes_eq_ok (atHand : AtHand library scripts)
    (scans : Scans library filter scripts scanNodes) (known : script ∈ scripts) :
    ∀ (list : List Node) {s s' : State},
      Scan.nodes library filter (enter false stack scanNodes) script list s = .ok ((), s') →
        Scanned library filter scripts stack script list s s'
  | [], s, s', gives => by
      obtain ⟨-, rfl⟩ := pure_eq_ok.1 gives
      exact .idle fun _ reaches => by cases reaches
  | ⟨id, d, e, children⟩ :: rest, s, s', gives => by
      rw [Scan.nodes, bind_eq_ok] at gives
      obtain ⟨_, between, first, later⟩ := gives
      refine .cons ?_ (nodes_eq_ok atHand scans known rest later)
      have below : ∀ {s s'},
          Scan.nodes library filter (enter false stack scanNodes) script children s = .ok ((), s') →
            Scanned library filter scripts stack script children s s' :=
        nodes_eq_ok atHand scans known children
      generalize hnode : (⟨id, d, e, children⟩ : Node) = node at first ⊢
      rw [← show node.children = children from hnode ▸ rfl] at below
      rw [node_eq] at first
      split at first
      · next accepts =>
          cases role : node.role with
          | declaration =>
              simp only [role] at first
              obtain ⟨-, rfl⟩ := pure_eq_ok.1 first
              refine .idle fun _ reaches => ?_
              have inside := reaches.of_single.2
              simp [Node.isInvocation_eq, role] at inside
          | condition =>
              simp only [role] at first
              split at first
              · next never =>
                  obtain ⟨-, rfl⟩ := pure_eq_ok.1 first
                  refine .idle fun _ reaches => ?_
                  have inside := reaches.of_single.2
                  simp [Node.isInvocation_eq, role, never] at inside
              · next constant =>
                  refine (below first).of_iff fun _ =>
                    ⟨fun reaches => ?_, .condition accepts role constant⟩
                  have inside := reaches.of_single.2
                  simp only [Node.isInvocation_eq, role] at inside
                  simpa using inside.resolve_left (by simp) |>.2
          | source =>
              simp only [role] at first
              obtain ⟨callee, leads, entered⟩ := source_eq_ok atHand scans role first
              exact .of_entered accepts (by simp [Node.isInvocation_eq, role]) leads entered
          | call =>
              simp only [role] at first
              obtain ⟨callee, leads, entered⟩ := call_eq_ok atHand scans known role first
              exact .of_entered accepts (by simp [Node.isInvocation_eq, role]) leads entered
          | block frame =>
              simp only [role] at first
              refine (below first).of_iff fun _ => ⟨fun reaches => ?_, .block accepts role⟩
              have inside := reaches.of_single.2
              simp only [Node.isInvocation_eq, role] at inside
              simpa using inside.resolve_left (by simp) |>.2
      · next rejects =>
          obtain ⟨-, rfl⟩ := pure_eq_ok.1 first
          exact .idle fun _ reaches => rejects reaches.of_single.1
termination_by list => sizeOf list

theorem scans_scanNodes (atHand : AtHand library scripts) (limit : Nat) :
    Scans library filter scripts (Scan.scanNodes library filter false limit) := by
  induction limit with
  | zero => exact fun _ gives => absurd gives throw_ne_ok
  | succ limit ih => exact fun known gives => nodes_eq_ok atHand ih known _ gives

end Scan

/-- What a script is scanned into: each shared body is the body of a script or of a method and has a
name of its own that is fit for paths, sources lead to scripts, and no body is that of the scanned
script, which would be reached from inside itself. -/
structure CallTable.Sound (library : Library) (scripts : List Script) (script : Script)
    (table : CallTable) : Prop where
  drawn : ∀ body ∈ table.bodies, Drawn scripts body.callee body.script body.nodes
  sources : ∀ src identity, (src, identity) ∈ table.sources →
    ∃ target, library.load src = .ok target ∧ target.identity = identity
  distinct : (table.bodies.map (·.canonical)).Nodup
  sanitized : ∀ body ∈ table.bodies, ScopePath.sanitize body.canonical = body.canonical
  acyclic : ∀ body ∈ table.bodies, body.callee ≠ .script script.identity

open Scan in
theorem CallTable.sound_of_ofScript {library : Library} {filter : Node → Bool}
    {scripts : List Script} {script : Script} {table : CallTable} (atHand : AtHand library scripts)
    (known : script ∈ scripts)
    (gives : CallTable.ofScript library filter false script = .ok table) :
    table.Sound library scripts script := by
  unfold CallTable.ofScript at gives
  simp only at gives
  cases outcome : (do
      declareMethods script
      Scan.scanNodes library filter false (nestingBound library script) [] script
        script.root.children : Scan Unit).run {} with
  | error error =>
      rw [outcome] at gives
      cases gives
  | ok pair =>
      obtain ⟨⟨⟩, s'⟩ := pair
      rw [outcome] at gives
      cases gives
      obtain ⟨_, declared, declare, scan⟩ := bind_eq_ok.1 outcome
      obtain ⟨sound, table⟩ := @declareMethods_eq_ok library _ _ known _ _ declare
      have scanned := scans_scanNodes atHand _ known scan
      have start : Scan.State.Sound library scripts {} := by
        constructor <;> simp
      have finish := scanned.sound (sound start)
      refine ⟨finish.drawn, finish.sources, finish.distinct, finish.sanitized,
        fun body member own => ?_⟩
      rcases scanned.adds body member with ⟨_, old⟩ | ⟨invocation, callee, reaches, leads, avoids⟩
      · rw [table] at old
        cases old
      · have drawn := finish.drawn body member
        rw [own] at drawn
        obtain ⟨owned, identity, nodes⟩ := drawn.of_script
        have same := atHand.distinct _ owned _ known identity
        refine avoids callee (List.mem_cons_self ..) invocation ?_ (same ▸ leads)
        rw [nodes, same]
        exact reaches.of_body

end Archetype
