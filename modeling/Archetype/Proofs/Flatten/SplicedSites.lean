import Archetype.Proofs.Flatten.RebuiltOnce
import Archetype.Proofs.Flatten.Sites
import Archetype.Proofs.Flatten.Spliced

/-!
The sites of a script that is flattened with inlining. A run leaves them with its methods; since it
rebuilds every body once, no invocation and no call is in two sites, and the frames of invocations
go or are renamed.
-/

namespace Archetype

open Stateful

def CallTable.invocationIds (table : CallTable) (callee : Callee) : List NodeId :=
  ((table.body? callee).map fun body => (Node.invocations body.nodes).map (·.id)).getD []

theorem CallTable.invocationIds_eq {table : CallTable} {body : SharedBody}
    (found : table.body? body.callee = some body) :
    table.invocationIds body.callee = (Node.invocations body.nodes).map (·.id) := by
  rw [invocationIds, found]
  rfl

def Encounter.Inlines (log : List Encounter) (body : SharedBody) : Prop :=
  ⟨body.callee, .inlined⟩ ∈ log ∧ body.isInlinable = true

theorem Spliced.widen {table : CallTable} {sites sites' : Sites} {log log' : List Encounter}
    {script : Script} {nodes result : List Node} (more : sites ⊆ sites') (longer : log ⊆ log')
    (spliced : Spliced table (fun node twin => (node, twin) ∈ sites) (Encounter.Inlines log) script
      nodes result) :
    Spliced table (fun node twin => (node, twin) ∈ sites') (Encounter.Inlines log') script nodes
      result :=
  spliced.mono (fun _ _ member => more member) fun _ inlines => ⟨longer inlines.1, inlines.2⟩

def CallTable.Invokes (table : CallTable) (script : Script) (nodes : List Node) (node : Node)
    (body : SharedBody) : Prop :=
  (node ∈ Node.invocations nodes ∧ table.reached? script node = some body) ∨
    ∃ other ∈ table.bodies, node ∈ Node.invocations other.nodes ∧
      table.reached? other.script node = some body

theorem CallTable.Invokes.mono {table : CallTable} {script : Script} {nodes more : List Node}
    {node : Node} {body : SharedBody} (larger : Node.invocations nodes ⊆ Node.invocations more)
    (invokes : table.Invokes script nodes node body) : table.Invokes script more node body :=
  invokes.imp_left fun ⟨member, reached⟩ => ⟨larger member, reached⟩

theorem CallTable.Invokes.of_body {table : CallTable} {script : Script} {nodes : List Node}
    {node : Node} {body inside : SharedBody} (known : inside ∈ table.bodies)
    (invokes : table.Invokes inside.script inside.nodes node body) :
    table.Invokes script nodes node body :=
  .inr (invokes.elim (fun ⟨member, reached⟩ => ⟨inside, known, member, reached⟩) id)

namespace Rebuild

/-- What a run leaves: the methods that it adds, each for a body, and the sites that stay. No
invocation is in more sites than its body is rebuilt, and no call in more than there are. -/
structure Sited (table : CallTable) (script : Script) (nodes : List Node) (before : Slots)
    (log : List Encounter) (result : List Node) (after : Slots) (methods : List Node)
    (sites : Sites) : Prop where
  added : after = before ++ Slots.completed methods
  fresh : ∀ method ∈ methods, method.target ∉ before.names
  sources : ∀ id, (sites.map (·.1.id)).count id ≤
    ((Node.invocations nodes).map (·.id)).count id +
      ((Encounter.rebuilt log).flatMap table.invocationIds).count id
  calls : ∀ id, (sites.map (·.2.id)).count id ≤
    ((Node.invocations methods).map (·.id)).count id +
      ((Node.invocations result).map (·.id)).count id
  targets : ∀ site ∈ sites, site.2.target ∈ after.names ∧
    ∃ body, table.Invokes script nodes site.1 body ∧ site.2.target = body.canonical
  spliced : Spliced table (fun node twin => (node, twin) ∈ sites) (Encounter.Inlines log) script
    nodes result
  bodies : ∀ method ∈ methods, ∃ body ∈ table.bodies, method.declaration = body.method ∧
    Spliced table (fun node twin => (node, twin) ∈ sites) (Encounter.Inlines log) body.script
      body.nodes method.children

namespace Sited

variable {table : CallTable} {script : Script}
  {nodes nodes' result result' methods methods' : List Node} {a b c : Slots}
  {log log' : List Encounter} {sites sites' : Sites} {node twin : Node}

theorem idle (spliced : Spliced table (fun node twin => (node, twin) ∈ ([] : Sites))
    (Encounter.Inlines []) script nodes []) : Sited table script nodes a [] [] a [] [] where
  added := (List.append_nil _).symm
  fresh := nofun
  sources _ := Nat.zero_le _
  calls _ := Nat.zero_le _
  targets := nofun
  spliced := spliced
  bodies := nofun

theorem names_subset (sited : Sited table script nodes a log result b methods sites) :
    ∀ name ∈ a.names, name ∈ b.names := by
  intro name member
  rw [sited.added, Slots.names, List.map_append]
  exact List.mem_append_left _ member

theorem append (first : Sited table script nodes a log result b methods sites)
    (second : Sited table script nodes' b log' result' c methods' sites') :
    Sited table script (nodes ++ nodes') a (log ++ log') (result ++ result') c
      (methods ++ methods') (sites ++ sites') where
  added := by
    rw [second.added, first.added, List.append_assoc]
    simp only [Slots.completed, List.map_append]
  fresh := List.forall_mem_append.2 ⟨first.fresh, fun method member inside =>
    second.fresh method member (first.names_subset _ inside)⟩
  sources id := by
    have here := first.sources id
    have there := second.sources id
    simp only [List.map_append, List.count_append, Node.invocations_append,
      Encounter.rebuilt_append, List.flatMap_append]
    omega
  calls id := by
    have here := first.calls id
    have there := second.calls id
    simp only [List.map_append, List.count_append, Node.invocations_append]
    omega
  targets := by
    refine List.forall_mem_append.2 ⟨fun site member => ?_, fun site member => ?_⟩
    · obtain ⟨there, body, invokes, target⟩ := first.targets site member
      refine ⟨second.names_subset _ there, body, invokes.mono ?_, target⟩
      rw [Node.invocations_append]
      exact List.subset_append_left ..
    · obtain ⟨there, body, invokes, target⟩ := second.targets site member
      refine ⟨there, body, invokes.mono ?_, target⟩
      rw [Node.invocations_append]
      exact List.subset_append_right ..
  spliced := (first.spliced.widen (List.subset_append_left ..) (List.subset_append_left ..)).append
    (second.spliced.widen (List.subset_append_right ..) (List.subset_append_right ..))
  bodies := by
    refine List.forall_mem_append.2 ⟨fun method member => ?_, fun method member => ?_⟩
    · obtain ⟨body, inside, declared, spliced⟩ := first.bodies method member
      exact ⟨body, inside, declared,
        spliced.widen (List.subset_append_left ..) (List.subset_append_left ..)⟩
    · obtain ⟨body, inside, declared, spliced⟩ := second.bodies method member
      exact ⟨body, inside, declared,
        spliced.widen (List.subset_append_right ..) (List.subset_append_right ..)⟩

theorem count_invocations_children_le (node : Node) (id : NodeId) :
    ((Node.invocations node.children).map (·.id)).count id ≤
      ((Node.invocations [node]).map (·.id)).count id :=
  ((Node.invocations_children_sublist node).map _).count_le id

theorem around (below : Sited table script node.children a log result b methods sites)
    (kept : ∀ id, ((Node.invocations result).map (·.id)).count id ≤
      ((Node.invocations result').map (·.id)).count id)
    (spliced : Spliced table (fun node twin => (node, twin) ∈ sites) (Encounter.Inlines log) script
      [node] result') : Sited table script [node] a log result' b methods sites where
  added := below.added
  fresh := below.fresh
  sources id := (below.sources id).trans
    (Nat.add_le_add_right (count_invocations_children_le node id) _)
  calls id := (below.calls id).trans (Nat.add_le_add_left (kept id) _)
  targets site member := by
    obtain ⟨there, body, invokes, target⟩ := below.targets site member
    exact ⟨there, body, invokes.mono (Node.invocations_children_sublist node).subset, target⟩
  spliced := spliced
  bodies := below.bodies

variable {body : SharedBody}

theorem inlined (reached : table.reached? script node = some body)
    (inlinable : body.isInlinable = true)
    (below : Sited table body.script body.nodes a log result b methods sites) :
    Sited table script [node] a (⟨body.callee, .inlined⟩ :: log) result b methods sites where
  added := below.added
  fresh := below.fresh
  sources id := by
    have inside := below.sources id
    rw [Encounter.rebuilt_cons, if_neg (by decide), List.flatMap_append, List.flatMap_singleton,
      table.invocationIds_eq (CallTable.body?_of_reached? reached), List.count_append]
    omega
  calls := below.calls
  targets site member := by
    obtain ⟨there, other, invokes, target⟩ := below.targets site member
    exact ⟨there, other, invokes.of_body (CallTable.mem_of_reached? reached), target⟩
  spliced := by
    have spliced := below.spliced.widen (List.Subset.refl _)
      (List.subset_cons_self ⟨body.callee, .inlined⟩ _)
    simpa using Spliced.inlined reached ⟨List.mem_cons_self .., inlinable⟩ spliced .nil
  bodies method member := by
    obtain ⟨other, inside, declared, spliced⟩ := below.bodies method member
    exact ⟨other, inside, declared,
      spliced.widen (List.Subset.refl _) (List.subset_cons_self ..)⟩

theorem mem_invocations (reached : table.reached? script node = some body) :
    node ∈ Node.invocations [node] := by
  rw [Node.invocations_cons, CallTable.isInvocation_of_reached? reached]
  exact List.mem_cons_self ..

theorem count_site (reached : table.reached? script node = some body) (ids : List NodeId)
    {id : NodeId} {count : Nat} (le : ids.count id ≤ count) :
    (node.id :: ids).count id ≤ ((Node.invocations [node]).map (·.id)).count id + count := by
  rw [Node.invocations_cons, CallTable.isInvocation_of_reached? reached]
  simp only [if_true, Node.invocations_nil, List.append_nil, List.singleton_append, List.map_cons,
    List.count_cons]
  omega

section Calls

variable (reached : table.reached? script node = some body)
  (declaration : twin.declaration = body.call node.location) (childless : twin.children = [])
include declaration

theorem target_call : twin.target = body.canonical := by
  rw [Node.target, Node.name?, declaration]
  rfl

include childless

theorem invocations_call : Node.invocations [twin] = [twin] := by
  have invokes : twin.isInvocation = true := by
    rw [Node.isInvocation, Node.kind, declaration]
    rfl
  simp [Node.invocations_cons, invokes, childless]

include reached

theorem called (there : body.canonical ∈ a.names) :
    Sited table script [node] a [⟨body.callee, .called⟩] [twin] a [] [(node, twin)] where
  added := (List.append_nil _).symm
  fresh := nofun
  sources id := count_site reached [] (Nat.zero_le _)
  calls id := by
    rw [invocations_call declaration childless]
    simp
  targets site member := by
    obtain rfl := List.mem_singleton.1 member
    rw [target_call declaration]
    exact ⟨there, body, .inl ⟨mem_invocations reached, reached⟩, rfl⟩
  spliced := .invocation reached declaration childless (List.mem_singleton_self _) .nil
  bodies := nofun

/-- A call of a method that is made for it, with what the method leaves. -/
theorem emitted {method : Node} (fresh : body.canonical ∉ a.names)
    (declared : method.declaration = body.method)
    (below : Sited table body.script body.nodes (a.reserve body.canonical) log method.children b
      methods sites) :
    Sited table script [node] a (⟨body.callee, .emitted⟩ :: log) [twin]
      (b.fill body.canonical method) (method :: methods) ((node, twin) :: sites) := by
  have named : method.name? = some body.canonical := by
    rw [Node.name?, declared]
    rfl
  have apart : ∀ other ∈ methods, other.target ∉ a.names ∧ other.target ≠ body.canonical := by
    intro other member
    have fresh := below.fresh other member
    rw [Slots.names_reserve, List.mem_append, List.mem_singleton, not_or] at fresh
    exact fresh
  have added : b.fill body.canonical method = a ++ Slots.completed (method :: methods) := by
    rw [below.added]
    exact Slots.fill_reserve fresh (fun other member => (apart other member).2) named
  have spliced := fun {other : SharedBody} {result : List Node}
      (spliced : Spliced table (fun node twin => (node, twin) ∈ sites) (Encounter.Inlines log)
        other.script other.nodes result) =>
    spliced.widen (List.subset_cons_self (node, twin) _)
      (List.subset_cons_self ⟨body.callee, .emitted⟩ _)
  constructor
  case added => exact added
  case fresh =>
    refine List.forall_mem_cons.2 ⟨?_, fun other member => (apart other member).1⟩
    rwa [Node.target_of_name? named]
  case sources =>
    intro id
    refine count_site reached _ ?_
    rw [Encounter.rebuilt_cons, if_neg (by decide), List.flatMap_append, List.flatMap_singleton,
      table.invocationIds_eq (CallTable.body?_of_reached? reached), List.count_append]
    exact below.sources id
  case calls =>
    intro id
    have inside := below.calls id
    have plain : method.isInvocation = false := by
      rw [Node.isInvocation, Node.kind, declared]
      rfl
    rw [invocations_call declaration childless, Node.invocations_cons, plain]
    simp only [List.map_cons, List.map_nil, List.count_cons, List.count_nil, List.map_append,
      List.count_append, Bool.false_eq_true, if_false]
    omega
  case targets =>
    rw [Slots.names_fill]
    refine List.forall_mem_cons.2 ⟨?_, fun site member => ?_⟩
    · rw [target_call declaration]
      refine ⟨below.names_subset _ ?_, body, .inl ⟨mem_invocations reached, reached⟩, rfl⟩
      rw [Slots.names_reserve]
      exact List.mem_append_right _ (List.mem_singleton_self _)
    · obtain ⟨there, other, invokes, target⟩ := below.targets site member
      exact ⟨there, other, invokes.of_body (CallTable.mem_of_reached? reached), target⟩
  case spliced => exact .invocation reached declaration childless (List.mem_cons_self ..) .nil
  case bodies =>
    refine List.forall_mem_cons.2 ⟨⟨body, CallTable.mem_of_reached? reached, declared,
      spliced below.spliced⟩, fun other member => ?_⟩
    obtain ⟨body', inside, declared', spliced'⟩ := below.bodies other member
    exact ⟨body', inside, declared', spliced spliced'⟩

end Calls

end Sited

/-- Every run over regular nodes leaves its methods and sites. -/
theorem exists_sited {table : CallTable} {inline : Bool} {script : Script}
    {nodes result : List Node} {s s' : State} {log : List Encounter} (bodies : table.Regular)
    (logged : Logged table (fun _ => true) inline script nodes s log result s')
    (regular : Node.AllRegular nodes) :
    ∃ methods sites, Sited table script nodes s.methods log result s'.methods methods sites := by
  induction logged with
  | nil => exact ⟨[], [], .idle .nil⟩
  | rejected rejects _ _ => cases rejects
  | declaration _ role _ ih =>
      obtain ⟨-, -, later⟩ := Node.allRegular_cons.1 regular
      obtain ⟨methods, sites, rest⟩ := ih later
      exact ⟨methods, sites, (Sited.idle (.declaration role .nil)).append rest⟩
  | never _ role constant _ ih =>
      obtain ⟨-, -, later⟩ := Node.allRegular_cons.1 regular
      obtain ⟨methods, sites, rest⟩ := ih later
      exact ⟨methods, sites, (Sited.idle (.never role constant .nil)).append rest⟩
  | always _ role constant _ _ ihBelow ih =>
      obtain ⟨-, inside, later⟩ := Node.allRegular_cons.1 regular
      obtain ⟨methods, sites, below⟩ := ihBelow inside
      obtain ⟨methods', sites', rest⟩ := ih later
      refine ⟨_, _, (below.around (fun _ => Nat.le_refl _) ?_).append rest⟩
      simpa using Spliced.always role constant below.spliced .nil
  | condition _ role constant _ built _ ihBelow ih =>
      obtain ⟨-, inside, later⟩ := Node.allRegular_cons.1 regular
      obtain ⟨methods, sites, below⟩ := ihBelow inside
      obtain ⟨methods', sites', rest⟩ := ih later
      obtain ⟨declaration, rfl, check, kept, -⟩ := build_eq_ok built
      rw [kept] at rest
      exact ⟨_, _, (below.around (Sited.count_invocations_children_le _)
        (.condition role constant declaration check below.spliced .nil)).append rest⟩
  | inlined _ reached inlines _ _ ihBelow ih =>
      obtain ⟨-, -, later⟩ := Node.allRegular_cons.1 regular
      obtain ⟨methods, sites, below⟩ := ihBelow (bodies.nodes _ (CallTable.mem_of_reached? reached))
      obtain ⟨methods', sites', rest⟩ := ih later
      have inlinable := inlines.1
      simp only [Bool.and_eq_true] at inlinable
      exact ⟨_, _, (below.inlined reached inlinable.2).append rest⟩
  | emitted _ reached _ fresh _ made built _ ihBelow ih =>
      obtain ⟨-, -, later⟩ := Node.allRegular_cons.1 regular
      obtain ⟨methods, sites, below⟩ := ihBelow (bodies.nodes _ (CallTable.mem_of_reached? reached))
      obtain ⟨methods', sites', rest⟩ := ih later
      obtain ⟨declared, rfl, -, kept, -⟩ := build_eq_ok made
      obtain ⟨declaration, childless, -, kept', -⟩ := build_eq_ok built
      rw [kept', kept] at rest
      exact ⟨_, _, (below.emitted reached declaration childless fresh declared).append rest⟩
  | called _ reached _ there built _ ih =>
      obtain ⟨-, -, later⟩ := Node.allRegular_cons.1 regular
      obtain ⟨methods, sites, rest⟩ := ih later
      obtain ⟨declaration, childless, -, kept, -⟩ := build_eq_ok built
      rw [kept] at rest
      exact ⟨_, _, (Sited.called reached declaration childless there).append rest⟩
  | emptied _ _ _ optionless _ ihBelow _ =>
      -- What takes options has some, and these are kept.
      obtain ⟨here, inside, -⟩ := Node.allRegular_cons.1 regular
      obtain ⟨methods, sites, below⟩ := ihBelow inside
      simp only [Bool.and_eq_true, Bool.not_eq_true', List.any_eq_false, decide_eq_true_eq]
        at optionless
      obtain ⟨option, member, kind⟩ := Declaration.exists_option here.check optionless.1
      have none := Node.optionsAmong_eq_nil.2 optionless.2
      rw [below.spliced.optionsAmong_eq bodies inside] at none
      exact absurd kind (Node.optionsAmong_eq_nil.1 none option member)
  | block _ role _ _ built _ ihBelow ih =>
      obtain ⟨-, inside, later⟩ := Node.allRegular_cons.1 regular
      obtain ⟨methods, sites, below⟩ := ihBelow inside
      obtain ⟨methods', sites', rest⟩ := ih later
      obtain ⟨declaration, rfl, check, kept, -⟩ := build_eq_ok built
      rw [kept] at rest
      exact ⟨_, _, (below.around (Sited.count_invocations_children_le _)
        (.block role declaration check below.spliced .nil)).append rest⟩

end Rebuild

/-! Bodies are rebuilt once, so no invocation is in two sites. -/

namespace CallTable

variable {library : Library} {scripts : List Script} {script : Script} {table : CallTable}
  {filter : Node → Bool} {inline : Bool} {log : List Encounter} {children : List Node}

theorem nodup_rebuilt (accounts : Accounts table filter inline log children) :
    (Encounter.rebuilt log).Nodup := by
  refine List.nodup_iff_count_le_one.2 fun callee => ?_
  by_cases member : callee ∈ Encounter.rebuilt log
  · obtain ⟨visit, inside, rfl⟩ := List.mem_map.1 member
    obtain ⟨body, known, same⟩ := accounts.known visit (List.mem_filter.1 inside).1
    exact same ▸ (accounts.once body known).le
  · rw [List.count_eq_zero.2 member]
    exact Nat.zero_le 1

/-- The invocations of a script and of the bodies that were rebuilt for it have numbers of their
own. -/
theorem nodup_invocationIds (ids : DistinctIds scripts) (known : script ∈ scripts)
    (sound : table.Sound library scripts script)
    (accounts : Accounts table filter inline log children) :
    ((Node.invocations script.root.body).map (·.id) ++
      (Encounter.rebuilt log).flatMap table.invocationIds).Nodup := by
  have own : Drawn scripts (.script script.identity) script script.root.body := .script known
  -- A number in the body of a callee is that of an invocation drawn for the callee.
  have drawn : ∀ callee, table.invocationIds callee = [] ∨ ∃ script' nodes,
      Drawn scripts callee script' nodes ∧ callee ≠ .script script.identity ∧
        table.invocationIds callee = (Node.invocations nodes).map (·.id) := by
    intro callee
    cases found : table.body? callee with
    | none => exact .inl (by rw [invocationIds, found]; rfl)
    | some body =>
        have member := List.mem_of_find?_eq_some found
        obtain rfl := callee_eq_of_body? found
        exact .inr ⟨_, _, sound.drawn body member, sound.acyclic body member,
          invocationIds_eq found⟩
  refine List.nodup_append.2 ⟨own.nodup ids, List.nodup_flatMap.2 ⟨fun callee _ => ?_, ?_⟩, ?_⟩
  · rcases drawn callee with none | ⟨_, _, there, -, same⟩
    · rw [none]
      exact .nil
    · rw [same]
      exact there.nodup ids
  · refine (nodup_rebuilt accounts).imp fun {callee callee'} apart => ?_
    intro id member member'
    rcases drawn callee with none | ⟨_, _, there, -, same⟩
    · rw [none] at member
      cases member
    rcases drawn callee' with none | ⟨_, _, there', -, same'⟩
    · rw [none] at member'
      cases member'
    rw [same] at member
    rw [same'] at member'
    obtain ⟨node, inside, rfl⟩ := List.mem_map.1 member
    obtain ⟨node', inside', equal⟩ := List.mem_map.1 member'
    exact apart (there.callee_eq there' ids inside inside' equal.symm)
  · rintro id member id' member' rfl
    obtain ⟨callee, -, member'⟩ := List.mem_flatMap.1 member'
    rcases drawn callee with none | ⟨_, _, there, other, same⟩
    · rw [none] at member'
      cases member'
    rw [same] at member'
    obtain ⟨node, inside, rfl⟩ := List.mem_map.1 member
    obtain ⟨node', inside', equal⟩ := List.mem_map.1 member'
    exact other (there.callee_eq own ids inside' inside equal)

theorem not_mem_names_of_inlined {done : List Callee}
    (surveyed : table.Surveyed library filter script done)
    (accounts : Accounts table filter inline log children) {callees : List Callee}
    {names : List String} (itinerary : Itinerary library filter table [] callees log names)
    {body : SharedBody} (member : body ∈ table.bodies) (inlined : ⟨body.callee, .inlined⟩ ∈ log) :
    body.canonical ∉ names := by
  intro named
  rw [itinerary.names_eq, List.nil_append] at named
  obtain ⟨callee, emitted, same⟩ := List.mem_map.1 named
  obtain ⟨visit, inside, rfl⟩ := List.mem_map.1 emitted
  obtain ⟨visited, treatment⟩ := List.mem_filter.1 inside
  obtain ⟨other, known, same'⟩ := accounts.known visit visited
  rw [canonicalOf_eq (same' ▸ surveyed.body?_eq known)] at same
  obtain rfl := List.inj_on_of_nodup_map surveyed.names known member same
  -- Otherwise the body was rebuilt twice.
  have equal := List.inj_on_of_nodup_map (nodup_rebuilt accounts)
    (List.mem_filter.2 ⟨inlined, by simp⟩)
    (List.mem_filter.2 ⟨visited, by simpa using fun called => by simp [called] at treatment⟩)
    same'
  rw [← equal] at treatment
  simp at treatment

/-- The frames of the invocations that lead to bodies of which no method is kept. -/
def dissolvedFrames (table : CallTable) (library : Library) (scripts : List Script)
    (kept : List String) : List String :=
  scripts.flatMap fun script => (Node.invocations script.root.children).filterMap fun node =>
    (table.reached? script node).bind fun body =>
      if body.canonical ∈ kept then none else some (node.calledFrame library)

theorem mem_dissolvedFrames {kept : List String} {frame : String} :
    frame ∈ table.dissolvedFrames library scripts kept ↔ ∃ script ∈ scripts,
      ∃ node ∈ Node.invocations script.root.children, ∃ body,
        table.reached? script node = some body ∧ body.canonical ∉ kept ∧
          node.calledFrame library = frame := by
  simp only [dissolvedFrames, List.mem_flatMap, List.mem_filterMap, Option.bind_eq_some_iff,
    Option.ite_none_left_eq_some, Option.some.injEq]

theorem Invokes.exists_script (sound : table.Sound library scripts script)
    (known : script ∈ scripts) {node : Node} {body : SharedBody}
    (invokes : table.Invokes script script.root.body node body) :
    ∃ owner ∈ scripts, node ∈ Node.invocations owner.root.children ∧
      table.reached? owner node = some body := by
  rcases invokes with ⟨member, reached⟩ | ⟨other, inside, member, reached⟩
  · exact ⟨script, known, (Node.invocations_sublist List.filter_sublist).subset member, reached⟩
  · have drawn := sound.drawn other inside
    exact ⟨other.script, drawn.known, drawn.sublist.subset member, reached⟩

end CallTable

namespace Rebuild

variable {library : Library} {scripts : List Script} {script : Script} {table : CallTable}
  {done : List Callee} {inline : Bool} {log : List Encounter} {children methods result : List Node}
  {after : Slots} {sites : Sites}

namespace Sited

variable (sited : Sited table script script.root.body [] log result after methods sites)
include sited

theorem nodup_sources (ids : DistinctIds scripts) (known : script ∈ scripts)
    (sound : table.Sound library scripts script)
    (accounts : Accounts table (fun _ => true) inline log children) :
    (sites.map (·.1.id)).Nodup := by
  refine List.nodup_iff_count_le_one.2 fun id => (sited.sources id).trans ?_
  rw [← List.count_append]
  exact List.nodup_iff_count_le_one.1
    (CallTable.nodup_invocationIds ids known sound accounts) id

theorem nodup_calls (fresh : ((Node.invocations (methods ++ result)).map (·.id)).Nodup) :
    (sites.map (·.2.id)).Nodup := by
  refine List.nodup_iff_count_le_one.2 fun id => (sited.calls id).trans ?_
  rw [← List.count_append, ← List.map_append, ← Node.invocations_append]
  exact List.nodup_iff_count_le_one.1 fresh id

theorem declared {method : Node} (member : method ∈ methods) :
    method.kind = .method ∧ method.name? = some method.target := by
  obtain ⟨body, -, declaration, -⟩ := sited.bodies method member
  have named : method.name? = some body.canonical := by
    rw [Node.name?, declaration]
    rfl
  refine ⟨by rw [Node.kind, declaration], ?_⟩
  rw [named, Node.target_of_name? named]

theorem methods_eq {compiled : Node} (children : compiled.children = methods ++ result) :
    compiled.methods = methods := by
  rw [Node.methods, children, List.filter_append, List.filter_eq_self.2 fun method member => by
    simpa using (sited.declared member).1, List.filter_eq_nil_iff.2 fun node member => by
    simpa using sited.spliced.kind_ne_method node member, List.append_nil]

theorem names_eq : methods.filterMap (·.name?) = after.names := by
  rw [sited.added, List.nil_append, Slots.names_completed]
  rw [← List.filterMap_eq_map]
  exact List.filterMap_congr fun method member => (sited.declared member).2

end Sited

/-- The methods of a script that is flattened with inlining stand for the scripts it reaches; the
frames that go are those of the invocations of which no method is left. -/
theorem exists_splice (ids : DistinctIds scripts) (known : script ∈ scripts)
    (sound : table.Sound library scripts script)
    (surveyed : table.Surveyed library (fun _ => true) script done) (bodies : table.Regular)
    (regular : Node.AllRegular script.root.body)
    (settles : ∀ body ∈ table.bodies, body.isInlinable = true →
      Node.anyDeclares body.nodes = false)
    {compiled : Node} {next next' : NodeId}
    (gives : Rebuild.script table (fun _ => true) inline script next =
      .ok (compiled.children, next'))
    (fresh : ((Node.invocations compiled.children).map (·.id)).Nodup) :
    ∃ sites inlines δ methods body,
      Splice library scripts table sites inlines δ (Methods.declare [] compiled) ∧
      Spliced table sites inlines script script.root.body body ∧
      compiled.children = methods ++ body ∧ (∀ method ∈ methods, method.kind = .method) ∧
      δ.gone = (Dissolving.ofFrames (table.dissolvedFrames library scripts
        (compiled.methods.filterMap (·.name?)))).gone := by
  obtain ⟨log, ⟨body, s', logged, children, -⟩, accounts⟩ := surveyed.exists_accounts gives
  obtain ⟨methods, sites, sited⟩ := exists_sited bodies logged regular
  have itinerary := logged.itinerary surveyed.sourced
  have split : compiled.children = methods ++ body := by
    rw [children, sited.added, List.nil_append, Slots.completed, List.filterMap_map]
    simp
  have own := sited.methods_eq split
  have names := sited.names_eq
  have distinct : (methods.filterMap (·.name?)).Nodup := by
    rw [names]
    exact itinerary.nodup .nil
  rw [split] at fresh
  rw [own, names]
  generalize frames : table.dissolvedFrames library scripts (Slots.names s'.methods) = gone
  refine ⟨_, _, { (sitePairing library sites (sited.nodup_sources ids known sound accounts)
    (sited.nodup_calls fresh)).toRenaming with
      gone := (Dissolving.ofFrames gone).gone
      marked := (Dissolving.ofFrames gone).marked }, methods, body, ⟨?_, ?_, ?_, ?_⟩, sited.spliced,
    split, fun method member => (sited.declared member).1, rfl⟩
  case refine_1 =>
    intro node twin other site member canonical
    obtain ⟨there, -⟩ := sited.targets _ site
    rw [← names] at there
    obtain ⟨method, inside, named⟩ := List.mem_filterMap.1 there
    obtain ⟨other', member', declaration, spliced⟩ := sited.bodies method inside
    have named' : method.name? = some other'.canonical := by
      rw [Node.name?, declaration]
      rfl
    have same : other' = other := List.inj_on_of_nodup_map sound.distinct member' member
      (by rw [canonical]; exact Option.some.inj (named'.symm.trans named))
    refine ⟨method, ?_, (sited.declared inside).1, same ▸ spliced⟩
    exact Methods.lookup_foldl_of_mem (own.symm ▸ distinct) (own.symm ▸ inside) named []
  case refine_2 =>
    intro node twin site
    obtain ⟨there, body', invokes, target⟩ := sited.targets _ site
    refine ⟨Pairing.apply_of_mem _ (List.mem_map_of_mem site), ?_⟩
    -- Another invocation with this frame would be this one, which is called.
    rw [Bool.eq_false_iff]
    intro given
    simp only [Dissolving.ofFrames, Bool.and_eq_true, List.contains_iff_mem, ← frames] at given
    obtain ⟨owner, known', other, inside, body'', reached, absent, same⟩ :=
      CallTable.mem_dissolvedFrames.1 given.2
    obtain ⟨owner', known'', inside', reached'⟩ := invokes.exists_script sound known
    have equal := Node.id_eq_of_calledFrame same
    obtain rfl := ids.across owner known' owner' known'' other inside node inside' equal
    obtain rfl := List.inj_on_of_nodup_map (ids.within owner known') inside inside' equal
    cases reached.symm.trans reached'
    exact absent (target ▸ there)
  case refine_3 =>
    intro owner node body' known' inside reached inlines
    have member := CallTable.mem_of_reached? reached
    obtain ⟨target, framed⟩ := node.exists_calledFrame library
    simp only [Dissolving.ofFrames, Bool.and_eq_true, List.contains_iff_mem, ← frames]
    refine ⟨framed ▸ marked_invocationFrame _ _, CallTable.mem_dissolvedFrames.2
      ⟨owner, known', node, inside, body', reached, ?_, rfl⟩⟩
    exact CallTable.not_mem_names_of_inlined surveyed accounts itinerary member inlines.1
  case refine_4 => exact fun {body'} member inlines => settles body' member inlines.2

end Rebuild

end Archetype
