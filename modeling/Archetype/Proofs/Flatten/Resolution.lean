import Archetype.Proofs.Flatten.Closed
import Archetype.Proofs.Flatten.Simulation
import Archetype.Proofs.Flatten.Unresolved
import Archetype.Proofs.Walk.Calls

/-!
What calls resolve to. A walk looks a name up among all methods that can be called, those of the
script that was sourced last before those of the scripts around it. A scan looks it up among the
methods of the script that the call stands in. Both come to the same method as long as the calls
that are open in a script name methods of that script.
-/

namespace Archetype

def Node.Scanned (filter : Node → Bool) (node : Node) : Prop :=
  filter node = true ∧ (node.role = .condition → node.constant? ≠ some false)

instance (filter : Node → Bool) : DecidablePred (Node.Scanned filter) :=
  fun node => inferInstanceAs (Decidable (_ ∧ (node.role = .condition → _)))

theorem Leads.of_mem {library : Library} {filter : Node → Bool} {script : Script} {node : Node}
    {nodes : List Node} {callee : Callee} (leads : Leads library filter script [node] callee)
    (member : node ∈ nodes) : Leads library filter script nodes callee := by
  induction nodes with
  | nil => cases member
  | cons first rest ih =>
      rw [leads_cons]
      rcases List.mem_cons.1 member with rfl | member
      · exact .inl leads
      · exact .inr (ih member)

namespace Point

variable {point : Point} {script : Script} {call : Node}

theorem owner?_eq_some : point.owner? call = some script ↔
    point.home = some script ∧ script.declares call.target = true := by
  rw [owner?, Option.filter_eq_some_iff]

/-- The script whose nodes are walked is one of those at hand, and the names of its methods lead to
them. -/
def Homed (scripts : List Script) (point : Point) : Prop :=
  ∀ script, point.home = some script → script ∈ scripts ∧ point.methods.Covers script

variable {scripts : List Script}

theorem homed_atRoot (known : script ∈ scripts)
    (single : (script.root.methods.filterMap (·.name?)).Nodup) (methods : Methods) :
    (atRoot methods script).Homed scripts := by
  rintro _ ⟨⟩
  exact ⟨known, Methods.covers_declare single methods⟩

theorem Homed.on (homed : point.Homed scripts) (node : Node) : (point.on node).Homed scripts :=
  homed

theorem Homed.called (homed : point.Homed scripts) (call : Node) :
    (point.called call).Homed scripts :=
  fun script home => homed script (owner?_eq_some.1 home).1

theorem Homed.sourced (known : script ∈ scripts)
    (single : (script.root.methods.filterMap (·.name?)).Nodup) :
    (point.sourced script).Homed scripts := by
  rintro _ ⟨⟩
  exact ⟨known, Methods.covers_declare single point.methods⟩

theorem Homed.find?_of_lookup (homed : point.Homed scripts) {method : Node}
    (owner : point.owner? call = some script)
    (found : point.methods.lookup call.target = some method) :
    script.root.methods.find? (·.name? = some call.target) = some method := by
  obtain ⟨home, declares⟩ := owner?_eq_some.1 owner
  obtain ⟨known, covers⟩ := homed script home
  cases first : script.root.methods.find? (·.name? = some call.target) with
  | none =>
      obtain ⟨other, member, named⟩ := List.any_eq_true.1 declares
      exact absurd named (by simpa using List.find?_eq_none.1 first other member)
  | some other =>
      have named : other.name? = some call.target := by simpa using List.find?_some first
      rw [← found, covers other (List.mem_of_find?_eq_some first) _ named]

end Point

namespace Executes

variable {library : Library} {scripts : List Script} {point : Point} {node : Node}
  {call : ExecutedCall}

theorem found (executes : Executes library point node call) :
    call.point.methods.lookup call.node.target = some call.method := by
  induction executes with
  | call _ found => exact found
  | inside _ _ _ ih => exact ih
  | called _ _ _ _ ih => exact ih
  | sourced _ _ _ _ ih => exact ih

/-- Sourcing a script makes its methods what their names lead to; calling a method of the script
changes nothing about that. -/
theorem homed (executes : Executes library point node call) (atHand : AtHand library scripts)
    (single : ∀ known ∈ scripts, (known.root.methods.filterMap (·.name?)).Nodup)
    (homed : point.Homed scripts) : call.point.Homed scripts := by
  induction executes with
  | call => exact homed
  | inside _ _ _ ih => exact ih (homed.on _)
  | called _ _ _ _ ih => exact ih ((homed.called _).on _)
  | sourced _ loaded _ _ ih =>
      have known := atHand.loads _ _ loaded
      exact ih ((Point.Homed.sourced known (single _ known)).on _)

theorem way_subset (executes : Executes library point node call) :
    point.way ⊆ call.point.way := by
  induction executes with
  | call => exact List.Subset.refl _
  | inside _ _ _ ih => exact List.Subset.trans (List.subset_cons_self ..) ih
  | called _ _ _ _ ih => exact List.Subset.trans (List.subset_cons_self ..) ih
  | sourced _ _ _ _ ih => exact List.Subset.trans (List.subset_cons_self ..) ih

end Executes

namespace CallTable.Explored

variable {library : Library} {filter : Node → Bool} {scripts : List Script} {root script : Script}
  {table : CallTable} {done : List Callee}

theorem body?_of_mem (explored : table.Explored library filter scripts root done) {callee : Callee}
    (member : callee ∈ done) : ∃ body, table.body? callee = some body := by
  obtain ⟨body, inside, same⟩ := (explored.entered callee).1 member
  cases found : table.body? callee with
  | some other => exact ⟨other, rfl⟩
  | none => exact absurd (decide_eq_true same) (List.find?_eq_none.1 found body inside)

theorem body?_eq (explored : table.Explored library filter scripts root done) {callee : Callee}
    {body : SharedBody} (found : table.body? callee = some body) :
    callee.body? scripts = some (body.script, body.nodes) := by
  have same : body.callee = callee := by simpa using List.find?_some found
  rw [← same]
  exact explored.bodies body (List.mem_of_find?_eq_some found)

theorem declares (explored : table.Explored library filter scripts root done)
    (distinct : DistinctScripts scripts) (known : script ∈ scripts) {name : String}
    (member : .method script.identity name ∈ done) : script.declares name = true := by
  obtain ⟨body, found⟩ := explored.body?_of_mem member
  obtain ⟨other, at', declared⟩ := Option.bind_eq_some_iff.1 (explored.body?_eq found)
  obtain ⟨method, first, -⟩ := Option.map_eq_some_iff.1 declared
  obtain rfl : script = other := by simpa [distinct.find?_eq known] using at'
  exact List.any_eq_true.2
    ⟨method, List.mem_of_find?_eq_some first, by simpa using List.find?_some first⟩

end CallTable.Explored

/-- A scan comes to the node the way that the walk does, and is done with all that it leads to. -/
structure Followed (library : Library) (filter : Node → Bool) (done : List Callee) (point : Point)
    (node : Node) (script : Script) : Prop where
  here : node ∈ point.way
  home : point.home = some script
  leads : ∀ callee, Leads library filter script [node] callee → callee ∈ done

namespace Followed

variable {library : Library} {filter : Node → Bool} {scripts : List Script} {root script : Script}
  {table : CallTable} {done : List Callee} {point : Point} {node child : Node}

theorem inside (followed : Followed library filter done point node script)
    (role : node.role = .condition ∨ ∃ frame, node.role = .block frame)
    (scanned : node.Scanned filter) (member : child ∈ node.children) :
    Followed library filter done (point.on child) child script where
  here := List.mem_cons_self ..
  home := followed.home
  leads callee leads := by
    refine followed.leads callee (leads_single.2 ⟨scanned.1, ?_⟩)
    rcases role with role | ⟨frame, role⟩
    · simp only [role]
      exact ⟨scanned.2 role, leads.of_mem member⟩
    · simp only [role]
      exact leads.of_mem member

/-- A call leads to a method that the script declares, as the scan is done with it. -/
theorem done_of_call (followed : Followed library filter done point node script)
    (explored : table.Explored library filter scripts root done)
    (distinct : DistinctScripts scripts) (homed : point.Homed scripts) (role : node.role = .call)
    (scanned : node.Scanned filter) :
    point.owner? node = some script ∧ .method script.identity node.target ∈ done := by
  have reached : .method script.identity node.target ∈ done :=
    followed.leads _ (leads_single.2 ⟨scanned.1, by simp [role, Node.callee?]⟩)
  have declares := explored.declares distinct (homed script followed.home).1 reached
  exact ⟨Point.owner?_eq_some.2 ⟨followed.home, declares⟩, reached⟩

theorem called (followed : Followed library filter done point node script)
    (explored : table.Explored library filter scripts root done)
    (distinct : DistinctScripts scripts) (homed : point.Homed scripts) (role : node.role = .call)
    (scanned : node.Scanned filter) {method : Node}
    (found : point.methods.lookup node.target = some method) (member : child ∈ method.children) :
    Followed library filter done ((point.called node).on child) child script := by
  obtain ⟨owner, reached⟩ := followed.done_of_call explored distinct homed role scanned
  have known := (homed script followed.home).1
  have body := Callee.body?_method distinct known (homed.find?_of_lookup owner found)
  exact ⟨List.mem_cons_self .., owner, fun callee leads =>
    explored.settled.closed reached ⟨script, _, body, leads.of_mem member⟩⟩

theorem sourced (followed : Followed library filter done point node script)
    (explored : table.Explored library filter scripts root done)
    (distinct : DistinctScripts scripts) (role : node.role = .source)
    (scanned : node.Scanned filter) {target : Script} (known : target ∈ scripts)
    (loaded : library.load node.origin = .ok target) (member : child ∈ target.root.children) :
    Followed library filter done ((point.sourced target).on child) child target := by
  have reached : .script target.identity ∈ done := followed.leads _
    (leads_single.2 ⟨scanned.1, by simp [role, Node.callee?, loaded, Except.toOption]⟩)
  have body := Callee.body?_script distinct known
  refine ⟨List.mem_cons_self .., rfl, fun callee leads => ?_⟩
  obtain ⟨invocation, reaches, leads⟩ := leads.of_mem member
  exact explored.settled.closed reached ⟨target, _, body, invocation, reaches.of_body, leads⟩

end Followed

/-- Where the scan comes the way that the walk does, it is done with what the call leads to. -/
theorem Executes.done_of_followed {library : Library} {filter : Node → Bool}
    {scripts : List Script} {root : Script} {table : CallTable} {done : List Callee} {point : Point}
    {node : Node} {call : ExecutedCall}
    (explored : table.Explored library filter scripts root done)
    (atHand : AtHand library scripts)
    (single : ∀ known ∈ scripts, (known.root.methods.filterMap (·.name?)).Nodup)
    (executes : Executes library point node call)
    (scanned : ∀ passed ∈ call.point.way, passed.Scanned filter) (homed : point.Homed scripts)
    {script : Script} (followed : Followed library filter done point node script) :
    ∃ owner, call.owner? = some owner ∧ .method owner.identity call.node.target ∈ done := by
  induction executes generalizing script with
  | call role _ =>
      have here := scanned _ followed.here
      exact ⟨script, followed.done_of_call explored atHand.distinct homed role here⟩
  | inside role member inner ih =>
      have here := scanned _ (inner.way_subset (List.mem_cons_of_mem _ followed.here))
      exact ih scanned (homed.on _) (followed.inside role here member)
  | called role found member inner ih =>
      have here := scanned _ (inner.way_subset (List.mem_cons_of_mem _ followed.here))
      exact ih scanned ((homed.called _).on _)
        (followed.called explored atHand.distinct homed role here found member)
  | sourced role loaded member inner ih =>
      have here := scanned _ (inner.way_subset (List.mem_cons_of_mem _ followed.here))
      have known := atHand.loads _ _ loaded
      exact ih scanned ((Point.Homed.sourced known (single _ known)).on _)
        (followed.sourced explored atHand.distinct role here known loaded member)

/-- A scan that comes to a call of a declared method does not report it, and binds it to nothing but
that method. -/
theorem CallTable.ofScript_resolves {library : Library} {filter : Node → Bool} {hideNames : Bool}
    {script owner : Script} (distinct : DistinctScripts (script :: library.scripts))
    (known : owner ∈ script :: library.scripts) {name : String} {method : Node}
    (first : owner.root.methods.find? (·.name? = some name) = some method) :
    match CallTable.ofScript library filter hideNames script with
    | .error error => error ≠ .unresolvedInvocation name owner.identity
    | .ok table => ∀ body, table.body? (.method owner.identity name) = some body →
        body.script = owner ∧ body.nodes = method.children := by
  have explored := @CallTable.ofScript_explored library filter hideNames script distinct
  cases scanned : CallTable.ofScript library filter hideNames script with
  | error error =>
      rintro rfl
      obtain ⟨other, otherKnown, same, undeclared⟩ := CallTable.blames_of_ofScript scanned _ _ rfl
      obtain rfl := distinct other otherKnown owner known same
      have named := List.find?_some first
      exact List.any_eq_false.1 undeclared method (List.mem_of_find?_eq_some first) named
  | ok table =>
      rw [scanned] at explored
      obtain ⟨done, explored⟩ := explored
      intro body found
      have drawn := explored.body?_eq found
      rw [Callee.body?_method distinct known first] at drawn
      obtain ⟨owns, nodes⟩ := Prod.mk.inj (Option.some.inj drawn)
      exact ⟨owns.symm, nodes.symm⟩

/-- From the root of a script, a scan that goes the way of the walk binds the call. -/
theorem Executes.exists_body {library : Library} {filter : Node → Bool} {hideNames : Bool}
    {script : Script} (distinct : DistinctScripts (script :: library.scripts))
    (single : ∀ known ∈ script :: library.scripts,
      (known.root.methods.filterMap (·.name?)).Nodup)
    {methods : Methods} {call : ExecutedCall}
    (executes : Executes library (.atRoot methods script) script.root call)
    (follows : script.root.isInvocation = false)
    (scanned : ∀ node ∈ call.point.way, node.Scanned filter) {table : CallTable}
    (gives : CallTable.ofScript library filter hideNames script = .ok table) :
    ∃ owner body, call.owner? = some owner ∧
      table.body? (.method owner.identity call.node.target) = some body := by
  have atHand := distinct.atHand
  have known : script ∈ script :: library.scripts := List.mem_cons_self ..
  have start := Point.homed_atRoot known (single _ known) methods
  have explored := @CallTable.ofScript_explored library filter hideNames script distinct
  rw [gives] at explored
  obtain ⟨done, explored⟩ := explored
  have reached : ∃ owner, call.owner? = some owner ∧
      .method owner.identity call.node.target ∈ done := by
    cases executes with
    | call role _ => simp [Node.isInvocation_eq, role] at follows
    | called role _ _ _ => simp [Node.isInvocation_eq, role] at follows
    | sourced role _ _ _ => simp [Node.isInvocation_eq, role] at follows
    | inside _ member inner =>
        -- The scan does not ask the filter for the root, so it starts with the nodes below.
        exact inner.done_of_followed explored atHand single scanned (start.on _)
          ⟨List.mem_cons_self .., rfl, fun callee leads => explored.leads _ (leads.of_mem member)⟩
  obtain ⟨owner, owned, reached⟩ := reached
  obtain ⟨body, found⟩ := explored.body?_of_mem reached
  exact ⟨owner, body, owned, found⟩

/-- The scripts are told apart by their identities, and none of them declares two methods of one
name. Then every call that a walk executes, if it and the calls that are open around it in its
script name methods that the script declares, is resolved to the one method of that name: a scan
never reports it as unresolved and never binds it to anything else. If a scan ends without an error,
every call that it comes to the way that the walk does is such a call, and it is bound. A walk that
fails, or that a visitor ends, notes the calls that it has executed by then. -/
theorem calls_resolve_alike {library : Library} {script : Script}
    (distinct : DistinctScripts (script :: library.scripts))
    (single : ∀ known ∈ script :: library.scripts,
      (known.root.methods.filterMap (·.name?)).Nodup)
    {visitor : Visitor σ} {limit : Nat} {methods : Methods} {tree tree' : ScopeTree} {s s' : σ}
    {result : Except RunError Unit}
    (walks : walk visitor library limit methods script.root (tree, s) =
      some (result, (tree', s'))) :
    ∃ calls, CallWalk.walk visitor library limit methods script (tree, (s, [])) =
        some (result, (tree', (s', calls))) ∧
      ∀ call ∈ calls, ∀ (filter : Node → Bool) (hideNames : Bool),
        (∀ owner, call.owner? = some owner →
          owner.root.methods.find? (·.name? = some call.node.target) = some call.method ∧
          match CallTable.ofScript library filter hideNames script with
          | .error error => error ≠ .unresolvedInvocation call.node.target owner.identity
          | .ok table => ∀ body,
              table.body? (.method owner.identity call.node.target) = some body →
                body.script = owner ∧ body.nodes = call.method.children) ∧
        (script.root.isInvocation = false → (∀ node ∈ call.point.way, node.Scanned filter) →
          ∀ table, CallTable.ofScript library filter hideNames script = .ok table →
            ∃ owner body, call.owner? = some owner ∧
              table.body? (.method owner.identity call.node.target) = some body) := by
  obtain ⟨calls, noted, each⟩ := exists_calls walks
  have atHand := distinct.atHand
  have known : script ∈ script :: library.scripts := List.mem_cons_self ..
  have start := Point.homed_atRoot known (single _ known) methods
  refine ⟨calls, noted, fun call member filter hideNames => ⟨fun owner owned => ?_, ?_⟩⟩
  · have homed := (each call member).homed atHand single start
    have first := homed.find?_of_lookup owned (each call member).found
    have ownerKnown := (homed owner (Point.owner?_eq_some.1 owned).1).1
    exact ⟨first, CallTable.ofScript_resolves distinct ownerKnown first⟩
  · intro follows scanned table gives
    exact (each call member).exists_body distinct single follows scanned gives

/-! Calls in a few scripts. -/

namespace Calling

def script (identity : String) (children : List Node) : Script :=
  ⟨identity, .bare 0 .script [] children⟩

def method (id : UInt64) (name : String) (children : List Node) : Node :=
  .bare id .method [("name", .string name)] children

def call (id : UInt64) (name : String) : Node := .bare id .invokeCall [("name", .string name)] []

def source (id : UInt64) (src : String) : Node := .bare id .invokeSource [("src", .string src)] []

def step (id : UInt64) (name : String) (children : List Node) : Node :=
  .bare id .step [("name", .string name)] children

/-- How a walk that visits nothing ends, and the numbers of its calls, each with the number of the
method that it is resolved to. -/
def walked (library : Library) (root : Script) :
    Option (Except RunError Unit × List (NodeId × NodeId)) :=
  (CallWalk.walk ({} : Visitor Unit) library 5 [] root ({}, (), [])).map
    fun (result, _, _, calls) =>
      (result, calls.map fun (call : ExecutedCall) => (call.node.id, call.method.id))

/-- The numbers of the nodes that a scan binds to the calls of a name in the script. -/
def bound (library : Library) (filter : Node → Bool) (root : Script) (identity name : String) :
    Except CompileError (Option (List NodeId)) :=
  (CallTable.ofScript library filter false root).map fun table =>
    (table.body? (.method identity name)).map fun body => body.nodes.map (·.id)

/-- A script that declares and calls a method, and one that it sources, which does the same. -/
def outer : Script := script "a" [method 1 "m" [step 2 "s" []], call 3 "m", source 4 "b"]

def inner : Script := script "b" [method 5 "m" [step 6 "t" []], call 7 "m"]

end Calling

open Calling in
/-- Two scripts call methods of one name, and each call comes to the method of its own script. -/
theorem calls_resolve_alike_of_namesakes : ∃ calls table,
    (CallWalk.walk ({} : Visitor Unit) (.ofScripts [inner]) 5 [] outer ({}, (), [])).map
      (fun outcome => outcome.2.2.2) = some calls ∧
    CallTable.ofScript (.ofScripts [inner]) (fun _ => true) false outer = .ok table ∧
    calls.map (fun call => (call.node.id, call.method.id)) = [(⟨3⟩, ⟨1⟩), (⟨7⟩, ⟨5⟩)] ∧
    ∀ call ∈ calls, ∃ owner body, call.owner? = some owner ∧
      table.body? (.method owner.identity call.node.target) = some body ∧
      body.script = owner ∧ body.nodes = call.method.children := by
  have distinct : DistinctScripts (outer :: (Library.ofScripts [inner]).scripts) :=
    .of_nodup (by decide +kernel)
  have ends : (walk ({} : Visitor Unit) (.ofScripts [inner]) 5 [] outer.root ({}, ())).isSome := by
    decide +kernel
  have notes : (CallWalk.walk ({} : Visitor Unit) (.ofScripts [inner]) 5 [] outer
      ({}, (), [])).any fun (_, _, _, calls) =>
        decide (calls.map (fun (call : ExecutedCall) => (call.node.id, call.method.id)) =
          [(⟨3⟩, ⟨1⟩), (⟨7⟩, ⟨5⟩)] ∧
        ∀ call ∈ calls, ∀ node ∈ call.point.way, node.Scanned fun _ => true) := by
    decide +kernel
  have scans : (CallTable.ofScript (.ofScripts [inner]) (fun _ => true) false
      outer).toOption.isSome := by
    decide +kernel
  obtain ⟨⟨result, tree, _⟩, walks⟩ := Option.isSome_iff_exists.1 ends
  obtain ⟨calls, noted, alike⟩ := calls_resolve_alike distinct (by decide +kernel) walks
  rw [noted] at notes ⊢
  obtain ⟨numbers, scanned⟩ := of_decide_eq_true notes
  cases bound : CallTable.ofScript (.ofScripts [inner]) (fun _ => true) false outer with
  | error error => simp [bound, Except.toOption] at scans
  | ok table =>
      refine ⟨calls, table, rfl, rfl, numbers, fun call member => ?_⟩
      obtain ⟨resolves, binds⟩ := alike call member (fun _ => true) false
      obtain ⟨owner, body, owned, found⟩ := binds rfl (scanned call member) table bound
      have same := (resolves owner owned).2
      rw [bound] at same
      exact ⟨owner, body, owned, found, same body found⟩

open Calling in
/-- What sets a walk and a scan apart. A sourced script calls a method that only the script around
it declares; a method calls another that a script, sourced meanwhile, declares as well; a script
declares two methods of one name; two scripts have one identity. -/
theorem calls_resolve_apart :
    let lending := script "a" [method 1 "m" [step 2 "s" []], source 3 "b"]
    let borrowing := script "b" [call 4 "m"]
    let lower := script "a" [method 1 "m" [call 2 "k"], method 3 "k" [step 4 "s" []], call 5 "m",
      source 6 "b"]
    let upper := script "b" [method 7 "k" [step 8 "t" []], step 9 "x" [call 10 "m"]]
    let twice := script "a" [method 1 "m" [step 2 "s" []], method 3 "m" [step 4 "t" []], call 5 "m"]
    let first := script "b" [method 1 "m" [step 2 "s" []], source 3 "b"]
    let second := script "b" [method 4 "m" [step 5 "t" []], call 6 "m"]
    (∀ built ∈ [lending, borrowing, lower, upper, twice, first, second], built.root.Built) ∧
    (walked (.ofScripts [borrowing]) lending = some (.ok (), [(⟨4⟩, ⟨1⟩)]) ∧
      bound (.ofScripts [borrowing]) (fun _ => true) lending "b" "m" =
        .error (.unresolvedInvocation "m" "b")) ∧
    (walked (.ofScripts [upper]) lower =
        some (.ok (), [(⟨5⟩, ⟨1⟩), (⟨2⟩, ⟨3⟩), (⟨10⟩, ⟨1⟩), (⟨2⟩, ⟨7⟩)]) ∧
      bound (.ofScripts [upper]) (·.name? ≠ some "x") lower "a" "k" = .ok (some [⟨4⟩])) ∧
    (walked .empty twice = some (.ok (), [(⟨5⟩, ⟨3⟩)]) ∧
      bound .empty (fun _ => true) twice "a" "m" = .ok (some [⟨2⟩])) ∧
    (walked (.ofScripts [second]) first = some (.ok (), [(⟨6⟩, ⟨4⟩)]) ∧
      bound (.ofScripts [second]) (fun _ => true) first "b" "m" = .ok (some [⟨2⟩])) := by
  refine ⟨?_, ⟨?_, ?_⟩, ⟨?_, ?_⟩, ⟨?_, ?_⟩, ?_, ?_⟩
  · unfold Node.Built
    decide +kernel
  all_goals decide +kernel

end Archetype
