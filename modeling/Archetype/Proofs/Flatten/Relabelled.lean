import Archetype.Proofs.Flatten.Exploring
import Archetype.Proofs.Script.Similar
import Mathlib.Logic.Relator

/-!
Scripts that differ in names alone. No step of a scan depends on what a name is: two families of
such scripts are scanned in lockstep, and the bodies of the two call tables correspond one by one.
-/

namespace Archetype

open Stateful

/-- Which names of one family of scripts stand for which of another: the identities of scripts,
what they are sourced from, and the names of the methods of a script, given by its identity. No two
names of a side stand for one of the other. The rest is what nodes, and errors of loading, have in
common. -/
structure Relabelling where
  identity : String → String → Prop
  source : String → String → Prop
  method : String → String → String → Prop
  identity_unique : Relator.BiUnique identity
  source_unique : Relator.BiUnique source
  method_unique : ∀ owner, Relator.BiUnique (method owner)
  alike : Node → Node → Prop
  fault : RunError → RunError → Prop

/-- Two nodes of scripts that stand for each other, the first in a script of some identity. Their
numbers and locations may be anything. -/
structure Node.Relabelled (ρ : Relabelling) (owner : String) (node twin : Node) : Prop where
  kind : twin.kind = node.kind
  declared : match node.kind with
    | .script => node.attributes.SameButName twin.attributes
    | .method => Option.Rel (ρ.method owner) node.name? twin.name?
    | .invokeCall => ρ.method owner node.target twin.target
    | .invokeSource => ρ.source node.origin twin.origin
    | _ => twin.attributes = node.attributes
  expression : twin.expression = node.expression
  alike : ρ.alike node twin

structure Script.Relabelled (ρ : Relabelling) (script twin : Script) : Prop where
  identity : ρ.identity script.identity twin.identity
  root : Matched (Node.Relabelled ρ script.identity) [script.root] [twin.root]

def Library.Relabelled (ρ : Relabelling) (library twin : Library) : Prop :=
  List.Forall₂ (fun entry entry' => ρ.source entry.1 entry'.1 ∧
    Corresponds ρ.fault (Script.Relabelled ρ) entry.2 entry'.2) library.entries twin.entries

inductive Callee.Relabelled (ρ : Relabelling) : Callee → Callee → Prop
  | script (same : ρ.identity identity identity') :
      Relabelled ρ (.script identity) (.script identity')
  | method (same : ρ.identity owner owner') (named : ρ.method owner name name') :
      Relabelled ρ (.method owner name) (.method owner' name')

inductive CompileError.Relabelled (ρ : Relabelling) : CompileError → CompileError → Prop
  | call (same : ρ.identity owner owner') (named : ρ.method owner name name') :
      Relabelled ρ (.unresolvedInvocation name owner) (.unresolvedInvocation name' owner')
  | source (same : ρ.identity owner owner') (named : ρ.source src src') :
      Relabelled ρ (.unresolvedInvocation src owner) (.unresolvedInvocation src' owner')
  | recursive (same : Callee.Relabelled ρ callee callee') :
      Relabelled ρ (.recursiveInvocation callee) (.recursiveInvocation callee')
  | unlisted (named : ρ.source src src') :
      Relabelled ρ (.load (.unresolvedInvocation src)) (.load (.unresolvedInvocation src'))
  | unloadable (alike : ρ.fault error error') : Relabelled ρ (.load error) (.load error')
  | construction (error : NodeError) : Relabelled ρ (.construction error) (.construction error)
  | nestedTooDeeply : Relabelled ρ .nestedTooDeeply .nestedTooDeeply

structure SharedBody.Relabelled (ρ : Relabelling) (body twin : SharedBody) : Prop where
  callee : Callee.Relabelled ρ body.callee twin.callee
  count : twin.count = body.count
  script : Script.Relabelled ρ body.script twin.script
  nodes : Matched (Node.Relabelled ρ body.script.identity) body.nodes twin.nodes

structure CallTable.Relabelled (ρ : Relabelling) (table twin : CallTable) : Prop where
  bodies : List.Forall₂ (SharedBody.Relabelled ρ) table.bodies twin.bodies
  sources : List.Forall₂ (fun entry entry' => ρ.source entry.1 entry'.1 ∧
    ρ.identity entry.2 entry'.2) table.sources twin.sources

theorem Callee.biUnique (ρ : Relabelling) : Relator.BiUnique (Callee.Relabelled ρ) := by
  constructor
  · rintro callee other twin (same | ⟨same, named⟩) (same' | ⟨same', named'⟩)
    · rw [ρ.identity_unique.left same same']
    · obtain rfl := ρ.identity_unique.left same same'
      rw [(ρ.method_unique _).left named named']
  · rintro callee twin other (same | ⟨same, named⟩) (same' | ⟨same', named'⟩)
    · rw [ρ.identity_unique.right same same']
    · rw [ρ.identity_unique.right same same', (ρ.method_unique _).right named named']

variable {ρ : Relabelling}

namespace Node.Relabelled

variable {owner : String} {node twin : Node} (same : node.Relabelled ρ owner twin)
include same

/-- Where no name of a script or a method is declared or used, the attributes are the same. -/
theorem attributes (script : node.kind ≠ .script) (method : node.kind ≠ .method)
    (call : node.kind ≠ .invokeCall) (source : node.kind ≠ .invokeSource) :
    twin.attributes = node.attributes := by
  have declared := same.declared
  split at declared
  · exact absurd ‹_› script
  · exact absurd ‹_› method
  · exact absurd ‹_› call
  · exact absurd ‹_› source
  · exact declared

theorem target (call : node.kind = .invokeCall) : ρ.method owner node.target twin.target := by
  have declared := same.declared
  rwa [call] at declared

theorem origin (source : node.kind = .invokeSource) : ρ.source node.origin twin.origin := by
  have declared := same.declared
  rwa [source] at declared

theorem name (method : node.kind = .method) :
    Option.Rel (ρ.method owner) node.name? twin.name? := by
  have declared := same.declared
  rwa [method] at declared

theorem role_eq : twin.role = node.role := by
  have kind := same.kind
  have named : node.kind.frame? ≠ none → node.kind ≠ .method → twin.name? = node.name? := by
    intro framed method
    rw [name?, name?, Declaration.name?, Declaration.name?,
      show twin.declaration.attributes = node.declaration.attributes from
        same.attributes (fun other => framed (other ▸ rfl)) method
          (fun other => framed (other ▸ rfl)) fun other => framed (other ▸ rfl)]
  unfold role
  rw [kind]
  cases own : node.kind <;> simp only [NodeKind.frame?] <;>
    rw [named (by simp [own, NodeKind.frame?]) (by simp [own])]

theorem constant?_eq : twin.constant? = node.constant? := by
  rw [constant?, constant?, same.expression]

end Node.Relabelled

theorem Script.Relabelled.methods {script twin : Script} (same : script.Relabelled ρ twin) :
    List.Forall₂ (fun method method' => method.kind = .method ∧
      Matched (Node.Relabelled ρ script.identity) [method] [method'])
      script.root.methods twin.root.methods :=
  same.root.methods fun _ _ here => here.kind

theorem Script.Relabelled.body {script twin : Script} (same : script.Relabelled ρ twin) :
    Matched (Node.Relabelled ρ script.identity) script.root.body twin.root.body :=
  (Matched.single_iff.1 same.root).2.filter fun node other here => by rw [here.kind]

theorem Library.Relabelled.load {library twin : Library} (same : library.Relabelled ρ twin)
    {src src' : String} (named : ρ.source src src') :
    Corresponds (fun error error' => CompileError.Relabelled ρ (.load error) (.load error'))
      (Script.Relabelled ρ) (library.load src) (twin.load src') := by
  have found : Option.Rel (fun result result' => ρ.source src src' ∧
      Corresponds ρ.fault (Script.Relabelled ρ) result result')
      (library.entries.lookup src) (twin.entries.lookup src') := by
    refine lookup_forall₂ src src' (fun entry entry' here => ?_) same
    rw [Bool.eq_iff_iff, beq_iff_eq, beq_iff_eq]
    exact Relator.rel_eq ρ.source_unique named here.1
  unfold Library.load
  generalize library.entries.lookup src = left, twin.entries.lookup src' = right at found
  cases found with
  | none => exact .error (.unlisted named)
  | some found =>
      cases found.2 with
      | ok related => exact .ok related
      | error related => exact .error (.unloadable related)

theorem Library.Relabelled.scripts {library twin : Library} (same : library.Relabelled ρ twin) :
    List.Forall₂ (Script.Relabelled ρ) library.scripts twin.scripts := by
  refine List.rel_filterMap (fun entry entry' here => ?_) same
  obtain ⟨_, result⟩ := entry
  obtain ⟨_, result'⟩ := entry'
  cases here.2 with
  | ok related => exact .some related
  | error _ => exact .none

theorem CallTable.Relabelled.body? {table twin : CallTable} (same : table.Relabelled ρ twin)
    {callee callee' : Callee} (related : Callee.Relabelled ρ callee callee') :
    Option.Rel (SharedBody.Relabelled ρ) (table.body? callee) (twin.body? callee') := by
  refine find?_forall₂ (fun body body' here => ?_) same.bodies
  exact decide_eq_decide.2 (Relator.rel_eq (Callee.biUnique ρ) here.callee related)

theorem CallTable.Relabelled.identity? {table twin : CallTable} (same : table.Relabelled ρ twin)
    {src src' : String} (named : ρ.source src src') :
    Option.Rel ρ.identity (table.identity? src) (twin.identity? src') := by
  have found : Option.Rel (fun identity identity' => ρ.source src src' ∧
      ρ.identity identity identity') (table.identity? src) (twin.identity? src') := by
    refine lookup_forall₂ src src' (fun entry entry' here => ?_) same.sources
    rw [Bool.eq_iff_iff, beq_iff_eq, beq_iff_eq]
    exact Relator.rel_eq ρ.source_unique named here.1
  generalize table.identity? src = left, twin.identity? src' = right at found
  cases found with
  | none => exact .none
  | some found => exact .some found.2

namespace Scan

structure State.Relabelled (ρ : Relabelling) (hideNames hideNames' : Bool) (s s' : State) :
    Prop where
  table : s.table.Relabelled ρ s'.table
  declared : List.Forall₂ (fun entry entry' =>
    Callee.Relabelled ρ (.method entry.1.1 entry.1.2) (.method entry'.1.1 entry'.1.2) ∧
    Matched (Node.Relabelled ρ entry.1.1) [entry.2] [entry'.2]) s.declared s'.declared
  named : s.Named hideNames
  named' : s'.Named hideNames'

abbrev Alongside (ρ : Relabelling) (hideNames hideNames' : Bool) (work work' : Scan Unit) : Prop :=
  Lockstep (CompileError.Relabelled ρ) (State.Relabelled ρ hideNames hideNames')
    (fun _ _ => True) work work'

variable {hideNames hideNames' : Bool} {script twin : Script}

theorem State.Relabelled.lookup {s s' : State} (same : s.Relabelled ρ hideNames hideNames' s')
    {owner owner' name name' : String}
    (related : Callee.Relabelled ρ (.method owner name) (.method owner' name')) :
    Option.Rel (fun method method' => Matched (Node.Relabelled ρ owner) [method] [method'])
      (s.declared.lookup (owner, name)) (s'.declared.lookup (owner', name')) := by
  have found : Option.Rel (fun method method' =>
      Callee.Relabelled ρ (.method owner name) (.method owner' name') ∧
      Matched (Node.Relabelled ρ owner) [method] [method'])
      (s.declared.lookup (owner, name)) (s'.declared.lookup (owner', name')) := by
    refine lookup_forall₂ (owner, name) (owner', name') (fun entry entry' here => ?_) same.declared
    obtain ⟨⟨_, _⟩, _⟩ := entry
    obtain ⟨⟨_, _⟩, _⟩ := entry'
    rw [Bool.eq_iff_iff, beq_iff_eq, beq_iff_eq]
    simpa using Relator.rel_eq (Callee.biUnique ρ) related here.1
  generalize s.declared.lookup (owner, name) = left,
    s'.declared.lookup (owner', name') = right at found
  cases found with
  | none => exact .none
  | some found => exact .some found.2

theorem alongside_noteMethod (scripts : script.Relabelled ρ twin) {method other : Node}
    (kind : method.kind = .method)
    (same : Matched (Node.Relabelled ρ script.identity) [method] [other]) :
    Alongside ρ hideNames hideNames' (noteMethod script method) (noteMethod twin other) := by
  have named := (Matched.single_iff.1 same).1.name kind
  unfold noteMethod
  generalize method.name? = left, other.name? = right at named
  cases named with
  | none => exact .pure trivial
  | @some name name' named =>
      refine .modify fun s s' start => ?_
      have key : Callee.Relabelled ρ (.method script.identity name) (.method twin.identity name') :=
        .method scripts.identity named
      have found := start.lookup key
      simp only
      generalize s.declared.lookup (script.identity, name) = left,
        s'.declared.lookup (twin.identity, name') = right at found
      cases found with
      | some _ => exact start
      | none => exact { start with
          declared := .cons ⟨key, same⟩ start.declared
          named := start.named.congr rfl rfl
          named' := start.named'.congr rfl rfl }

theorem alongside_declareMethods (scripts : script.Relabelled ρ twin) :
    Alongside ρ hideNames hideNames' (declareMethods script) (declareMethods twin) :=
  .forM (fun _ _ here => alongside_noteMethod scripts here.1 here.2) scripts.methods

/-- Both sides add a body under a name that is free there. -/
theorem alongside_add {callee callee' : Callee} {base base' : String} {nodes nodes' : List Node}
    {rest rest' : Scan Unit}
    (same : ∀ canonical canonical', SharedBody.Relabelled ρ ⟨callee, canonical, 1, script, nodes⟩
      ⟨callee', canonical', 1, twin, nodes'⟩)
    (later : Alongside ρ hideNames hideNames' rest rest') :
    Alongside ρ hideNames hideNames'
      (do
        let canonical ← nameBody hideNames base
        modify fun state => { state with
          table := { state.table with
            bodies := state.table.bodies ++ [⟨callee, canonical, 1, script, nodes⟩] } }
        rest)
      (do
        let canonical ← nameBody hideNames' base'
        modify fun state => { state with
          table := { state.table with
            bodies := state.table.bodies ++ [⟨callee', canonical, 1, twin, nodes'⟩] } }
        rest') := by
  intro s s' start
  have free := @ensures_nameBody hideNames base s start.named fun _ => False
  have free' := @ensures_nameBody hideNames' base' s' start.named' fun _ => False
  refine (Corresponds.of_ensures free free').bind fun named named' both => ?_
  obtain ⟨⟨table, declared, fresh⟩, table', declared', fresh'⟩ := both
  refine later _ _
    { table := ⟨?_, ?_⟩
      declared := ?_
      named := fresh _ rfl
      named' := fresh' _ rfl }
  · simp only [table, table']
    exact List.rel_append start.table.bodies (.cons (same _ _) .nil)
  · simp only [table, table']
    exact start.table.sources
  · simp only [declared, declared']
    exact start.declared

theorem State.Relabelled.recount {s s' : State} (same : s.Relabelled ρ hideNames hideNames' s')
    {callee callee' : Callee} (related : Callee.Relabelled ρ callee callee') :
    State.Relabelled ρ hideNames hideNames' { s with table := s.table.recount callee }
      { s' with table := s'.table.recount callee' } :=
  { same with
    table :=
      { same.table with
        bodies := by
          refine List.rel_map (fun body body' here => ?_) same.table.bodies
          have hit := Relator.rel_eq (Callee.biUnique ρ) here.callee related
          by_cases own : body.callee = callee
          · rw [if_pos own, if_pos (hit.1 own)]
            exact { here with count := congrArg (· + 1) here.count }
          · rw [if_neg own, if_neg fun own' => own (hit.2 own')]
            exact here }
    named := State.Named.recount same.named callee
    named' := State.Named.recount same.named' callee' }

section Bodies

variable {stack stack' : List Callee} {library library' : Library} {filter filter' : Node → Bool}
  {scanNodes scanNodes' : List Callee → Script → List Node → Scan Unit}

def AlongsideBodies (ρ : Relabelling) (hideNames hideNames' : Bool)
    (scanNodes scanNodes' : List Callee → Script → List Node → Scan Unit) : Prop :=
  ∀ {stack stack' script twin nodes nodes'}, List.Forall₂ (Callee.Relabelled ρ) stack stack' →
    script.Relabelled ρ twin → Matched (Node.Relabelled ρ script.identity) nodes nodes' →
    Alongside ρ hideNames hideNames' (scanNodes stack script nodes) (scanNodes' stack' twin nodes')

variable (pending : List.Forall₂ (Callee.Relabelled ρ) stack stack')
  (bodies : AlongsideBodies ρ hideNames hideNames' scanNodes scanNodes')
  (scripts : script.Relabelled ρ twin)
include pending bodies scripts

theorem alongside_enter {callee callee' : Callee} (callees : Callee.Relabelled ρ callee callee')
    {base base' : String} {nodes nodes' : List Node}
    (same : Matched (Node.Relabelled ρ script.identity) nodes nodes') :
    Alongside ρ hideNames hideNames' (enter hideNames stack scanNodes callee base script nodes)
      (enter hideNames' stack' scanNodes' callee' base' twin nodes') := by
  have open_ : callee ∈ stack ↔ callee' ∈ stack' :=
    List.rel_mem (Callee.biUnique ρ) callees pending
  have inner := bodies (.cons callees pending) scripts same
  unfold enter
  by_cases member : callee ∈ stack
  · simp only [member, open_.1 member, if_true]
    exact fun _ _ _ => .error (.recursive callees)
  · simp only [member, mt open_.2 member, if_false]
    refine .bind .get fun s s' start => ?_
    have found := start.table.body? callees
    generalize s.table.body? callee = left, s'.table.body? callee' = right at found
    cases found with
    | some _ => exact .modify fun _ _ start => start.recount callees
    | none =>
        have fresh := fun canonical canonical' =>
          (⟨callees, rfl, scripts, same⟩ : SharedBody.Relabelled ρ
            ⟨callee, canonical, 1, script, nodes⟩ ⟨callee', canonical', 1, twin, nodes'⟩)
        cases callees with
        | script _ =>
            exact alongside_add fresh (.andThen (alongside_declareMethods scripts) inner)
        | method _ _ => exact alongside_add fresh inner

omit scripts in
theorem alongside_source (libraries : library.Relabelled ρ library') {src src' : String}
    (named : ρ.source src src') :
    Alongside ρ hideNames hideNames' (source library (enter hideNames stack scanNodes) src)
      (source library' (enter hideNames' stack' scanNodes') src') := by
  have loads := libraries.load named
  unfold source
  generalize library.load src = left, library'.load src' = right at loads
  cases loads with
  | error fails => exact .throw fails
  | ok target =>
      refine .andThen (.modify fun s s' start => { start with
        table := { start.table with
          sources := .cons ⟨named, target.identity⟩ start.table.sources } }) ?_
      exact alongside_enter pending bodies target (.script target.identity) target.body

theorem alongside_call {name name' : String} (named : ρ.method script.identity name name') :
    Alongside ρ hideNames hideNames' (call (enter hideNames stack scanNodes) script name)
      (call (enter hideNames' stack' scanNodes') twin name') := by
  have key : Callee.Relabelled ρ (.method script.identity name) (.method twin.identity name') :=
    .method scripts.identity named
  unfold call
  refine .bind .get fun s s' start => ?_
  have found := start.lookup key
  generalize s.declared.lookup (script.identity, name) = left,
    s'.declared.lookup (twin.identity, name') = right at found
  cases found with
  | none => exact .throw (.call scripts.identity named)
  | some same =>
      exact alongside_enter pending bodies scripts key (Matched.single_iff.1 same).2

theorem alongside_nodes (libraries : library.Relabelled ρ library')
    (accepts : ∀ node other, ρ.alike node other → filter node = filter' other)
    {nodes nodes' : List Node} (same : Matched (Node.Relabelled ρ script.identity) nodes nodes') :
    Alongside ρ hideNames hideNames'
      (Scan.nodes library filter (enter hideNames stack scanNodes) script nodes)
      (Scan.nodes library' filter' (enter hideNames' stack' scanNodes') twin nodes') := by
  induction same with
  | nil => exact .pure trivial
  | @cons node other _ _ here _ _ below later =>
      refine .andThen (show Alongside ρ hideNames hideNames' _ _ from ?_) later
      rw [node_eq, node_eq, accepts node other here.alike, here.role_eq, here.constant?_eq]
      split
      · cases role : node.role with
        | declaration => exact .pure trivial
        | condition =>
            simp only
            split
            · exact .pure trivial
            · exact below
        | source =>
            exact alongside_source pending bodies libraries
              (here.origin (Node.role_eq_source.1 role))
        | call =>
            exact alongside_call pending bodies scripts (here.target (Node.role_eq_call.1 role))
        | block frame => exact below
      · exact .pure trivial

end Bodies

section Libraries

variable {library library' : Library} {filter filter' : Node → Bool}
  (libraries : library.Relabelled ρ library')
  (accepts : ∀ node other, ρ.alike node other → filter node = filter' other)
include libraries

include accepts in
theorem alongside_scanNodes (limit : Nat) : AlongsideBodies ρ hideNames hideNames'
    (Scan.scanNodes library filter hideNames limit)
    (Scan.scanNodes library' filter' hideNames' limit) := by
  induction limit with
  | zero => exact fun _ _ _ => .throw .nestedTooDeeply
  | succ limit ih => exact fun pending scripts same =>
      alongside_nodes pending ih scripts libraries accepts same

theorem nestingBound_eq (scripts : script.Relabelled ρ twin) :
    nestingBound library' twin = nestingBound library script := by
  have length : ∀ {script twin : Script}, script.Relabelled ρ twin →
      script.root.methods.length = twin.root.methods.length :=
    fun same => same.methods.length_eq
  unfold nestingBound
  rw [length scripts]
  have all := libraries.scripts
  generalize library.scripts = left, library'.scripts = right,
    twin.root.methods.length + 2 = bound at all
  induction all generalizing bound with
  | nil => rfl
  | cons first _ ih =>
      rw [List.foldl_cons, List.foldl_cons, length first]
      exact ih _

end Libraries

end Scan

open Scan in
/-- Families of scripts that differ in names alone are scanned alike, whichever way their bodies are
named. -/
theorem CallTable.ofScript_relabelled {library library' : Library} {filter filter' : Node → Bool}
    {hideNames hideNames' : Bool} {script twin : Script} (libraries : library.Relabelled ρ library')
    (scripts : script.Relabelled ρ twin)
    (accepts : ∀ node other, ρ.alike node other → filter node = filter' other) :
    Corresponds (CompileError.Relabelled ρ) (fun table table' => ∃ s s',
      State.Relabelled ρ hideNames hideNames' s s' ∧ s.table = table ∧ s'.table = table')
      (CallTable.ofScript library filter hideNames script)
      (CallTable.ofScript library' filter' hideNames' twin) := by
  have start : State.Relabelled ρ hideNames hideNames' {} {} :=
    { table := ⟨.nil, .nil⟩
      declared := .nil
      named := by cases hideNames <;> simp [State.Named]
      named' := by cases hideNames' <;> simp [State.Named] }
  have scan : Alongside ρ hideNames hideNames'
      (do
        declareMethods script
        Scan.scanNodes library filter hideNames (nestingBound library script) [] script
          script.root.children)
      (do
        declareMethods twin
        Scan.scanNodes library' filter' hideNames' (nestingBound library' twin) [] twin
          twin.root.children) := by
    rw [nestingBound_eq libraries scripts]
    exact .andThen (alongside_declareMethods scripts)
      (alongside_scanNodes libraries accepts _ .nil scripts (Matched.single_iff.1 scripts.root).2)
  exact (scan _ _ start).map fun _ _ both => ⟨_, _, both.2, rfl, rfl⟩

end Archetype
