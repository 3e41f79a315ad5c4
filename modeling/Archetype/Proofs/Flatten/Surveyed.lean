import Archetype.Proofs.Flatten.Exploring
import Archetype.Proofs.Flatten.Reached
import Archetype.Proofs.Flatten.Rescanning

/-!
What a scan finds in any library, also one that gives different scripts of one identity: each body
of the table is scanned once, as it was when it was first reached, and as many invocations of it are
counted as there are in the script and in the bodies of the table.
-/

namespace Archetype

open Stateful

def SharedBody.callees (library : Library) (filter : Node → Bool) (body : SharedBody) :
    List Callee :=
  Node.callees library filter body.script body.nodes

namespace CallTable

def callees (library : Library) (filter : Node → Bool) (table : CallTable) : List Callee :=
  table.bodies.flatMap (·.callees library filter)

def Calls (library : Library) (filter : Node → Bool) (table : CallTable) (caller callee : Callee) :
    Prop :=
  ∃ body ∈ table.bodies, body.callee = caller ∧ callee ∈ body.callees library filter

structure Resolves (library : Library) (table : CallTable) (bodies : List Callee) (script : Script)
    (node : Node) : Prop where
  leads : ∃ callee ∈ bodies, node.callee? library script = some callee
  known : node.role = .source → (table.identity? node.origin).isSome = true

structure Grows (before after : CallTable) : Prop where
  bodies : ∀ body ∈ before.bodies, ∃ count, { body with count } ∈ after.bodies
  known : ∀ src, (before.identity? src).isSome = true → (after.identity? src).isSome = true

variable {library : Library} {filter : Node → Bool} {table before between after : CallTable}
  {callee : Callee}

theorem Grows.refl (table : CallTable) : table.Grows table :=
  ⟨fun body member => ⟨body.count, member⟩, fun _ known => known⟩

theorem Grows.trans (first : before.Grows between) (second : between.Grows after) :
    before.Grows after where
  bodies body member := by
    obtain ⟨count, there⟩ := first.bodies body member
    obtain ⟨count', there'⟩ := second.bodies _ there
    exact ⟨count', there'⟩
  known src known := second.known src (first.known src known)

theorem Grows.recount (table : CallTable) (callee : Callee) : table.Grows (table.recount callee)
    where
  bodies body member := by
    refine ⟨if body.callee = callee then body.count + 1 else body.count,
      List.mem_map.2 ⟨body, member, ?_⟩⟩
    split <;> rfl
  known _ known := known

theorem Grows.add (table : CallTable) (body : SharedBody) :
    table.Grows { table with bodies := table.bodies ++ [body] } where
  bodies old member := ⟨old.count, List.mem_append_left _ member⟩
  known _ known := known

theorem Grows.addSource (table : CallTable) (src identity : String) :
    table.Grows { table with sources := (src, identity) :: table.sources } where
  bodies body member := ⟨body.count, member⟩
  known other known := by
    unfold identity? at known ⊢
    rw [List.lookup_cons]
    split
    · rfl
    · exact known

theorem Resolves.mono {some more : List Callee} {script : Script} {node : Node}
    (grows : before.Grows after) (larger : some ⊆ more)
    (resolves : before.Resolves library some script node) :
    after.Resolves library more script node := by
  obtain ⟨⟨callee, member, leads⟩, known⟩ := resolves
  exact ⟨⟨callee, larger member, leads⟩, fun source => grows.known _ (known source)⟩

theorem callees_recount (callee : Callee) :
    (table.recount callee).callees library filter = table.callees library filter := by
  simp only [callees, recount, List.flatMap_map]
  refine List.flatMap_congr fun body _ => ?_
  split <;> rfl

theorem map_callee_recount (callee : Callee) :
    (table.recount callee).bodies.map (·.callee) = table.bodies.map (·.callee) := by
  simp only [recount, List.map_map]
  refine List.map_congr_left fun body _ => ?_
  simp only [Function.comp_apply]
  split <;> rfl

theorem body?_isSome :
    (table.body? callee).isSome = true ↔ callee ∈ table.bodies.map (·.callee) := by
  simp [body?, List.find?_isSome]

theorem body?_of_mem (distinct : (table.bodies.map (·.callee)).Nodup) {body : SharedBody}
    (member : body ∈ table.bodies) : table.body? body.callee = some body := by
  obtain ⟨other, found⟩ :=
    Option.isSome_iff_exists.1 (body?_isSome.2 (List.mem_map_of_mem member))
  rw [found, List.inj_on_of_nodup_map distinct (List.mem_of_find?_eq_some found) member
    (callee_eq_of_body? found)]

end CallTable

namespace Scan

structure State.Surveyed (library : Library) (filter : Node → Bool) (hideNames : Bool)
    (stack done : List Callee) (s : State) : Prop where
  named : s.Named hideNames
  sourced : s.table.Sourced library
  callees : (s.table.bodies.map (·.callee)).Perm (stack ++ done)
  distinct : (stack ++ done).Nodup
  counted : ∀ body ∈ s.table.bodies, 0 < body.count
  settled : Settled (s.table.Calls library filter) done
  resolved : ∀ body ∈ s.table.bodies, body.callee ∈ done →
    ∀ node ∈ Node.reachedAll filter body.nodes, s.table.Resolves library done body.script node

/-- What a scan adds that comes to invocations in a script: it is done with all that they lead to,
and every invocation is counted, also those in the bodies that are added. -/
structure Adds (library : Library) (filter : Node → Bool) (script : Script) (nodes : List Node)
    (before : State) (done : List Callee) (after : State) (done' : List Callee) : Prop where
  grows : before.table.Grows after.table
  larger : done ⊆ done'
  resolved : ∀ node ∈ nodes, after.table.Resolves library done' script node
  counted : ∀ callee,
    after.table.countOf callee + (before.table.callees library filter).count callee =
      before.table.countOf callee + (nodes.filterMap (·.callee? library script)).count callee +
        (after.table.callees library filter).count callee

def Surveys (library : Library) (filter : Node → Bool) (hideNames : Bool) (stack : List Callee)
    (script : Script) (nodes : List Node) (work : Scan Unit) : Prop :=
  ∀ s done, s.Surveyed library filter hideNames stack done →
    Ensures work s (fun _ s' => ∃ done', s'.Surveyed library filter hideNames stack done' ∧
      Adds library filter script nodes s done s' done') fun _ => True

variable {library : Library} {filter : Node → Bool} {hideNames : Bool} {stack done : List Callee}
  {script : Script} {nodes : List Node}

/-! Putting scans together. -/

theorem surveys_nil : Surveys library filter hideNames stack script [] (pure ()) := by
  intro s done surveyed
  refine ensures_pure ⟨done, surveyed, .refl _, List.Subset.refl _, nofun, fun callee => ?_⟩
  simp

theorem Adds.append {more : List Node} {a b c : State} {done' done'' : List Callee}
    (first : Adds library filter script nodes a done b done')
    (second : Adds library filter script more b done' c done'') :
    Adds library filter script (nodes ++ more) a done c done'' where
  grows := first.grows.trans second.grows
  larger := List.Subset.trans first.larger second.larger
  resolved := List.forall_mem_append.2
    ⟨fun node member => (first.resolved node member).mono second.grows second.larger,
      second.resolved⟩
  counted callee := by
    have here := first.counted callee
    have later := second.counted callee
    rw [List.filterMap_append, List.count_append]
    omega

theorem surveys_forM {visit : Node → Scan Unit} :
    ∀ {nodes : List Node},
      (∀ node ∈ nodes, Surveys library filter hideNames stack script [node] (visit node)) →
      Surveys library filter hideNames stack script nodes (nodes.forM visit)
  | [], _ => surveys_nil
  | node :: rest, each => by
      obtain ⟨here, later⟩ := List.forall_mem_cons.1 each
      intro s done surveyed
      refine ensures_bind (here s done surveyed) ?_
      rintro _ s' ⟨done', surveyed', adds⟩
      refine (surveys_forM later s' done' surveyed').imp ?_ fun _ _ => trivial
      rintro _ s'' ⟨done'', surveyed'', adds'⟩
      exact ⟨done'', surveyed'', adds.append adds'⟩

/-! What was found stays true as the table grows. -/

namespace State.Surveyed

variable {s s' : State}

theorem mem_table {callee : Callee} (surveyed : s.Surveyed library filter hideNames stack done) :
    callee ∈ stack ++ done ↔ ∃ body ∈ s.table.bodies, body.callee = callee := by
  rw [← surveyed.callees.mem_iff, List.mem_map]

theorem exists_old (surveyed : s.Surveyed library filter hideNames stack done)
    (grows : s.table.Grows s'.table) (distinct : (s'.table.bodies.map (·.callee)).Nodup)
    {body : SharedBody} (member : body ∈ s'.table.bodies) (old : body.callee ∈ done) :
    ∃ count, { body with count } ∈ s.table.bodies := by
  obtain ⟨first, there, same⟩ := surveyed.mem_table.1 (List.mem_append_right _ old)
  obtain ⟨count, grown⟩ := grows.bodies first there
  have equal : { first with count } = body := List.inj_on_of_nodup_map distinct grown member same
  refine ⟨first.count, ?_⟩
  rw [← equal]
  exact there

theorem settled_of_grows (surveyed : s.Surveyed library filter hideNames stack done)
    (grows : s.table.Grows s'.table) (distinct : (s'.table.bodies.map (·.callee)).Nodup) :
    Settled (s'.table.Calls library filter) done := by
  refine surveyed.settled.imp ?_
  rintro caller old callee ⟨body, member, rfl, calls⟩
  obtain ⟨count, there⟩ := surveyed.exists_old grows distinct member old
  exact ⟨_, there, rfl, calls⟩

theorem resolved_of_grows (surveyed : s.Surveyed library filter hideNames stack done)
    (grows : s.table.Grows s'.table) (distinct : (s'.table.bodies.map (·.callee)).Nodup) :
    ∀ body ∈ s'.table.bodies, body.callee ∈ done →
      ∀ node ∈ Node.reachedAll filter body.nodes,
        s'.table.Resolves library done body.script node := by
  intro body member old node reached
  obtain ⟨count, there⟩ := surveyed.exists_old grows distinct member old
  exact (surveyed.resolved _ there old node reached).mono grows (List.Subset.refl _)

theorem recount (surveyed : s.Surveyed library filter hideNames stack done) (callee : Callee) :
    State.Surveyed library filter hideNames stack done { s with table := s.table.recount callee }
    where
  named := surveyed.named.recount callee
  sourced := surveyed.sourced
  callees := by
    rw [CallTable.map_callee_recount]
    exact surveyed.callees
  distinct := surveyed.distinct
  counted body member := by
    obtain ⟨old, there, rfl⟩ := List.mem_map.1 member
    have counted := surveyed.counted old there
    split
    · exact Nat.succ_pos _
    · exact counted
  settled := by
    refine surveyed.settled_of_grows (.recount _ _) ?_
    rw [CallTable.map_callee_recount]
    exact surveyed.callees.nodup_iff.2 surveyed.distinct
  resolved := by
    refine surveyed.resolved_of_grows (.recount _ _) ?_
    rw [CallTable.map_callee_recount]
    exact surveyed.callees.nodup_iff.2 surveyed.distinct

theorem push {callee : Callee} {new : SharedBody}
    (surveyed : s.Surveyed library filter hideNames stack done)
    (absent : s.table.body? callee = none) (leads : new.callee = callee) (once : new.count = 1)
    (table : s'.table = { s.table with bodies := s.table.bodies ++ [new] })
    (named : s'.Named hideNames) :
    s'.Surveyed library filter hideNames (callee :: stack) done := by
  have grows : s.table.Grows s'.table := table ▸ .add _ _
  have callees : (s'.table.bodies.map (·.callee)).Perm (callee :: stack ++ done) := by
    rw [table, List.map_append, List.map_singleton, leads]
    exact (List.perm_append_singleton _ _).trans (surveyed.callees.cons callee)
  have distinct : (callee :: stack ++ done).Nodup := by
    refine List.nodup_cons.2 ⟨fun member => ?_, surveyed.distinct⟩
    have there := CallTable.body?_isSome.2 (surveyed.callees.mem_iff.2 member)
    rw [absent] at there
    cases there
  have distinct' := callees.nodup_iff.2 distinct
  refine ⟨named, ?_, callees, distinct, ?_, surveyed.settled_of_grows grows distinct',
    surveyed.resolved_of_grows grows distinct'⟩
  · rw [table]
    exact surveyed.sourced
  · rw [table]
    refine List.forall_mem_append.2 ⟨surveyed.counted, fun body member => ?_⟩
    rw [List.mem_singleton.1 member, once]
    exact Nat.one_pos

theorem pop {body : SharedBody}
    (surveyed : s.Surveyed library filter hideNames (body.callee :: stack) done)
    (member : body ∈ s.table.bodies)
    (resolved : ∀ node ∈ Node.reachedAll filter body.nodes,
      s.table.Resolves library done body.script node) :
    s.Surveyed library filter hideNames stack (body.callee :: done) := by
  have distinct := surveyed.callees.nodup_iff.2 surveyed.distinct
  have same : ∀ other ∈ s.table.bodies, other.callee = body.callee → other = body :=
    fun other there => List.inj_on_of_nodup_map distinct there member
  have settled : Settled (s.table.Calls library filter) (body.callee :: done) := by
    refine .cons (fun callee calls => ?_) surveyed.settled
    obtain ⟨caller, there, leads, calls⟩ := calls
    rw [same caller there leads] at calls
    obtain ⟨node, reached, leads⟩ := List.mem_filterMap.1 calls
    obtain ⟨other, inside, leads'⟩ := (resolved node reached).leads
    cases leads.symm.trans leads'
    exact inside
  refine ⟨surveyed.named, surveyed.sourced, ?_, ?_, surveyed.counted, settled, ?_⟩
  · exact surveyed.callees.trans List.perm_middle.symm
  · exact List.perm_middle.nodup_iff.2 surveyed.distinct
  · intro other there old node reached
    rcases List.mem_cons.1 old with here | old
    · rw [same other there here] at reached ⊢
      exact (resolved node reached).mono (.refl _) (List.subset_cons_self ..)
    · exact (surveyed.resolved other there old node reached).mono (.refl _)
        (List.subset_cons_self ..)

theorem addSource {src : String} {target : Script}
    (surveyed : s.Surveyed library filter hideNames stack done)
    (loads : library.load src = .ok target) :
    State.Surveyed library filter hideNames stack done { s with
      table := { s.table with sources := (src, target.identity) :: s.table.sources } } := by
  have distinct := surveyed.callees.nodup_iff.2 surveyed.distinct
  refine ⟨?_, ?_, surveyed.callees, surveyed.distinct, surveyed.counted,
    surveyed.settled_of_grows (.addSource ..) distinct,
    surveyed.resolved_of_grows (.addSource ..) distinct⟩
  · have named := surveyed.named
    cases hideNames <;> exact named
  · intro other identity member
    rcases List.mem_cons.1 member with same | member
    · cases same
      exact ⟨target, loads, rfl⟩
    · exact surveyed.sourced other identity member

end State.Surveyed

/-! Bodies. -/

theorem ensures_declareMethods_table (script : Script) (s : State) :
    Ensures (declareMethods script) s (fun _ s' => s'.table = s.table ∧ s'.used = s.used)
      fun _ => True := by
  suffices each : ∀ methods : List Node, ∀ s, Ensures (methods.forM (noteMethod script)) s
      (fun _ s' => s'.table = s.table ∧ s'.used = s.used) fun _ => True from each _ s
  intro methods
  induction methods with
  | nil => exact fun s => ensures_pure ⟨rfl, rfl⟩
  | cons method rest ih =>
      intro s
      refine ensures_bind (Q := fun _ s' => s'.table = s.table ∧ s'.used = s.used) ?_ ?_
      · unfold noteMethod
        split
        · exact ensures_pure ⟨rfl, rfl⟩
        · refine ensures_modify ?_
          simp only
          split <;> exact ⟨rfl, rfl⟩
      · rintro _ s' ⟨table, used⟩
        rw [← table, ← used]
        exact ih s'

structure Enters (library : Library) (filter : Node → Bool) (callee : Callee) (before : State)
    (done : List Callee) (after : State) (done' : List Callee) : Prop where
  grows : before.table.Grows after.table
  larger : done ⊆ done'
  entered : callee ∈ done'
  counted : ∀ other,
    after.table.countOf other + (before.table.callees library filter).count other =
      before.table.countOf other + [callee].count other +
        (after.table.callees library filter).count other

theorem Enters.of_new {new : SharedBody} {s s' s'' : State} {done' : List Callee}
    (absent : s.table.body? new.callee = none) (once : new.count = 1)
    (table : s'.table = { s.table with bodies := s.table.bodies ++ [new] })
    (surveyed : s''.Surveyed library filter hideNames (new.callee :: stack) done')
    (adds : Adds library filter new.script (Node.reachedAll filter new.nodes) s' done s'' done') :
    ∃ done'', s''.Surveyed library filter hideNames stack done'' ∧
      Enters library filter new.callee s done s'' done'' := by
  obtain ⟨count, there⟩ := adds.grows.bodies new (by simp [table])
  have popped := @State.Surveyed.pop _ _ _ _ _ s'' { new with count } surveyed there adds.resolved
  refine ⟨new.callee :: done', popped, ?_, ?_, ?_, fun other => ?_⟩
  · exact (table ▸ CallTable.Grows.add _ _ : s.table.Grows s'.table).trans adds.grows
  · exact List.subset_cons_of_subset _ adds.larger
  · exact List.mem_cons_self ..
  · have counted := adds.counted other
    have callees : s'.table.callees library filter =
        s.table.callees library filter ++ new.callees library filter := by
      simp [table, CallTable.callees]
    have count : s'.table.countOf other = s.table.countOf other + [new.callee].count other := by
      rw [table, CallTable.countOf_add absent, once, List.count_singleton]
      simp only [beq_iff_eq, @eq_comm _ other]
    rw [callees, List.count_append, count] at counted
    unfold SharedBody.callees Node.callees at counted
    omega

variable {scanNodes : List Callee → Script → List Node → Scan Unit}

theorem ensures_enter {callee : Callee} {base : String}
    (inner : Surveys library filter hideNames (callee :: stack) script
      (Node.reachedAll filter nodes) (scanNodes (callee :: stack) script nodes)) {s : State}
    (surveyed : s.Surveyed library filter hideNames stack done) :
    Ensures (enter hideNames stack scanNodes callee base script nodes) s
      (fun _ s' => ∃ done', s'.Surveyed library filter hideNames stack done' ∧
        Enters library filter callee s done s' done') fun _ => True := by
  unfold enter
  by_cases member : callee ∈ stack
  · simp only [member, if_true]
    exact ensures_throw_bind trivial
  simp only [member, if_false]
  refine ensures_get_bind ?_
  cases found : s.table.body? callee with
  | some body =>
      have there : callee ∈ stack ++ done := surveyed.mem_table.2
        ⟨body, List.mem_of_find?_eq_some found, CallTable.callee_eq_of_body? found⟩
      refine ensures_modify ⟨done, surveyed.recount callee, .recount _ _, List.Subset.refl _,
        (List.mem_append.1 there).resolve_left member, fun other => ?_⟩
      simp only [CallTable.countOf_recount found, CallTable.callees_recount,
        List.count_singleton, beq_iff_eq, @eq_comm _ other]
  | none =>
      refine ensures_bind (ensures_nameBody surveyed.named _) ?_
      rintro canonical named ⟨table, -, fresh⟩
      refine ensures_modify_bind ?_
      have finish : ∀ s' : State, s'.table = { s.table with bodies := s.table.bodies ++
            [⟨callee, canonical, 1, script, nodes⟩] } → s'.Named hideNames →
          Ensures (scanNodes (callee :: stack) script nodes) s'
            (fun _ s'' => ∃ done', s''.Surveyed library filter hideNames stack done' ∧
              Enters library filter callee s done s'' done') fun _ => True := by
        intro s' added named'
        have pushed := surveyed.push found rfl rfl added named'
        refine (inner s' done pushed).imp ?_ fun _ _ => trivial
        rintro _ s'' ⟨done', surveyed', adds⟩
        exact Enters.of_new found rfl added surveyed' adds
      cases callee with
      | script identity =>
          refine ensures_bind (ensures_declareMethods_table script _) ?_
          rintro _ s' ⟨table', used⟩
          exact finish s' (by rw [table', table]) ((fresh _ rfl).congr table' used)
      | method owner name => exact finish _ (by rw [table]) (fresh _ rfl)

/-! Invocations. -/

theorem surveys_visit
    (inner : ∀ callee script nodes, Surveys library filter hideNames (callee :: stack) script
      (Node.reachedAll filter nodes) (scanNodes (callee :: stack) script nodes)) (node : Node)
    (invokes : node.isInvocation = true) :
    Surveys library filter hideNames stack script [node]
      (visit library (enter hideNames stack scanNodes) script node) := by
  intro s done surveyed
  have single : ∀ {s s' : State} {done' : List Callee} {callee : Callee},
      node.callee? library script = some callee → Enters library filter callee s done s' done' →
      (node.role = .source → (s'.table.identity? node.origin).isSome = true) →
      Adds library filter script [node] s done s' done' := by
    intro s s' done' callee leads enters known
    refine ⟨enters.grows, enters.larger, fun other member => ?_, fun other => ?_⟩
    · rw [List.mem_singleton.1 member]
      exact ⟨⟨callee, enters.entered, leads⟩, known⟩
    · rw [List.filterMap_cons_some leads, List.filterMap_nil]
      exact enters.counted other
  unfold visit
  cases role : node.role with
  | source =>
      simp only [source]
      cases loads : library.load node.origin with
      | error error => exact ensures_throw trivial
      | ok target =>
          refine ensures_modify_bind ?_
          have leads : node.callee? library script = some (.script target.identity) := by
            simp [Node.callee?, role, loads, Except.toOption]
          refine (ensures_enter (inner _ _ _) (surveyed.addSource loads)).imp ?_ fun _ _ => trivial
          rintro _ s' ⟨done', surveyed', enters⟩
          have sourced : CallTable.identity? { s.table with
              sources := (node.origin, target.identity) :: s.table.sources } node.origin =
                some target.identity := by
            simp [CallTable.identity?]
          have known := enters.grows.known node.origin (by rw [sourced]; rfl)
          refine ⟨done', surveyed', single leads ?_ fun _ => known⟩
          exact ⟨(CallTable.Grows.addSource ..).trans enters.grows, enters.larger, enters.entered,
            enters.counted⟩
  | call =>
      simp only [call]
      refine ensures_get_bind ?_
      cases found : s.declared.lookup (script.identity, node.target) with
      | none => exact ensures_throw trivial
      | some method =>
          have leads : node.callee? library script =
              some (.method script.identity node.target) := by
            simp [Node.callee?, role]
          refine (ensures_enter (inner _ _ _) surveyed).imp ?_ fun _ _ => trivial
          rintro _ s' ⟨done', surveyed', enters⟩
          exact ⟨done', surveyed', single leads enters (by simp [role])⟩
  | declaration => simp [Node.isInvocation_eq, role] at invokes
  | condition => simp [Node.isInvocation_eq, role] at invokes
  | block frame => simp [Node.isInvocation_eq, role] at invokes

theorem surveys_scanNodes (limit : Nat) : ∀ (stack : List Callee) (script : Script)
    (nodes : List Node), Surveys library filter hideNames stack script
      (Node.reachedAll filter nodes)
      (Scan.scanNodes library filter hideNames limit stack script nodes) := by
  induction limit with
  | zero => exact fun _ _ _ _ _ _ => ensures_throw trivial
  | succ limit ih =>
      intro stack script nodes
      rw [Scan.scanNodes, nodes_eq_forM]
      exact surveys_forM fun node member =>
        surveys_visit (fun callee => ih (callee :: stack)) node
          (Node.isInvocation_of_reached member)

end Scan

/-- What a script is scanned into. Each body invokes only later ones in some order of them, all
invocations in them and in the script are resolved, and each is counted. -/
structure CallTable.Surveyed (library : Library) (filter : Node → Bool) (script : Script)
    (table : CallTable) (done : List Callee) : Prop where
  names : (table.bodies.map (·.canonical)).Nodup
  sourced : table.Sourced library
  callees : (table.bodies.map (·.callee)).Perm done
  distinct : done.Nodup
  settled : Settled (table.Calls library filter) done
  resolved : ∀ body ∈ table.bodies, ∀ node ∈ Node.reachedAll filter body.nodes,
    table.Resolves library done body.script node
  own : ∀ node ∈ Node.reachedAll filter script.root.body, table.Resolves library done script node
  invoked : ∀ body ∈ table.bodies, 0 < body.count
  counted : ∀ body ∈ table.bodies, body.count =
    (Node.callees library filter script script.root.body).count body.callee +
      (table.callees library filter).count body.callee

open Scan in
theorem CallTable.exists_surveyed {library : Library} {filter : Node → Bool} {hideNames : Bool}
    {script : Script} {table : CallTable}
    (gives : CallTable.ofScript library filter hideNames script = .ok table) :
    ∃ done, table.Surveyed library filter script done := by
  have scans : Ensures (do
        declareMethods script
        Scan.scanNodes library filter hideNames (nestingBound library script) [] script
          script.root.children : Scan Unit) {}
      (fun _ s => ∃ done, s.Surveyed library filter hideNames [] done ∧
        Adds library filter script (Node.reachedAll filter script.root.children) {} [] s done)
      fun _ => True := by
    refine ensures_bind (ensures_declareMethods_table script {}) ?_
    rintro _ s ⟨table, -⟩
    have start : s.Surveyed library filter hideNames [] [] :=
      { named := by cases hideNames <;> simp [State.Named, table]
        sourced := by simp [CallTable.Sourced, table]
        callees := by simp [table]
        distinct := .nil
        counted := by simp [table]
        settled := .nil
        resolved := by simp [table] }
    refine (surveys_scanNodes _ [] script _ s [] start).imp ?_ fun _ _ => trivial
    rintro _ s' ⟨done, surveyed, adds⟩
    have same : ({} : State).table = s.table := table.symm
    exact ⟨done, surveyed, same ▸ adds.grows, adds.larger, adds.resolved, same ▸ adds.counted⟩
  unfold CallTable.ofScript at gives
  simp only at gives
  generalize (do
    declareMethods script
    Scan.scanNodes library filter hideNames (nestingBound library script) [] script
      script.root.children : Scan Unit) = scan at scans gives
  cases outcome : scan.run {} with
  | error error =>
      rw [outcome] at gives
      cases gives
  | ok pair =>
      rw [outcome] at gives
      cases gives
      obtain ⟨done, surveyed, adds⟩ := scans.of_ok outcome
      have entered : ∀ body ∈ pair.2.table.bodies, body.callee ∈ done := fun body member =>
        surveyed.callees.mem_iff.1 (List.mem_map_of_mem member)
      refine ⟨done, surveyed.named.nodup, surveyed.sourced, surveyed.callees, surveyed.distinct,
        surveyed.settled, fun body member => surveyed.resolved body member (entered body member),
        ?_, surveyed.counted, fun body member => ?_⟩
      · rw [Node.body, Node.reachedAll_body]
        exact adds.resolved
      · have counted := adds.counted body.callee
        have found := CallTable.body?_of_mem
          (surveyed.callees.nodup_iff.2 surveyed.distinct) member
        have none : ({} : State).table.countOf body.callee = 0 := rfl
        rw [none, CallTable.countOf, found] at counted
        rw [Node.callees, Node.body, Node.reachedAll_body]
        simpa [CallTable.callees] using counted

end Archetype
