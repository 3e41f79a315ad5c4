import Archetype.Proofs.Flatten.Closed
import Archetype.Proofs.Flatten.Itinerary
import Archetype.Proofs.Flatten.Straight

/-!
Rebuilding sees what the scan saw. It visits as many invocations of each body as the scan counted,
none that leads nowhere, and rebuilds every body of the table once: in place of its only invocation,
or as a method.
-/

namespace Archetype

open Stateful

/-! Counting through lists of lists. -/

theorem count_flatMap_filter {α β : Type} [DecidableEq β] (f : α → List β) (item : β) :
    ∀ list : List α, ((list.filter (item ∈ f ·)).flatMap f).count item =
      (list.flatMap f).count item
  | [] => rfl
  | first :: rest => by
      have ih := count_flatMap_filter f item rest
      rw [List.filter_cons]
      split
      · rw [List.flatMap_cons, List.flatMap_cons, List.count_append, List.count_append, ih]
      · next absent =>
          have none : (f first).count item = 0 := List.count_eq_zero.2 (by simpa using absent)
          rw [List.flatMap_cons, List.count_append, ih, none, Nat.zero_add]

theorem count_flatMap_congr {α β : Type} [DecidableEq α] [DecidableEq β] {f : α → List β} {item : β}
    {list other : List α} (same : ∀ each, item ∈ f each → list.count each = other.count each) :
    (list.flatMap f).count item = (other.flatMap f).count item := by
  rw [← count_flatMap_filter, ← count_flatMap_filter f item other]
  refine List.Perm.count_eq (List.Perm.flatMap_right f (List.perm_iff_count.2 fun each => ?_)) item
  by_cases member : item ∈ f each
  · rw [List.count_filter (by simpa using member), List.count_filter (by simpa using member)]
    exact same each member
  · rw [List.count_eq_zero.2 fun inside => member (by simpa using (List.mem_filter.1 inside).2),
      List.count_eq_zero.2 fun inside => member (by simpa using (List.mem_filter.1 inside).2)]

namespace CallTable.Surveyed

variable {library : Library} {filter : Node → Bool} {script : Script} {table : CallTable}
  {done : List Callee} {log : List Encounter} {names : List String} {body : SharedBody}

theorem body?_eq (surveyed : table.Surveyed library filter script done)
    (member : body ∈ table.bodies) : table.body? body.callee = some body :=
  CallTable.body?_of_mem (surveyed.callees.nodup_iff.2 surveyed.distinct) member

theorem exists_reached (surveyed : table.Surveyed library filter script done) {caller : Script}
    {node : Node} (invokes : node.isInvocation = true)
    (resolves : table.Resolves library done caller node) :
    ∃ body, table.reached? caller node = some body ∧ body.callee ∈ done := by
  obtain ⟨callee, member, leads⟩ := resolves.leads
  obtain ⟨body, found⟩ := Option.isSome_iff_exists.1
    (CallTable.body?_isSome.2 (surveyed.callees.mem_iff.2 member))
  have same := CallTable.callee_eq_of_body? found
  refine ⟨body, ?_, same.symm ▸ member⟩
  cases role : node.role with
  | source =>
      obtain ⟨identity, known⟩ := Option.isSome_iff_exists.1 (resolves.known role)
      obtain ⟨target, loads, rfl⟩ := surveyed.sourced.exists_loaded known
      have leads' : callee = .script target.identity := by
        simpa [Node.callee?, role, loads, Except.toOption, eq_comm] using leads
      rw [CallTable.reached?, role]
      simp only [known, Option.bind_some]
      rw [← leads', found]
  | call =>
      have leads' : callee = .method caller.identity node.target := by
        simpa [Node.callee?, role, eq_comm] using leads
      rw [CallTable.reached?, role]
      simp only
      rw [← leads', found]
  | declaration => simp [Node.isInvocation_eq, role] at invokes
  | condition => simp [Node.isInvocation_eq, role] at invokes
  | block frame => simp [Node.isInvocation_eq, role] at invokes

section Itinerary

variable (surveyed : table.Surveyed library filter script done)
  (itinerary : Itinerary library filter table []
    (Node.callees library filter script script.root.body) log names)
include surveyed itinerary

/-- A body is rebuilt no later than at the first invocation of it. -/
theorem mem_rebuilt {visit : Encounter} (member : visit ∈ log) :
    visit.callee ∈ Encounter.rebuilt log := by
  by_cases called : visit.treatment = .called
  · obtain ⟨body, found, -, there⟩ := itinerary.exists_body visit member
    have named := there called
    rw [itinerary.names_eq, List.nil_append] at named
    obtain ⟨callee, inside, same⟩ := List.mem_map.1 named
    obtain ⟨first, among, rfl⟩ := List.mem_map.1 inside
    obtain ⟨other, found', -⟩ := itinerary.exists_body first (List.mem_filter.1 among).1
    rw [CallTable.canonicalOf_eq found'] at same
    have equal : other = body := List.inj_on_of_nodup_map surveyed.names
      (List.mem_of_find?_eq_some found') (List.mem_of_find?_eq_some found) same
    rw [← CallTable.callee_eq_of_body? found, ← equal, CallTable.callee_eq_of_body? found']
    refine List.mem_map.2 ⟨first, List.mem_filter.2 ⟨(List.mem_filter.1 among).1, ?_⟩, rfl⟩
    have emitted := of_decide_eq_true (List.mem_filter.1 among).2
    simp [emitted]
  · exact List.mem_map.2 ⟨visit, List.mem_filter.2 ⟨member, by simpa using called⟩, rfl⟩

/-- If a body's callers are rebuilt once, its invocations are visited as often as counted. -/
theorem count_visits_eq (member : body ∈ table.bodies)
    (callers : ∀ caller, table.Calls library filter caller body.callee →
      (Encounter.rebuilt log).count caller = 1) :
    (log.map (·.callee)).count body.callee = body.count := by
  have bodies : table.callees library filter =
      (table.bodies.map (·.callee)).flatMap (table.calleesOf library filter) := by
    rw [CallTable.callees, List.flatMap_map]
    exact List.flatMap_congr fun other inside =>
      (CallTable.calleesOf_eq (surveyed.body?_eq inside)).symm
  rw [itinerary.count_visits, surveyed.counted body member, bodies]
  congr 1
  refine count_flatMap_congr fun caller calls => ?_
  have known : ∃ other, table.body? caller = some other := by
    cases found : table.body? caller with
    | some other => exact ⟨other, rfl⟩
    | none => simp [CallTable.calleesOf, found] at calls
  obtain ⟨other, found⟩ := known
  have inside := List.mem_of_find?_eq_some found
  have same := CallTable.callee_eq_of_body? found
  rw [CallTable.calleesOf_eq found] at calls
  rw [callers caller ⟨other, inside, same, calls⟩, ← same]
  exact (List.count_eq_one_of_mem (surveyed.callees.nodup_iff.2 surveyed.distinct)
    (List.mem_map_of_mem inside)).symm

/-- What is visited as often as counted is rebuilt once. -/
theorem count_rebuilt_eq (member : body ∈ table.bodies)
    (visits : (log.map (·.callee)).count body.callee = body.count) :
    (Encounter.rebuilt log).count body.callee = 1 := by
  have some : 0 < (Encounter.rebuilt log).count body.callee := by
    have visited : 0 < (log.map (·.callee)).count body.callee :=
      visits ▸ surveyed.invoked body member
    obtain ⟨visit, inside, same⟩ := List.mem_map.1 (List.count_pos_iff.1 visited)
    exact List.count_pos_iff.2 (same ▸ surveyed.mem_rebuilt itinerary inside)
  suffices few : (Encounter.rebuilt log).count body.callee ≤ 1 by omega
  by_cases single : body.count = 1
  · rw [← single, ← visits]
    exact List.Sublist.count_le _ (List.filter_sublist.map _)
  · -- A body that is not used once is never inlined, and becomes a method at most once.
    have emitted : (Encounter.rebuilt log).count body.callee =
        (Encounter.emitted log).count body.callee := by
      simp only [Encounter.rebuilt, Encounter.emitted, List.count, List.countP_map,
        List.countP_filter]
      refine List.countP_congr fun visit inside => ?_
      obtain ⟨other, found, once, -⟩ := itinerary.exists_body visit inside
      have uninlined : visit.callee = body.callee → visit.treatment ≠ .inlined := by
        intro same inlined
        rw [same, surveyed.body?_eq member] at found
        cases found
        exact single (once inlined)
      cases treatment : visit.treatment <;> simp_all
    have distinct : (Encounter.emitted log).Nodup := by
      have names := itinerary.nodup .nil
      rw [itinerary.names_eq, List.nil_append] at names
      exact names.of_map
    rw [emitted]
    exact List.nodup_iff_count_le_one.1 distinct _

theorem rebuilt_once : ∀ body ∈ table.bodies, (Encounter.rebuilt log).count body.callee = 1 := by
  suffices along : ∀ after before, done = before ++ after →
      (∀ callee ∈ before, (Encounter.rebuilt log).count callee = 1) →
        ∀ callee ∈ after, (Encounter.rebuilt log).count callee = 1 by
    intro body member
    exact along done [] rfl nofun _ (surveyed.callees.mem_iff.1 (List.mem_map_of_mem member))
  intro after
  induction after with
  | nil => exact fun _ _ _ => nofun
  | cons callee rest ih =>
      intro before split earlier
      have settled : Settled (table.Calls library filter) (callee :: rest) :=
        (split ▸ surveyed.settled).of_append
      have fresh : callee ∉ rest :=
        (List.nodup_cons.1 (List.nodup_append.1 (split ▸ surveyed.distinct)).2.1).1
      have here : (Encounter.rebuilt log).count callee = 1 := by
        have known : callee ∈ done := split ▸ List.mem_append_right _ (List.mem_cons_self ..)
        obtain ⟨body, member, rfl⟩ := List.mem_map.1 (surveyed.callees.mem_iff.2 known)
        refine surveyed.count_rebuilt_eq itinerary member
          (surveyed.count_visits_eq itinerary member fun caller calls => ?_)
        -- A caller that comes no earlier would invoke only what comes later.
        have among : caller ∈ before ++ body.callee :: rest := by
          obtain ⟨other, inside, rfl, -⟩ := calls
          exact split ▸ surveyed.callees.mem_iff.1 (List.mem_map_of_mem inside)
        rcases List.mem_append.1 among with early | late
        · exact earlier caller early
        · exact absurd (settled.mem_rest late calls) fresh
      refine List.forall_mem_cons.2 ⟨here, ih (before ++ [callee]) (by simp [split]) ?_⟩
      exact List.forall_mem_append.2 ⟨earlier, by simpa using here⟩

theorem visited_as_counted :
    ∀ body ∈ table.bodies, (log.map (·.callee)).count body.callee = body.count := by
  intro body member
  refine surveyed.count_visits_eq itinerary member ?_
  rintro _ ⟨caller, inside, rfl, -⟩
  exact surveyed.rebuilt_once itinerary caller inside

end Itinerary

end CallTable.Surveyed

theorem forall₂_of_names {α : Type} {P : α → Node → Prop} {name : α → String} :
    ∀ {items : List α} {slots : Rebuild.Slots}, slots.names = items.map name →
      (∀ slot ∈ slots, ∀ item ∈ items, slot.1 = name item →
        ∃ node, slot.2 = some node ∧ P item node) →
      List.Forall₂ P items (slots.filterMap (·.2))
  | [], [], _, _ => .nil
  | [], _ :: _, names, _ => by cases names
  | _ :: _, [], names, _ => by cases names
  | item :: items, slot :: slots, names, each => by
      obtain ⟨here, later⟩ := List.cons_eq_cons.1 names
      obtain ⟨node, complete, holds⟩ :=
        each slot (List.mem_cons_self ..) item (List.mem_cons_self ..) here
      rw [List.filterMap_cons_some complete]
      exact .cons holds (forall₂_of_names later fun slot member item inside =>
        each slot (List.mem_cons_of_mem _ member) item (List.mem_cons_of_mem _ inside))

/-- The log of a run does justice to a call table, and so do the methods among what was built. -/
structure Accounts (table : CallTable) (filter : Node → Bool) (inline : Bool) (log : List Encounter)
    (children : List Node) : Prop where
  known : ∀ visit ∈ log, ∃ body ∈ table.bodies, body.callee = visit.callee
  visited : ∀ body ∈ table.bodies, (log.map (·.callee)).count body.callee = body.count
  once : ∀ body ∈ table.bodies, (Encounter.rebuilt log).count body.callee = 1
  single : ∀ body ∈ table.bodies, ⟨body.callee, .inlined⟩ ∈ log → body.count = 1
  methods : ∃ names, List.Forall₂ (fun callee method => ∃ body, table.body? callee = some body ∧
    Rebuild.MethodOf table filter inline names body method) (Encounter.emitted log)
      (children.filter (·.kind = .method))

namespace CallTable.Surveyed

variable {library : Library} {filter : Node → Bool} {script : Script} {table : CallTable}
  {done : List Callee} {inline : Bool} {next : NodeId}

theorem forall₂_methods {callees : List Callee} {slots : Rebuild.Slots}
    (surveyed : table.Surveyed library filter script done)
    (flat : slots.Flat table filter inline) (complete : ∀ name, (name, none) ∉ slots)
    (known : ∀ callee ∈ callees, ∃ body, table.body? callee = some body)
    (names : slots.names = callees.map table.canonicalOf) :
    List.Forall₂ (fun callee method => ∃ body, table.body? callee = some body ∧
      Rebuild.MethodOf table filter inline slots.names body method) callees
        (slots.filterMap (·.2)) := by
  refine forall₂_of_names names ?_
  rintro ⟨name, slot⟩ member callee inside same
  cases slot with
  | none => exact absurd member (complete name)
  | some method =>
      obtain ⟨body, found⟩ := known callee inside
      obtain ⟨other, found', named, made⟩ := flat.complete name method member
      have same : name = body.canonical := same.trans (CallTable.canonicalOf_eq found)
      have equal : other = body := List.inj_on_of_nodup_map surveyed.names
        (List.mem_of_find?_eq_some found') (List.mem_of_find?_eq_some found) (named.trans same)
      exact ⟨method, rfl, body, found, equal ▸ made⟩

theorem not_fails (surveyed : table.Surveyed library filter script done) {error : CompileError}
    (fails : Rebuild.script table filter inline script next = .error error) :
    ∃ fault, error = .construction fault := by
  have answers : ∀ {caller : Script} {nodes : List Node},
      (∀ node ∈ Node.reachedAll filter nodes, table.Resolves library done caller node) →
      table.Answers filter (fun error => ∃ fault, error = .construction fault) caller nodes := by
    intro caller nodes resolved node member unreached
    obtain ⟨body, reached, -⟩ := surveyed.exists_reached (Node.isInvocation_of_reached member)
      (resolved node member)
    cases unreached.symm.trans reached
  refine Rebuild.may_of_script (fun fault => ⟨fault, rfl⟩)
    (fun body member => answers (surveyed.resolved body member)) (surveyed.settled.imp ?_) ?_
    (answers surveyed.own) (fun node member body reached => ?_) fails
  · rintro caller - callee ⟨body, member, rfl, node, below, other, reached, rfl⟩
    exact ⟨body, member, rfl, List.mem_filterMap.2
      ⟨node, below, CallTable.callee?_of_reached? surveyed.sourced reached⟩⟩
  · rw [← surveyed.callees.length_eq, List.length_map]
  · exact surveyed.callees.mem_iff.1
      (List.mem_map_of_mem (CallTable.mem_of_reached? reached))

theorem exists_accounts (surveyed : table.Surveyed library filter script done)
    {children : List Node} {next' : NodeId}
    (gives : Rebuild.script table filter inline script next = .ok (children, next')) :
    ∃ log, LoggedScript table filter inline script next log children next' ∧
      Accounts table filter inline log children := by
  obtain ⟨log, body, outer, logged, rfl, rfl⟩ := Rebuild.exists_loggedScript gives
  obtain ⟨flat, complete, ⟨_, flattened⟩, -⟩ := logged.body_flattens
  have itinerary := logged.itinerary surveyed.sourced
  have known : ∀ visit ∈ log, ∃ body, table.body? visit.callee = some body := fun visit member =>
    (itinerary.exists_body visit member).imp fun _ found => found.1
  refine ⟨log, ⟨body, outer, logged, rfl, rfl⟩, ?_, surveyed.visited_as_counted itinerary,
    surveyed.rebuilt_once itinerary, ?_, Rebuild.Slots.names outer.methods, ?_⟩
  · intro visit member
    obtain ⟨body, found⟩ := known visit member
    exact ⟨body, List.mem_of_find?_eq_some found, CallTable.callee_eq_of_body? found⟩
  · intro body member inlined
    obtain ⟨other, found, single, -⟩ := itinerary.exists_body _ inlined
    cases (surveyed.body?_eq member).symm.trans found
    exact single rfl
  · have methods : ∀ method ∈ outer.methods.filterMap (·.2), method.kind = .method :=
      fun method member => (flat.method member).1
    have others : ∀ node ∈ body, node.kind ≠ .method := fun node member =>
      (flattened.flat node (Node.subset_preorderAll _ member)).1
    rw [List.filter_append, List.filter_eq_self.2 fun method member => by
        simpa using methods method member, List.filter_eq_nil_iff.2 fun node member => by
        simpa using others node member, List.append_nil]
    refine surveyed.forall₂_methods flat complete (fun callee member => ?_) itinerary.names_eq
    obtain ⟨visit, inside, rfl⟩ := List.mem_map.1 member
    exact known visit (List.mem_filter.1 inside).1

end CallTable.Surveyed

/-- What was scanned is rebuilt unless a node cannot be built: no invocation leads nowhere, each is
visited as the scan counted it, and each body is rebuilt once. -/
theorem scan_and_rebuild_agree {library : Library} {filter : Node → Bool} {hideNames : Bool}
    {script : Script} {table : CallTable}
    (scanned : CallTable.ofScript library filter hideNames script = .ok table) (inline : Bool)
    (next : NodeId) :
    match Rebuild.script table filter inline script next with
    | .error error => ∃ fault, error = .construction fault
    | .ok (children, next') => ∃ log,
        LoggedScript table filter inline script next log children next' ∧
        Accounts table filter inline log children := by
  obtain ⟨done, surveyed⟩ := CallTable.exists_surveyed scanned
  cases outcome : Rebuild.script table filter inline script next with
  | error error => exact surveyed.not_fails outcome
  | ok pair => exact surveyed.exists_accounts outcome

/-- Two sources that give different scripts of one identity. -/
def ambiguousLibrary : Library where
  entries := [("b", .ok {
      identity := "x"
      root := .bare 6 .script []
        [.bare 4 .method [("name", .string "n")]
            [.bare 3 .modelValue [("name", .string "v"), ("value", .string "1")] []],
          .bare 5 .invokeCall [("name", .string "n")] []] }),
    ("c", .ok {
      identity := "x"
      root := .bare 8 .script [] [.bare 7 .step [("name", .string "s")] []] })]

/-- A script that uses both sources, one of them in a method. -/
def ambiguousScript : Script where
  identity := "a"
  root := .bare 14 .script []
    [.bare 11 .method [("name", .string "m")] [.bare 10 .invokeSource [("src", .string "b")] []],
      .bare 12 .invokeCall [("name", .string "m")] [],
      .bare 13 .invokeSource [("src", .string "c")] []]

/-- One body is used twice and becomes a method; those used once take the place of their
invocations. -/
theorem scan_and_rebuild_agree_of_one_identity : ∃ table children next' log,
    CallTable.ofScript ambiguousLibrary (fun _ => true) false ambiguousScript = .ok table ∧
    table.bodies.map (·.count) = [1, 2, 1] ∧
    Rebuild.script table (fun _ => true) true ambiguousScript ⟨20⟩ = .ok (children, next') ∧
    LoggedScript table (fun _ => true) true ambiguousScript ⟨20⟩ log children next' ∧
    Accounts table (fun _ => true) true log children := by
  have evaluated : (CallTable.ofScript ambiguousLibrary (fun _ => true) false
      ambiguousScript).toOption.any fun table =>
        decide (table.bodies.map (·.count) = [1, 2, 1]) &&
          (Rebuild.script table (fun _ => true) true ambiguousScript ⟨20⟩).isOk := by
    decide +kernel
  obtain ⟨table, scanned, evaluated⟩ := Stateful.exists_ok_of_any evaluated
  simp only [Bool.and_eq_true, decide_eq_true_eq] at evaluated
  have agree := scan_and_rebuild_agree scanned true ⟨20⟩
  cases rebuilt : Rebuild.script table (fun _ => true) true ambiguousScript ⟨20⟩ with
  | error error => simp [rebuilt, Except.isOk, Except.toBool] at evaluated
  | ok pair =>
      obtain ⟨children, next'⟩ := pair
      simp only [rebuilt] at agree
      obtain ⟨log, logged, accounts⟩ := agree
      exact ⟨table, children, next', log, scanned, evaluated.1, rebuilt, logged, accounts⟩

end Archetype
